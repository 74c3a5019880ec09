import LoxLexer.Proofs.Json.RoundTrip
import LoxLexer.Proofs.Token.TextDump

/-!
# JSON dumps

A JSON dump is read back as an array of objects, one for each token, in which
every field of the token is found.  An infinite number is read as null, and so
is a literal that is absent; but the lexeme, which is read as it is, tells these
apart, and so the dump gives the tokens of a scan back whole.
-/

namespace LoxLexer

open Grammar

/-! ## What is read for a token -/

/-- The document of a natural. -/
def Json.Document.natural (number : ℕ) : Document := .number false number

/-- What is read for a literal that may be absent: null for none, a string as it
is, and for a number another one to which it is nearest, or null if it is
infinite. -/
def Literal.ReadAs : Option Literal → Json.Document → Prop
  | none, document => document = .null
  | some (.string value), document => document = .string value
  | some (.number value), document =>
      (value.isInfinite = true ∧ document = .null) ∨
        (value.isFinite = true ∧ ∃ negative magnitude,
          document = .number negative magnitude ∧
            Binary64.nearestTo negative magnitude = value)

/-- What is read for a token: an object of its five fields. -/
def Token.ReadAs (token : Token) (document : Json.Document) : Prop :=
  ∃ literal, Literal.ReadAs token.literal literal ∧
    document = .object
      [("kind", .string token.kind.name),
       ("lexeme", .string token.lexeme),
       ("literal", literal),
       ("line", .natural token.line.toNat),
       ("span", .object
         [("start", .natural token.span.start.toNat),
          ("length", .natural token.span.length.toNat)])]

/-- Only numbers mean numbers, and what they mean is a number. -/
theorem Lexeme.isNaN_of_meaning_number
    {lexeme : Lexeme} {kind : Kind} {value : Binary64}
    (hmeaning : lexeme.meaning = .token kind (some (.number value))) :
    value.isNaN = false := by
  cases lexeme with
  | number whole fraction =>
      cases hmeaning
      exact Binary64.isNaN_nearest _
  | _ => cases hmeaning

namespace Token

variable {token other : Token} {document : Json.Document}

theorem Spelled.isNaN_eq_false
    (htoken : token.Spelled)
    (value : Binary64)
    (hliteral : token.literal = some (.number value)) :
    value.isNaN = false := by
  rcases htoken with hdenotes | ⟨-, -, hnone⟩
  · obtain ⟨lexeme, -, -, hmeaning⟩ := denotes_iff.mp hdenotes
    rw [hliteral] at hmeaning
    exact Lexeme.isNaN_of_meaning_number hmeaning
  · rw [hliteral] at hnone
    cases hnone

/-- The document of a literal is what is read for it. -/
theorem Spelled.literal_readAs
    (htoken : token.Spelled) :
    Literal.ReadAs token.literal
      (Json.document ((token.literal.map Literal.json).getD .null)) := by
  have hnumber := fun value => htoken.isNaN_eq_false value
  generalize token.literal = literal at hnumber
  match literal with
  | none =>
      rw [Option.map_none, Option.getD_none, Json.document]
      rfl
  | some (.string value) =>
      rw [Option.map_some, Option.getD_some, Literal.json, Json.document]
      rfl
  | some (.number value) =>
      rw [Option.map_some, Option.getD_some, Literal.json, Json.document]
      rcases Binary64.isInfinite_or_isFinite (hnumber value rfl) with hinfinite | hfinite
      · have hnot : ¬ value.isFinite = true := by
          simp only [Binary64.isInfinite, Binary64.isFinite, decide_eq_true_eq] at *
          omega
        rw [if_neg hnot]
        exact Or.inl ⟨hinfinite, rfl⟩
      · rw [if_pos hfinite]
        exact Or.inr ⟨hfinite, _, _, rfl,
          Binary64.nearestTo_shortestValue hfinite Json.numberLayout.tie⟩

/-- A token is read as the document of its JSON object. -/
theorem Spelled.readAs_document
    (htoken : token.Spelled) :
    token.ReadAs (Json.document token.json) := by
  refine ⟨_, htoken.literal_readAs, ?_⟩
  simp only [json, Span.json, Json.document, Json.memberDocuments, Json.Document.natural]

theorem Spelled.forall₂_readAs
    {tokens : List Token}
    (htokens : ∀ token ∈ tokens, token.Spelled) :
    List.Forall₂ ReadAs tokens (Json.documents (tokens.map json)) := by
  induction tokens with
  | nil => exact .nil
  | cons token others ih =>
      rw [List.forall_mem_cons] at htokens
      exact .cons htokens.1.readAs_document (ih htokens.2)

/-! ## The token is given back -/

theorem natural_injective
    {word other : Word}
    (heq : Json.Document.natural word.toNat = Json.Document.natural other.toNat) :
    word = other := by
  have hcast := (Json.Document.number.inj heq).2
  exact UInt32.toNat_inj.mp (Nat.cast_injective hcast)

theorem SameContent.eq_of_places
    (hsame : token.SameContent other)
    (hline : token.line = other.line)
    (hstart : token.span.start = other.span.start)
    (hlength : token.span.length = other.span.length) :
    token = other := by
  obtain ⟨hkind, hlexeme, hliteral⟩ := hsame
  obtain ⟨kind, lexeme, literal, line, start, length⟩ := token
  obtain ⟨kind', lexeme', literal', line', start', length'⟩ := other
  dsimp only at hkind hlexeme hliteral hline hstart hlength
  rw [hkind, hlexeme, hliteral, hline, hstart, hlength]

/-- No two tokens of scans are read as the same document. -/
theorem ReadAs.unique
    (htoken : token.Spelled)
    (hother : other.Spelled)
    (hread : token.ReadAs document)
    (hread' : other.ReadAs document) :
    token = other := by
  obtain ⟨literal, -, rfl⟩ := hread
  obtain ⟨literal', -, heq⟩ := hread'
  simp only [Json.Document.object.injEq, List.cons.injEq, Prod.mk.injEq, true_and, and_true,
    Json.Document.string.injEq] at heq
  obtain ⟨-, hlexeme, -, hline, hstart, hlength⟩ := heq
  exact (htoken.sameContent hother hlexeme.symm).eq_of_places (natural_injective hline)
    (natural_injective hstart) (natural_injective hlength)

theorem eq_of_forall₂_readAs
    {tokens others : List Token} {documents : List Json.Document}
    (htokens : ∀ token ∈ tokens, token.Spelled)
    (hothers : ∀ token ∈ others, token.Spelled)
    (hread : List.Forall₂ ReadAs tokens documents)
    (hread' : List.Forall₂ ReadAs others documents) :
    tokens = others := by
  have hunique : Relator.LeftUnique fun token document =>
      Spelled token ∧ ReadAs token document :=
    fun _ _ _ hfirst hsecond => hfirst.2.unique hfirst.1 hsecond.1 hsecond.2
  exact hunique.forall₂ ((List.forall₂_and_left _ _).mpr ⟨htokens, hread⟩)
    ((List.forall₂_and_left _ _).mpr ⟨hothers, hread'⟩)

end Token

/-- A JSON dump is read back as an array of its tokens. -/
theorem read_dump_json (tokens : List Token) :
    Json.read (Token.dump .json tokens) =
      some (.array (Json.documents (tokens.map Token.json))) := by
  have hfeed : ∀ c ∈ ['\n'], Json.Reader.isBlank c = true :=
    List.forall_mem_singleton.mpr rfl
  have hdump : Token.dump .json tokens =
      String.ofList (Json.text (.indented 0) (.array (tokens.map Token.json)) ++ ['\n']) := by
    rw [String.ofList_append]
    rfl
  rw [hdump, Json.read_text hfeed, Json.document]

/-- The JSON dump of a scan is read back as its tokens, in every field, and no
other tokens of a scan have the same dump. -/
theorem scan_jsonDump_faithful
    {source : String}
    (hlength : source.length ≤ 4294967294) :
    ∃ result, scan source = .ok result ∧
      (∃ documents, Json.read (Token.dump .json result.tokens) = some (.array documents) ∧
        List.Forall₂ Token.ReadAs result.tokens documents) ∧
      ∀ other : String, other.length ≤ 4294967294 →
        ∃ second, scan other = .ok second ∧
          (Token.dump .json second.tokens = Token.dump .json result.tokens →
            second.tokens = result.tokens) := by
  have hspelled : ∀ (text : String) (shown : Scan Log), text.length ≤ 4294967294 →
      scan text = .ok shown → ∀ token ∈ shown.tokens, token.Spelled := by
    intro text shown htext hshown token hmem
    rw [(eq_of_scan_eq_ok (fitsWords_of_length_le htext) hshown).1] at hmem
    exact spelled_of_mem_tokensOf hmem
  obtain ⟨result, hresult, -⟩ := exists_scan_eq_ok (fitsWords_of_length_le hlength)
  have htokens := hspelled source result hlength hresult
  have hread := Token.Spelled.forall₂_readAs htokens
  refine ⟨result, hresult, ⟨_, read_dump_json result.tokens, hread⟩, ?_⟩
  intro other hother
  obtain ⟨second, hsecond, -⟩ := exists_scan_eq_ok (fitsWords_of_length_le hother)
  refine ⟨second, hsecond, ?_⟩
  intro hdump
  have hothers := hspelled other second hother hsecond
  have hdocuments := read_dump_json second.tokens
  rw [hdump, read_dump_json, Option.some.injEq, Json.Document.array.injEq] at hdocuments
  rw [hdocuments] at hread
  exact Token.eq_of_forall₂_readAs hothers htokens (Token.Spelled.forall₂_readAs hothers) hread

/-- A string that has to be escaped, over two lines, and a number that is not
exact. -/
theorem scan_jsonDump_faithful_of_escapes :
    "\"\\\t\x01\n/\" 0.1".length ≤ 4294967294 ∧
      ∃ result, scan "\"\\\t\x01\n/\" 0.1" = .ok result ∧
        (∃ documents, Json.read (Token.dump .json result.tokens) = some (.array documents) ∧
          List.Forall₂ Token.ReadAs result.tokens documents) ∧
        ∀ other : String, other.length ≤ 4294967294 →
          ∃ second, scan other = .ok second ∧
            (Token.dump .json second.tokens = Token.dump .json result.tokens →
              second.tokens = result.tokens) :=
  ⟨by decide, scan_jsonDump_faithful (by decide)⟩

end LoxLexer
