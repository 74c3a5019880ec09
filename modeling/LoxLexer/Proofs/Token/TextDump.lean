import LoxLexer.Proofs.Grammar.LongestMatch
import LoxLexer.Token.Dump
import Mathlib.Data.List.Forall2
import Mathlib.Data.List.Nodup

/-!
# Text dumps

A text dump writes a token as its kind, its lexeme and its literal, and escapes
nothing: a string stands there as it is, line feeds, blanks and all.  Still two
dumps are equal only if their tokens are.

No name of a kind holds a blank, so the kind is read up to the first one.  The
lexeme is then read up to the next blank, or, if it is a string, up to its
second quote.  What the literal is need not be read at all, since a lexeme of
the grammar denotes one kind and one literal; so it is known where the token
ends, whatever its literal looks like.
-/

namespace LoxLexer

open Grammar

/-! ## Names of kinds -/

namespace Kind

theorem name_injective
    {first second : Kind}
    (hname : first.name = second.name) :
    first = second := by
  have hnodup : (all.map name).Nodup := by decide
  exact List.inj_on_of_nodup_map hnodup (mem_all first) (mem_all second) hname

/-- The name of a kind is one word. -/
theorem blank_not_mem_name (kind : Kind) : ' ' ∉ kind.name.toList := by
  have hall : ∀ listed ∈ all, ' ' ∉ listed.name.toList := by decide
  exact hall kind (mem_all kind)

end Kind

/-! ## Tokens and their lexemes -/

/-- Two tokens that may stand in different places, and are alike in all else. -/
structure Token.SameContent (token other : Token) : Prop where
  kind : other.kind = token.kind
  lexeme : other.lexeme = token.lexeme
  literal : other.literal = token.literal

/-- A token is what its lexeme denotes, or the end of the input. -/
def Token.Spelled (token : Token) : Prop :=
  Denotes token.lexeme.toList token.kind token.literal ∨
    (token.kind = .endOfInput ∧ token.lexeme = "" ∧ token.literal = none)

theorem spelled_of_mem_tokensOf
    {source : List Char} {token : Token}
    (hmem : token ∈ tokensOf source) :
    token.Spelled := by
  rcases mem_tokensOf_iff.mp hmem with ⟨placed, hplaced, htoken⟩ | rfl
  · obtain ⟨hmeaning, hlexeme, -, -⟩ := Placed.token?_eq_some_iff.mp htoken
    have hvalid := (exists_of_mem_placedOf hplaced).1
    refine Or.inl (denotes_iff.mpr ⟨placed.lexeme, hvalid, ?_, hmeaning⟩)
    rw [hlexeme, String.toList_ofList]
  · exact Or.inr ⟨rfl, rfl, rfl⟩

/-- A text denotes at most one kind and one literal. -/
theorem Grammar.Denotes.unique
    {text : List Char} {kind other : Kind} {literal value : Option Literal}
    (hdenotes : Denotes text kind literal)
    (hother : Denotes text other value) :
    other = kind ∧ value = literal := by
  obtain ⟨lexeme, hvalid, htext, hmeaning⟩ := denotes_iff.mp hdenotes
  obtain ⟨found, hfound, rfl, hmeans⟩ := denotes_iff.mp hother
  obtain rfl := text_injective hvalid hfound htext
  rw [hmeaning] at hmeans
  cases hmeans
  exact ⟨rfl, rfl⟩

theorem Grammar.Denotes.ne_nil
    {text : List Char} {kind : Kind} {literal : Option Literal}
    (hdenotes : Denotes text kind literal) :
    text ≠ [] := by
  obtain ⟨lexeme, hvalid, rfl, -⟩ := denotes_iff.mp hdenotes
  exact Lexeme.text_ne_nil_of_valid hvalid

/-- Tokens with the same lexeme are the same but for their places. -/
theorem Token.Spelled.sameContent
    {token other : Token}
    (htoken : token.Spelled)
    (hother : other.Spelled)
    (hlexeme : other.lexeme = token.lexeme) :
    token.SameContent other := by
  rcases htoken with hdenotes | ⟨hkind, hempty, hnone⟩
  · rcases hother with hdenotes' | ⟨-, hempty, -⟩
    · rw [hlexeme] at hdenotes'
      obtain ⟨hkind, hliteral⟩ := hdenotes.unique hdenotes'
      exact ⟨hkind, hlexeme, hliteral⟩
    · rw [← hlexeme, hempty] at hdenotes
      exact absurd rfl hdenotes.ne_nil
  · rcases hother with hdenotes' | ⟨hkind', -, hnone'⟩
    · rw [hlexeme, hempty] at hdenotes'
      exact absurd rfl hdenotes'.ne_nil
    · exact ⟨hkind'.trans hkind.symm, hlexeme, hnone'.trans hnone.symm⟩

/-! ## Where a lexeme ends -/

/-- Two texts that each go up to a mark and do not hold it are read off alike. -/
theorem eq_of_append_cons_eq
    {mark : Char} {front other rest more : List Char}
    (hfront : mark ∉ front)
    (hother : mark ∉ other)
    (heq : front ++ mark :: rest = other ++ mark :: more) :
    front = other := by
  have hclass : ∀ text : List Char, mark ∉ text → ∀ c ∈ text, (c != mark) = true := by
    intro text htext c hc
    rw [bne_iff_ne]
    rintro rfl
    exact htext hc
  have hmark : ∀ tail, HeadAvoids (fun c => c != mark) (mark :: tail) := by
    intro tail
    exact headAvoids_cons_iff.mpr (by simp)
  rw [← takeWhile_append_eq (hclass front hfront) (hmark rest), heq,
    takeWhile_append_eq (hclass other hother) (hmark more)]

/-- Only strings hold blanks. -/
theorem Grammar.Denotes.blank_not_mem
    {text : List Char} {kind : Kind} {literal : Option Literal}
    (hdenotes : Denotes text kind literal)
    (hkind : kind ≠ .string) :
    ' ' ∉ text := by
  obtain ⟨lexeme, hvalid, rfl, hmeaning⟩ := denotes_iff.mp hdenotes
  cases lexeme with
  | operator mark =>
      have hall : ∀ listed ∈ Punctuation.all, ' ' ∉ listed.text.toList := by decide
      exact hall mark mark.mem_all
  | word letters =>
      obtain ⟨c, others, rfl, hstart, hparts⟩ := hvalid
      have hothers : ' ' ∉ others := Lexeme.not_mem_of_class hparts (by decide)
      have hblank : Lexeme.isBlank c = false := (Lexeme.of_class hstart (by decide)).2.1
      simp only [Lexeme.text, List.mem_cons, not_or]
      refine ⟨?_, hothers⟩
      rintro rfl
      cases hblank
  | number whole fraction =>
      obtain ⟨⟨-, hwhole⟩, hfraction⟩ := hvalid
      have hdigits : ' ' ∉ whole := Lexeme.not_mem_of_class hwhole (by decide)
      cases fraction with
      | none => exact hdigits
      | some places =>
          have hplaces : ' ' ∉ places :=
            Lexeme.not_mem_of_class (hfraction places rfl).2 (by decide)
          simp [Lexeme.text, hdigits, hplaces]
  | string body =>
      cases hmeaning
      exact absurd rfl hkind
  | _ => cases hmeaning

theorem Grammar.Denotes.exists_body
    {text : List Char} {literal : Option Literal}
    (hdenotes : Denotes text .string literal) :
    ∃ body, text = '"' :: (body ++ ['"']) ∧ '"' ∉ body := by
  obtain ⟨lexeme, hvalid, rfl, hmeaning⟩ := denotes_iff.mp hdenotes
  cases lexeme with
  | string body => exact ⟨body, rfl, hvalid⟩
  | word letters =>
      have hkind := (Meaning.token.inj hmeaning).1
      unfold Kind.ofWord at hkind
      split at hkind <;> cases hkind
  | _ => cases hmeaning

namespace Token

variable {token other : Token} {rest more : List Char}

theorem Spelled.blank_not_mem
    (htoken : token.Spelled)
    (hkind : token.kind ≠ .string) :
    ' ' ∉ token.lexeme.toList := by
  rcases htoken with hdenotes | ⟨-, hempty, -⟩
  · exact hdenotes.blank_not_mem hkind
  · rw [hempty]
    exact List.not_mem_nil

theorem Spelled.exists_body
    (htoken : token.Spelled)
    (hkind : token.kind = .string) :
    ∃ body, token.lexeme.toList = '"' :: (body ++ ['"']) ∧ '"' ∉ body := by
  rcases htoken with hdenotes | ⟨hend, -, -⟩
  · rw [hkind] at hdenotes
    exact hdenotes.exists_body
  · rw [hkind] at hend
    cases hend

/-- The kind tells where the lexeme before a blank ends. -/
theorem Spelled.lexeme_eq
    (htoken : token.Spelled)
    (hother : other.Spelled)
    (hkind : other.kind = token.kind)
    (heq : token.lexeme.toList ++ ' ' :: rest = other.lexeme.toList ++ ' ' :: more) :
    other.lexeme = token.lexeme := by
  apply String.toList_injective
  by_cases hstring : token.kind = .string
  · obtain ⟨body, htext, hbody⟩ := htoken.exists_body hstring
    obtain ⟨body', htext', hbody'⟩ := hother.exists_body (hkind.trans hstring)
    rw [htext, htext'] at heq ⊢
    simp only [List.cons_append, List.append_assoc, List.cons.injEq, true_and,
      List.nil_append] at heq
    rw [eq_of_append_cons_eq hbody hbody' heq]
  · have hblank := htoken.blank_not_mem hstring
    have hblank' := hother.blank_not_mem (by rwa [hkind])
    exact (eq_of_append_cons_eq hblank hblank' heq).symm

/-! ## Dumps -/

/-- The line of a token in a text dump; a string can make it several. -/
def entry (token : Token) : List Char := token.text.toList ++ ['\n']

theorem toList_dump_text (tokens : List Token) :
    (dump .text tokens).toList = tokens.flatMap entry := by
  rw [dump, String.toList_join, List.flatMap_map]
  congr 1
  funext token
  rw [entry, String.toList_append]
  rfl

theorem entry_ne_nil (token : Token) : token.entry ≠ [] :=
  List.append_ne_nil_of_right_ne_nil _ (List.cons_ne_nil _ _)

theorem SameContent.entry_eq
    (hsame : token.SameContent other) :
    other.entry = token.entry := by
  rw [entry, entry, text, text, literalText, literalText, hsame.kind, hsame.lexeme,
    hsame.literal]

/-- Of two dumps that are equal the first tokens are alike. -/
theorem Spelled.sameContent_of_entry_append
    (htoken : token.Spelled)
    (hother : other.Spelled)
    (heq : token.entry ++ rest = other.entry ++ more) :
    token.SameContent other := by
  have hparts : ∀ (shown : Token) (after : List Char), shown.entry ++ after =
      shown.kind.name.toList ++ ' ' :: (shown.lexeme.toList ++
        ' ' :: (shown.literalText.toList ++ '\n' :: after)) := by
    intro shown after
    simp [entry, text]
  rw [hparts, hparts] at heq
  have hname := eq_of_append_cons_eq token.kind.blank_not_mem_name
    other.kind.blank_not_mem_name heq
  have hkind : other.kind = token.kind :=
    Kind.name_injective (String.toList_injective hname.symm)
  rw [hname, List.append_cancel_left_eq, List.cons.injEq] at heq
  exact htoken.sameContent hother (htoken.lexeme_eq hother hkind heq.2)

theorem forall₂_sameContent_of_flatMap_entry_eq
    {tokens others : List Token}
    (htokens : ∀ token ∈ tokens, token.Spelled)
    (hothers : ∀ token ∈ others, token.Spelled)
    (heq : tokens.flatMap entry = others.flatMap entry) :
    List.Forall₂ SameContent tokens others := by
  -- one token is read off both dumps at a time
  induction tokens generalizing others with
  | nil =>
      cases others with
      | nil => exact .nil
      | cons other more =>
          rw [List.flatMap_cons] at heq
          exact absurd heq.symm (List.append_ne_nil_of_left_ne_nil other.entry_ne_nil _)
  | cons token rest ih =>
      cases others with
      | nil =>
          rw [List.flatMap_cons] at heq
          exact absurd heq (List.append_ne_nil_of_left_ne_nil token.entry_ne_nil _)
      | cons other more =>
          rw [List.forall_mem_cons] at htokens hothers
          rw [List.flatMap_cons, List.flatMap_cons] at heq
          have hsame := htokens.1.sameContent_of_entry_append hothers.1 heq
          rw [hsame.entry_eq, List.append_cancel_left_eq] at heq
          exact .cons hsame (ih htokens.2 hothers.2 heq)

theorem flatMap_entry_eq_of_forall₂
    {tokens others : List Token}
    (hsame : List.Forall₂ SameContent tokens others) :
    tokens.flatMap entry = others.flatMap entry := by
  induction hsame with
  | nil => rfl
  | cons hfirst _ ih => rw [List.flatMap_cons, List.flatMap_cons, hfirst.entry_eq, ih]

end Token

/-- The text dumps of two scans are equal exactly if the tokens agree one by one
in kind, lexeme and literal. -/
theorem scan_textDump_eq_iff
    {first second : String}
    (hfirst : first.length ≤ 4294967294)
    (hsecond : second.length ≤ 4294967294) :
    ∃ result other, scan first = .ok result ∧ scan second = .ok other ∧
      (Token.dump .text result.tokens = Token.dump .text other.tokens ↔
        List.Forall₂ Token.SameContent result.tokens other.tokens) := by
  obtain ⟨result, hresult, htokens, -⟩ := exists_scan_eq_ok (fitsWords_of_length_le hfirst)
  obtain ⟨other, hother, htokens', -⟩ := exists_scan_eq_ok (fitsWords_of_length_le hsecond)
  refine ⟨result, other, hresult, hother, ?_⟩
  rw [← String.toList_inj, Token.toList_dump_text, Token.toList_dump_text]
  constructor
  · intro heq
    refine Token.forall₂_sameContent_of_flatMap_entry_eq ?_ ?_ heq
    · intro token hmem
      rw [htokens] at hmem
      exact spelled_of_mem_tokensOf hmem
    · intro token hmem
      rw [htokens'] at hmem
      exact spelled_of_mem_tokensOf hmem
  · exact Token.flatMap_entry_eq_of_forall₂

/-- A string over three lines, the second of which looks like the end of a dump,
in two sources that differ in blanks and comments. -/
theorem scan_textDump_eq_iff_of_imitation :
    "\"a\nEOF  null\nb\" 3.c".length ≤ 4294967294 ∧
      "// d\n\"a\nEOF  null\nb\"\t3.c\n".length ≤ 4294967294 ∧
      ∃ result other, scan "\"a\nEOF  null\nb\" 3.c" = .ok result ∧
        scan "// d\n\"a\nEOF  null\nb\"\t3.c\n" = .ok other ∧
        (Token.dump .text result.tokens = Token.dump .text other.tokens ↔
          List.Forall₂ Token.SameContent result.tokens other.tokens) :=
  ⟨by decide, by decide, scan_textDump_eq_iff (by decide) (by decide)⟩

end LoxLexer
