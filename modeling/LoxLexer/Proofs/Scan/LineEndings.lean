import LoxLexer.Proofs.Scan.Run
import Mathlib.Data.List.Forall2

/-!
# Line endings

A carriage return before each line feed of a source changes neither its tokens
nor its diagnostics, but for the returns that are now inside lexemes and before
them.

Lexeme by lexeme the two sources are not cut alike.  A return before a feed is
a blank of its own, except after a comment, which goes on over it.  All these
mean nothing, so the lexemes are compared without those that mean nothing
(`forall₂_tellingFrom`).
-/

namespace LoxLexer

/-! ## Texts with returns -/

/-- A text with a carriage return before each of its line feeds. -/
def withReturns (text : List Char) : List Char :=
  text.flatMap fun c => if c = '\n' then ['\r', '\n'] else [c]

/-- A source with a carriage return before each of its line feeds. -/
def sourceWithReturns (source : String) : String :=
  String.ofList (withReturns source.toList)

@[simp] theorem withReturns_nil : withReturns [] = [] := rfl

@[simp] theorem withReturns_append (front back : List Char) :
    withReturns (front ++ back) = withReturns front ++ withReturns back :=
  List.flatMap_append

@[simp] theorem withReturns_cons_feed (rest : List Char) :
    withReturns ('\n' :: rest) = '\r' :: '\n' :: withReturns rest := rfl

theorem withReturns_cons_of_ne
    {c : Char}
    (hc : c ≠ '\n')
    (rest : List Char) :
    withReturns (c :: rest) = c :: withReturns rest := by
  rw [withReturns, List.flatMap_cons, if_neg hc]
  rfl

theorem withReturns_of_not_mem
    {text : List Char}
    (hfeed : '\n' ∉ text) :
    withReturns text = text := by
  induction text with
  | nil => rfl
  | cons c others ih =>
      rw [List.mem_cons, not_or] at hfeed
      rw [withReturns_cons_of_ne (Ne.symm hfeed.1), ih hfeed.2]

theorem count_withReturns
    (text : List Char) :
    (withReturns text).count '\n' = text.count '\n' := by
  induction text with
  | nil => rfl
  | cons c others ih =>
      by_cases hfeed : c = '\n'
      · subst hfeed
        simp [ih]
      · rw [withReturns_cons_of_ne hfeed, List.count_cons, List.count_cons, ih]

/-- A text grows by one character for each of its line feeds. -/
theorem length_withReturns
    (text : List Char) :
    (withReturns text).length = text.length + text.count '\n' := by
  induction text with
  | nil => rfl
  | cons c others ih =>
      by_cases hfeed : c = '\n'
      · subst hfeed
        simp only [withReturns_cons_feed, List.length_cons, List.count_cons_self, ih]
        omega
      · rw [withReturns_cons_of_ne hfeed, List.length_cons, List.length_cons, ih,
          List.count_cons_of_ne hfeed]
        omega

theorem FitsWords.of_withReturns
    {text : List Char}
    (hfits : FitsWords (withReturns text)) :
    FitsWords text := by
  rw [FitsWords, length_withReturns] at hfits
  rw [FitsWords]
  omega

/-- Nothing but returns is put into a text. -/
theorem not_mem_withReturns
    {text : List Char} {c : Char}
    (htext : c ∉ text)
    (hc : c ≠ '\r') :
    c ∉ withReturns text := by
  simp only [withReturns, List.mem_flatMap, not_exists, not_and]
  intro d hd hmem
  split at hmem
  · rename_i hfeed
    subst hfeed
    simp only [List.mem_cons, List.not_mem_nil, or_false] at hmem
    rcases hmem with rfl | rfl
    · exact hc rfl
    · exact htext hd
  · obtain rfl := List.mem_singleton.mp hmem
    exact htext hd

/-- Returns are put within a text: what it begins with, other than a return, it
began with before. -/
theorem exists_eq_cons_of_withReturns
    {text others : List Char} {c : Char}
    (htext : withReturns text = c :: others)
    (hc : c ≠ '\r') :
    ∃ more, text = c :: more ∧ others = withReturns more := by
  cases text with
  | nil => cases htext
  | cons d more =>
      by_cases hfeed : d = '\n'
      · subst hfeed
        exact absurd (List.cons.inj htext).1.symm hc
      · rw [withReturns_cons_of_ne hfeed] at htext
        obtain ⟨rfl, rfl⟩ := List.cons.inj htext
        exact ⟨more, rfl, rfl⟩

theorem headAvoids_withReturns
    {p : Char → Bool} {rest : List Char}
    (havoids : HeadAvoids p rest)
    (hp : p '\r' = false) :
    HeadAvoids p (withReturns rest) := by
  intro c hc
  obtain ⟨others, hothers⟩ := List.head?_eq_some_iff.mp hc
  by_cases hreturn : c = '\r'
  · rw [hreturn]
    exact hp
  · obtain ⟨more, rfl, -⟩ := exists_eq_cons_of_withReturns hothers hreturn
    exact headAvoids_cons_iff.mp havoids

theorem head?_withReturns_ne
    {rest : List Char} {c : Char}
    (hhead : rest.head? ≠ some c)
    (hc : c ≠ '\r') :
    (withReturns rest).head? ≠ some c := by
  intro heq
  obtain ⟨others, hothers⟩ := List.head?_eq_some_iff.mp heq
  obtain ⟨more, rfl, -⟩ := exists_eq_cons_of_withReturns hothers hc
  exact hhead rfl

/-! ## Lexemes with returns -/

/-- A literal with returns in its string. -/
def Literal.withReturns : Literal → Literal
  | .number value => .number value
  | .string value => .string (sourceWithReturns value)

/-- A meaning with returns in its literal. -/
def Meaning.withReturns : Meaning → Meaning
  | .token kind literal => .token kind (literal.map Literal.withReturns)
  | meaning => meaning

namespace Lexeme

/-- A lexeme with returns in its text.  Only strings hold line feeds, apart from
the line feed itself, which stays what it is. -/
def withReturns : Lexeme → Lexeme
  | .string body => .string (LoxLexer.withReturns body)
  | .unterminated body => .unterminated (LoxLexer.withReturns body)
  | lexeme => lexeme

/-- A lexeme that makes a token or a diagnostic. -/
def tells (lexeme : Lexeme) : Bool :=
  match lexeme.meaning with
  | .nothing => false
  | .token _ _ | .error _ _ => true

theorem meaning_of_not_tells
    {lexeme : Lexeme}
    (htells : lexeme.tells = false) :
    lexeme.meaning = .nothing := by
  unfold tells at htells
  cases hmeaning : lexeme.meaning with
  | nothing => rfl
  | token kind literal =>
      rw [hmeaning] at htells
      cases htells
  | error template arguments =>
      rw [hmeaning] at htells
      cases htells

theorem meaning_withReturns (lexeme : Lexeme) :
    lexeme.withReturns.meaning = lexeme.meaning.withReturns := by
  cases lexeme with
  | string body =>
      simp [withReturns, meaning, Meaning.withReturns, Literal.withReturns, sourceWithReturns]
  | _ => rfl

theorem tells_withReturns (lexeme : Lexeme) :
    lexeme.withReturns.tells = lexeme.tells := by
  cases lexeme <;> rfl

theorem valid_withReturns
    {lexeme : Lexeme}
    (hvalid : lexeme.Valid) :
    lexeme.withReturns.Valid := by
  cases lexeme with
  | string body => exact not_mem_withReturns hvalid (by decide)
  | unterminated body => exact not_mem_withReturns hvalid (by decide)
  | _ => exact hvalid

theorem text_withReturns
    {lexeme : Lexeme}
    (hvalid : lexeme.Valid)
    (hfeed : lexeme ≠ .lineFeed) :
    lexeme.withReturns.text = LoxLexer.withReturns lexeme.text := by
  cases lexeme with
  | lineFeed => exact absurd rfl hfeed
  | string body =>
      simp only [withReturns, text]
      rw [withReturns_cons_of_ne (by decide), withReturns_append]
      rfl
  | unterminated body =>
      simp only [withReturns, text]
      rw [withReturns_cons_of_ne (by decide)]
  | _ =>
      -- the other lexemes hold no line feed
      have hcount := lineFeeds_eq_count hvalid
      exact (withReturns_of_not_mem (List.count_eq_zero.mp hcount.symm)).symm

/-- A lexeme stops before returns too, unless it is a comment before the end of
its line. -/
theorem Stops.withReturns
    {lexeme : Lexeme} {rest : List Char}
    (hstops : lexeme.Stops rest)
    (hcomment : ∀ body, lexeme = .comment body → rest = []) :
    lexeme.withReturns.Stops (LoxLexer.withReturns rest) := by
  cases lexeme with
  | operator mark =>
      exact ⟨fun hsome => head?_withReturns_ne (hstops.1 hsome) (by decide),
        fun hslash => head?_withReturns_ne (hstops.2 hslash) (by decide)⟩
  | word letters => exact headAvoids_withReturns hstops (by decide)
  | number whole fraction =>
      cases fraction with
      | none =>
          refine ⟨headAvoids_withReturns hstops.1 (by decide), ?_⟩
          intro d others hpoint
          obtain ⟨more, rfl, hmore⟩ := exists_eq_cons_of_withReturns hpoint (by decide)
          have hdigit : HeadAvoids Char.isDigit more := by
            cases more with
            | nil => exact headAvoids_nil _
            | cons e places => exact headAvoids_cons_iff.mpr (hstops.2 e places rfl)
          have havoids := headAvoids_withReturns hdigit (by decide)
          rw [← hmore] at havoids
          exact headAvoids_cons_iff.mp havoids
      | some places => exact headAvoids_withReturns hstops (by decide)
  | comment body =>
      obtain rfl := hcomment body rfl
      exact headAvoids_nil isCommentPart
  | unterminated body =>
      obtain rfl : rest = [] := hstops
      rfl
  | string body => trivial
  | blank c => trivial
  | lineFeed => trivial
  | unexpected c => trivial

end Lexeme

/-! ## The lexemes that tell -/

/-- The lexemes of a source that make a token or a diagnostic, the source
standing after a text. -/
def tellingFrom (before source : List Char) : List Placed :=
  (place before (Lexeme.cut source)).filter fun placed => placed.lexeme.tells

theorem tellingFrom_nil (before : List Char) : tellingFrom before [] = [] := by
  simp [tellingFrom, place]

theorem tellingFrom_append
    {lexeme : Lexeme} {rest : List Char}
    (before : List Char)
    (hvalid : lexeme.Valid)
    (hstops : lexeme.Stops rest) :
    tellingFrom before (lexeme.text ++ rest) =
      ([⟨before, lexeme⟩] : List Placed).filter (fun placed => placed.lexeme.tells) ++
        tellingFrom (before ++ lexeme.text) rest := by
  rw [tellingFrom, Lexeme.cut_append hvalid hstops, place, ← List.singleton_append,
    List.filter_append, tellingFrom]

/-- A lexeme that does not tell is passed over. -/
theorem tellingFrom_append_of_not_tells
    {lexeme : Lexeme} {rest : List Char}
    (before : List Char)
    (hvalid : lexeme.Valid)
    (hstops : lexeme.Stops rest)
    (htells : lexeme.tells = false) :
    tellingFrom before (lexeme.text ++ rest) = tellingFrom (before ++ lexeme.text) rest := by
  rw [tellingFrom_append before hvalid hstops, List.filter_singleton, htells]
  rfl

theorem tellingFrom_return
    (before rest : List Char) :
    tellingFrom before ('\r' :: rest) = tellingFrom (before ++ ['\r']) rest := by
  have hvalid : (Lexeme.blank '\r').Valid := rfl
  exact tellingFrom_append_of_not_tells before hvalid trivial rfl

theorem tellingFrom_feed
    (before rest : List Char) :
    tellingFrom before ('\n' :: rest) = tellingFrom (before ++ ['\n']) rest := by
  have hvalid : Lexeme.lineFeed.Valid := trivial
  exact tellingFrom_append_of_not_tells before hvalid trivial rfl

/-- A comment goes on over the return at the end of its line, and nothing is
told of either. -/
theorem tellingFrom_comment
    {body rest : List Char}
    (before : List Char)
    (hbody : '\n' ∉ body)
    (hrest : HeadAvoids Lexeme.isCommentPart rest) :
    tellingFrom before ((Lexeme.comment body).text ++ '\r' :: rest) =
      tellingFrom (before ++ (Lexeme.comment body).text) ('\r' :: rest) := by
  have hlonger : (Lexeme.comment (body ++ ['\r'])).Valid := by
    have hmem : '\n' ∉ body ++ ['\r'] := by simpa using hbody
    exact hmem
  have hstops : (Lexeme.comment (body ++ ['\r'])).Stops rest := hrest
  have htext : (Lexeme.comment body).text ++ '\r' :: rest =
      (Lexeme.comment (body ++ ['\r'])).text ++ rest := by
    simp [Lexeme.text]
  rw [htext, tellingFrom_append_of_not_tells before hlonger hstops rfl, tellingFrom_return]
  congr 1
  simp [Lexeme.text]

/-- With returns the first lexeme of a text tells what it told before, and what
remains is told of after it. -/
theorem tellingFrom_withReturns
    {lexeme : Lexeme} {rest : List Char}
    (before : List Char)
    (hvalid : lexeme.Valid)
    (hstops : lexeme.Stops rest) :
    tellingFrom before (withReturns (lexeme.text ++ rest)) =
      ([⟨before, lexeme.withReturns⟩] : List Placed).filter
          (fun placed => placed.lexeme.tells) ++
        tellingFrom (before ++ withReturns lexeme.text) (withReturns rest) := by
  rw [withReturns_append]
  by_cases hfeed : lexeme = .lineFeed
  · subst hfeed
    have htext : withReturns Lexeme.lineFeed.text = ['\r', '\n'] := rfl
    rw [htext, List.cons_append, List.singleton_append, tellingFrom_return, tellingFrom_feed,
      List.append_assoc]
    rfl
  have htext := Lexeme.text_withReturns hvalid hfeed
  have hreturned := Lexeme.valid_withReturns hvalid
  by_cases hcomment : ∀ body, lexeme = .comment body → rest = []
  · rw [← htext]
    exact tellingFrom_append before hreturned (hstops.withReturns hcomment)
  · -- a comment before the feed of its line
    simp only [not_forall] at hcomment
    obtain ⟨body, rfl, hrest⟩ := hcomment
    obtain ⟨c, others, rfl⟩ := List.exists_cons_of_ne_nil hrest
    obtain rfl : c = '\n' := by
      simpa [Lexeme.isCommentPart] using headAvoids_cons_iff.mp hstops
    rw [← htext, withReturns_cons_feed]
    exact tellingFrom_comment before hvalid (headAvoids_cons_iff.mpr (by decide))

/-! ## Tokens and diagnostics with returns -/

/-- A token of a source, and the same token of the source with returns. -/
structure Token.ReturnedIn (source : List Char) (token returned : Token) : Prop where
  kind : returned.kind = token.kind
  lexeme : returned.lexeme = sourceWithReturns token.lexeme
  literal : returned.literal = token.literal.map Literal.withReturns
  line : returned.line = token.line
  start : returned.span.start.toNat = token.span.start.toNat +
    (source.take token.span.start.toNat).count '\n'

/-- Two diagnostics that differ in nothing but their spans. -/
structure Diagnostic.SameError (diagnostic other : Diagnostic) : Prop where
  file : other.file = diagnostic.file
  line : other.line = diagnostic.line
  message : other.message = diagnostic.message
  code : other.code = diagnostic.code

namespace Placed

/-- A lexeme of a source that tells, and the same lexeme of the source with
returns. -/
structure ReturnedIn (source : List Char) (placed returned : Placed) : Prop where
  stands : placed.StandsIn source
  tells : placed.lexeme.tells = true
  lexeme : returned.lexeme = placed.lexeme.withReturns
  before : returned.before = withReturns placed.before

end Placed

/-- The lexemes of a source that tell are those of the source with returns. -/
theorem forall₂_tellingFrom
    {source before rest : List Char}
    (hsource : source = before ++ rest) :
    List.Forall₂ (Placed.ReturnedIn source) (tellingFrom before rest)
      (tellingFrom (withReturns before) (withReturns rest)) := by
  -- both sides take one lexeme off the source at a time
  induction rest using Lexeme.cut.induct generalizing before with
  | case1 =>
      rw [withReturns_nil, tellingFrom_nil, tellingFrom_nil]
      exact .nil
  | case2 c others ih =>
      have hvalid := Lexeme.first_valid c others
      have hstops := Lexeme.first_stops c others
      have htext := Lexeme.text_append_rest c others
      generalize (Lexeme.first c others).1 = lexeme at hvalid hstops htext ih
      generalize (Lexeme.first c others).2 = remaining at hstops htext ih
      rw [← htext] at hsource ⊢
      rw [tellingFrom_append before hvalid hstops,
        tellingFrom_withReturns (withReturns before) hvalid hstops, ← withReturns_append]
      rw [← List.append_assoc] at hsource
      refine List.rel_append ?_ (ih hsource)
      rw [List.filter_singleton, List.filter_singleton, Lexeme.tells_withReturns]
      by_cases htells : lexeme.tells = true
      · rw [htells]
        exact .cons ⟨⟨hvalid, remaining, hsource, hstops⟩, htells, rfl, rfl⟩ .nil
      · rw [Bool.not_eq_true] at htells
        rw [htells]
        exact .nil

namespace Placed.ReturnedIn

variable {source : List Char} {placed returned : Placed}

theorem text_eq
    (hreturned : ReturnedIn source placed returned) :
    returned.lexeme.text = withReturns placed.lexeme.text := by
  rw [hreturned.lexeme]
  apply Lexeme.text_withReturns hreturned.stands.valid
  intro hfeed
  have htells := hreturned.tells
  rw [hfeed] at htells
  cases htells

/-- The lexeme with returns stands in the source with returns. -/
theorem stands_returned
    (hreturned : ReturnedIn source placed returned) :
    returned.StandsIn (withReturns source) := by
  have htext := hreturned.text_eq
  obtain ⟨⟨hvalid, rest, hsource, hstops⟩, htells, hlexeme, hbefore⟩ := hreturned
  have hcomment : ∀ body, placed.lexeme = .comment body → rest = [] := by
    intro body heq
    rw [heq] at htells
    cases htells
  refine ⟨?_, withReturns rest, ?_, ?_⟩
  · rw [hlexeme]
    exact Lexeme.valid_withReturns hvalid
  · rw [hsource, hbefore, htext, withReturns_append, withReturns_append]
  · rw [hlexeme]
    exact hstops.withReturns hcomment

theorem line_eq
    (hreturned : ReturnedIn source placed returned) :
    returned.line = placed.line := by
  rw [Placed.line, Placed.line, hreturned.before, count_withReturns]

/-- The lexeme starts later by as many characters as line feeds are before it. -/
theorem toNat_span_start
    (hreturned : ReturnedIn source placed returned)
    (hfits : FitsWords (withReturns source)) :
    returned.span.start.toNat = placed.span.start.toNat +
      (source.take placed.span.start.toNat).count '\n' := by
  obtain ⟨rest, hsource, -⟩ := hreturned.stands.stops
  have hbefore : source.take placed.before.length = placed.before := by
    rw [hsource, List.append_assoc, List.take_left]
  rw [hreturned.stands_returned.toNat_span_start hfits,
    hreturned.stands.toNat_span_start hfits.of_withReturns, hreturned.before,
    length_withReturns, hbefore]

/-- A token that was made of a lexeme is made of it with returns. -/
theorem token?
    (hreturned : ReturnedIn source placed returned)
    (hfits : FitsWords (withReturns source)) :
    Option.Rel (Token.ReturnedIn source) placed.token? returned.token? := by
  have htext := hreturned.text_eq
  have hline := hreturned.line_eq
  have hstart := hreturned.toNat_span_start hfits
  unfold Placed.token?
  rw [hreturned.lexeme, Lexeme.meaning_withReturns]
  cases placed.lexeme.meaning with
  | token kind literal =>
      rw [← hreturned.lexeme, htext, hline]
      refine .some ⟨rfl, ?_, rfl, rfl, hstart⟩
      rw [sourceWithReturns, String.toList_ofList]
  | error template arguments => exact .none
  | nothing => exact .none

/-- A diagnostic that was made of a lexeme is made of it with returns. -/
theorem diagnostic?
    (hreturned : ReturnedIn source placed returned) :
    Option.Rel Diagnostic.SameError placed.diagnostic? returned.diagnostic? := by
  have hline := hreturned.line_eq
  unfold Placed.diagnostic?
  rw [hreturned.lexeme, Lexeme.meaning_withReturns]
  cases placed.lexeme.meaning with
  | token kind literal => exact .none
  | error template arguments =>
      rw [hline]
      exact .some ⟨rfl, rfl, rfl, rfl⟩
  | nothing => exact .none

end Placed.ReturnedIn

/-! ## What the source with returns makes -/

theorem filterMap_tellingFrom
    {α : Type} {f : Placed → Option α}
    (hf : ∀ placed : Placed, placed.lexeme.meaning = .nothing → f placed = none)
    (before source : List Char) :
    (tellingFrom before source).filterMap f = (place before (Lexeme.cut source)).filterMap f := by
  rw [tellingFrom, List.filterMap_filter]
  apply List.filterMap_congr
  intro placed _
  cases htells : placed.lexeme.tells with
  | true => rfl
  | false => exact (hf placed (Lexeme.meaning_of_not_tells htells)).symm

theorem tokensOf_eq_telling (source : List Char) :
    tokensOf source = (tellingFrom [] source).filterMap Placed.token? ++
      [Token.endOfInput (Word.ofCount (1 + source.count '\n')) (Word.ofCount source.length)] := by
  have hnone : ∀ placed : Placed, placed.lexeme.meaning = .nothing → placed.token? = none := by
    intro placed hmeaning
    rw [Placed.token?, hmeaning]
  rw [filterMap_tellingFrom hnone]
  rfl

theorem diagnosticsOf_eq_telling (source : List Char) :
    diagnosticsOf source = (tellingFrom [] source).filterMap Placed.diagnostic? := by
  have hnone : ∀ placed : Placed, placed.lexeme.meaning = .nothing →
      placed.diagnostic? = none := by
    intro placed hmeaning
    rw [Placed.diagnostic?, hmeaning]
  rw [filterMap_tellingFrom hnone]
  rfl

theorem endOfInput_returnedIn
    {source : List Char}
    (hfits : FitsWords (withReturns source)) :
    Token.ReturnedIn source
      (Token.endOfInput (Word.ofCount (1 + source.count '\n')) (Word.ofCount source.length))
      (Token.endOfInput (Word.ofCount (1 + (withReturns source).count '\n'))
        (Word.ofCount (withReturns source).length)) := by
  refine ⟨rfl, rfl, rfl, ?_, ?_⟩
  · simp only [Token.endOfInput]
    rw [count_withReturns]
  · simp only [Token.endOfInput, Span.empty]
    rw [hfits.toNat_length, hfits.of_withReturns.toNat_length, List.take_length,
      length_withReturns]

/-- The tokens of a source are those of the source with returns. -/
theorem forall₂_tokensOf_withReturns
    {source : List Char}
    (hfits : FitsWords (withReturns source)) :
    List.Forall₂ (Token.ReturnedIn source) (tokensOf source)
      (tokensOf (withReturns source)) := by
  rw [tokensOf_eq_telling, tokensOf_eq_telling]
  refine List.rel_append ?_ (.cons (endOfInput_returnedIn hfits) .nil)
  exact List.rel_filterMap (fun _ _ hreturned => hreturned.token? hfits)
    (forall₂_tellingFrom (List.nil_append source).symm)

end LoxLexer
