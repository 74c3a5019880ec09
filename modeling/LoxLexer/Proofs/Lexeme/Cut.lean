import LoxLexer.Proofs.Lexeme.Shape

/-!
# Cutting a source into lexemes

A source is cut into its first lexeme, the first lexeme of what remains, and so
on.  A row of valid lexemes each of which stops before the ones after it is
called separated; the cut of a source is the only separated row whose
characters are the source (`cut_eq_iff`).
-/

namespace LoxLexer
namespace Lexeme

/-- The characters of a row of lexemes. -/
def textOf (lexemes : List Lexeme) : List Char := lexemes.flatMap text

/-- The lexemes into which a source is cut. -/
def cut (source : List Char) : List Lexeme :=
  match source with
  | [] => []
  | c :: others => (first c others).1 :: cut (first c others).2
termination_by source.length
decreasing_by exact rest_length_lt c others

/-- Valid lexemes in a row, each of which stops before the ones after it. -/
def Separated : List Lexeme → Prop
  | [] => True
  | lexeme :: others => lexeme.Valid ∧ lexeme.Stops (textOf others) ∧ Separated others

@[simp] theorem textOf_nil : textOf [] = [] := rfl

@[simp] theorem textOf_cons (lexeme : Lexeme) (others : List Lexeme) :
    textOf (lexeme :: others) = lexeme.text ++ textOf others := rfl

@[simp] theorem textOf_append (front back : List Lexeme) :
    textOf (front ++ back) = textOf front ++ textOf back :=
  List.flatMap_append

@[simp] theorem cut_nil : cut [] = [] := by
  rw [cut]

theorem cut_cons (c : Char) (others : List Char) :
    cut (c :: others) = (first c others).1 :: cut (first c others).2 := by
  rw [cut]

/-! ## Small facts about valid lexemes -/

theorem text_ne_nil_of_valid
    {lexeme : Lexeme}
    (hvalid : lexeme.Valid) :
    lexeme.text ≠ [] := by
  cases lexeme with
  | operator mark => exact Punctuation.text_ne_nil mark
  | word letters =>
      obtain ⟨c, others, rfl, -⟩ := hvalid
      exact List.cons_ne_nil c others
  | number whole fraction =>
      cases fraction with
      | none => exact hvalid.1.1
      | some places => simp [text]
  | _ => simp [text]

theorem not_mem_of_class
    {p : Char → Bool} {run : List Char} {c : Char}
    (hrun : ∀ d ∈ run, p d = true)
    (hc : p c = false) :
    c ∉ run := by
  intro hmem
  exact absurd (hrun c hmem) (by simp [hc])

/-- The lines that a valid lexeme moves on by are its line feeds. -/
theorem lineFeeds_eq_count
    {lexeme : Lexeme}
    (hvalid : lexeme.Valid) :
    lexeme.lineFeeds = lexeme.text.count '\n' := by
  cases lexeme with
  | operator mark => cases mark <;> decide
  | word letters =>
      obtain ⟨c, others, rfl, hstart, hparts⟩ := hvalid
      have hfeed : '\n' ∉ others := not_mem_of_class hparts (by decide)
      have hne : c ≠ '\n' := (of_class hstart (by decide)).1
      simp [lineFeeds, text, hne, List.count_eq_zero.mpr hfeed]
  | number whole fraction =>
      obtain ⟨⟨-, hwhole⟩, hfraction⟩ := hvalid
      have hfeed : '\n' ∉ whole := not_mem_of_class hwhole (by decide)
      cases fraction with
      | none => exact (List.count_eq_zero.mpr hfeed).symm
      | some places =>
          have hplaces : '\n' ∉ places :=
            not_mem_of_class (hfraction places rfl).2 (by decide)
          simp [lineFeeds, text, List.count_eq_zero.mpr hfeed,
            List.count_eq_zero.mpr hplaces]
  | string body => simp [lineFeeds, text]
  | comment body =>
      have hfeed : '\n' ∉ body := hvalid
      simp [lineFeeds, text, List.count_eq_zero.mpr hfeed]
  | blank c =>
      have hne : c ≠ '\n' := by
        rintro rfl
        exact absurd hvalid (by simp [Valid, isBlank])
      simp [lineFeeds, text, hne]
  | lineFeed => rfl
  | unterminated body => simp [lineFeeds, text]
  | unexpected c => simp [lineFeeds, text, hvalid.not_feed]

theorem stops_nil (lexeme : Lexeme) : lexeme.Stops [] := by
  cases lexeme with
  | operator mark => simp [Stops]
  | word letters => exact headAvoids_nil isWordPart
  | number whole fraction =>
      cases fraction with
      | none => exact ⟨headAvoids_nil Char.isDigit, by simp⟩
      | some places => exact headAvoids_nil Char.isDigit
  | comment body => exact headAvoids_nil isCommentPart
  | unterminated body => rfl
  | string body => trivial
  | blank c => trivial
  | lineFeed => trivial
  | unexpected c => trivial

/-- A lexeme stops before a character with which none goes on; a comment goes on
up to the line feed, and an open string for good. -/
theorem stops_cons
    {lexeme : Lexeme} {c : Char}
    (hequal : c ≠ '=')
    (hslash : c ≠ '/')
    (hpoint : c ≠ '.')
    (hpart : isWordPart c = false)
    (hcomment : ∀ body, lexeme = .comment body → c = '\n')
    (hclosed : ∀ body, lexeme ≠ .unterminated body)
    (rest : List Char) :
    lexeme.Stops (c :: rest) := by
  have hdigit : c.isDigit = false := by
    rw [Bool.eq_false_iff]
    intro h
    simp [isWordPart_iff.mpr (Or.inr h)] at hpart
  cases lexeme with
  | operator mark => exact ⟨by simpa using fun _ => hequal, by simpa using fun _ => hslash⟩
  | word letters => exact headAvoids_cons_iff.mpr hpart
  | number whole fraction =>
      cases fraction with
      | none =>
          refine ⟨headAvoids_cons_iff.mpr hdigit, ?_⟩
          intro d others heq
          exact absurd (List.cons.inj heq).1 hpoint
      | some places => exact headAvoids_cons_iff.mpr hdigit
  | comment body =>
      obtain rfl := hcomment body rfl
      exact headAvoids_cons_iff.mpr (by decide)
  | unterminated body => exact absurd rfl (hclosed body)
  | string body => trivial
  | blank d => trivial
  | lineFeed => trivial
  | unexpected d => trivial

/-- A lexeme that stops before a text stops before every beginning of it. -/
theorem stops_of_append
    {lexeme : Lexeme} {rest more : List Char}
    (hstops : lexeme.Stops (rest ++ more)) :
    lexeme.Stops rest := by
  cases rest with
  | nil => exact stops_nil lexeme
  | cons c others =>
      cases lexeme with
      | operator mark => exact hstops
      | word letters => exact hstops
      | number whole fraction =>
          cases fraction with
          | none =>
              refine ⟨hstops.1, ?_⟩
              rintro d tail ⟨rfl, rfl⟩
              exact hstops.2 d (tail ++ more) rfl
          | some places => exact hstops
      | comment body => exact hstops
      | unterminated body => exact absurd hstops (List.cons_ne_nil c (others ++ more))
      | string body => trivial
      | blank c => trivial
      | lineFeed => trivial
      | unexpected c => trivial

/-- Where a lexeme stops, a character put further on does not make it go on, if it
stops before the character where nothing else is left. -/
theorem Stops.append_cons
    {lexeme : Lexeme} {rest : List Char} {c : Char} {back : List Char}
    (hstops : lexeme.Stops rest)
    (hdigit : c.isDigit = false)
    (hlast : lexeme.Stops (c :: back))
    (hclosed : ∀ body, lexeme ≠ .unterminated body) :
    lexeme.Stops (rest ++ c :: back) := by
  cases rest with
  | nil => exact hlast
  | cons d others =>
      cases lexeme with
      | operator mark => exact hstops
      | word letters => exact hstops
      | number whole fraction =>
          cases fraction with
          | none =>
              -- a point may be the last character before the one put on
              refine ⟨hstops.1, ?_⟩
              intro place tail heq
              obtain ⟨rfl, hothers⟩ := List.cons.inj heq
              cases others with
              | nil =>
                  obtain ⟨rfl, -⟩ := List.cons.inj hothers
                  exact hdigit
              | cons e more =>
                  obtain ⟨rfl, -⟩ := List.cons.inj hothers
                  exact hstops.2 e more rfl
          | some places => exact hstops
      | comment body => exact hstops
      | unterminated body => exact absurd rfl (hclosed body)
      | string body => trivial
      | blank c => trivial
      | lineFeed => trivial
      | unexpected c => trivial

/-! ## The cut of a source -/

theorem textOf_cut (source : List Char) : textOf (cut source) = source := by
  induction source using cut.induct with
  | case1 => simp
  | case2 c others ih =>
      rw [cut_cons, textOf_cons, ih]
      exact text_append_rest c others

theorem separated_cut (source : List Char) : Separated (cut source) := by
  induction source using cut.induct with
  | case1 =>
      rw [cut_nil]
      trivial
  | case2 c others ih =>
      rw [cut_cons]
      refine ⟨first_valid c others, ?_, ih⟩
      rw [textOf_cut]
      exact first_stops c others

theorem cut_textOf
    {lexemes : List Lexeme}
    (hseparated : Separated lexemes) :
    cut (textOf lexemes) = lexemes := by
  induction lexemes with
  | nil => simp
  | cons lexeme others ih =>
      obtain ⟨hvalid, hstops, hothers⟩ := hseparated
      cases hsource : textOf (lexeme :: others) with
      | nil =>
          have hne := text_ne_nil_of_valid hvalid
          simp [hne] at hsource
      | cons c rest =>
          rw [cut_cons, first_eq hvalid hstops hsource, ih hothers]

/-- The cut of a source is the separated row of lexemes that makes it up. -/
theorem cut_eq_iff
    {source : List Char} {lexemes : List Lexeme} :
    cut source = lexemes ↔ textOf lexemes = source ∧ Separated lexemes := by
  constructor
  · rintro rfl
    exact ⟨textOf_cut source, separated_cut source⟩
  · rintro ⟨rfl, hseparated⟩
    exact cut_textOf hseparated

/-- A valid lexeme that stops before a text is cut off from it. -/
theorem cut_append
    {lexeme : Lexeme} {rest : List Char}
    (hvalid : lexeme.Valid)
    (hstops : lexeme.Stops rest) :
    cut (lexeme.text ++ rest) = lexeme :: cut rest := by
  rw [cut_eq_iff, textOf_cons, textOf_cut]
  refine ⟨rfl, hvalid, ?_, separated_cut rest⟩
  rwa [textOf_cut]

theorem Separated.of_append
    {front back : List Lexeme}
    (hseparated : Separated (front ++ back)) :
    Separated back := by
  induction front with
  | nil => exact hseparated
  | cons lexeme others ih => exact ih hseparated.2.2

end Lexeme
end LoxLexer
