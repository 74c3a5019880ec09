import LoxLexer.Proofs.Grammar.LongestMatch

/-!
# A walk in three modes

The errors of a source can be found without cutting it into lexemes.  A walk
goes through the characters in one of three modes: in code, in a string or in a
comment.  A quote in code opens a string and the next quote closes it; two
slashes in code open a comment, which closes just before the next line feed.

A character is in error if it is met in code and no lexeme begins with it, and
a string is in error if the walk ends in it.  The diagnostics of a scan are
those of the walk.
-/

namespace LoxLexer
namespace Walk

open Grammar

/-- What a character is met in.  A string goes with the text before its opening
quote. -/
inductive Mode where
  | code
  | string (before : List Char)
  | comment

/-- The mode after a character, with the text before it and the text after it. -/
def Mode.next (mode : Mode) (before : List Char) (c : Char) (rest : List Char) : Mode :=
  match mode with
  | .code =>
    if c = '"' then .string before
    else if c = '/' ∧ rest.head? = some '/' then .comment
    else .code
  | .string opened => if c = '"' then .code else .string opened
  | .comment => if rest.head? = some '\n' then .code else .comment

/-- A character that a walk meets, with the text before it. -/
structure Meeting where
  before : List Char
  mode : Mode
  c : Char

/-- The characters that a walk meets. -/
def meetings (mode : Mode) (before : List Char) : List Char → List Meeting
  | [] => []
  | c :: rest => ⟨before, mode, c⟩ :: meetings (mode.next before c rest) (before ++ [c]) rest

/-- The mode in which a walk ends. -/
def lastMode (mode : Mode) (before : List Char) : List Char → Mode
  | [] => mode
  | c :: rest => lastMode (mode.next before c rest) (before ++ [c]) rest

/-- The characters of which marks are made. -/
def markCharacters : List Char :=
  ['(', ')', '{', '}', ',', '.', '-', '+', ';', '*', '!', '=', '<', '>', '/']

/-- The characters that may stand in code. -/
def IsExpected (c : Char) : Prop :=
  IsLetter c ∨ IsDigit c ∨ IsBlank c ∨ c = '"' ∨ c ∈ markCharacters

instance (c : Char) : Decidable (IsLetter c) :=
  inferInstanceAs (Decidable (('A' ≤ c ∧ c ≤ 'Z') ∨ ('a' ≤ c ∧ c ≤ 'z') ∨ c = '_'))

instance (c : Char) : Decidable (IsDigit c) :=
  inferInstanceAs (Decidable ('0' ≤ c ∧ c ≤ '9'))

instance (c : Char) : Decidable (IsBlank c) :=
  inferInstanceAs (Decidable (c = ' ' ∨ c = '\t' ∨ c = '\r' ∨ c = '\n'))

instance (c : Char) : Decidable (IsExpected c) :=
  inferInstanceAs (Decidable (IsLetter c ∨ IsDigit c ∨ IsBlank c ∨ c = '"' ∨
    c ∈ markCharacters))

/-- A character that is met in code and may not stand there is in error. -/
def Meeting.diagnostic? (meeting : Meeting) : Option Diagnostic :=
  match meeting.mode with
  | .code =>
    if IsExpected meeting.c then none
    else some ⟨none, lineAfter meeting.before, some (spanAfter meeting.before [meeting.c]),
      "Unexpected character '" ++ String.singleton meeting.c ++ "'.", 1001⟩
  | .string _ | .comment => none

/-- A string in which a walk of a source ends is in error from its quote on. -/
def Mode.diagnostic? (mode : Mode) (source : List Char) : Option Diagnostic :=
  match mode with
  | .string before =>
    some ⟨none, lineAfter before, some (spanAfter before (source.drop before.length)),
      "Unterminated string.", 1002⟩
  | .code | .comment => none

/-- The diagnostics of a walk that goes on in a mode after a text. -/
def diagnostics (mode : Mode) (before source : List Char) : List Diagnostic :=
  (meetings mode before source).filterMap Meeting.diagnostic? ++
    ((lastMode mode before source).diagnostic? (before ++ source)).toList

theorem diagnostics_nil (mode : Mode) (before : List Char) :
    diagnostics mode before [] = (mode.diagnostic? before).toList := by
  rw [diagnostics, meetings, lastMode, List.append_nil]
  rfl

theorem diagnostics_cons
    (mode : Mode) (before : List Char) (c : Char) (rest : List Char) :
    diagnostics mode before (c :: rest) =
      (Meeting.mk before mode c).diagnostic?.toList ++
        diagnostics (mode.next before c rest) (before ++ [c]) rest := by
  rw [diagnostics, diagnostics, meetings, lastMode, List.filterMap_cons,
    List.append_assoc before, List.singleton_append]
  cases (Meeting.mk before mode c).diagnostic? <;> rfl

/-! ## Characters that may stand in code -/

/-- Marks are looked for at the characters of which they are made. -/
theorem ofChar?_eq_none_iff
    {c : Char} :
    Punctuation.ofChar? c = none ↔ c ∉ markCharacters := by
  constructor
  · intro hnone hmem
    have hall : markCharacters.all (fun d => (Punctuation.ofChar? d).isSome) = true := by
      decide
    have hsome := List.all_eq_true.mp hall c hmem
    simp [hnone] at hsome
  · intro hnot
    unfold Punctuation.ofChar?
    split <;> simp [markCharacters] at hnot ⊢

/-- The characters that may not stand in code are those that begin nothing. -/
theorem not_isExpected_iff
    {c : Char} :
    ¬ IsExpected c ↔ Lexeme.BeginsNothing c := by
  constructor
  · intro hnot
    simp only [IsExpected, not_or] at hnot
    obtain ⟨hletter, hdigit, hblank, hquote, hmark⟩ := hnot
    constructor
    · rintro rfl
      exact hblank (by decide)
    · exact Bool.eq_false_iff.mpr fun h => hblank (isBlank_iff.mpr (Or.inl h))
    · exact hquote
    · exact Bool.eq_false_iff.mpr fun h => hdigit (isDigit_iff.mpr h)
    · exact Bool.eq_false_iff.mpr fun h => hletter (isLetter_iff.mpr h)
    · exact ofChar?_eq_none_iff.mpr hmark
  · rintro ⟨hfeed, hblank, hquote, hdigit, hstart, hmark⟩ hexpected
    rcases hexpected with h | h | h | h | h
    · simp [isLetter_iff.mp h] at hstart
    · simp [isDigit_iff.mp h] at hdigit
    · rcases isBlank_iff.mp h with h | h
      · simp [h] at hblank
      · exact hfeed h
    · exact hquote h
    · exact ofChar?_eq_none_iff.mp hmark h

/-! ## Runs of characters -/

/-- A character that may stand in code and opens nothing there. -/
structure IsPlain (c : Char) : Prop where
  expected : IsExpected c
  not_quote : c ≠ '"'
  not_slash : c ≠ '/'

/-- A walk goes through plain characters in code. -/
theorem diagnostics_plain
    {run : List Char}
    (hrun : ∀ c ∈ run, IsPlain c)
    (before rest : List Char) :
    diagnostics .code before (run ++ rest) = diagnostics .code (before ++ run) rest := by
  induction run generalizing before with
  | nil => rw [List.nil_append, List.append_nil]
  | cons c others ih =>
      obtain ⟨hplain, hothers⟩ := List.forall_mem_cons.mp hrun
      have hnone : (Meeting.mk before .code c).diagnostic? = none := if_pos hplain.expected
      have hnext : Mode.next .code before c (others ++ rest) = .code := by
        simp [Mode.next, hplain.not_quote, hplain.not_slash]
      rw [List.cons_append, diagnostics_cons, hnone, hnext, ih hothers, List.append_assoc]
      rfl

/-- A walk goes through a string up to the next quote. -/
theorem diagnostics_string
    {body : List Char}
    (hbody : '"' ∉ body)
    (opened before rest : List Char) :
    diagnostics (.string opened) before (body ++ rest) =
      diagnostics (.string opened) (before ++ body) rest := by
  induction body generalizing before with
  | nil => rw [List.nil_append, List.append_nil]
  | cons c others ih =>
      rw [List.mem_cons, not_or] at hbody
      have hnext : Mode.next (.string opened) before c (others ++ rest) = .string opened :=
        if_neg (Ne.symm hbody.1)
      rw [List.cons_append, diagnostics_cons, hnext, ih hbody.2, List.append_assoc]
      rfl

/-- A walk goes through a comment up to the end of its line. -/
theorem diagnostics_comment
    {body rest : List Char} {c : Char}
    (hbody : '\n' ∉ body)
    (hrest : HeadAvoids Lexeme.isCommentPart rest)
    (before : List Char) :
    diagnostics .comment before (c :: (body ++ rest)) =
      diagnostics .code (before ++ c :: body) rest := by
  induction body generalizing before c with
  | nil =>
      rw [diagnostics_cons]
      cases rest with
      | nil => rfl
      | cons d others =>
          have hfeed : d = '\n' := by
            simpa [Lexeme.isCommentPart] using headAvoids_cons_iff.mp hrest
          rw [hfeed]
          rfl
  | cons d others ih =>
      rw [List.mem_cons, not_or] at hbody
      have hnext : Mode.next .comment before c (d :: (others ++ rest)) = .comment :=
        if_neg (by simpa using Ne.symm hbody.1)
      rw [List.cons_append, diagnostics_cons, hnext, ih hbody.2, List.append_assoc]
      rfl

/-! ## Lexemes -/

theorem isPlain_of_isWordPart
    {c : Char}
    (hpart : Lexeme.isWordPart c = true) :
    IsPlain c where
  expected := by
    rcases Lexeme.isWordPart_iff.mp hpart with hstart | hdigit
    · exact Or.inl (isLetter_iff.mpr hstart)
    · exact Or.inr (Or.inl (isDigit_iff.mpr hdigit))
  not_quote := by
    rintro rfl
    exact absurd hpart (by decide)
  not_slash := by
    rintro rfl
    exact absurd hpart (by decide)

theorem isPlain_of_isDigit
    {c : Char}
    (hdigit : c.isDigit = true) :
    IsPlain c :=
  isPlain_of_isWordPart (Lexeme.isWordPart_iff.mpr (Or.inr hdigit))

theorem isPlain_of_isBlank
    {c : Char}
    (hblank : IsBlank c) :
    IsPlain c where
  expected := Or.inr (Or.inr (Or.inl hblank))
  not_quote := by rcases hblank with rfl | rfl | rfl | rfl <;> decide
  not_slash := by rcases hblank with rfl | rfl | rfl | rfl <;> decide

theorem isPlain_of_mem_mark
    {mark : Punctuation}
    (hslash : mark ≠ .slash) :
    ∀ c ∈ mark.text.toList, IsPlain c := by
  have hall : mark.text.toList.all (fun c => IsExpected c ∧ c ≠ '"' ∧ c ≠ '/') = true := by
    revert hslash
    cases mark <;> decide
  intro c hc
  obtain ⟨hexpected, hquote, hslash⟩ := of_decide_eq_true (List.all_eq_true.mp hall c hc)
  exact ⟨hexpected, hquote, hslash⟩

theorem isPlain_of_mem_word
    {letters : List Char}
    (hvalid : (Lexeme.word letters).Valid) :
    ∀ c ∈ letters, IsPlain c := by
  obtain ⟨c, others, rfl, hstart, hparts⟩ := hvalid
  rw [List.forall_mem_cons]
  exact ⟨isPlain_of_isWordPart (Lexeme.isWordPart_iff.mpr (Or.inl hstart)),
    fun d hd => isPlain_of_isWordPart (hparts d hd)⟩

theorem isPlain_of_mem_number
    {whole : List Char} {fraction : Option (List Char)}
    (hvalid : (Lexeme.number whole fraction).Valid) :
    ∀ c ∈ (Lexeme.number whole fraction).text, IsPlain c := by
  obtain ⟨⟨-, hwhole⟩, hfraction⟩ := hvalid
  cases fraction with
  | none => exact fun c hc => isPlain_of_isDigit (hwhole c hc)
  | some places =>
      intro c hc
      rcases List.mem_append.mp hc with hc | hc
      · exact isPlain_of_isDigit (hwhole c hc)
      rcases List.mem_cons.mp hc with rfl | hc
      · exact ⟨by decide, by decide, by decide⟩
      · exact isPlain_of_isDigit ((hfraction places rfl).2 c hc)

theorem diagnostics_slash
    {rest : List Char}
    (hrest : rest.head? ≠ some '/')
    (before : List Char) :
    diagnostics .code before ('/' :: rest) = diagnostics .code (before ++ ['/']) rest := by
  have hnext : Mode.next .code before '/' rest = .code := by
    simp [Mode.next, hrest]
  rw [diagnostics_cons, hnext]
  rfl

theorem diagnostics_slashes
    {body rest : List Char}
    (hbody : '\n' ∉ body)
    (hrest : HeadAvoids Lexeme.isCommentPart rest)
    (before : List Char) :
    diagnostics .code before ('/' :: '/' :: (body ++ rest)) =
      diagnostics .code (before ++ '/' :: '/' :: body) rest := by
  have hnext : Mode.next .code before '/' ('/' :: (body ++ rest)) = .comment := rfl
  rw [diagnostics_cons, hnext, diagnostics_comment hbody hrest, List.append_assoc]
  rfl

theorem diagnostics_quote (before rest : List Char) :
    diagnostics .code before ('"' :: rest) =
      diagnostics (.string before) (before ++ ['"']) rest := by
  rw [diagnostics_cons]
  rfl

theorem diagnostics_endQuote (opened before rest : List Char) :
    diagnostics (.string opened) before ('"' :: rest) =
      diagnostics .code (before ++ ['"']) rest := by
  rw [diagnostics_cons]
  rfl

/-- Over a lexeme a walk finds what the lexeme makes, and it is in code again
after it. -/
theorem diagnostics_text_append
    {lexeme : Lexeme} {rest : List Char}
    (before : List Char)
    (hvalid : lexeme.Valid)
    (hstops : lexeme.Stops rest) :
    diagnostics .code before (lexeme.text ++ rest) =
      (Placed.mk before lexeme).diagnostic?.toList ++
        diagnostics .code (before ++ lexeme.text) rest := by
  cases lexeme with
  | operator mark =>
      by_cases hslash : mark = .slash
      · subst hslash
        exact diagnostics_slash (hstops.2 rfl) before
      · exact diagnostics_plain (isPlain_of_mem_mark hslash) before rest
  | word letters => exact diagnostics_plain (isPlain_of_mem_word hvalid) before rest
  | number whole fraction => exact diagnostics_plain (isPlain_of_mem_number hvalid) before rest
  | string body =>
      simp only [Lexeme.text, List.cons_append, List.append_assoc, List.nil_append]
      rw [diagnostics_quote, diagnostics_string hvalid, diagnostics_endQuote]
      simp [Placed.diagnostic?, Lexeme.meaning]
  | comment body => exact diagnostics_slashes hvalid hstops before
  | blank c =>
      have hplain : IsPlain c := isPlain_of_isBlank (isBlank_iff.mpr (Or.inl hvalid))
      exact diagnostics_plain (List.forall_mem_singleton.mpr hplain) before rest
  | lineFeed =>
      have hplain : IsPlain '\n' := isPlain_of_isBlank (isBlank_iff.mpr (Or.inr rfl))
      exact diagnostics_plain (List.forall_mem_singleton.mpr hplain) before rest
  | unterminated body =>
      obtain rfl : rest = [] := hstops
      simp only [Lexeme.text, List.cons_append]
      rw [diagnostics_quote, diagnostics_string hvalid, diagnostics_nil, diagnostics_nil,
        diagnostic?_unterminated]
      simp [Mode.diagnostic?]
  | unexpected c =>
      have hnothing : Lexeme.BeginsNothing c := hvalid
      have hslash : c ≠ '/' := by
        rintro rfl
        exact absurd hnothing.not_mark (by decide)
      have hnext : Mode.next .code before c rest = .code := by
        simp [Mode.next, hnothing.not_quote, hslash]
      simp only [Lexeme.text, List.singleton_append]
      rw [diagnostics_cons, hnext, diagnostic?_unexpected]
      simp [Meeting.diagnostic?, not_isExpected_iff.mpr hnothing]

/-- The diagnostics of a source are those of a walk through it. -/
theorem diagnosticsFrom_eq
    (before source : List Char) :
    diagnosticsFrom before source = diagnostics .code before source := by
  -- along the cut of the source; every lexeme is walked through from code to code
  induction source using Lexeme.cut.induct generalizing before with
  | case1 =>
      rw [diagnosticsFrom_nil, diagnostics_nil]
      rfl
  | case2 c others ih =>
      have hvalid := Lexeme.first_valid c others
      have hstops := Lexeme.first_stops c others
      rw [← Lexeme.text_append_rest c others, diagnosticsFrom_append before hvalid hstops,
        diagnostics_text_append before hvalid hstops, ih]

theorem code_of_meeting
    {meeting : Meeting} {diagnostic : Diagnostic}
    (hmeeting : meeting.diagnostic? = some diagnostic) :
    diagnostic.code = 1001 := by
  obtain ⟨before, mode, c⟩ := meeting
  cases mode with
  | code =>
      simp only [Meeting.diagnostic?] at hmeeting
      split at hmeeting
      · cases hmeeting
      · obtain rfl := Option.some.inj hmeeting
        rfl
  | string opened => cases hmeeting
  | comment => cases hmeeting

theorem code_of_lastMode
    {mode : Mode} {source : List Char} {diagnostic : Diagnostic}
    (hmode : mode.diagnostic? source = some diagnostic) :
    diagnostic.code = 1002 := by
  cases mode with
  | string before =>
      obtain rfl := Option.some.inj hmode
      rfl
  | code => cases hmode
  | comment => cases hmode

/-- Apart from the unexpected characters a walk finds at most the string in
which it ends. -/
theorem filter_diagnostics (mode : Mode) (before source : List Char) :
    ((diagnostics mode before source).filter fun diagnostic => diagnostic.code ≠ 1001) =
      ((lastMode mode before source).diagnostic? (before ++ source)).toList := by
  have hmet : ((meetings mode before source).filterMap Meeting.diagnostic?).filter
      (fun diagnostic => diagnostic.code ≠ 1001) = [] := by
    rw [List.filter_eq_nil_iff]
    intro diagnostic hdiagnostic
    obtain ⟨meeting, -, hmeeting⟩ := List.mem_filterMap.mp hdiagnostic
    simp [code_of_meeting hmeeting]
  have hlast : ∀ diagnostic ∈ ((lastMode mode before source).diagnostic?
      (before ++ source)).toList, decide (diagnostic.code ≠ 1001) = true := by
    intro diagnostic hdiagnostic
    simp [code_of_lastMode (Option.mem_toList.mp hdiagnostic)]
  rw [diagnostics, List.filter_append, hmet, List.nil_append, List.filter_eq_self.mpr hlast]

/-- Nothing is reported after a string that is left open. -/
theorem eq_nil_of_unterminated
    {mode : Mode} {before source : List Char} {front back : List Diagnostic}
    {diagnostic : Diagnostic}
    (hparts : diagnostics mode before source = front ++ diagnostic :: back)
    (hcode : diagnostic.code = 1002) :
    back = [] := by
  by_contra hback
  -- with something after it, it would be that of a character met in code
  have hmem : diagnostic ∈ (diagnostics mode before source).dropLast := by
    rw [hparts, List.dropLast_append_of_ne_nil (List.cons_ne_nil _ _),
      List.dropLast_cons_of_ne_nil hback]
    exact List.mem_append_right _ List.mem_cons_self
  have hmet : diagnostic ∈ (meetings mode before source).filterMap Meeting.diagnostic? := by
    rw [diagnostics] at hmem
    cases hlast : (lastMode mode before source).diagnostic? (before ++ source) with
    | none =>
        rw [hlast, Option.toList_none, List.append_nil] at hmem
        exact (List.dropLast_sublist _).subset hmem
    | some last =>
        rw [hlast, Option.toList_some, List.dropLast_concat] at hmem
        exact hmem
  obtain ⟨meeting, -, hmeeting⟩ := List.mem_filterMap.mp hmet
  have hother := code_of_meeting hmeeting
  rw [hcode] at hother
  exact absurd hother (by decide)

end Walk

/-- The diagnostics of a scan are those of a walk in three modes: in order, one
for each character that is met in code and may not stand there, and then one for
a string in which the walk ends. -/
theorem scan_eq_walk
    {source : String}
    (hlength : source.length ≤ 4294967294) :
    ∃ result, scan source = .ok result ∧
      result.reports.toList =
        (Walk.meetings .code [] source.toList).filterMap Walk.Meeting.diagnostic? ++
          ((Walk.lastMode .code [] source.toList).diagnostic? source.toList).toList ∧
      (result.reports.toList.Pairwise fun first second =>
        ∀ before ∈ first.span, ∀ after ∈ second.span, before.start < after.start) ∧
      ∀ front diagnostic back, result.reports.toList = front ++ diagnostic :: back →
        diagnostic.code = 1002 → back = [] := by
  have hfits := fitsWords_of_length_le hlength
  obtain ⟨result, hresult, -, hdiagnostics⟩ := exists_scan_eq_ok hfits
  have hwalk : diagnosticsOf source.toList = Walk.diagnostics .code [] source.toList :=
    Walk.diagnosticsFrom_eq [] source.toList
  refine ⟨result, hresult, ?_, ?_, ?_⟩
  · rw [hdiagnostics, hwalk]
    rfl
  · rw [hdiagnostics]
    exact diagnosticsOf_pairwise_start_lt hfits
  · intro front diagnostic back hparts hcode
    rw [hdiagnostics, hwalk] at hparts
    exact Walk.eq_nil_of_unterminated hparts hcode

/-- Slashes in a string, a quote in a comment, an error between them and an open
string at the end. -/
theorem scan_eq_walk_of_slashes :
    "/\"//\"@//\"\n\"@".length ≤ 4294967294 ∧
      ∃ result, scan "/\"//\"@//\"\n\"@" = .ok result ∧
        result.reports.toList =
          (Walk.meetings .code [] "/\"//\"@//\"\n\"@".toList).filterMap
              Walk.Meeting.diagnostic? ++
            ((Walk.lastMode .code [] "/\"//\"@//\"\n\"@".toList).diagnostic?
              "/\"//\"@//\"\n\"@".toList).toList ∧
        (result.reports.toList.Pairwise fun first second =>
          ∀ before ∈ first.span, ∀ after ∈ second.span, before.start < after.start) ∧
        ∀ front diagnostic back, result.reports.toList = front ++ diagnostic :: back →
          diagnostic.code = 1002 → back = [] :=
  ⟨by decide, scan_eq_walk (by decide)⟩

end LoxLexer
