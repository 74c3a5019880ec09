import LoxLexer.Proofs.Lexeme.Shape
import LoxLexer.Proofs.Report.Basic
import Mathlib.Data.List.Basic
import Mathlib.Data.List.Find

/-!
# Reports without their escape sequences

Escape sequences are taken out of a text in one pass from left to right.  A text
can hold sequences, and fragments of them, that no palette has put there: in a
file name, in a message, in a line of the source.  What a palette puts between
such parts is a whole sequence or nothing, and after each part comes a character
that continues no fragment, so no new sequence comes about.  A report in color
and one without are therefore the same text once the sequences are taken out
(`leaves_ofDiagnostic`).
-/

namespace LoxLexer

namespace Palette

/-- The escape sequences that reports in color are written with. -/
def codes : List (List Char) :=
  [ansi.bold, ansi.red, ansi.cyan, ansi.gray, ansi.reset].map String.toList

/-- The character that every escape sequence begins with. -/
def escape : Char := '\x1b'

/-- The other characters of escape sequences. -/
def isCodePart (c : Char) : Bool := c ∈ ['[', '0', '1', '3', '6', '9', 'm']

theorem exists_of_mem_codes
    {code : List Char}
    (hcode : code ∈ codes) :
    ∃ others, code = escape :: others ∧ ∀ c ∈ others, isCodePart c = true := by
  have hall : ∀ code ∈ codes, code.head? = some escape ∧ code.tail.all isCodePart = true := by
    decide +kernel
  obtain ⟨hhead, hparts⟩ := hall code hcode
  exact ⟨code.tail, List.eq_cons_of_mem_head? hhead, List.all_eq_true.mp hparts⟩

/-- No escape sequence is the beginning of another one. -/
theorem eq_of_prefix_of_mem_codes
    {code other : List Char}
    (hcode : code ∈ codes)
    (hother : other ∈ codes)
    (hinitial : code <+: other) :
    code = other := by
  have hall : ∀ code ∈ codes, ∀ other ∈ codes, code <+: other → code = other := by
    decide +kernel
  exact hall code hcode other hother hinitial

/-- The escape sequence that a text begins with. -/
def codeAt? (text : List Char) : Option (List Char) :=
  codes.find? (·.isPrefixOf text)

theorem codeAt?_eq_some
    {code text : List Char}
    (hcode : codeAt? text = some code) :
    code ∈ codes ∧ code <+: text := by
  rw [codeAt?] at hcode
  have hinitial := List.find?_some hcode
  rw [List.isPrefixOf_iff_prefix] at hinitial
  exact ⟨List.mem_of_find?_eq_some hcode, hinitial⟩

theorem codeAt?_append
    {code : List Char}
    (hcode : code ∈ codes)
    (rest : List Char) :
    codeAt? (code ++ rest) = some code := by
  cases hfound : codeAt? (code ++ rest) with
  | none =>
      have hnot := List.find?_eq_none.mp hfound code hcode
      exact absurd (List.isPrefixOf_iff_prefix.mpr (List.prefix_append code rest)) hnot
  | some other =>
      obtain ⟨hother, hinitial⟩ := codeAt?_eq_some hfound
      rcases List.prefix_or_prefix_of_prefix hinitial (List.prefix_append code rest) with h | h
      · rw [eq_of_prefix_of_mem_codes hother hcode h]
      · rw [eq_of_prefix_of_mem_codes hcode hother h]

theorem codeAt?_cons_of_ne
    {c : Char}
    (hc : c ≠ escape)
    (others : List Char) :
    codeAt? (c :: others) = none := by
  cases hfound : codeAt? (c :: others) with
  | none => rfl
  | some code =>
      obtain ⟨hcode, hinitial⟩ := codeAt?_eq_some hfound
      obtain ⟨parts, rfl, -⟩ := exists_of_mem_codes hcode
      exact absurd (List.cons_prefix_cons.mp hinitial).1 hc.symm

/-- Whether a sequence begins a text is seen in the text itself, if no fragment at
its end is continued by what follows. -/
theorem codeAt?_append_of_avoids
    {text rest : List Char}
    (hne : text ≠ [])
    (hrest : HeadAvoids isCodePart rest) :
    codeAt? (text ++ rest) = codeAt? text := by
  apply List.find?_congr
  intro code hcode
  rw [Bool.eq_iff_iff, List.isPrefixOf_iff_prefix, List.isPrefixOf_iff_prefix]
  refine ⟨?_, fun hinitial => hinitial.trans (List.prefix_append _ _)⟩
  intro hinitial
  rcases List.prefix_or_prefix_of_prefix hinitial (List.prefix_append text rest) with h | h
  · exact h
  · obtain ⟨back, rfl⟩ := h
    rw [List.prefix_append_right_inj] at hinitial
    cases back with
    | nil => exact (List.append_nil text).symm ▸ List.prefix_rfl
    | cons c others =>
        -- the sequence would reach over the end of the text
        obtain ⟨parts, heq, hparts⟩ := exists_of_mem_codes hcode
        obtain ⟨first, front, rfl⟩ := List.exists_cons_of_ne_nil hne
        rw [List.cons_append, List.cons.injEq] at heq
        have hpart : isCodePart c = true := by
          apply hparts
          rw [← heq.2]
          exact List.mem_append_right _ List.mem_cons_self
        obtain ⟨later, rfl⟩ := hinitial
        rw [List.cons_append, headAvoids_cons_iff] at hrest
        rw [hrest] at hpart
        cases hpart

/-- A text without its escape sequences: each one is left out as it is met from
left to right. -/
def withoutCodes (text : List Char) : List Char :=
  match text with
  | [] => []
  | c :: others =>
    match codeAt? (c :: others) with
    | some code => withoutCodes (others.drop (code.length - 1))
    | none => c :: withoutCodes others
termination_by text.length
decreasing_by
  · simp only [List.length_drop, List.length_cons]
    omega
  · simp

theorem withoutCodes_nil : withoutCodes [] = [] := by
  rw [withoutCodes]

theorem withoutCodes_append_of_mem_codes
    {code : List Char}
    (hcode : code ∈ codes)
    (rest : List Char) :
    withoutCodes (code ++ rest) = withoutCodes rest := by
  have hfound := codeAt?_append hcode rest
  obtain ⟨parts, rfl, -⟩ := exists_of_mem_codes hcode
  rw [List.cons_append] at hfound ⊢
  rw [withoutCodes, hfound]
  simp only [List.length_cons, Nat.add_sub_cancel]
  rw [List.drop_left]

theorem withoutCodes_cons_of_ne
    {c : Char}
    (hc : c ≠ escape)
    (others : List Char) :
    withoutCodes (c :: others) = c :: withoutCodes others := by
  rw [withoutCodes, codeAt?_cons_of_ne hc]

/-- Two texts are taken apart one after the other, if no fragment at the end of
the first is continued by the second. -/
theorem withoutCodes_append
    {rest : List Char}
    (hrest : HeadAvoids isCodePart rest)
    (text : List Char) :
    withoutCodes (text ++ rest) = withoutCodes text ++ withoutCodes rest := by
  induction text using withoutCodes.induct with
  | case1 => rw [withoutCodes_nil, List.nil_append, List.nil_append]
  | case2 c others code hcode ih =>
      have hfound := codeAt?_append_of_avoids (List.cons_ne_nil c others) hrest
      obtain ⟨hmem, hinitial⟩ := codeAt?_eq_some hcode
      have hlength := hinitial.length_le
      rw [List.length_cons] at hlength
      rw [hcode, List.cons_append] at hfound
      rw [List.cons_append, withoutCodes, hfound, withoutCodes, hcode]
      simp only
      rw [List.drop_append_of_le_length (by omega)]
      exact ih
  | case3 c others hcode ih =>
      have hfound := codeAt?_append_of_avoids (List.cons_ne_nil c others) hrest
      rw [hcode, List.cons_append] at hfound
      rw [List.cons_append, withoutCodes, hfound, withoutCodes, hcode]
      simp only
      rw [ih, List.cons_append]

/-! ## What is left of a text -/

/-- A text leaves another one when it is taken apart, whatever follows it. -/
def Leaves (text left : List Char) : Prop :=
  ∀ rest, withoutCodes (text ++ rest) = left ++ withoutCodes rest

namespace Leaves

variable {text left other more : List Char}

theorem append
    (hfirst : Leaves text left)
    (hsecond : Leaves other more) :
    Leaves (text ++ other) (left ++ more) := by
  intro rest
  rw [List.append_assoc, hfirst, hsecond, List.append_assoc]

theorem nil : Leaves [] [] := fun _ => rfl

theorem of_mem_codes
    {code : List Char}
    (hcode : code ∈ codes) :
    Leaves code [] :=
  withoutCodes_append_of_mem_codes hcode

theorem self
    (htext : escape ∉ text) :
    Leaves text text := by
  intro rest
  induction text with
  | nil => rfl
  | cons c others ih =>
      rw [List.mem_cons, not_or] at htext
      rw [List.cons_append, withoutCodes_cons_of_ne (Ne.symm htext.1), ih htext.2, List.cons_append]

/-- Any text at all may stand before one that continues no fragment. -/
theorem append_any
    (hother : Leaves other more)
    (havoids : ∀ rest, HeadAvoids isCodePart (other ++ rest))
    (text : List Char) :
    Leaves (text ++ other) (withoutCodes text ++ more) := by
  intro rest
  rw [List.append_assoc, withoutCodes_append (havoids rest), hother, List.append_assoc]

theorem withoutCodes_eq
    (hleaves : Leaves text left) :
    withoutCodes text = left := by
  have hnil := hleaves []
  rwa [List.append_nil, withoutCodes_nil, List.append_nil] at hnil

end Leaves

/-- A palette none of whose texts leaves anything: each is an escape sequence, or
there is none. -/
structure Invisible (palette : Palette) : Prop where
  bold : palette.bold.toList = [] ∨ palette.bold.toList ∈ codes
  red : palette.red.toList = [] ∨ palette.red.toList ∈ codes
  cyan : palette.cyan.toList = [] ∨ palette.cyan.toList ∈ codes
  gray : palette.gray.toList = [] ∨ palette.gray.toList ∈ codes
  reset : palette.reset.toList = [] ∨ palette.reset.toList ∈ codes

theorem invisible_ofColor (color : Bool) : (ofColor color).Invisible := by
  cases color with
  | false => exact ⟨.inl rfl, .inl rfl, .inl rfl, .inl rfl, .inl rfl⟩
  | true =>
      constructor <;> right <;> decide +kernel

theorem leaves_nil_of_mem
    {style : List Char}
    (hstyle : style = [] ∨ style ∈ codes) :
    Leaves style [] := by
  rcases hstyle with rfl | hcode
  · exact Leaves.nil
  · exact Leaves.of_mem_codes hcode

/-- A style continues no fragment, and neither does what follows where there is
none. -/
theorem headAvoids_style_append
    {style rest : List Char}
    (hstyle : style = [] ∨ style ∈ codes)
    (hrest : HeadAvoids isCodePart rest) :
    HeadAvoids isCodePart (style ++ rest) := by
  rcases hstyle with rfl | hcode
  · exact hrest
  · obtain ⟨parts, rfl, -⟩ := exists_of_mem_codes hcode
    rw [List.cons_append, headAvoids_cons_iff]
    decide

end Palette

namespace Report

open Palette

variable {palette : Palette}

/-- A text without its escape sequences. -/
def erased (text : String) : String := String.ofList (withoutCodes text.toList)

theorem erased_eq_of_leaves
    {text other : String} {left : List Char}
    (htext : Leaves text.toList left)
    (hother : Leaves other.toList left) :
    erased text = erased other := by
  rw [erased, erased, htext.withoutCodes_eq, hother.withoutCodes_eq]

theorem not_mem_decimal
    {c : Char}
    (hc : c.isDigit = false)
    (number : Nat) :
    c ∉ number.repr.toList := by
  intro hmem
  have hdigit : c.isDigit = true := by
    apply Nat.isDigit_of_mem_toDigits (b := 10) (by decide) (by decide)
    simpa [Nat.repr] using hmem
  rw [hc] at hdigit
  cases hdigit

theorem escape_not_mem_decimal (number : Nat) : escape ∉ number.repr.toList :=
  not_mem_decimal (by decide) number

theorem leaves_file
    (hpalette : palette.Invisible)
    (file : Option String) :
    Leaves
      (match file with
        | none => ""
        | some file => palette.cyan ++ file ++ palette.reset ++ ":").toList
      (match file.map erased with
        | none => ""
        | some file => file ++ ":").toList := by
  cases file with
  | none => exact Leaves.nil
  | some file =>
      have hcolon : Leaves (palette.reset.toList ++ ":".toList) ":".toList :=
        (leaves_nil_of_mem hpalette.reset).append (Leaves.self (by decide))
      have havoids : ∀ rest, HeadAvoids isCodePart
          (palette.reset.toList ++ ":".toList ++ rest) := by
        intro rest
        rw [List.append_assoc]
        exact headAvoids_style_append hpalette.reset (headAvoids_cons_iff.mpr (by decide))
      have hfile := (leaves_nil_of_mem hpalette.cyan).append
        (hcolon.append_any havoids file.toList)
      simpa [erased] using hfile

theorem leaves_code
    (hpalette : palette.Invisible)
    (code : Word) :
    Leaves
      (if code = 0 then ""
        else " " ++ palette.cyan ++ "LOX" ++ code.decimal ++ palette.reset).toList
      (if code = 0 then "" else " LOX" ++ code.decimal).toList := by
  by_cases hcode : code = 0
  · rw [if_pos hcode, if_pos hcode]
    exact Leaves.nil
  · rw [if_neg hcode, if_neg hcode]
    have hblank : Leaves " ".toList " ".toList := Leaves.self (by decide)
    have hletters : Leaves "LOX".toList "LOX".toList := Leaves.self (by decide)
    have hnumber : Leaves code.decimal.toList code.decimal.toList :=
      Leaves.self (escape_not_mem_decimal _)
    have htext := hblank.append ((leaves_nil_of_mem hpalette.cyan).append
      (hletters.append (hnumber.append (leaves_nil_of_mem hpalette.reset))))
    simpa using htext

/-- A header leaves the text of the diagnostic, its file and its message taken
apart. -/
theorem leaves_header
    (hpalette : palette.Invisible)
    (diagnostic : Diagnostic) :
    Leaves (header palette diagnostic ++ "\n").toList
      (Diagnostic.text { diagnostic with
        file := diagnostic.file.map erased
        message := erased diagnostic.message } ++ "\n").toList := by
  have hline : Leaves ("[line " ++ diagnostic.line.decimal ++ "] ").toList
      ("[line " ++ diagnostic.line.decimal ++ "] ").toList := by
    apply Leaves.self
    simp only [String.toList_append, List.mem_append, not_or]
    exact ⟨⟨by decide, escape_not_mem_decimal _⟩, by decide⟩
  have hword : Leaves "error".toList "error".toList := Leaves.self (by decide)
  have hcolon : Leaves ": ".toList ": ".toList := Leaves.self (by decide)
  have hfeed : Leaves "\n".toList "\n".toList := Leaves.self (by decide)
  have hmessage := hfeed.append_any (fun rest => headAvoids_cons_iff.mpr (by decide))
    diagnostic.message.toList
  have hheader := (leaves_file hpalette diagnostic.file).append (hline.append
    ((leaves_nil_of_mem hpalette.bold).append ((leaves_nil_of_mem hpalette.red).append
      (hword.append ((leaves_nil_of_mem hpalette.reset).append
        ((leaves_code hpalette diagnostic.code).append (hcolon.append hmessage)))))))
  simp only [header, Diagnostic.text, erased, String.toList_append, String.toList_ofList,
    List.append_assoc, List.nil_append] at hheader ⊢
  exact hheader

/-- An excerpt leaves its two lines, the line of the source taken apart. -/
theorem leaves_write
    (hpalette : palette.Invisible)
    (excerpt : Excerpt) :
    Leaves (excerpt.write palette).toList
      (excerpt.gutter.toList ++ (withoutCodes excerpt.text ++
        ("\n".toList ++ (excerpt.pad ++ (List.replicate excerpt.carets '^' ++ "\n".toList))))) := by
  have hgutter : Leaves excerpt.gutter.toList excerpt.gutter.toList := by
    apply Leaves.self
    rw [Excerpt.gutter, String.toList_append, List.mem_append, not_or]
    exact ⟨escape_not_mem_decimal _, by decide⟩
  have hpad : Leaves excerpt.pad excerpt.pad := by
    apply Leaves.self
    rw [Excerpt.pad, List.mem_append, not_or]
    constructor
    · intro hmem
      exact absurd (List.eq_of_mem_replicate hmem) (by decide)
    · intro hmem
      rcases Excerpt.eq_of_mem_indent hmem with htab | hblank
      · exact absurd htab (by decide)
      · exact absurd hblank (by decide)
  have hcarets : Leaves (List.replicate excerpt.carets '^')
      (List.replicate excerpt.carets '^') := by
    apply Leaves.self
    intro hmem
    exact absurd (List.eq_of_mem_replicate hmem) (by decide)
  have hfeed : Leaves "\n".toList "\n".toList := Leaves.self (by decide)
  have hmarker := hfeed.append (hpad.append ((leaves_nil_of_mem hpalette.red).append
    (hcarets.append ((leaves_nil_of_mem hpalette.reset).append hfeed))))
  have hlines := (leaves_nil_of_mem hpalette.gray).append (hgutter.append
    ((leaves_nil_of_mem hpalette.reset).append
      (hmarker.append_any (fun rest => headAvoids_cons_iff.mpr (by decide)) excerpt.text)))
  simp only [Excerpt.write, String.toList_append, String.toList_ofList, List.append_assoc,
    List.nil_append] at hlines ⊢
  exact hlines

/-- A report leaves the same with every palette that leaves nothing of itself, and
it faults with none if it does not fault with all. -/
theorem leaves_ofDiagnostic (page : Page) (diagnostic : Diagnostic) :
    (∃ fault, ∀ palette, ofDiagnostic palette page diagnostic = .error fault) ∨
      ∃ left, ∀ palette : Palette, palette.Invisible →
        ∃ report, ofDiagnostic palette page diagnostic = .ok report ∧
          Leaves report.toList left := by
  obtain ⟨front, hheader⟩ : ∃ front, ∀ palette : Palette, palette.Invisible →
      Leaves (header palette diagnostic ++ "\n").toList front :=
    ⟨_, fun palette hpalette => leaves_header hpalette diagnostic⟩
  cases hshown : shown page diagnostic with
  | error fault => exact Or.inl ⟨fault, ofDiagnostic_of_fault hshown⟩
  | ok excerpt? =>
      cases excerpt? with
      | none =>
          exact Or.inr ⟨front, fun palette hpalette =>
            ⟨_, ofDiagnostic_of_nothing hshown palette, hheader palette hpalette⟩⟩
      | some excerpt =>
          obtain ⟨back, hback⟩ : ∃ back, ∀ palette : Palette, palette.Invisible →
              Leaves (excerpt.write palette).toList back :=
            ⟨_, fun palette hpalette => leaves_write hpalette excerpt⟩
          refine Or.inr ⟨front ++ back, fun palette hpalette =>
            ⟨_, ofDiagnostic_of_excerpt hshown palette, ?_⟩⟩
          rw [String.toList_append]
          exact (hheader palette hpalette).append (hback palette hpalette)

theorem leaves_tally
    (hpalette : palette.Invisible)
    (count : Nat) :
    Leaves (tally palette count).toList
      ("Found " ++ count.repr ++ (if count = 1 then " error." else " errors.")).toList := by
  have htext : Leaves
      ("Found " ++ count.repr ++ (if count = 1 then " error." else " errors.")).toList
      ("Found " ++ count.repr ++ (if count = 1 then " error." else " errors.")).toList := by
    apply Leaves.self
    rw [String.toList_append, String.toList_append, List.mem_append, List.mem_append]
    rintro ((hmem | hmem) | hmem)
    · exact absurd hmem (by decide)
    · exact escape_not_mem_decimal count hmem
    · split at hmem
      · exact absurd hmem (by decide)
      · exact absurd hmem (by decide)
  have htally := (leaves_nil_of_mem hpalette.red).append
    (htext.append (leaves_nil_of_mem hpalette.reset))
  rw [List.nil_append, List.append_nil] at htally
  rw [tally, String.toList_append, String.toList_append, List.append_assoc]
  exact htally

end Report
end LoxLexer
