import LoxLexer.Proofs.Diagnostic.Message
import Mathlib.Data.List.Infix
import Mathlib.Data.Nat.Digits.Defs

/-!
# Filling a template in one pass

The arguments of a message are put in one after the other, each in the text as it
is by then.  An argument can only become part of a later placeholder if it brings
a brace with it or stands between two braces as digits do; no other argument is
ever looked at again.  So, unless one of the arguments before the last is of that
kind, filling the placeholders in turn is filling them all in one pass over the
template (`fill_simultaneous`).
-/

namespace LoxLexer
namespace Template

/-! ## One pass over a template -/

/-- The argument whose placeholder a text begins with, and its index. -/
def named? (arguments : List (String × Nat)) (text : List Char) : Option (String × Nat) :=
  arguments.find? fun (_, index) => (placeholder index).isPrefixOf text

/-- A text in which the placeholders of the arguments are replaced in one pass.
What is put in is not looked at, and all other characters are copied. -/
def passOver (arguments : List (String × Nat)) (text : List Char) : List Char :=
  match text with
  | [] => []
  | c :: others =>
    match named? arguments (c :: others) with
    | some (argument, index) =>
      argument.toList ++ passOver arguments (others.drop ((placeholder index).length - 1))
    | none => c :: passOver arguments others
termination_by text.length
decreasing_by
  · simp only [List.length_drop, List.length_cons]
    omega
  · simp

/-- A template with the placeholders of all its arguments replaced in one pass. -/
def fillAtOnce (text : String) (arguments : List String) : String :=
  String.ofList (passOver arguments.zipIdx text.toList)

/-- An argument that cannot become part of a placeholder: there is no brace in it,
and not all of it is digits. -/
structure IsInert (argument : String) : Prop where
  noOpening : '{' ∉ argument.toList
  noClosing : '}' ∉ argument.toList
  notDigits : ∃ c ∈ argument.toList, c.isDigit = false

variable {arguments : List (String × Nat)} {argument : String} {index : Nat}
  {text rest : List Char}

/-! ## Placeholders -/

theorem isDigit_of_mem_index
    {d : Char}
    (hmem : d ∈ Nat.toDigits 10 index) :
    d.isDigit = true :=
  Nat.isDigit_of_mem_toDigits (by decide) (by decide) hmem

theorem placeholder_ne_nil (index : Nat) : placeholder index ≠ [] :=
  List.cons_ne_nil _ _

theorem opening_not_mem_index (index : Nat) :
    '{' ∉ Nat.toDigits 10 index ++ ['}'] := by
  intro hmem
  rcases List.mem_append.mp hmem with hdigit | hclosing
  · exact absurd (isDigit_of_mem_index hdigit) (by decide)
  · exact absurd (List.mem_singleton.mp hclosing) (by decide)

theorem takeWhile_isDigit_index
    (index : Nat) (rest : List Char) :
    (Nat.toDigits 10 index ++ '}' :: rest).takeWhile Char.isDigit = Nat.toDigits 10 index := by
  have hclosing : ('}' :: rest).takeWhile Char.isDigit = [] :=
    List.takeWhile_cons_of_neg (by decide)
  rw [List.takeWhile_append_of_pos fun d hd => isDigit_of_mem_index hd, hclosing,
    List.append_nil]

/-- A text begins with one placeholder at most. -/
theorem index_eq_of_isPrefixOf
    {other : Nat}
    (hindex : (placeholder index).isPrefixOf text = true)
    (hother : (placeholder other).isPrefixOf text = true) :
    index = other := by
  obtain ⟨rest, rfl⟩ := List.isPrefixOf_iff_prefix.mp hindex
  obtain ⟨more, heq⟩ := List.isPrefixOf_iff_prefix.mp hother
  simp only [placeholder, List.cons_append, List.append_assoc, List.nil_append,
    List.cons.injEq, true_and] at heq
  have hdigits := congrArg (List.takeWhile Char.isDigit) heq
  rw [takeWhile_isDigit_index, takeWhile_isDigit_index] at hdigits
  rw [← Nat.ofDigitChars_ten_toDigits (n := index), ← hdigits,
    Nat.ofDigitChars_ten_toDigits]

/-! ## What one pass does -/

theorem passOver_nil (arguments : List (String × Nat)) : passOver arguments [] = [] := by
  rw [passOver]

/-- A placeholder gives way to its argument. -/
theorem passOver_placeholder_append
    (hnamed : named? arguments (placeholder index ++ rest) = some (argument, index)) :
    passOver arguments (placeholder index ++ rest) =
      argument.toList ++ passOver arguments rest := by
  rw [placeholder, List.cons_append] at hnamed ⊢
  rw [passOver, hnamed]
  simp [placeholder]

theorem passOver_cons_of_named?_eq_none
    {c : Char} {others : List Char}
    (hnamed : named? arguments (c :: others) = none) :
    passOver arguments (c :: others) = c :: passOver arguments others := by
  rw [passOver, hnamed]

theorem named?_eq_none_of_ne
    {c : Char} {others : List Char}
    (hc : c ≠ '{') :
    named? arguments (c :: others) = none := by
  rw [named?, List.find?_eq_none]
  intro entry _
  simp [placeholder, List.isPrefixOf, hc.symm]

theorem passOver_append_of_not_mem
    {front : List Char}
    (hfront : '{' ∉ front)
    (back : List Char) :
    passOver arguments (front ++ back) = front ++ passOver arguments back := by
  induction front with
  | nil => rfl
  | cons c others ih =>
      rw [List.mem_cons, not_or] at hfront
      rw [List.cons_append, passOver_cons_of_named?_eq_none
        (named?_eq_none_of_ne (Ne.symm hfront.1)), ih hfront.2, List.cons_append]

/-- A placeholder without an argument stays as it is. -/
theorem passOver_placeholder_append_of_absent
    (habsent : ∀ entry ∈ arguments, entry.2 ≠ index)
    (rest : List Char) :
    passOver arguments (placeholder index ++ rest) =
      placeholder index ++ passOver arguments rest := by
  have hnamed : named? arguments (placeholder index ++ rest) = none := by
    rw [named?, List.find?_eq_none]
    intro entry hentry hstands
    apply habsent entry hentry
    exact index_eq_of_isPrefixOf hstands
      (List.isPrefixOf_iff_prefix.mpr (List.prefix_append _ _))
  rw [placeholder, List.cons_append] at hnamed ⊢
  rw [passOver_cons_of_named?_eq_none hnamed,
    passOver_append_of_not_mem (opening_not_mem_index index), List.cons_append]

theorem passOver_none (text : List Char) : passOver [] text = text := by
  induction text with
  | nil => exact passOver_nil []
  | cons c others ih => rw [passOver_cons_of_named?_eq_none rfl, ih]

/-! ## Placeholders do not come about -/

/-- An inert argument does not stand before the end of a placeholder. -/
theorem IsInert.not_prefix_append
    {digits : List Char}
    (hinert : IsInert argument)
    (hdigits : ∀ d ∈ digits, d.isDigit = true)
    (rest : List Char) :
    ¬ digits ++ ['}'] <+: argument.toList ++ rest := by
  intro hends
  obtain ⟨c, hc, hnot⟩ := hinert.notDigits
  rcases List.prefix_or_prefix_of_prefix hends (List.prefix_append _ _) with hinside | hbefore
  · exact hinert.noClosing (hinside.mem (List.mem_append_right _ (List.mem_singleton_self _)))
  · rcases List.mem_append.mp (hbefore.mem hc) with hdigit | hclosing
    · rw [hdigits c hdigit] at hnot
      cases hnot
    · rw [List.mem_singleton.mp hclosing] at hc
      exact hinert.noClosing hc

/-- What ends a placeholder after a pass with inert arguments ended it before. -/
theorem prefix_of_prefix_passOver
    {digits : List Char}
    (hinert : ∀ entry ∈ arguments, IsInert entry.1)
    (hdigits : ∀ d ∈ digits, d.isDigit = true)
    (hends : digits ++ ['}'] <+: passOver arguments text) :
    digits ++ ['}'] <+: text := by
  -- one digit after the other, none of which has been put in
  induction text generalizing digits with
  | nil => rwa [passOver_nil] at hends
  | cons c others ih =>
      rw [passOver] at hends
      split at hends
      · rename_i hnamed
        have hentry := hinert _ (List.mem_of_find?_eq_some hnamed)
        exact absurd hends (hentry.not_prefix_append hdigits _)
      · cases digits with
        | nil =>
            have hclosing := (List.cons_prefix_cons.mp hends).1
            exact List.cons_prefix_cons.mpr ⟨hclosing, List.nil_prefix⟩
        | cons d more =>
            rw [List.forall_mem_cons] at hdigits
            rw [List.cons_append, List.cons_prefix_cons] at hends ⊢
            exact ⟨hends.1, ih hdigits.2 hends.2⟩

/-! ## One argument more -/

/-- A text that begins with one of several placeholders begins with one of the
first, or with the last. -/
theorem exists_of_named?_concat
    {found : String × Nat}
    (hnamed : named? (arguments ++ [(argument, index)]) text = some found) :
    ∃ rest, text = placeholder found.2 ++ rest ∧
      (named? arguments text = some found ∨ found = (argument, index)) := by
  have hstands := List.find?_some hnamed
  obtain ⟨rest, hrest⟩ := List.isPrefixOf_iff_prefix.mp hstands
  refine ⟨rest, hrest.symm, ?_⟩
  rw [named?, List.find?_append, Option.or_eq_some_iff] at hnamed
  rcases hnamed with hfirst | ⟨-, hlast⟩
  · exact Or.inl hfirst
  · exact Or.inr (List.mem_singleton.mp (List.mem_of_find?_eq_some hlast))

/-- After a pass with inert arguments, replacing one more placeholder is one pass
with one more argument. -/
theorem replaceAll_passOver
    (hinert : ∀ entry ∈ arguments, IsInert entry.1)
    (habsent : ∀ entry ∈ arguments, entry.2 ≠ index)
    (argument : String) (text : List Char) :
    replaceAll (placeholder index) argument.toList (passOver arguments text) =
      passOver (arguments ++ [(argument, index)]) text := by
  induction text using passOver.induct (arguments ++ [(argument, index)]) with
  | case1 => rw [passOver_nil, passOver_nil, replaceAll_nil]
  | case2 c others found foundIndex hnamed ih =>
      obtain ⟨rest, htext, hfound⟩ := exists_of_named?_concat hnamed
      have hrest : others.drop ((placeholder foundIndex).length - 1) = rest := by
        rw [← List.drop_succ_cons (a := c), htext]
        simp [placeholder]
      rw [hrest] at ih
      rw [htext] at hnamed hfound ⊢
      rw [passOver_placeholder_append hnamed]
      rcases hfound with hfirst | hlast
      · have hentry := hinert _ (List.mem_of_find?_eq_some hfirst)
        rw [passOver_placeholder_append hfirst, ← ih]
        exact replaceAll_append_of_not_mem hentry.noOpening _ _
      · obtain ⟨rfl, rfl⟩ := Prod.mk.inj hlast
        rw [passOver_placeholder_append_of_absent habsent,
          replaceAll_append (placeholder_ne_nil _), ih]
  | case3 c others hnamed ih =>
      have hparts := List.find?_eq_none.mp hnamed
      have hfirst : named? arguments (c :: others) = none :=
        List.find?_eq_none.mpr fun entry hentry =>
          hparts entry (List.mem_append_left _ hentry)
      have hlast : ¬ placeholder index <+: c :: others := by
        intro hbegins
        apply hparts (argument, index) (List.mem_append_right _ (List.mem_singleton_self _))
        exact List.isPrefixOf_iff_prefix.mpr hbegins
      have hstill : (placeholder index).isPrefixOf (c :: passOver arguments others) = false := by
        rw [Bool.eq_false_iff, ne_eq, List.isPrefixOf_iff_prefix]
        intro hbegins
        rw [placeholder, List.cons_prefix_cons] at hbegins hlast
        exact hlast ⟨hbegins.1,
          prefix_of_prefix_passOver hinert (fun d hd => isDigit_of_mem_index hd) hbegins.2⟩
      rw [passOver_cons_of_named?_eq_none hfirst, passOver_cons_of_named?_eq_none hnamed,
        replaceAll_cons_of_not_isPrefixOf hstill, ih]

/-! ## All arguments -/

section

variable {arguments front : List String} {text : String}

theorem toList_fill_concat
    (text : String) (front : List String) (last : String) :
    (fill text (front ++ [last])).toList =
      replaceAll (placeholder front.length) last.toList (fill text front).toList := by
  simp [fill, List.zipIdx_append]

/-- One more round of filling is one more argument in the pass. -/
theorem fill_concat_eq_fillAtOnce
    (hinert : ∀ argument ∈ front, IsInert argument)
    (hfront : fill text front = fillAtOnce text front)
    (last : String) :
    fill text (front ++ [last]) = fillAtOnce text (front ++ [last]) := by
  have hall : ∀ entry ∈ front.zipIdx, IsInert entry.1 := by
    intro entry hentry
    exact hinert _ (List.fst_mem_of_mem_zipIdx hentry)
  have habsent : ∀ entry ∈ front.zipIdx, entry.2 ≠ front.length := by
    intro entry hentry
    have hlt := List.snd_lt_of_mem_zipIdx hentry
    omega
  apply String.toList_injective
  rw [toList_fill_concat, hfront, fillAtOnce, fillAtOnce, String.toList_ofList,
    String.toList_ofList, replaceAll_passOver hall habsent, List.zipIdx_append, Nat.zero_add,
    List.zipIdx_singleton]

theorem fill_eq_fillAtOnce_of_inert
    (hinert : ∀ argument ∈ arguments, IsInert argument)
    (text : String) :
    fill text arguments = fillAtOnce text arguments := by
  induction arguments using List.reverseRecOn with
  | nil => rw [fill_nil, fillAtOnce, List.zipIdx_nil, passOver_none, String.ofList_toList]
  | append_singleton front last ih =>
      have hfront : ∀ argument ∈ front, IsInert argument :=
        fun argument hmem => hinert argument (List.mem_append_left _ hmem)
      exact fill_concat_eq_fillAtOnce hfront (ih hfront) last

/-- Filling a template argument by argument is filling it in one pass, if all
arguments but the last are inert; a single argument may be any text. -/
theorem fill_simultaneous
    (text : String)
    (hinert : ∀ argument ∈ arguments.dropLast, IsInert argument) :
    fill text arguments = fillAtOnce text arguments ∧
      ∀ argument, fill text [argument] = fillAtOnce text [argument] := by
  constructor
  · rcases List.eq_nil_or_concat' arguments with rfl | ⟨front, last, rfl⟩
    · exact fill_eq_fillAtOnce_of_inert (List.forall_mem_nil _) text
    · rw [List.dropLast_concat] at hinert
      exact fill_concat_eq_fillAtOnce hinert (fill_eq_fillAtOnce_of_inert hinert text) last
  · intro argument
    have hnone : ∀ argument ∈ ([] : List String), IsInert argument := List.forall_mem_nil _
    exact fill_concat_eq_fillAtOnce hnone (fill_eq_fillAtOnce_of_inert hnone text) argument

/-- A placeholder inside braces, one that the last argument brings with it, and one
without an argument. -/
theorem fill_simultaneous_of_nested_braces :
    (∀ argument ∈ ["a1", "\x7b0\x7d"].dropLast, IsInert argument) ∧
      fill "\x7b1\x7b0\x7d\x7d \x7b1\x7d \x7b2\x7d" ["a1", "\x7b0\x7d"] =
        fillAtOnce "\x7b1\x7b0\x7d\x7d \x7b1\x7d \x7b2\x7d" ["a1", "\x7b0\x7d"] ∧
      ∀ argument, fill "\x7b1\x7b0\x7d\x7d \x7b1\x7d \x7b2\x7d" [argument] =
        fillAtOnce "\x7b1\x7b0\x7d\x7d \x7b1\x7d \x7b2\x7d" [argument] := by
  have hinert : ∀ argument ∈ ["a1", "\x7b0\x7d"].dropLast, IsInert argument := by
    intro argument hmem
    obtain rfl := List.mem_singleton.mp hmem
    exact ⟨by decide, by decide, ⟨'a', by decide, by decide⟩⟩
  exact ⟨hinert, fill_simultaneous _ hinert⟩

/-- An argument of digits before the last one can become part of a placeholder. -/
example : fill "\x7b\x7b0\x7d\x7d" ["1", "x"] = "x" ∧
    fillAtOnce "\x7b\x7b0\x7d\x7d" ["1", "x"] = "\x7b1\x7d" := by cbv

end

end Template
end LoxLexer
