import LoxLexer.Proofs.Scan.Placed
import LoxLexer.Source.LineIndex
import Mathlib.Data.List.Count

/-!
# The lines of an index

Bisection keeps two bounds: every entry below the lower one lies at or before
the position, every entry from the upper one on lies after it.  When the bounds
meet, their common value is the number of entries at or before the position.

The entries of the index of a text are zero and the offsets past its line
feeds, so that number is one more than the line feeds before the position.
-/

namespace LoxLexer
namespace LineIndex

/-! ## Bisection -/

/-- The entries below an index lie at or before a position. -/
def ReachedBelow (starts : Array Word) (position : Word) (index : Nat) : Prop :=
  ∀ place start, place < index → starts[place]? = some start → start ≤ position

/-- The entries from an index on lie after a position. -/
def BeyondFrom (starts : Array Word) (position : Word) (index : Nat) : Prop :=
  ∀ place start, index ≤ place → starts[place]? = some start → position < start

section Bisection

variable {starts : Array Word} {position : Word} {low high : Nat}

theorem le_of_getElem?
    {first second : Nat} {start stop : Word}
    (hsorted : starts.toList.Pairwise (· < ·))
    (hle : first ≤ second)
    (hfirst : starts[first]? = some start)
    (hsecond : starts[second]? = some stop) :
    start ≤ stop := by
  rcases Nat.eq_or_lt_of_le hle with rfl | hlt
  · rw [hfirst] at hsecond
    exact UInt32.le_of_eq (Option.some.inj hsecond)
  · obtain ⟨hinside, rfl⟩ := Array.getElem?_eq_some_iff.mp hfirst
    obtain ⟨hwithin, rfl⟩ := Array.getElem?_eq_some_iff.mp hsecond
    exact UInt32.le_of_lt
      (List.pairwise_iff_getElem.mp hsorted first second hinside hwithin hlt)

theorem ReachedBelow.succ
    {middle : Nat} {start : Word}
    (hsorted : starts.toList.Pairwise (· < ·))
    (hmiddle : starts[middle]? = some start)
    (hstart : start ≤ position) :
    ReachedBelow starts position (middle + 1) := by
  intro place other hplace hother
  have hle := le_of_getElem? hsorted (Nat.lt_succ_iff.mp hplace) hother hmiddle
  exact UInt32.le_trans hle hstart

theorem BeyondFrom.of_getElem?
    {middle : Nat} {start : Word}
    (hsorted : starts.toList.Pairwise (· < ·))
    (hmiddle : starts[middle]? = some start)
    (hstart : ¬ start ≤ position) :
    BeyondFrom starts position middle := by
  intro place other hplace hother
  have hle := le_of_getElem? hsorted hplace hmiddle hother
  exact UInt32.lt_of_lt_of_le (UInt32.not_le.mp hstart) hle

/-- Where bisection ends, the entries below are reached and the others are
not. -/
theorem bisect_spec
    (hsorted : starts.toList.Pairwise (· < ·))
    (hle : low ≤ high)
    (hhigh : high ≤ starts.size)
    (hreached : ReachedBelow starts position low)
    (hbeyond : BeyondFrom starts position high) :
    bisect starts position low high ≤ high ∧
      ReachedBelow starts position (bisect starts position low high) ∧
      BeyondFrom starts position (bisect starts position low high) := by
  -- each turn moves one bound to the middle, on the side that the entry there allows
  fun_induction bisect starts position low high with
  | case1 low high hlt middle start hmiddle hstart ih =>
      exact ih (by omega) hhigh (.succ hsorted hmiddle hstart) hbeyond
  | case2 low high hlt middle start hmiddle hstart ih =>
      have hupper := BeyondFrom.of_getElem? hsorted hmiddle hstart
      obtain ⟨hbound, hends⟩ := ih (by omega) (by omega) hreached hupper
      exact ⟨by omega, hends⟩
  | case3 low high hlt middle hmiddle ih =>
      have hsize := Array.getElem?_eq_none_iff.mp hmiddle
      omega
  | case4 low high hge =>
      obtain rfl : low = high := by omega
      exact ⟨Nat.le_refl low, hreached, hbeyond⟩

/-- The bound that parts the entries counts those at or before the position. -/
theorem countP_eq_of_parted
    {index : Nat}
    (hindex : index ≤ starts.size)
    (hreached : ReachedBelow starts position index)
    (hbeyond : BeyondFrom starts position index) :
    starts.toList.countP (· ≤ position) = index := by
  have hfront : (starts.toList.take index).countP (· ≤ position) = index := by
    have hall : ∀ start ∈ starts.toList.take index, decide (start ≤ position) = true := by
      intro start hstart
      obtain ⟨place, hplace, hget⟩ := List.mem_take_iff_getElem.mp hstart
      have hentry : starts[place]? = some start := by
        rw [← Array.getElem?_toList, List.getElem?_eq_some_iff]
        exact ⟨by omega, hget⟩
      exact decide_eq_true (hreached place start (by omega) hentry)
    rw [List.countP_eq_length.mpr hall, List.length_take, Array.length_toList]
    omega
  have hback : (starts.toList.drop index).countP (· ≤ position) = 0 := by
    rw [List.countP_eq_zero]
    intro start hstart
    obtain ⟨place, hplace, hget⟩ := List.mem_drop_iff_getElem.mp hstart
    have hentry : starts[index + place]? = some start := by
      rw [← Array.getElem?_toList, List.getElem?_eq_some_iff]
      exact ⟨by omega, hget⟩
    have hlt := hbeyond (index + place) start (by omega) hentry
    simpa using hlt
  rw [← List.take_append_drop index starts.toList, List.countP_append, hfront, hback,
    Nat.add_zero]

theorem bisect_eq_countP
    (hsorted : starts.toList.Pairwise (· < ·)) :
    bisect starts position 0 starts.size = starts.toList.countP (· ≤ position) := by
  have hreached : ReachedBelow starts position 0 := by
    intro place start hplace
    omega
  have hbeyond : BeyondFrom starts position starts.size := by
    intro place start hplace hstart
    rw [Array.getElem?_eq_none hplace] at hstart
    cases hstart
  obtain ⟨hbound, hbelow, habove⟩ :=
    bisect_spec hsorted (Nat.zero_le _) (Nat.le_refl _) hreached hbeyond
  exact (countP_eq_of_parted hbound hbelow habove).symm

end Bisection

/-! ## The entries of an index -/

/-- The offsets one past each line feed of a text that stands at an offset. -/
def startsFrom (offset : Nat) : List Char → List Word
  | [] => []
  | c :: others =>
    if c = '\n' then
      Word.ofCount (offset + 1) :: startsFrom (offset + 1) others
    else
      startsFrom (offset + 1) others

theorem startsAfterFeeds_eq
    (text : List Char) :
    startsAfterFeeds text = startsFrom 0 text := by
  suffices hfrom : ∀ offset, (text.zipIdx offset).filterMap (fun entry =>
      if entry.1 = '\n' then some (Word.ofCount (entry.2 + 1)) else none) =
        startsFrom offset text by
    exact hfrom 0
  induction text with
  | nil =>
      intro offset
      rfl
  | cons c others ih =>
      intro offset
      rw [List.zipIdx_cons, startsFrom, ← ih]
      by_cases hfeed : c = '\n'
      · rw [if_pos hfeed]
        simp [hfeed]
      · rw [if_neg hfeed]
        simp [hfeed]

/-- A text without line feeds starts no line. -/
theorem startsFrom_append
    {offset : Nat} {line : List Char}
    (hline : '\n' ∉ line)
    (rest : List Char) :
    startsFrom offset (line ++ rest) = startsFrom (offset + line.length) rest := by
  induction line generalizing offset with
  | nil => rfl
  | cons c others ih =>
      rw [List.mem_cons, not_or] at hline
      rw [List.cons_append, startsFrom, if_neg (Ne.symm hline.1), ih hline.2, List.length_cons,
        Nat.add_assoc, Nat.add_comm 1]

theorem lt_of_mem_startsFrom
    {offset : Nat} {text : List Char} {start : Word}
    (hfits : offset + text.length < UInt32.size)
    (hmem : start ∈ startsFrom offset text) :
    offset < start.toNat := by
  induction text generalizing offset with
  | nil => cases hmem
  | cons c others ih =>
      rw [List.length_cons] at hfits
      have hafter : start ∈ startsFrom (offset + 1) others → offset < start.toNat := by
        intro hothers
        have hlt := ih (by omega) hothers
        omega
      rw [startsFrom] at hmem
      by_cases hfeed : c = '\n'
      · rw [if_pos hfeed] at hmem
        rcases List.mem_cons.mp hmem with rfl | hothers
        · rw [Word.toNat_ofCount (by omega)]
          omega
        · exact hafter hothers
      · rw [if_neg hfeed] at hmem
        exact hafter hmem

theorem startsFrom_pairwise
    {offset : Nat} {text : List Char}
    (hfits : offset + text.length < UInt32.size) :
    (startsFrom offset text).Pairwise (· < ·) := by
  induction text generalizing offset with
  | nil => exact List.Pairwise.nil
  | cons c others ih =>
      rw [List.length_cons] at hfits
      have hothers : (startsFrom (offset + 1) others).Pairwise (· < ·) := ih (by omega)
      rw [startsFrom]
      by_cases hfeed : c = '\n'
      · rw [if_pos hfeed]
        refine List.Pairwise.cons ?_ hothers
        intro start hstart
        rw [UInt32.lt_iff_toNat_lt, Word.toNat_ofCount (by omega)]
        exact lt_of_mem_startsFrom (by omega) hstart
      · rw [if_neg hfeed]
        exact hothers

/-- The entries at or before a position count the line feeds before it. -/
theorem countP_startsFrom
    {offset : Nat} {text : List Char}
    (position : Word)
    (hfits : offset + text.length < UInt32.size) :
    (startsFrom offset text).countP (· ≤ position) =
      (text.take (position.toNat - offset)).count '\n' := by
  induction text generalizing offset with
  | nil => simp [startsFrom]
  | cons c others ih =>
      rw [List.length_cons] at hfits
      have hothers : (startsFrom (offset + 1) others).countP (· ≤ position) =
          (others.take (position.toNat - (offset + 1))).count '\n' :=
        ih (by omega)
      by_cases hbefore : offset < position.toNat
      · -- the character is before the position
        have htake : position.toNat - offset = position.toNat - (offset + 1) + 1 := by omega
        rw [htake, List.take_succ_cons, List.count_cons, ← hothers, startsFrom]
        by_cases hfeed : c = '\n'
        · have hle : Word.ofCount (offset + 1) ≤ position := by
            rw [UInt32.le_iff_toNat_le, Word.toNat_ofCount (by omega)]
            omega
          simp [hfeed, hle]
        · simp [hfeed]
      · -- neither the character nor any later one is
        have htake : position.toNat - offset = 0 := by omega
        rw [htake, List.take_zero, List.count_nil, List.countP_eq_zero]
        intro start hstart
        have hlt := lt_of_mem_startsFrom (by rwa [List.length_cons]) hstart
        simp only [decide_eq_true_eq, UInt32.le_iff_toNat_le]
        omega

/-! ## The line of a position -/

theorem ofChars_pairwise
    {text : List Char}
    (hfits : FitsWords text) :
    (ofChars text).starts.toList.Pairwise (· < ·) := by
  rw [FitsWords] at hfits
  rw [ofChars, startsAfterFeeds_eq]
  refine List.Pairwise.cons ?_ (startsFrom_pairwise (by omega))
  intro start hstart
  rw [UInt32.lt_iff_toNat_lt, UInt32.toNat_zero]
  exact lt_of_mem_startsFrom (by omega) hstart

/-- The line of a position counts the line feeds before it. -/
theorem lineOf_eq_ofCount
    {text : List Char}
    (position : Word)
    (hfits : FitsWords text) :
    (ofChars text).lineOf position =
      Word.ofCount (1 + (text.take position.toNat).count '\n') := by
  have hlength : 0 + text.length < UInt32.size := by
    rw [FitsWords] at hfits
    omega
  have hzero : (0 : Word) ≤ position := UInt32.zero_le
  rw [lineOf, bisect_eq_countP (ofChars_pairwise hfits), ofChars, startsAfterFeeds_eq,
    List.toList_toArray, List.countP_cons, countP_startsFrom position hlength, Nat.sub_zero,
    if_pos (decide_eq_true hzero), Nat.add_comm]

end LineIndex
end LoxLexer
