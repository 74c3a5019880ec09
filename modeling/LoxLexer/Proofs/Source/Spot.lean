import LoxLexer.Proofs.Source.LineCount
import LoxLexer.Source.Lines

/-!
# Spots

A spot is a place in a source, told by the text around it: the complete lines
before it, its own line in two parts, and what comes after that line.  Every
offset of a source is a spot (`exists_spot`).

The two ways of cutting a source into lines are held to this: the index of a
source finds the place of a spot (`placeOf_eq_ok`), and the lines of a source
hold the spot's own line at the spot's row (`getElem?_ofChars_source`).
-/

namespace LoxLexer

/-! ## Whole lines -/

namespace Lines

theorem ofChars_nil : ofChars [] = [] := split_nil '\n' '\r'

theorem ofChars_append_feed
    {line : List Char}
    (hline : '\n' ∉ line)
    (rest : List Char) :
    ofChars (line ++ '\n' :: rest) = withoutReturn '\r' line :: ofChars rest :=
  split_append_feed hline rest

theorem ofChars_of_not_mem
    {line : List Char}
    (hne : line ≠ [])
    (hline : '\n' ∉ line) :
    ofChars line = [line] :=
  split_of_not_mem hne hline

end Lines

/-- A text of lines each of which ends with a line feed. -/
inductive WholeLines : List Char → Prop
  | nil : WholeLines []
  | cons {line rest : List Char} :
      '\n' ∉ line → WholeLines rest → WholeLines (line ++ '\n' :: rest)

/-- A text is whole lines and the beginning of another one. -/
theorem exists_wholeLines_append
    (text : List Char) :
    ∃ front head, text = front ++ head ∧ WholeLines front ∧ '\n' ∉ head := by
  induction text with
  | nil => exact ⟨[], [], rfl, .nil, List.not_mem_nil⟩
  | cons c others ih =>
      obtain ⟨front, head, rfl, hfront, hhead⟩ := ih
      by_cases hfeed : c = '\n'
      · subst hfeed
        exact ⟨'\n' :: front, head, rfl, .cons List.not_mem_nil hfront, hhead⟩
      · cases hfront with
        | nil =>
            refine ⟨[], c :: head, rfl, .nil, ?_⟩
            simpa using ⟨Ne.symm hfeed, hhead⟩
        | @cons line rest hline hrest =>
            refine ⟨(c :: line) ++ '\n' :: rest, head, rfl, .cons ?_ hrest, hhead⟩
            simpa using ⟨Ne.symm hfeed, hline⟩

namespace WholeLines

variable {front : List Char}

/-- Whole lines are cut off from whatever follows them. -/
theorem ofChars_append
    (hfront : WholeLines front)
    (text : List Char) :
    Lines.ofChars (front ++ text) = Lines.ofChars front ++ Lines.ofChars text := by
  induction hfront with
  | nil => rw [Lines.ofChars_nil, List.nil_append, List.nil_append]
  | cons hline _ ih =>
      rw [List.append_assoc, List.cons_append, Lines.ofChars_append_feed hline, ih,
        Lines.ofChars_append_feed hline, List.cons_append]

theorem length_ofChars
    (hfront : WholeLines front) :
    (Lines.ofChars front).length = front.count '\n' := by
  induction hfront with
  | nil => rw [Lines.ofChars_nil, List.length_nil, List.count_nil]
  | cons hline _ ih =>
      rw [Lines.ofChars_append_feed hline, List.length_cons, ih, List.count_append,
        List.count_eq_zero.mpr hline, List.count_cons_self, Nat.zero_add]

theorem eq_nil_of_noFeed
    (hfront : WholeLines front)
    (hfeed : '\n' ∉ front) :
    front = [] := by
  cases hfront with
  | nil => rfl
  | cons _ _ => exact absurd (List.mem_append_right _ List.mem_cons_self) hfeed

/-- Whole lines that are not empty end with a line feed. -/
theorem eq_nil_or_exists_concat
    (hfront : WholeLines front) :
    front = [] ∨ ∃ body, front = body ++ ['\n'] := by
  induction hfront with
  | nil => exact Or.inl rfl
  | @cons line rest _ _ ih =>
      rcases ih with rfl | ⟨body, rfl⟩
      · exact Or.inr ⟨line, rfl⟩
      · exact Or.inr ⟨line ++ '\n' :: body, by rw [List.append_assoc, List.cons_append]⟩

/-- The line after whole lines starts where they end. -/
theorem getElem?_startsFrom
    (hfront : WholeLines front)
    (offset : Nat) (text : List Char) :
    (Word.ofCount offset :: LineIndex.startsFrom offset (front ++ text))[front.count '\n']? =
      some (Word.ofCount (offset + front.length)) := by
  induction hfront generalizing offset with
  | nil => rfl
  | @cons line rest hline _ ih =>
      have hcount : (line ++ '\n' :: rest).count '\n' = rest.count '\n' + 1 := by
        rw [List.count_append, List.count_eq_zero.mpr hline, List.count_cons_self, Nat.zero_add]
      have hlength : offset + (line ++ '\n' :: rest).length =
          offset + line.length + 1 + rest.length := by
        rw [List.length_append, List.length_cons]
        omega
      rw [hcount, hlength, List.getElem?_cons_succ, List.append_assoc, List.cons_append,
        LineIndex.startsFrom_append hline, LineIndex.startsFrom, if_pos rfl]
      exact ih _

end WholeLines

/-! ## Spots -/

/-- What stands after a line: nothing, or its line feed and more. -/
def lineEnding : Option (List Char) → List Char
  | none => []
  | some after => '\n' :: after

/-- A place in a source, within a line. -/
structure Spot where
  /-- The lines before that of the spot. -/
  front : List Char
  /-- The line up to the spot. -/
  head : List Char
  /-- The line from the spot on. -/
  tail : List Char
  /-- What follows the line feed, if one ends the line. -/
  after : Option (List Char)
  front_wholeLines : WholeLines front
  line_noFeed : '\n' ∉ head ++ tail

namespace Spot

def source (spot : Spot) : List Char :=
  spot.front ++ ((spot.head ++ spot.tail) ++ lineEnding spot.after)

def offset (spot : Spot) : Nat := (spot.front ++ spot.head).length

/-- The number of the line, from one. -/
def line (spot : Spot) : Nat := 1 + spot.front.count '\n'

/-- The line, without a carriage return directly before its line feed. -/
def text (spot : Spot) : List Char :=
  match spot.after with
  | none => spot.head ++ spot.tail
  | some _ =>
    if (spot.head ++ spot.tail).getLast? = some '\r' then (spot.head ++ spot.tail).dropLast
    else spot.head ++ spot.tail

theorem head_noFeed (spot : Spot) : '\n' ∉ spot.head :=
  fun hmem => spot.line_noFeed (List.mem_append_left _ hmem)

theorem source_eq (spot : Spot) :
    spot.source = (spot.front ++ spot.head) ++ (spot.tail ++ lineEnding spot.after) := by
  simp only [source, List.append_assoc]

theorem take_source (spot : Spot) :
    spot.source.take spot.offset = spot.front ++ spot.head := by
  rw [source_eq, offset, List.take_left]

theorem drop_source (spot : Spot) :
    spot.source.drop spot.offset = spot.tail ++ lineEnding spot.after := by
  rw [source_eq, offset, List.drop_left]

theorem length_text_le (spot : Spot) :
    spot.text.length ≤ spot.source.length := by
  have hline : spot.text.length ≤ (spot.head ++ spot.tail).length := by
    unfold text
    split
    · exact Nat.le_refl _
    · split
      · rw [List.length_dropLast]
        exact Nat.sub_le _ _
      · exact Nat.le_refl _
  rw [source, List.length_append, List.length_append]
  omega

/-- A spot at a character other than a line feed has it in its line. -/
theorem exists_tail_eq_cons
    {spot : Spot} {c : Char} {others : List Char}
    (hdrop : spot.source.drop spot.offset = c :: others)
    (hc : c ≠ '\n') :
    ∃ tail, spot.tail = c :: tail := by
  rw [drop_source] at hdrop
  cases htail : spot.tail with
  | nil =>
      rw [htail, List.nil_append] at hdrop
      cases hafter : spot.after with
      | none =>
          rw [hafter] at hdrop
          cases hdrop
      | some after =>
          rw [hafter] at hdrop
          exact absurd (List.cons.inj hdrop).1.symm hc
  | cons d tail =>
      rw [htail] at hdrop
      obtain ⟨rfl, -⟩ := List.cons.inj hdrop
      exact ⟨tail, rfl⟩

/-- Such a character, if it is no carriage return either, is kept in the text of
the line. -/
theorem exists_text_eq
    {spot : Spot} {c : Char} {tail : List Char}
    (htail : spot.tail = c :: tail)
    (hc : c ≠ '\r') :
    ∃ others, spot.text = spot.head ++ c :: others ∧ others.length ≤ tail.length := by
  unfold text
  rw [htail]
  cases spot.after with
  | none => exact ⟨tail, rfl, Nat.le_refl _⟩
  | some after =>
      dsimp only
      split
      · rename_i hreturn
        cases tail with
        | nil =>
            -- the character would be the return itself
            rw [List.getLast?_concat] at hreturn
            exact absurd (Option.some.inj hreturn) hc
        | cons d others =>
            refine ⟨(d :: others).dropLast, ?_, ?_⟩
            · rw [List.dropLast_append_of_ne_nil (List.cons_ne_nil _ _),
                List.dropLast_cons_of_ne_nil (List.cons_ne_nil _ _)]
            · rw [List.length_dropLast]
              exact Nat.sub_le _ _
      · exact ⟨tail, rfl, Nat.le_refl _⟩

end Spot

/-- A text is a line and what stands after it. -/
theorem exists_append_lineEnding
    (text : List Char) :
    ∃ line after, text = line ++ lineEnding after ∧ '\n' ∉ line := by
  induction text with
  | nil => exact ⟨[], none, rfl, List.not_mem_nil⟩
  | cons c others ih =>
      obtain ⟨line, after, rfl, hline⟩ := ih
      by_cases hfeed : c = '\n'
      · subst hfeed
        exact ⟨[], some _, rfl, List.not_mem_nil⟩
      · refine ⟨c :: line, after, rfl, ?_⟩
        simpa using ⟨Ne.symm hfeed, hline⟩

/-- Every offset of a source is a spot. -/
theorem exists_spot
    (before rest : List Char) :
    ∃ spot : Spot, spot.source = before ++ rest ∧ spot.offset = before.length := by
  obtain ⟨front, head, rfl, hfront, hhead⟩ := exists_wholeLines_append before
  obtain ⟨tail, after, rfl, htail⟩ := exists_append_lineEnding rest
  have hline : '\n' ∉ head ++ tail := by
    rw [List.mem_append, not_or]
    exact ⟨hhead, htail⟩
  exact ⟨⟨front, head, tail, after, hfront, hline⟩, Spot.source_eq _, rfl⟩

/-! ## The line of a spot -/

/-- The lines of a source hold the line of a spot at its row, unless the source
ends before that line has a character. -/
theorem getElem?_ofChars_source
    {spot : Spot}
    (hheld : spot.after = none → spot.head ++ spot.tail ≠ []) :
    (Lines.ofChars spot.source)[spot.front.count '\n']? = some spot.text := by
  have hfront := spot.front_wholeLines
  rw [Spot.source, hfront.ofChars_append, ← hfront.length_ofChars,
    List.getElem?_append_right (Nat.le_refl _), Nat.sub_self, Spot.text]
  cases hafter : spot.after with
  | none =>
      rw [lineEnding, List.append_nil, Lines.ofChars_of_not_mem (hheld hafter) spot.line_noFeed]
      rfl
  | some after =>
      rw [lineEnding, Lines.ofChars_append_feed spot.line_noFeed, Lines.withoutReturn]
      rfl

/-! ## The place of a spot -/

namespace LineIndex

/-- The index holds the start of the line after whole lines at its row. -/
theorem getElem?_starts
    {front : List Char}
    (hfront : WholeLines front)
    (text : List Char) :
    (ofChars (front ++ text)).starts[front.count '\n']? = some (Word.ofCount front.length) := by
  have hentry := hfront.getElem?_startsFrom 0 text
  rw [Nat.zero_add] at hentry
  rw [ofChars, startsAfterFeeds_eq, List.getElem?_toArray]
  exact hentry

/-- The place of a position is the line that it has reached and its distance from
the start of that line, unless one more than the distance is no word. -/
theorem placeOf_eq
    {source front head : List Char} {position : Word}
    (hfits : FitsWords source)
    (htake : source.take position.toNat = front ++ head)
    (hfront : WholeLines front)
    (hhead : '\n' ∉ head) :
    (ofChars source).placeOf position =
      (Word.checkedAdd (Word.ofCount (position.toNat - front.length)) 1).map
        fun column => ⟨Word.ofCount (1 + front.count '\n'), column⟩ := by
  have hinitial : front <+: source := by
    have hbefore := List.take_prefix position.toNat source
    rw [htake] at hbefore
    exact (List.prefix_append front head).trans hbefore
  have hbefore := hfits.mono hinitial
  have hline : (ofChars source).lineOf position = Word.ofCount (1 + front.count '\n') := by
    rw [lineOf_eq_ofCount position hfits, htake, List.count_append,
      List.count_eq_zero.mpr hhead, Nat.add_zero]
  have hrow : Word.checkedSub (Word.ofCount (1 + front.count '\n')) 1 =
      .ok (Word.ofCount (front.count '\n')) := by
    rw [Word.checkedSub_eq_ok]
    · rw [hbefore.toNat_line, UInt32.toNat_one, Nat.add_sub_cancel_left]
    · rw [hbefore.toNat_line, UInt32.toNat_one]
      omega
  have hcount : (Word.ofCount (front.count '\n')).toNat = front.count '\n' := by
    have hle : front.count '\n' ≤ front.length := List.count_le_length
    rw [FitsWords] at hbefore
    exact Word.toNat_ofCount (by omega)
  have hstart : (ofChars source).starts[front.count '\n']? =
      some (Word.ofCount front.length) := by
    obtain ⟨text, rfl⟩ := hinitial
    exact getElem?_starts hfront text
  have hreached : front.length ≤ position.toNat := by
    have hlength := congrArg List.length htake
    rw [List.length_take, List.length_append] at hlength
    omega
  have hdistance : Word.checkedSub position (Word.ofCount front.length) =
      .ok (Word.ofCount (position.toNat - front.length)) := by
    rw [Word.checkedSub_eq_ok]
    · rw [hbefore.toNat_length]
    · rwa [hbefore.toNat_length]
  simp only [placeOf, hline, hrow, hcount, hstart, hdistance, bind, Except.bind]
  cases Word.checkedAdd (Word.ofCount (position.toNat - front.length)) 1 with
  | error fault => rfl
  | ok column => rfl

theorem placeOf_eq_ok
    {source front head : List Char} {position : Word}
    (hfits : FitsWords source)
    (htake : source.take position.toNat = front ++ head)
    (hfront : WholeLines front)
    (hhead : '\n' ∉ head)
    (hcolumn : position.toNat - front.length + 1 < UInt32.size) :
    (ofChars source).placeOf position =
      .ok ⟨Word.ofCount (1 + front.count '\n'),
        Word.ofCount (position.toNat - front.length + 1)⟩ := by
  have hdistance : (Word.ofCount (position.toNat - front.length)).toNat =
      position.toNat - front.length := Word.toNat_ofCount (by omega)
  have hsum : Word.checkedAdd (Word.ofCount (position.toNat - front.length)) 1 =
      .ok (Word.ofCount (position.toNat - front.length + 1)) := by
    rw [Word.checkedAdd, UInt32.toNat_one, Word.advance_eq_ok]
    · rw [hdistance]
    · rwa [hdistance]
  rw [placeOf_eq hfits htake hfront hhead, hsum]
  rfl

end LineIndex

end LoxLexer
