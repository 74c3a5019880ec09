import LoxLexer.Proofs.Source.Spot

/-!
# Coordinates

A position is seen at a spot of a text: at its own, or at the end of the text if
it lies beyond that.  The index of the text gives it the line of the spot, and
as its column one more than its distance from the start of that line.

A reader can count this out again.  The line is told by the line feeds before
the position, the column is one more than the characters since the last of them,
and so the position is known from its place, and places are in the order of
their positions (`isCoordinateSystem_ofChars`).  One position of a text without
line feeds has no place: the largest word, whose column would be no word.
-/

namespace LoxLexer

/-! ## Where lines start -/

/-- An offset is where a line of a text starts: zero for the first line, and for
any other one past the line feed before it. -/
def StartsLine (text : List Char) (line start : Nat) : Prop :=
  (line = 1 ∧ start = 0) ∨
    ∃ feed, text[feed]? = some '\n' ∧ start = feed + 1 ∧
      line = 1 + (text.take start).count '\n'

theorem count_take_feed
    {text : List Char} {feed : Nat}
    (hfeed : text[feed]? = some '\n') :
    (text.take (feed + 1)).count '\n' = (text.take feed).count '\n' + 1 := by
  rw [List.take_add_one, hfeed, Option.toList_some, List.count_append, List.count_singleton_self]

/-- After a line feed more are counted than up to it. -/
theorem count_take_lt_of_feed
    {text : List Char} {feed stop : Nat}
    (hfeed : text[feed]? = some '\n')
    (hlt : feed < stop) :
    (text.take feed).count '\n' < (text.take stop).count '\n' := by
  have hinitial : text.take (feed + 1) <+: text.take stop := List.take_prefix_take_left hlt
  have hle := hinitial.sublist.count_le '\n'
  rw [count_take_feed hfeed] at hle
  exact hle

/-- No line has two starts. -/
theorem StartsLine.unique
    {text : List Char} {line start other : Nat}
    (hstart : StartsLine text line start)
    (hother : StartsLine text line other) :
    start = other := by
  rcases hstart with ⟨hfirst, rfl⟩ | ⟨feed, hfeed, rfl, hline⟩
  · rcases hother with ⟨-, rfl⟩ | ⟨feed, hfeed, rfl, hline⟩
    · rfl
    · rw [count_take_feed hfeed] at hline
      omega
  · rcases hother with ⟨hfirst, rfl⟩ | ⟨last, hlast, rfl, hsame⟩
    · rw [count_take_feed hfeed] at hline
      omega
    · rw [count_take_feed hfeed] at hline
      rw [count_take_feed hlast] at hsame
      rcases Nat.lt_trichotomy feed last with hlt | rfl | hlt
      · have hcount := count_take_lt_of_feed hfeed hlt
        omega
      · rfl
      · have hcount := count_take_lt_of_feed hlast hlt
        omega

/-- The line after whole lines starts where they end. -/
theorem WholeLines.startsLine
    {text front : List Char}
    (hfront : WholeLines front)
    (hinitial : front <+: text) :
    StartsLine text (1 + front.count '\n') front.length := by
  obtain ⟨rest, rfl⟩ := hinitial
  rcases hfront.eq_nil_or_exists_concat with rfl | ⟨body, rfl⟩
  · exact Or.inl ⟨rfl, rfl⟩
  · refine Or.inr ⟨body.length, ?_, List.length_append, ?_⟩
    · rw [List.append_assoc, List.getElem?_append_right (Nat.le_refl _), Nat.sub_self]
      rfl
    · rw [List.take_left]

/-! ## The spot of a position -/

/-- A position of a text is seen at a spot: the text up to the position, or all of
it if the position lies beyond its end, is the text up to the spot. -/
structure SeenAt (text : List Char) (position : Word) (spot : Spot) : Prop where
  source_eq : spot.source = text
  take_eq : text.take position.toNat = spot.front ++ spot.head

theorem exists_seenAt (text : List Char) (position : Word) :
    ∃ spot, SeenAt text position spot := by
  obtain ⟨spot, hsource, hoffset⟩ :=
    exists_spot (text.take position.toNat) (text.drop position.toNat)
  rw [List.take_append_drop] at hsource
  have htake := spot.take_source
  have hinitial := List.prefix_iff_eq_take.mp (List.take_prefix position.toNat text)
  rw [hsource, hoffset, ← hinitial] at htake
  exact ⟨spot, hsource, htake⟩

namespace SeenAt

variable {text : List Char} {position : Word} {spot : Spot}

theorem front_initial (hseen : SeenAt text position spot) : spot.front <+: text := by
  rw [← hseen.source_eq, Spot.source]
  exact List.prefix_append _ _

theorem line_eq (hseen : SeenAt text position spot) :
    spot.line = 1 + (text.take position.toNat).count '\n' := by
  rw [hseen.take_eq, List.count_append, List.count_eq_zero.mpr spot.head_noFeed, Nat.add_zero,
    Spot.line]

theorem length_front_le (hseen : SeenAt text position spot) :
    spot.front.length ≤ position.toNat := by
  have hlength := congrArg List.length hseen.take_eq
  rw [List.length_take, List.length_append] at hlength
  omega

theorem startsLine (hseen : SeenAt text position spot) :
    StartsLine text spot.line spot.front.length :=
  spot.front_wholeLines.startsLine hseen.front_initial

theorem toNat_line
    (hseen : SeenAt text position spot)
    (hfits : FitsWords text) :
    (Word.ofCount spot.line).toNat = spot.line :=
  (hfits.mono hseen.front_initial).toNat_line

/-- The index finds the line of the spot. -/
theorem toNat_lineOf
    (hseen : SeenAt text position spot)
    (hfits : FitsWords text) :
    ((LineIndex.ofChars text).lineOf position).toNat = spot.line := by
  rw [LineIndex.lineOf_eq_ofCount position hfits, ← hseen.line_eq, hseen.toNat_line hfits]

/-- A column is no word only for the largest word, in a text of one line. -/
theorem column_overflows_iff
    (hseen : SeenAt text position spot)
    (hfits : FitsWords text) :
    UInt32.size ≤ position.toNat - spot.front.length + 1 ↔
      position.toNat = 4294967295 ∧ '\n' ∉ text := by
  have hsize : UInt32.size = 4294967296 := rfl
  have hbound : position.toNat < UInt32.size := position.toNat_lt
  rw [FitsWords] at hfits
  constructor
  · intro hoverflows
    have hempty : spot.front = [] := List.eq_nil_of_length_eq_zero (by omega)
    have htext : text = spot.head := by
      rw [← List.take_of_length_le (l := text) (i := position.toNat) (by omega), hseen.take_eq,
        hempty, List.nil_append]
    rw [htext]
    exact ⟨by omega, spot.head_noFeed⟩
  · rintro ⟨hlargest, hfeed⟩
    have hempty : spot.front = [] :=
      spot.front_wholeLines.eq_nil_of_noFeed fun hmem =>
        hfeed (hseen.front_initial.subset hmem)
    rw [hempty, List.length_nil]
    omega

theorem placeOf_eq_error_iff
    {fault : Fault}
    (hseen : SeenAt text position spot)
    (hfits : FitsWords text) :
    (LineIndex.ofChars text).placeOf position = .error fault ↔
      fault = .addOverflow ∧ position.toNat = 4294967295 ∧ '\n' ∉ text := by
  have hbound : position.toNat < UInt32.size := position.toNat_lt
  have hdistance : (Word.ofCount (position.toNat - spot.front.length)).toNat =
      position.toNat - spot.front.length := Word.toNat_ofCount (by omega)
  have hsum : Word.checkedAdd (Word.ofCount (position.toNat - spot.front.length)) 1 =
        .error fault ↔
      fault = .addOverflow ∧ position.toNat = 4294967295 ∧ '\n' ∉ text := by
    rw [Word.checkedAdd, Word.advance_eq_error_iff, hdistance, UInt32.toNat_one,
      hseen.column_overflows_iff hfits]
    exact And.comm
  rw [LineIndex.placeOf_eq hfits hseen.take_eq spot.front_wholeLines spot.head_noFeed, ← hsum]
  cases Word.checkedAdd (Word.ofCount (position.toNat - spot.front.length)) 1 with
  | error other => simp [Except.map]
  | ok column => simp [Except.map]

/-- Any other position has a place: its line is that of the spot, and its column
counts from the start of the line. -/
theorem placeOf_eq_ok
    (hseen : SeenAt text position spot)
    (hfits : FitsWords text)
    (hplaced : ¬ (position.toNat = 4294967295 ∧ '\n' ∉ text)) :
    (LineIndex.ofChars text).placeOf position =
      .ok ⟨Word.ofCount spot.line, Word.ofCount (position.toNat - spot.front.length + 1)⟩ := by
  rw [← hseen.column_overflows_iff hfits, Nat.not_le] at hplaced
  exact LineIndex.placeOf_eq_ok hfits hseen.take_eq spot.front_wholeLines spot.head_noFeed hplaced

end SeenAt

/-! ## Places -/

/-- A place comes before another one as a text is read: on an earlier line, or
farther left on the same line. -/
def Place.Before (place other : Place) : Prop :=
  place.line < other.line ∨ place.line = other.line ∧ place.column < other.column

/-- A place tells a position: its line counts the line feeds before the position,
and its column counts from the start of that line, from one. -/
structure Place.Tells (text : List Char) (position : Word) (place : Place) : Prop where
  line : place.line.toNat = 1 + (text.take position.toNat).count '\n'
  column : 1 ≤ place.column.toNat
  position : ∃ start, StartsLine text place.line.toNat start ∧
    position.toNat = start + place.column.toNat - 1

namespace Place.Tells

variable {text : List Char} {position other : Word} {place later : Place}

/-- The later position has the later place. -/
theorem before
    (hplace : place.Tells text position)
    (hlater : later.Tells text other)
    (hlt : position < other) :
    place.Before later := by
  rw [UInt32.lt_iff_toNat_lt] at hlt
  have hinitial : text.take position.toNat <+: text.take other.toNat :=
    List.take_prefix_take_left (Nat.le_of_lt hlt)
  have hcount := hinitial.sublist.count_le '\n'
  have hline := hplace.line
  have hlaterLine := hlater.line
  by_cases hsame : place.line = later.line
  · -- both columns count from the one start of the line
    obtain ⟨start, hstart, hposition⟩ := hplace.position
    obtain ⟨start', hstart', hother⟩ := hlater.position
    rw [← hsame] at hstart'
    obtain rfl := hstart.unique hstart'
    have hcolumn := hplace.column
    refine Or.inr ⟨hsame, ?_⟩
    rw [UInt32.lt_iff_toNat_lt]
    omega
  · refine Or.inl ?_
    rw [← UInt32.toNat_inj] at hsame
    rw [UInt32.lt_iff_toNat_lt]
    omega

/-- A place tells one position only. -/
theorem unique
    (hplace : place.Tells text position)
    (hother : place.Tells text other) :
    position = other := by
  obtain ⟨start, hstart, hposition⟩ := hplace.position
  obtain ⟨start', hstart', hposition'⟩ := hother.position
  obtain rfl := hstart.unique hstart'
  exact UInt32.toNat_inj.mp (hposition.trans hposition'.symm)

end Place.Tells

theorem SeenAt.tells
    {text : List Char} {position : Word} {spot : Spot}
    (hseen : SeenAt text position spot)
    (hfits : FitsWords text)
    (hplaced : ¬ (position.toNat = 4294967295 ∧ '\n' ∉ text)) :
    Place.Tells text position
      ⟨Word.ofCount spot.line, Word.ofCount (position.toNat - spot.front.length + 1)⟩ := by
  have hreached := hseen.length_front_le
  have hcolumn : (Word.ofCount (position.toNat - spot.front.length + 1)).toNat =
      position.toNat - spot.front.length + 1 := by
    rw [← hseen.column_overflows_iff hfits, Nat.not_le] at hplaced
    exact Word.toNat_ofCount hplaced
  constructor
  · rw [hseen.toNat_line hfits, hseen.line_eq]
  · rw [hcolumn]
    omega
  · refine ⟨spot.front.length, ?_, ?_⟩
    · rw [hseen.toNat_line hfits]
      exact hseen.startsLine
    · rw [hcolumn]
      omega

/-! ## The index as a coordinate system -/

namespace LineIndex

variable {text : List Char} {position : Word} {place : Place}

theorem length_startsFrom (offset : Nat) (text : List Char) :
    (startsFrom offset text).length = text.count '\n' := by
  induction text generalizing offset with
  | nil => rfl
  | cons c others ih =>
      rw [startsFrom]
      by_cases hfeed : c = '\n'
      · rw [if_pos hfeed, List.length_cons, ih, hfeed, List.count_cons_self]
      · rw [if_neg hfeed, ih, List.count_cons_of_ne hfeed]

/-- A text has one line more than line feeds. -/
theorem size_starts (text : List Char) :
    (ofChars text).starts.size = 1 + text.count '\n' := by
  rw [ofChars, startsAfterFeeds_eq, List.size_toArray, List.length_cons, length_startsFrom,
    Nat.add_comm]

theorem line_eq_of_placeOf_eq_ok
    {index : LineIndex}
    (hplace : index.placeOf position = .ok place) :
    place.line = index.lineOf position := by
  -- each check that fails leaves no place
  simp only [placeOf, bind, Except.bind] at hplace
  split at hplace
  · cases hplace
  · split at hplace
    · cases hplace
    · split at hplace
      · cases hplace
      · split at hplace
        · cases hplace
        · cases hplace
          rfl

theorem tells_of_placeOf_eq_ok
    (hfits : FitsWords text)
    (hplace : (ofChars text).placeOf position = .ok place) :
    place.Tells text position := by
  obtain ⟨spot, hseen⟩ := exists_seenAt text position
  have hplaced : ¬ (position.toNat = 4294967295 ∧ '\n' ∉ text) := by
    intro hfaulty
    rw [(hseen.placeOf_eq_error_iff hfits).mpr ⟨rfl, hfaulty⟩] at hplace
    cases hplace
  rw [hseen.placeOf_eq_ok hfits hplaced] at hplace
  rw [← Except.ok.inj hplace]
  exact hseen.tells hfits hplaced

/-- An index that gives exact coordinates in a text: lines that count line feeds,
places that tell their positions, in the order of these, and no fault but for a
column that is no word. -/
structure IsCoordinateSystem (text : List Char) (index : LineIndex) : Prop where
  line : ∀ position, (index.lineOf position).toNat =
    1 + (text.take (min position.toNat text.length)).count '\n'
  last : ∀ position, text.length ≤ position.toNat →
    (index.lineOf position).toNat = index.starts.size
  fault : ∀ position fault, index.placeOf position = .error fault ↔
    fault = .addOverflow ∧ position.toNat = 4294967295 ∧ '\n' ∉ text
  place : ∀ position, ¬ (position.toNat = 4294967295 ∧ '\n' ∉ text) →
    ∃ place, index.placeOf position = .ok place ∧ place.line = index.lineOf position ∧
      place.Tells text position
  ordered : ∀ position other place later, index.placeOf position = .ok place →
    index.placeOf other = .ok later → position < other → place.Before later
  distinct : ∀ position other place, index.placeOf position = .ok place →
    index.placeOf other = .ok place → position = other

/-- The index of a text gives exact coordinates in it. -/
theorem isCoordinateSystem_ofChars
    {text : String}
    (hlength : text.length ≤ 4294967294) :
    (ofChars text.toList).IsCoordinateSystem text.toList := by
  have hfits := fitsWords_of_length_le hlength
  constructor
  · intro position
    obtain ⟨spot, hseen⟩ := exists_seenAt text.toList position
    rw [hseen.toNat_lineOf hfits, hseen.line_eq, ← List.take_eq_take_min]
  · intro position hbeyond
    obtain ⟨spot, hseen⟩ := exists_seenAt text.toList position
    rw [hseen.toNat_lineOf hfits, hseen.line_eq, List.take_of_length_le hbeyond, size_starts]
  · intro position fault
    obtain ⟨spot, hseen⟩ := exists_seenAt text.toList position
    exact hseen.placeOf_eq_error_iff hfits
  · intro position hplaced
    obtain ⟨spot, hseen⟩ := exists_seenAt text.toList position
    have hplace := hseen.placeOf_eq_ok hfits hplaced
    exact ⟨_, hplace, line_eq_of_placeOf_eq_ok hplace, hseen.tells hfits hplaced⟩
  · intro position other place later hplace hlater hlt
    exact (tells_of_placeOf_eq_ok hfits hplace).before (tells_of_placeOf_eq_ok hfits hlater) hlt
  · intro position other place hplace hother
    exact (tells_of_placeOf_eq_ok hfits hplace).unique (tells_of_placeOf_eq_ok hfits hother)

/-- An empty line, a line of three characters of which one is a carriage return,
and nothing after the last line feed. -/
theorem isCoordinateSystem_ofChars_of_emptyLines :
    "\né\r\n".length ≤ 4294967294 ∧
      (ofChars "\né\r\n".toList).IsCoordinateSystem "\né\r\n".toList :=
  ⟨by decide, isCoordinateSystem_ofChars (by decide)⟩

end LineIndex
end LoxLexer
