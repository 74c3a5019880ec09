import LoxLexer.Proofs.Source.Coordinates
import LoxLexer.Report.Excerpt
import Mathlib.Data.List.Basic

/-!
# Looking up a line

A page holds one source cut in two ways: as the offsets at which its lines start,
and as the lines themselves.  An excerpt finds the number of a line in the first
and takes its text from the second.

The two cuts agree (`exists_cutsAlike_ofSource`): the text is what stands in the
source from the start of the line on.  Only after a line feed at the very end, or
in an empty source, the first cut has one line more, and that line is empty.
-/

namespace LoxLexer

/-! ## A line of a text -/

/-- The line of a text from an offset on: up to the next line feed or the end of
the text, without a carriage return directly before that line feed. -/
def lineFrom (text : List Char) (start : Nat) : List Char :=
  let line := (text.drop start).takeWhile (· ≠ '\n')
  if text[start + line.length]? = some '\n' ∧ line.getLast? = some '\r' then line.dropLast
  else line

namespace Spot

variable {spot : Spot}

theorem drop_front (spot : Spot) :
    spot.source.drop spot.front.length = (spot.head ++ spot.tail) ++ lineEnding spot.after := by
  rw [source, List.drop_left]

/-- The text of a spot is the line from the start of that line on. -/
theorem text_eq_lineFrom (spot : Spot) :
    spot.text = lineFrom spot.source spot.front.length := by
  have hall : ∀ c ∈ spot.head ++ spot.tail, decide (c ≠ '\n') = true := by
    intro c hc
    rw [decide_eq_true_eq]
    rintro rfl
    exact spot.line_noFeed hc
  have hline : (spot.source.drop spot.front.length).takeWhile (· ≠ '\n') =
      spot.head ++ spot.tail := by
    rw [drop_front, List.takeWhile_append_of_pos hall]
    cases spot.after with
    | none => rw [lineEnding, List.takeWhile_nil, List.append_nil]
    | some after => simp [lineEnding]
  have hnext : spot.source[spot.front.length + (spot.head ++ spot.tail).length]? =
      (lineEnding spot.after).head? := by
    rw [← List.getElem?_drop, drop_front, List.getElem?_append_right (Nat.le_refl _), Nat.sub_self,
      List.head?_eq_getElem?]
  simp only [lineFrom, hline, hnext, text]
  cases spot.after with
  | none => simp [lineEnding]
  | some after => simp [lineEnding]

/-- The line of a spot is the last one if nothing ends it. -/
theorem line_eq_iff_after_eq_none :
    spot.line = 1 + spot.source.count '\n' ↔ spot.after = none := by
  have hline := List.count_eq_zero.mpr spot.line_noFeed
  rw [line, source, List.count_append, List.count_append, hline]
  cases spot.after with
  | none => simp [lineEnding]
  | some after => simp [lineEnding]

/-- A last line has no character exactly if the source is empty or a line feed is
its last character. -/
theorem line_eq_nil_iff
    (hlast : spot.after = none) :
    spot.head ++ spot.tail = [] ↔ spot.source = [] ∨ spot.source.getLast? = some '\n' := by
  rw [source, hlast, lineEnding, List.append_nil]
  constructor
  · intro hempty
    rw [hempty, List.append_nil]
    rcases spot.front_wholeLines.eq_nil_or_exists_concat with hnil | ⟨body, hbody⟩
    · exact Or.inl hnil
    · rw [hbody]
      exact Or.inr List.getLast?_concat
  · rintro (hempty | hfeed)
    · exact (List.append_eq_nil_iff.mp hempty).2
    · by_contra hne
      rw [List.getLast?_append_of_ne_nil _ hne] at hfeed
      exact spot.line_noFeed (List.mem_of_getLast? hfeed)

end Spot

/-! ## The line of a position -/

/-- The line that a page has for a position: that with the number which its index
finds. -/
def Page.lineAt? (page : Page) (position : Word) : Option (List Char) :=
  page.lines[(page.index.lineOf position).toNat - 1]?

namespace SeenAt

variable {text : List Char} {position : Word} {spot : Spot}

theorem lineAt?_eq
    (hseen : SeenAt text position spot)
    (hfits : FitsWords text) :
    (Page.ofChars text).lineAt? position = (Lines.ofChars spot.source)[spot.front.count '\n']? := by
  have hline : ((Page.ofChars text).index.lineOf position).toNat = 1 + spot.front.count '\n' :=
    hseen.toNat_lineOf hfits
  rw [Page.lineAt?, hline, Nat.add_sub_cancel_left, Page.ofChars, List.getElem?_toArray,
    hseen.source_eq]

theorem lineAt?_eq_some
    (hseen : SeenAt text position spot)
    (hfits : FitsWords text)
    (hheld : spot.after = none → spot.head ++ spot.tail ≠ []) :
    (Page.ofChars text).lineAt? position = some spot.text := by
  rw [hseen.lineAt?_eq hfits, getElem?_ofChars_source hheld]

/-- A last line without characters is not among the lines of the page. -/
theorem lineAt?_eq_none_iff
    (hseen : SeenAt text position spot)
    (hfits : FitsWords text) :
    (Page.ofChars text).lineAt? position = none ↔
      spot.after = none ∧ spot.head ++ spot.tail = [] := by
  constructor
  · intro hnone
    by_contra hheld
    rw [not_and] at hheld
    rw [hseen.lineAt?_eq_some hfits hheld] at hnone
    cases hnone
  · rintro ⟨hlast, hempty⟩
    rw [hseen.lineAt?_eq hfits, Spot.source, hlast, hempty, lineEnding, List.append_nil,
      List.append_nil, List.getElem?_eq_none_iff, spot.front_wholeLines.length_ofChars]

theorem text_eq_of_lineAt?
    {line : List Char}
    (hseen : SeenAt text position spot)
    (hfits : FitsWords text)
    (hline : (Page.ofChars text).lineAt? position = some line) :
    line = spot.text := by
  have hheld : spot.after = none → spot.head ++ spot.tail ≠ [] := by
    intro hlast hempty
    rw [(hseen.lineAt?_eq_none_iff hfits).mpr ⟨hlast, hempty⟩] at hline
    cases hline
  rw [hseen.lineAt?_eq_some hfits hheld] at hline
  exact (Option.some.inj hline).symm

theorem toNat_length_front
    (hseen : SeenAt text position spot)
    (hfits : FitsWords text) :
    (Word.ofCount spot.front.length).toNat = spot.front.length :=
  (hfits.mono hseen.front_initial).toNat_length

/-- The index holds the start of the spot's line. -/
theorem getElem?_starts
    (hseen : SeenAt text position spot)
    (hfits : FitsWords text) :
    (LineIndex.ofChars text).starts[((LineIndex.ofChars text).lineOf position).toNat - 1]? =
      some (Word.ofCount spot.front.length) := by
  obtain ⟨rest, hrest⟩ := hseen.front_initial
  rw [hseen.toNat_lineOf hfits, Spot.line, Nat.add_sub_cancel_left, ← hrest]
  exact LineIndex.getElem?_starts spot.front_wholeLines rest

end SeenAt

/-- A line of a page is no longer than the source. -/
theorem length_le_of_lineAt?
    {source line : List Char} {position : Word}
    (hfits : FitsWords source)
    (hline : (Page.ofChars source).lineAt? position = some line) :
    line.length ≤ source.length := by
  obtain ⟨spot, hseen⟩ := exists_seenAt source position
  rw [hseen.text_eq_of_lineAt? hfits hline, ← hseen.source_eq]
  exact spot.length_text_le

/-- The excerpt of a span is made of the line that the page has for its start; in a
source that fits no count is cut short. -/
theorem Excerpt.ofSpan?_eq
    {source : List Char} {span : Span} {place : Place}
    (hfits : FitsWords source)
    (hplace : (LineIndex.ofChars source).placeOf span.start = .ok place) :
    ofSpan? (Page.ofChars source) span =
      .ok (((Page.ofChars source).lineAt? span.start).map fun text =>
        ⟨place.line, text, place.column.toNat - 1,
          max 1 (min span.length.toNat (text.length - (place.column.toNat - 1)))⟩) := by
  have hfound : (Page.ofChars source).index.placeOf span.start = .ok place := hplace
  have hline : ∀ text, (Page.ofChars source).lineAt? span.start = some text →
      (Word.ofCount text.length).toNat = text.length := by
    intro text htext
    have hle := length_le_of_lineAt? hfits htext
    rw [FitsWords] at hfits
    exact Word.toNat_ofCount (by omega)
  rw [Page.lineAt?, ← LineIndex.line_eq_of_placeOf_eq_ok hfound] at hline ⊢
  rw [ofSpan?, hfound, Except.map, at?]
  congr 1
  apply Option.map_congr
  intro text htext
  rw [hline text htext]

/-- The line that an excerpt shows is the one looked up. -/
theorem Excerpt.map_text_at?
    {page : Page} {position : Word} {place : Place}
    (hplace : page.index.placeOf position = .ok place)
    (length : Word) :
    (at? page place length).map Excerpt.text = page.lineAt? position := by
  rw [at?, Page.lineAt?, ← LineIndex.line_eq_of_placeOf_eq_ok hplace, Option.map_map]
  exact Option.map_id_apply

theorem Excerpt.lineAt?_eq_of_ofSpan?
    {page : Page} {span : Span} {excerpt : Excerpt}
    (hexcerpt : ofSpan? page span = .ok (some excerpt)) :
    page.lineAt? span.start = some excerpt.text := by
  rw [ofSpan?] at hexcerpt
  cases hplace : page.index.placeOf span.start with
  | error fault =>
      rw [hplace] at hexcerpt
      cases hexcerpt
  | ok place =>
      rw [hplace, Except.map, Except.ok.injEq] at hexcerpt
      rw [← map_text_at? hplace span.length, hexcerpt, Option.map_some]

/-! ## Two cuts of one source -/

/-- A page cuts the line of a position in both its ways alike, the line having its
start in the index: the lines lack it only if it is the last one and has no
character, and otherwise they have what stands in the source from there on.  That
line is the one in an excerpt. -/
structure Page.CutsAlike (source : List Char) (page : Page) (position start : Word) :
    Prop where
  entry : page.index.starts[(page.index.lineOf position).toNat - 1]? = some start
  absent_iff : page.lineAt? position = none ↔
    (page.index.lineOf position).toNat = page.index.starts.size ∧ source.drop start.toNat = []
  nothing_iff : (page.index.lineOf position).toNat = page.index.starts.size →
    (source.drop start.toNat = [] ↔ source = [] ∨ source.getLast? = some '\n')
  line : ∀ line, page.lineAt? position = some line → line = lineFrom source start.toNat
  excerpt : ∀ place length, page.index.placeOf position = .ok place →
    (Excerpt.at? page place length).map Excerpt.text = page.lineAt? position

/-- Every position of a source has its line in both cuts of the source. -/
theorem exists_cutsAlike_ofSource
    {source : String}
    (hlength : source.length ≤ 4294967294)
    (position : Word) :
    ∃ start, (Page.ofSource source).CutsAlike source.toList position start := by
  have hfits := fitsWords_of_length_le hlength
  obtain ⟨spot, hseen⟩ := exists_seenAt source.toList position
  have hstart := hseen.toNat_length_front hfits
  have hlast : ((Page.ofSource source).index.lineOf position).toNat =
      (Page.ofSource source).index.starts.size ↔ spot.after = none := by
    rw [Page.ofSource, Page.ofChars, hseen.toNat_lineOf hfits, LineIndex.size_starts,
      ← hseen.source_eq]
    exact Spot.line_eq_iff_after_eq_none
  have hnothing : spot.after = none →
      (source.toList.drop spot.front.length = [] ↔ spot.head ++ spot.tail = []) := by
    intro hend
    rw [← hseen.source_eq, spot.drop_front, hend, lineEnding, List.append_nil]
  refine ⟨Word.ofCount spot.front.length, hseen.getElem?_starts hfits, ?_, ?_, ?_,
    fun place length hplace => Excerpt.map_text_at? hplace length⟩
  · rw [hlast, hstart, Page.ofSource, hseen.lineAt?_eq_none_iff hfits]
    exact and_congr_right fun hend => (hnothing hend).symm
  · rw [hlast, hstart]
    intro hend
    rw [hnothing hend, ← hseen.source_eq]
    exact Spot.line_eq_nil_iff hend
  · intro line hline
    rw [hstart, ← hseen.source_eq, hseen.text_eq_of_lineAt? hfits hline]
    exact spot.text_eq_lineFrom

/-- The position after the last line feed, whose line is in one of the cuts only. -/
theorem exists_cutsAlike_ofSource_of_lastFeed :
    "a\r\n\n".length ≤ 4294967294 ∧
      ∃ start, (Page.ofSource "a\r\n\n").CutsAlike "a\r\n\n".toList 4 start :=
  ⟨by decide, exists_cutsAlike_ofSource (by decide) 4⟩

end LoxLexer
