import LoxLexer.Proofs.Decimal.Form
import LoxLexer.Proofs.Json.RoundTrip

/-!
# Texts of numbers

A number literal is written in two ways, as text and as JSON.  Each of the two texts
denotes a shortest decimal of the number, exactly, and with the sign it reads back as
the number, both zeros included.  The text has a point and digits on both sides of it,
and outside a range around one it has one digit before the point and an exponent.  The
range of JSON is another one.

The two texts denote the same rational as long as the number has one shortest decimal.
Where two are equally close they part (`texts_differ`).
-/

namespace LoxLexer

open Json.Reader

/-- A finite number laid out with the marks of JSON is a JSON text. -/
theorem Layout.read_ofFinite
    {layout : Layout} {number : Binary64}
    (hmark : layout.MarksAsJson)
    (hfinite : number.isFinite = true) :
    Json.read (String.ofList (layout.ofFinite number)) =
      some (.number number.isNegative (Decimal.shortestValue layout.tie number)) := by
  have hread := readNumber_ofFinite hmark hfinite (headAvoids_nil isNumberPart)
  rw [List.append_nil] at hread
  obtain ⟨c, others, htext, hhead⟩ := Json.exists_head_of_readNumber hread
  have hblank : HeadAvoids isBlank (layout.ofFinite number) := by
    rw [htext]
    exact Json.headAvoids_isBlank
      (headAvoids_cons_iff.mpr (Json.isGap_eq_false_of_number hhead))
  rw [Json.read, String.toList_ofList, Json.skipBlanks_eq_self hblank,
    Json.readValue_of_readNumber hread]
  rfl

namespace Literal

variable {number other : Binary64}

/-! ## The texts of a number -/

theorem text_of_isFinite
    (hfinite : number.isFinite = true) :
    (Literal.number number).text = String.ofList (numberLayout.ofFinite number) := by
  have hbits : number.magnitudeBits < Binary64.infinityBits := of_decide_eq_true hfinite
  have hnumber : ¬ number.isNaN = true := by
    rw [Binary64.isNaN, decide_eq_true_eq]
    omega
  have hnot : ¬ number.isInfinite = true := by
    rw [Binary64.isInfinite, decide_eq_true_eq]
    omega
  rw [text, numberText, if_neg hnumber, if_neg hnot]

theorem text_of_isInfinite
    (hinfinite : number.isInfinite = true) :
    (Literal.number number).text = if number.isNegative then "-Infinity" else "Infinity" := by
  have hbits : number.magnitudeBits = Binary64.infinityBits := of_decide_eq_true hinfinite
  have hnumber : ¬ number.isNaN = true := by
    rw [Binary64.isNaN, decide_eq_true_eq]
    omega
  rw [text, numberText, if_neg hnumber, if_pos hinfinite]

theorem text_of_isNaN
    (hnumber : number.isNaN = true) :
    (Literal.number number).text = "NaN" := by
  rw [text, numberText, if_pos hnumber]

theorem json_of_isFinite
    (hfinite : number.isFinite = true) :
    (Literal.number number).json.compact =
      String.ofList (Json.numberLayout.ofFinite number) := by
  rw [json, Json.compact, Json.text, Json.numberText, if_pos hfinite]

theorem read_text
    (hfinite : number.isFinite = true) :
    Json.read (Literal.number number).text =
      some (.number number.isNegative (Decimal.shortestValue .up number)) := by
  have hmark : numberLayout.MarksAsJson := Or.inr rfl
  rw [text_of_isFinite hfinite]
  exact Layout.read_ofFinite hmark hfinite

theorem read_json
    (hfinite : number.isFinite = true) :
    Json.read (Literal.number number).json.compact =
      some (.number number.isNegative (Decimal.shortestValue .toEven number)) := by
  have hmark : Json.numberLayout.MarksAsJson := Or.inl rfl
  rw [json_of_isFinite hfinite]
  exact Layout.read_ofFinite hmark hfinite

theorem shortestValue_eq_value
    (hzero : number.isZero = false)
    (tie : Tie) :
    Decimal.shortestValue tie number = (Decimal.shortest tie number).value := by
  rw [Decimal.shortestValue, hzero, if_neg Bool.false_ne_true]

/-! ## Finite numbers -/

/-- What the two texts of a finite number keep of it.  Both read back as the number, sign
and all; they denote shortest decimals, and the same one but for a tie, of which the text
takes the greater decimal, and the JSON text the lower one if its last digit is even. -/
structure KeepsNumber (number : Binary64) : Prop where
  text : Json.read (Literal.number number).text =
    some (.number number.isNegative (Decimal.shortestValue .up number))
  json : Json.read (Literal.number number).json.compact =
    some (.number number.isNegative (Decimal.shortestValue .toEven number))
  readsBack : ∀ tie,
    Binary64.nearestTo number.isNegative (Decimal.shortestValue tie number) = number
  isShortest : number.isZero = false → ∀ tie,
    Decimal.IsShortest number (Decimal.shortest tie number)
  same :
    (∀ first second, Decimal.IsShortest number first → Decimal.IsShortest number second →
      first.value = second.value) →
    Decimal.shortestValue .toEven number = Decimal.shortestValue .up number
  tie : number.isZero = false → ∀ first second,
    Decimal.IsShortest number first → Decimal.IsShortest number second →
    first.value < second.value →
    Decimal.shortestValue .up number = second.value ∧
      Decimal.shortestValue .toEven number =
        if first.coefficient % 2 = 0 then first.value else second.value
  textPositional : number.IsWithin (1 / 1000) 10000000 → ∃ body,
    (Literal.number number).text.toList = Layout.sign number ++ body ∧
      Layout.IsPositional body
  textScientific : ¬ number.IsWithin (1 / 1000) 10000000 → ∃ body,
    (Literal.number number).text.toList = Layout.sign number ++ body ∧
      Layout.IsScientific body
  jsonPositional : number.IsWithin (1 / 100000) 10000000000000000 → ∃ body,
    (Literal.number number).json.compact.toList = Layout.sign number ++ body ∧
      Layout.IsPositional body
  jsonExponent : ¬ number.IsWithin (1 / 100000) 10000000000000000 →
    'e' ∈ (Literal.number number).json.compact.toList

theorem exists_body_text
    (hfinite : number.isFinite = true) :
    ∃ body, (Literal.number number).text.toList = Layout.sign number ++ body ∧
      (number.IsWithin (1 / 1000) 10000000 → Layout.IsPositional body) ∧
      (¬ number.IsWithin (1 / 1000) 10000000 → Layout.IsScientific body) := by
  obtain ⟨body, htext, hpositional, hexponent⟩ :=
    Layout.exists_body Layout.isBounded_numberLayout hfinite
  have hleast : (10 : ℚ) ^ numberLayout.leastPositional = 1 / 1000 := by
    norm_num [numberLayout]
  have hbound : (10 : ℚ) ^ (numberLayout.greatestPositional + 1) = 10000000 := by
    norm_num [numberLayout]
  rw [hleast, hbound] at hpositional hexponent
  rw [text_of_isFinite hfinite, String.toList_ofList]
  refine ⟨body, htext, hpositional, ?_⟩
  intro hnot
  obtain ⟨digits, leading, hdigits, hleading, rfl⟩ := hexponent hnot
  exact Layout.isScientific_mantissa hdigits hleading

theorem exists_body_json
    (hfinite : number.isFinite = true) :
    ∃ body, (Literal.number number).json.compact.toList = Layout.sign number ++ body ∧
      (number.IsWithin (1 / 100000) 10000000000000000 → Layout.IsPositional body) ∧
      (¬ number.IsWithin (1 / 100000) 10000000000000000 → 'e' ∈ body) := by
  obtain ⟨body, htext, hpositional, hexponent⟩ :=
    Layout.exists_body Layout.isBounded_jsonLayout hfinite
  have hleast : (10 : ℚ) ^ Json.numberLayout.leastPositional = 1 / 100000 := by
    norm_num [Json.numberLayout]
  have hbound : (10 : ℚ) ^ (Json.numberLayout.greatestPositional + 1) = 10000000000000000 := by
    norm_num [Json.numberLayout]
  rw [hleast, hbound] at hpositional hexponent
  rw [json_of_isFinite hfinite, String.toList_ofList]
  refine ⟨body, htext, hpositional, ?_⟩
  intro hnot
  obtain ⟨digits, leading, -, -, rfl⟩ := hexponent hnot
  exact List.mem_append_right _ List.mem_cons_self

theorem keepsNumber
    (hfinite : number.isFinite = true) :
    KeepsNumber number := by
  obtain ⟨body, htext, hpositional, hscientific⟩ := exists_body_text hfinite
  obtain ⟨body', hjson, hpositional', hexponent⟩ := exists_body_json hfinite
  constructor
  · exact read_text hfinite
  · exact read_json hfinite
  · exact Binary64.nearestTo_shortestValue hfinite
  · exact Decimal.isShortest_shortest hfinite
  · intro honly
    unfold Decimal.shortestValue
    split
    · rfl
    · rename_i hzero
      rw [Bool.not_eq_true] at hzero
      exact honly _ _ (Decimal.isShortest_shortest hfinite hzero .toEven)
        (Decimal.isShortest_shortest hfinite hzero .up)
  · intro hzero first second hfirst hsecond hlt
    rw [shortestValue_eq_value hzero, shortestValue_eq_value hzero]
    exact Decimal.value_shortest_of_tie hfirst hsecond hlt hfinite hzero
  · intro hwithin
    exact ⟨body, htext, hpositional hwithin⟩
  · intro hnot
    exact ⟨body, htext, hscientific hnot⟩
  · intro hwithin
    exact ⟨body', hjson, hpositional' hwithin⟩
  · intro hnot
    rw [hjson]
    exact List.mem_append_right _ (hexponent hnot)

/-! ## One text, one number -/

theorem point_mem_text
    (hfinite : number.isFinite = true) :
    '.' ∈ (Literal.number number).text.toList := by
  obtain ⟨body, htext, hpositional, hscientific⟩ := exists_body_text hfinite
  rw [htext]
  apply List.mem_append_right
  by_cases hwithin : number.IsWithin (1 / 1000) 10000000
  · obtain ⟨whole, fraction, -, -, rfl⟩ := hpositional hwithin
    exact List.mem_append_right _ List.mem_cons_self
  · obtain ⟨first, fraction, minus, exponent, -, -, -, -, -, -, rfl⟩ := hscientific hwithin
    exact List.mem_cons_of_mem _ List.mem_cons_self

/-- No finite number is written like an infinity. -/
theorem text_ne_of_isInfinite
    (hfinite : number.isFinite = true)
    (hinfinite : other.isInfinite = true) :
    (Literal.number number).text ≠ (Literal.number other).text := by
  intro heq
  have hpoint := point_mem_text hfinite
  rw [heq, text_of_isInfinite hinfinite] at hpoint
  split at hpoint
  · exact absurd hpoint (by decide)
  · exact absurd hpoint (by decide)

theorem eq_of_text_eq_of_isInfinite
    (hinfinite : number.isInfinite = true)
    (hinfinite' : other.isInfinite = true)
    (heq : (Literal.number number).text = (Literal.number other).text) :
    number = other := by
  have hnames : ∀ minus minus' : Bool,
      (if minus then "-Infinity" else "Infinity") =
        (if minus' then "-Infinity" else "Infinity") → minus = minus' := by
    decide
  rw [text_of_isInfinite hinfinite, text_of_isInfinite hinfinite'] at heq
  apply Binary64.eq_of_magnitudeBits_eq (hnames _ _ heq)
  exact (of_decide_eq_true hinfinite).trans (of_decide_eq_true hinfinite').symm

theorem eq_of_text_eq_of_isFinite
    (hfinite : number.isFinite = true)
    (hfinite' : other.isFinite = true)
    (heq : (Literal.number number).text = (Literal.number other).text) :
    number = other := by
  have hread := read_text hfinite
  rw [heq, read_text hfinite', Option.some.injEq, Json.Document.number.injEq] at hread
  rw [← Binary64.nearestTo_shortestValue hfinite .up,
    ← Binary64.nearestTo_shortestValue hfinite' .up, hread.1, hread.2]

/-- Numbers that are written alike are the same. -/
theorem eq_of_text_eq
    (hnumber : number.isNaN = false)
    (hother : other.isNaN = false)
    (heq : (Literal.number number).text = (Literal.number other).text) :
    number = other := by
  rcases Binary64.isInfinite_or_isFinite hnumber with hinfinite | hfinite
  · rcases Binary64.isInfinite_or_isFinite hother with hinfinite' | hfinite'
    · exact eq_of_text_eq_of_isInfinite hinfinite hinfinite' heq
    · exact absurd heq.symm (text_ne_of_isInfinite hfinite' hinfinite)
  · rcases Binary64.isInfinite_or_isFinite hother with hinfinite' | hfinite'
    · exact absurd heq (text_ne_of_isInfinite hfinite hinfinite')
    · exact eq_of_text_eq_of_isFinite hfinite hfinite' heq

/-- The texts of a finite number keep it; whatever is not finite is written as a name; and
numbers that are written alike are the same. -/
theorem texts_keep_number (number : Binary64) :
    (number.isFinite = true → KeepsNumber number) ∧
      (number.isNaN = true → (Literal.number number).text = "NaN") ∧
      (number.isInfinite = true →
        (Literal.number number).text =
          if number.isNegative then "-Infinity" else "Infinity") ∧
      ∀ other : Binary64, number.isNaN = false → other.isNaN = false →
        (Literal.number number).text = (Literal.number other).text → number = other :=
  ⟨keepsNumber, text_of_isNaN, text_of_isInfinite, fun _ => eq_of_text_eq⟩

/-- A power of two with two shortest decimals, an infinity, and what is not a number. -/
theorem texts_keep_number_of_tie :
    (⟨0x3e60000000000000⟩ : Binary64).isFinite = true ∧
      KeepsNumber ⟨0x3e60000000000000⟩ ∧
      (⟨0xfff0000000000000⟩ : Binary64).isInfinite = true ∧
      (Literal.number ⟨0xfff0000000000000⟩).text = "-Infinity" ∧
      (⟨0x7ff8000000000000⟩ : Binary64).isNaN = true ∧
      (Literal.number ⟨0x7ff8000000000000⟩).text = "NaN" :=
  ⟨by decide, (texts_keep_number ⟨0x3e60000000000000⟩).1 (by decide), by decide,
    (texts_keep_number ⟨0xfff0000000000000⟩).2.2.1 (by decide), by decide,
    (texts_keep_number ⟨0x7ff8000000000000⟩).2.1 (by decide)⟩

/-- The two texts of two to the power -25: the digits of both read back as the number, no
fewer digits do, and both are equally close to it; and yet they do not denote the same
rational. -/
theorem texts_differ :
    (⟨0x3e60000000000000⟩ : Binary64).isFinite = true ∧
      Decimal.IsShortest ⟨0x3e60000000000000⟩ ⟨29802322387695313, -24⟩ ∧
      Decimal.IsShortest ⟨0x3e60000000000000⟩ ⟨29802322387695312, -24⟩ ∧
      (Literal.number ⟨0x3e60000000000000⟩).text = "2.9802322387695313E-8" ∧
      (Literal.number ⟨0x3e60000000000000⟩).json.compact = "2.9802322387695312e-8" ∧
      ¬ ∃ rational : ℚ,
        Json.read (Literal.number ⟨0x3e60000000000000⟩).text = some (.number false rational) ∧
        Json.read (Literal.number ⟨0x3e60000000000000⟩).json.compact =
          some (.number false rational) := by
  have hfinite : (⟨0x3e60000000000000⟩ : Binary64).isFinite = true := by decide
  have hzero : (⟨0x3e60000000000000⟩ : Binary64).isZero = false := by decide
  have hup : Decimal.shortest .up ⟨0x3e60000000000000⟩ = ⟨29802322387695313, -24⟩ := by
    decide +kernel
  have heven : Decimal.shortest .toEven ⟨0x3e60000000000000⟩ = ⟨29802322387695312, -24⟩ := by
    decide +kernel
  refine ⟨hfinite, hup ▸ Decimal.isShortest_shortest hfinite hzero .up,
    heven ▸ Decimal.isShortest_shortest hfinite hzero .toEven, by decide +kernel,
    by decide +kernel, ?_⟩
  rintro ⟨rational, htext, hjson⟩
  rw [read_text hfinite, shortestValue_eq_value hzero, hup, Option.some.injEq,
    Json.Document.number.injEq] at htext
  rw [read_json hfinite, shortestValue_eq_value hzero, heven, Option.some.injEq,
    Json.Document.number.injEq] at hjson
  have hvalue := htext.2.trans hjson.2.symm
  rw [Decimal.value, Decimal.value] at hvalue
  norm_num at hvalue

end Literal

end LoxLexer
