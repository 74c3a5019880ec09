import LoxLexer.Json
import LoxLexer.Proofs.Decimal.ReadBack
import LoxLexer.Proofs.Json.Reader
import LoxLexer.Proofs.Lexeme.Shape

/-!
# Numbers as JSON

Whatever its layout, a finite number is written as a JSON number that stands for
the rational of its digits: zeros put before the digits or after them, the place
of the point and the exponent make up for each other.
-/

namespace LoxLexer

/-- The characters that a number can go on with. -/
def Json.Reader.isNumberPart (c : Char) : Bool :=
  c.isDigit || c == '.' || c == 'e' || c == 'E'

open Json.Reader Lexeme

/-! ## Digits -/

theorem natural_append (front back : List Char) :
    natural (front ++ back) = natural front * 10 ^ back.length + natural back := by
  rw [natural, Nat.ofDigitChars_append, Nat.ofDigitChars_eq_ofDigitChars_zero, natural, natural,
    Nat.mul_comm]

theorem natural_replicate_zero (count : ℕ) : natural (List.replicate count '0') = 0 := by
  rw [natural, Nat.ofDigitChars_replicate_zero, Nat.mul_zero]

theorem natural_zero : natural ['0'] = 0 := rfl

theorem natural_toDigits (number : ℕ) : natural (Nat.toDigits 10 number) = number :=
  Nat.ofDigitChars_ten_toDigits

theorem isDigits_toDigits (number : ℕ) : IsDigits (Nat.toDigits 10 number) := by
  refine ⟨Nat.toDigits_ne_nil, ?_⟩
  intro d hd
  exact Nat.isDigit_of_mem_toDigits (by decide) (by decide) hd

/-- The digits of a natural begin with zero for zero only. -/
theorem head?_toDigits_ne_zero
    {number : ℕ}
    (hnumber : number ≠ 0) :
    (Nat.toDigits 10 number).head? ≠ some '0' := by
  induction number using Nat.strongRecOn with
  | ind number ih =>
      by_cases hsmall : number < 10
      · rw [Nat.toDigits_of_lt_base hsmall, List.head?_cons]
        intro heq
        exact hnumber (Nat.digitChar_eq_zero.mp (Option.some.inj heq))
      · have hrest : number / 10 ≠ 0 := by omega
        rw [Nat.toDigits_of_base_le (by decide) (by omega),
          List.head?_append_of_ne_nil _ Nat.toDigits_ne_nil]
        exact ih (number / 10) (by omega) hrest

theorem head?_ne_of_isDigit
    {c d : Char} {others : List Char}
    (hdigit : d.isDigit = true)
    (hc : c.isDigit = false) :
    (d :: others).head? ≠ some c := by
  intro heq
  rw [List.head?_cons, Option.some.injEq] at heq
  rw [heq, hc] at hdigit
  cases hdigit

/-- The digits before a point: zero alone, or digits that do not begin with it. -/
structure IsWhole (whole : List Char) : Prop where
  digits : IsDigits whole
  zero : whole.head? = some '0' → whole = ['0']

theorem isWhole_toDigits (number : ℕ) : IsWhole (Nat.toDigits 10 number) := by
  refine ⟨isDigits_toDigits number, ?_⟩
  intro hhead
  by_cases hnumber : number = 0
  · rw [hnumber]
    rfl
  · exact absurd hhead (head?_toDigits_ne_zero hnumber)

/-! ## The parts of a number -/

section

variable {whole fraction digits rest more : List Char} {c : Char}

theorem readDigits_append
    (hdigits : IsDigits digits)
    (hrest : HeadAvoids Char.isDigit rest) :
    readDigits (digits ++ rest) = some (digits, rest) := by
  rw [readDigits, takeWhile_append_eq hdigits.2 hrest, dropWhile_append_eq hdigits.2 hrest,
    if_neg hdigits.1]

theorem readFraction_point
    (hdigits : IsDigits digits)
    (hrest : HeadAvoids Char.isDigit rest) :
    readFraction ('.' :: (digits ++ rest)) = some (digits, rest) := by
  rw [readFraction, List.head?_cons, if_pos rfl, List.tail_cons, readDigits_append hdigits hrest]

theorem isNumberPart_eq_false_iff :
    isNumberPart c = false ↔ c.isDigit = false ∧ c ≠ '.' ∧ c ≠ 'e' ∧ c ≠ 'E' := by
  simp [isNumberPart, and_assoc]

theorem headAvoids_isDigit
    (hrest : HeadAvoids isNumberPart rest) :
    HeadAvoids Char.isDigit rest :=
  headAvoids_mono hrest fun _ hc => (isNumberPart_eq_false_iff.mp hc).1

theorem readFraction_of_avoids
    (hrest : HeadAvoids (· == '.') rest) :
    readFraction rest = some ([], rest) := by
  have hhead : rest.head? ≠ some '.' := by
    intro heq
    exact absurd (hrest '.' heq) (by decide)
  rw [readFraction, if_neg hhead]

theorem readExponent_of_avoids
    (hrest : HeadAvoids isNumberPart rest) :
    readExponent rest = some (0, rest) := by
  have hhead : ¬ (rest.head? = some 'e' ∨ rest.head? = some 'E') := by
    rintro (heq | heq)
    · exact absurd (hrest 'e' heq) (by decide)
    · exact absurd (hrest 'E' heq) (by decide)
  rw [readExponent, if_neg hhead]

theorem readMagnitude_append
    {exponent : ℤ} {after : List Char}
    (hwhole : IsWhole whole)
    (hafter : HeadAvoids Char.isDigit after)
    (hfraction : readFraction after = some (fraction, more))
    (hexponent : readExponent more = some (exponent, rest)) :
    readMagnitude (whole ++ after) =
      some ((natural (whole ++ fraction) : ℚ) * 10 ^ (exponent - fraction.length), rest) := by
  have hzero : ¬ (whole.head? = some '0' ∧ whole ≠ ['0']) := by
    rintro ⟨hhead, hne⟩
    exact hne (hwhole.zero hhead)
  rw [readMagnitude, readDigits_append hwhole.digits hafter]
  dsimp only
  rw [if_neg hzero, hfraction]
  dsimp only
  rw [hexponent]
  rfl

/-- A number begins with a digit. -/
theorem exists_digit_of_readMagnitude
    {text : List Char} {result : ℚ × List Char}
    (hread : readMagnitude text = some result) :
    ∃ c others, text = c :: others ∧ c.isDigit = true := by
  cases text with
  | nil => cases hread
  | cons c others =>
      refine ⟨c, others, rfl, ?_⟩
      by_contra hdigit
      have htake : (c :: others).takeWhile Char.isDigit = [] := by
        rw [List.takeWhile_cons, if_neg hdigit]
      rw [readMagnitude, readDigits, if_pos htake] at hread
      cases hread

end

/-! ## Layouts -/

/-- The exponents of a layout are marked as JSON marks them. -/
def Layout.MarksAsJson (layout : Layout) : Prop :=
  layout.exponentMark = 'e' ∨ layout.exponentMark = 'E'

namespace Layout

variable {layout : Layout} {digits rest : List Char}

/-- The significant digits of a number other than zero. -/
structure Leads (digits : List Char) : Prop where
  isDigits : IsDigits digits
  head : digits.head? ≠ some '0'

theorem leads_toDigits
    {number : ℕ}
    (hnumber : number ≠ 0) :
    Leads (Nat.toDigits 10 number) :=
  ⟨isDigits_toDigits number, head?_toDigits_ne_zero hnumber⟩

theorem Leads.isWhole
    (hdigits : Leads digits) :
    IsWhole digits :=
  ⟨hdigits.isDigits, fun hhead => absurd hhead hdigits.head⟩

theorem Leads.take
    (hdigits : Leads digits)
    (count : ℕ) :
    Leads (digits.take (count + 1)) := by
  obtain ⟨⟨hne, hall⟩, hhead⟩ := hdigits
  obtain ⟨d, others, rfl⟩ := List.exists_cons_of_ne_nil hne
  refine ⟨⟨List.cons_ne_nil _ _, ?_⟩, hhead⟩
  intro c hc
  exact hall c (List.mem_of_mem_take hc)

theorem Leads.append_zeros
    (hdigits : Leads digits)
    (count : ℕ) :
    Leads (digits ++ List.replicate count '0') := by
  obtain ⟨⟨hne, hall⟩, hhead⟩ := hdigits
  refine ⟨⟨List.append_ne_nil_of_left_ne_nil hne _, ?_⟩, ?_⟩
  · intro c hc
    rcases List.mem_append.mp hc with hc | hc
    · exact hall c hc
    · rw [(List.mem_replicate.mp hc).2]
      rfl
  · rwa [List.head?_append_of_ne_nil _ hne]

theorem isDigits_zeros_append
    (hdigits : IsDigits digits)
    (count : ℕ) :
    IsDigits (List.replicate count '0' ++ digits) := by
  refine ⟨List.append_ne_nil_of_right_ne_nil _ hdigits.1, ?_⟩
  intro c hc
  rcases List.mem_append.mp hc with hc | hc
  · rw [(List.mem_replicate.mp hc).2]
    rfl
  · exact hdigits.2 c hc

theorem isDigits_zero : IsDigits ['0'] :=
  ⟨List.cons_ne_nil _ _, List.forall_mem_singleton.mpr rfl⟩

theorem isDigits_drop
    {count : ℕ}
    (hdigits : IsDigits digits)
    (hcount : count < digits.length) :
    IsDigits (digits.drop count) := by
  refine ⟨?_, fun c hc => hdigits.2 c (List.mem_of_mem_drop hc)⟩
  rw [ne_eq, List.drop_eq_nil_iff]
  omega

/-- Digits on both sides of a point, without an exponent. -/
theorem readMagnitude_point
    {whole fraction : List Char}
    (hwhole : IsWhole whole)
    (hfraction : IsDigits fraction)
    (hrest : HeadAvoids isNumberPart rest) :
    readMagnitude (whole ++ '.' :: (fraction ++ rest)) =
      some ((natural (whole ++ fraction) : ℚ) * 10 ^ (-(fraction.length : ℤ)), rest) := by
  have hpoint : HeadAvoids Char.isDigit ('.' :: (fraction ++ rest)) :=
    headAvoids_cons_iff.mpr (by decide)
  have hread := readMagnitude_append hwhole hpoint
    (readFraction_point hfraction (headAvoids_isDigit hrest)) (readExponent_of_avoids hrest)
  rwa [zero_sub] at hread

/-- Zeros before the digits do not count. -/
theorem readMagnitude_small
    {leading : ℤ}
    (hdigits : Leads digits)
    (hrest : HeadAvoids isNumberPart rest)
    (hsmall : leading < 0) :
    readMagnitude (['0'] ++ '.' ::
        ((List.replicate (-leading - 1).toNat '0' ++ digits) ++ rest)) =
      some ((natural digits : ℚ) * 10 ^ (leading - (digits.length - 1)), rest) := by
  have hwhole : IsWhole ['0'] := ⟨isDigits_zero, fun _ => rfl⟩
  have hnatural : natural (['0'] ++ (List.replicate (-leading - 1).toNat '0' ++ digits)) =
      natural digits := by
    rw [natural_append, natural_append, natural_replicate_zero, natural_zero, Nat.zero_mul,
      Nat.zero_mul, Nat.zero_add, Nat.zero_add]
  have hexponent : -((List.replicate (-leading - 1).toNat '0' ++ digits).length : ℤ) =
      leading - (digits.length - 1) := by
    rw [List.length_append, List.length_replicate]
    omega
  rw [readMagnitude_point hwhole (isDigits_zeros_append hdigits.isDigits _) hrest, hnatural,
    hexponent]

/-- A point among the digits. -/
theorem readMagnitude_within
    {count : ℕ}
    (hdigits : Leads digits)
    (hrest : HeadAvoids isNumberPart rest)
    (hcount : count + 1 < digits.length) :
    readMagnitude (digits.take (count + 1) ++ '.' :: (digits.drop (count + 1) ++ rest)) =
      some ((natural digits : ℚ) * 10 ^ ((count : ℤ) - (digits.length - 1)), rest) := by
  have hexponent : -((digits.drop (count + 1)).length : ℤ) = count - (digits.length - 1) := by
    rw [List.length_drop]
    omega
  rw [readMagnitude_point (hdigits.take count).isWhole (isDigits_drop hdigits.isDigits hcount)
    hrest, List.take_append_drop, hexponent]

/-- Zeros after the digits scale them. -/
theorem readMagnitude_large
    (hdigits : Leads digits)
    (hrest : HeadAvoids isNumberPart rest)
    (count : ℕ) :
    readMagnitude ((digits ++ List.replicate count '0') ++ '.' :: (['0'] ++ rest)) =
      some ((natural digits : ℚ) * 10 ^ count, rest) := by
  have hnatural : natural (digits ++ List.replicate count '0' ++ ['0']) =
      natural digits * 10 ^ count * 10 := by
    rw [natural_append, natural_append, natural_replicate_zero, natural_zero,
      List.length_replicate, List.length_singleton, pow_one, Nat.add_zero, Nat.add_zero]
  rw [readMagnitude_point (hdigits.append_zeros count).isWhole isDigits_zero hrest, hnatural]
  congr 2
  push_cast
  rw [List.length_singleton, Nat.cast_one, zpow_neg_one]
  field_simp

/-- Digits around a point stand for themselves, scaled. -/
theorem readMagnitude_positional
    (hdigits : Leads digits)
    (hrest : HeadAvoids isNumberPart rest)
    (leading : ℤ) :
    readMagnitude (positional digits leading ++ rest) =
      some ((natural digits : ℚ) * 10 ^ (leading - (digits.length - 1)), rest) := by
  unfold positional
  dsimp only
  split
  · rename_i hsmall
    exact readMagnitude_small hdigits hrest hsmall
  · rename_i hnot
    obtain ⟨count, rfl⟩ := Int.eq_ofNat_of_zero_le (Int.not_lt.mp hnot)
    rw [Int.toNat_natCast]
    by_cases hcount : count + 1 < digits.length
    · have hne := (isDigits_drop hdigits.isDigits hcount).1
      have hzeros : count + 1 - digits.length = 0 := by omega
      rw [List.isEmpty_eq_false_iff.mpr hne, hzeros, List.replicate_zero, List.append_nil,
        List.append_assoc, List.cons_append]
      exact readMagnitude_within hdigits hrest hcount
    · have hexponent : (count : ℤ) - (digits.length - 1) =
          ((count + 1 - digits.length : ℕ) : ℤ) := by omega
      rw [List.drop_eq_nil_of_le (by omega), List.take_of_length_le (by omega),
        List.append_assoc, List.cons_append, hexponent, zpow_natCast]
      exact readMagnitude_large hdigits hrest _

/-! ## Exponents -/

theorem readInteger_signed
    (hdigits : IsDigits digits)
    (hrest : HeadAvoids Char.isDigit rest) :
    readInteger ('-' :: (digits ++ rest)) = some (-(natural digits : ℤ), rest) ∧
      readInteger ('+' :: (digits ++ rest)) = some ((natural digits : ℤ), rest) ∧
      readInteger (digits ++ rest) = some ((natural digits : ℤ), rest) := by
  have hread := readDigits_append hdigits hrest
  refine ⟨?_, ?_, ?_⟩
  · rw [readInteger, List.head?_cons, if_pos rfl, List.tail_cons, hread]
    rfl
  · rw [readInteger, List.head?_cons, if_neg (by decide), if_pos rfl, List.tail_cons, hread]
    rfl
  · -- a digit is no sign
    obtain ⟨d, others, rfl⟩ := List.exists_cons_of_ne_nil hdigits.1
    have hdigit := hdigits.2 d List.mem_cons_self
    rw [List.cons_append] at hread ⊢
    rw [readInteger, if_neg (head?_ne_of_isDigit hdigit (by decide)),
      if_neg (head?_ne_of_isDigit hdigit (by decide)), hread]
    rfl

/-- An exponent is read back from its text. -/
theorem readExponent_exponentText
    (hmark : layout.MarksAsJson)
    (hrest : HeadAvoids isNumberPart rest)
    (exponent : ℤ) :
    readExponent (layout.exponentText exponent ++ rest) = some (exponent, rest) := by
  obtain ⟨hminus, hplus, hnone⟩ :=
    readInteger_signed (isDigits_toDigits exponent.natAbs) (headAvoids_isDigit hrest)
  have hhead : some layout.exponentMark = some 'e' ∨ some layout.exponentMark = some 'E' := by
    rcases hmark with heq | heq
    · exact Or.inl (congrArg some heq)
    · exact Or.inr (congrArg some heq)
  rw [natural_toDigits] at hminus hplus hnone
  rw [exponentText, List.cons_append, readExponent, List.head?_cons, if_pos hhead,
    List.tail_cons]
  split
  · rename_i hnegative
    have hvalue : -(exponent.natAbs : ℤ) = exponent := by omega
    rw [hvalue] at hminus
    exact hminus
  · rename_i hpositive
    have hvalue : (exponent.natAbs : ℤ) = exponent := by omega
    rw [hvalue] at hplus hnone
    split
    · exact hplus
    · exact hnone

theorem headAvoids_exponentText
    {p : Char → Bool}
    (hmark : layout.MarksAsJson)
    (he : p 'e' = false)
    (hE : p 'E' = false)
    (exponent : ℤ) :
    HeadAvoids p (layout.exponentText exponent ++ rest) := by
  rw [exponentText, List.cons_append, headAvoids_cons_iff]
  rcases hmark with heq | heq
  · rwa [heq]
  · rwa [heq]

/-- Digits before an exponent, with digits after a point. -/
theorem readMagnitude_point_exponent
    {whole fraction : List Char}
    (hmark : layout.MarksAsJson)
    (hwhole : IsWhole whole)
    (hfraction : IsDigits fraction)
    (hrest : HeadAvoids isNumberPart rest)
    (exponent : ℤ) :
    readMagnitude (whole ++ '.' :: (fraction ++ (layout.exponentText exponent ++ rest))) =
      some ((natural (whole ++ fraction) : ℚ) * 10 ^ (exponent - fraction.length), rest) := by
  have hpoint : HeadAvoids Char.isDigit
      ('.' :: (fraction ++ (layout.exponentText exponent ++ rest))) :=
    headAvoids_cons_iff.mpr (by decide)
  have hdigit : HeadAvoids Char.isDigit (layout.exponentText exponent ++ rest) :=
    headAvoids_exponentText hmark (by decide) (by decide) exponent
  exact readMagnitude_append hwhole hpoint (readFraction_point hfraction hdigit)
    (readExponent_exponentText hmark hrest exponent)

/-- A zero after the point does not count. -/
theorem readMagnitude_zero_exponent
    (hmark : layout.MarksAsJson)
    (hdigits : Leads digits)
    (hrest : HeadAvoids isNumberPart rest)
    (exponent : ℤ) :
    readMagnitude (digits ++ (['.', '0'] ++ (layout.exponentText exponent ++ rest))) =
      some ((natural digits : ℚ) * 10 ^ (exponent - ((1 : ℕ) - 1)), rest) := by
  have hread := readMagnitude_point_exponent hmark hdigits.isWhole isDigits_zero hrest exponent
  have hnatural : natural (digits ++ ['0']) = natural digits * 10 := by
    rw [natural_append, natural_zero, List.length_singleton, pow_one, Nat.add_zero]
  have hvalue : ((natural digits * 10 : ℕ) : ℚ) * 10 ^ (exponent - 1) =
      natural digits * 10 ^ exponent := by
    rw [zpow_sub_one₀ (by norm_num)]
    push_cast
    field_simp
  rw [hnatural, List.length_singleton, Nat.cast_one, hvalue] at hread
  rw [Nat.cast_one, sub_self, sub_zero]
  exact hread

/-- One digit may stand before an exponent by itself. -/
theorem readMagnitude_exponent
    (hmark : layout.MarksAsJson)
    (hdigits : Leads digits)
    (hrest : HeadAvoids isNumberPart rest)
    (exponent : ℤ) :
    readMagnitude (digits ++ (layout.exponentText exponent ++ rest)) =
      some ((natural digits : ℚ) * 10 ^ (exponent - ((1 : ℕ) - 1)), rest) := by
  have hdigit : HeadAvoids Char.isDigit (layout.exponentText exponent ++ rest) :=
    headAvoids_exponentText hmark (by decide) (by decide) exponent
  have hpoint : HeadAvoids (· == '.') (layout.exponentText exponent ++ rest) :=
    headAvoids_exponentText hmark (by decide) (by decide) exponent
  have hread := readMagnitude_append hdigits.isWhole hdigit (readFraction_of_avoids hpoint)
    (readExponent_exponentText hmark hrest exponent)
  rw [List.append_nil, List.length_nil, Nat.cast_zero, sub_zero] at hread
  rw [Nat.cast_one, sub_self, sub_zero]
  exact hread

/-- A mantissa with its exponent stands for its digits, scaled. -/
theorem readMagnitude_mantissa
    (hmark : layout.MarksAsJson)
    (hdigits : Leads digits)
    (hrest : HeadAvoids isNumberPart rest)
    (leading : ℤ) :
    readMagnitude (layout.mantissa digits ++ (layout.exponentText leading ++ rest)) =
      some ((natural digits : ℚ) * 10 ^ (leading - (digits.length - 1)), rest) := by
  unfold mantissa
  dsimp only
  by_cases hsingle : 1 < digits.length
  · have hfraction := isDigits_drop hdigits.isDigits hsingle
    rw [List.isEmpty_eq_false_iff.mpr hfraction.1, List.append_assoc]
    have hread := readMagnitude_point_exponent hmark (hdigits.take 0).isWhole hfraction hrest
      leading
    have hexponent : leading - ((digits.drop 1).length : ℤ) = leading - (digits.length - 1) := by
      rw [List.length_drop]
      omega
    rw [Nat.zero_add, List.take_append_drop, hexponent] at hread
    exact hread
  · have hlength : digits.length = 1 := by
      have hpos := List.length_pos_iff.mpr hdigits.isDigits.1
      omega
    rw [List.drop_eq_nil_of_le (by omega), List.take_of_length_le (by omega), hlength]
    split
    · split
      · rw [List.append_assoc]
        exact readMagnitude_zero_exponent hmark hdigits hrest leading
      · rw [List.append_nil]
        exact readMagnitude_exponent hmark hdigits hrest leading
    · rename_i hne
      exact absurd rfl hne

/-! ## Finite numbers -/

/-- A decimal other than zero is read back as its value. -/
theorem readMagnitude_ofDecimal
    {decimal : Decimal}
    (hmark : layout.MarksAsJson)
    (hdecimal : decimal.coefficient ≠ 0)
    (hrest : HeadAvoids isNumberPart rest) :
    readMagnitude (layout.ofDecimal decimal ++ rest) = some (decimal.value, rest) := by
  have hdigits : Leads decimal.digits := leads_toDigits hdecimal
  have hvalue : (natural decimal.digits : ℚ) *
      10 ^ (decimal.leadingExponent - ((decimal.digits.length : ℤ) - 1)) = decimal.value := by
    rw [Decimal.leadingExponent, add_sub_cancel_right, Decimal.digits, natural_toDigits,
      Decimal.value]
  rw [ofDecimal]
  split
  · rw [readMagnitude_positional hdigits hrest, hvalue]
  · rw [List.append_assoc, readMagnitude_mantissa hmark hdigits hrest, hvalue]

theorem readMagnitude_zero
    (hrest : HeadAvoids isNumberPart rest) :
    readMagnitude (['0', '.', '0'] ++ rest) = some (0, rest) := by
  have hwhole : IsWhole ['0'] := ⟨isDigits_zero, fun _ => rfl⟩
  have hnatural : natural (['0'] ++ ['0']) = 0 := rfl
  have hread := readMagnitude_point hwhole isDigits_zero hrest
  rw [hnatural, Nat.cast_zero, zero_mul] at hread
  exact hread

theorem readNumber_of_readMagnitude
    {text : List Char} {magnitude : ℚ}
    (hread : readMagnitude text = some (magnitude, rest)) :
    readNumber text = some (.number false magnitude, rest) := by
  obtain ⟨d, others, rfl, hdigit⟩ := exists_digit_of_readMagnitude hread
  rw [readNumber, if_neg (head?_ne_of_isDigit hdigit (by decide)), hread]
  rfl

/-- A sign is read before a number. -/
theorem readNumber_sign
    {text : List Char} {magnitude : ℚ} {number : Binary64}
    (hread : readMagnitude text = some (magnitude, rest)) :
    readNumber (sign number ++ text) =
      some (.number number.isNegative magnitude, rest) := by
  unfold sign
  cases number.isNegative with
  | true =>
      rw [if_pos rfl, List.singleton_append, readNumber, List.head?_cons, if_pos rfl,
        List.tail_cons, hread]
      rfl
  | false =>
      rw [if_neg Bool.false_ne_true, List.nil_append]
      exact readNumber_of_readMagnitude hread

/-- What is written for a finite number is a JSON number, with its sign and the
rational of its digits. -/
theorem readNumber_ofFinite
    {number : Binary64}
    (hmark : layout.MarksAsJson)
    (hfinite : number.isFinite = true)
    (hrest : HeadAvoids isNumberPart rest) :
    readNumber (layout.ofFinite number ++ rest) =
      some (.number number.isNegative (Decimal.shortestValue layout.tie number), rest) := by
  rw [ofFinite, List.append_assoc]
  apply readNumber_sign
  unfold Decimal.shortestValue
  split
  · exact readMagnitude_zero hrest
  · rename_i hzero
    rw [Bool.not_eq_true] at hzero
    exact readMagnitude_ofDecimal hmark
      (Decimal.shortest_coefficient_ne_zero hfinite hzero layout.tie) hrest

end Layout

/-- A count is a JSON number. -/
theorem readNumber_toDigits
    {rest : List Char}
    (hrest : HeadAvoids isNumberPart rest)
    (count : ℕ) :
    readNumber (Nat.toDigits 10 count ++ rest) = some (.number false count, rest) := by
  have hpoint : HeadAvoids (· == '.') rest := by
    apply headAvoids_mono hrest
    intro c hc
    simpa using (isNumberPart_eq_false_iff.mp hc).2.1
  have hread := readMagnitude_append (isWhole_toDigits count) (headAvoids_isDigit hrest)
    (readFraction_of_avoids hpoint) (readExponent_of_avoids hrest)
  rw [List.append_nil, List.length_nil, natural_toDigits, Nat.cast_zero, sub_zero, zpow_zero,
    mul_one] at hread
  exact Layout.readNumber_of_readMagnitude hread

end LoxLexer
