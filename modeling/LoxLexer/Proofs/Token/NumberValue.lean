import LoxLexer.Proofs.Decimal.Nearest
import LoxLexer.Proofs.Grammar.Basic
import LoxLexer.Proofs.Json.Numbers
import LoxLexer.Proofs.Scan.Run

/-!
# Values of numbers

A reader of decimal texts takes digits, and a point with more digits after them,
and nothing else; what it reads is a rational, exactly.  It reads the lexeme of
every number token, and the literal of the token is the number nearest to the
rational (`scan_numbers_nearest`).

So a literal depends on the rational alone: zeros put before the lexeme, or after
its point, do not change it, and it grows with the rational.
-/

namespace LoxLexer

open Grammar Json.Reader Lexeme

namespace Decimal

/-! ## Decimal texts -/

/-- The rational that a decimal text denotes: digits, and after a point more of
them.  No other text denotes one. -/
def rational? (text : List Char) : Option ℚ :=
  match readDigits text with
  | none => none
  | some (whole, []) => some (natural whole : ℚ)
  | some (whole, c :: others) =>
    if c = '.' then
      match readDigits others with
      | some (places, []) => some (natural whole + natural places / 10 ^ places.length : ℚ)
      | _ => none
    else none

/-- A text and the same one with more zeros, before it or after its point; a whole
number may get a point with zeros only. -/
inductive Padded : List Char → List Char → Prop
  | leading (count : ℕ) (text : List Char) : Padded text (List.replicate count '0' ++ text)
  | trailing (count : ℕ) {text : List Char} :
      '.' ∈ text → Padded text (text ++ List.replicate count '0')
  | point (count : ℕ) {text : List Char} :
      '.' ∉ text → Padded text (text ++ '.' :: List.replicate (count + 1) '0')

section

variable {text whole places digits rest padded : List Char} {rational : ℚ}

theorem rational?_whole
    (hwhole : IsDigits whole) :
    rational? whole = some (natural whole : ℚ) := by
  have hread := readDigits_append hwhole (headAvoids_nil _)
  rw [List.append_nil] at hread
  rw [rational?, hread]

theorem rational?_point
    (hwhole : IsDigits whole)
    (hplaces : IsDigits places) :
    rational? (whole ++ '.' :: places) =
      some (natural whole + natural places / 10 ^ places.length : ℚ) := by
  have hread : readDigits (whole ++ '.' :: places) = some (whole, '.' :: places) :=
    readDigits_append hwhole (headAvoids_cons_iff.mpr (by decide))
  have hread' := readDigits_append hplaces (headAvoids_nil _)
  rw [List.append_nil] at hread'
  rw [rational?, hread]
  dsimp only
  rw [if_pos rfl, hread']

theorem of_readDigits_eq_some
    (hread : readDigits text = some (digits, rest)) :
    IsDigits digits ∧ text = digits ++ rest := by
  unfold readDigits at hread
  split at hread
  · cases hread
  · rename_i hne
    cases hread
    refine ⟨⟨hne, ?_⟩, List.takeWhile_append_dropWhile.symm⟩
    intro d hd
    exact List.all_eq_true.mp List.all_takeWhile d hd

/-- The decimal texts are those of the grammar of numbers. -/
theorem rational?_eq_some_iff :
    rational? text = some rational ↔
      (IsDigits text ∧ rational = natural text) ∨
        ∃ whole places, IsDigits whole ∧ IsDigits places ∧ text = whole ++ '.' :: places ∧
          rational = natural whole + natural places / 10 ^ places.length := by
  constructor
  · intro hrational
    unfold rational? at hrational
    split at hrational
    · cases hrational
    · rename_i whole hread
      obtain ⟨hwhole, rfl⟩ := of_readDigits_eq_some hread
      rw [List.append_nil]
      exact Or.inl ⟨hwhole, (Option.some.inj hrational).symm⟩
    · rename_i whole c others hread
      obtain ⟨hwhole, rfl⟩ := of_readDigits_eq_some hread
      split at hrational
      · rename_i hpoint
        split at hrational
        · rename_i places hread'
          obtain ⟨hplaces, rfl⟩ := of_readDigits_eq_some hread'
          refine Or.inr ⟨whole, places, hwhole, hplaces, ?_, (Option.some.inj hrational).symm⟩
          rw [hpoint, List.append_nil]
        · cases hrational
      · cases hrational
  · rintro (⟨hwhole, rfl⟩ | ⟨whole, places, hwhole, hplaces, rfl, rfl⟩)
    · exact rational?_whole hwhole
    · exact rational?_point hwhole hplaces

example : rational? "007.50".toList = some (15 / 2) := by decide +kernel

example : rational? "7.".toList = none ∧ rational? ".5".toList = none ∧
    rational? "1e5".toList = none := by decide +kernel

theorem not_mem_point_of_isDigits
    (hdigits : IsDigits digits) :
    '.' ∉ digits :=
  fun hmem => absurd (hdigits.2 '.' hmem) (by decide)

theorem isDigits_append_zeros
    (hdigits : IsDigits digits)
    (count : ℕ) :
    IsDigits (digits ++ List.replicate count '0') := by
  refine ⟨List.append_ne_nil_of_left_ne_nil hdigits.1 _, ?_⟩
  intro c hc
  rcases List.mem_append.mp hc with hc | hc
  · exact hdigits.2 c hc
  · rw [(List.mem_replicate.mp hc).2]
    rfl

theorem natural_zeros_append (count : ℕ) (digits : List Char) :
    natural (List.replicate count '0' ++ digits) = natural digits := by
  rw [natural_append, natural_replicate_zero, Nat.zero_mul, Nat.zero_add]

theorem natural_append_zeros (digits : List Char) (count : ℕ) :
    (natural (digits ++ List.replicate count '0') : ℚ) /
        10 ^ (digits ++ List.replicate count '0').length =
      natural digits / 10 ^ digits.length := by
  rw [natural_append, natural_replicate_zero, List.length_append, List.length_replicate,
    Nat.add_zero, pow_add, Nat.cast_mul, Nat.cast_pow, Nat.cast_ofNat,
    mul_div_mul_right _ _ (by positivity)]

/-- Zeros before a decimal text or after its point do not change what it denotes. -/
theorem Padded.rational?_eq
    (hpadded : Padded text padded)
    (hrational : rational? text = some rational) :
    rational? padded = some rational := by
  rw [rational?_eq_some_iff] at hrational
  cases hpadded with
  | leading count =>
      rcases hrational with ⟨hwhole, rfl⟩ | ⟨whole, places, hwhole, hplaces, rfl, rfl⟩
      · rw [rational?_whole (Layout.isDigits_zeros_append hwhole count), natural_zeros_append]
      · rw [← List.append_assoc,
          rational?_point (Layout.isDigits_zeros_append hwhole count) hplaces,
          natural_zeros_append]
  | trailing count hpoint =>
      rcases hrational with ⟨hwhole, rfl⟩ | ⟨whole, places, hwhole, hplaces, rfl, rfl⟩
      · exact absurd hpoint (not_mem_point_of_isDigits hwhole)
      · rw [List.append_assoc, List.cons_append,
          rational?_point hwhole (isDigits_append_zeros hplaces count), natural_append_zeros]
  | point count hpoint =>
      rcases hrational with ⟨hwhole, rfl⟩ | ⟨whole, places, hwhole, hplaces, rfl, rfl⟩
      · have hzeros : IsDigits (List.replicate (count + 1) '0') := by
          rw [List.replicate_succ]
          exact isDigits_append_zeros Layout.isDigits_zero count
        rw [rational?_point hwhole hzeros, natural_replicate_zero, Nat.cast_zero, zero_div,
          add_zero]
      · exact absurd (List.mem_append_right _ List.mem_cons_self) hpoint

end

end Decimal

/-! ## Number tokens -/

/-- A number token: its lexeme denotes a rational, and its literal is the number
nearest to that. -/
structure Token.Holds (token : Token) (rational : ℚ) (number : Binary64) : Prop where
  denotes : Decimal.rational? token.lexeme.toList = some rational
  literal : token.literal = some (.number number)
  nearest : number.IsNearestTo rational

theorem naturalOf_eq_natural (digits : List Char) : naturalOf digits = natural digits := rfl

/-- The value of a number lexeme is the number nearest to its digits, scaled. -/
theorem isNearestTo_numberValue (whole : List Char) (fraction : Option (List Char)) :
    (numberValue whole fraction).IsNearestTo
      (natural (whole ++ fraction.getD []) *
        10 ^ (-((fraction.getD []).length : ℤ))) := by
  have hnearest := Binary64.isNearestTo_nearest
    (Decimal.ratio_denominator_pos
      ⟨naturalOf (whole ++ fraction.getD []), -((fraction.getD []).length : ℤ)⟩)
  rw [Decimal.value_ratio, Decimal.value, naturalOf_eq_natural] at hnearest
  exact hnearest

/-- A text that denotes a number token denotes a rational, and the value of the token
is the number nearest to it. -/
theorem Grammar.Denotes.exists_isNearestTo
    {text : List Char} {literal : Option Literal}
    (hdenotes : Denotes text .number literal) :
    ∃ rational number, Decimal.rational? text = some rational ∧
      literal = some (.number number) ∧ number.IsNearestTo rational := by
  cases hdenotes with
  | whole hdigits =>
      refine ⟨_, _, Decimal.rational?_whole (isNumeral_iff.mp hdigits), rfl, ?_⟩
      have hnearest := isNearestTo_numberValue text none
      rwa [Option.getD_none, List.append_nil, List.length_nil, Nat.cast_zero, neg_zero,
        zpow_zero, mul_one] at hnearest
  | @decimal digits places hdigits hplaces =>
      refine ⟨_, _, Decimal.rational?_point (isNumeral_iff.mp hdigits)
        (isNumeral_iff.mp hplaces), rfl, ?_⟩
      have hnearest := isNearestTo_numberValue digits (some places)
      have hvalue : (natural (digits ++ places) : ℚ) * 10 ^ (-(places.length : ℤ)) =
          natural digits + natural places / 10 ^ places.length := by
        rw [natural_append, zpow_neg, zpow_natCast]
        push_cast
        field_simp
      rwa [Option.getD_some, hvalue] at hnearest

theorem exists_holds_of_mem_tokensOf
    {source : List Char} {token : Token}
    (hmem : token ∈ tokensOf source)
    (hkind : token.kind = .number) :
    ∃ rational number, token.Holds rational number := by
  rcases mem_tokensOf_iff.mp hmem with ⟨placed, hplaced, htoken⟩ | rfl
  · obtain ⟨hmeaning, hlexeme, -, -⟩ := Placed.token?_eq_some_iff.mp htoken
    have hvalid := (exists_of_mem_placedOf hplaced).1
    have hdenotes := denotes_iff.mpr ⟨placed.lexeme, hvalid, rfl, hmeaning⟩
    rw [hkind] at hdenotes
    obtain ⟨rational, number, hrational, hliteral, hnearest⟩ := hdenotes.exists_isNearestTo
    refine ⟨rational, number, ?_, hliteral, hnearest⟩
    rw [hlexeme, String.toList_ofList]
    exact hrational
  · cases hkind

namespace Token.Holds

variable {first second : Token} {rational greater : ℚ} {number other : Binary64}

/-- Zeros before a lexeme or after its point do not change its number. -/
theorem eq_of_padded
    (hfirst : first.Holds rational number)
    (hsecond : second.Holds greater other)
    (hpadded : Decimal.Padded first.lexeme.toList second.lexeme.toList) :
    other = number := by
  have hsame := (hpadded.rational?_eq hfirst.denotes).symm.trans hsecond.denotes
  obtain rfl := Option.some.inj hsame
  exact hsecond.nearest.unique hfirst.nearest

end Token.Holds

/-- The lexeme of every number token of a scan denotes a rational, and its literal is
the number nearest to that.  Of the number tokens of this scan and of any other one,
those with more zeros have the same literal, and those with a greater rational none
that is less. -/
theorem scan_numbers_nearest
    {source : String}
    (hlength : source.length ≤ 4294967294) :
    ∃ result, scan source = .ok result ∧
      ∀ token ∈ result.tokens, token.kind = .number →
        ∃ rational number, token.Holds rational number ∧
          ∀ other : String, other.length ≤ 4294967294 →
            ∃ again, scan other = .ok again ∧
              ∀ second ∈ again.tokens, second.kind = .number →
                ∃ rational' number', second.Holds rational' number' ∧
                  (Decimal.Padded token.lexeme.toList second.lexeme.toList →
                    number' = number) ∧
                  (rational ≤ rational' → number.extended ≤ number'.extended) := by
  obtain ⟨result, hresult, htokens, -⟩ := exists_scan_eq_ok (fitsWords_of_length_le hlength)
  refine ⟨result, hresult, ?_⟩
  intro token hmem hkind
  rw [htokens] at hmem
  obtain ⟨rational, number, hholds⟩ := exists_holds_of_mem_tokensOf hmem hkind
  refine ⟨rational, number, hholds, ?_⟩
  intro other hother
  obtain ⟨again, hagain, hagainTokens, -⟩ := exists_scan_eq_ok (fitsWords_of_length_le hother)
  refine ⟨again, hagain, ?_⟩
  intro second hmem' hkind'
  rw [hagainTokens] at hmem'
  obtain ⟨rational', number', hholds'⟩ := exists_holds_of_mem_tokensOf hmem' hkind'
  exact ⟨rational', number', hholds', hholds.eq_of_padded hholds',
    hholds.nearest.extended_le hholds'.nearest⟩

/-- A whole number in the middle between two numbers, and in another source the same one
with zeros before it. -/
theorem scan_numbers_nearest_of_tie :
    "9007199254740993".length ≤ 4294967294 ∧ "009007199254740993".length ≤ 4294967294 ∧
      ∃ result again, scan "9007199254740993" = .ok result ∧
        scan "009007199254740993" = .ok again ∧
        ∃ token ∈ result.tokens, token.kind = .number ∧
          token.Holds 9007199254740993 ⟨0x4340000000000000⟩ ∧
          ∃ second ∈ again.tokens, second.kind = .number ∧
            Decimal.Padded token.lexeme.toList second.lexeme.toList ∧
            second.Holds 9007199254740993 ⟨0x4340000000000000⟩ := by
  obtain ⟨result, hresult, hall⟩ :=
    scan_numbers_nearest (by decide : "9007199254740993".length ≤ 4294967294)
  have hfirst : (scan "9007199254740993").toOption.bind (·.tokens.head?) =
      some ⟨.number, "9007199254740993", some (.number ⟨0x4340000000000000⟩), 1, ⟨0, 16⟩⟩ := by
    decide +kernel
  rw [hresult] at hfirst
  obtain ⟨rational, number, hholds, hothers⟩ := hall _ (List.mem_of_head? hfirst) rfl
  obtain ⟨again, hagain, hsecond⟩ := hothers "009007199254740993" (by decide)
  have hhead : (scan "009007199254740993").toOption.bind (·.tokens.head?) =
      some ⟨.number, "009007199254740993", some (.number ⟨0x4340000000000000⟩), 1, ⟨0, 18⟩⟩ := by
    decide +kernel
  rw [hagain] at hhead
  obtain ⟨rational', number', hholds', -, -⟩ := hsecond _ (List.mem_of_head? hhead) rfl
  have hrational : rational = 9007199254740993 :=
    Option.some.inj (hholds.denotes.symm.trans (by decide +kernel))
  have hrational' : rational' = 9007199254740993 :=
    Option.some.inj (hholds'.denotes.symm.trans (by decide +kernel))
  have hnumber : number = ⟨0x4340000000000000⟩ :=
    (Literal.number.inj (Option.some.inj hholds.literal)).symm
  have hnumber' : number' = ⟨0x4340000000000000⟩ :=
    (Literal.number.inj (Option.some.inj hholds'.literal)).symm
  rw [hrational, hnumber] at hholds
  rw [hrational', hnumber'] at hholds'
  exact ⟨by decide, by decide, result, again, hresult, hagain, _, List.mem_of_head? hfirst, rfl,
    hholds, _, List.mem_of_head? hhead, rfl, .leading 2 _, hholds'⟩

end LoxLexer
