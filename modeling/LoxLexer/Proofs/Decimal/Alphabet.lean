import LoxLexer.Token.Basic

/-!
# The characters of numbers

A number is written with digits, a point, signs and the mark of its exponent,
whatever its layout.
-/

namespace LoxLexer

/-- The characters that a layout writes numbers with. -/
def Layout.Writes (layout : Layout) (c : Char) : Prop :=
  c.isDigit ∨ c = '-' ∨ c = '+' ∨ c = '.' ∨ c = layout.exponentMark

namespace Layout

variable {layout : Layout} {c : Char}

theorem writes_of_mem_toDigits
    {number : Nat}
    (hmem : c ∈ Nat.toDigits 10 number) :
    layout.Writes c :=
  Or.inl (Nat.isDigit_of_mem_toDigits (by decide) (by decide) hmem)

theorem writes_of_mem_positional
    {digits : List Char} {leading : Int}
    (hdigits : ∀ d ∈ digits, layout.Writes d)
    (hmem : c ∈ positional digits leading) :
    layout.Writes c := by
  have hzero : layout.Writes '0' := Or.inl rfl
  have hpoint : layout.Writes '.' := Or.inr (Or.inr (Or.inr (Or.inl rfl)))
  unfold positional at hmem
  split at hmem
  · simp only [List.mem_cons, List.mem_append, List.mem_replicate] at hmem
    rcases hmem with rfl | rfl | ⟨-, rfl⟩ | hmem
    · exact hzero
    · exact hpoint
    · exact hzero
    · exact hdigits c hmem
  · simp only [List.mem_append, List.mem_cons, List.mem_replicate] at hmem
    rcases hmem with (hmem | ⟨-, rfl⟩) | rfl | hmem
    · exact hdigits c (List.mem_of_mem_take hmem)
    · exact hzero
    · exact hpoint
    · split at hmem
      · rw [List.mem_singleton.mp hmem]
        exact hzero
      · exact hdigits c (List.mem_of_mem_drop hmem)

theorem writes_of_mem_mantissa
    {digits : List Char}
    (hdigits : ∀ d ∈ digits, layout.Writes d)
    (hmem : c ∈ layout.mantissa digits) :
    layout.Writes c := by
  have hpoint : layout.Writes '.' := Or.inr (Or.inr (Or.inr (Or.inl rfl)))
  rw [mantissa, List.mem_append] at hmem
  rcases hmem with hmem | hmem
  · exact hdigits c (List.mem_of_mem_take hmem)
  split at hmem
  · split at hmem
    · simp only [List.mem_cons, List.not_mem_nil, or_false] at hmem
      rcases hmem with rfl | rfl
      · exact hpoint
      · exact Or.inl rfl
    · exact absurd hmem List.not_mem_nil
  · rcases List.mem_cons.mp hmem with rfl | hmem
    · exact hpoint
    · exact hdigits c (List.mem_of_mem_drop hmem)

theorem writes_of_mem_exponentText
    {exponent : Int}
    (hmem : c ∈ layout.exponentText exponent) :
    layout.Writes c := by
  rw [exponentText, List.mem_cons, List.mem_append] at hmem
  rcases hmem with rfl | hmem | hmem
  · exact Or.inr (Or.inr (Or.inr (Or.inr rfl)))
  · split at hmem
    · exact Or.inr (Or.inl (List.mem_singleton.mp hmem))
    · split at hmem
      · exact Or.inr (Or.inr (Or.inl (List.mem_singleton.mp hmem)))
      · exact absurd hmem List.not_mem_nil
  · exact writes_of_mem_toDigits hmem

/-- A layout writes finite numbers with its characters only. -/
theorem writes_of_mem_ofFinite
    {number : Binary64}
    (hmem : c ∈ layout.ofFinite number) :
    layout.Writes c := by
  rw [ofFinite, List.mem_append] at hmem
  rcases hmem with hmem | hmem
  · unfold sign at hmem
    split at hmem
    · exact Or.inr (Or.inl (List.mem_singleton.mp hmem))
    · exact absurd hmem List.not_mem_nil
  split at hmem
  · simp only [List.mem_cons, List.not_mem_nil, or_false] at hmem
    rcases hmem with rfl | rfl | rfl
    · exact Or.inl rfl
    · exact Or.inr (Or.inr (Or.inr (Or.inl rfl)))
    · exact Or.inl rfl
  · rw [ofDecimal] at hmem
    split at hmem
    · exact writes_of_mem_positional (fun d => writes_of_mem_toDigits) hmem
    · rcases List.mem_append.mp hmem with hmem | hmem
      · exact writes_of_mem_mantissa (fun d => writes_of_mem_toDigits) hmem
      · exact writes_of_mem_exponentText hmem

end Layout

/-- The text of a number is within a line. -/
theorem Literal.lineFeed_not_mem_numberText (value : Binary64) :
    '\n' ∉ (numberText value).toList := by
  unfold numberText
  split
  · decide
  · split
    · split
      · decide
      · decide
    · rw [String.toList_ofList]
      intro hmem
      have hwrites := Layout.writes_of_mem_ofFinite hmem
      revert hwrites
      unfold Layout.Writes
      decide

end LoxLexer
