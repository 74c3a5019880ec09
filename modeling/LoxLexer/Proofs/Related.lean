import Mathlib.Data.List.Forall2

/-!
# Lists related item by item

Facts about `List.Forall₂` for lists that are made from one another: reports from
diagnostics, results from lines, lexemes from lexemes.
-/

namespace LoxLexer

/-- What can be made of each item of a list can be made of all of them. -/
theorem exists_forall₂
    {α β : Type} {R : α → β → Prop} {items : List α}
    (hitems : ∀ item ∈ items, ∃ made, R item made) :
    ∃ all, List.Forall₂ R items all := by
  induction items with
  | nil => exact ⟨[], .nil⟩
  | cons item others ih =>
      rw [List.forall_mem_cons] at hitems
      obtain ⟨made, hmade⟩ := hitems.1
      obtain ⟨all, hall⟩ := ih hitems.2
      exact ⟨made :: all, .cons hmade hall⟩

theorem exists_mem_of_forall₂
    {α β : Type} {R : α → β → Prop} {items : List α} {others : List β} {other : β}
    (hitems : List.Forall₂ R items others)
    (hmem : other ∈ others) :
    ∃ item ∈ items, R item other := by
  obtain ⟨index, hindex, rfl⟩ := List.getElem_of_mem hmem
  have hlength := hitems.length_eq
  exact ⟨_, List.getElem_mem (by omega), hitems.get (by omega) hindex⟩

theorem filterMap_eq_of_forall₂
    {α β γ : Type} {R : α → β → Prop} {f : α → Option γ} {g : β → Option γ}
    {first : List α} {second : List β}
    (hall : List.Forall₂ R first second)
    (heq : ∀ a b, R a b → g b = f a) :
    second.filterMap g = first.filterMap f := by
  induction hall with
  | nil => rfl
  | cons hhead _ ih => rw [List.filterMap_cons, List.filterMap_cons, heq _ _ hhead, ih]

theorem mapM_eq_ok_of_forall₂
    {ε α β : Type} {f : α → Except ε β} {items : List α} {all : List β}
    (hall : List.Forall₂ (fun item made => f item = .ok made) items all) :
    items.mapM f = .ok all := by
  induction hall with
  | nil => rfl
  | cons hmade _ ih =>
      rw [List.mapM_cons, hmade, ih]
      rfl

/-- What fails for no item of a list fails for the whole list neither. -/
theorem exists_mapM_eq_ok
    {ε α β : Type} {f : α → Except ε β} {items : List α}
    (hitems : ∀ item ∈ items, ∃ made, f item = .ok made) :
    ∃ all, items.mapM f = .ok all ∧
      List.Forall₂ (fun item made => f item = .ok made) items all := by
  obtain ⟨all, hall⟩ := exists_forall₂ hitems
  exact ⟨all, mapM_eq_ok_of_forall₂ hall, hall⟩

end LoxLexer
