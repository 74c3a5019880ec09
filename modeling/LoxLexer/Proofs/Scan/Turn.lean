import LoxLexer.Proofs.Scan.Run

/-!
# Turns of a scan

A scan takes one turn for each lexeme.  The states that it reaches are the ones
between two turns: the first one, and the one after each turn, together with
what then remains of the source.

Whatever is reached, the lexemes before it are a beginning of the cut of the
source, and the state is what reading them makes of the first one
(`Reaches.exists_read`).
-/

namespace LoxLexer
namespace Scan

variable {σ : Type} {sink : Sink σ} {reports : σ} {source : List Char}

/-- A scan reaches a state in which a part of its source remains. -/
inductive State.Reaches (sink : Sink σ) (reports : σ) (source : List Char) :
    State σ → List Char → Prop
  | initial : Reaches sink reports source (State.initial reports) source
  | turn {state next : State σ} {c : Char} {others : List Char} :
      Reaches sink reports source state (c :: others) →
      state.marked.read sink (Lexeme.first c others).1 = .ok next →
      Reaches sink reports source next (Lexeme.first c others).2

/-- A state and what remains are left by reading the given lexemes first. -/
structure State.HasRead (sink : Sink σ) (reports : σ) (source : List Char)
    (state : State σ) (remaining : List Char) (lexemes : List Lexeme) : Prop where
  cut_eq : Lexeme.cut source = lexemes ++ Lexeme.cut remaining
  stands : state.At (Lexeme.textOf lexemes)
  reads : State.Reads sink (place [] lexemes) (State.initial reports) state

namespace State

variable {state : State σ} {remaining : List Char} {lexemes : List Lexeme}

theorem HasRead.source_eq
    (hread : HasRead sink reports source state remaining lexemes) :
    source = Lexeme.textOf lexemes ++ remaining := by
  rw [← Lexeme.textOf_cut source, hread.cut_eq, Lexeme.textOf_append, Lexeme.textOf_cut]

/-- A turn reads the first lexeme of what remains, and does not fault. -/
theorem HasRead.exists_turn
    {c : Char} {others : List Char}
    (hread : HasRead sink reports source state (c :: others) lexemes)
    (hfits : FitsWords source) :
    ∃ next, state.marked.read sink (Lexeme.first c others).1 = .ok next ∧
      Steps sink (Lexeme.textOf lexemes) (Lexeme.first c others).1 state next ∧
      HasRead sink reports source next (Lexeme.first c others).2
        (lexemes ++ [(Lexeme.first c others).1]) := by
  have hfirst : FitsWords (Lexeme.textOf lexemes ++ (Lexeme.first c others).1.text) := by
    have htext := Lexeme.text_append_rest c others
    rw [hread.source_eq, ← htext, ← List.append_assoc] at hfits
    exact hfits.mono (List.prefix_append _ _)
  obtain ⟨next, hnext, hsteps⟩ :=
    exists_read_eq_ok sink hread.stands (Lexeme.first_valid c others) hfirst
  refine ⟨next, hnext, hsteps, ?_, ?_, ?_⟩
  · rw [hread.cut_eq, Lexeme.cut_cons, List.append_assoc, List.singleton_append]
  · rw [Lexeme.textOf_append, Lexeme.textOf_cons, Lexeme.textOf_nil, List.append_nil]
    exact hsteps.moves
  · rw [place_append, List.nil_append]
    exact hread.reads.append hsteps.reads

/-- What is reached has been reached by reading lexemes of the source. -/
theorem Reaches.exists_read
    (hreaches : Reaches sink reports source state remaining)
    (hfits : FitsWords source) :
    ∃ lexemes, HasRead sink reports source state remaining lexemes := by
  induction hreaches with
  | initial => exact ⟨[], rfl, at_initial reports, reads_nil _⟩
  | turn _ hnext ih =>
      obtain ⟨lexemes, hread⟩ := ih
      obtain ⟨next, hok, -, hread⟩ := hread.exists_turn hfits
      obtain rfl := Except.ok.inj (hok.symm.trans hnext)
      exact ⟨_, hread⟩

end State
end Scan
end LoxLexer
