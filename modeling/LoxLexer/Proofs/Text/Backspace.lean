import LoxLexer.Text.Backspace

/-!
# Lines after backspaces

Backspaces only take away.  What they leave of a line is a sublist of it, for
each cluster that is read adds no more than its own characters
(`next_sublist`); so an edited line is no longer than the typed one and has no
characters of its own.
-/

namespace LoxLexer
namespace Backspace

theorem dropBytes_suffix (count : Nat) (text : List Char) : dropBytes count text <:+ text := by
  induction text generalizing count with
  | nil => exact List.suffix_refl []
  | cons c others ih =>
      rw [dropBytes]
      split
      · exact (ih _).trans (List.suffix_cons c others)
      · exact List.suffix_refl _

/-- One more cluster leaves characters of the cluster and of what was there. -/
theorem Kept.next_sublist (kept : Kept) (cluster : List Char) :
    (kept.next cluster).text.Sublist (cluster.reverse ++ kept.text) := by
  rw [Kept.next]
  split
  · cases hlengths : kept.lengths with
    | nil => exact List.sublist_append_right _ _
    | cons length others =>
        exact (dropBytes_suffix length kept.text).sublist.trans (List.sublist_append_right _ _)
  · exact List.Sublist.refl _

theorem foldl_next_sublist (clusters : List (List Char)) (kept : Kept) :
    (clusters.foldl Kept.next kept).text.Sublist (clusters.flatten.reverse ++ kept.text) := by
  induction clusters generalizing kept with
  | nil => exact List.Sublist.refl _
  | cons cluster others ih =>
      rw [List.foldl_cons, List.flatten_cons, List.reverse_append, List.append_assoc]
      exact (ih _).trans ((List.Sublist.refl _).append (kept.next_sublist cluster))

/-- Every character of an edited line was typed, in the same order. -/
theorem apply_sublist (line : List Char) : (apply line).Sublist line := by
  rw [apply]
  split
  · have hkept := foldl_next_sublist (Cluster.split line) ⟨[], []⟩
    rw [Cluster.flatten_split, List.append_nil] at hkept
    rw [← List.reverse_sublist, List.reverse_reverse]
    exact hkept
  · exact List.Sublist.refl line

end Backspace
end LoxLexer
