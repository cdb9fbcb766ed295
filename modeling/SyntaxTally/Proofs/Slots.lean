import Mathlib.Algebra.BigOperators.Group.List.Basic
import Mathlib.Data.List.Perm.Basic

/-!
# Lists of which one place changes

Threads and workers are kept in lists, and a step changes the one at a place. What is gathered from all of
them changes by what that one held before and holds after.
-/
namespace SyntaxTally

variable {α β : Type} {items : List α} {i : Nat} {old : α}

theorem split_at_slot (held : items[i]? = some old) :
    ∃ before after, items = before ++ old :: after ∧ ∀ new, items.set i new = before ++ new :: after := by
  obtain ⟨inside, same⟩ := List.getElem?_eq_some_iff.mp held
  refine ⟨items.take i, items.drop (i + 1), ?_, fun new => ?_⟩
  · rw [← same, List.getElem_cons_drop, List.take_append_drop]
  · rw [List.set_eq_take_append_cons_drop, if_pos inside]

theorem flatMap_set_perm (gather : α → List β) (held : items[i]? = some old) (new : α) :
    (gather old ++ (items.set i new).flatMap gather).Perm (gather new ++ items.flatMap gather) := by
  classical
  obtain ⟨before, after, whole, changed⟩ := split_at_slot held
  rw [List.perm_iff_count]
  intro item
  rw [changed, whole]
  simp only [List.flatMap_append, List.flatMap_cons, List.count_append]
  omega

theorem countP_set_add (holds : α → Bool) (held : items[i]? = some old) (new : α) :
    (items.set i new).countP holds + (if holds old then 1 else 0) =
      items.countP holds + if holds new then 1 else 0 := by
  obtain ⟨before, after, whole, changed⟩ := split_at_slot held
  rw [changed, whole]
  simp only [List.countP_append, List.countP_cons]
  omega

theorem sum_map_set_add {M : Type} [AddCommMonoid M] (value : α → M) (held : items[i]? = some old) (new : α) :
    ((items.set i new).map value).sum + value old = (items.map value).sum + value new := by
  obtain ⟨before, after, whole, changed⟩ := split_at_slot held
  rw [changed, whole]
  simp only [List.map_append, List.map_cons, List.sum_append, List.sum_cons]
  ac_rfl

theorem sum_map_set {M : Type} [AddCommMonoid M] (value : α → M) (held : items[i]? = some old) {new : α}
    {gain : M} (gains : value new = value old + gain) :
    ((items.set i new).map value).sum = (items.map value).sum + gain := by
  obtain ⟨before, after, whole, changed⟩ := split_at_slot held
  rw [changed, whole]
  simp only [List.map_append, List.map_cons, List.sum_append, List.sum_cons, gains]
  rw [add_right_comm (value old) gain, add_assoc (before.map value).sum]

/-- What holds of all items and of the new one holds after the change. -/
theorem forall_mem_set {holds : α → Prop} (all : ∀ item ∈ items, holds item) {new : α} (fresh : holds new) :
    ∀ item ∈ items.set i new, holds item := by
  intro item member
  rcases List.mem_or_eq_of_mem_set member with old | rfl
  · exact all item old
  · exact fresh

theorem mem_set_of_ne (held : items[i]? = some old) {item : α} (member : item ∈ items) (other : item ≠ old)
    {new : α} :
    item ∈ items.set i new := by
  obtain ⟨before, after, whole, changed⟩ := split_at_slot held
  have kept : item ∈ before ∨ item ∈ after := by simpa [whole, other] using member
  rw [changed, List.mem_append, List.mem_cons]
  exact kept.imp_right .inr

end SyntaxTally
