import Mathlib

/-!
# Sums over lists that change in place

How a sum over a list moves when one element is replaced, or when elements that
add nothing are dropped.
-/

namespace StreamlingPlugins

variable {α : Type}

/-- Replacing an element changes a sum by what the two contribute. -/
theorem sum_map_set {l : List α} {i : Nat} {old : α} (found : l[i]? = some old) (f : α → Nat)
    (new : α) : ((l.set i new).map f).sum + f old = (l.map f).sum + f new := by
  induction l generalizing i with
  | nil => cases found
  | cons a l ih =>
      cases i with
      | zero =>
          cases found
          simp only [List.set_cons_zero, List.map_cons, List.sum_cons]
          omega
      | succ i =>
          have rest := ih (i := i) found
          simp only [List.set_cons_succ, List.map_cons, List.sum_cons]
          omega

/-- Replacing an element by itself. -/
theorem set_of_getElem? {l : List α} {i : Nat} {a : α} (found : l[i]? = some a) :
    l.set i a = l := by
  obtain ⟨bound, rfl⟩ := List.getElem?_eq_some_iff.mp found
  exact List.set_getElem_self bound

/-- Dropping elements that add nothing leaves a sum. -/
theorem sum_map_filter {l : List α} {p : α → Bool} {f : α → Nat}
    (nothing : ∀ a ∈ l, p a = false → f a = 0) : ((l.filter p).map f).sum = (l.map f).sum := by
  induction l with
  | nil => rfl
  | cons a l ih =>
      obtain ⟨head, rest⟩ := List.forall_mem_cons.mp nothing
      cases kept : p a with
      | true => rw [List.filter_cons_of_pos kept, List.map_cons, List.map_cons, List.sum_cons,
          List.sum_cons, ih rest]
      | false =>
          have dropped : ¬ p a = true := by simp [kept]
          rw [List.filter_cons_of_neg dropped, ih rest, List.map_cons, List.sum_cons, head kept,
            Nat.zero_add]

end StreamlingPlugins
