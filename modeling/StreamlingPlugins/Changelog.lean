import Mathlib

/-!
# Keyed tables and changelogs

A table holds at most one value per key, a change sets or removes the value of
one key, and a changelog is replayed from left to right.  `replay_apply` is the
characterization every argument about replays reduces to: the last change of a
key decides its value, and without one the initial value stays.
-/

namespace StreamlingPlugins

universe u v w

/-- A keyed table: a key is absent or holds one value. -/
abbrev Table (K : Type u) (V : Type v) := K → Option V

/-- The change of one key to a new image; the image `none` removes the key. -/
structure Change (K : Type u) (V : Type v) where
  key : K
  image : Option V
  deriving DecidableEq

namespace Change

variable {K : Type u} {V : Type v} {W : Type w} [DecidableEq K]

/-- The changed key takes the image, every other key keeps its value. -/
def apply (t : Table K V) (c : Change K V) : Table K V :=
  Function.update t c.key c.image

theorem apply_self (t : Table K V) (c : Change K V) : c.apply t c.key = c.image :=
  Function.update_self ..

theorem apply_of_ne (t : Table K V) {c : Change K V} {k : K} (other : k ≠ c.key) :
    c.apply t k = t k :=
  Function.update_of_ne other ..

/-- Replay a changelog from left to right. -/
def replay (t : Table K V) (changes : List (Change K V)) : Table K V :=
  changes.foldl apply t

@[simp] theorem replay_nil (t : Table K V) : replay t [] = t := rfl

@[simp] theorem replay_cons (t : Table K V) (c : Change K V) (cs : List (Change K V)) :
    replay t (c :: cs) = replay (c.apply t) cs := rfl

theorem replay_append (t : Table K V) (cs ds : List (Change K V)) :
    replay t (cs ++ ds) = replay (replay t cs) ds :=
  List.foldl_append ..

theorem replay_concat (t : Table K V) (cs : List (Change K V)) (c : Change K V) :
    replay t (cs ++ [c]) = c.apply (replay t cs) := by
  rw [replay_append]
  rfl

/-- The last change of `k` in a changelog. -/
def lastFor (k : K) (changes : List (Change K V)) : Option (Change K V) :=
  (changes.filter (·.key = k)).getLast?

/-- The last change of a key decides its value; without one the initial value
stays. -/
theorem replay_apply (t : Table K V) (changes : List (Change K V)) (k : K) :
    replay t changes k = ((lastFor k changes).map image).getD (t k) := by
  induction changes using List.reverseRecOn with
  | nil => rfl
  | append_singleton cs c ih =>
      rw [replay_concat]
      by_cases same : c.key = k
      · subst same
        rw [apply_self]
        simp [lastFor]
      · rw [apply_of_ne _ (Ne.symm same), ih]
        simp [lastFor, same]

/-- Replaying a changelog once more changes nothing. -/
theorem replay_replay (t : Table K V) (changes : List (Change K V)) :
    replay (replay t changes) changes = replay t changes := by
  funext k
  rw [replay_apply, replay_apply]
  cases lastFor k changes with
  | none => rfl
  | some c => rfl

/-- A key no change names keeps its value. -/
theorem replay_of_forall_ne (t : Table K V) {changes : List (Change K V)} {k : K}
    (untouched : ∀ c ∈ changes, c.key ≠ k) : replay t changes k = t k := by
  have empty : lastFor k changes = none := by
    simpa [lastFor] using untouched
  rw [replay_apply, empty]
  rfl

/-- Removals remove exactly their keys. -/
theorem replay_removals (t : Table K V) (keys : List K) (k : K) :
    replay t (keys.map fun key => ⟨key, none⟩) k = if k ∈ keys then none else t k := by
  induction keys generalizing t with
  | nil => simp
  | cons key keys ih =>
      rw [List.map_cons, replay_cons, ih]
      by_cases same : k = key
      · subst same
        have removed : (⟨k, none⟩ : Change K V).apply t k = none := apply_self t ⟨k, none⟩
        simp [removed]
      · rw [apply_of_ne _ same]
        simp [same]

/-- A changelog whose changes all agree with a table, and that names every key the
table holds, replays to it. -/
theorem replay_eq_of_agree {t : Table K V} {changes : List (Change K V)}
    (agree : ∀ c ∈ changes, t c.key = c.image)
    (complete : ∀ k, t k ≠ none → ∃ c ∈ changes, c.key = k) :
    replay (fun _ => none) changes = t := by
  funext k
  rw [replay_apply]
  cases last : lastFor k changes with
  | none =>
      by_contra held
      obtain ⟨c, member, same⟩ := complete k (Ne.symm held)
      simp only [lastFor, List.getLast?_eq_none_iff, List.filter_eq_nil_iff,
        decide_eq_true_eq] at last
      exact last c member same
  | some c =>
      have member := List.mem_of_getLast? last
      rw [List.mem_filter, decide_eq_true_eq] at member
      obtain ⟨member, rfl⟩ := member
      exact (agree c member).symm

end Change

end StreamlingPlugins
