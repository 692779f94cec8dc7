import Mathlib

/-!
# Grouping by key

A map from keys to the values pushed under them, as `entry(key).or_default().push(value)`
builds it, kept as a table in order of first use.
-/

namespace StreamlingPlugins

variable {K V : Type*} [DecidableEq K]

/-- `groups.entry(key).or_default().push(value)`. -/
def pushGroup (key : K) (value : V) : List (K × List V) → List (K × List V)
  | [] => [(key, [value])]
  | (k, values) :: groups =>
    if k = key then (k, values ++ [value]) :: groups
    else (k, values) :: pushGroup key value groups

/-- The order in which a hash map lists its entries. -/
structure IterationOrder (α : Type*) where
  arrange : List α → List α
  perm : ∀ entries, (arrange entries).Perm entries

/-- The values of the items with a key, in order. -/
def valuesOf (key : K) (items : List (K × V)) : List V :=
  (items.filter fun item => item.1 = key).map Prod.snd

/-- The groups list every key of the items once, with its values. -/
structure Grouped (items : List (K × V)) (groups : List (K × List V)) : Prop where
  nodup : (groups.map Prod.fst).Nodup
  values : ∀ group ∈ groups, group.2 = valuesOf group.1 items
  mem_keys : ∀ key, key ∈ groups.map Prod.fst ↔ ∃ value, (key, value) ∈ items

theorem keys_pushGroup (key : K) (value : V) (groups : List (K × List V)) :
    (pushGroup key value groups).map Prod.fst =
      if key ∈ groups.map Prod.fst then groups.map Prod.fst
      else groups.map Prod.fst ++ [key] := by
  induction groups with
  | nil => rfl
  | cons group groups ih =>
      obtain ⟨k, values⟩ := group
      unfold pushGroup
      by_cases same : k = key
      · simp [same]
      · rw [if_neg same, List.map_cons, ih]
        simp only [List.map_cons, List.mem_cons, Ne.symm same, false_or]
        split <;> rfl

/-- A pushed value is last among those of its key. -/
theorem mem_pushGroup {key : K} {value : V} {groups : List (K × List V)}
    (nodup : (groups.map Prod.fst).Nodup) {group : K × List V}
    (mem : group ∈ pushGroup key value groups) :
    (group.1 ≠ key ∧ group ∈ groups) ∨
      (group.1 = key ∧ (∃ values, (key, values) ∈ groups ∧ group.2 = values ++ [value]) ∨
        group = (key, [value]) ∧ key ∉ groups.map Prod.fst) := by
  induction groups with
  | nil =>
      simp only [pushGroup, List.mem_singleton] at mem
      simp [mem]
  | cons first groups ih =>
      obtain ⟨k, values⟩ := first
      rw [List.map_cons, List.nodup_cons] at nodup
      unfold pushGroup at mem
      by_cases same : k = key
      · rw [if_pos same] at mem
        rcases List.mem_cons.mp mem with rfl | later
        · exact .inr (.inl ⟨same, values, by simp [same], rfl⟩)
        · refine .inl ⟨?_, List.mem_cons_of_mem _ later⟩
          rintro rfl
          exact nodup.1 (List.mem_map.mpr ⟨group, later, same.symm⟩)
      · rw [if_neg same] at mem
        rcases List.mem_cons.mp mem with rfl | later
        · exact .inl ⟨same, List.mem_cons_self⟩
        · rcases ih nodup.2 later with ⟨other, old⟩ | ⟨here, values', old, eq⟩ | ⟨new, absent⟩
          · exact .inl ⟨other, List.mem_cons_of_mem _ old⟩
          · exact .inr (.inl ⟨here, values', List.mem_cons_of_mem _ old, eq⟩)
          · refine .inr (.inr ⟨new, ?_⟩)
            simp only [List.map_cons, List.mem_cons, not_or]
            exact ⟨Ne.symm same, absent⟩

theorem Grouped.nil : Grouped ([] : List (K × V)) [] :=
  ⟨List.nodup_nil, by simp, by simp⟩

theorem Grouped.push {items : List (K × V)} {groups : List (K × List V)}
    (grouped : Grouped items groups) (key : K) (value : V) :
    Grouped (items ++ [(key, value)]) (pushGroup key value groups) := by
  refine ⟨?_, ?_, ?_⟩
  · rw [keys_pushGroup]
    split
    · exact grouped.nodup
    · rename_i absent
      exact List.nodup_append.mpr ⟨grouped.nodup, List.nodup_singleton key, by
        rintro k known _ (_ | ⟨_, none⟩) rfl
        · exact absent known
        · cases none⟩
  · intro group mem
    rcases mem_pushGroup grouped.nodup mem with
      ⟨other, old⟩ | ⟨here, values, old, eq⟩ | ⟨rfl, absent⟩
    · rw [grouped.values group old]
      simp [valuesOf, Ne.symm other]
    · have old_eq : values = valuesOf key items := grouped.values (key, values) old
      rw [eq, here, old_eq]
      simp [valuesOf]
    · have nothing : valuesOf key items = [] := by
        simp only [valuesOf, List.map_eq_nil_iff, List.filter_eq_nil_iff, decide_eq_true_eq]
        rintro ⟨k, v⟩ item rfl
        exact absent ((grouped.mem_keys _).mpr ⟨v, item⟩)
      rw [valuesOf] at nothing ⊢
      simp [List.filter_append, nothing]
  · intro k
    rw [keys_pushGroup]
    have known := grouped.mem_keys k
    split
    · rename_i present
      have present' := (grouped.mem_keys key).mp present
      rw [known]
      simp only [List.mem_append, List.mem_singleton, Prod.mk.injEq]
      grind
    · rw [List.mem_append, known, List.mem_singleton]
      simp only [List.mem_append, List.mem_singleton, Prod.mk.injEq]
      grind

end StreamlingPlugins
