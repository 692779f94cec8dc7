import StreamlingPlugins.Changelog

/-!
# Ordered maps as tables

`entries` reads an ordered map as a table, so that a sequence of insertions and
removals is a changelog and its result is read off by `Change.replay_apply`.
`versions` does the same for a map of maps, and `ext_versions` says when it
determines the map.
-/

namespace StreamlingPlugins

universe u v w

open Std

/-- An ordered map. -/
abbrev BTreeMap (K : Type u) (V : Type v) [Ord K] := ExtTreeMap K V

namespace BTreeMap

variable {K : Type u} {L : Type v} {V : Type w} [Ord K] [TransOrd K] [LawfulEqOrd K]
  [Ord L] [TransOrd L] [LawfulEqOrd L]

/-- A map as a table. -/
def entries (m : BTreeMap K V) : Table K V := fun k => m[k]?

/-- The last entry at or before a bound, as `range(..=bound).next_back()` finds it. -/
def lastUpTo (m : BTreeMap K V) (bound : K) : Option (K × V) :=
  (m.toList.filter fun entry => (compare entry.1 bound).isLE).getLast?

theorem getElem?_of_lastUpTo {m : BTreeMap K V} {bound : K} {entry : K × V}
    (found : m.lastUpTo bound = some entry) :
    m[entry.1]? = some entry.2 ∧ (compare entry.1 bound).isLE := by
  have member := List.mem_of_getLast? found
  rw [List.mem_filter] at member
  exact ⟨ExtTreeMap.mem_toList_iff_getElem?_eq_some.mp member.1, member.2⟩

theorem lastUpTo_eq_none_iff {m : BTreeMap K V} {bound : K} :
    m.lastUpTo bound = none ↔ ∀ k v, m[k]? = some v → ¬ (compare k bound).isLE := by
  simp only [lastUpTo, List.getLast?_eq_none_iff, List.filter_eq_nil_iff, Prod.forall,
    ExtTreeMap.mem_toList_iff_getElem?_eq_some]

/-- The entry found is the last one at or before the bound. -/
theorem le_of_lastUpTo {m : BTreeMap K V} {bound k : K} {entry : K × V} {v : V}
    (found : m.lastUpTo bound = some entry) (present : m[k]? = some v)
    (within : (compare k bound).isLE) : (compare k entry.1).isLE := by
  have member : (k, v) ∈ m.toList.filter fun entry => (compare entry.1 bound).isLE :=
    List.mem_filter.mpr ⟨ExtTreeMap.mem_toList_iff_getElem?_eq_some.mpr present, within⟩
  have ordered : (m.toList.filter fun entry => (compare entry.1 bound).isLE).Pairwise
      fun a b => compare a.1 b.1 = .lt :=
    ExtTreeMap.ordered_keys_toList.filter _
  obtain ⟨before, split⟩ := List.getLast?_eq_some_iff.mp found
  rw [split] at member ordered
  rcases List.mem_append.mp member with earlier | last
  · have less := (List.pairwise_append.mp ordered).2.2 _ earlier entry List.mem_cons_self
    rw [less]
    rfl
  · cases List.mem_singleton.mp last
    simp

/-- Dropping entries other than the last one up to a bound leaves it the last one. -/
theorem lastUpTo_filter {m : BTreeMap K V} {p : K → V → Bool} {bound : K}
    (kept : ∀ entry, m.lastUpTo bound = some entry → p entry.1 entry.2) :
    BTreeMap.lastUpTo (m.filter p) bound = m.lastUpTo bound := by
  cases last : m.lastUpTo bound with
  | none =>
      refine lastUpTo_eq_none_iff.mpr fun k v present => ?_
      rw [ExtTreeMap.getElem?_filter'] at present
      exact lastUpTo_eq_none_iff.mp last k v (Option.filter_eq_some_iff.mp present).1
  | some entry =>
      obtain ⟨before, split⟩ := List.getLast?_eq_some_iff.mp last
      have last_kept := kept entry last
      unfold lastUpTo
      rw [ExtTreeMap.toList_filter, List.filter_filter]
      simp only [Bool.and_comm]
      rw [← List.filter_filter, split]
      simp [last_kept]

omit [LawfulEqOrd K] in
theorem entries_empty : entries (∅ : BTreeMap K V) = fun _ => none :=
  funext fun _ => ExtTreeMap.getElem?_empty

/-! ## Maps of maps -/

/-- A map of maps as a table of pairs. -/
def versions (m : BTreeMap K (BTreeMap L V)) : Table (K × L) V :=
  fun k => m[k.1]?.bind fun inner => inner[k.2]?

/-- Inserts into the inner map of a key, which starts out empty. -/
def insertVersion (m : BTreeMap K (BTreeMap L V)) (k : K) (l : L) (v : V) :
    BTreeMap K (BTreeMap L V) :=
  m.insert k ((m[k]?.getD ∅).insert l v)

/-- No key holds an empty inner map. -/
def NoneEmpty (m : BTreeMap K (BTreeMap L V)) : Prop :=
  ∀ (k : K) (inner : BTreeMap L V), m[k]? = some inner → inner ≠ ∅

omit [LawfulEqOrd K] [LawfulEqOrd L] in
theorem NoneEmpty.insertVersion {m : BTreeMap K (BTreeMap L V)} (filled : NoneEmpty m) (k : K)
    (l : L) (v : V) : NoneEmpty (m.insertVersion k l v) := by
  intro i inner held
  unfold BTreeMap.insertVersion at held
  rw [ExtTreeMap.getElem?_insert] at held
  split at held
  · obtain rfl := Option.some.inj held
    intro empty
    have found : ((m[k]?.getD ∅).insert l v)[l]? = some v := ExtTreeMap.getElem?_insert_self
    rw [empty] at found
    simp at found
  · exact filled i inner held

/-- A map of maps without empty inner maps is determined by its versions. -/
theorem ext_versions {m n : BTreeMap K (BTreeMap L V)} (filled : NoneEmpty m)
    (filled' : NoneEmpty n) (same : versions m = versions n) : m = n := by
  have empty_of {p : BTreeMap L V} (absent : ∀ j : L, p[j]? = none) : p = ∅ :=
    ExtTreeMap.ext_getElem? fun j => by simpa using absent j
  refine ExtTreeMap.ext_getElem? fun i => ?_
  have at_i (j : L) : (m[i]?.bind fun inner => inner[j]?) = n[i]?.bind fun inner => inner[j]? :=
    congrFun same (i, j)
  cases left : m[i]? with
  | none =>
      cases right : n[i]? with
      | none => rfl
      | some q =>
          simp only [left, right, Option.bind_none, Option.bind_some] at at_i
          exact absurd (empty_of fun j => (at_i j).symm) (filled' i q right)
  | some p =>
      cases right : n[i]? with
      | none =>
          simp only [left, right, Option.bind_none, Option.bind_some] at at_i
          exact absurd (empty_of at_i) (filled i p left)
      | some q =>
          simp only [left, right, Option.bind_some] at at_i
          exact congrArg some (ExtTreeMap.ext_getElem? at_i)

omit [LawfulEqOrd K] [LawfulEqOrd L] in
theorem NoneEmpty.foldl_insertVersion {E : Type*} (list : List E) (key : E → K) (ver : E → L)
    (value : E → V) {m : BTreeMap K (BTreeMap L V)} (filled : NoneEmpty m) :
    NoneEmpty (list.foldl (fun m e => m.insertVersion (key e) (ver e) (value e)) m) := by
  induction list generalizing m with
  | nil => exact filled
  | cons e list ih => exact ih (NoneEmpty.insertVersion filled _ _ _)

/-- The values of a map of maps, in order. -/
def flatValues (m : BTreeMap K (BTreeMap L V)) : List V :=
  m.toList.flatMap fun outer => outer.2.toList.map Prod.snd

omit [LawfulEqOrd K] [LawfulEqOrd L] in
theorem length_flatValues (m : BTreeMap K (BTreeMap L V)) :
    m.flatValues.length = (m.toList.map fun outer => outer.2.toList.length).sum := by
  simp [flatValues, List.length_flatMap]

theorem mem_flatValues {m : BTreeMap K (BTreeMap L V)} {v : V} :
    v ∈ flatValues m ↔ ∃ k, versions m k = some v := by
  simp only [flatValues, List.mem_flatMap, List.mem_map, versions, Option.bind_eq_some_iff]
  constructor
  · rintro ⟨⟨i, inner⟩, outer, ⟨j, v⟩, found, rfl⟩
    exact ⟨(i, j), inner, ExtTreeMap.mem_toList_iff_getElem?_eq_some.mp outer,
      ExtTreeMap.mem_toList_iff_getElem?_eq_some.mp found⟩
  · rintro ⟨⟨i, j⟩, inner, outer, found⟩
    exact ⟨(i, inner), ExtTreeMap.mem_toList_iff_getElem?_eq_some.mpr outer, (j, v),
      ExtTreeMap.mem_toList_iff_getElem?_eq_some.mpr found, rfl⟩

/-! ## Folds as replays -/

variable [DecidableEq K] [DecidableEq L]

theorem entries_insert (m : BTreeMap K V) (k : K) (v : V) :
    entries (m.insert k v) = Change.apply (entries m) ⟨k, some v⟩ := by
  funext i
  by_cases same : i = k
  · subst same
    rw [Change.apply_self]
    exact ExtTreeMap.getElem?_insert_self
  · rw [Change.apply_of_ne _ same]
    simp [entries, ExtTreeMap.getElem?_insert, Ne.symm same]

/-- A fold of insertions replays them. -/
theorem entries_foldl_insert {E : Type*} (l : List E) (key : E → K) (value : E → V)
    (m : BTreeMap K V) :
    entries (l.foldl (fun m e => m.insert (key e) (value e)) m) =
      Change.replay (entries m) (l.map fun e => ⟨key e, some (value e)⟩) := by
  induction l generalizing m with
  | nil => rfl
  | cons e l ih =>
      rw [List.foldl_cons, ih, entries_insert]
      rfl

theorem versions_insertVersion (m : BTreeMap K (BTreeMap L V)) (k : K) (l : L) (v : V) :
    versions (m.insertVersion k l v) = Change.apply (versions m) ⟨(k, l), some v⟩ := by
  funext ⟨i, j⟩
  by_cases outer : i = k
  · subst outer
    by_cases inner : j = l
    · subst inner
      rw [Change.apply_self]
      simp [versions, insertVersion]
    · rw [Change.apply_of_ne _ (by simp [inner])]
      cases held : m[i]? with
      | none => simp [versions, insertVersion, held, Ne.symm inner]
      | some versionsOf =>
          simp [versions, insertVersion, ExtTreeMap.getElem?_insert, held, Ne.symm inner]
  · rw [Change.apply_of_ne _ (by simp [outer])]
    simp [versions, insertVersion, ExtTreeMap.getElem?_insert, Ne.symm outer]

/-- Insertions that agree with a table and cover its keys build it. -/
theorem foldl_insert_getElem? {E : Type*} {l : List E} {key : E → K} {value : E → V}
    {t : Table K V} (agree : ∀ e ∈ l, t (key e) = some (value e))
    (complete : ∀ k, t k ≠ none → ∃ e ∈ l, key e = k) (k : K) :
    (l.foldl (fun (m : BTreeMap K V) e => m.insert (key e) (value e)) ∅)[k]? = t k := by
  have replayed := entries_foldl_insert l key value ∅
  rw [entries_empty, Change.replay_eq_of_agree (t := t)] at replayed
  · exact congrFun replayed k
  · intro c member
    obtain ⟨e, present, rfl⟩ := List.mem_map.mp member
    exact agree e present
  · intro k held
    obtain ⟨e, present, rfl⟩ := complete k held
    exact ⟨_, List.mem_map_of_mem present, rfl⟩

/-- A fold of versioned insertions replays them. -/
theorem versions_foldl_insertVersion {E : Type*} (list : List E) (key : E → K) (ver : E → L)
    (value : E → V) (m : BTreeMap K (BTreeMap L V)) :
    versions (list.foldl (fun m e => m.insertVersion (key e) (ver e) (value e)) m) =
      Change.replay (versions m) (list.map fun e => ⟨(key e, ver e), some (value e)⟩) := by
  induction list generalizing m with
  | nil => rfl
  | cons e list ih =>
      rw [List.foldl_cons, ih, versions_insertVersion]
      rfl

/-- Versioned insertions that agree with a table and cover its keys build it. -/
theorem versions_foldl_insertVersion_eq {E : Type*} {list : List E} {key : E → K} {ver : E → L}
    {value : E → V} {t : Table (K × L) V}
    (agree : ∀ e ∈ list, t (key e, ver e) = some (value e))
    (complete : ∀ k, t k ≠ none → ∃ e ∈ list, (key e, ver e) = k) :
    versions (list.foldl (fun m e => m.insertVersion (key e) (ver e) (value e)) ∅) = t := by
  have none_yet : versions (∅ : BTreeMap K (BTreeMap L V)) = fun _ => none := by
    funext k
    simp [versions]
  rw [versions_foldl_insertVersion, none_yet]
  refine Change.replay_eq_of_agree (fun c member => ?_) fun k held => ?_
  · obtain ⟨e, present, rfl⟩ := List.mem_map.mp member
    exact agree e present
  · obtain ⟨e, present, rfl⟩ := complete k held
    exact ⟨_, List.mem_map_of_mem present, rfl⟩

end BTreeMap

end StreamlingPlugins
