import StreamlingPlugins.KeyedMap

/-!
# Markers and finalizers

A checkpoint marker reads a value and records it under its epoch; the finalizer of an epoch
takes the value recorded for it, drops those of earlier epochs, and stores it.  Reading and
recording are two steps, and so are taking and storing.
-/

namespace StreamlingPlugins

structure Checkpointing (Value : Type) where
  /-- Read by markers that did not record it yet. -/
  loaded : List (Nat × Value)
  pending : BTreeMap Nat Value
  /-- Taken by finalizers that did not store it yet. -/
  storing : List (Nat × Value)
  stored : Option Value

namespace Checkpointing

variable {Value : Type}

/-- What a backend holds at the start of a run. -/
def restored (stored : Option Value) : Checkpointing Value := ⟨[], ∅, [], stored⟩

def load (epoch : Nat) (value : Value) (self : Checkpointing Value) : Checkpointing Value :=
  { self with loaded := self.loaded ++ [(epoch, value)] }

/-- The marker at an index records its value. -/
def record (i : Nat) (self : Checkpointing Value) : Option (Checkpointing Value) :=
  self.loaded[i]?.map fun entry =>
    { self with loaded := self.loaded.eraseIdx i, pending := self.pending.insert entry.1 entry.2 }

def finalize (epoch : Nat) (self : Checkpointing Value) : Checkpointing Value :=
  { self with
    pending := (self.pending.erase epoch).filter fun recorded _ => epoch ≤ recorded
    storing := self.storing ++ (self.pending[epoch]?.map fun value => (epoch, value)).toList }

/-- The finalizer at an index stores its value, or fails to. -/
def store (i : Nat) (succeeds : Bool) (self : Checkpointing Value) :
    Option (Checkpointing Value × Option Value) :=
  self.storing[i]?.map fun entry =>
    if succeeds then
      ({ self with storing := self.storing.eraseIdx i, stored := some entry.2 }, some entry.2)
    else ({ self with storing := self.storing.eraseIdx i }, none)

/-! ## Where values come from -/

/-- What holds of every value on its way to the backend. -/
structure All (P : Nat → Value → Prop) (c : Checkpointing Value) : Prop where
  loaded : ∀ entry ∈ c.loaded, P entry.1 entry.2
  pending : ∀ (epoch : Nat) (value : Value), c.pending[epoch]? = some value → P epoch value
  storing : ∀ entry ∈ c.storing, P entry.1 entry.2

variable {P P' : Nat → Value → Prop} {c c' : Checkpointing Value} {epoch i : Nat} {value : Value}

theorem all_restored (stored : Option Value) : All P (restored stored) :=
  ⟨nofun, fun epoch value recorded => by simp [restored] at recorded, nofun⟩

theorem All.mono (all : All P c) (weaker : ∀ epoch value, P epoch value → P' epoch value) :
    All P' c :=
  ⟨fun entry member => weaker _ _ (all.loaded entry member),
    fun epoch value recorded => weaker _ _ (all.pending epoch value recorded),
    fun entry member => weaker _ _ (all.storing entry member)⟩

theorem All.load (all : All P c) (holds : P epoch value) : All P (c.load epoch value) := by
  refine ⟨fun entry member => ?_, all.pending, all.storing⟩
  rcases List.mem_append.mp member with before | new
  · exact all.loaded entry before
  · obtain rfl := List.mem_singleton.mp new
    exact holds

theorem All.record (all : All P c) (taken : c.record i = some c') : All P c' := by
  obtain ⟨entry, at_i, rfl⟩ := Option.map_eq_some_iff.mp taken
  refine ⟨fun other member => all.loaded other (List.mem_of_mem_eraseIdx member),
    fun epoch value recorded => ?_, all.storing⟩
  dsimp only at recorded
  rw [Std.ExtTreeMap.getElem?_insert] at recorded
  split at recorded
  · rename_i same
    obtain rfl := Std.compare_eq_iff_eq.mp same
    obtain rfl := Option.some.inj recorded
    exact all.loaded entry (List.mem_of_getElem? at_i)
  · exact all.pending epoch value recorded

theorem All.finalize (all : All P c) : All P (c.finalize epoch) := by
  refine ⟨all.loaded, fun recorded value held => ?_, fun entry member => ?_⟩
  · rw [Checkpointing.finalize, Std.ExtTreeMap.getElem?_filter',
      Option.filter_eq_some_iff, Std.ExtTreeMap.getElem?_erase] at held
    obtain ⟨held, -⟩ := held
    split at held
    · cases held
    · exact all.pending recorded value held
  · rcases List.mem_append.mp member with before | new
    · exact all.storing entry before
    · obtain ⟨value, held, rfl⟩ := Option.map_eq_some_iff.mp (Option.mem_toList.mp new)
      exact all.pending epoch value held

/-- What is stored was on its way. -/
theorem All.store {succeeds : Bool} {result : Option Value} (all : All P c)
    (taken : c.store i succeeds = some (c', result)) :
    All P c' ∧ (∀ value ∈ result, ∃ epoch, P epoch value) ∧
      c'.stored = result.or c.stored := by
  obtain ⟨entry, at_i, moved⟩ := Option.map_eq_some_iff.mp taken
  have rest : ∀ other ∈ c.storing.eraseIdx i, P other.1 other.2 := fun other member =>
    all.storing other (List.mem_of_mem_eraseIdx member)
  cases succeeds with
  | true =>
      cases moved
      refine ⟨⟨all.loaded, all.pending, rest⟩, ?_, rfl⟩
      rintro value ⟨⟩
      exact ⟨entry.1, all.storing entry (List.mem_of_getElem? at_i)⟩
  | false =>
      cases moved
      exact ⟨⟨all.loaded, all.pending, rest⟩, nofun, rfl⟩

/-! ## Values in order -/

/-- A value that is recorded, or was read and is not yet recorded. -/
def Waiting (c : Checkpointing Value) (value : Value) : Prop :=
  (∃ epoch : Nat, c.pending[epoch]? = some value) ∨ ∃ entry ∈ c.loaded, entry.2 = value

/-- An epoch after all that are waiting. -/
def LaterEpoch (c : Checkpointing Value) (epoch : Nat) : Prop :=
  (∀ entry ∈ c.loaded, entry.1 < epoch) ∧
    ∀ recorded : Nat, (c.pending[recorded]?).isSome → recorded < epoch

/-- The values from the backend to the last one read go up. -/
structure Ascending (R : Value → Value → Prop) (c : Checkpointing Value) : Prop where
  stored : ∀ value ∈ c.stored,
    (∀ entry ∈ c.storing, R value entry.2) ∧ ∀ later, c.Waiting later → R value later
  storing : c.storing.Pairwise fun a b => R a.2 b.2
  storing_waiting : ∀ entry ∈ c.storing, ∀ later, c.Waiting later → R entry.2 later
  pending : ∀ (e e' : Nat) (value later : Value), c.pending[e]? = some value →
    c.pending[e']? = some later → e < e' → R value later
  pending_loaded : ∀ (e : Nat) (value : Value), c.pending[e]? = some value →
    ∀ entry ∈ c.loaded, e < entry.1 ∧ R value entry.2
  loaded : c.loaded.Pairwise fun a b => a.1 < b.1 ∧ R a.2 b.2

variable {R : Value → Value → Prop}

theorem ascending_restored (stored : Option Value) : Ascending R (restored stored) := by
  have nothing (later : Value) : ¬ (restored stored).Waiting later := by
    rintro (⟨epoch, recorded⟩ | ⟨entry, member, -⟩)
    · simp [restored] at recorded
    · cases member
  refine ⟨fun value _ => ⟨nofun, fun later waiting => absurd waiting (nothing later)⟩, .nil, nofun,
    fun e e' value later recorded => ?_, fun e value recorded => ?_, .nil⟩ <;>
    simp [restored] at recorded

/-- A marker reads a value no smaller than all on their way. -/
theorem Ascending.load (ascending : Ascending R c) (all : c.All fun _ before => R before value)
    (stored : ∀ before ∈ c.stored, R before value) (later : c.LaterEpoch epoch) :
    Ascending R (c.load epoch value) := by
  have waiting {other : Value} (is_waiting : (c.load epoch value).Waiting other) :
      c.Waiting other ∨ other = value := by
    rcases is_waiting with recorded | ⟨entry, member, rfl⟩
    · exact .inl (.inl recorded)
    · rcases List.mem_append.mp member with before | new
      · exact .inl (.inr ⟨entry, before, rfl⟩)
      · exact .inr (by rw [List.mem_singleton.mp new])
  refine ⟨fun first held => ⟨(ascending.stored first held).1, fun other is_waiting => ?_⟩,
    ascending.storing, fun entry member other is_waiting => ?_, ascending.pending,
    fun e first recorded entry member => ?_, ?_⟩
  · rcases waiting is_waiting with before | rfl
    · exact (ascending.stored first held).2 other before
    · exact stored first held
  · rcases waiting is_waiting with before | rfl
    · exact ascending.storing_waiting entry member other before
    · exact all.storing entry member
  · rcases List.mem_append.mp member with before | new
    · exact ascending.pending_loaded e first recorded entry before
    · obtain rfl := List.mem_singleton.mp new
      exact ⟨later.2 e (Option.isSome_iff_exists.mpr ⟨first, recorded⟩),
        all.pending e first recorded⟩
  · refine List.pairwise_append.mpr ⟨ascending.loaded, List.pairwise_singleton _ _, ?_⟩
    intro entry member new new_member
    obtain rfl := List.mem_singleton.mp new_member
    exact ⟨later.1 entry member, all.loaded entry member⟩

/-- The first marker that is not yet recorded records its value. -/
theorem Ascending.record (ascending : Ascending R c) (taken : c.record 0 = some c') :
    Ascending R c' := by
  obtain ⟨entry, first, rfl⟩ := Option.map_eq_some_iff.mp taken
  obtain ⟨rest, loaded⟩ : ∃ rest, c.loaded = entry :: rest := by
    cases entries : c.loaded with
    | nil => simp [entries] at first
    | cons head rest =>
        rw [entries] at first
        exact ⟨rest, by rw [Option.some.inj first]⟩
  have kept : c.loaded.eraseIdx 0 = rest := by rw [loaded]; rfl
  have ordered := ascending.loaded
  rw [loaded, List.pairwise_cons] at ordered
  have now {e : Nat} {value : Value}
      (recorded : (c.pending.insert entry.1 entry.2)[e]? = some value) :
      e = entry.1 ∧ value = entry.2 ∨ c.pending[e]? = some value := by
    rw [Std.ExtTreeMap.getElem?_insert] at recorded
    split at recorded
    · rename_i same
      exact .inl ⟨(Std.compare_eq_iff_eq.mp same).symm, (Option.some.inj recorded).symm⟩
    · exact .inr recorded
  have waiting {other : Value}
      (is_waiting : Waiting { c with
        loaded := c.loaded.eraseIdx 0, pending := c.pending.insert entry.1 entry.2 } other) :
      c.Waiting other := by
    rcases is_waiting with ⟨e, recorded⟩ | ⟨other_entry, member, rfl⟩
    · rcases now recorded with ⟨-, rfl⟩ | before
      · exact .inr ⟨entry, by rw [loaded]; exact List.mem_cons_self, rfl⟩
      · exact .inl ⟨e, before⟩
    · exact .inr ⟨other_entry, List.mem_of_mem_eraseIdx member, rfl⟩
  have before_first {e : Nat} {value : Value} (recorded : c.pending[e]? = some value) :
      e < entry.1 ∧ R value entry.2 :=
    ascending.pending_loaded e value recorded entry (by rw [loaded]; exact List.mem_cons_self)
  refine ⟨fun value held => ⟨(ascending.stored value held).1, fun other is_waiting =>
      (ascending.stored value held).2 other (waiting is_waiting)⟩,
    ascending.storing,
    fun other member later is_waiting => ascending.storing_waiting other member later
      (waiting is_waiting), fun e e' value later recorded recorded' less => ?_,
    fun e value recorded other member => ?_, ?_⟩
  · rcases now recorded with ⟨rfl, rfl⟩ | before
    · rcases now recorded' with ⟨rfl, -⟩ | before'
      · exact absurd less (lt_irrefl _)
      · exact absurd (before_first before').1 (by omega)
    · rcases now recorded' with ⟨rfl, rfl⟩ | before'
      · exact (before_first before).2
      · exact ascending.pending e e' value later before before' less
  · rw [kept] at member
    rcases now recorded with ⟨rfl, rfl⟩ | before
    · exact ordered.1 other member
    · exact ascending.pending_loaded e value before other
        (by rw [loaded]; exact List.mem_cons_of_mem _ member)
  · rw [kept]
    exact ordered.2

theorem Ascending.finalize (ascending : Ascending R c) : Ascending R (c.finalize epoch) := by
  have kept {e : Nat} {value : Value} (recorded : (c.finalize epoch).pending[e]? = some value) :
      c.pending[e]? = some value ∧ epoch < e := by
    rw [Checkpointing.finalize, Std.ExtTreeMap.getElem?_filter', Option.filter_eq_some_iff,
      Std.ExtTreeMap.getElem?_erase] at recorded
    obtain ⟨held, no_earlier⟩ := recorded
    split at held
    · cases held
    · rename_i other
      refine ⟨held, lt_of_le_of_ne (by simpa using no_earlier) ?_⟩
      rintro rfl
      exact other (Std.compare_eq_iff_eq.mpr rfl)
  have waiting {other : Value} (is_waiting : (c.finalize epoch).Waiting other) :
      c.Waiting other := by
    rcases is_waiting with ⟨e, recorded⟩ | loaded
    · exact .inl ⟨e, (kept recorded).1⟩
    · exact .inr loaded
  have taken {entry : Nat × Value} (member : entry ∈ (c.finalize epoch).storing) :
      entry ∈ c.storing ∨ c.pending[epoch]? = some entry.2 := by
    rcases List.mem_append.mp member with before | new
    · exact .inl before
    · obtain ⟨value, held, rfl⟩ := Option.map_eq_some_iff.mp (Option.mem_toList.mp new)
      exact .inr held
  refine ⟨fun value held => ⟨fun entry member => ?_, fun other is_waiting =>
      (ascending.stored value held).2 other (waiting is_waiting)⟩, ?_,
    fun entry member later is_waiting => ?_, fun e e' value later recorded recorded' less =>
      ascending.pending e e' value later (kept recorded).1 (kept recorded').1 less,
    fun e value recorded => ascending.pending_loaded e value (kept recorded).1, ascending.loaded⟩
  · rcases taken member with before | pending
    · exact (ascending.stored value held).1 entry before
    · exact (ascending.stored value held).2 entry.2 (.inl ⟨epoch, pending⟩)
  · refine List.pairwise_append.mpr ⟨ascending.storing, ?_, fun a before b new => ?_⟩
    · cases c.pending[epoch]? <;> simp
    · obtain ⟨value, held, rfl⟩ := Option.map_eq_some_iff.mp (Option.mem_toList.mp new)
      exact ascending.storing_waiting a before value (.inl ⟨epoch, held⟩)
  · rcases taken member with before | pending
    · exact ascending.storing_waiting entry before later (waiting is_waiting)
    · rcases is_waiting with ⟨e, recorded⟩ | ⟨other, loaded, rfl⟩
      · exact ascending.pending epoch e entry.2 later pending (kept recorded).1 (kept recorded).2
      · exact (ascending.pending_loaded epoch entry.2 pending other loaded).2

/-- The first finalizer that has not stored its value stores it, or fails to. -/
theorem Ascending.store {succeeds : Bool} {result : Option Value} (ascending : Ascending R c)
    (taken : c.store 0 succeeds = some (c', result)) :
    Ascending R c' ∧ ∀ value ∈ result, ∀ before ∈ c.stored, R before value := by
  obtain ⟨entry, first, moved⟩ := Option.map_eq_some_iff.mp taken
  obtain ⟨rest, storing⟩ : ∃ rest, c.storing = entry :: rest := by
    cases entries : c.storing with
    | nil => simp [entries] at first
    | cons head rest =>
        rw [entries] at first
        exact ⟨rest, by rw [Option.some.inj first]⟩
  have kept : c.storing.eraseIdx 0 = rest := by rw [storing]; rfl
  have among : entry ∈ c.storing := by rw [storing]; exact List.mem_cons_self
  have later {other : Nat × Value} (member : other ∈ rest) : other ∈ c.storing := by
    rw [storing]
    exact List.mem_cons_of_mem _ member
  have ordered := ascending.storing
  rw [storing, List.pairwise_cons] at ordered
  cases succeeds with
  | true =>
      cases moved
      refine ⟨⟨?_, ?_, fun other member => ?_, ascending.pending, ascending.pending_loaded,
        ascending.loaded⟩, ?_⟩
      · rintro value ⟨⟩
        refine ⟨fun other member => ?_, ascending.storing_waiting entry among⟩
        rw [kept] at member
        exact ordered.1 other member
      · rw [kept]
        exact ordered.2
      · rw [kept] at member
        exact ascending.storing_waiting other (later member)
      · rintro value ⟨⟩ before held
        exact (ascending.stored before held).1 entry among
  | false =>
      cases moved
      refine ⟨⟨fun value held => ⟨fun other member => ?_, (ascending.stored value held).2⟩, ?_,
        fun other member => ?_, ascending.pending, ascending.pending_loaded, ascending.loaded⟩,
        nofun⟩
      · rw [kept] at member
        exact (ascending.stored value held).1 other (later member)
      · rw [kept]
        exact ordered.2
      · rw [kept] at member
        exact ascending.storing_waiting other (later member)

/-- What was stored goes up, and all values on their way are up to the current one. -/
structure Forward (R : Value → Value → Prop) (UpTo : Value → Prop) (persisted : List Value)
    (c : Checkpointing Value) : Prop where
  ascending : Ascending R c
  all : c.All fun _ value => UpTo value
  stored : ∀ value ∈ c.stored, UpTo value
  pairwise : persisted.Pairwise R
  below : ∀ value ∈ persisted, ∃ last ∈ c.stored, R value last

variable {UpTo UpTo' : Value → Prop} {persisted : List Value}

theorem forward_restored (refl : ∀ value, R value value) {stored : Option Value}
    (started : ∀ value ∈ stored, UpTo value) :
    Forward R UpTo stored.toList (restored stored) := by
  refine ⟨ascending_restored stored, all_restored stored, started, ?_, fun value member => ?_⟩
  · cases stored <;> simp
  · exact ⟨value, Option.mem_toList.mp member, refl value⟩

theorem Forward.mono (forward : Forward R UpTo persisted c)
    (further : ∀ value, UpTo value → UpTo' value) : Forward R UpTo' persisted c :=
  ⟨forward.ascending, forward.all.mono fun _ => further,
    fun value held => further value (forward.stored value held), forward.pairwise, forward.below⟩

theorem Forward.load (forward : Forward R UpTo persisted c) (current : UpTo value)
    (after : ∀ before, UpTo before → R before value) (later : c.LaterEpoch epoch) :
    Forward R UpTo persisted (c.load epoch value) :=
  ⟨forward.ascending.load (forward.all.mono fun _ => after)
      (fun before held => after before (forward.stored before held)) later,
    forward.all.load current, forward.stored, forward.pairwise, forward.below⟩

theorem Forward.record (forward : Forward R UpTo persisted c) (taken : c.record 0 = some c') :
    Forward R UpTo persisted c' := by
  have same : c'.stored = c.stored := by
    obtain ⟨entry, -, rfl⟩ := Option.map_eq_some_iff.mp taken
    rfl
  exact ⟨forward.ascending.record taken, forward.all.record taken, same ▸ forward.stored,
    forward.pairwise, same ▸ forward.below⟩

theorem Forward.finalize (forward : Forward R UpTo persisted c) :
    Forward R UpTo persisted (c.finalize epoch) :=
  ⟨forward.ascending.finalize, forward.all.finalize, forward.stored, forward.pairwise,
    forward.below⟩

theorem Forward.store {succeeds : Bool} {result : Option Value} (refl : ∀ value, R value value)
    (trans : ∀ a b c, R a b → R b c → R a c) (forward : Forward R UpTo persisted c)
    (taken : c.store 0 succeeds = some (c', result)) :
    Forward R UpTo (persisted ++ result.toList) c' := by
  obtain ⟨all, origin, stored⟩ := forward.all.store taken
  obtain ⟨ascending, up⟩ := forward.ascending.store taken
  cases result with
  | none =>
      rw [Option.none_or] at stored
      refine ⟨ascending, all, stored ▸ forward.stored, ?_, ?_⟩ <;>
        rw [Option.toList_none, List.append_nil]
      · exact forward.pairwise
      · exact stored ▸ forward.below
  | some value =>
      obtain ⟨-, current⟩ := origin value rfl
      have from_below (before : Value) (member : before ∈ persisted) : R before value := by
        obtain ⟨last, held, le⟩ := forward.below before member
        exact trans before last value le (up value rfl last held)
      refine ⟨ascending, all, ?_, ?_, fun before member => ⟨value, stored, ?_⟩⟩
      · rintro other held
        rw [stored] at held
        obtain rfl := Option.some.inj held
        exact current
      · exact List.pairwise_append.mpr ⟨forward.pairwise, List.pairwise_singleton _ _,
          fun before member other is_value => by
            rw [List.mem_singleton.mp is_value]
            exact from_below before member⟩
      · rcases List.mem_append.mp member with before_member | new
        · exact from_below before before_member
        · rw [List.mem_singleton.mp new]
          exact refl value

end Checkpointing

end StreamlingPlugins
