import StreamlingPlugins.Machine

/-!
# Deferred acks

`AckLedger` ties the units a source delivers to checkpoint epochs, and
`SharedAck` joins the slices of one etl write: the etl ack leaves only when
every contributing subscriber has released its slice.  Counters and epochs are
`u64` in the source and natural numbers here.
-/

namespace StreamlingPlugins.PostgresCdc

/-- A monotonic identifier for a registered source within a shared group. -/
abbrev SourceId := Nat

/-- Deferred acks of one source: `emitted` counts the rows delivered so far,
`pending` holds fully delivered units in arming order as `(armed_at, ack)`, and
`markers` maps an epoch to `emitted` at marker time. -/
structure AckLedger (A : Type) where
  emitted : Nat
  pending : List (Nat × A)
  markers : Std.ExtTreeMap Nat Nat

namespace AckLedger

variable {A : Type}

def new : AckLedger A := ⟨0, [], ∅⟩

/-- Records `n` rows delivered downstream. -/
def rowsDelivered (l : AckLedger A) (n : Nat) : AckLedger A :=
  { l with emitted := l.emitted + n }

/-- Arms a unit whose final row was just delivered. -/
def unitCompleted (l : AckLedger A) (ack : A) : AckLedger A :=
  { l with pending := l.pending ++ [(l.emitted, ack)] }

/-- Snapshots the delivery position for a checkpoint epoch. -/
def marker (l : AckLedger A) (epoch : Nat) : AckLedger A :=
  { l with markers := l.markers.insert epoch l.emitted }

/-- Releases the acks armed at or before the epoch's marker and discards the
markers up to the epoch.  An unknown epoch releases nothing. -/
def finalize (l : AckLedger A) (epoch : Nat) : List A × AckLedger A :=
  match l.markers[epoch]? with
  | none => ([], l)
  | some boundary =>
    ((l.pending.takeWhile (·.1 ≤ boundary)).map (·.2),
      { l with
        markers := l.markers.filter fun e _ => epoch + 1 ≤ e
        pending := l.pending.dropWhile (·.1 ≤ boundary) })

/-- Arms several units, in order. -/
def unitsCompleted (l : AckLedger A) (acks : List A) : AckLedger A :=
  acks.foldl unitCompleted l

@[simp] theorem unitsCompleted_emitted (l : AckLedger A) (acks : List A) :
    (l.unitsCompleted acks).emitted = l.emitted := by
  induction acks generalizing l with
  | nil => rfl
  | cons ack acks ih => exact ih (l.unitCompleted ack)

@[simp] theorem unitsCompleted_markers (l : AckLedger A) (acks : List A) :
    (l.unitsCompleted acks).markers = l.markers := by
  induction acks generalizing l with
  | nil => rfl
  | cons ack acks ih => exact ih (l.unitCompleted ack)

/-- Arming appends the acks, all at the current position. -/
@[simp] theorem unitsCompleted_pending (l : AckLedger A) (acks : List A) :
    (l.unitsCompleted acks).pending = l.pending ++ acks.map (l.emitted, ·) := by
  induction acks generalizing l with
  | nil => simp [unitsCompleted]
  | cons ack acks ih =>
      have rest := ih (l.unitCompleted ack)
      simpa [unitsCompleted, unitCompleted] using rest

/-- What finalizing an epoch does: nothing when the epoch has no marker, and
otherwise it splits the pending units at the marker's boundary. -/
theorem finalize_cases (l : AckLedger A) (epoch : Nat) :
    (l.markers[epoch]? = none ∧ l.finalize epoch = ([], l)) ∨
      ∃ boundary, l.markers[epoch]? = some boundary ∧
        (l.finalize epoch).2.emitted = l.emitted ∧
        (l.finalize epoch).2.pending = l.pending.dropWhile (·.1 ≤ boundary) ∧
        (l.finalize epoch).1 = (l.pending.takeWhile (·.1 ≤ boundary)).map (·.2) ∧
        ∀ e b, (l.finalize epoch).2.markers[e]? = some b ↔
          epoch < e ∧ l.markers[e]? = some b := by
  unfold finalize
  cases known : l.markers[epoch]? with
  | none => exact .inl ⟨rfl, rfl⟩
  | some boundary =>
      refine .inr ⟨boundary, rfl, rfl, rfl, rfl, fun e b => ?_⟩
      rw [Std.ExtTreeMap.getElem?_filter']
      simp only [Option.filter_eq_some_iff, decide_eq_true_eq, Nat.succ_le_iff]
      exact and_comm

end AckLedger

/-- One etl write's ack, shared across the subscribers it fed. -/
structure SharedAck (A : Type) where
  etlAck : Option A
  pending : Finset SourceId
  deriving DecidableEq

namespace SharedAck

variable {A : Type}

/-- Takes the etl ack out once no subscriber is left. -/
def fireIfDone (inner : SharedAck A) : SharedAck A × Option A :=
  if inner.pending = ∅ then ({ inner with etlAck := none }, inner.etlAck) else (inner, none)

/-- A fresh shared ack; over no subscribers it fires immediately. -/
def new (etlAck : A) (subscribers : Finset SourceId) : SharedAck A × Option A :=
  fireIfDone ⟨some etlAck, subscribers⟩

/-- Marks `source`'s slice durable and fires when none remain. -/
def release (inner : SharedAck A) (source : SourceId) : SharedAck A × Option A :=
  fireIfDone { inner with pending := inner.pending.erase source }

end SharedAck

end StreamlingPlugins.PostgresCdc
