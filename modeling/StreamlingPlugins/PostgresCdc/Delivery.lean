import StreamlingPlugins.PostgresCdc.Bridge

/-!
# Delivery: fan-out, batches and checkpoints

The parties of one slot group as a machine: etl hands writes to the destination,
which sends one unit per subscriber; each source drains its channel into batches
and defers acks in its ledger.  One event is one lock section or one channel
operation, so the units of a write arrive one by one, and anything can happen
between the drain of a `generate_batch` call and its ledger update.  A full
channel only delays a send.  The log records what the host and etl observe.
-/

namespace StreamlingPlugins.PostgresCdc

/-! ## One source -/

/-- What a running `generate_batch` holds: the rows drained so far, the acks of
the units they exhausted, and whether the receiver lock was released. -/
structure Batch (Row : Type) where
  rows : List Row
  completed : List SourceAckHandle
  drained : Bool
  deriving DecidableEq

/-- The running state of a source: its channel, the partially emitted unit, its
ledger, and the `generate_batch` call in progress. -/
structure SourceState (Row : Type) where
  rx : List (WriteUnit Row)
  closed : Bool
  carry : Option (WriteUnit Row)
  ledger : AckLedger SourceAckHandle
  batch : Option (Batch Row)

namespace SourceState

variable {Row : Type}

def new : SourceState Row := ⟨[], false, none, .new, none⟩

/-- Moves rows out of `unit` up to the batch size; the unit's ack is completed
when the unit is exhausted, otherwise the rest is carried. -/
def takeFrom (batchSize : Nat) (b : Batch Row) (unit : WriteUnit Row) :
    Batch Row × Option (WriteUnit Row) :=
  let n := min (batchSize - b.rows.length) unit.rows.length
  if unit.rows.drop n = [] then
    ({ b with rows := b.rows ++ unit.rows.take n, completed := b.completed ++ [unit.ack] }, none)
  else
    ({ b with rows := b.rows ++ unit.rows.take n }, some { unit with rows := unit.rows.drop n })

/-- A `generate_batch` call locks the receiver and takes from the carry. -/
def startBatch (batchSize : Nat) (σ : SourceState Row) : Option (SourceState Row) :=
  match σ.batch, σ.carry with
  | some _, _ => none
  | none, none => some { σ with batch := some ⟨[], [], false⟩ }
  | none, some unit =>
    let taken := takeFrom batchSize ⟨[], [], false⟩ unit
    some { σ with batch := some taken.1, carry := taken.2 }

/-- The drain receives the next unit, while there is room and nothing is carried. -/
def recvUnit (batchSize : Nat) (σ : SourceState Row) : Option (SourceState Row) :=
  match σ.batch, σ.carry, σ.rx with
  | some b, none, unit :: rx =>
    if b.drained = false ∧ b.rows.length < batchSize then
      let taken := takeFrom batchSize b unit
      some { σ with batch := some taken.1, carry := taken.2, rx := rx }
    else none
  | _, _, _ => none

/-- The drain ends when the batch is full, a unit is carried, or the channel is
empty. -/
def endDrain (batchSize : Nat) (σ : SourceState Row) : Option (SourceState Row) :=
  match σ.batch with
  | none => none
  | some b =>
    if b.drained = false ∧ (batchSize ≤ b.rows.length ∨ σ.carry ≠ none ∨ σ.rx = []) then
      some { σ with batch := some { b with drained := true } }
    else none

/-- The call returns: `some rows` for a batch, `none` for a failed Arrow build.
A failed build leaves the ledger alone and clears the carry. -/
def finishBatch (built : Bool) (σ : SourceState Row) :
    Option (SourceState Row × Option (List Row)) :=
  match σ.batch with
  | none => none
  | some b =>
    if b.drained then
      if b.rows = [] then
        some ({ σ with batch := none, ledger := σ.ledger.unitsCompleted b.completed }, some [])
      else if built then
        -- Deliveries advance the position before units arm at it.
        some ({ σ with
          batch := none
          ledger := (σ.ledger.rowsDelivered b.rows.length).unitsCompleted b.completed },
          some b.rows)
      else some ({ σ with batch := none, carry := none }, none)
    else none

/-- `terminate` closes the channel; it needs the receiver lock. -/
def close (σ : SourceState Row) : Option (SourceState Row) :=
  match σ.batch with
  | some ⟨_, _, false⟩ => none
  | _ => some { σ with closed := true }

/-- A send enters the channel unless the receiver is closed. -/
def send (unit : WriteUnit Row) (σ : SourceState Row) : SourceState Row :=
  if σ.closed then σ else { σ with rx := σ.rx ++ [unit] }

end SourceState

/-! ## The group -/

/-- The subscribers of a slot group, with ids as `register` hands them out, and
the batch size of each. -/
structure Group where
  subscribers : List SourceId
  nodup : subscribers.Nodup
  batchSize : SourceId → Nat

/-- A row with its origin, the write and the position in the unit it came from.
The origin is bookkeeping of the model: no step reads it. -/
structure OriginRow (Value : Type) where
  write : WriteId
  index : Nat
  value : Value
  deriving DecidableEq

/-- Marks rows with their origin. -/
def withOrigin {Value : Type} (write : WriteId) (values : List Value) : List (OriginRow Value) :=
  values.mapIdx fun index value => ⟨write, index, value⟩

/-- The group: writes handed to `fan_out` so far, their shared acks, the sends
each still has to make, and the sources. -/
structure GroupState (Value : Type) where
  writes : Nat
  acks : WriteId → Option (SharedAck WriteId)
  sending : WriteId → List (SourceId × WriteUnit (OriginRow Value))
  source : SourceId → SourceState (OriginRow Value)

inductive GroupEvent (Value : Type)
  | write (rows : SourceId → List Value)
  | send (write : WriteId)
  | close (source : SourceId)
  | startBatch (source : SourceId)
  | recvUnit (source : SourceId)
  | endDrain (source : SourceId)
  | finishBatch (source : SourceId) (built : Bool)
  | marker (source : SourceId) (epoch : Nat)
  | finalizer (source : SourceId) (epoch : Nat)

inductive GroupObs (Value : Type)
  | write (write : WriteId) (rows : List (SourceId × List (OriginRow Value)))
  | ackSent (write : WriteId)
  | batchOk (source : SourceId) (rows : List (OriginRow Value))
  | batchErr (source : SourceId)
  | marker (source : SourceId) (epoch : Nat)
  | finalizer (source : SourceId) (epoch : Nat)
  deriving DecidableEq

namespace GroupState

variable {Value : Type}

def initial : GroupState Value := ⟨0, fun _ => none, fun _ => [], fun _ => .new⟩

def setSource (sys : GroupState Value) (id : SourceId)
    (σ : SourceState (OriginRow Value)) : GroupState Value :=
  { sys with source := Function.update sys.source id σ }

@[simp] theorem setSource_self (sys : GroupState Value) (id : SourceId)
    (σ : SourceState (OriginRow Value)) : (sys.setSource id σ).source id = σ :=
  Function.update_self ..

@[simp] theorem setSource_of_ne (sys : GroupState Value) {id other : SourceId}
    (σ : SourceState (OriginRow Value)) (ne : other ≠ id) :
    (sys.setSource id σ).source other = sys.source other :=
  Function.update_of_ne ne ..

/-- Releases one slice of a shared ack; the etl ack may leave. -/
def releaseSlice (sys : GroupState Value) (handle : SourceAckHandle) :
    GroupState Value × List (GroupObs Value) :=
  match sys.acks handle.1 with
  | none => (sys, [])
  | some shared =>
    let released := shared.release handle.2
    ({ sys with acks := Function.update sys.acks handle.1 (some released.1) },
      (released.2.map .ackSent).toList)

/-- Releases slices in order. -/
def releaseSlices (sys : GroupState Value) :
    List SourceAckHandle → GroupState Value × List (GroupObs Value)
  | [] => (sys, [])
  | handle :: handles =>
    let first := sys.releaseSlice handle
    let rest := first.1.releaseSlices handles
    (rest.1, first.2 ++ rest.2)

end GroupState

/-- One step of the group. -/
def Group.step {Value : Type} (group : Group) (sys : GroupState Value) :
    GroupEvent Value → Option (GroupState Value × List (GroupObs Value))
  | .write rows =>
    let tagged := fun id => withOrigin sys.writes (rows id)
    let out := fanOut sys.writes (perSub group.subscribers tagged)
    some ({ sys with
        writes := sys.writes + 1
        acks := Function.update sys.acks sys.writes (some out.1.1)
        sending := Function.update sys.sending sys.writes out.2 },
      .write sys.writes (group.subscribers.map fun id => (id, tagged id)) ::
        (out.1.2.map .ackSent).toList)
  | .send write =>
    match sys.sending write with
    | [] => none
    | (id, unit) :: rest =>
      some ({ sys.setSource id ((sys.source id).send unit) with
        sending := Function.update sys.sending write rest }, [])
  | .close id => (sys.source id).close.map fun σ => (sys.setSource id σ, [])
  | .startBatch id =>
    ((sys.source id).startBatch (group.batchSize id)).map fun σ => (sys.setSource id σ, [])
  | .recvUnit id =>
    ((sys.source id).recvUnit (group.batchSize id)).map fun σ => (sys.setSource id σ, [])
  | .endDrain id =>
    ((sys.source id).endDrain (group.batchSize id)).map fun σ => (sys.setSource id σ, [])
  | .finishBatch id built =>
    ((sys.source id).finishBatch built).map fun r =>
      (sys.setSource id r.1, [r.2.elim (.batchErr id) (.batchOk id)])
  | .marker id epoch =>
    let σ := sys.source id
    some (sys.setSource id { σ with ledger := σ.ledger.marker epoch }, [.marker id epoch])
  | .finalizer id epoch =>
    let σ := sys.source id
    let finalized := σ.ledger.finalize epoch
    let released := (sys.setSource id { σ with ledger := finalized.2 }).releaseSlices finalized.1
    some (released.1, .finalizer id epoch :: released.2)

/-- The group as a machine. -/
def Group.machine (Value : Type) (group : Group) :
    Machine (GroupState Value) (GroupEvent Value) (GroupObs Value) where
  step := group.step

end StreamlingPlugins.PostgresCdc
