import Mathlib

/-!
# Conveyors

Chunks of records are sent through a bounded channel.  A call for a batch takes chunks into a
carry and returns what the batch has room for; a batch is settled when the next call begins, and
only then is its summary handed on.  So every record is sent, carried, returned and settled, in
order and once.
-/

namespace StreamlingPlugins

/-- Where a call for a batch stands. -/
inductive ConveyorPhase
  | idle
  /-- It takes chunks while there are some and a batch has room. -/
  | filling
  /-- It waits for a chunk with nothing carried. -/
  | waiting
  | filled
  deriving DecidableEq

structure Conveyor (Record Summary : Type) where
  channel : List (List Record)
  carry : List Record
  /-- The summary of the batch returned last. -/
  pending : Option Summary
  phase : ConveyorPhase
  deriving DecidableEq

inductive ConveyorObs (Record : Type)
  | sent (chunk : List Record)
  | called
  | returned (batch : List Record)
  deriving DecidableEq

namespace Conveyor

variable {Record Summary : Type}

def new : Conveyor Record Summary := ⟨[], [], none, .idle⟩

/-- A send waits while the channel is full. -/
def send (capacity : Nat) (chunk : List Record) (self : Conveyor Record Summary) :
    Option (Conveyor Record Summary) :=
  if self.channel.length < capacity then some { self with channel := self.channel ++ [chunk] }
  else none

/-- A call begins and hands on the summary of the batch before. -/
def call (self : Conveyor Record Summary) : Option (Conveyor Record Summary × Option Summary) :=
  if self.phase = .idle then some ({ self with pending := none, phase := .filling }, self.pending)
  else none

/-- One turn of the loop over the chunks that are there. -/
def tryRecv (batchSize : Nat) (self : Conveyor Record Summary) :
    Option (Conveyor Record Summary) :=
  if self.phase = .filling then
    match decide (self.carry.length < batchSize), self.channel with
    | true, chunk :: channel => some { self with channel, carry := self.carry ++ chunk }
    | _, _ => some { self with phase := if self.carry = [] then .waiting else .filled }
  else none

/-- The chunk waited for. -/
def receive (self : Conveyor Record Summary) : Option (Conveyor Record Summary) :=
  match self.phase, self.channel with
  | .waiting, chunk :: channel =>
    some { self with channel, carry := self.carry ++ chunk, phase := .filled }
  | _, _ => none

/-- The wait ends without one. -/
def expire (self : Conveyor Record Summary) : Option (Conveyor Record Summary) :=
  if self.phase = .waiting then some { self with phase := .filled } else none

/-- The call is dropped while it waits. -/
def abandon (self : Conveyor Record Summary) : Option (Conveyor Record Summary) :=
  if self.phase = .waiting then some { self with phase := .idle } else none

/-- The call is dropped before it takes a chunk. -/
def withdraw (self : Conveyor Record Summary) : Option (Conveyor Record Summary) :=
  if self.phase = .filling then some { self with phase := .idle } else none

/-- A batch that is built leaves the carry; one that is not stays in it. -/
def finish (batchSize : Nat) (summarize : List Record → Option Summary) (built : Bool)
    (self : Conveyor Record Summary) :
    Option (Conveyor Record Summary × Option (List Record)) :=
  if self.phase = .filled then
    if self.carry.take batchSize = [] then some ({ self with phase := .idle }, some [])
    else if built then
      some ({ self with
        carry := self.carry.drop batchSize
        pending := summarize (self.carry.take batchSize)
        phase := .idle }, some (self.carry.take batchSize))
    else some ({ self with phase := .idle }, none)
  else none

end Conveyor

/-! ## What became of the records -/

/-- The records sent, those of settled batches, and those returned since the last call. -/
structure ConveyorHistory (Record : Type) where
  sent : List Record
  settled : List Record
  last : List Record

namespace ConveyorHistory

variable {Record : Type}

def start : ConveyorHistory Record := ⟨[], [], []⟩

def observe (self : ConveyorHistory Record) : ConveyorObs Record → ConveyorHistory Record
  | .sent chunk => { self with sent := self.sent ++ chunk }
  | .called => { self with settled := self.settled ++ self.last, last := [] }
  | .returned batch => { self with last := self.last ++ batch }

/-- What is settled stays so. -/
theorem settled_prefix_foldl (out : List (ConveyorObs Record)) (h : ConveyorHistory Record) :
    h.settled <+: (out.foldl observe h).settled := by
  induction out generalizing h with
  | nil => exact List.prefix_refl _
  | cons obs out ih =>
      refine .trans ?_ (ih (h.observe obs))
      cases obs with
      | called => exact List.prefix_append _ _
      | _ => exact List.prefix_refl _

end ConveyorHistory

/-- The records that earlier runs delivered, and what the conveyor of this run did. -/
structure RunHistory (Record : Type) where
  earlier : List Record
  conveyor : ConveyorHistory Record

namespace RunHistory

variable {Record History Obs : Type}

/-- The records of every batch that a call for another one followed. -/
def delivered (self : RunHistory Record) : List Record :=
  self.earlier ++ self.conveyor.settled

theorem delivered_subset_observe (h : RunHistory Record) (obs : ConveyorObs Record) :
    h.delivered ⊆ { h with conveyor := h.conveyor.observe obs }.delivered := by
  have settled := (ConveyorHistory.settled_prefix_foldl [obs] h.conveyor).subset
  exact List.append_subset.mpr
    ⟨List.subset_append_left _ _, List.Subset.trans settled (List.subset_append_right _ _)⟩

/-- What was delivered stays so along a log if it does over one observation. -/
theorem delivered_subset_foldl {observe : History → Obs → History}
    {runs : History → RunHistory Record}
    (grows : ∀ h obs, (runs h).delivered ⊆ (runs (observe h obs)).delivered) (h : History)
    (out : List Obs) : (runs h).delivered ⊆ (runs (out.foldl observe h)).delivered := by
  induction out generalizing h with
  | nil => exact List.Subset.refl _
  | cons obs out ih => exact List.Subset.trans (grows h obs) (ih (observe h obs))

end RunHistory

namespace Conveyor

variable {Record Summary : Type}

/-- A conveyor accounts for every record sent, and has the summary of the last batch. -/
structure Tracks (summarize : List Record → Option Summary) (h : ConveyorHistory Record)
    (c : Conveyor Record Summary) : Prop where
  sent : h.sent = h.settled ++ h.last ++ c.carry ++ c.channel.flatten
  pending : c.pending = summarize h.last
  /-- During a call nothing was returned since it began. -/
  last : c.phase ≠ .idle → h.last = []

variable {summarize : List Record → Option Summary} {h : ConveyorHistory Record}
  {c c' : Conveyor Record Summary} {batchSize : Nat}

theorem tracks_new (nothing : summarize [] = none) :
    Tracks summarize .start (new : Conveyor Record Summary) :=
  ⟨rfl, nothing.symm, fun _ => rfl⟩

theorem Tracks.send {capacity : Nat} {chunk : List Record} (tracks : Tracks summarize h c)
    (taken : c.send capacity chunk = some c') : Tracks summarize (h.observe (.sent chunk)) c' := by
  simp only [Conveyor.send, Option.ite_none_right_eq_some, Option.some.injEq] at taken
  obtain ⟨-, rfl⟩ := taken
  refine ⟨?_, tracks.pending, tracks.last⟩
  simp [ConveyorHistory.observe, tracks.sent]

/-- A call settles the last batch and hands on its summary. -/
theorem Tracks.call {delivered : Option Summary} (nothing : summarize [] = none)
    (tracks : Tracks summarize h c) (taken : c.call = some (c', delivered)) :
    Tracks summarize (h.observe .called) c' ∧ delivered = summarize h.last := by
  simp only [Conveyor.call, Option.ite_none_right_eq_some, Option.some.injEq,
    Prod.mk.injEq] at taken
  obtain ⟨-, rfl, rfl⟩ := taken
  refine ⟨⟨?_, nothing.symm, fun _ => rfl⟩, tracks.pending⟩
  simp [ConveyorHistory.observe, tracks.sent]

theorem Tracks.tryRecv (tracks : Tracks summarize h c)
    (taken : c.tryRecv batchSize = some c') : Tracks summarize h c' := by
  simp only [Conveyor.tryRecv, Option.ite_none_right_eq_some] at taken
  obtain ⟨filling, taken⟩ := taken
  have none_last := tracks.last (by simp [filling])
  split at taken
  · rename_i chunk channel _ from_channel
    obtain rfl := Option.some.inj taken
    refine ⟨?_, tracks.pending, fun _ => none_last⟩
    simp [tracks.sent, from_channel]
  · obtain rfl := Option.some.inj taken
    exact ⟨tracks.sent, tracks.pending, fun _ => none_last⟩

theorem Tracks.receive (tracks : Tracks summarize h c) (taken : c.receive = some c') :
    Tracks summarize h c' := by
  unfold Conveyor.receive at taken
  split at taken
  · rename_i waiting from_channel
    obtain rfl := Option.some.inj taken
    refine ⟨?_, tracks.pending, fun _ => tracks.last (by simp [waiting])⟩
    simp [tracks.sent, from_channel]
  · cases taken

theorem Tracks.expire (tracks : Tracks summarize h c) (taken : c.expire = some c') :
    Tracks summarize h c' := by
  simp only [Conveyor.expire, Option.ite_none_right_eq_some, Option.some.injEq] at taken
  obtain ⟨waiting, rfl⟩ := taken
  exact ⟨tracks.sent, tracks.pending, fun _ => tracks.last (by simp [waiting])⟩

theorem Tracks.abandon (tracks : Tracks summarize h c) (taken : c.abandon = some c') :
    Tracks summarize h c' := by
  simp only [Conveyor.abandon, Option.ite_none_right_eq_some, Option.some.injEq] at taken
  obtain ⟨waiting, rfl⟩ := taken
  exact ⟨tracks.sent, tracks.pending, fun busy => absurd rfl busy⟩

theorem Tracks.withdraw (tracks : Tracks summarize h c) (taken : c.withdraw = some c') :
    Tracks summarize h c' := by
  simp only [Conveyor.withdraw, Option.ite_none_right_eq_some, Option.some.injEq] at taken
  obtain ⟨filling, rfl⟩ := taken
  exact ⟨tracks.sent, tracks.pending, fun busy => absurd rfl busy⟩

/-- The observation of a call's result. -/
def resultObs : Option (List Record) → List (ConveyorObs Record)
  | some batch => [.returned batch]
  | none => []

theorem Tracks.finish {built : Bool} {result : Option (List Record)}
    (tracks : Tracks summarize h c)
    (taken : c.finish batchSize summarize built = some (c', result)) :
    Tracks summarize ((resultObs result).foldl ConveyorHistory.observe h) c' := by
  simp only [Conveyor.finish, Option.ite_none_right_eq_some] at taken
  obtain ⟨filled, taken⟩ := taken
  have none_last := tracks.last (by simp [filled])
  split at taken
  · cases taken
    refine ⟨?_, ?_, fun busy => absurd rfl busy⟩
    · simp [resultObs, ConveyorHistory.observe, tracks.sent]
    · simp [resultObs, ConveyorHistory.observe, tracks.pending]
  · split at taken
    · cases taken
      refine ⟨?_, ?_, fun busy => absurd rfl busy⟩
      · simp [resultObs, ConveyorHistory.observe, tracks.sent, none_last]
      · simp [resultObs, ConveyorHistory.observe, none_last]
    · cases taken
      exact ⟨tracks.sent, tracks.pending, fun busy => absurd rfl busy⟩

/-- What is settled was sent, before all that is not. -/
theorem Tracks.settled_prefix (tracks : Tracks summarize h c) : h.settled <+: h.sent := by
  rw [tracks.sent, List.append_assoc, List.append_assoc]
  exact List.prefix_append _ _

end Conveyor

end StreamlingPlugins
