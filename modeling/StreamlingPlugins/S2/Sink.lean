import StreamlingPlugins.Machine

/-!
# The S2 sink

Records are submitted to one producer per stream, which gives a ticket for each;
a ticket resolves when the record was appended or could not be.  The calls of the
sink interleave at their awaits and at the lock of the producers, so an event
starts a call, runs its next section, or resolves a ticket.  Turning a batch into
runs of records for streams is an input, metrics and closing idle producers are
left out.
-/

namespace StreamlingPlugins.S2

/-- A ticket, by the order of submission. -/
abbrev Ticket := Nat

/-- Consecutive records of one stream. -/
abbrev Run := String × List String

/-- `PRODUCER_IDLE_TTL`, in seconds. -/
def producerIdleTtl : Nat := 300

structure ProducerState where
  stream : String
  pending : List Ticket
  lastUsed : Nat
  deriving DecidableEq

/-- The tickets a call took from a stream's producer and still awaits, how many
there were, and the first error among those awaited. -/
structure Await where
  stream : String
  tickets : List Ticket
  total : Nat
  firstError : Option String
  closed : Option (Except String Unit)

def Await.take (producer : ProducerState) : Await where
  stream := producer.stream
  tickets := producer.pending
  total := producer.pending.length
  firstError := none
  closed := none

/-- What `await_record_tickets` returns. -/
def Await.flushed (part : Await) : Except String Nat :=
  match part.firstError with
  | some e => .error e
  | none => .ok part.total

/-- A ticket of the part resolved; the first error is kept. -/
def Await.consume (part : Await) (tickets : List Ticket) (outcome : Except String Unit) :
    Await where
  stream := part.stream
  tickets := tickets
  total := part.total
  firstError :=
    match outcome with
    | .ok () => part.firstError
    | .error e => part.firstError.or (some ("stream '" ++ part.stream ++
        "': failed to append pending S2 Producer record: " ++ e))
  closed := part.closed

/-- How closing the part's producer went, counting no record. -/
def Await.closeResult (part : Await) : Except String Nat :=
  match part.closed with
  | some (.error e) => .error ("stream '" ++ part.stream ++ "': failed to close S2 Producer: " ++ e)
  | _ => .ok 0

/-- The section a call runs next.  `drain`, `ensure` and `submit` hold the lock. -/
inductive Phase
  | batch (runs : List Run)
  /-- Draining the producer at `position`. -/
  | drain (position : Nat) (runs : List Run)
  | ensure (runs : List Run)
  | submit (stream : String) (records : List String) (runs : List Run)
  | marker
  | flush (parts : List Await)
  | evict
  | terminate
  | close (parts : List Await)
  /-- Returned, after so many calls had begun. -/
  | returned (result : Except String Unit) (begun : Nat)

namespace Phase

/-- The parts a call awaits. -/
def parts : Phase → List Await
  | .flush parts => parts
  | .close parts => parts
  | _ => []

def setPart (i : Nat) (part : Await) : Phase → Phase
  | .flush parts => .flush (parts.set i part)
  | .close parts => .close (parts.set i part)
  | phase => phase

end Phase

inductive CallKind
  | processBatch
  | marker
  | terminate
  deriving DecidableEq

/-- A call, with the number of tickets that were submitted before it began. -/
structure Call where
  kind : CallKind
  submittedBefore : Nat
  phase : Phase

/-- The sink.  `tickets` holds what each ticket resolved to, if it did. -/
structure S2Sink where
  streamId : String
  template : Bool
  ensureStream : Bool
  running : Bool
  now : Nat
  lock : Option Nat
  producers : List ProducerState
  tickets : List (Option (Except String Unit))
  calls : List Call

inductive S2Event
  | processBatch (numRows : Nat) (routed : Except String (List Run))
  | processCheckpointMarker
  | terminate
  /-- A call gets the lock of the producers. -/
  | lock (call : Nat)
  | poll (call : Nat)
  | ensure (call : Nat) (outcome : Except String Unit)
  | submit (call : Nat) (outcome : Except String Unit)
  | await (call part : Nat)
  | close (call part : Nat) (outcome : Except String Unit)
  /-- All that a call awaited is there. -/
  | joined (call : Nat)
  | resolve (ticket : Ticket) (outcome : Except String Unit)
  | tick
  /-- The map of the producers iterates in another order. -/
  | reorder (producers : List ProducerState)

inductive S2Obs
  | submitted (call : Nat) (ticket : Ticket)
  | consumed (call : Nat) (ticket : Ticket) (outcome : Except String Unit)
  | evicted (call : Nat) (producer : ProducerState)

/-- One result more: the first error stays. -/
def addResult : Except String Nat → Except String Nat → Except String Nat
  | .error e, _ => .error e
  | .ok _, .error e => .error e
  | .ok total, .ok count => .ok (total + count)

/-- Sums successful counts, deferring the first error. -/
def sumOrFirstError (results : List (Except String Nat)) : Except String Nat :=
  results.foldl addResult (.ok 0)

namespace S2Sink

/-- An initialized sink; a fixed stream has its producer from the start. -/
def new (streamId : String) (fixed : Option String) (ensureStream : Bool) : S2Sink where
  streamId := streamId
  template := fixed.isNone
  ensureStream := ensureStream
  running := true
  now := 0
  lock := none
  producers := fixed.toList.map fun stream => ⟨stream, [], 0⟩
  tickets := []
  calls := []

variable (s : S2Sink)

def withStreamContext (message : String) : String :=
  "stream '" ++ s.streamId ++ "': " ++ message

def begin (kind : CallKind) (phase : Phase) : S2Sink :=
  { s with calls := s.calls ++ [⟨kind, s.tickets.length, phase⟩] }

def setPhase (c : Nat) (call : Call) (phase : Phase) : S2Sink :=
  { s with calls := s.calls.set c { call with phase := phase } }

def setProducer (i : Nat) (producer : ProducerState) : S2Sink :=
  { s with producers := s.producers.set i producer }

/-- A call returns, and lets go of the lock if it holds it. -/
def ret (c : Nat) (call : Call) (result : Except String Unit) : S2Sink :=
  { s.setPhase c call (.returned result s.calls.length) with
    lock := if s.lock = some c then none else s.lock }

def indexOf (stream : String) : Option Nat :=
  s.producers.findIdx? fun producer => producer.stream = stream

/-- The first await of a call that needs the lock. -/
def acquire (c : Nat) (call : Call) : Option (S2Sink × List S2Obs) :=
  if s.lock ≠ none then none
  else
    match call.phase with
    | .batch runs => some ({ s.setPhase c call (.drain 0 runs) with lock := some c }, [])
    | .marker => some ({ s.setPhase c call (.flush (s.producers.map .take)) with
        producers := s.producers.map fun producer => { producer with pending := [] } }, [])
    | .evict =>
      let idle (producer : ProducerState) : Bool :=
        producer.pending = [] ∧ producerIdleTtl ≤ s.now - producer.lastUsed
      some ({ s.ret c call (.ok ()) with
        producers := s.producers.filter fun producer => !idle producer },
        (s.producers.filter idle).map (.evicted c))
    | .terminate => some ({ s.setPhase c call (.close (s.producers.map .take)) with
        producers := [] }, [])
    | _ => none

/-- One poll of `drain_ready_record_tickets`. -/
def poll (c : Nat) (call : Call) : Option (S2Sink × List S2Obs) :=
  match call.phase with
  | .drain position runs =>
    match s.producers[position]? with
    | none => some (s.setPhase c call (.ensure runs), [])
    | some producer =>
      match producer.pending with
      | [] => some (s.setPhase c call (.drain (position + 1) runs), [])
      | ticket :: pending =>
        match s.tickets[ticket]? with
        | none => none
        | some none => some (s.setPhase c call (.drain (position + 1) runs), [])
        | some (some (.ok ())) =>
          some (s.setProducer position { producer with pending := pending },
            [.consumed c ticket (.ok ())])
        | some (some (.error e)) =>
          let message := "stream '" ++ producer.stream ++
            "': failed to append pending S2 Producer record: " ++ e
          some ((s.setProducer position { producer with pending := pending }).ret c call
            (.error (s.withStreamContext message)), [.consumed c ticket (.error e)])
  | _ => none

/-- `ensure_producer` for the next run. -/
def ensure (c : Nat) (call : Call) (outcome : Except String Unit) :
    Option (S2Sink × List S2Obs) :=
  match call.phase with
  | .ensure [] => some (s.ret c call (.ok ()), [])
  | .ensure ((stream, run) :: runs) =>
    match s.indexOf stream with
    | some i =>
      match s.producers[i]? with
      | none => none
      | some producer =>
        some ((s.setProducer i { producer with lastUsed := s.now }).setPhase c call
          (.submit stream run runs), [])
    | none =>
      match outcome with
      | .error e =>
        if s.ensureStream then
          some (s.ret c call (.error (s.withStreamContext
            ("failed to ensure S2 stream '" ++ stream ++ "': " ++ e))), [])
        else none
      | .ok () => some ({ s.setPhase c call (.submit stream run runs) with
          producers := s.producers ++ [⟨stream, [], s.now⟩] }, [])
  | _ => none

/-- One record of a run. -/
def submit (c : Nat) (call : Call) (outcome : Except String Unit) :
    Option (S2Sink × List S2Obs) :=
  match call.phase with
  | .submit _ [] runs => some (s.setPhase c call (.ensure runs), [])
  | .submit stream (_ :: records) runs =>
    match outcome with
    | .error e => some (s.ret c call (.error (s.withStreamContext
        ("failed to submit record to S2 Producer for stream '" ++ stream ++ "': " ++ e))), [])
    | .ok () =>
      match s.indexOf stream with
      | none => none
      | some i =>
        match s.producers[i]? with
        | none => none
        | some producer =>
          some ({ (s.setProducer i
              { producer with pending := producer.pending ++ [s.tickets.length] }).setPhase c call
                (.submit stream records runs) with
            tickets := s.tickets ++ [none] }, [.submitted c s.tickets.length])
  | _ => none

/-- The next ticket of a part, once it resolved. -/
def await (c : Nat) (call : Call) (i : Nat) : Option (S2Sink × List S2Obs) :=
  match call.phase.parts[i]? with
  | none => none
  | some part =>
    match part.tickets with
    | [] => none
    | ticket :: tickets =>
      match s.tickets[ticket]? with
      | some (some outcome) =>
        some (s.setPhase c call (call.phase.setPart i (part.consume tickets outcome)),
          [.consumed c ticket outcome])
      | _ => none

/-- Closing a producer whose tickets were awaited. -/
def close (c : Nat) (call : Call) (i : Nat) (outcome : Except String Unit) :
    Option (S2Sink × List S2Obs) :=
  match call.phase with
  | .close parts =>
    match parts[i]? with
    | none => none
    | some part =>
      if part.tickets = [] ∧ part.closed.isNone then
        some (s.setPhase c call (call.phase.setPart i { part with closed := some outcome }), [])
      else none
  | _ => none

/-- The end of a `join_all`. -/
def joined (c : Nat) (call : Call) : Option (S2Sink × List S2Obs) :=
  match call.phase with
  | .flush parts =>
    if parts.all fun part => part.tickets = [] then
      match sumOrFirstError (parts.map Await.flushed) with
      | .error e => some (s.ret c call (.error (s.withStreamContext e)), [])
      | .ok _ =>
        if s.template then some (s.setPhase c call .evict, [])
        else some (s.ret c call (.ok ()), [])
    else none
  | .close parts =>
    if parts.all fun part => part.tickets = [] ∧ part.closed.isSome then
      match sumOrFirstError (parts.flatMap fun part => [part.flushed, part.closeResult]) with
      | .error e => some (s.ret c call (.error e), [])
      | .ok _ => some (s.ret c call (.ok ()), [])
    else none
  | _ => none

/-- Runs a section of a call in flight. -/
def onCall (c : Nat) (next : Call → Option (S2Sink × List S2Obs)) :
    Option (S2Sink × List S2Obs) :=
  match s.calls[c]? with
  | none => none
  | some call => next call

def step : S2Event → Option (S2Sink × List S2Obs)
  | .processBatch numRows routed =>
    if s.running = false then
      some (s.begin .processBatch (.returned
        (.error "S2 sink is not running, cannot process batch") (s.calls.length + 1)), [])
    else if numRows = 0 then
      some (s.begin .processBatch (.returned (.ok ()) (s.calls.length + 1)), [])
    else
      match routed with
      | .error e => some (s.begin .processBatch
          (.returned (.error (s.withStreamContext e)) (s.calls.length + 1)), [])
      | .ok runs => some (s.begin .processBatch (.batch runs), [])
  | .processCheckpointMarker => some (s.begin .marker .marker, [])
  | .terminate => some ({ s.begin .terminate .terminate with running := false }, [])
  | .lock c => s.onCall c (s.acquire c)
  | .poll c => s.onCall c (s.poll c)
  | .ensure c outcome => s.onCall c fun call => s.ensure c call outcome
  | .submit c outcome => s.onCall c fun call => s.submit c call outcome
  | .await c i => s.onCall c fun call => s.await c call i
  | .close c i outcome => s.onCall c fun call => s.close c call i outcome
  | .joined c => s.onCall c (s.joined c)
  | .resolve ticket outcome =>
    match s.tickets[ticket]? with
    | some none => some ({ s with tickets := s.tickets.set ticket (some outcome) }, [])
    | _ => none
  | .tick => some ({ s with now := s.now + 1 }, [])
  | .reorder producers =>
    if s.lock = none ∧ producers.Perm s.producers then
      some ({ s with producers := producers }, [])
    else none

def machine : Machine S2Sink S2Event S2Obs :=
  ⟨step⟩

end S2Sink

end StreamlingPlugins.S2
