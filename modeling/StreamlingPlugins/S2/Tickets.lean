import StreamlingPlugins.S2.Sink
import StreamlingPlugins.Tally

/-!
# Ticket accounting

Every submitted ticket is in one place: a producer's queue, a call that awaits
it, or the log of consumed tickets.  A call that consumed a failed ticket can
only return an error, and a marker leaves no ticket in the queues that was
submitted before it.
-/

namespace StreamlingPlugins.S2

/-! ## Where tickets are -/

namespace Phase

/-- How often a call holds a ticket. -/
def holds (phase : Phase) (t : Nat) : Nat :=
  (phase.parts.map fun part => part.tickets.count t).sum

/-- The call returned an error, or is bound to. -/
def Failing : Phase → Prop
  | .flush parts => ∃ part ∈ parts, part.firstError.isSome
  | .close parts => ∃ part ∈ parts, part.firstError.isSome
  | .returned result _ => ∃ e, result = .error e
  | _ => False

end Phase

/-- The observation consumes a ticket. -/
def S2Obs.consumes (t : Nat) : S2Obs → Bool
  | .consumed _ ticket _ => ticket = t
  | _ => false

def consumptions (log : List S2Obs) (t : Nat) : Nat :=
  log.countP (S2Obs.consumes t)

@[simp] theorem consumptions_nil (t : Nat) : consumptions [] t = 0 := rfl

theorem consumptions_append (log out : List S2Obs) (t : Nat) :
    consumptions (log ++ out) t = consumptions log t + consumptions out t :=
  List.countP_append

theorem consumptions_consumed (c ticket t : Nat) (outcome : Except String Unit) :
    consumptions [.consumed c ticket outcome] t = [ticket].count t := by
  simp [consumptions, S2Obs.consumes, List.count, List.countP_cons]

theorem consumptions_pos {log : List S2Obs} {t : Nat} (some_time : 0 < consumptions log t) :
    ∃ c outcome, .consumed c t outcome ∈ log := by
  obtain ⟨obs, member, consumes⟩ := List.countP_pos_iff.mp some_time
  cases obs with
  | consumed c ticket outcome =>
      obtain rfl : ticket = t := of_decide_eq_true consumes
      exact ⟨c, outcome, member⟩
  | submitted c ticket => cases consumes
  | evicted c producer => cases consumes

theorem consumptions_of_mem {log : List S2Obs} {c : Nat} {t : Nat}
    {outcome : Except String Unit} (member : .consumed c t outcome ∈ log) :
    0 < consumptions log t :=
  List.countP_pos_iff.mpr ⟨_, member, decide_eq_true rfl⟩

namespace S2Sink

/-- How often a ticket is in a producer's queue. -/
def queued (s : S2Sink) (t : Nat) : Nat :=
  (s.producers.map fun producer => producer.pending.count t).sum

/-- How often a ticket is awaited by a call. -/
def awaited (s : S2Sink) (t : Nat) : Nat :=
  (s.calls.map fun call => call.phase.holds t).sum

end S2Sink

theorem foldl_addResult_error (results : List (Except String Nat)) (e : String) :
    results.foldl addResult (.error e) = .error e := by
  induction results with
  | nil => rfl
  | cons result results ih => exact ih

theorem foldl_addResult_ok {results : List (Except String Nat)} {start : Except String Nat}
    {n : Nat} (summed : results.foldl addResult start = .ok n) :
    ∀ result ∈ results, ∃ k, result = .ok k := by
  induction results generalizing start with
  | nil => simp
  | cons result results ih =>
      refine List.forall_mem_cons.mpr ⟨?_, ih summed⟩
      cases result with
      | ok k => exact ⟨k, rfl⟩
      | error e =>
          have stuck : ∃ e', addResult start (.error e) = .error e' := by
            cases start <;> exact ⟨_, rfl⟩
          obtain ⟨e', stuck⟩ := stuck
          rw [List.foldl_cons, stuck, foldl_addResult_error] at summed
          cases summed

/-- A sum without an error adds results without errors. -/
theorem sumOrFirstError_eq_ok {results : List (Except String Nat)} {n : Nat}
    (summed : sumOrFirstError results = .ok n) : ∀ result ∈ results, ∃ k, result = .ok k :=
  foldl_addResult_ok summed

/-! ## What a section does -/

/-- What the sections of a call have in common. -/
structure SectionEffect (s : S2Sink) (c : Nat) (call : Call) (s' : S2Sink) (out : List S2Obs)
    (phase : Phase) : Prop where
  calls : s'.calls = s.calls.set c { call with phase := phase }
  tickets : s'.tickets = s.tickets ∨ s'.tickets = s.tickets ++ [none]
  balance : ∀ t, s'.queued t + phase.holds t + consumptions out t =
    s.queued t + call.phase.holds t +
      if s.tickets.length ≤ t ∧ t < s'.tickets.length then 1 else 0
  drains : ∀ t < s.tickets.length, s'.queued t ≤ s.queued t
  takes : call.phase = .marker → ∀ t < s.tickets.length, s'.queued t = 0
  fails : call.phase.Failing → phase.Failing
  consumes : ∀ c' t outcome, .consumed c' t outcome ∈ out → c' = c ∧
    s.tickets[t]? = some (some outcome) ∧ ((∃ e, outcome = .error e) → phase.Failing)
  evicts : ∀ c' producer, .evicted c' producer ∈ out → producer.pending = []
  returns : ∀ result n, phase = .returned result n → n = s.calls.length
  running : ∀ result n, call.phase ≠ .returned result n
  unmarked : phase ≠ .marker

theorem no_new_ticket (n t : Nat) : ¬ (n ≤ t ∧ t < n) := by
  omega

section effects

variable {s s' : S2Sink} {c : Nat} {call : Call} {out : List S2Obs} {phase : Phase}

theorem Phase.holds_eq {old : Phase} (parts : phase.parts = old.parts) (t : Nat) :
    phase.holds t = old.holds t := by
  rw [Phase.holds, Phase.holds, parts]

/-- A section that leaves every ticket where it is. -/
theorem SectionEffect.quiet (calls : s'.calls = s.calls.set c { call with phase := phase })
    (tickets : s'.tickets = s.tickets) (queued : ∀ t, s'.queued t = s.queued t)
    (held : ∀ t, phase.holds t = call.phase.holds t) (unmarked : call.phase ≠ .marker)
    (fails : call.phase.Failing → phase.Failing)
    (evicts : ∀ obs ∈ out, ∃ c' producer, obs = .evicted c' producer ∧ producer.pending = [])
    (returns : ∀ result n, phase = .returned result n → n = s.calls.length)
    (running : ∀ result n, call.phase ≠ .returned result n) (unmarked' : phase ≠ .marker) :
    SectionEffect s c call s' out phase where
  calls := calls
  tickets := Or.inl tickets
  balance t := by
    have none_consumed : consumptions out t = 0 := by
      refine List.countP_eq_zero.mpr fun obs member => ?_
      obtain ⟨c', producer, rfl, _⟩ := evicts obs member
      simp [S2Obs.consumes]
    have same := no_new_ticket s.tickets.length t
    rw [tickets, if_neg same, none_consumed, queued, held]
  drains t _ := (queued t).le
  takes marked := absurd marked unmarked
  fails := fails
  consumes c' t outcome member := by
    obtain ⟨_, _, impossible, _⟩ := evicts _ member
    cases impossible
  evicts c' producer member := by
    obtain ⟨_, _, same, empty⟩ := evicts _ member
    cases same
    exact empty
  returns := returns
  running := running
  unmarked := unmarked'

theorem queued_setProducer {i : Nat} {producer : ProducerState} (new : ProducerState)
    (found : s.producers[i]? = some producer) (t : Nat) :
    (s.setProducer i new).queued t + producer.pending.count t =
      s.queued t + new.pending.count t :=
  sum_map_set found _ new

theorem Phase.holds_setPart {i : Nat} {part : Await} (new : Await)
    (found : phase.parts[i]? = some part) (t : Nat) : (phase.setPart i new).holds t + part.tickets.count t =
      phase.holds t + new.tickets.count t := by
  cases phase with
  | flush parts => exact sum_map_set found _ new
  | close parts => exact sum_map_set found _ new
  | _ => simp [Phase.parts] at found

/-- A call that takes all queued tickets. -/
theorem SectionEffect.take {parts : List Await} (calls : s'.calls =
      s.calls.set c { call with phase := phase }) (tickets : s'.tickets = s.tickets)
    (emptied : ∀ t, s'.queued t = 0) (taken : parts = s.producers.map .take)
    (phase_parts : phase.parts = parts) (current : call.phase.parts = [])
    (fails : ¬ call.phase.Failing) (returns : ∀ result n, phase ≠ .returned result n)
    (running : ∀ result n, call.phase ≠ .returned result n) (unmarked : phase ≠ .marker) :
    SectionEffect s c call s' [] phase where
  calls := calls
  tickets := Or.inl tickets
  balance t := by
    have held : phase.holds t = s.queued t := by
      rw [Phase.holds, phase_parts, taken, List.map_map]
      rfl
    have same := no_new_ticket s.tickets.length t
    rw [tickets, if_neg same, emptied, held, Phase.holds, current]
    simp
  drains t _ := by
    rw [emptied]
    exact Nat.zero_le _
  takes _ t _ := emptied t
  fails failing := absurd failing fails
  consumes := by simp
  evicts := by simp
  returns result n same := absurd same (returns result n)
  running := running
  unmarked := unmarked

theorem count_singleton_eq (n t : Nat) :
    [n].count t = if n ≤ t ∧ t < n + 1 then 1 else 0 := by
  rw [List.count_singleton]
  rcases eq_or_ne n t with rfl | other
  · simp
  · have outside : ¬ (n ≤ t ∧ t < n + 1) := by omega
    rw [if_neg outside, if_neg (by simpa using other)]

/-- A call with parts awaits them. -/
theorem Phase.awaiting {i : Nat} {part : Await} (found : phase.parts[i]? = some part) :
    phase ≠ .marker ∧ (∀ result n, phase ≠ .returned result n) ∧
      ∀ new : Await, (∀ result n, phase.setPart i new ≠ .returned result n) ∧
        phase.setPart i new ≠ .marker := by
  cases phase with
  | flush parts => simp [Phase.setPart]
  | close parts => simp [Phase.setPart]
  | _ => simp [Phase.parts] at found

/-- A part with an error makes its call fail. -/
theorem Phase.failing_setPart {i : Nat} {part new : Await}
    (found : phase.parts[i]? = some part) (failed : new.firstError.isSome) :
    (phase.setPart i new).Failing := by
  cases phase with
  | flush parts =>
      exact ⟨new, List.mem_set (List.getElem?_eq_some_iff.mp found).1 new, failed⟩
  | close parts =>
      exact ⟨new, List.mem_set (List.getElem?_eq_some_iff.mp found).1 new, failed⟩
  | _ => simp [Phase.parts] at found

theorem Phase.Failing.setPart {i : Nat} {part new : Await} (failing : phase.Failing)
    (found : phase.parts[i]? = some part)
    (keeps : part.firstError.isSome → new.firstError.isSome) :
    (phase.setPart i new).Failing := by
  have still : ∀ parts : List Await, parts[i]? = some part →
      (∃ part ∈ parts, part.firstError.isSome) → ∃ part ∈ parts.set i new, part.firstError.isSome := by
    intro parts found ⟨other, member, failed⟩
    obtain ⟨j, listed⟩ := List.getElem?_of_mem member
    rcases eq_or_ne i j with rfl | elsewhere
    · obtain rfl : part = other := Option.some.inj (found.symm.trans listed)
      exact ⟨new, List.mem_set (List.getElem?_eq_some_iff.mp found).1 new, keeps failed⟩
    · refine ⟨other, List.mem_of_getElem? (i := j) ?_, failed⟩
      rw [List.getElem?_set_ne elsewhere, listed]
  cases phase with
  | flush parts => exact still parts found failing
  | close parts => exact still parts found failing
  | _ => simp [Phase.parts] at found

theorem acquire_effect (taken : s.acquire c call = some (s', out)) :
    ∃ phase, SectionEffect s c call s' out phase := by
  unfold S2Sink.acquire at taken
  split_ifs at taken with free
  split at taken
  · rename_i runs current
    cases taken
    exact ⟨_, .quiet rfl rfl (fun _ => rfl) (fun _ => by rw [current]; rfl) (by simp [current])
      (by rw [current]; exact id) (by simp) (by simp) (by simp [current]) (by simp)⟩
  · rename_i current
    cases taken
    refine ⟨_, .take rfl rfl (fun t => ?_) rfl rfl (by rw [current]; rfl)
      (by rw [current]; exact id) (by simp) (by simp [current]) (by simp)⟩
    simp [S2Sink.queued, Function.comp_def]
  · rename_i current
    cases taken
    refine ⟨_, .quiet rfl rfl (fun t => ?_) (fun _ => by rw [current]; rfl) (by simp [current])
      (by rw [current]; exact False.elim) (fun obs member => ?_)
      (fun result n same => ?_) (by simp [current]) (by simp)⟩
    · refine sum_map_filter fun producer _ kept => ?_
      have empty : producer.pending = [] := by
        by_contra some_pending
        simp [some_pending] at kept
      rw [empty, List.count_nil]
    · obtain ⟨producer, listed, rfl⟩ := List.mem_map.mp member
      have idle := (List.mem_filter.mp listed).2
      exact ⟨c, producer, rfl, (of_decide_eq_true idle).1⟩
    · cases same
      rfl
  · rename_i current
    cases taken
    exact ⟨_, .take rfl rfl (fun _ => rfl) rfl rfl (by rw [current]; rfl)
      (by rw [current]; exact id) (by simp) (by simp [current]) (by simp)⟩
  · cases taken

/-- A call that consumes the front ticket of a producer. -/
theorem SectionEffect.consume {i : Nat} {producer : ProducerState} {ticket : Ticket}
    {pending : List Ticket} {outcome : Except String Unit}
    (found : s.producers[i]? = some producer) (front : producer.pending = ticket :: pending)
    (resolved : s.tickets[ticket]? = some (some outcome))
    (calls : s'.calls = s.calls.set c { call with phase := phase })
    (tickets : s'.tickets = s.tickets)
    (producers : s'.producers = s.producers.set i { producer with pending := pending })
    (parts : phase.parts = call.phase.parts) (unmarked : call.phase ≠ .marker)
    (fails : call.phase.Failing → phase.Failing)
    (failed : (∃ e, outcome = .error e) → phase.Failing)
    (returns : ∀ result n, phase = .returned result n → n = s.calls.length)
    (running : ∀ result n, call.phase ≠ .returned result n) (unmarked' : phase ≠ .marker) :
    SectionEffect s c call s' [.consumed c ticket outcome] phase := by
  have popped : ∀ t, s'.queued t + [ticket].count t = s.queued t := by
    intro t
    have moved : (s.setProducer i { producer with pending := pending }).queued t + _ = _ :=
      queued_setProducer _ found t
    have same : s'.queued t = (s.setProducer i { producer with pending := pending }).queued t := by
      unfold S2Sink.queued
      rw [producers]
      rfl
    rw [front, List.count_cons] at moved
    rw [same, List.count_cons, List.count_nil]
    dsimp only at moved
    omega
  refine ⟨calls, Or.inl tickets, fun t => ?_, fun t _ => ?_, fun marked => absurd marked unmarked,
    fails, fun c' t o member => ?_, by simp, returns, running, unmarked'⟩
  · have same := no_new_ticket s.tickets.length t
    have balance := popped t
    rw [tickets, if_neg same, consumptions_consumed, Phase.holds, Phase.holds, parts]
    omega
  · have balance := popped t
    omega
  · cases List.mem_singleton.mp member
    exact ⟨rfl, resolved, failed⟩

theorem poll_effect (inFlight : s.calls[c]? = some call)
    (taken : s.poll c call = some (s', out)) : ∃ phase, SectionEffect s c call s' out phase := by
  unfold S2Sink.poll at taken
  split at taken
  · rename_i position runs current
    have parts : call.phase.parts = [] := by rw [current]; rfl
    have unmarked : call.phase ≠ .marker := by simp [current]
    have failing : ¬ call.phase.Failing := by rw [current]; exact id
    have running : ∀ result n, call.phase ≠ .returned result n := by simp [current]
    split at taken
    · cases taken
      exact ⟨_, .quiet rfl rfl (fun _ => rfl) (Phase.holds_eq (by rw [parts]; rfl)) unmarked
        (fun fails => absurd fails failing) (by simp) (by simp) running (by simp)⟩
    · rename_i producer found
      split at taken
      · cases taken
        exact ⟨_, .quiet rfl rfl (fun _ => rfl) (Phase.holds_eq (by rw [parts]; rfl)) unmarked
          (fun fails => absurd fails failing) (by simp) (by simp) running (by simp)⟩
      · rename_i ticket pending front
        split at taken
        · cases taken
        · cases taken
          exact ⟨_, .quiet rfl rfl (fun _ => rfl) (Phase.holds_eq (by rw [parts]; rfl)) unmarked
            (fun fails => absurd fails failing) (by simp) (by simp) running (by simp)⟩
        · rename_i resolved
          cases taken
          have calls : s.calls = s.calls.set c { call with phase := call.phase } :=
            (set_of_getElem? inFlight).symm
          exact ⟨_, .consume found front resolved calls rfl rfl rfl unmarked id (by simp)
            (fun result n same => absurd same (running result n)) running unmarked⟩
        · rename_i e resolved
          cases taken
          refine ⟨_, .consume found front resolved rfl rfl rfl (by rw [parts]; rfl) unmarked
            (fun fails => absurd fails failing) (fun _ => ⟨_, rfl⟩) (fun result n same => ?_) running
            (by simp)⟩
          cases same
          rfl
  · cases taken

theorem ensure_effect {outcome : Except String Unit}
    (taken : s.ensure c call outcome = some (s', out)) :
    ∃ phase, SectionEffect s c call s' out phase := by
  unfold S2Sink.ensure at taken
  split at taken
  · rename_i current
    cases taken
    refine ⟨_, .quiet rfl rfl (fun _ => rfl) (fun _ => by rw [current]; rfl) (by simp [current])
      (by rw [current]; exact False.elim) (by simp) (fun result n same => ?_) (by simp [current])
      (by simp)⟩
    cases same
    rfl
  · rename_i stream run runs current
    have unmarked : call.phase ≠ .marker := by simp [current]
    have failing : ¬ call.phase.Failing := by rw [current]; exact id
    have running : ∀ result n, call.phase ≠ .returned result n := by simp [current]
    split at taken
    · split at taken
      · cases taken
      · rename_i producer found
        cases taken
        refine ⟨_, .quiet rfl rfl (fun t => ?_) (fun _ => by rw [current]; rfl) unmarked
          (fun fails => absurd fails failing) (by simp) (by simp) running (by simp)⟩
        exact Nat.add_right_cancel (queued_setProducer _ found t)
    · split at taken
      · split_ifs at taken with ensures
        cases taken
        refine ⟨_, .quiet rfl rfl (fun _ => rfl) (fun _ => by rw [current]; rfl) unmarked
          (fun fails => absurd fails failing) (by simp) (fun result n same => ?_) running (by simp)⟩
        cases same
        rfl
      · cases taken
        refine ⟨_, .quiet rfl rfl (fun t => ?_) (fun _ => by rw [current]; rfl) unmarked
          (fun fails => absurd fails failing) (by simp) (by simp) running (by simp)⟩
        simp [S2Sink.queued]
  · cases taken

theorem submit_effect {outcome : Except String Unit}
    (taken : s.submit c call outcome = some (s', out)) :
    ∃ phase, SectionEffect s c call s' out phase := by
  unfold S2Sink.submit at taken
  split at taken
  · rename_i stream runs current
    cases taken
    exact ⟨_, .quiet rfl rfl (fun _ => rfl) (fun _ => by rw [current]; rfl) (by simp [current])
      (by rw [current]; exact id) (by simp) (by simp) (by simp [current]) (by simp)⟩
  · rename_i stream record records runs current
    have unmarked : call.phase ≠ .marker := by simp [current]
    have failing : ¬ call.phase.Failing := by rw [current]; exact id
    have running : ∀ result n, call.phase ≠ .returned result n := by simp [current]
    split at taken
    · cases taken
      refine ⟨_, .quiet rfl rfl (fun _ => rfl) (fun _ => by rw [current]; rfl) unmarked
        (fun fails => absurd fails failing) (by simp) (fun result n same => ?_) running (by simp)⟩
      cases same
      rfl
    · split at taken
      · cases taken
      · rename_i i _
        split at taken
        · cases taken
        · rename_i producer found
          cases taken
          have pushed (t : Nat) := queued_setProducer { producer with
            pending := producer.pending ++ [s.tickets.length] } found t
          simp only [List.count_append] at pushed
          refine ⟨.submit stream records runs, rfl, Or.inr rfl, fun t => ?_, fun t bound => ?_,
            fun marked => absurd marked unmarked, fun fails => absurd fails failing, by simp,
            by simp, by simp, running, by simp⟩
          · have held : Phase.holds (.submit stream records runs) t = call.phase.holds t := by
              rw [current]
              rfl
            have moved := pushed t
            have fresh := count_singleton_eq s.tickets.length t
            simp only [List.length_append, List.length_singleton]
            show (s.setProducer i _).queued t + _ + 0 = _
            omega
          · have moved := pushed t
            have fresh := count_singleton_eq s.tickets.length t
            rw [if_neg (by omega)] at fresh
            show (s.setProducer i _).queued t ≤ _
            omega
  · cases taken

theorem await_effect {i : Nat} (taken : s.await c call i = some (s', out)) :
    ∃ phase, SectionEffect s c call s' out phase := by
  unfold S2Sink.await at taken
  split at taken
  · cases taken
  · rename_i part found
    split at taken
    · cases taken
    · rename_i ticket tickets front
      split at taken
      · rename_i outcome resolved
        cases taken
        have awaiting := Phase.awaiting found
        have moved (t : Nat) :=
          Phase.holds_setPart (part.consume tickets outcome) found t
        refine ⟨_, rfl, Or.inl rfl, fun t => ?_, fun _ _ => Nat.le_refl _,
          fun marked => absurd marked awaiting.1,
          fun fails => fails.setPart found fun failed => ?_,
          fun c' t o member => ?_, by simp, fun result n same => ?_, awaiting.2.1, ?_⟩
        · have held := moved t
          rw [front, List.count_cons] at held
          show s.queued t + _ + _ = s.queued t + _ +
            if s.tickets.length ≤ t ∧ t < s.tickets.length then 1 else 0
          rw [if_neg (no_new_ticket s.tickets.length t), consumptions_consumed, List.count_cons,
            List.count_nil]
          simp only [Await.consume] at held ⊢
          omega
        · cases outcome with
          | ok => exact failed
          | error e => simp [Await.consume]
        · cases List.mem_singleton.mp member
          refine ⟨rfl, resolved, fun erroneous => ?_⟩
          obtain ⟨e, rfl⟩ := erroneous
          exact Phase.failing_setPart found (by simp [Await.consume])
        · exact absurd same ((awaiting.2.2 _).1 result n)
        · exact (awaiting.2.2 _).2
      · cases taken

theorem close_effect {i : Nat} {outcome : Except String Unit}
    (taken : s.close c call i outcome = some (s', out)) :
    ∃ phase, SectionEffect s c call s' out phase := by
  unfold S2Sink.close at taken
  split at taken
  · rename_i parts current
    split at taken
    · cases taken
    · rename_i part found
      split_ifs at taken with awaited
      cases taken
      have listed : call.phase.parts[i]? = some part := by rw [current]; exact found
      have awaiting := Phase.awaiting listed
      refine ⟨_, .quiet rfl rfl (fun _ => rfl) (fun t => ?_) awaiting.1
        (fun fails => fails.setPart listed id) (by simp)
        (fun result n same => absurd same ((awaiting.2.2 _).1 result n)) awaiting.2.1
        (awaiting.2.2 _).2⟩
      exact Nat.add_right_cancel
        (Phase.holds_setPart { part with closed := some outcome } listed t)
  · cases taken

/-- Parts whose sum is no error have none themselves. -/
theorem firstError_eq_none {part : Await} {n : Nat} (flushed : part.flushed = .ok n) :
    part.firstError = none := by
  unfold Await.flushed at flushed
  split at flushed
  · cases flushed
  · assumption

theorem Phase.holds_eq_zero (awaited : ∀ part ∈ phase.parts, part.tickets = []) (t : Nat) :
    phase.holds t = 0 := by
  refine List.sum_eq_zero fun n member => ?_
  obtain ⟨part, listed, rfl⟩ := List.mem_map.mp member
  rw [awaited part listed, List.count_nil]

theorem joined_effect (taken : s.joined c call = some (s', out)) :
    ∃ phase, SectionEffect s c call s' out phase := by
  unfold S2Sink.joined at taken
  split at taken
  · rename_i parts current
    have unmarked : call.phase ≠ .marker := by simp [current]
    have running : ∀ result n, call.phase ≠ .returned result n := by simp [current]
    split at taken
    · rename_i awaited
      have nothing : ∀ t, call.phase.holds t = 0 := by
        rw [current]
        refine Phase.holds_eq_zero fun part member => ?_
        exact of_decide_eq_true (List.all_eq_true.mp awaited part member)
      split at taken
      · rename_i e summed
        cases taken
        refine ⟨_, .quiet rfl rfl (fun _ => rfl) (fun t => (nothing t).symm) unmarked
          (fun _ => ⟨_, rfl⟩) (by simp) (fun result n same => ?_) running (by simp)⟩
        cases same
        rfl
      · rename_i n summed
        have failing : ¬ call.phase.Failing := by
          rw [current]
          intro ⟨part, member, failed⟩
          obtain ⟨k, flushed⟩ := sumOrFirstError_eq_ok summed _ (List.mem_map_of_mem member)
          rw [firstError_eq_none flushed] at failed
          cases failed
        split_ifs at taken with template
        · cases taken
          exact ⟨_, .quiet rfl rfl (fun _ => rfl) (fun t => (nothing t).symm) unmarked
            (fun fails => absurd fails failing) (by simp) (by simp) running (by simp)⟩
        · cases taken
          refine ⟨_, .quiet rfl rfl (fun _ => rfl) (fun t => (nothing t).symm) unmarked
            (fun fails => absurd fails failing) (by simp) (fun result n same => ?_) running
            (by simp)⟩
          cases same
          rfl
    · cases taken
  · rename_i parts current
    have unmarked : call.phase ≠ .marker := by simp [current]
    have running : ∀ result n, call.phase ≠ .returned result n := by simp [current]
    split at taken
    · rename_i awaited
      have nothing : ∀ t, call.phase.holds t = 0 := by
        rw [current]
        refine Phase.holds_eq_zero fun part member => ?_
        exact (of_decide_eq_true (List.all_eq_true.mp awaited part member)).1
      split at taken
      · rename_i e summed
        cases taken
        refine ⟨_, .quiet rfl rfl (fun _ => rfl) (fun t => (nothing t).symm) unmarked
          (fun _ => ⟨_, rfl⟩) (by simp) (fun result n same => ?_) running (by simp)⟩
        cases same
        rfl
      · rename_i n summed
        have failing : ¬ call.phase.Failing := by
          rw [current]
          intro ⟨part, member, failed⟩
          obtain ⟨k, flushed⟩ := sumOrFirstError_eq_ok summed part.flushed
            (List.mem_flatMap.mpr ⟨part, member, List.mem_cons_self⟩)
          rw [firstError_eq_none flushed] at failed
          cases failed
        cases taken
        refine ⟨_, .quiet rfl rfl (fun _ => rfl) (fun t => (nothing t).symm) unmarked
          (fun fails => absurd fails failing) (by simp) (fun result n same => ?_) running
          (by simp)⟩
        cases same
        rfl
    · cases taken
  · cases taken

end effects

/-! ## Every run -/

/-- What a call holds. -/
def S2Sink.holdsOf (s : S2Sink) (c : Nat) (t : Nat) : Nat :=
  match s.calls[c]? with
  | some call => call.phase.holds t
  | none => 0

/-- Where the tickets of a run are. -/
structure TicketInv (s : S2Sink) (log : List S2Obs) : Prop where
  counted : ∀ t, consumptions log t + s.queued t + s.awaited t =
    if t < s.tickets.length then 1 else 0
  resolved : ∀ c t outcome, .consumed c t outcome ∈ log → s.tickets[t]? = some (some outcome)
  known : ∀ c t outcome, .consumed c t outcome ∈ log → ∃ call, s.calls[c]? = some call ∧
    ((∃ e, outcome = .error e) → call.phase.Failing)
  evicted : ∀ c producer, .evicted c producer ∈ log → producer.pending = []
  bounded : ∀ call ∈ s.calls, call.submittedBefore ≤ s.tickets.length
  /-- A marker that flushed left nothing queued from before it. -/
  flushed : ∀ call ∈ s.calls, call.kind = .marker → call.phase ≠ .marker →
    ∀ t < call.submittedBefore, s.queued t = 0
  /-- Calls that began after a marker returned never get hold of tickets from before it. -/
  later : ∀ call ∈ s.calls, call.kind = .marker → ∀ result n, call.phase = .returned result n →
    ∀ c ≥ n, ∀ t < call.submittedBefore,
      s.holdsOf c t = 0 ∧ ∀ outcome, .consumed c t outcome ∉ log
  began : ∀ call ∈ s.calls, call.kind = .marker → ∀ result n, call.phase = .returned result n →
    n ≤ s.calls.length

section runs

variable {s s' : S2Sink} {c : Nat} {call : Call} {log out : List S2Obs} {phase : Phase}

theorem SectionEffect.grown (effect : SectionEffect s c call s' out phase) :
    s.tickets.length ≤ s'.tickets.length := by
  rcases effect.tickets with same | pushed
  · exact same ▸ Nat.le_refl _
  · rw [pushed, List.length_append]
    omega

/-- What a ticket resolved to stays. -/
theorem SectionEffect.kept (effect : SectionEffect s c call s' out phase) {t : Nat}
    {outcome : Except String Unit} (found : s.tickets[t]? = some (some outcome)) :
    s'.tickets[t]? = some (some outcome) := by
  rcases effect.tickets with same | pushed
  · rw [same, found]
  · rw [pushed, List.getElem?_append_left (List.getElem?_eq_some_iff.mp found).1, found]

theorem SectionEffect.mem_calls (effect : SectionEffect s c call s' out phase) {other : Call}
    (listed : other ∈ s'.calls) : other ∈ s.calls ∨ other = { call with phase := phase } :=
  List.mem_or_eq_of_mem_set (effect.calls ▸ listed)

/-- A ticket that is neither queued nor held by a call stays out of its reach. -/
theorem SectionEffect.out_of_reach (effect : SectionEffect s c call s' out phase) {t : Nat}
    (old : t < s.tickets.length) (unqueued : s.queued t = 0) (free : call.phase.holds t = 0) :
    phase.holds t = 0 ∧ consumptions out t = 0 := by
  have balance := effect.balance t
  rw [if_neg (by omega)] at balance
  omega

theorem TicketInv.flushed_section (inv : TicketInv s log) (inFlight : s.calls[c]? = some call)
    (effect : SectionEffect s c call s' out phase) {other : Call} (listed : other ∈ s'.calls)
    (marker : other.kind = .marker) (past : other.phase ≠ .marker) {t : Nat}
    (before : t < other.submittedBefore) : s'.queued t = 0 := by
  have drained {old : Call} (member : old ∈ s.calls) (kind : old.kind = .marker)
      (done : old.phase ≠ .marker) (before : t < old.submittedBefore) : s'.queued t = 0 := by
    have unqueued := inv.flushed old member kind done t before
    have drains := effect.drains t (before.trans_le (inv.bounded old member))
    omega
  have member : call ∈ s.calls := List.mem_of_getElem? inFlight
  rcases effect.mem_calls listed with old | rfl
  · exact drained old marker past before
  · rcases eq_or_ne call.phase .marker with waiting | done
    · exact effect.takes waiting t (before.trans_le (inv.bounded call member))
    · exact drained member marker done before

theorem TicketInv.later_section (inv : TicketInv s log) (inFlight : s.calls[c]? = some call)
    (effect : SectionEffect s c call s' out phase) {marker : Call} (listed : marker ∈ s'.calls)
    (kind : marker.kind = .marker) {result : Except String Unit} {n : Nat}
    (returned : marker.phase = .returned result n) {c' : Nat} (after : n ≤ c') {t : Nat}
    (before : t < marker.submittedBefore) :
    s'.holdsOf c' t = 0 ∧ ∀ outcome, .consumed c' t outcome ∉ log ++ out := by
  have bound := (List.getElem?_eq_some_iff.mp inFlight).1
  rcases effect.mem_calls listed with old | rfl
  · have old_ticket := before.trans_le (inv.bounded marker old)
    have unqueued := inv.flushed marker old kind (by simp [returned]) t before
    obtain ⟨free, unconsumed⟩ := inv.later marker old kind result n returned c' after t before
    rcases eq_or_ne c c' with rfl | other
    · rw [S2Sink.holdsOf, inFlight] at free
      obtain ⟨held, none_consumed⟩ := effect.out_of_reach old_ticket unqueued free
      refine ⟨?_, fun outcome member => ?_⟩
      · rw [S2Sink.holdsOf, effect.calls, List.getElem?_set_self bound]
        exact held
      · rcases List.mem_append.mp member with past | now
        · exact unconsumed outcome past
        · have some_time := consumptions_of_mem now
          omega
    · refine ⟨?_, fun outcome member => ?_⟩
      · rw [S2Sink.holdsOf, effect.calls, List.getElem?_set_ne other]
        exact free
      · rcases List.mem_append.mp member with past | now
        · exact unconsumed outcome past
        · exact other (effect.consumes c' t outcome now).1.symm
  · have everyone : n = s.calls.length := effect.returns result n returned
    refine ⟨?_, fun outcome member => ?_⟩
    · rw [S2Sink.holdsOf, effect.calls, List.getElem?_eq_none (by rw [List.length_set]; omega)]
    · rcases List.mem_append.mp member with past | now
      · obtain ⟨other, found, _⟩ := inv.known c' t outcome past
        have within := (List.getElem?_eq_some_iff.mp found).1
        omega
      · have own := (effect.consumes c' t outcome now).1
        omega

/-- A section of a call keeps the accounts. -/
theorem TicketInv.section (inv : TicketInv s log) (inFlight : s.calls[c]? = some call)
    (effect : SectionEffect s c call s' out phase) : TicketInv s' (log ++ out) where
  counted t := by
    have moved : s'.awaited t + call.phase.holds t = s.awaited t + phase.holds t := by
      unfold S2Sink.awaited
      rw [effect.calls]
      exact sum_map_set inFlight (fun call => call.phase.holds t) { call with phase := phase }
    have balance := effect.balance t
    have counted := inv.counted t
    have grown := effect.grown
    rw [consumptions_append]
    split_ifs at balance counted ⊢ <;> omega
  resolved c' t outcome member := by
    rcases List.mem_append.mp member with past | now
    · exact effect.kept (inv.resolved c' t outcome past)
    · exact effect.kept (effect.consumes c' t outcome now).2.1
  known c' t outcome member := by
    have bound := (List.getElem?_eq_some_iff.mp inFlight).1
    have self : s'.calls[c]? = some { call with phase := phase } := by
      rw [effect.calls, List.getElem?_set_self bound]
    rcases List.mem_append.mp member with past | now
    · obtain ⟨other, found, failing⟩ := inv.known c' t outcome past
      rcases eq_or_ne c c' with rfl | different
      · obtain rfl : call = other := Option.some.inj (inFlight.symm.trans found)
        exact ⟨_, self, fun erroneous => effect.fails (failing erroneous)⟩
      · refine ⟨other, ?_, failing⟩
        rw [effect.calls, List.getElem?_set_ne different, found]
    · obtain ⟨rfl, _, failing⟩ := effect.consumes c' t outcome now
      exact ⟨_, self, failing⟩
  evicted c' producer member := by
    rcases List.mem_append.mp member with past | now
    · exact inv.evicted c' producer past
    · exact effect.evicts c' producer now
  bounded other listed := by
    rcases effect.mem_calls listed with old | rfl
    · exact (inv.bounded other old).trans effect.grown
    · exact (inv.bounded call (List.mem_of_getElem? inFlight)).trans effect.grown
  flushed _ listed marker past _ before :=
    inv.flushed_section inFlight effect listed marker past before
  later _ listed kind _ _ returned _ after _ before :=
    inv.later_section inFlight effect listed kind returned after before
  began other listed kind result n returned := by
    rw [effect.calls, List.length_set]
    rcases effect.mem_calls listed with old | rfl
    · exact inv.began other old kind result n returned
    · exact (effect.returns result n returned).le

/-- A call begins. -/
theorem TicketInv.begins (inv : TicketInv s log) {new : Call}
    (calls : s'.calls = s.calls ++ [new]) (tickets : s'.tickets = s.tickets)
    (producers : s'.producers = s.producers) (before : new.submittedBefore = s.tickets.length)
    (parts : new.phase.parts = []) (waits : new.kind = .marker → new.phase = .marker) :
    TicketInv s' log := by
  have queued (t : Nat) : s'.queued t = s.queued t := by
    rw [S2Sink.queued, S2Sink.queued, producers]
  have holds (t : Nat) : new.phase.holds t = 0 := by
    rw [Phase.holds, parts]
    rfl
  have found {c : Nat} {call : Call} (inFlight : s.calls[c]? = some call) :
      s'.calls[c]? = some call := by
    rw [calls, List.getElem?_append_left (List.getElem?_eq_some_iff.mp inFlight).1, inFlight]
  have old {call : Call} (listed : call ∈ s'.calls) : call ∈ s.calls ∨ call = new := by
    rw [calls] at listed
    exact (List.mem_append.mp listed).imp_right List.mem_singleton.mp
  have marked {call : Call} (listed : call ∈ s'.calls) (kind : call.kind = .marker)
      (past : call.phase ≠ .marker) : call ∈ s.calls := by
    rcases old listed with member | rfl
    · exact member
    · exact absurd (waits kind) past
  refine ⟨fun t => ?_, tickets ▸ inv.resolved, fun c t outcome member => ?_, inv.evicted,
    fun call listed => ?_, fun call listed kind past t bound => ?_,
    fun call listed kind result n returned c after t bound => ?_,
    fun call listed kind result n returned => ?_⟩
  · have counted := inv.counted t
    have awaited : s'.awaited t = s.awaited t := by
      rw [S2Sink.awaited, S2Sink.awaited, calls, List.map_append, List.sum_append]
      simp [holds]
    rwa [queued, awaited, tickets]
  · obtain ⟨call, inFlight, failing⟩ := inv.known c t outcome member
    exact ⟨call, found inFlight, failing⟩
  · rw [tickets]
    rcases old listed with member | rfl
    · exact inv.bounded call member
    · exact before.le
  · rw [queued]
    exact inv.flushed call (marked listed kind past) kind past t bound
  · have member := marked listed kind (by simp [returned])
    obtain ⟨free, unconsumed⟩ := inv.later call member kind result n returned c after t bound
    refine ⟨?_, unconsumed⟩
    unfold S2Sink.holdsOf at free ⊢
    rw [calls]
    rcases Nat.lt_or_ge c s.calls.length with within | beyond
    · rwa [List.getElem?_append_left within]
    · rw [List.getElem?_append_right beyond]
      cases c - s.calls.length with
      | zero => exact holds t
      | succ i => rfl
  · have within := inv.began call (marked listed kind (by simp [returned])) kind result n returned
    rw [calls, List.length_append]
    omega

/-- What moves no call and no ticket. -/
theorem TicketInv.environment (inv : TicketInv s log) (calls : s'.calls = s.calls)
    (length : s'.tickets.length = s.tickets.length)
    (kept : ∀ (t : Nat) (outcome : Except String Unit),
      s.tickets[t]? = some (some outcome) → s'.tickets[t]? = some (some outcome))
    (queued : ∀ t, s'.queued t = s.queued t) : TicketInv s' log := by
  have holds (c t : Nat) : s'.holdsOf c t = s.holdsOf c t := by
    rw [S2Sink.holdsOf, S2Sink.holdsOf, calls]
  refine ⟨fun t => ?_, fun c t outcome member => kept t outcome (inv.resolved c t outcome member),
    calls ▸ inv.known, inv.evicted, ?_, ?_, ?_, calls ▸ inv.began⟩
  · rw [queued, S2Sink.awaited, calls, length]
    exact inv.counted t
  · rw [calls, length]
    exact inv.bounded
  · simpa only [calls, queued] using inv.flushed
  · simpa only [calls, holds] using inv.later

theorem TicketInv.onCall (inv : TicketInv s log)
    {next : Call → Option (S2Sink × List S2Obs)} (taken : s.onCall c next = some (s', out))
    (effect : ∀ call, s.calls[c]? = some call → next call = some (s', out) →
      ∃ phase, SectionEffect s c call s' out phase) : TicketInv s' (log ++ out) := by
  unfold S2Sink.onCall at taken
  split at taken
  · cases taken
  · rename_i call inFlight
    obtain ⟨phase, effect⟩ := effect call inFlight taken
    exact inv.section inFlight effect

theorem TicketInv.step (inv : TicketInv s log) {e : S2Event}
    (taken : s.step e = some (s', out)) : TicketInv s' (log ++ out) := by
  cases e with
  | processBatch numRows routed =>
      simp only [S2Sink.step] at taken
      split_ifs at taken
      · cases taken
        rw [List.append_nil]
        exact inv.begins rfl rfl rfl rfl rfl (by simp)
      · cases taken
        rw [List.append_nil]
        exact inv.begins rfl rfl rfl rfl rfl (by simp)
      · split at taken
        · cases taken
          rw [List.append_nil]
          exact inv.begins rfl rfl rfl rfl rfl (by simp)
        · cases taken
          rw [List.append_nil]
          exact inv.begins rfl rfl rfl rfl rfl (by simp)
  | processCheckpointMarker =>
      cases taken
      rw [List.append_nil]
      exact inv.begins rfl rfl rfl rfl rfl (by simp)
  | terminate =>
      cases taken
      rw [List.append_nil]
      exact inv.begins rfl rfl rfl rfl rfl (by simp)
  | lock c => exact inv.onCall taken fun _ _ => acquire_effect
  | poll c => exact inv.onCall taken fun _ => poll_effect
  | ensure c outcome => exact inv.onCall taken fun _ _ => ensure_effect
  | submit c outcome => exact inv.onCall taken fun _ _ => submit_effect
  | await c i => exact inv.onCall taken fun _ _ => await_effect
  | close c i outcome => exact inv.onCall taken fun _ _ => close_effect
  | joined c => exact inv.onCall taken fun _ _ => joined_effect
  | resolve ticket outcome =>
      simp only [S2Sink.step] at taken
      split at taken
      · rename_i unresolved
        cases taken
        rw [List.append_nil]
        refine inv.environment rfl (List.length_set ..) (fun t o found => ?_) fun _ => rfl
        have other : ticket ≠ t := by
          intro same
          rw [same, found] at unresolved
          cases unresolved
        exact (List.getElem?_set_ne other).trans found
      · cases taken
  | tick =>
      cases taken
      rw [List.append_nil]
      exact inv.environment rfl rfl (fun _ _ found => found) fun _ => rfl
  | reorder producers =>
      simp only [S2Sink.step] at taken
      split_ifs at taken with allowed
      cases taken
      rw [List.append_nil]
      exact inv.environment rfl rfl (fun _ _ found => found)
        fun t => (allowed.2.map _).sum_eq

theorem TicketInv.start (streamId : String) (fixed : Option String) (ensureStream : Bool) :
    TicketInv (.new streamId fixed ensureStream) [] := by
  refine ⟨fun t => ?_, by simp, by simp, by simp, by simp [S2Sink.new], by simp [S2Sink.new],
    by simp [S2Sink.new], by simp [S2Sink.new]⟩
  cases fixed <;> simp [S2Sink.queued, S2Sink.awaited, S2Sink.new]

/-- The accounts of a run: every submitted ticket was consumed once or is still held,
a call that consumed a failed ticket returns an error, no producer was evicted with a
ticket pending, and what was submitted before a marker is acknowledged once all calls
that began before the marker returned, itself included, returned without an error. -/
structure Accounted (s : S2Sink) (log : List S2Obs) : Prop where
  once : ∀ t < s.tickets.length, consumptions log t + s.queued t + s.awaited t = 1
  failed : ∀ c t e, .consumed c t (.error e) ∈ log → ∀ (call : Call) (result : Except String Unit)
    (n : Nat), s.calls[c]? = some call → call.phase = .returned result n → ∃ e', result = .error e'
  evicted : ∀ c producer, .evicted c producer ∈ log → producer.pending = []
  acknowledged : ∀ (m : Nat) (marker : Call) (n : Nat), s.calls[m]? = some marker →
    marker.kind = .marker → marker.phase = .returned (.ok ()) n →
    (∀ c < n, ∃ (call : Call) (k : Nat),
      s.calls[c]? = some call ∧ call.phase = .returned (.ok ()) k) →
    ∀ t < marker.submittedBefore, s.tickets[t]? = some (some (.ok ()))

/-- **Ticket accounting**, in every run of the sink. -/
theorem S2Sink.accounted {streamId : String} {fixed : Option String} {ensureStream : Bool}
    (reached : S2Sink.machine.Reaches (.new streamId fixed ensureStream) s log) :
    Accounted s log := by
  have inv : TicketInv s log :=
    reached.invariant (TicketInv.start streamId fixed ensureStream) fun inv _ => inv.step
  refine ⟨fun t bound => by have := inv.counted t; rwa [if_pos bound] at this,
    fun c t e member call result n inFlight returned => ?_, inv.evicted,
    fun m marker n inFlight kind returned all t before => ?_⟩
  · obtain ⟨call', found, failing⟩ := inv.known c t _ member
    obtain rfl : call = call' := Option.some.inj (inFlight.symm.trans found)
    have fails := failing ⟨e, rfl⟩
    rw [returned] at fails
    exact fails
  · have listed : marker ∈ s.calls := List.mem_of_getElem? inFlight
    have submitted := before.trans_le (inv.bounded marker listed)
    have unqueued := inv.flushed marker listed kind (by simp [returned]) t before
    have later := fun c after => inv.later marker listed kind _ n returned c after t before
    -- No call holds the ticket: those that could have returned.
    have unheld : s.awaited t = 0 := by
      refine List.sum_eq_zero fun k member => ?_
      obtain ⟨call, known, rfl⟩ := List.mem_map.mp member
      obtain ⟨c, found⟩ := List.getElem?_of_mem known
      rcases Nat.lt_or_ge c n with early | late
      · obtain ⟨call', k, found', done⟩ := all c early
        obtain rfl : call = call' := Option.some.inj (found.symm.trans found')
        rw [done]
        rfl
      · have free := (later c late).1
        rwa [S2Sink.holdsOf, found] at free
    have counted := inv.counted t
    rw [if_pos submitted] at counted
    have some_time : 0 < consumptions log t := by omega
    obtain ⟨c, outcome, consumed⟩ := consumptions_pos some_time
    have early : c < n := by
      by_contra late
      exact (later c (Nat.not_lt.mp late)).2 outcome consumed
    obtain ⟨call, found, failing⟩ := inv.known c t outcome consumed
    obtain ⟨call', k, found', done⟩ := all c early
    obtain rfl : call = call' := Option.some.inj (found.symm.trans found')
    cases outcome with
    | ok => exact inv.resolved c t _ consumed
    | error e =>
        have fails := failing ⟨e, rfl⟩
        rw [done] at fails
        obtain ⟨e', impossible⟩ := fails
        cases impossible

/-- A batch that starts after a marker and runs before the marker takes the pending tickets
consumes the failed one, and the marker returns without an error. -/
theorem S2Sink.overlapping_batch_takes_failure : ∃ s log,
    S2Sink.machine.Reaches (.new "basin/a" (some "a") true) s log ∧
      ∃ (marker : Call) (n : Nat), s.calls[1]? = some marker ∧ marker.kind = .marker ∧
        marker.phase = .returned (.ok ()) n ∧
        (∀ c ≤ 1, ∃ (call : Call) (k : Nat),
          s.calls[c]? = some call ∧ call.phase = .returned (.ok ()) k) ∧
        ∃ t < marker.submittedBefore, ∃ e, s.tickets[t]? = some (some (.error e)) := by
  have reached : S2Sink.machine.Reaches (.new "basin/a" (some "a") true) _ _ := .of_run
    [.processBatch 1 (.ok [("a", ["{}"])]), .lock 0, .poll 0, .poll 0, .ensure 0 (.ok ()),
      .submit 0 (.ok ()), .submit 0 (.ok ()), .ensure 0 (.ok ()), .processCheckpointMarker,
      .processBatch 1 (.ok [("a", ["{}"])]), .resolve 0 (.error "rejected"), .lock 2, .poll 2,
      .lock 1, .joined 1] rfl
  refine ⟨_, _, reached, _, _, rfl, rfl, rfl, fun c before => ?_, 0, Nat.one_pos, _, rfl⟩
  match c with
  | 0 => exact ⟨_, _, rfl, rfl⟩
  | 1 => exact ⟨_, _, rfl, rfl⟩
  | c + 2 => omega

/-- A record submitted, appended, and flushed by a marker. -/
theorem S2Sink.accounted_flushed : ∃ s log,
    S2Sink.machine.Reaches (.new "basin/a" (some "a") true) s log ∧ Accounted s log ∧
      s.tickets[0]? = some (some (.ok ())) := by
  have reached : S2Sink.machine.Reaches (.new "basin/a" (some "a") true) _ _ := .of_run
    [.processBatch 1 (.ok [("a", ["{}"])]), .lock 0, .poll 0, .poll 0, .ensure 0 (.ok ()),
      .submit 0 (.ok ()), .submit 0 (.ok ()), .ensure 0 (.ok ()), .processCheckpointMarker,
      .lock 1, .resolve 0 (.ok ()), .await 1 0, .joined 1] rfl
  exact ⟨_, _, reached, S2Sink.accounted reached, rfl⟩

end runs

end StreamlingPlugins.S2
