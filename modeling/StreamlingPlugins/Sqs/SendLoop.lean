import StreamlingPlugins.Sqs.Sink

/-!
# Sending every message once

A reply that conforms splits the messages of its request: those accepted, and
those to retry.  Attempts keep this split until nothing is left to retry, and the
loop over the chunks keeps it over all bodies.
-/

namespace StreamlingPlugins.Sqs

/-! ## Positions in a list -/

theorem filterMap_range_getElem? {α : Type} (l : List α) :
    (List.range l.length).filterMap (l[·]?) = l := by
  induction l with
  | nil => rfl
  | cons a l ih =>
      rw [List.length_cons, List.range_succ_eq_map, List.filterMap_cons, List.filterMap_map]
      exact congrArg (a :: ·) ih

/-- Choosing elements by position, from the numbered list or from the positions. -/
theorem filterMap_filter_range {α : Type} (l : List α) (keep : Nat → Bool) :
    ((List.range l.length).filter keep).filterMap (l[·]?) =
      (l.zipIdx.filter fun p => keep p.2).map Prod.fst := by
  have numbered : List.range l.length = l.zipIdx.map Prod.snd := by
    rw [List.zipIdx_map_snd, List.range_eq_range']
  rw [numbered, List.filter_map, List.filterMap_map, ← List.filterMap_eq_map]
  refine List.filterMap_congr fun p listed => ?_
  exact List.mk_mem_zipIdx_iff_getElem?.mp (List.mem_of_mem_filter listed)

/-- A nodup list of positions and the positions outside of it make up the list. -/
theorem filterMap_split_perm {α : Type} {l : List α} {positions : List Nat}
    (distinct : positions.Nodup) (bound : ∀ i ∈ positions, i < l.length) :
    (((List.range l.length).filter fun i => i ∉ positions).filterMap (l[·]?) ++
      positions.filterMap (l[·]?)).Perm l := by
  have listed : ((List.range l.length).filter fun i => i ∈ positions).Perm positions := by
    refine (List.perm_ext_iff_of_nodup (List.nodup_range.filter _) distinct).mpr fun i => ?_
    simp only [List.mem_filter, List.mem_range, decide_eq_true_eq]
    exact ⟨fun member => member.2, fun member => ⟨bound i member, member⟩⟩
  have split := List.filter_append_perm (fun i => decide (i ∈ positions)) (List.range l.length)
  have swapped := (List.perm_append_comm.trans split).filterMap (l[·]?)
  rw [filterMap_range_getElem?, List.filterMap_append] at swapped
  simp only [decide_not]
  exact (List.Perm.append_left _ (listed.filterMap _).symm).trans swapped

theorem exists_map_eq {α β : Type} {f : α → β} {P : α → Prop} {l : List β}
    (images : ∀ b ∈ l, ∃ a, P a ∧ f a = b) : ∃ m : List α, m.map f = l ∧ ∀ a ∈ m, P a := by
  induction l with
  | nil => exact ⟨[], rfl, by simp⟩
  | cons b l ih =>
      obtain ⟨a, holds, image⟩ := images b List.mem_cons_self
      obtain ⟨m, mapped, all⟩ := ih fun b' member => images b' (List.mem_cons_of_mem _ member)
      exact ⟨a :: m, by rw [List.map_cons, image, mapped], List.forall_mem_cons.mpr ⟨holds, all⟩⟩

/-! ## Requests within the limits -/

/-- What SQS takes in one request. -/
structure Request.Within (maxBytes : Nat) (request : Request) : Prop where
  nonempty : 1 ≤ request.entries.length
  count : request.entries.length ≤ 10
  distinct : (request.entries.map Entry.id).Nodup
  bytes : (request.entries.map fun entry => len entry.messageBody).sum ≤ maxBytes

/-- Requests within the limits that were issued after `log`. -/
structure Issued (service : Service) (maxBytes : Nat) (log issued : List Request) : Prop where
  answers : service.Answers log issued
  within : ∀ request ∈ issued, request.Within maxBytes

namespace Issued

variable {service : Service} {maxBytes : Nat} {log issued issued' : List Request}

theorem nil : Issued service maxBytes log [] :=
  ⟨trivial, by simp⟩

theorem cons {request : Request} (replied : request.reply = service log request.entries)
    (within : request.Within maxBytes)
    (rest : Issued service maxBytes (log ++ [request]) issued) :
    Issued service maxBytes log (request :: issued) :=
  ⟨⟨replied, rest.answers⟩, List.forall_mem_cons.mpr ⟨within, rest.within⟩⟩

theorem append (first : Issued service maxBytes log issued)
    (rest : Issued service maxBytes (log ++ issued) issued') :
    Issued service maxBytes log (issued ++ issued') := by
  refine ⟨?_, List.forall_mem_append.mpr ⟨first.within, rest.within⟩⟩
  replace rest := rest.answers
  replace first := first.answers
  induction issued generalizing log with
  | nil => simpa using rest
  | cons request issued ih =>
      rw [List.append_cons] at rest
      exact ⟨first.1, ih rest first.2⟩

end Issued

def bytes (messages : List Message) : Nat :=
  (messages.map fun message => len message.2).sum

@[simp] theorem bytes_nil : bytes [] = 0 := rfl

@[simp] theorem bytes_cons (message : Message) (messages : List Message) :
    bytes (message :: messages) = len message.2 + bytes messages := by
  simp [bytes]

theorem bytes_of_perm_append {front back all : List Message} (perm : (front ++ back).Perm all) :
    bytes back ≤ bytes all := by
  have sums := (perm.map fun message => len message.2).sum_eq
  rw [List.map_append, List.sum_append] at sums
  unfold bytes
  omega

/-- Messages that one request may carry. -/
structure Fits (maxBytes : Nat) (messages : List Message) : Prop where
  nonempty : messages ≠ []
  count : messages.length ≤ sqsMaxBatchSize
  within : bytes messages ≤ maxBytes

@[simp] theorem length_entries (messages : List Message) :
    (entries messages).length = messages.length := by
  simp [entries]

theorem entries_ids (messages : List Message) :
    (entries messages).map Entry.id = (List.range messages.length).map entryId := by
  rw [entries, List.map_map, List.range_eq_range', ← List.zipIdx_map_snd 0, List.map_map]
  rfl

theorem entries_bytes (messages : List Message) :
    ((entries messages).map fun entry => len entry.messageBody).sum = bytes messages := by
  have bodies : (entries messages).map (fun entry => len entry.messageBody) =
      (messages.zipIdx.map Prod.fst).map fun message => len message.2 := by
    rw [entries, List.map_map, List.map_map]
    rfl
  rw [bodies, List.zipIdx_map_fst]
  rfl

theorem parseUsize_entryId {i : Nat} (fits : i < 2 ^ 64) :
    (stripStart "msg_" (entryId i)).bind parseUsize = some i := by
  rw [entryId, stripStart_append]
  exact parseUsize_repr fits

theorem entryId_injOn {i j : Nat} (fits : i < 2 ^ 64) (fits' : j < 2 ^ 64)
    (same : entryId i = entryId j) : i = j := by
  have parsed := parseUsize_entryId fits
  rw [same, parseUsize_entryId fits'] at parsed
  exact (Option.some.inj parsed).symm

theorem entries_ids_nodup {messages : List Message} (small : messages.length ≤ 2 ^ 64) :
    ((entries messages).map Entry.id).Nodup := by
  rw [entries_ids]
  refine List.nodup_range.map_on fun i member j member' => ?_
  rw [List.mem_range] at member member'
  exact entryId_injOn (by omega) (by omega)

/-- Messages that fit make a request within the limits. -/
theorem Fits.request {maxBytes : Nat} {messages : List Message} (fits : Fits maxBytes messages)
    (reply : Reply) : Request.Within maxBytes ⟨entries messages, reply⟩ where
  nonempty := by
    rw [length_entries]
    exact List.length_pos_iff_ne_nil.mpr fits.nonempty
  count := by
    rw [length_entries]
    exact fits.count
  distinct := entries_ids_nodup (fits.count.trans (by decide))
  bytes := by
    rw [entries_bytes]
    exact fits.within

/-! ## One reply -/

section reply

variable {sent : List Message} {failed : List Failed}

theorem position_eq {f : Failed} {i : Nat} (small : sent.length ≤ 2 ^ 64)
    (bound : i < sent.length) (id : f.id = entryId i) : position sent f = some i := by
  rw [position, id, parseUsize_entryId (by omega)]
  simpa using bound

/-- The positions behind the ids of a conforming reply. -/
theorem exists_positions (small : sent.length ≤ 2 ^ 64)
    (distinct : (failed.map Failed.id).Nodup)
    (among : ∀ f ∈ failed, f.id ∈ (entries sent).map Entry.id) :
    ∃ positions : List Nat, failed.map (position sent) = positions.map some ∧
      failed.map Failed.id = positions.map entryId ∧ positions.Nodup ∧
      ∀ i ∈ positions, i < sent.length := by
  have images : ∀ o ∈ failed.map fun f => (position sent f, f.id),
      ∃ i, i < sent.length ∧ (some i, entryId i) = o := by
    refine List.forall_mem_map.mpr fun f member => ?_
    obtain ⟨i, bound, id⟩ := List.mem_map.mp (entries_ids sent ▸ among f member)
    rw [List.mem_range] at bound
    exact ⟨i, bound, by rw [position_eq small bound id.symm, id]⟩
  obtain ⟨positions, mapped, bound⟩ := exists_map_eq images
  have found := congrArg (List.map Prod.fst) mapped
  have ids := congrArg (List.map Prod.snd) mapped
  simp only [List.map_map] at found ids
  have ids : failed.map Failed.id = positions.map entryId := ids.symm
  rw [ids] at distinct
  exact ⟨positions, found.symm, ids, .of_map entryId distinct, bound⟩

theorem failedToRetry_eq {positions : List Nat}
    (found : failed.map (position sent) = positions.map some) :
    failedToRetry sent failed = positions.filterMap (sent[·]?) := by
  have mapped : failedToRetry sent failed =
      (failed.map (position sent)).filterMap fun p => p.bind (sent[·]?) := by
    rw [List.filterMap_map]
    rfl
  rw [mapped, found, List.filterMap_map]
  rfl

/-- The messages of a request that are not reported as failed. -/
def taken (sent : List Message) (failed : List Failed) : List Message :=
  ((List.range sent.length).filter fun i =>
    entryId i ∉ failed.map Failed.id).filterMap (sent[·]?)

theorem accepted_entries (sent : List Message) (failed : List Failed) :
    Request.accepted ⟨entries sent, .ok failed⟩ = (taken sent failed).map Prod.snd := by
  simp only [taken, filterMap_filter_range, Request.accepted, entries, List.filter_map,
    List.map_map]
  rfl

theorem taken_eq {positions : List Nat} (small : sent.length ≤ 2 ^ 64)
    (ids : failed.map Failed.id = positions.map entryId)
    (bound : ∀ i ∈ positions, i < sent.length) :
    taken sent failed =
      ((List.range sent.length).filter fun i => i ∉ positions).filterMap (sent[·]?) := by
  simp only [taken, ids]
  refine congrArg _ (List.filter_congr fun i member => ?_)
  rw [List.mem_range] at member
  refine decide_eq_decide.mpr (not_congr ⟨fun listed => ?_, List.mem_map_of_mem⟩)
  obtain ⟨j, member', same⟩ := List.mem_map.mp listed
  have j_bound := bound j member'
  exact entryId_injOn (by omega) (by omega) same ▸ member'

/-- A conforming reply splits the messages of its request. -/
theorem taken_append_failedToRetry (small : sent.length ≤ 2 ^ 64)
    (distinct : (failed.map Failed.id).Nodup)
    (among : ∀ f ∈ failed, f.id ∈ (entries sent).map Entry.id) :
    (taken sent failed ++ failedToRetry sent failed).Perm sent ∧
      (failedToRetry sent failed).length = failed.length := by
  obtain ⟨positions, found, ids, nodup, bound⟩ := exists_positions small distinct among
  rw [taken_eq small ids bound, failedToRetry_eq found]
  refine ⟨filterMap_split_perm nodup bound, ?_⟩
  have lengths := congrArg List.length found
  rw [List.length_map, List.length_map] at lengths
  rw [lengths, List.filterMap_length_eq_length]
  intro i member
  simp [bound i member]

end reply

/-! ## One chunk -/

section chunk

variable {service : Service} {maxBytes chunkLen : Nat} {log : List Request}

/-- A reply without failures takes the whole request. -/
theorem taken_of_no_failures (sent : List Message) : taken sent [] = sent := by
  simp [taken, filterMap_range_getElem?]

/-- What remains to retry fits into a request again. -/
theorem Fits.failedToRetry {sent : List Message} {failed : List Failed}
    (fits : Fits maxBytes sent) (some_failed : failed ≠ [])
    (split : (taken sent failed ++ failedToRetry sent failed).Perm sent)
    (length : (failedToRetry sent failed).length = failed.length) :
    Fits maxBytes (failedToRetry sent failed) where
  nonempty := by
    rw [← List.length_pos_iff_ne_nil, length]
    exact List.length_pos_iff_ne_nil.mpr some_failed
  count := by
    have lengths := split.length_eq
    rw [List.length_append] at lengths
    have := fits.count
    omega
  within := (bytes_of_perm_append split).trans fits.within

/-- Attempts that end with the last retry issue requests within the limits, and
report the chunk as sent only when SQS took each of its bodies once. -/
theorem sendAttempts_spec (conforms : service.Conforms) {attempts : List Nat}
    (ends : attempts.getLast? = some sqsPartialFailureMaxRetries) {toRetry : List Message}
    (fits : Fits maxBytes toRetry) :
    ∃ issued, (sendAttempts service chunkLen attempts log toRetry).2 = log ++ issued ∧
      Issued service maxBytes log issued ∧
      ∀ n rest, (sendAttempts service chunkLen attempts log toRetry).1 = .ok (n, rest) →
        n = chunkLen ∧ rest = [] ∧
          (issued.flatMap Request.accepted).Perm (toRetry.map Prod.snd) := by
  induction attempts generalizing log toRetry with
  | nil => cases ends
  | cons attempt attempts ih =>
      cases replied : service log (entries toRetry) with
      | error e =>
          simp only [sendAttempts, sendMessageBatch, replied]
          exact ⟨_, rfl, .cons replied.symm (fits.request _) .nil, fun n rest done => nomatch done⟩
      | ok failed =>
          have alone : Issued service maxBytes log [⟨entries toRetry, .ok failed⟩] :=
            .cons replied.symm (fits.request _) .nil
          have took := accepted_entries toRetry failed
          simp only [sendAttempts, sendMessageBatch, replied]
          split_ifs with none_failed fault unrecognized last
          · refine ⟨_, rfl, alone, fun n rest done => ?_⟩
            cases done
            rw [List.flatMap_singleton, took, none_failed, taken_of_no_failures]
            exact ⟨rfl, rfl, .refl _⟩
          · exact ⟨_, rfl, alone, fun n rest done => nomatch done⟩
          · exact ⟨_, rfl, alone, fun n rest done => nomatch done⟩
          · exact ⟨_, rfl, alone, fun n rest done => nomatch done⟩
          · have small : toRetry.length ≤ 2 ^ 64 := fits.count.trans (by decide)
            obtain ⟨distinct, among⟩ := conforms _ _ _ replied
            obtain ⟨split, length⟩ := taken_append_failedToRetry small distinct among
            have ends : attempts.getLast? = some sqsPartialFailureMaxRetries := by
              cases attempts with
              | nil => exact absurd (Option.some.inj ends) last
              | cons next attempts => rwa [List.getLast?_cons_cons] at ends
            obtain ⟨issued, logged, within_rest, sends⟩ :=
              ih ends (fits.failedToRetry none_failed split length)
            refine ⟨⟨entries toRetry, .ok failed⟩ :: issued, ?_, ?_, ?_⟩
            · rw [logged, List.append_assoc, List.singleton_append]
            · exact .cons replied.symm (fits.request _) within_rest
            · intro n rest done
              obtain ⟨all, empty, accepted⟩ := sends n rest done
              refine ⟨all, empty, ?_⟩
              rw [List.flatMap_cons, took]
              refine (accepted.append_left _).trans ?_
              rw [← List.map_append]
              exact split.map _

theorem sendChunkWithRetry_spec (conforms : service.Conforms) (log : List Request)
    {chunk : List Message} (fits : Fits maxBytes chunk) :
    ∃ issued, (sendChunkWithRetry service log chunk).2 = log ++ issued ∧
      Issued service maxBytes log issued ∧
      ∀ n rest, (sendChunkWithRetry service log chunk).1 = .ok (n, rest) →
        n = chunk.length ∧ rest = [] ∧
          (issued.flatMap Request.accepted).Perm (chunk.map Prod.snd) :=
  sendAttempts_spec conforms rfl fits

end chunk

/-! ## Cutting chunks -/

theorem countFitting_spec {maxBytes total count : Nat} {bodies : List Message}
    (within : total ≤ maxBytes) (fresh : count = 0 → total = 0)
    (each : ∀ message ∈ bodies, len message.2 ≤ maxBytes) :
    ∃ k ≤ bodies.length, countFitting maxBytes total count bodies = count + k ∧
      (count = 0 → bodies ≠ [] → 0 < k) ∧ total + bytes (bodies.take k) ≤ maxBytes := by
  induction bodies generalizing total count with
  | nil => exact ⟨0, by simp, rfl, by simp, by simpa using within⟩
  | cons message bodies ih =>
      obtain ⟨idx, body⟩ := message
      obtain ⟨body_fits, each⟩ := List.forall_mem_cons.mp each
      unfold countFitting
      split_ifs with full
      · exact ⟨0, by simp, rfl, fun empty => by omega, by simpa using within⟩
      · have within' : total + len body ≤ maxBytes := by
          dsimp only at body_fits
          omega
        obtain ⟨k, bound, counted, _, fits⟩ :=
          ih within' (fun (none : count + 1 = 0) => absurd none count.succ_ne_zero) each
        refine ⟨k + 1, by simpa using bound, by omega, fun _ _ => k.succ_pos, ?_⟩
        simp only [List.take_succ_cons, bytes_cons]
        omega

/-- A chunk is a request within the limits. -/
theorem nextChunkLen_spec {maxBytes : Nat} {toSend : List Message} (pending : toSend ≠ [])
    (each : ∀ message ∈ toSend, len message.2 ≤ maxBytes) :
    0 < nextChunkLen toSend sqsMaxBatchSize maxBytes ∧
      Fits maxBytes (toSend.take (nextChunkLen toSend sqsMaxBatchSize maxBytes)) := by
  have each' : ∀ message ∈ toSend.take sqsMaxBatchSize, len message.2 ≤ maxBytes :=
    fun message member => each message (List.mem_of_mem_take member)
  have pending' : toSend.take sqsMaxBatchSize ≠ [] := by
    simpa [sqsMaxBatchSize] using pending
  obtain ⟨k, bound, counted, positive, fits⟩ :=
    countFitting_spec (Nat.zero_le maxBytes) (fun _ => rfl) each'
  have positive := positive rfl pending'
  have chunk : nextChunkLen toSend sqsMaxBatchSize maxBytes = k := by
    unfold nextChunkLen
    omega
  rw [List.length_take] at bound
  rw [List.take_take, Nat.min_eq_left (by omega), Nat.zero_add] at fits
  rw [chunk]
  refine ⟨positive, ?_, ?_, fits⟩
  · simpa [pending] using Nat.ne_of_gt positive
  · rw [List.length_take]
    omega

/-! ## All bodies -/

section loop

variable {service : Service} {maxBytes : Nat}

/-- The loop ends, and reports success only when SQS took each body once. -/
theorem sendLoop_spec (conforms : service.Conforms) (log : List Request) (totalSent : Nat)
    {toSend : List Message} (each : ∀ message ∈ toSend, len message.2 ≤ maxBytes) :
    ∃ result issued,
      (∀ fuel, toSend.length < fuel →
        sendLoop service maxBytes fuel log totalSent toSend = some (result, log ++ issued)) ∧
      Issued service maxBytes log issued ∧
      ∀ n, result = .ok n → n = totalSent + toSend.length ∧
        (issued.flatMap Request.accepted).Perm (toSend.map Prod.snd) := by
  induction length : toSend.length using Nat.strong_induction_on generalizing
    log totalSent toSend with
  | _ _ ih =>
    by_cases pending : toSend = []
    · subst pending
      refine ⟨.ok totalSent, [], fun fuel enough => ?_, .nil, fun n done => ?_⟩
      · cases fuel with
        | zero => omega
        | succ fuel => simp [sendLoop]
      · cases done
        exact ⟨by simp [← length], .refl _⟩
    · obtain ⟨positive, fits⟩ := nextChunkLen_spec pending each
      obtain ⟨issued, logged, within, sends⟩ :=
        sendChunkWithRetry_spec conforms log fits
      have chunk_length := fits.count
      have nonempty := List.length_pos_iff_ne_nil.mpr pending
      rcases outcome : sendChunkWithRetry service log
        (toSend.take (nextChunkLen toSend sqsMaxBatchSize maxBytes)) with ⟨_ | ⟨sent, rest⟩, log'⟩
      · rename_i e
        rw [outcome] at logged
        dsimp only at logged
        refine ⟨.error e, issued, fun fuel enough => ?_, within, fun n done => nomatch done⟩
        cases fuel with
        | zero => omega
        | succ fuel => simp only [sendLoop, if_neg pending, outcome, logged]
      · rw [outcome] at logged sends
        obtain ⟨all, empty, accepted⟩ := sends _ _ rfl
        dsimp only at logged
        subst all empty logged
        obtain ⟨result, issued', looped, within', done'⟩ :=
          ih (toSend.drop (nextChunkLen toSend sqsMaxBatchSize maxBytes)).length
            (by rw [List.length_drop]; omega) (log ++ issued)
            (totalSent + (toSend.take (nextChunkLen toSend sqsMaxBatchSize maxBytes)).length)
            (fun message member => each message (List.mem_of_mem_drop member)) rfl
        refine ⟨result, issued ++ issued', fun fuel enough => ?_, within.append within', fun n done => ?_⟩
        · cases fuel with
          | zero => omega
          | succ fuel =>
              simp only [sendLoop, if_neg pending, outcome, List.append_nil]
              rw [looped fuel (by rw [List.length_drop]; omega), List.append_assoc]
        · obtain ⟨counted, rest_accepted⟩ := done' n done
          rw [List.length_drop, List.length_take] at counted
          refine ⟨by omega, ?_⟩
          rw [List.flatMap_append]
          refine (accepted.append rest_accepted).trans ?_
          rw [← List.map_append, List.take_append_drop]

theorem length_enumerate (bodies : List String) : (enumerate bodies).length = bodies.length := by
  simp [enumerate]

theorem enumerate_bodies (bodies : List String) : (enumerate bodies).map Prod.snd = bodies := by
  rw [enumerate, List.map_map]
  exact List.zipIdx_map_fst 0 bodies

theorem mem_of_mem_enumerate {bodies : List String} {message : Message}
    (member : message ∈ enumerate bodies) : message.2 ∈ bodies := by
  obtain ⟨⟨body, i⟩, listed, rfl⟩ := List.mem_map.mp member
  exact List.fst_mem_of_mem_zipIdx listed

theorem ensureBodiesFit_eq_ok {bodies : List String}
    (fit : ensureBodiesFit bodies maxBytes = .ok ()) : ∀ body ∈ bodies, len body ≤ maxBytes := by
  intro body member
  unfold ensureBodiesFit at fit
  cases found : bodies.find? fun body => maxBytes < len body with
  | none => simpa using List.find?_eq_none.mp found body member
  | some large => simp [found] at fit

/-- `sendMessages` ends whatever SQS answers.  Its requests hold one to ten
entries of distinct ids within the byte limit; it returns the number of bodies
only when the entries SQS took are the bodies, each of them once, and an error
whenever SQS did not take one. -/
theorem sendMessages_exactly_once (service : Service) (conforms : service.Conforms)
    (bodies : List String) (maxBytes : Nat) :
    ∃ result log,
      (∀ fuel, bodies.length < fuel →
        sendMessages service bodies maxBytes fuel = some (result, log)) ∧
      service.Answers [] log ∧
      (∀ request ∈ log, request.Within maxBytes) ∧
      (∀ n, result = .ok n → n = bodies.length ∧
        (log.flatMap Request.accepted).Perm bodies) ∧
      ((∃ body, (log.flatMap Request.accepted).count body < bodies.count body) →
        ∃ e, result = .error e) := by
  cases fit : ensureBodiesFit bodies maxBytes with
  | error e =>
      exact ⟨.error e, [], fun fuel _ => by simp only [sendMessages, fit], trivial, by simp,
        by simp, fun _ => ⟨e, rfl⟩⟩
  | ok u =>
      have each : ∀ message ∈ enumerate bodies, len message.2 ≤ maxBytes :=
        fun message member => ensureBodiesFit_eq_ok fit _ (mem_of_mem_enumerate member)
      obtain ⟨result, issued, looped, sent, done⟩ := sendLoop_spec conforms [] 0 each
      rw [length_enumerate] at looped done
      rw [enumerate_bodies] at done
      refine ⟨result, issued, fun fuel enough => ?_, sent.answers, sent.within,
        fun n ok => ?_, fun missing => ?_⟩
      · simp only [sendMessages, fit]
        exact looped fuel enough
      · obtain ⟨counted, accepted⟩ := done n ok
        exact ⟨by omega, accepted⟩
      · rcases result with e | n
        · exact ⟨e, rfl⟩
        · obtain ⟨body, fewer⟩ := missing
          exact absurd ((done n rfl).2.count_eq body) fewer.ne

/-- SQS failing the first entry of its first request. -/
def failsOnce : Service := fun log sent =>
  if log.isEmpty then .ok ((sent.take 1).map fun entry => ⟨entry.id, false, none⟩) else .ok []

theorem failsOnce_conforms : failsOnce.Conforms := by
  intro log sent failed replied
  unfold failsOnce at replied
  split at replied
  · cases replied
    cases sent with
    | nil => simp
    | cons entry sent => simp
  · cases replied
    simp

theorem sendMessages_exactly_once_retried : ∃ result log,
    (∀ fuel, 3 < fuel → sendMessages failsOnce ["a", "b", "a"] 2 fuel = some (result, log)) ∧
    failsOnce.Answers [] log ∧ (∀ request ∈ log, request.Within 2) ∧
    (∀ n, result = .ok n → n = 3 ∧ (log.flatMap Request.accepted).Perm ["a", "b", "a"]) ∧
    ((∃ body, (log.flatMap Request.accepted).count body < ["a", "b", "a"].count body) →
      ∃ e, result = .error e) :=
  sendMessages_exactly_once failsOnce failsOnce_conforms ["a", "b", "a"] 2

end loop

end StreamlingPlugins.Sqs
