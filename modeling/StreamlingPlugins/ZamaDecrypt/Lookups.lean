import StreamlingPlugins.ZamaDecrypt.Decrypt

/-!
# Delegation lookups

The answers that `decrypt` used are its log.  After both rounds of lookups the table
of delegation answers is exactly what the log says, every party that a transfer
consults has its answer there, and these decide the transfer's delegator.
-/

namespace StreamlingPlugins.ZamaDecrypt

open Erc7984 (Address B256)

/-! ## What the log says -/

namespace Asked

/-- What an answer says about a party's delegation. -/
def answer : Asked → Option (Pair × Except String Bool)
  | cached pair active => some (pair, .ok active)
  | status pair (.ok reply) => some (pair, .ok reply.isActive)
  | status pair (.error (.rejected message)) => some (pair, .error message)
  | _ => none

/-- A lookup or a batch call failed in a way that may clear, or so did the item of an
input that the call requested. -/
def Fails : Asked → Prop
  | status _ (.error (.transient _)) => True
  | batch _ _ (.error (.transient _)) => True
  | batch _ inputs (.ok items) =>
    ∃ item ∈ items, item.input ∈ inputs ∧ ∃ e, item.result = .error e ∧ isRefusal e = false
  | _ => False

end Asked

def Answered (log : List Asked) (pair : Pair) (answer : Except String Bool) : Prop :=
  ∃ asked ∈ log, asked.answer = some (pair, answer)

/-- Nothing in the log asks for a retry. -/
def Quiet (log : List Asked) : Prop :=
  ∀ asked ∈ log, ¬ asked.Fails

/-- The receiver is no party to decrypt for: it is zero or its lookup is inactive. -/
def PassesReceiver (log : List Asked) (t : DecodedTransfer) : Prop :=
  t.toAddress = 0 ∨ Answered log (t.token, t.toAddress) (.ok false)

/-- The party that `t` is decrypted for. -/
def Delegates (log : List Asked) (t : DecodedTransfer) (party : Address) : Prop :=
  (t.toAddress ≠ 0 ∧ Answered log (t.token, t.toAddress) (.ok true) ∧ party = t.toAddress) ∨
    (PassesReceiver log t ∧ t.fromAddress ≠ 0 ∧
      Answered log (t.token, t.fromAddress) (.ok true) ∧ party = t.fromAddress)

/-- The lookup of the consulted party was refused. -/
def Refused (log : List Asked) (t : DecodedTransfer) (message : String) : Prop :=
  (t.toAddress ≠ 0 ∧ Answered log (t.token, t.toAddress) (.error message)) ∨
    (PassesReceiver log t ∧ t.fromAddress ≠ 0 ∧
      Answered log (t.token, t.fromAddress) (.error message))

/-- Neither party delegates. -/
def Undelegated (log : List Asked) (t : DecodedTransfer) : Prop :=
  PassesReceiver log t ∧
    (t.fromAddress = 0 ∨ Answered log (t.token, t.fromAddress) (.ok false))

/-! ## Lookups -/

/-- The answers are what the log says. -/
def Matches (answers : DelegationAnswers) (log : List Asked) : Prop :=
  ∀ pair a, answers pair = some a ↔ Answered log pair a

theorem answered_append {log more : List Asked} {pair : Pair} {a : Except String Bool} :
    Answered (log ++ more) pair a ↔ Answered log pair a ∨ Answered more pair a := by
  unfold Answered
  simp only [List.mem_append, or_and_right, exists_or]

theorem answered_singleton {asked : Asked} {pair : Pair} {a : Except String Bool} :
    Answered [asked] pair a ↔ asked.answer = some (pair, a) := by
  unfold Answered
  simp

theorem Quiet.append {log more : List Asked} (quiet : Quiet log) (quiet' : Quiet more) :
    Quiet (log ++ more) := by
  intro asked mem
  rcases List.mem_append.mp mem with old | new
  · exact quiet asked old
  · exact quiet' asked new

theorem Quiet.singleton {asked : Asked} (fine : ¬ asked.Fails) : Quiet [asked] := by
  intro found mem
  rw [List.mem_singleton.mp mem]
  exact fine

/-- A new answer about a party that had none. -/
theorem Matches.snoc {answers : DelegationAnswers} {log : List Asked} {asked : Asked} {pair : Pair}
    {a : Except String Bool} (same : Matches answers log) (fresh : answers pair = none)
    (tells : asked.answer = some (pair, a)) :
    Matches (Change.apply answers ⟨pair, some a⟩) (log ++ [asked]) := by
  intro other b
  rw [answered_append, answered_singleton, tells, ← same other b]
  by_cases here : other = pair
  · subst here
    rw [Change.apply_self, fresh]
    simp
  · rw [Change.apply_of_ne _ here]
    simp [Ne.symm here]

/-- An answer that is not about a party. -/
theorem Matches.skip {answers : DelegationAnswers} {log : List Asked} {asked : Asked}
    (same : Matches answers log) (silent : asked.answer = none) :
    Matches answers (log ++ [asked]) := by
  intro pair a
  rw [answered_append, answered_singleton, silent, ← same pair a]
  simp

/-- Answers that a log backs, all of them about parties. -/
structure Known (answers : DelegationAnswers) (log : List Asked) : Prop where
  same : Matches answers log
  quiet : Quiet log
  parties : ∀ pair a, answers pair = some a → pair.2 ≠ 0

/-- More answers; those from the cache are about pairs that had none. -/
structure Extends (cache : Cache) (answers answers' : DelegationAnswers) (log log' : List Asked) :
    Prop where
  kept : ∀ pair a, answers pair = some a → answers' pair = some a
  cached : ∀ pair active, Asked.cached pair active ∈ log' → Asked.cached pair active ∈ log ∨
    answers pair = none ∧ ∃ d, cache pair = some d ∧ d.active = active

/-- The pairs that wait for a lookup: each once, a party, and without an answer. -/
structure Waiting (answers : DelegationAnswers) (pending : List Pair) : Prop where
  nodup : pending.Nodup
  fresh : ∀ pair ∈ pending, answers pair = none
  parties : ∀ pair ∈ pending, pair.2 ≠ 0

theorem Known.answered {answers : DelegationAnswers} {log : List Asked} {asked : Asked}
    {pair : Pair} {a : Except String Bool} (known : Known answers log)
    (fresh : answers pair = none) (party : pair.2 ≠ 0) (tells : asked.answer = some (pair, a))
    (fine : ¬ asked.Fails) :
    Known (Change.apply answers ⟨pair, some a⟩) (log ++ [asked]) where
  same := known.same.snoc fresh tells
  quiet := known.quiet.append (.singleton fine)
  parties := by
    intro other b held
    by_cases here : other = pair
    · rw [here]
      exact party
    · rw [Change.apply_of_ne _ here] at held
      exact known.parties other b held

theorem apply_ne_none {answers : DelegationAnswers} {pair : Pair} {a : Except String Bool} :
    Change.apply answers ⟨pair, some a⟩ pair ≠ none := by
  rw [Change.apply_self]
  exact Option.some_ne_none a

theorem kept_of_fresh {answers : DelegationAnswers} {pair other : Pair} {a b : Except String Bool}
    (fresh : answers pair = none) (held : answers other = some b) :
    Change.apply answers ⟨pair, some a⟩ other = some b := by
  have apart : other ≠ pair := by
    intro same
    rw [same, fresh] at held
    cases held
  rw [Change.apply_of_ne _ apart]
  exact held

/-- What going through the pairs of a round keeps. -/
structure Consulting (cache : Cache) (answers : DelegationAnswers) (log : List Asked)
    (known : Consulted) : Prop where
  grown : Extends cache answers known.answers log known.log
  backed : Known known.answers known.log
  waiting : Waiting known.answers known.pending
  uncached : ∀ pair ∈ known.pending, cache pair = none

/-- The pair has its answer, or waits for it. -/
def Covers (known : Consulted) (pair : Pair) : Prop :=
  known.answers pair ≠ none ∨ pair ∈ known.pending

variable {cache : Cache} {answers : DelegationAnswers} {log : List Asked} {known : Consulted}

/-- What happens to a pair of a round. -/
theorem consult_cases (cache : Cache) (known : Consulted) (pair : Pair) :
    ((pair.2 = 0 ∨ known.answers pair ≠ none) ∧ consult cache known pair = known) ∨
    (pair.2 ≠ 0 ∧ known.answers pair = none ∧ ∃ d, cache pair = some d ∧
      consult cache known pair =
        ⟨Change.apply known.answers ⟨pair, some (.ok d.active)⟩, known.pending,
          known.log ++ [.cached pair d.active]⟩) ∨
    (pair.2 ≠ 0 ∧ known.answers pair = none ∧ cache pair = none ∧
      consult cache known pair = ⟨known.answers, known.pending.insert pair, known.log⟩) := by
  unfold consult
  split
  · rename_i skipped
    exact .inl ⟨skipped.imp_right Option.isSome_iff_ne_none.mp, rfl⟩
  · rename_i unknown
    push Not at unknown
    obtain ⟨party, unanswered⟩ := unknown
    have fresh : known.answers pair = none := by simpa using unanswered
    cases found : cache pair with
    | some d => exact .inr (.inl ⟨party, fresh, d, rfl, rfl⟩)
    | none => exact .inr (.inr ⟨party, fresh, rfl, rfl⟩)

/-- Another pair: the cache answers it, or it waits. -/
theorem Consulting.consult (consulting : Consulting cache answers log known) (pair : Pair) :
    Consulting cache answers log (consult cache known pair) := by
  rcases consult_cases cache known pair with
    ⟨_, same⟩ | ⟨party, fresh, d, found, same⟩ | ⟨party, fresh, found, same⟩
  · rwa [same]
  · rw [same]
    refine ⟨⟨fun other a held => ?_, fun other active mem => ?_⟩, ?_, ⟨?_, fun other mem => ?_, ?_⟩,
      consulting.uncached⟩
    · exact kept_of_fresh fresh (consulting.grown.kept other a held)
    · rcases List.mem_append.mp mem with old | new
      · exact consulting.grown.cached other active old
      · cases List.mem_singleton.mp new
        refine .inr ⟨?_, d, found, rfl⟩
        cases before : answers pair with
        | none => rfl
        | some a =>
            rw [consulting.grown.kept pair a before] at fresh
            cases fresh
    · exact consulting.backed.answered fresh party rfl id
    · exact consulting.waiting.nodup
    · have apart : other ≠ pair := by
        intro same
        rw [same] at mem
        rw [consulting.uncached pair mem] at found
        cases found
      exact (Change.apply_of_ne _ apart).trans (consulting.waiting.fresh other mem)
    · exact consulting.waiting.parties
  · rw [same]
    have split : ∀ other ∈ known.pending.insert pair, other = pair ∨ other ∈ known.pending :=
      fun other mem => List.mem_insert_iff.mp mem
    refine ⟨consulting.grown, consulting.backed, ⟨consulting.waiting.nodup.insert,
      fun other mem => ?_, fun other mem => ?_⟩, fun other mem => ?_⟩
    · rcases split other mem with rfl | old
      · exact fresh
      · exact consulting.waiting.fresh other old
    · rcases split other mem with rfl | old
      · exact party
      · exact consulting.waiting.parties other old
    · rcases split other mem with rfl | old
      · exact found
      · exact consulting.uncached other old

theorem Covers.consult {other : Pair} (covered : Covers known other) (pair : Pair) :
    Covers (consult cache known pair) other := by
  rcases consult_cases cache known pair with
    ⟨_, same⟩ | ⟨_, fresh, d, _, same⟩ | ⟨_, _, _, same⟩
  · rwa [same]
  · rw [same]
    rcases covered with answered | pending
    · obtain ⟨a, held⟩ := Option.ne_none_iff_exists'.mp answered
      exact .inl (Option.ne_none_iff_exists'.mpr ⟨a, kept_of_fresh fresh held⟩)
    · exact .inr pending
  · rw [same]
    rcases covered with answered | pending
    · exact .inl answered
    · exact .inr (List.mem_insert_of_mem pending)

theorem covers_consult {pair : Pair} (party : pair.2 ≠ 0) :
    Covers (consult cache known pair) pair := by
  rcases consult_cases cache known pair with
    ⟨skipped, same⟩ | ⟨_, _, d, _, same⟩ | ⟨_, _, _, same⟩
  · rw [same]
    rcases skipped with zero | answered
    · exact absurd zero party
    · exact .inl answered
  · rw [same]
    exact .inl apply_ne_none
  · rw [same]
    exact .inr List.mem_insert_self

theorem Covers.foldl_consult {other : Pair} (pairs : List Pair) (covered : Covers known other) :
    Covers (pairs.foldl (ZamaDecrypt.consult cache) known) other := by
  induction pairs generalizing known with
  | nil => exact covered
  | cons pair pairs ih => exact ih (covered.consult pair)

/-- All pairs of a round. -/
theorem Consulting.foldl (pairs : List Pair) (consulting : Consulting cache answers log known) :
    Consulting cache answers log (pairs.foldl (ZamaDecrypt.consult cache) known) ∧
      ∀ pair ∈ pairs, pair.2 ≠ 0 →
        Covers (pairs.foldl (ZamaDecrypt.consult cache) known) pair := by
  induction pairs generalizing known with
  | nil => exact ⟨consulting, fun pair mem => by cases mem⟩
  | cons pair pairs ih =>
      obtain ⟨all, covered⟩ := ih (consulting.consult pair)
      refine ⟨all, fun other mem party => ?_⟩
      rcases List.mem_cons.mp mem with rfl | later
      · exact (covers_consult party).foldl_consult pairs
      · exact covered other later party

theorem map_fst_lookups (backend : Backend) (delegate : Address) (log : List Asked)
    (pairs : List Pair) : (lookups backend delegate log pairs).map Prod.fst = pairs := by
  induction pairs generalizing log with
  | nil => rfl
  | cons pair pairs ih => simp [lookups, ih]

/-- How the log shows the lookups of a round. -/
def logged (results : List StatusAnswer) : List Asked :=
  results.map fun (pair, answer) => .status pair answer

/-- What recording a round's lookups comes to. -/
structure Recorded (cache : Cache) (answers : DelegationAnswers) (results : List StatusAnswer)
    (cache' : Cache) (answers' : DelegationAnswers) : Prop where
  kept : ∀ pair a, answers pair = some a → answers' pair = some a
  answered : ∀ result ∈ results, answers' result.1 ≠ none
  cache : ∀ pair, answers' pair = none → cache' pair = cache pair

theorem record_ok (now : Nat) {results : List StatusAnswer} {cache : Cache}
    {answers : DelegationAnswers} {log : List Asked} (backed : Known answers log)
    (waiting : Waiting answers (results.map Prod.fst)) {cache' : Cache}
    {answers' : DelegationAnswers} (done : record now cache answers results = (cache', .ok answers')) :
    Known answers' (log ++ logged results) ∧ Recorded cache answers results cache' answers' := by
  induction results generalizing cache answers log with
  | nil =>
      cases done
      refine ⟨by simpa [logged] using backed, fun _ _ held => held, ?_, fun _ _ => rfl⟩
      intro result mem
      cases mem
  | cons head results ih =>
      obtain ⟨pair, answer⟩ := head
      have fresh : answers pair = none := waiting.fresh pair List.mem_cons_self
      have party : pair.2 ≠ 0 := waiting.parties pair List.mem_cons_self
      obtain ⟨apart, nodup⟩ := List.nodup_cons.mp waiting.nodup
      -- the rest of the round, after an answer about this pair
      have rest : ∀ (a : Except String Bool) (cache₁ : Cache),
          (Asked.status pair answer).answer = some (pair, a) →
          ¬ (Asked.status pair answer).Fails →
          (∀ other, other ≠ pair → cache₁ other = cache other) →
          record now cache₁ (Change.apply answers ⟨pair, some a⟩) results = (cache', .ok answers') →
          Known answers' (log ++ logged ((pair, answer) :: results)) ∧
            Recorded cache answers ((pair, answer) :: results) cache' answers' := by
        intro a cache₁ tells fine others done
        have waiting' : Waiting (Change.apply answers ⟨pair, some a⟩) (results.map Prod.fst) := by
          refine ⟨nodup, fun other mem => ?_, fun other mem => ?_⟩
          · have differs : other ≠ pair := fun same => apart (same ▸ mem)
            rw [Change.apply_of_ne _ differs]
            exact waiting.fresh other (List.mem_cons_of_mem _ mem)
          · exact waiting.parties other (List.mem_cons_of_mem _ mem)
        obtain ⟨backed', recorded⟩ := ih (backed.answered fresh party tells fine) waiting' done
        have here : answers' pair = some a :=
          recorded.kept pair a (Change.apply_self ..)
        refine ⟨by simpa [logged] using backed', fun other b held => ?_, fun result mem => ?_,
          fun other unanswered => ?_⟩
        · exact recorded.kept other b (kept_of_fresh fresh held)
        · rcases List.mem_cons.mp mem with rfl | later
          · rw [here]
            simp
          · exact recorded.answered result later
        · have differs : other ≠ pair := by
            intro same
            rw [same, here] at unanswered
            cases unanswered
          rw [recorded.cache other unanswered, others other differs]
      cases answer with
      | ok status =>
          exact rest (.ok status.isActive) _ rfl id (fun other differs => Change.apply_of_ne _ differs)
            done
      | error e =>
          cases e with
          | rejected message => exact rest (.error message) cache rfl id (fun _ _ => rfl) done
          | transient message => cases done

theorem record_error {now : Nat} {results : List StatusAnswer} {cache : Cache}
    {answers : DelegationAnswers} {cache' : Cache} {e : BackendError}
    (done : record now cache answers results = (cache', .error e)) :
    ∃ asked ∈ logged results, asked.Fails := by
  induction results generalizing cache answers with
  | nil => cases done
  | cons head results ih =>
      obtain ⟨pair, answer⟩ := head
      have later : (∃ asked ∈ logged results, asked.Fails) →
          ∃ asked ∈ logged ((pair, answer) :: results), asked.Fails := by
        intro found
        obtain ⟨asked, mem, fails⟩ := found
        exact ⟨asked, List.mem_cons_of_mem _ mem, fails⟩
      cases answer with
      | ok status => exact later (ih done)
      | error refusal =>
          cases refusal with
          | rejected message => exact later (ih done)
          | transient message => exact ⟨_, List.mem_cons_self, trivial⟩

/-- What a round of lookups comes to when none of them fails. -/
structure Resolved (cache : Cache) (clock : Clock) (pairs : List Pair)
    (answers answers' : DelegationAnswers) (log log' : List Asked) (cache' : Cache) : Prop where
  backed : Known answers' log'
  grown : Extends (cache.retainFresh clock) answers answers' log log'
  answered : ∀ pair ∈ pairs, pair.2 ≠ 0 → answers' pair ≠ none
  cache : ∀ pair, answers' pair = none → cache' pair = cache.retainFresh clock pair

variable {backend : Backend} {delegate : Address} {clock : Clock} {order : IterationOrder Pair}
  {pairs : List Pair} {cache' : Cache} {log' : List Asked}

theorem resolve_ok {answers' : DelegationAnswers} (backed : Known answers log)
    (done : resolve backend delegate clock order cache log pairs answers =
      (cache', log', .ok answers')) :
    Resolved cache clock pairs answers answers' log log' cache' := by
  have start : Consulting (cache.retainFresh clock) answers log ⟨answers, [], log⟩ := by
    refine ⟨⟨fun _ _ held => held, fun _ _ mem => .inl mem⟩, backed, ⟨.nil, ?_, ?_⟩, ?_⟩
    all_goals
      intro pair mem
      cases mem
  obtain ⟨consulting, covered⟩ := start.foldl pairs
  simp only [resolve, Prod.mk.injEq] at done
  obtain ⟨rfl, rfl, outcome⟩ := done
  generalize pairs.foldl (consult (cache.retainFresh clock)) ⟨answers, [], log⟩ = known
    at consulting covered outcome
  have asked : ((lookups backend delegate known.log (order.arrange known.pending)).map
      Prod.fst).Perm known.pending := by
    rw [map_fst_lookups]
    exact order.perm known.pending
  generalize lookups backend delegate known.log (order.arrange known.pending) = results
    at asked outcome
  have waiting : Waiting known.answers (results.map Prod.fst) := by
    refine ⟨asked.nodup_iff.mpr consulting.waiting.nodup, fun pair mem => ?_, fun pair mem => ?_⟩
    · exact consulting.waiting.fresh pair (asked.mem_iff.mp mem)
    · exact consulting.waiting.parties pair (asked.mem_iff.mp mem)
  obtain ⟨backed', recorded⟩ := record_ok clock.now consulting.backed waiting (Prod.ext rfl outcome)
  refine ⟨backed', ⟨fun pair a held => ?_, fun pair active mem => ?_⟩, fun pair mem party => ?_,
    recorded.cache⟩
  · exact recorded.kept pair a (consulting.grown.kept pair a held)
  · rcases List.mem_append.mp mem with old | new
    · exact consulting.grown.cached pair active old
    · obtain ⟨result, _, same⟩ := List.mem_map.mp new
      cases same
  · rcases covered pair mem party with answered | pending
    · obtain ⟨a, held⟩ := Option.ne_none_iff_exists'.mp answered
      rw [recorded.kept pair a held]
      simp
    · obtain ⟨result, present, rfl⟩ := List.mem_map.mp (asked.mem_iff.mpr pending)
      exact recorded.answered result present

theorem resolve_error {e : BackendError}
    (done : resolve backend delegate clock order cache log pairs answers =
      (cache', log', .error e)) : ∃ asked ∈ log', asked.Fails := by
  unfold resolve at done
  simp only [Prod.mk.injEq] at done
  obtain ⟨_, rfl, failed⟩ := done
  obtain ⟨asked, mem, fails⟩ := record_error (Prod.ext rfl failed)
  exact ⟨asked, List.mem_append_right _ mem, fails⟩

/-- What both rounds of lookups come to when none of them fails. -/
structure Looked (setting : Setting) (cache : Cache) (transfers : List Entry)
    (answers : DelegationAnswers) (log : List Asked) : Prop where
  backed : Known answers log
  receiver : ∀ entry ∈ transfers, (Entry.receiver entry).2 ≠ 0 →
    answers (Entry.receiver entry) ≠ none
  sender : ∀ entry ∈ transfers, asksSender answers entry → (Entry.sender entry).2 ≠ 0 →
    answers (Entry.sender entry) ≠ none
  cached : ∀ pair active, Asked.cached pair active ∈ log → ∃ d, cache pair = some d ∧
    d.active = active ∧
      (d.isFresh setting.receiverClock.now (setting.receiverClock.system pair) ∨
        d.isFresh setting.senderClock.now (setting.senderClock.system pair))

theorem retainFresh_eq_some {pair : Pair} {d : Delegation}
    (held : cache.retainFresh clock pair = some d) :
    cache pair = some d ∧ d.isFresh clock.now (clock.system pair) :=
  Option.filter_eq_some_iff.mp held

variable {setting : Setting} {transfers : List Entry}

theorem delegationAnswers_ok
    (done : delegationAnswers setting cache transfers = (cache', log', .ok answers)) :
    Looked setting cache transfers answers log' := by
  unfold delegationAnswers at done
  split at done
  · cases done
  · rename_i cache₁ log₁ answers₁ first
    have nothing : Known (fun _ => none) [] := by
      refine ⟨fun pair a => ?_, fun asked mem => ?_, fun pair a held => ?_⟩
      · simp [Answered]
      · cases mem
      · cases held
    have one := resolve_ok nothing first
    have two := resolve_ok one.backed done
    have kept := two.grown.kept
    refine ⟨two.backed, fun entry mem party => ?_, fun entry mem asks party => ?_,
      fun pair active mem => ?_⟩
    · obtain ⟨a, held⟩ := Option.ne_none_iff_exists'.mp
        (one.answered _ (List.mem_map_of_mem mem) party)
      rw [kept _ a held]
      exact Option.some_ne_none a
    · refine two.answered _ (List.mem_map_of_mem (List.mem_filter.mpr ⟨mem, ?_⟩)) party
      -- the second round knows what the first one knew about the receiver
      have same : answers₁ (Entry.receiver entry) = none ∨
          answers₁ (Entry.receiver entry) = answers (Entry.receiver entry) := by
        cases held : answers₁ (Entry.receiver entry) with
        | none => exact .inl rfl
        | some a => exact .inr (kept _ a held).symm
      unfold asksSender at asks ⊢
      rcases same with unknown | same
      · rw [unknown]
      · rwa [same]
    · rcases two.grown.cached pair active mem with old | ⟨fresh, d, held, same⟩
      · rcases one.grown.cached pair active old with older | ⟨_, d, held, same⟩
        · cases older
        · obtain ⟨inCache, fresh⟩ := retainFresh_eq_some held
          exact ⟨d, inCache, same, .inl fresh⟩
      · obtain ⟨later, fresh'⟩ := retainFresh_eq_some held
        rw [one.cache pair fresh] at later
        obtain ⟨inCache, _⟩ := retainFresh_eq_some later
        exact ⟨d, inCache, same, .inr fresh'⟩

theorem delegationAnswers_error {e : BackendError}
    (done : delegationAnswers setting cache transfers = (cache', log', .error e)) :
    ∃ asked ∈ log', asked.Fails := by
  unfold delegationAnswers at done
  split at done
  · rename_i first
    cases done
    exact resolve_error first
  · exact resolve_error done

/-! ## Delegators -/

section

variable {t : DecodedTransfer} (same : Matches answers log)

include same

theorem pick_of_passes (passes : PassesReceiver log t) :
    pickDelegator t answers = pickParty answers t.token [t.fromAddress] := by
  unfold pickDelegator
  rw [pickParty]
  rcases passes with zero | inactive
  · rw [if_pos zero]
  · rw [(same _ _).mpr inactive]
    split <;> rfl

theorem pick_of_delegates {party : Address} (delegates : Delegates log t party) :
    pickDelegator t answers = .ok (some party) := by
  rcases delegates with ⟨nonzero, active, rfl⟩ | ⟨passes, nonzero, active, rfl⟩
  · rw [pickDelegator, pickParty, if_neg nonzero, (same _ _).mpr active]
  · rw [pick_of_passes same passes, pickParty, if_neg nonzero, (same _ _).mpr active]

theorem pick_of_refused {message : String} (refused : Refused log t message) :
    pickDelegator t answers = .error message := by
  rcases refused with ⟨nonzero, refused⟩ | ⟨passes, nonzero, refused⟩
  · rw [pickDelegator, pickParty, if_neg nonzero, (same _ _).mpr refused]
  · rw [pick_of_passes same passes, pickParty, if_neg nonzero, (same _ _).mpr refused]

theorem pick_of_undelegated (undelegated : Undelegated log t) :
    pickDelegator t answers = .ok none := by
  obtain ⟨passes, none⟩ := undelegated
  rw [pick_of_passes same passes]
  rcases none with zero | inactive
  · rw [pickParty, if_pos zero, pickParty]
  · rw [pickParty, (same _ _).mpr inactive]
    split <;> rfl

end

/-- Every transfer has its delegator, a refusal, or neither party. -/
theorem Looked.consulted (looked : Looked setting cache transfers answers log) {entry : Entry}
    (mem : entry ∈ transfers) :
    (∃ party, Delegates log entry.2 party) ∨ (∃ message, Refused log entry.2 message) ∨
      Undelegated log entry.2 := by
  have same := looked.backed.same
  -- the sender, once the receiver is passed
  have sender : PassesReceiver log entry.2 → asksSender answers entry →
      (∃ party, Delegates log entry.2 party) ∨ (∃ message, Refused log entry.2 message) ∨
        Undelegated log entry.2 := by
    intro passes asks
    by_cases zero : entry.2.fromAddress = 0
    · exact .inr (.inr ⟨passes, .inl zero⟩)
    · obtain ⟨a, held⟩ := Option.ne_none_iff_exists'.mp (looked.sender entry mem asks zero)
      have told := (same _ _).mp held
      rcases a with message | active
      · exact .inr (.inl ⟨message, .inr ⟨passes, zero, told⟩⟩)
      · cases active with
        | true => exact .inl ⟨_, .inr ⟨passes, zero, told, rfl⟩⟩
        | false => exact .inr (.inr ⟨passes, .inr told⟩)
  by_cases zero : entry.2.toAddress = 0
  · refine sender (.inl zero) ?_
    cases held : answers (Entry.receiver entry) with
    | none => simp [asksSender, held]
    | some a => exact absurd zero (looked.backed.parties _ a held)
  · obtain ⟨a, held⟩ := Option.ne_none_iff_exists'.mp (looked.receiver entry mem zero)
    have told := (same _ _).mp held
    rcases a with message | active
    · exact .inr (.inl ⟨message, .inl ⟨zero, told⟩⟩)
    · cases active with
      | true => exact .inl ⟨_, .inl ⟨zero, told, rfl⟩⟩
      | false => exact sender (.inr told) (by simp [asksSender, held])

end StreamlingPlugins.ZamaDecrypt
