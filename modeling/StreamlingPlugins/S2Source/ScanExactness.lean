import StreamlingPlugins.S2Source.PrefixScan

/-!
# What a scan lists and stops

A page is recorded only once all of its streams have readers, so the cursor and the
names seen move together.  A completed scan has therefore listed the streams that
were there at all of its calls, and stopped those that were at none.
-/

namespace StreamlingPlugins.S2Source

/-! ## Runs -/

/-- A call of `refreshStreamsPage`. -/
structure Step where
  before : StreamReaders
  call : Call
  outcome : Refreshed
  after : StreamReaders

def Step.Completed (step : Step) : Prop :=
  ∃ listed, step.outcome = .completed listed

/-- The calls of a run, with anything that happens between them. -/
inductive Run (config : S2SourceConfig) : StreamReaders → List Step → StreamReaders → Prop
  | nil (readers : StreamReaders) : Run config readers [] readers
  | refresh {readers next final : StreamReaders} {call : Call} {outcome : Refreshed}
    {steps : List Step} :
    refreshStreamsPage config call readers = (next, outcome) → Run config next steps final →
    Run config readers (⟨readers, call, outcome, next⟩ :: steps) final
  | meanwhile {readers next final : StreamReaders} {steps : List Step} :
    Meanwhile readers next → Run config next steps final → Run config readers steps final

/-- The call neither stops the stream's reader nor touches its checkpoint. -/
def Step.Keeps (step : Step) (name : String) : Prop :=
  (name ∈ step.before.tasks → name ∈ step.after.tasks) ∧
    step.after.checkpoints name = step.before.checkpoints name

/-! ## One page -/

theorem Meanwhile.frame {readers next : StreamReaders} (meanwhile : Meanwhile readers next) :
    next.scan = readers.scan ∧ next.tasks = readers.tasks := by
  cases meanwhile <;> exact ⟨rfl, rfl⟩

/-- What ensuring streams leaves: more readers, and the rest as it was. -/
structure Ensured (readers next : StreamReaders) : Prop where
  tasks : readers.tasks ⊆ next.tasks
  checkpoints : next.checkpoints = readers.checkpoints
  scan : next.scan = readers.scan

theorem Ensured.refl (readers : StreamReaders) : Ensured readers readers :=
  ⟨subset_rfl, rfl, rfl⟩

theorem Ensured.trans {readers mid next : StreamReaders} (first : Ensured readers mid)
    (second : Ensured mid next) : Ensured readers next :=
  ⟨first.tasks.trans second.tasks, second.checkpoints.trans first.checkpoints,
    second.scan.trans first.scan⟩

theorem ensured_start (readers : StreamReaders) (name : String) (nextSeqNum : Nat) :
    Ensured readers (readers.start name nextSeqNum) :=
  ⟨Finset.subset_insert _ _, rfl, rfl⟩

section

variable {config : S2SourceConfig} {call : Call}

theorem ensureStream_spec {readers next : StreamReaders} {name : String}
    {result : Except PluginError Unit}
    (ensured : ensureStream config call readers name = (next, result)) :
    Ensured readers next ∧ (result = .ok () → name ∈ next.tasks) := by
  unfold ensureStream at ensured
  split at ensured
  · rename_i running
    cases ensured
    exact ⟨.refl _, fun _ => running⟩
  · split at ensured
    · cases ensured
      exact ⟨.refl _, nofun⟩
    · split at ensured
      · cases ensured
        exact ⟨ensured_start _ _ _, fun _ => Finset.mem_insert_self _ _⟩
      · cases ensured
        exact ⟨ensured_start _ _ _, fun _ => Finset.mem_insert_self _ _⟩
      · split at ensured
        · cases ensured
          exact ⟨.refl _, nofun⟩
        · cases ensured
          exact ⟨ensured_start _ _ _, fun _ => Finset.mem_insert_self _ _⟩

theorem ensureStreams_spec {readers next : StreamReaders} {names : List String}
    {result : Except PluginError Unit}
    (ensured : ensureStreams config call readers names = (next, result)) :
    Ensured readers next ∧ (result = .ok () → ∀ name ∈ names, name ∈ next.tasks) := by
  induction names generalizing readers with
  | nil =>
      cases ensured
      exact ⟨.refl _, by simp⟩
  | cons name names ih =>
      unfold ensureStreams at ensured
      split at ensured
      · rename_i mid first
        obtain ⟨first_ensured, started⟩ := ensureStream_spec first
        obtain ⟨rest_ensured, others⟩ := ih ensured
        refine ⟨first_ensured.trans rest_ensured, fun done => List.forall_mem_cons.mpr
          ⟨rest_ensured.tasks (started rfl), others done⟩⟩
      · rename_i mid e first
        cases ensured
        exact ⟨(ensureStream_spec first).1, nofun⟩

/-- The names of a page's streams that are not being deleted. -/
def Page.names (page : Page) : List String :=
  (page.values.filter fun info => info.deletedAt = none).map StreamInfo.name

theorem Page.mem_names {page : Page} {name : String} :
    name ∈ page.names ↔ ⟨name, none⟩ ∈ page.values := by
  simp only [Page.names, List.mem_map, List.mem_filter, decide_eq_true_eq]
  constructor
  · rintro ⟨⟨_, _⟩, ⟨mem, rfl⟩, rfl⟩
    exact mem
  · exact fun mem => ⟨_, ⟨mem, rfl⟩, rfl⟩

/-- Everything a call can do. -/
inductive Handled (config : S2SourceConfig) (call : Call) (readers : StreamReaders) :
    StreamReaders → Refreshed → Prop
  | failed {next : StreamReaders} (e : PluginError) :
    Ensured readers next → Handled config call readers next (.failed e)
  | page {ensured : StreamReaders} {page : Page} {last : StreamInfo} :
    call.listStreams (readers.scan.listInput config.streamPrefix) = .ok page →
    page.values.getLast? = some last → Ensured readers ensured →
    (∀ name ∈ page.names, name ∈ ensured.tasks) →
    Handled config call readers
      { ensured with scan := ⟨some last.name, readers.scan.seen ∪ page.names.toFinset⟩ } .page
  | completed {ensured : StreamReaders} {page : Page} :
    call.listStreams (readers.scan.listInput config.streamPrefix) = .ok page →
    page.hasMore = false → Ensured readers ensured →
    (∀ name ∈ page.names, name ∈ ensured.tasks) →
    Handled config call readers
      (pruneUnlistedStreams config call { ensured with scan := .default }
        (readers.scan.seen ∪ page.names.toFinset))
      (.completed (readers.scan.seen ∪ page.names.toFinset))

theorem handled_of_refresh {readers next : StreamReaders} {outcome : Refreshed}
    (refreshed : refreshStreamsPage config call readers = (next, outcome)) :
    Handled config call readers next outcome := by
  unfold refreshStreamsPage at refreshed
  split at refreshed
  · cases refreshed
    exact .failed _ (.refl _)
  · rename_i page page_eq
    unfold nextStartAfter at refreshed
    split at refreshed
    · rename_i e next_eq
      cases refreshed
      exact .failed _ (.refl _)
    · rename_i next_after next_eq
      simp only at refreshed
      split at refreshed
      · rename_i ensured e ensured_eq
        cases refreshed
        exact .failed _ (ensureStreams_spec ensured_eq).1
      · rename_i ensured ensured_eq
        obtain ⟨kept, started⟩ := ensureStreams_spec ensured_eq
        split at next_eq
        · split at next_eq
          · rename_i last last_eq
            cases next_eq
            cases refreshed
            rw [kept.scan]
            exact .page page_eq last_eq kept (started rfl)
          · cases next_eq
        · rename_i no_more
          cases next_eq
          cases refreshed
          rw [kept.scan]
          exact .completed page_eq (by simpa using no_more) kept (started rfl)

/-! ## The cursor and the names seen -/

variable {readers next : StreamReaders} {outcome : Refreshed} {name : String}

/-- A stream after the cursor is on the page, unless the page ends before it. -/
theorem mem_names_of_live {page : Page} (matching : Matches config.streamPrefix name)
    (live : call.Live name)
    (listed : call.listStreams (readers.scan.listInput config.streamPrefix) = .ok page)
    (beyond : ∀ c ∈ readers.scan.startAfter, c < name)
    (covered : page.hasMore = false ∨ ∃ last, page.values.getLast? = some last ∧ name ≤ last.name) :
    name ∈ page.names := by
  obtain ⟨⟨rest, split⟩, whole⟩ := call.listed _ _ listed
  have selected : ⟨name, none⟩ ∈
      (readers.scan.listInput config.streamPrefix).select call.streams :=
    List.mem_filter.mpr ⟨live, decide_eq_true ⟨matching, beyond⟩⟩
  rw [Page.mem_names]
  rcases covered with ended | ⟨last, last_eq, not_later⟩
  · rw [whole ended]
    exact selected
  · have ordered : (page.values ++ rest).Pairwise fun a b => a.name < b.name := by
      rw [split]
      exact call.ordered.filter _
    rw [← split] at selected
    rcases List.mem_append.mp selected with on_page | later
    · exact on_page
    · have after_last := (List.pairwise_append.mp ordered).2.2 last (List.mem_of_getLast? last_eq)
        ⟨name, none⟩ later
      exact absurd not_later (not_le.mpr after_last)

/-- The scan has not passed the stream without seeing it, and what it has seen is read. -/
structure Covers (name : String) (readers : StreamReaders) : Prop where
  seen : ∀ c ∈ readers.scan.startAfter, name ≤ c → name ∈ readers.scan.seen
  running : readers.scan.seen ⊆ readers.tasks

theorem covers_of_default (fresh : readers.scan = .default) : Covers name readers := by
  constructor
  · simp [fresh, PrefixScan.default]
  · simp [fresh, PrefixScan.default]

variable (config call readers) in
theorem not_removed {listed : Finset String} (kept : name ∈ listed ∨ name ∈ config.streams) :
    (name ∈ readers.tasks → name ∈ (pruneUnlistedStreams config call readers listed).tasks) ∧
      (pruneUnlistedStreams config call readers listed).checkpoints name =
        readers.checkpoints name := by
  have stays : name ∉ readers.tasks.filter fun name => name ∉ listed ∧ name ∉ config.streams := by
    simp only [Finset.mem_filter, not_and, not_not]
    intro _ unlisted
    exact kept.resolve_left unlisted
  unfold pruneUnlistedStreams
  refine ⟨fun running => Finset.mem_sdiff.mpr ⟨running, stays⟩, ?_⟩
  simp only [stays, false_and, if_false]

/-- A stream that is there is listed, and neither stopped nor forgotten. -/
theorem Handled.live (handled : Handled config call readers next outcome)
    (covers : Covers name readers) (matching : Matches config.streamPrefix name)
    (live : call.Live name) :
    ((name ∈ readers.tasks → name ∈ next.tasks) ∧
        next.checkpoints name = readers.checkpoints name) ∧
      ((∀ listed, outcome = .completed listed → name ∈ listed ∧ name ∈ next.tasks) ∧
        ((∀ listed, outcome ≠ .completed listed) → Covers name next)) := by
  have beyond_or_seen : name ∈ readers.scan.seen ∨ ∀ c ∈ readers.scan.startAfter, c < name := by
    by_cases seen : name ∈ readers.scan.seen
    · exact .inl seen
    · exact .inr fun c at_c => not_le.mp fun not_later => seen (covers.seen c at_c not_later)
  cases handled with
  | failed e ensured =>
      refine ⟨⟨fun running => ensured.tasks running, congrFun ensured.checkpoints name⟩, nofun,
        fun _ => ⟨?_, ?_⟩⟩
      · rw [ensured.scan]
        exact covers.seen
      · rw [ensured.scan]
        exact covers.running.trans ensured.tasks
  | @page ensured page last listed last_eq kept started =>
      refine ⟨⟨fun running => kept.tasks running, congrFun kept.checkpoints name⟩, nofun,
        fun _ => ⟨?_, ?_⟩⟩
      · rintro c at_c not_later
        cases at_c
        rcases beyond_or_seen with seen | beyond
        · exact Finset.mem_union_left _ seen
        · exact Finset.mem_union_right _ (List.mem_toFinset.mpr
            (mem_names_of_live matching live listed beyond (.inr ⟨last, last_eq, not_later⟩)))
      · intro seen mem
        rcases Finset.mem_union.mp mem with earlier | now
        · exact kept.tasks (covers.running earlier)
        · exact started seen (List.mem_toFinset.mp now)
  | @completed ensured page listed ended kept started =>
      have in_listed : name ∈ readers.scan.seen ∪ page.names.toFinset := by
        rcases beyond_or_seen with seen | beyond
        · exact Finset.mem_union_left _ seen
        · exact Finset.mem_union_right _ (List.mem_toFinset.mpr
            (mem_names_of_live matching live listed beyond (.inl ended)))
      have running : name ∈ ensured.tasks := by
        rcases Finset.mem_union.mp in_listed with earlier | now
        · exact kept.tasks (covers.running earlier)
        · exact started name (List.mem_toFinset.mp now)
      have unpruned := not_removed config call { ensured with scan := .default } (.inl in_listed)
      refine ⟨⟨fun _ => unpruned.1 running, ?_⟩, ?_, fun none => absurd rfl (none _)⟩
      · exact unpruned.2.trans (congrFun kept.checkpoints name)
      · rintro _ ⟨⟩
        exact ⟨in_listed, unpruned.1 running⟩

/-- A stream that is not there is not seen, and stopped at the end of the scan. -/
theorem Handled.gone (handled : Handled config call readers next outcome)
    (unseen : name ∉ readers.scan.seen) (gone : ¬ call.Live name) :
    (∀ listed, outcome = .completed listed → name ∉ config.streams → name ∉ next.tasks) ∧
      ((∀ listed, outcome ≠ .completed listed) → name ∉ next.scan.seen) := by
  have not_on_page {page : Page}
      (listed : call.listStreams (readers.scan.listInput config.streamPrefix) = .ok page) :
      name ∉ readers.scan.seen ∪ page.names.toFinset := by
    rw [Finset.mem_union, List.mem_toFinset, Page.mem_names]
    rintro (seen | on_page)
    · exact unseen seen
    · exact gone (List.mem_of_mem_filter ((call.listed _ _ listed).1.subset on_page))
  cases handled with
  | failed e ensured =>
      refine ⟨nofun, fun _ => ?_⟩
      rw [ensured.scan]
      exact unseen
  | page listed last_eq kept started => exact ⟨nofun, fun _ => not_on_page listed⟩
  | @completed ensured page listed ended kept started =>
      refine ⟨?_, fun none => absurd rfl (none _)⟩
      rintro _ ⟨⟩ discovered running
      obtain ⟨was_running, not_removed⟩ := Finset.mem_sdiff.mp running
      exact not_removed (Finset.mem_filter.mpr ⟨was_running, not_on_page listed, discovered⟩)

/-- A configured stream keeps its reader and its checkpoint. -/
theorem Handled.configured (handled : Handled config call readers next outcome)
    (exact_name : name ∈ config.streams) :
    (name ∈ readers.tasks → name ∈ next.tasks) ∧
      next.checkpoints name = readers.checkpoints name := by
  cases handled with
  | failed e ensured =>
      exact ⟨fun running => ensured.tasks running, congrFun ensured.checkpoints name⟩
  | page listed last_eq kept started =>
      exact ⟨fun running => kept.tasks running, congrFun kept.checkpoints name⟩
  | @completed ensured page listed ended kept started =>
      have stays : name ∈ readers.scan.seen ∪ page.names.toFinset ∨ name ∈ config.streams :=
        .inr exact_name
      have unpruned := not_removed config call { ensured with scan := .default } stays
      exact ⟨fun running => unpruned.1 (kept.tasks running),
        unpruned.2.trans (congrFun kept.checkpoints name)⟩

/-- A failed call leaves the scan as it was, a completed one leaves a new scan. -/
theorem Handled.scan (handled : Handled config call readers next outcome) :
    (∀ e, outcome = .failed e → next.scan = readers.scan) ∧
      (∀ listed, outcome = .completed listed → next.scan = .default) := by
  cases handled with
  | failed e ensured => exact ⟨fun _ _ => ensured.scan, nofun⟩
  | page => exact ⟨nofun, nofun⟩
  | completed => exact ⟨nofun, fun _ _ => rfl⟩

/-- A call never forgets a name within a scan. -/
theorem Handled.seen (handled : Handled config call readers next outcome)
    (going_on : ∀ listed, outcome ≠ .completed listed) :
    readers.scan.seen ⊆ next.scan.seen := by
  cases handled with
  | failed e ensured => rw [ensured.scan]
  | page => exact Finset.subset_union_left
  | completed => exact absurd rfl (going_on _)

/-! ## Runs of pages -/

variable {step : Step} {steps pages rest : List Step} {final : StreamReaders}

theorem Run.of_nil (run : Run config readers [] final) :
    final.scan = readers.scan ∧ final.tasks = readers.tasks := by
  generalize no_steps : ([] : List Step) = steps at run
  induction run with
  | nil => exact ⟨rfl, rfl⟩
  | refresh => cases no_steps
  | meanwhile between _ ih =>
      obtain ⟨scan_eq, tasks_eq⟩ := ih no_steps
      exact ⟨scan_eq.trans between.frame.1, tasks_eq.trans between.frame.2⟩

/-- What happens before a call leaves the scan and the running readers alone. -/
theorem Run.of_cons (run : Run config readers (step :: rest) final) :
    (step.before.scan = readers.scan ∧ step.before.tasks = readers.tasks) ∧
      Handled config step.call step.before step.after step.outcome ∧
      Run config step.after rest final := by
  generalize all_steps : step :: rest = steps at run
  induction run with
  | nil => cases all_steps
  | refresh refreshed later =>
      cases all_steps
      exact ⟨⟨rfl, rfl⟩, handled_of_refresh refreshed, later⟩
  | meanwhile between _ ih =>
      obtain ⟨⟨scan_eq, tasks_eq⟩, handled, later⟩ := ih all_steps
      exact ⟨⟨scan_eq.trans between.frame.1, tasks_eq.trans between.frame.2⟩, handled, later⟩

theorem Run.of_append (run : Run config readers (pages ++ rest) final) :
    ∃ mid, Run config readers pages mid ∧ Run config mid rest final := by
  generalize all_steps : pages ++ rest = steps at run
  induction run generalizing pages with
  | nil readers =>
      obtain ⟨rfl, rfl⟩ := List.append_eq_nil_iff.mp all_steps
      exact ⟨readers, .nil _, .nil _⟩
  | @refresh readers next final call outcome steps refreshed later ih =>
      cases pages with
      | nil =>
          rw [List.nil_append] at all_steps
          exact ⟨readers, .nil _, all_steps ▸ .refresh refreshed later⟩
      | cons first pages =>
          obtain ⟨rfl, steps_eq⟩ := List.cons.inj all_steps
          obtain ⟨mid, upto, after⟩ := ih steps_eq
          exact ⟨mid, .refresh refreshed upto, after⟩
  | meanwhile between _ ih =>
      obtain ⟨mid, upto, after⟩ := ih all_steps
      exact ⟨mid, .meanwhile between upto, after⟩

/-- A run that stops between two scans leaves a new one. -/
theorem Run.fresh (run : Run config readers steps final) (fresh : readers.scan = .default)
    (between : ∀ step ∈ steps.getLast?, step.Completed) : final.scan = .default := by
  rcases List.eq_nil_or_concat steps with rfl | ⟨earlier, last, rfl⟩
  · exact run.of_nil.1.trans fresh
  · rw [List.concat_eq_append] at run between
    obtain ⟨mid, _, at_last⟩ := run.of_append
    obtain ⟨_, handled, done⟩ := at_last.of_cons
    obtain ⟨listed, completed⟩ := between last (by simp)
    exact done.of_nil.1.trans (handled.scan.2 listed completed)

theorem Run.configured (run : Run config readers steps final) {name : String}
    (exact_name : name ∈ config.streams) (running : name ∈ readers.tasks) :
    ∀ step ∈ steps, name ∈ step.after.tasks ∧ step.Keeps name := by
  induction steps generalizing readers with
  | nil => exact nofun
  | cons step rest ih =>
      obtain ⟨⟨_, same_tasks⟩, handled, later⟩ := run.of_cons
      have kept := handled.configured exact_name
      have still := kept.1 (same_tasks ▸ running)
      exact List.forall_mem_cons.mpr ⟨⟨still, kept⟩, ih later still⟩

theorem Covers.congr {readers next : StreamReaders} {name : String} (covers : Covers name readers)
    (same : next.scan = readers.scan ∧ next.tasks = readers.tasks) : Covers name next := by
  constructor
  · rw [same.1]
    exact covers.seen
  · rw [same.1, same.2]
    exact covers.running

/-- Over the pages of a scan, a stream that is there stays covered. -/
theorem Run.covers (run : Run config readers pages final) {name : String}
    (covers : Covers name readers) (matching : Matches config.streamPrefix name)
    (going_on : ∀ step ∈ pages, ¬ step.Completed)
    (live : ∀ step ∈ pages, step.call.Live name) :
    Covers name final ∧ ∀ step ∈ pages, step.Keeps name := by
  induction pages generalizing readers with
  | nil => exact ⟨covers.congr run.of_nil, nofun⟩
  | cons step pages ih =>
      obtain ⟨live_now, live_later⟩ := List.forall_mem_cons.mp live
      obtain ⟨not_now, not_later⟩ := List.forall_mem_cons.mp going_on
      obtain ⟨same, handled, later⟩ := run.of_cons
      obtain ⟨kept, _, still⟩ := handled.live (covers.congr same) matching live_now
      obtain ⟨at_end, all_kept⟩ := ih later
        (still fun listed completed => not_now ⟨listed, completed⟩) not_later live_later
      exact ⟨at_end, List.forall_mem_cons.mpr ⟨kept, all_kept⟩⟩

/-- Over the pages of a scan, a stream that is not there stays unseen. -/
theorem Run.unseen (run : Run config readers pages final) {name : String}
    (unseen : name ∉ readers.scan.seen) (going_on : ∀ step ∈ pages, ¬ step.Completed)
    (gone : ∀ step ∈ pages, ¬ step.call.Live name) : name ∉ final.scan.seen := by
  induction pages generalizing readers with
  | nil => rwa [run.of_nil.1]
  | cons step pages ih =>
      obtain ⟨gone_now, gone_later⟩ := List.forall_mem_cons.mp gone
      obtain ⟨not_now, not_later⟩ := List.forall_mem_cons.mp going_on
      obtain ⟨same, handled, later⟩ := run.of_cons
      exact ih later ((handled.gone (same.1 ▸ unseen) gone_now).2
        fun listed completed => not_now ⟨listed, completed⟩) not_later gone_later

theorem Started.fresh (started : Started config readers) : readers.scan = .default := by
  obtain ⟨call, checkpoints, ensured⟩ := started
  exact (ensureStreams_spec ensured).1.scan

theorem Started.running (started : Started config readers) {name : String}
    (exact_name : name ∈ config.streams) : name ∈ readers.tasks := by
  obtain ⟨call, checkpoints, ensured⟩ := started
  exact (ensureStreams_spec ensured).2 rfl name exact_name

end

/-! ## Whole scans -/

/-- These pages, and a last one that completed it, are one scan of the run. -/
structure CompletedScan (steps pages : List Step) (last : Step) (listed : Finset String) :
    Prop where
  within : ∃ earlier later, steps = earlier ++ (pages ++ last :: later) ∧
    ∀ step ∈ earlier.getLast?, step.Completed
  going_on : ∀ step ∈ pages, ¬ step.Completed
  completed : last.outcome = .completed listed

/-- Configured streams are never stopped; the scan carries over from call to call up to
its end, unchanged by a failed one; a completed scan lists and keeps the streams
that were there at all of its calls, and stops those that were at none. -/
theorem scan_exact {config : S2SourceConfig} {readers final : StreamReaders} {steps : List Step}
    (started : Started config readers) (run : Run config readers steps final) :
    (∀ step ∈ steps, ∀ name ∈ config.streams, name ∈ step.after.tasks ∧ step.Keeps name) ∧
    (∀ earlier a b later, steps = earlier ++ a :: b :: later →
      (∀ e, a.outcome = .failed e → b.before.scan = a.before.scan) ∧
      (¬ a.Completed → a.before.scan.seen ⊆ b.before.scan.seen) ∧
      (a.Completed → b.before.scan = .default)) ∧
    ∀ pages last listed, CompletedScan steps pages last listed → ∀ name,
      (Matches config.streamPrefix name → (∀ step ∈ pages ++ [last], step.call.Live name) →
        name ∈ listed ∧ name ∈ last.after.tasks ∧ ∀ step ∈ pages ++ [last], step.Keeps name) ∧
      (name ∉ config.streams → (∀ step ∈ pages ++ [last], ¬ step.call.Live name) →
        name ∉ last.after.tasks) := by
  refine ⟨fun step mem name exact_name =>
    run.configured exact_name (started.running exact_name) step mem, ?_, ?_⟩
  · rintro earlier a b later rfl
    obtain ⟨mid, _, at_a⟩ := run.of_append
    obtain ⟨_, handled, at_b⟩ := at_a.of_cons
    obtain ⟨⟨same_scan, _⟩, _, _⟩ := at_b.of_cons
    refine ⟨fun e failed => same_scan.trans (handled.scan.1 e failed), fun going_on => ?_, ?_⟩
    · rw [same_scan]
      exact handled.seen fun listed completed => going_on ⟨listed, completed⟩
    · rintro ⟨listed, completed⟩
      exact same_scan.trans (handled.scan.2 listed completed)
  · rintro pages last listed ⟨⟨earlier, later, rfl, between⟩, going_on, completed⟩ name
    obtain ⟨first, before, at_first⟩ := run.of_append
    have fresh : first.scan = .default := before.fresh started.fresh between
    obtain ⟨mid, over_pages, at_last⟩ := at_first.of_append
    obtain ⟨same, handled, _⟩ := at_last.of_cons
    simp only [List.forall_mem_append, List.forall_mem_singleton]
    refine ⟨fun matching ⟨live, live_last⟩ => ?_, fun discovered ⟨gone, gone_last⟩ => ?_⟩
    · obtain ⟨covers, kept⟩ := over_pages.covers (covers_of_default fresh) matching going_on live
      obtain ⟨kept_last, done, _⟩ := handled.live (covers.congr same) matching live_last
      obtain ⟨in_listed, running⟩ := done listed completed
      exact ⟨in_listed, running, kept, kept_last⟩
    · have unseen : name ∉ first.scan.seen := by simp [fresh, PrefixScan.default]
      have unseen_last := over_pages.unseen unseen going_on gone
      exact (handled.gone (same.1 ▸ unseen_last) gone_last).1 listed completed discovered

/-! ### A scan of three pages with a failed call, after one that found a stream since deleted -/

/-- The calls of a run with nothing between them. -/
def stepsOf (config : S2SourceConfig) : StreamReaders → List Call → List Step
  | _, [] => []
  | readers, call :: calls =>
    let refreshed := refreshStreamsPage config call readers
    ⟨readers, call, refreshed.2, refreshed.1⟩ :: stepsOf config refreshed.1 calls

theorem run_stepsOf (config : S2SourceConfig) (readers : StreamReaders) (calls : List Call) :
    ∃ final, Run config readers (stepsOf config readers calls) final := by
  induction calls generalizing readers with
  | nil => exact ⟨readers, .nil readers⟩
  | cons call calls ih =>
      obtain ⟨final, run⟩ := ih (refreshStreamsPage config call readers).1
      exact ⟨final, .refresh rfl run⟩

def demoBasin : Call :=
  .onePage [⟨"s1", none⟩, ⟨"s2", some 5⟩, ⟨"s3", none⟩] (by decide)

/-- One stream a page. -/
def demoPaged : Call :=
  { demoBasin with
    listStreams := fun input => .ok
      ⟨(input.select demoBasin.streams).take 1, 1 < (input.select demoBasin.streams).length⟩
    listed := by
      rintro input page ⟨⟩
      refine ⟨List.take_prefix _ _, fun whole => List.take_of_length_le ?_⟩
      simpa using whole }

def demoUnanswered : Call :=
  { demoBasin with
    listStreams := fun _ => .error "timed out"
    listed := nofun }

def demoScanConfig : S2SourceConfig := ⟨["main"], "s", .earliest⟩

def demoReaders : StreamReaders :=
  (ensureStreams demoScanConfig demoBasin ⟨∅, fun _ => none, fun _ => none, .default⟩ ["main"]).1

def demoSteps : List Step :=
  stepsOf demoScanConfig demoReaders
    [.onePage [⟨"s1", none⟩, ⟨"s2", none⟩] (by decide), demoPaged, demoUnanswered, demoPaged,
      demoPaged]

/-- The failed call leaves the scan where it is; at its end the streams listed run, and so does
the configured one, but not the one that was deleted. -/
theorem scan_exact_demo :
    ∃ a b c d e, demoSteps = [a, b, c, d, e] ∧ d.before.scan = c.before.scan ∧
      "s2" ∈ a.after.tasks ∧ e.outcome = .completed {"s1", "s3"} ∧ "main" ∈ e.after.tasks ∧
      "s1" ∈ e.after.tasks ∧ "s3" ∈ e.after.tasks ∧ "s2" ∉ e.after.tasks := by
  have started : Started demoScanConfig demoReaders :=
    ⟨demoBasin, fun _ => none, Prod.ext rfl (by rfl)⟩
  obtain ⟨final, run⟩ : ∃ final, Run demoScanConfig demoReaders demoSteps final :=
    run_stepsOf _ _ _
  obtain ⟨configured, carried, whole⟩ := scan_exact started run
  obtain ⟨a, b, c, d, e, steps⟩ : ∃ a b c d e, demoSteps = [a, b, c, d, e] :=
    ⟨_, _, _, _, _, rfl⟩
  have outcomes : demoSteps.map Step.outcome = [.completed {"s1", "s2"}, .page, .failed
      (.internal "s2_source: failed to list streams page: timed out"), .page,
      .completed {"s1", "s3"}] := by decide
  have calls : demoSteps.map Step.call = [.onePage [⟨"s1", none⟩, ⟨"s2", none⟩] (by decide),
      demoPaged, demoUnanswered, demoPaged, demoPaged] := rfl
  rw [steps] at configured carried whole outcomes calls
  simp only [List.map_cons, List.map_nil, List.cons.injEq, and_true] at outcomes calls
  obtain ⟨a_outcome, b_outcome, c_outcome, d_outcome, e_outcome⟩ := outcomes
  obtain ⟨a_call, b_call, c_call, d_call, e_call⟩ := calls
  have first : CompletedScan [a, b, c, d, e] [] a {"s1", "s2"} :=
    ⟨⟨[], [b, c, d, e], rfl, nofun⟩, nofun, a_outcome⟩
  have second : CompletedScan [a, b, c, d, e] [b, c, d] e {"s1", "s3"} := by
    refine ⟨⟨[a], [], rfl, ?_⟩, ?_, e_outcome⟩
    · rintro step ⟨⟩
      exact ⟨_, a_outcome⟩
    · simp [Step.Completed, b_outcome, c_outcome, d_outcome]
  have live (name : String) (listed : name = "s1" ∨ name = "s3") :
      ∀ step ∈ [b, c, d] ++ [e], step.call.Live name := by
    rcases listed with rfl | rfl <;>
      simp [b_call, c_call, d_call, e_call, Call.Live, demoPaged, demoUnanswered, demoBasin,
        Call.onePage]
  have gone : ∀ step ∈ [b, c, d] ++ [e], ¬ step.call.Live "s2" := by
    simp [b_call, c_call, d_call, e_call, Call.Live, demoPaged, demoUnanswered, demoBasin,
      Call.onePage]
  refine ⟨a, b, c, d, e, steps, (carried [a, b] c d [e] rfl).1 _ c_outcome, ?_, e_outcome,
    (configured e (by simp) "main" (by simp [demoScanConfig])).1,
    ((whole _ e _ second "s1").1 (by decide) (live "s1" (.inl rfl))).2.1,
    ((whole _ e _ second "s3").1 (by decide) (live "s3" (.inr rfl))).2.1,
    (whole _ e _ second "s2").2 (by decide) gone⟩
  refine ((whole [] a _ first "s2").1 (by decide) ?_).2.1
  simp [a_call, Call.Live, Call.onePage]

end StreamlingPlugins.S2Source
