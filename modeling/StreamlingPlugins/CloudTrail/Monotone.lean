import StreamlingPlugins.CloudTrail.RestartSafety

/-!
# Stored watermarks go up

While the host's markers come with growing epochs, and markers and finalizers end in the order
in which they began, the watermarks that reach the backend never go back, whatever the poll
task fetches and across all restarts.
-/

namespace StreamlingPlugins.CloudTrail

def InEpochOrder (s : SourceState) : SourceEvent → Prop
  | .marker epoch => s.checkpoints.LaterEpoch epoch
  | .record i => i = 0
  | .put i _ => i = 0
  | _ => True

/-- Watermarks up to the delivered one. -/
abbrev Forward (log : List SourceObs) (checkpoint : Option Int64) (s : SourceState) : Prop :=
  s.checkpoints.Forward (· ≤ ·) (· ≤ s.deliveredWatermark)
    (checkpoint.toList ++ log.filterMap SourceObs.persistedMs)

variable {parsers : Parsers} {config : CloudTrailSourceConfig} {checkpoint : Option Int64}
  {log out : List SourceObs} {s s' : SourceState}

theorem forward_quiet (forward : Forward log checkpoint s)
    (nothing : out.filterMap SourceObs.persistedMs = []) : Forward (log ++ out) checkpoint s := by
  unfold Forward
  rw [List.filterMap_append, nothing, List.append_nil]
  exact forward

theorem forward_step {event : SourceEvent} (forward : Forward log checkpoint s)
    (ordered : InEpochOrder s event) (taken : sourceStep parsers config s event = some (s', out)) :
    Forward (log ++ out) checkpoint s' := by
  cases event with
  | cycle nowMs answeredMs response =>
      obtain ⟨-, -, ⟨rfl, rfl⟩ | ⟨fetched, batches, -, -, -, -, rfl, rfl⟩⟩ := cycle_cases taken
      · exact forward_quiet forward rfl
      · exact forward_quiet forward rfl
  | send =>
      simp only [sourceStep] at taken
      split at taken
      · cases taken
      · obtain ⟨c, sent, same⟩ := Option.map_eq_some_iff.mp taken
        cases same
        exact forward_quiet forward rfl
  | terminate =>
      cases taken
      exact forward_quiet forward rfl
  | call =>
      obtain ⟨called, called_eq, same⟩ := Option.map_eq_some_iff.mp taken
      cases same
      refine forward_quiet (forward.mono fun before le => ?_) rfl
      show before ≤ called.2.elim s.deliveredWatermark (max s.deliveredWatermark)
      cases called.2 with
      | none => exact le
      | some time =>
          rw [Int64.le_iff_toInt_le] at le ⊢
          rw [Option.elim_some, Int64.toInt_max]
          exact le_max_of_le_left le
  | tryRecv | receive | expire | abandon =>
      obtain ⟨c, moved, same⟩ := Option.map_eq_some_iff.mp taken
      cases same
      exact forward_quiet forward rfl
  | finish built =>
      obtain ⟨⟨c, result⟩, finished, same⟩ := Option.map_eq_some_iff.mp taken
      cases same
      refine forward_quiet forward ?_
      cases result <;> rfl
  | marker epoch =>
      cases taken
      exact forward_quiet (forward.load (Int64.le_refl _) (fun before le => le) ordered) rfl
  | record i =>
      obtain ⟨checkpoints, recorded, same⟩ := Option.map_eq_some_iff.mp taken
      cases same
      obtain rfl : i = 0 := ordered
      exact forward_quiet (forward.record recorded) rfl
  | finalizer epoch =>
      cases taken
      exact forward_quiet forward.finalize rfl
  | put i succeeds =>
      obtain ⟨⟨checkpoints, result⟩, put, same⟩ := Option.map_eq_some_iff.mp taken
      cases same
      obtain rfl : i = 0 := ordered
      have stored := forward.store (fun _ => Int64.le_refl _) (fun _ _ _ => Int64.le_trans) put
      unfold Forward
      rw [List.filterMap_append, ← List.append_assoc]
      cases result <;> exact stored
  | restart nowMs =>
      cases taken
      refine forward_quiet ⟨Checkpointing.ascending_restored _, Checkpointing.all_restored _, ?_,
        forward.pairwise, forward.below⟩ rfl
      intro watermark stored
      have resumed : (SourceState.initial config s.checkpoints.stored nowMs).deliveredWatermark =
          watermark := by
        rw [show s.checkpoints.stored = some watermark from stored]
        rfl
      rw [resumed]
      exact Int64.le_refl _

/-- **Stored watermarks never go back**, within a run and from one run to the next. -/
theorem watermarks_forward {startMs : Int64}
    (reached : (sourceMachine parsers config).ReachesWhere InEpochOrder
      (.initial config checkpoint startMs) s log) :
    (checkpoint.toList ++ log.filterMap SourceObs.persistedMs).Pairwise (· ≤ ·) := by
  have forward : Forward log checkpoint s := by
    refine reached.invariant (P := fun s log => Forward log checkpoint s) ?_ ?_
    · unfold Forward
      rw [List.filterMap_nil, List.append_nil]
      refine Checkpointing.forward_restored (fun _ => Int64.le_refl _) ?_
      rintro watermark rfl
      exact Int64.le_refl _
    · exact fun forward ordered taken => forward_step forward ordered taken
  exact forward.pairwise

/-- The first of two events is delivered, and the second is in the channel. -/
def demoDelivered (poll : PollState) : SourceState where
  poll := poll
  floorMs := 0
  unsent := []
  polling := true
  conveyor := ⟨[[⟨"b", 6000⟩]], [], none, .filling⟩
  deliveredWatermark := 5000
  checkpoints := .restored (some 0)

theorem demo_delivered : ∃ poll log,
    (sourceMachine demoParsers demoConfig).ReachesWhere InEpochOrder
      (.initial demoConfig (some 0) 0) (demoDelivered poll) log ∧
    log.filterMap SourceObs.persistedMs = [] := by
  obtain ⟨poll, cycle⟩ := demo_cycle (.restored (some 0))
  have resumed : SourceState.initial demoConfig (some 0) 0 =
      { demoState with checkpoints := .restored (some 0) } := rfl
  rw [← resumed] at cycle
  have calls : ∀ e ∈ [SourceEvent.send, .send, .call, .tryRecv, .tryRecv, .finish true, .call],
      ∀ s, InEpochOrder s e := by simp [InEpochOrder]
  have fetched : (sourceMachine demoParsers demoConfig).ReachesWhere InEpochOrder
      (.initial demoConfig (some 0) 0) _ _ :=
    Machine.ReachesWhere.refl.step (e := demoCycle) trivial cycle
  exact ⟨poll, _, fetched.run calls rfl, rfl⟩

/-- A source that resumes from the epoch delivers an event and stores its time. -/
theorem watermarks_forward_demo : ∃ log : List SourceObs,
    log.filterMap SourceObs.persistedMs = [5000] ∧
    ((some 0).toList ++ log.filterMap SourceObs.persistedMs).Pairwise
      fun (a b : Int64) => a ≤ b := by
  obtain ⟨poll, log, delivered, nothing⟩ := demo_delivered
  have later : InEpochOrder (demoDelivered poll) (.marker 1) :=
    ⟨nofun, fun recorded known => by simp [demoDelivered, Checkpointing.restored] at known⟩
  have stores : ∀ e ∈ [SourceEvent.record 0, .finalizer 1, .put 0 true],
      ∀ s, InEpochOrder s e := by simp [InEpochOrder]
  have marked := delivered.step later rfl
  have reached := marked.run stores rfl
  refine ⟨_, ?_, watermarks_forward reached⟩
  simp [List.filterMap_append, nothing]
  rfl

end StreamlingPlugins.CloudTrail
