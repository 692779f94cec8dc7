import StreamlingPlugins.CloudTrail.Windows

/-!
# Catching up

A successful capped cycle advances the watermark by what a window spans beyond its
lookback, and an uncapped window is followed by uncapped ones, so that a backlog takes
only so many capped cycles.
-/

namespace StreamlingPlugins.CloudTrail

section

variable (parsers : Parsers) (config : CloudTrailSourceConfig) (floor now : Int64)

/-- The cycles that the answers to their requests make, all planned at one time. -/
def cycles : PollState → List Response → List Cycle
  | _, [] => []
  | state, response :: responses =>
    let polled := pollCycle parsers config floor state now response
    polled.2 :: cycles polled.1 responses

end

def Cycle.succeeded (cycle : Cycle) : Bool :=
  cycle.outcome.isOk

/-- The milliseconds by which a capped window advances at least. -/
def CloudTrailSourceConfig.advanceMs (config : CloudTrailSourceConfig) : Nat :=
  1000 * (config.maxWindowSecs - config.lookbackSecs)

theorem advanceMs_pos (config : CloudTrailSourceConfig) : 0 < config.advanceMs := by
  have overlap := config.lookback_lt
  unfold CloudTrailSourceConfig.advanceMs
  omega

section

variable {parsers : Parsers} {config : CloudTrailSourceConfig} {floor now : Int64}
  {state : PollState} {response : Response}

/-- The end of a capped window, which is in the past, lies past the watermark. -/
theorem advance_le_end {endMs : Int64}
    (capped : (config.plan state.watermarkMs floor now).endMs = some endMs) :
    state.watermarkMs.toInt + config.advanceMs ≤ endMs.toInt ∧ endMs.toInt < now.toInt := by
  obtain ⟨spans, before⟩ := plan_endMs capped
  have start := plan_startMs config state.watermarkMs floor now
  have overlap := config.lookback_lt
  unfold CloudTrailSourceConfig.advanceMs
  omega

theorem watermark_mono (parsers : Parsers) (config : CloudTrailSourceConfig)
    (floor now : Int64) (state : PollState) (response : Response) : state.watermarkMs.toInt ≤
    (pollCycle parsers config floor state now response).1.watermarkMs.toInt := by
  rcases pollCycle_watermark parsers config floor now state response with ⟨_, kept⟩ | ⟨_, _, _, advanced⟩
  · rw [kept]
  · rw [advanced]
    exact le_advanceWatermark

/-- A successful cycle of a capped window. -/
theorem advance_le_watermark {endMs : Int64}
    (capped : (config.plan state.watermarkMs floor now).endMs = some endMs)
    (succeeded : (pollCycle parsers config floor state now response).2.succeeded) :
    state.watermarkMs.toInt + config.advanceMs ≤
      (pollCycle parsers config floor state now response).1.watermarkMs.toInt := by
  rcases pollCycle_watermark parsers config floor now state response with ⟨⟨e, failed⟩, _⟩ | ⟨_, _, _, advanced⟩
  · rw [Cycle.succeeded, failed] at succeeded
    cases succeeded
  · rw [advanced]
    exact (advance_le_end capped).1.trans (ending_le_advanceWatermark endMs capped)

/-- Windows stay uncapped. -/
theorem cycles_uncapped {responses : List Response}
    (uncapped : (config.plan state.watermarkMs floor now).endMs = none) :
    ∀ cycle ∈ cycles parsers config floor now state responses, cycle.window.endMs = none := by
  induction responses generalizing state with
  | nil => exact nofun
  | cons response responses ih =>
      refine List.forall_mem_cons.mpr ⟨?_, ih ?_⟩
      · rw [pollCycle_window, uncapped]
      · rw [plan_uncapped_iff] at uncapped ⊢
        have later := plan_startMs_mono config floor now
          (watermark_mono parsers config floor now state response)
        omega

theorem cycles_split (responses : List Response) (state : PollState) :
    ∃ capped uncapped, cycles parsers config floor now state responses = capped ++ uncapped ∧
      (∀ cycle ∈ capped, cycle.window.endMs.isSome) ∧
      (∀ cycle ∈ uncapped, cycle.window.endMs = none) ∧
      (capped.filter Cycle.succeeded).length ≤
        (now.toInt - state.watermarkMs.toInt).toNat / config.advanceMs := by
  induction responses generalizing state with
  | nil => exact ⟨[], [], rfl, nofun, nofun, Nat.zero_le _⟩
  | cons response responses ih =>
      cases ending : (config.plan state.watermarkMs floor now).endMs with
      | none =>
          exact ⟨[], cycles parsers config floor now state (response :: responses), rfl, nofun,
            cycles_uncapped ending, Nat.zero_le _⟩
      | some endMs =>
          obtain ⟨capped, uncapped, split, all_capped, all_uncapped, few⟩ :=
            ih (pollCycle parsers config floor state now response).1
          refine ⟨(pollCycle parsers config floor state now response).2 :: capped, uncapped, ?_,
            List.forall_mem_cons.mpr ⟨?_, all_capped⟩, all_uncapped, ?_⟩
          · rw [cycles, split, List.cons_append]
          · rw [pollCycle_window, ending]
            rfl
          · have in_past := advance_le_end ending
            have pos := advanceMs_pos config
            cases succeeded : (pollCycle parsers config floor state now response).2.succeeded with
            | false =>
                have no_less := watermark_mono parsers config floor now state response
                rw [List.filter_cons_of_neg (by simp [succeeded])]
                exact few.trans (Nat.div_le_div_right (by omega))
            | true =>
                have advanced := advance_le_watermark ending succeeded
                rw [List.filter_cons_of_pos succeeded, List.length_cons,
                  Nat.le_div_iff_mul_le pos, Nat.succ_mul]
                have rest := (Nat.le_div_iff_mul_le pos).mp few
                omega

/-- No cycle moves the watermark backwards.  A successful capped one, whose window ends in
the past, moves it forward by the span of a window less its lookback, and for a fixed time
only so many of these come before windows are uncapped for good. -/
theorem catches_up (parsers : Parsers) (config : CloudTrailSourceConfig)
    (floor now : Int64) (state : PollState) :
    (∀ response,
      let polled := pollCycle parsers config floor state now response
      state.watermarkMs.toInt ≤ polled.1.watermarkMs.toInt ∧
        ∀ endMs ∈ polled.2.window.endMs, endMs.toInt < now.toInt ∧
          (polled.2.succeeded →
            state.watermarkMs.toInt + 1000 * (config.maxWindowSecs - config.lookbackSecs : Nat) ≤
              polled.1.watermarkMs.toInt)) ∧
      ∀ responses, ∃ capped uncapped,
        cycles parsers config floor now state responses = capped ++ uncapped ∧
        (∀ cycle ∈ capped, cycle.window.endMs.isSome) ∧
        (∀ cycle ∈ uncapped, cycle.window.endMs = none) ∧
        (capped.filter Cycle.succeeded).length ≤
          (now.toInt - state.watermarkMs.toInt).toNat /
            (1000 * (config.maxWindowSecs - config.lookbackSecs)) := by
  refine ⟨fun response => ⟨watermark_mono parsers config floor now state response, fun endMs capped => ?_⟩,
    fun responses => cycles_split responses state⟩
  rw [pollCycle_window] at capped
  refine ⟨(advance_le_end capped).2, fun succeeded => ?_⟩
  have advanced := advance_le_watermark capped succeeded
  unfold CloudTrailSourceConfig.advanceMs at advanced
  push_cast at advanced ⊢
  exact advanced

end

end StreamlingPlugins.CloudTrail
