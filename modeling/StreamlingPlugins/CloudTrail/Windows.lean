import StreamlingPlugins.CloudTrail.Poller

/-!
# Windows and the watermark

The values of `planWindow` and `advanceWatermark` as integers, whatever saturates, and how
a cycle moves the watermark: never backwards, and past the end of a capped window.
-/

namespace StreamlingPlugins.CloudTrail

/-! ## Planning -/

theorem toInt_secsToMs (secs : Nat) :
    (secsToMs secs).toInt = min (1000 * secs) (2 ^ 63 - 1) := by
  have thousand : (1000 : Int64).toInt = 1000 := rfl
  unfold secsToMs saturatingMul
  rw [toInt_saturate, toInt_saturate, thousand]
  omega

/-- The seconds that a window starts before the watermark and those it spans. -/
def CloudTrailSourceConfig.plan (config : CloudTrailSourceConfig)
    (watermarkMs floorMs nowMs : Int64) : Window :=
  planWindow watermarkMs floorMs (secsToMs config.lookbackSecs) (secsToMs config.maxWindowSecs)
    nowMs

variable {config : CloudTrailSourceConfig} {watermark floor now : Int64}

theorem plan_startMs (config : CloudTrailSourceConfig) (watermark floor now : Int64) :
    (config.plan watermark floor now).startMs.toInt =
      max (max (watermark.toInt - 1000 * config.lookbackSecs) floor.toInt) 0 := by
  have zero : (0 : Int64).toInt = 0 := rfl
  have upper := watermark.toInt_lt
  unfold CloudTrailSourceConfig.plan planWindow saturatingSub
  simp only [Int64.toInt_max, toInt_saturate, toInt_secsToMs, zero]
  omega

/-- A capped window spans all of its seconds and ends before the time of the plan. -/
theorem plan_endMs {endMs : Int64} (capped : (config.plan watermark floor now).endMs = some endMs) :
    endMs.toInt =
        (config.plan watermark floor now).startMs.toInt + 1000 * config.maxWindowSecs ∧
      endMs.toInt < now.toInt := by
  have upper := now.toInt_lt
  have start := plan_startMs config watermark floor now
  unfold CloudTrailSourceConfig.plan planWindow at capped start ⊢
  simp only [Option.ite_none_right_eq_some, Option.some.injEq] at capped
  obtain ⟨before, rfl⟩ := capped
  rw [Int64.lt_iff_toInt_lt] at before
  refine ⟨?_, before⟩
  unfold saturatingAdd at before ⊢
  rw [toInt_saturate, toInt_secsToMs] at before ⊢
  dsimp only at start ⊢
  omega

/-- A window is uncapped when its seconds reach the time of the plan. -/
theorem plan_uncapped_iff : (config.plan watermark floor now).endMs = none ↔
    now.toInt ≤
      (config.plan watermark floor now).startMs.toInt + 1000 * config.maxWindowSecs := by
  have upper := now.toInt_lt
  have start := plan_startMs config watermark floor now
  unfold CloudTrailSourceConfig.plan planWindow at start ⊢
  simp only [ite_eq_right_iff, reduceCtorEq, imp_false, Int64.lt_iff_toInt_lt]
  unfold saturatingAdd
  rw [toInt_saturate, toInt_secsToMs]
  dsimp only at start ⊢
  omega

theorem plan_startMs_mono (config : CloudTrailSourceConfig) (floor now : Int64)
    {later : Int64} (le : watermark.toInt ≤ later.toInt) :
    (config.plan watermark floor now).startMs.toInt ≤
      (config.plan later floor now).startMs.toInt := by
  rw [plan_startMs, plan_startMs]
  omega

/-! ## Advancing -/

section

variable {current : Int64} {fetched ending : Option Int64}

theorem advanceWatermark_cases : advanceWatermark current fetched ending = current ∨
    fetched = some (advanceWatermark current fetched ending) ∨
    ending = some (advanceWatermark current fetched ending) := by
  have larger (a b : Int64) : max a b = b ∨ max a b = a := by
    have value : max a b = if a ≤ b then b else a := rfl
    rw [value]
    split <;> simp
  cases fetched with
  | none =>
      cases ending with
      | none => exact .inl rfl
      | some e => rcases larger current e with e_eq | e_eq <;> simp [advanceWatermark, e_eq]
  | some m =>
      cases ending with
      | none => rcases larger current m with m_eq | m_eq <;> simp [advanceWatermark, m_eq]
      | some e =>
          rcases larger current m with m_eq | m_eq <;>
            rcases larger (max current m) e with e_eq | e_eq <;>
            rw [m_eq] at e_eq <;> simp [advanceWatermark, m_eq, e_eq]

theorem le_advanceWatermark : current.toInt ≤ (advanceWatermark current fetched ending).toInt := by
  cases fetched <;> cases ending <;> simp [advanceWatermark, Int64.toInt_max]

theorem fetched_le_advanceWatermark :
    ∀ m ∈ fetched, m.toInt ≤ (advanceWatermark current fetched ending).toInt := by
  rintro m ⟨⟩
  cases ending <;> simp [advanceWatermark, Int64.toInt_max]

theorem ending_le_advanceWatermark :
    ∀ e ∈ ending, e.toInt ≤ (advanceWatermark current fetched ending).toInt := by
  rintro e ⟨⟩
  cases fetched <;> simp [advanceWatermark, Int64.toInt_max]

end

/-! ## Cycles -/

section

variable {parsers : Parsers} {state : PollState} {response : Response}

theorem pollCycle_window : (pollCycle parsers config floor state now response).2.window =
    config.plan state.watermarkMs floor now := by
  unfold pollCycle CloudTrailSourceConfig.plan
  dsimp only
  split <;> rfl

/-- A failed cycle leaves the watermark, a successful one advances it. -/
theorem pollCycle_watermark (parsers : Parsers) (config : CloudTrailSourceConfig)
    (floor now : Int64) (state : PollState) (response : Response) :
    ((∃ e, (pollCycle parsers config floor state now response).2.outcome = .error e) ∧
        (pollCycle parsers config floor state now response).1.watermarkMs = state.watermarkMs) ∨
      ∃ batches fetched,
        (pollCycle parsers config floor state now response).2.outcome = .ok batches ∧
        (pollCycle parsers config floor state now response).1.watermarkMs =
          advanceWatermark state.watermarkMs fetched
            (config.plan state.watermarkMs floor now).endMs := by
  unfold pollCycle CloudTrailSourceConfig.plan
  dsimp only
  split
  · exact .inl ⟨⟨_, rfl⟩, rfl⟩
  · exact .inr ⟨_, _, rfl, rfl⟩

end

end StreamlingPlugins.CloudTrail
