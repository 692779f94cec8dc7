import Mathlib

/-!
# Machines and their reachable logs

A `Machine` is a step function on explicit states: an enabled event moves the
state and appends observations to a log, a disabled one is refused.  An
interleaving of concurrent calls is a list of events, so a property of every
interleaving is a property of every reachable pair of state and log.

`ReachesWhere allowed` admits only the steps that meet `allowed`, a condition on
the state before the step and its event; `Reaches` admits all of them.  The one
induction of this module is `ReachesWhere.invariant`; `run` computes a reach, so
a concrete interleaving is exhibited by evaluation (`Reaches.of_run`).
-/

namespace StreamlingPlugins

universe u v w

/-- A step function on explicit states, with observations. -/
structure Machine (State : Type u) (Event : Type v) (Obs : Type w) where
  step : State → Event → Option (State × List Obs)

namespace Machine

variable {State : Type u} {Event : Type v} {Obs : Type w}

/-- The states and logs reached from `init` by steps that all meet `allowed`. -/
inductive ReachesWhere (M : Machine State Event Obs) (allowed : State → Event → Prop)
    (init : State) : State → List Obs → Prop
  | refl : ReachesWhere M allowed init init []
  | step {s s' : State} {log out : List Obs} {e : Event} :
    ReachesWhere M allowed init s log → allowed s e → M.step s e = some (s', out) →
    ReachesWhere M allowed init s' (log ++ out)

/-- The states and logs reached from `init`. -/
abbrev Reaches (M : Machine State Event Obs) (init : State) : State → List Obs → Prop :=
  M.ReachesWhere (fun _ _ => True) init

/-- Where an observation that a step only makes alone stands in the log that the step extends. -/
theorem split_of_alone {obs : Obs} {log out before after : List Obs}
    (alone : obs ∈ out → out = [obs]) (splits : log ++ out = before ++ obs :: after) :
    (∃ rest, log = before ++ obs :: rest) ∨ before = log ∧ obs ∈ out := by
  rcases List.append_eq_append_iff.mp splits with ⟨more, rfl, rest⟩ | ⟨more, earlier, rest⟩
  · have made : obs ∈ out := by simp [rest]
    rw [alone made] at rest
    cases more with
    | nil => exact .inr ⟨by simp, made⟩
    | cons first more => simp at rest
  · cases more with
    | nil =>
        rw [List.nil_append] at rest
        exact .inr ⟨by simpa using earlier.symm, rest ▸ List.mem_cons_self⟩
    | cons first more =>
        obtain ⟨rfl, -⟩ := List.cons.inj rest
        exact .inl ⟨more, earlier⟩

variable {M : Machine State Event Obs} {allowed : State → Event → Prop} {init : State}

/-- What holds initially and is preserved by every admitted step holds of every
reachable state and its log. -/
theorem ReachesWhere.invariant {P : State → List Obs → Prop} (start : P init [])
    (preserved : ∀ {s s' : State} {log out : List Obs} {e : Event},
      P s log → allowed s e → M.step s e = some (s', out) → P s' (log ++ out))
    {s : State} {log : List Obs} (reached : M.ReachesWhere allowed init s log) : P s log := by
  induction reached with
  | refl => exact start
  | step _ ok taken ih => exact preserved ih ok taken

/-- Weakening the condition on steps. -/
theorem ReachesWhere.mono {allowed' : State → Event → Prop}
    (weaker : ∀ s e, allowed s e → allowed' s e) {s : State} {log : List Obs}
    (reached : M.ReachesWhere allowed init s log) : M.ReachesWhere allowed' init s log := by
  induction reached with
  | refl => exact .refl
  | step _ ok taken ih => exact .step ih (weaker _ _ ok) taken

/-- Dropping the condition on steps. -/
theorem ReachesWhere.reaches {s : State} {log : List Obs}
    (reached : M.ReachesWhere allowed init s log) : M.Reaches init s log :=
  reached.mono fun _ _ _ => trivial

/-- Whichever admitted steps are taken, some step is possible until `Goal` holds, and
it holds after finitely many. -/
inductive Inevitable (M : Machine State Event Obs) (allowed : State → Event → Prop)
    (Goal : State → List Obs → Prop) : State → List Obs → Prop
  | reached {s : State} {log : List Obs} : Goal s log → Inevitable M allowed Goal s log
  | later {s : State} {log : List Obs} :
    (∃ e s' out, allowed s e ∧ M.step s e = some (s', out)) →
    (∀ e s' out, allowed s e → M.step s e = some (s', out) →
      Inevitable M allowed Goal s' (log ++ out)) → Inevitable M allowed Goal s log

theorem Inevitable.mono {Goal Goal' : State → List Obs → Prop}
    (weaker : ∀ {s log}, Goal s log → Goal' s log) {s : State} {log : List Obs}
    (inevitable : M.Inevitable allowed Goal s log) : M.Inevitable allowed Goal' s log := by
  induction inevitable with
  | reached goal => exact .reached (weaker goal)
  | later enabled _ ih => exact .later enabled ih

/-- A goal is inevitable where every step before it lowers a rank. -/
theorem Inevitable.of_rank {Goal : State → List Obs → Prop} {Rank : Type*} [LT Rank]
    [WellFoundedLT Rank] {P : Rank → State → List Obs → Prop}
    (progress : ∀ {r s log}, P r s log →
      (∃ e s' out, allowed s e ∧ M.step s e = some (s', out)) ∧
        ∀ e s' out, allowed s e → M.step s e = some (s', out) →
          Goal s' (log ++ out) ∨ ∃ r' < r, P r' s' (log ++ out))
    {r : Rank} {s : State} {log : List Obs} (start : P r s log) :
    M.Inevitable allowed Goal s log := by
  induction r using WellFoundedLT.induction generalizing s log with
  | _ r ih =>
      obtain ⟨enabled, steps⟩ := progress start
      refine .later enabled fun e s' out ok taken => ?_
      rcases steps e s' out ok taken with goal | ⟨r', lower, kept⟩
      · exact .reached goal
      · exact ih r' lower kept

/-- Run a list of events, refusing the first one that is disabled or not allowed. -/
def runWhere (M : Machine State Event Obs) (allowed : State → Event → Prop)
    [∀ s e, Decidable (allowed s e)] : State → List Event → Option (State × List Obs)
  | s, [] => some (s, [])
  | s, e :: es =>
    if allowed s e then
      match M.step s e with
      | none => none
      | some (s', out) => (runWhere M allowed s' es).map fun r => (r.1, out ++ r.2)
    else none

/-- Run a list of events. -/
def run (M : Machine State Event Obs) : State → List Event → Option (State × List Obs) :=
  M.runWhere fun _ _ => True

/-- A computed run extends a reach. -/
theorem ReachesWhere.runWhere [∀ s e, Decidable (allowed s e)] {events : List Event}
    {s s' : State} {log out : List Obs} (reached : M.ReachesWhere allowed init s log)
    (computed : M.runWhere allowed s events = some (s', out)) :
    M.ReachesWhere allowed init s' (log ++ out) := by
  induction events generalizing s log out with
  | nil =>
      cases computed
      simpa using reached
  | cons e es ih =>
      simp only [Machine.runWhere] at computed
      split at computed
      · rename_i ok
        split at computed
        · cases computed
        · rename_i s₁ out₁ taken
          obtain ⟨⟨s₂, out₂⟩, rest, joined⟩ := Option.map_eq_some_iff.mp computed
          cases joined
          have tail := ih (.step reached ok taken) rest
          rwa [List.append_assoc] at tail
      · cases computed

/-- A computed run of events that are allowed in every state extends a reach. -/
theorem ReachesWhere.run {events : List Event} {s s' : State} {log out : List Obs}
    (reached : M.ReachesWhere allowed init s log) (ok : ∀ e ∈ events, ∀ s, allowed s e)
    (computed : M.run s events = some (s', out)) :
    M.ReachesWhere allowed init s' (log ++ out) := by
  induction events generalizing s log out with
  | nil =>
      cases computed
      simpa using reached
  | cons e es ih =>
      obtain ⟨first, others⟩ := List.forall_mem_cons.mp ok
      simp only [Machine.run, Machine.runWhere, if_true] at computed
      split at computed
      · cases computed
      · rename_i s₁ out₁ taken
        obtain ⟨⟨s₂, out₂⟩, rest, joined⟩ := Option.map_eq_some_iff.mp computed
        cases joined
        have tail := ih (.step reached (first s) taken) others rest
        rwa [List.append_assoc] at tail

/-- A computed run is a reach. -/
theorem ReachesWhere.of_runWhere [∀ s e, Decidable (allowed s e)] (events : List Event)
    {s : State} {log : List Obs} (computed : M.runWhere allowed init events = some (s, log)) :
    M.ReachesWhere allowed init s log := by
  simpa using ReachesWhere.refl.runWhere computed

/-- A computed run is a reach. -/
theorem Reaches.of_run (events : List Event) {s : State} {log : List Obs}
    (computed : M.run init events = some (s, log)) : M.Reaches init s log :=
  ReachesWhere.of_runWhere events computed

/-- A computed log is the log of a reach. -/
theorem Reaches.exists_of_run (events : List Event) {log : List Obs}
    (computed : (M.run init events).map Prod.snd = some log) : ∃ s, M.Reaches init s log := by
  obtain ⟨⟨s, log'⟩, ran, rfl⟩ := Option.map_eq_some_iff.mp computed
  exact ⟨s, .of_run events ran⟩

end Machine

end StreamlingPlugins
