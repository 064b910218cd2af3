import Mathlib.Tactic

/-!
# Interleaved runs

Threads which share a state take turns in any order.  A run is the list of the
steps taken, and a step which is not enabled ends it.  An invariant which each
step keeps, or each step of the allowed kinds, holds in all the states which
are reached, and says something about every step taken there.
-/

namespace Interleaving

variable {σ ε : Type} {step : σ → ε → Option σ}

def run (step : σ → ε → Option σ) : σ → List ε → Option σ
  | state, [] => some state
  | state, event :: rest =>
      match step state event with
      | some next => run step next rest
      | none => none

/-- `claim` holds of every step of the run, in the state where it is taken. -/
def EveryStep (step : σ → ε → Option σ) (claim : σ → ε → Prop) :
    σ → List ε → Prop
  | _, [] => True
  | state, event :: rest =>
      claim state event ∧
        ∀ next, step state event = some next → EveryStep step claim next rest

instance decidableEveryStep
    (claim : σ → ε → Prop) [∀ state event, Decidable (claim state event)] :
    ∀ state events, Decidable (EveryStep step claim state events)
  | _, [] => inferInstanceAs (Decidable True)
  | state, event :: rest =>
      match hstep : step state event with
      | none => decidable_of_iff (claim state event) (by
          simp [EveryStep, hstep])
      | some next =>
          have := decidableEveryStep claim next rest
          decidable_of_iff
            (claim state event ∧ EveryStep step claim next rest) (by
              simp [EveryStep, hstep])

/-- The rule for a run all of whose steps are allowed. -/
theorem invariant_of_everyStep
    {allowed : σ → ε → Prop} (invariant : σ → Prop)
    (hstep : ∀ state event next, invariant state → allowed state event →
      step state event = some next → invariant next)
    {state final : σ} {events : List ε} (hstart : invariant state)
    (hallowed : EveryStep step allowed state events)
    (hrun : run step state events = some final) :
    invariant final := by
  induction events generalizing state with
  | nil =>
      rw [run, Option.some.injEq] at hrun
      exact hrun ▸ hstart
  | cons event rest ih =>
      rw [run] at hrun
      rw [EveryStep] at hallowed
      cases hnext : step state event with
      | none => simp [hnext] at hrun
      | some next =>
          rw [hnext] at hrun
          exact ih (hstep state event next hstart hallowed.1 hnext)
            (hallowed.2 next hnext) hrun

end Interleaving
