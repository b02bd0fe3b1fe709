import Mathlib.Logic.Function.Iterate
import Mathlib.Logic.Relation

/-!
# Steps whose guards tell whether they have been taken

A list of steps is worked off in order.  The first step that is not counted as done
is taken if its guard does not hold, and counted if it does.  Only the count
survives an interruption, so a step may be tried any number of times before it is
counted.  If no guard holds before its step and each holds after it, or never does,
then all steps have been taken exactly once when all are counted.
-/

namespace GuardedSteps

variable {State Step : Type*} (act : Step → State → State)
  (guard : Step → State → Bool)

/-- How many steps count as done, and the state. -/
structure Progress (State : Type*) where
  done : Nat
  state : State

/-- The next step is taken while its guard fails, and counted once it holds. -/
inductive Move (steps : List Step) : Progress State → Progress State → Prop
  | take {done : Nat} {state : State} {step : Step} (next : steps[done]? = some step)
      (unmet : guard step state = false) :
      Move steps ⟨done, state⟩ ⟨done, act step state⟩
  | count {done : Nat} {state : State} {step : Step} (next : steps[done]? = some step)
      (met : guard step state = true) : Move steps ⟨done, state⟩ ⟨done + 1, state⟩

/-- There is nothing to do, or the guard does not hold yet and does so after the
step has been taken once, if ever. -/
def Tells (step : Step) (state : State) : Prop :=
  guard step state = true ∧ act step state = state ∨
    guard step state = false ∧
      (guard step (act step state) = true ∨
        ∀ times, guard step ((act step)^[times + 1] state) = false)

/-- Every step taken once. -/
def after (steps : List Step) (state : State) : State :=
  steps.foldl (fun state step => act step state) state

/-- The steps that are done have been taken once, and perhaps the next one. -/
inductive Within (steps : List Step) (start : State) : Progress State → Prop
  | before (done : Nat) : Within steps start ⟨done, after act (steps.take done) start⟩
  | during {done : Nat} {step : Step} (next : steps[done]? = some step)
      (unmet : guard step (after act (steps.take done) start) = false) (times : Nat)
      (once : guard step (act step (after act (steps.take done) start)) = true →
        times = 0) :
      Within steps start
        ⟨done, (act step)^[times + 1] (after act (steps.take done) start)⟩

variable {act guard} {steps : List Step} {start : State}

theorem after_take_succ {done : Nat} {step : Step} (next : steps[done]? = some step) :
    after act (steps.take (done + 1)) start =
      act step (after act (steps.take done) start) := by
  obtain ⟨inRange, rfl⟩ := List.getElem?_eq_some_iff.mp next
  simp only [after, List.take_succ_eq_append_getElem inRange, List.foldl_append,
    List.foldl_cons, List.foldl_nil]

theorem Within.move
    (tells : ∀ index step, steps[index]? = some step →
      Tells act guard step (after act (steps.take index) start))
    {progress later : Progress State} (within : Within act guard steps start progress)
    (move : Move act guard steps progress later) :
    Within act guard steps start later := by
  cases move with
  | take next unmet =>
      cases within with
      | before => exact .during next unmet 0 fun _ => rfl
      | @during _ other known early times once =>
          obtain rfl := Option.some.inj (known.symm.trans next)
          rw [← Function.iterate_succ_apply' (act other)]
          refine .during next early (times + 1) fun met => ?_
          -- The guard would hold after the first time, so this would be a second one.
          obtain rfl := once met
          rw [Function.iterate_one, met] at unmet
          cases unmet
  | count next met =>
      cases within with
      | before =>
          rcases tells _ _ next with ⟨-, idle⟩ | ⟨unmet, -⟩
          · have counted : after act (steps.take (_ + 1)) start = _ :=
              (after_take_succ next).trans idle
            rw [← counted]
            exact .before _
          · rw [unmet] at met
            cases met
      | @during _ other known early times once =>
          obtain rfl := Option.some.inj (known.symm.trans next)
          rcases tells _ _ next with ⟨early', -⟩ | ⟨-, reached | never⟩
          · rw [early] at early'
            cases early'
          · obtain rfl := once reached
            have counted : after act (steps.take (_ + 1)) start = _ :=
              after_take_succ next
            rw [Function.iterate_one, ← counted]
            exact .before _
          · rw [never times] at met
            cases met

/-- Once all steps are counted, each has been taken exactly once and in order. -/
theorem state_of_all_done
    (tells : ∀ index step, steps[index]? = some step →
      Tells act guard step (after act (steps.take index) start))
    {progress : Progress State}
    (moves : Relation.ReflTransGen (Move act guard steps) ⟨0, start⟩ progress)
    (all : progress.done = steps.length) : progress.state = after act steps start := by
  have within : Within act guard steps start progress := by
    clear all
    induction moves with
    | refl => exact .before 0
    | tail _ move induction => exact induction.move tells move
  cases within with
  | before done =>
      dsimp only at all ⊢
      rw [all, List.take_length]
  | during next =>
      dsimp only at all
      rw [all, List.getElem?_eq_none (Nat.le_refl _)] at next
      cases next

end GuardedSteps
