import MnemoKV.EvictionEffects

/-!
# The passes of the admission loop

Without a hook the admission loop of a write is a number of passes, each of
which deletes the sampled victims other than the written key.  The loop ends
early when the write fits or a pass finds nothing to delete.  The write is let
through exactly if it fits after all passes but the last: the loop does not look
again after its last pass.
-/

namespace MnemoKV
namespace Engine

/-- Deletes the victims one after the other. -/
def evict (victims : List Candidate) (engine : Engine) : Engine :=
  engine.withStore (victims.foldl
    (fun store victim => (store.deleteWithSize victim.key).2) engine.store)

section Passes

variable (clock : WriteClock) (choices : Nat → Choices) (plan : AdmissionPlan)

/-- The keys that a pass deletes. -/
def passVictims (pass : Nat) (engine : Engine) : List Candidate :=
  (engine.store.pickVictims engine.policy (choices pass) (clock.sample pass)
    (plan.requiredGrowth - engine.available) plan.key).filter
      fun victim => victim.key ≠ plan.key

/-- The engine after at most `rounds` passes, numbered downwards from `pass`.
A pass is made while the write does not fit and there is something to delete. -/
def afterPasses : Nat → Nat → Engine → Engine
  | 0, _, engine => engine
  | rounds + 1, pass, engine =>
      if plan.requiredGrowth ≤ engine.available ∨
          engine.passVictims clock choices plan pass = [] then engine
      else afterPasses rounds (pass - 1)
        (engine.evict (engine.passVictims clock choices plan pass))

end Passes

variable (clock : WriteClock) (choices : Nat → Choices) (plan : AdmissionPlan)

/-- No pass removes the written key or changes what it keeps. -/
theorem afterPasses_spared (rounds pass : Nat) (engine : Engine) :
    Spared plan.key engine.store.dataset
      (afterPasses clock choices plan rounds pass engine).store.dataset := by
  have evicted : ∀ (victims : List Candidate) (store : Store),
      (∀ victim ∈ victims, victim.key ≠ plan.key) →
      Spared plan.key store.dataset (victims.foldl
        (fun store victim => (store.deleteWithSize victim.key).2)
          store).dataset := by
    intro victims
    induction victims with
    | nil => exact fun _ _ => .refl _
    | cons victim rest induction =>
        intro store others
        obtain ⟨other, others⟩ := List.forall_mem_cons.mp others
        refine Spared.trans ?_ (induction _ others)
        rw [(store.dataset_deleteWithSize victim.key).1]
        exact .remove other _
  induction rounds generalizing pass engine with
  | zero => exact .refl _
  | succ rounds induction =>
      unfold afterPasses
      split_ifs
      · exact .refl _
      · refine Spared.trans (evicted _ _ fun victim member => ?_)
          (induction _ _)
        have kept := (List.mem_filter.mp member).2
        simpa using kept

end Engine
end MnemoKV
