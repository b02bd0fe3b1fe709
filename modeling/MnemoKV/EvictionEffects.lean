import MnemoKV.PlanningLaws

/-!
# What admission leaves of a dataset

Making room removes keys and changes nothing else, and it never removes the key
that is going to be written.  When it reports room, there is room.  This holds
with every hook, whatever the hook answers.
-/

namespace MnemoKV

/-- Keys other than `planKey` may be gone; everything else is as before. -/
def Spared (planKey : Bytes) (before after : Dataset) : Prop :=
  ∀ key, after key = before key ∨ key ≠ planKey ∧ after key = none

namespace Spared

variable {planKey : Bytes} {first second third : Dataset}

theorem refl (dataset : Dataset) : Spared planKey dataset dataset :=
  fun _ => .inl rfl

theorem trans (earlier : Spared planKey first second)
    (later : Spared planKey second third) : Spared planKey first third := by
  intro key
  rcases later key with same | gone
  · rw [same]
    exact earlier key
  · exact .inr gone

theorem remove {key : Bytes} (other : key ≠ planKey) (dataset : Dataset) :
    Spared planKey dataset (Function.update dataset key none) := by
  intro probe
  by_cases same : probe = key
  · subst same
    exact .inr ⟨other, Function.update_self ..⟩
  · exact .inl (Function.update_of_ne same _ _)

theorem planned (spared : Spared planKey first second) :
    second planKey = first planKey :=
  (spared planKey).resolve_right fun gone => gone.1 rfl

end Spared

namespace Engine

theorem Evicts.spared {planKey : Bytes} {before after : Store}
    (evicts : Evicts planKey before after) :
    Spared planKey before.dataset after.dataset := by
  refine evicts.related (fun first second => Spared planKey first.dataset second.dataset)
    (fun _ => .refl _) .trans fun store key other => ?_
  rw [(store.dataset_deleteWithSize key).1]
  exact .remove other _

end Engine
end MnemoKV
