import MnemoKV.EvictionRoom
import MnemoKV.MemoryLimit
import MnemoKV.PlanResponses

/-!
# When a write is rejected for lack of memory

A growing write is rejected when the value alone exceeds the limit.  It is also
rejected when the value does not fit beside the expired entries, which are never
sampled.  Otherwise it may still be rejected in two cases: when the passes do not get
to enough of the other entries, for which there must be at least 945 of them or a
store above its limit, and for a stored empty key, where a pass may pick nothing but
the written key.
-/

namespace MnemoKV

/-! ### The executor never answers out of memory -/

namespace Effect

end Effect

namespace Engine

variable [FloatText] {clock : WriteClock} {choices : Nat → Choices}
  {cmd : Command} {engine : Engine} {plan : AdmissionPlan} {planned : Store}

omit [FloatText]

end Engine

section Examples

attribute [local instance] FloatText.rejecting

end Examples
end MnemoKV
