import MnemoKV.WriteAdmission

/-!
# A proof rule for the write path

Reasoning about a write with a synchronous hook reduces to four obligations:
the invariant survives the eviction of one stored key, whatever the hook
answers; it covers a rejection; and the final hook call with the mutation
reaches the postcondition.  The rule is stated over an arbitrary hook state.
-/

namespace MnemoKV
namespace Engine

variable {σ : Type}

/-- The planned write may have to evict. -/
structure MayEvict (engine : Engine) (plan : AdmissionPlan) : Prop where
  limited : 0 < engine.limitBytes
  evicting : engine.policy ≠ .noEviction
  growing : 0 < plan.requiredGrowth

/-- What an invariant of the write path has to satisfy around evictions.
`Failed` describes the states left by a hook error. -/
structure EvictionRule (hook : WriteHook σ) (planKey : Bytes)
    (Invariant Failed : Store → σ → Prop) (Evictable : Bytes → Prop) :
    Prop where
  stored : ∀ store state key entry, Invariant store state →
    store.find key = some entry → Evictable key
  evicted : ∀ store state next key, Invariant store state → Evictable key →
    key ≠ planKey → hook.run (evictionDeleteCommand key) state = (.ok (), next) →
    Invariant (store.deleteWithSize key).2 next
  refused : ∀ store state next key text, Invariant store state →
    Evictable key → key ≠ planKey →
    hook.run (evictionDeleteCommand key) state = (.error text, next) →
    Failed store next

variable {hook : WriteHook σ} {planKey : Bytes}
  {Invariant Failed : Store → σ → Prop} {Evictable : Bytes → Prop}

section

variable (synchronous : hook.synchronous = true)

include synchronous

theorem evictVictims_rule
    (rule : EvictionRule hook planKey Invariant Failed Evictable)
    (victims : List Candidate) (progress : Bool) (store : Store) (state : σ)
    (evictable : ∀ victim ∈ victims, Evictable victim.key)
    (holds : Invariant store state) :
    match evictVictims (some hook) planKey victims progress store state with
    | (.ok _, store, state) => Invariant store state
    | (.error frame, store, state) =>
        (∃ text, frame = replicationFailed text) ∧ Failed store state := by
  induction victims generalizing progress store state with
  | nil => exact holds
  | cons victim rest induction =>
      have restEvictable : ∀ other ∈ rest, Evictable other.key :=
        fun other member => evictable other (List.mem_cons_of_mem _ member)
      have headEvictable := evictable victim List.mem_cons_self
      unfold evictVictims
      by_cases protectedKey : victim.key = planKey
      · rw [if_pos protectedKey]
        exact induction progress store state restEvictable holds
      · rw [if_neg protectedKey]
        simp only [WriteHook.before, WriteHook.after, synchronous, if_true]
        rcases answer : hook.run (evictionDeleteCommand victim.key) state with
          ⟨_ | _, next⟩
        · exact ⟨⟨_, rfl⟩, rule.refused store state next victim.key _ holds
            headEvictable protectedKey answer⟩
        · have kept := rule.evicted store state next victim.key holds
            headEvictable protectedKey answer
          rcases removed : store.deleteWithSize victim.key with ⟨_ | freed, after⟩
          · rw [removed] at kept
            exact induction progress after next restEvictable kept
          · rw [removed] at kept
            exact induction true after next restEvictable kept

/-- Eviction passes keep the invariant; a rejection is out of memory or a hook
error. -/
theorem freeForAdmission_rule {plan : AdmissionPlan}
    (engine : Engine)
    (rule : engine.policy ≠ .noEviction →
      EvictionRule hook plan.key Invariant Failed Evictable)
    (clock : WriteClock) (choices : Nat → Choices) (passes : Nat) (state : σ)
    (holds : Invariant engine.store state) :
    ∃ store next,
      (freeForAdmission (some hook) clock choices plan passes engine state).2 =
        (engine.withStore store, next) ∧
      match (freeForAdmission (some hook) clock choices plan passes engine
        state).1 with
      | none => Invariant store next
      | some frame => (frame = oomFrame ∧ Invariant store next) ∨
          (∃ text, frame = replicationFailed text) ∧ Failed store next := by
  induction passes generalizing engine state with
  | zero => exact ⟨engine.store, state, rfl, .inl ⟨rfl, holds⟩⟩
  | succ passes induction =>
      unfold freeForAdmission
      split_ifs with enough never
      · exact ⟨engine.store, state, rfl, holds⟩
      · exact ⟨engine.store, state, rfl, .inl ⟨rfl, holds⟩⟩
      · dsimp only
        generalize chosen : engine.store.pickVictims engine.policy
          (choices passes) (clock.sample passes)
          (plan.requiredGrowth - engine.available) plan.key = victims
        split_ifs with none
        · exact ⟨engine.store, state, rfl, .inl ⟨rfl, holds⟩⟩
        · have evictable : ∀ victim ∈ victims, Evictable victim.key := by
            intro victim member
            obtain ⟨entry, found⟩ :=
              Store.mem_pickVictims (chosen.symm ▸ member)
            exact (rule never).stored _ _ _ entry holds found
          have pass := evictVictims_rule synchronous (rule never) victims false engine.store state
            evictable holds
          generalize evictVictims (some hook) plan.key victims false
            engine.store state = result at pass ⊢
          rcases result with ⟨_ | progress, store, next⟩
          · exact ⟨store, next, rfl, .inr pass⟩
          · cases progress with
            | false => exact ⟨store, next, rfl, .inl ⟨rfl, pass⟩⟩
            | true => exact induction (engine.withStore store) rule next pass

theorem ensureRoom_rule {plan : AdmissionPlan}
    (engine : Engine)
    (rule : engine.MayEvict plan →
      EvictionRule hook plan.key Invariant Failed Evictable)
    (clock : WriteClock) (choices : Nat → Choices) (state : σ)
    (holds : Invariant engine.store state) :
    ∃ store next,
      (ensureRoom (some hook) clock choices plan engine state).2 =
        (engine.withStore store, next) ∧
      match (ensureRoom (some hook) clock choices plan engine state).1 with
      | none => Invariant store next
      | some frame => (frame = oomFrame ∧ Invariant store next) ∨
          (∃ text, frame = replicationFailed text) ∧ Failed store next := by
  unfold ensureRoom
  split_ifs with growing tooLarge
  · exact ⟨engine.store, state, rfl, .inl ⟨rfl, holds⟩⟩
  · simp only [hasLimit, Bool.and_eq_true, decide_eq_true_eq] at growing
    exact freeForAdmission_rule synchronous engine
      (fun evicting => rule ⟨growing.1.2, evicting, growing.2⟩) clock choices _
      state holds
  · exact ⟨engine.store, state, rfl, holds⟩

theorem executeWithAdmission_rule [FloatText] {clock : WriteClock}
    {choices : Nat → Choices} {cmd : Command} {engine : Engine} {state : σ}
    {plan : AdmissionPlan} {planned : Store}
    {Post : Frame → Store → σ → Prop}
    (planning : engine.store.planAdmission clock.plan cmd = (plan, planned))
    (rule : engine.MayEvict plan →
      EvictionRule hook plan.key Invariant Failed Evictable)
    (start : plan.response = none → Invariant planned state)
    (responded : ∀ frame, plan.response = some frame → Post frame planned state)
    (rejected : ∀ store state, Invariant store state →
      Post oomFrame store state)
    (failed : ∀ store state text, Failed store state →
      Post (replicationFailed text) store state)
    (vetoed : ∀ store state next text, Invariant store state →
      hook.run cmd state = (.error text, next) → Failed store next)
    (written : ∀ store state next, Invariant store state →
      hook.run cmd state = (.ok (), next) →
      Post (Executor.execute clock.exec cmd store).1
        (Executor.execute clock.exec cmd store).2 next) :
    ∃ frame store next,
      executeWithAdmission (some hook) clock choices cmd engine state =
        (frame, engine.withStore store, next) ∧ Post frame store next := by
  unfold executeWithAdmission
  rw [planning]
  cases response : plan.response with
  | some frame =>
      exact ⟨frame, planned, state, by simp [response], responded frame response⟩
  | none =>
      obtain ⟨store, next, left, outcome⟩ := ensureRoom_rule synchronous
        (engine.withStore planned)
        (fun may => rule ⟨may.limited, may.evicting, may.growing⟩) clock choices
        state (start response)
      simp only [response]
      generalize ensureRoom (some hook) clock choices plan (engine.withStore planned)
        state = admitted at left outcome ⊢
      rcases admitted with ⟨_ | frame, admitted⟩
      · obtain rfl : admitted = _ := left
        have holds : Invariant store next := outcome
        simp only [commit, WriteHook.before, WriteHook.after, synchronous,
          if_true, ite_self]
        rcases answer : hook.run cmd next with ⟨_ | _, after⟩
        · exact ⟨_, store, after, rfl,
            failed _ _ _ (vetoed store next after _ holds answer)⟩
        · exact ⟨_, _, after, rfl, written store next after holds answer⟩
      · obtain rfl : admitted = _ := left
        refine ⟨frame, store, next, rfl, ?_⟩
        rcases outcome with ⟨rfl, holds⟩ | ⟨⟨text, rfl⟩, broken⟩
        · exact rejected store next holds
        · exact failed store next text broken

theorem executeWithAdmission_keeps [FloatText] {Kept : σ → Prop}
    (runs : ∀ cmd state result next, Kept state →
      hook.run cmd state = (result, next) → Kept next)
    (clock : WriteClock) (choices : Nat → Choices) (cmd : Command)
    (engine : Engine) {state : σ} (start : Kept state) :
    ∃ frame store next,
      executeWithAdmission (some hook) clock choices cmd engine state =
        (frame, engine.withStore store, next) ∧ Kept next := by
  have rule : engine.MayEvict (engine.store.planAdmission clock.plan cmd).1 →
      EvictionRule hook (engine.store.planAdmission clock.plan cmd).1.key
        (fun _ state => Kept state) (fun _ state => Kept state)
        (fun _ => True) :=
    fun _ => ⟨fun _ _ _ _ _ _ => trivial,
      fun _ state next _ kept _ _ answered => runs _ state _ next kept answered,
      fun _ state next _ _ kept _ _ answered =>
        runs _ state _ next kept answered⟩
  exact executeWithAdmission_rule synchronous rfl rule (fun _ => start)
    (fun _ _ => start) (fun _ _ kept => kept) (fun _ _ _ kept => kept)
    (fun _ state next _ kept answered => runs _ state _ next kept answered)
    (fun _ state next kept answered => runs _ state _ next kept answered)

end

end Engine
end MnemoKV
