import MnemoKV.DatasetGrowth
import MnemoKV.EngineRuns

/-!
# Plans agree with execution

`planAdmission` parses, checks and sizes a write once, `Execute` once more.  While the
clock stands still, both come to the same verdict: what the plan answers is what the
execution answers, and a planned write succeeds, leaves its entry at the planned size
and makes the counter grow by what was planned.
-/

namespace MnemoKV

namespace Store

/-- The exact sizes of all entries add up to less than `2 ^ 64`. -/
def SizesFit (store : Store) : Prop :=
  (store.allEntries.map fun entry => entry.value.exactSize entry.key).sum < 2 ^ 64

namespace SizesFit

variable {store : Store}

theorem entry (fits : store.SizesFit) {entry : Entry} (member : entry ∈ store.allEntries) :
    entry.sizeBytes = entry.value.exactSize entry.key ∧ entry.sizeBytes < 2 ^ 64 := by
  have below : entry.value.exactSize entry.key < 2 ^ 64 :=
    (List.le_sum_of_mem (List.mem_map_of_mem member)).trans_lt fits
  have same : entry.sizeBytes = entry.value.exactSize entry.key := by
    rw [entry.sized, Value.size_eq_exactSize below]
  exact ⟨same, same ▸ below⟩

theorem exact (fits : store.SizesFit) : ExactDataset store.dataset := by
  intro key item stored
  obtain ⟨entry, found, rfl⟩ := Option.map_eq_some_iff.mp stored
  obtain rfl := key_of_find found
  exact fits.entry (mem_allEntries.mpr found)

theorem totalBytes (fits : store.SizesFit) : store.totalBytes < 2 ^ 64 := by
  have same : store.allEntries.map Entry.sizeBytes =
      store.allEntries.map fun entry => entry.value.exactSize entry.key :=
    List.map_congr_left fun entry member => (fits.entry member).1
  rw [Store.totalBytes, same]
  exact fits

end SizesFit

/-- What is left by the expiry check passes it. -/
theorem expire_expire (store : Store) (now : Int) (key : Bytes) :
    (store.expire now key).expire now key = store.expire now key :=
  expire_of_unexpired fun _ => unexpired_of_find_expire

theorem planFrom_eq (store : Store) (now : Int) (key : Bytes)
    (planOf : Option Item → AdmissionPlan) :
    store.planFrom now key planOf =
      (planOf (((store.expire now key).find key).map Entry.item), store.expire now key) := by
  unfold planFrom get
  cases found : (store.expire now key).find key with
  | none => simp only [found, Option.map_none]
  | some entry => simp [found]

end Store

/-! ### Planned and written sizes -/

namespace AdmissionPlan

/-- What a planned write does to its key: it succeeds and leaves an item of the
planned size. -/
structure CarriedOut (plan : AdmissionPlan) (key : Bytes) (stored : Option Item)
    (outcome : Frame × Option Item) : Prop where
  key : plan.key = key
  balanced : plan.Balanced stored
  succeeds : outcome.1.isError = false
  leaves : ∃ item, outcome.2 = some item ∧ item.sizeBytes = plan.resultingSize

variable {key : Bytes} {stored : Option Item}

theorem forSet_leaves {data : Bytes} {options : SetOptions}
    (writes : (forSet key data options stored).response = none) :
    ∃ item, (Effect.set key data options stored).2 = some item ∧
      item.sizeBytes = (forSet key data options stored).resultingSize := by
  have done : Effect.set key data options stored =
      (.ok, some (.create key (.string data) options.expiresAtNs)) := by
    unfold forSet at writes
    cases stored with
    | none =>
        have free : ¬ options.condition = .ifPresent := by
          intro condition
          simp [condition, respond] at writes
        exact if_neg free
    | some item =>
        have free : ¬ options.condition = .ifMissing := by
          intro condition
          simp [condition, respond] at writes
        exact if_neg free
  rw [forSet_write writes, done]
  exact ⟨_, rfl, rfl⟩

theorem forIncr_leaves (writes : (forIncr key stored).response = none) :
    ∃ item, (Effect.incr key stored).2 = some item ∧
      item.sizeBytes = (forIncr key stored).resultingSize := by
  obtain ⟨current, starts, below, planned⟩ := forIncr_write writes
  rw [planned]
  rcases starts with ⟨rfl, rfl⟩ | ⟨item, data, rfl, string, parsed⟩
  · exact ⟨_, rfl, rfl⟩
  · have smaller : ¬ current > maxInt64 - 1 := by
      have inside := parseInt64_range parsed
      omega
    simp only [Effect.incr, string, parsed, if_neg smaller]
    exact ⟨_, rfl, rfl⟩

theorem forPush_leaves {left : Bool} {values : List Bytes}
    (exact : ∀ item, stored = some item → item.Exact key)
    (exact' : ∀ item, (Effect.push left key values stored).2 = some item → item.Exact key)
    (writes : (forPush key values stored).response = none) :
    ∃ item, (Effect.push left key values stored).2 = some item ∧
      item.sizeBytes = (forPush key values stored).resultingSize := by
  rcases forPush_write writes with ⟨rfl, planned⟩ | ⟨item, items, rfl, list, planned⟩
  · obtain ⟨size, fits⟩ := exact' _ rfl
    have grown : (Item.create key (.list (pushItems left values [])) 0).sizeBytes =
        64 + key.length + itemBytes values :=
      size.trans (Value.exactSize_pushItems key left values [])
    rw [planned]
    exact ⟨_, rfl,
      grown.trans (saturatingAdd_of_lt (pushedListBytes_eq_min values) (grown ▸ fits)).symm⟩
  · have done : Effect.push left key values (some item) =
        (.integer (pushItems left values items).length,
          some (item.withValue key (.list (pushItems left values items)))) := by
      simp only [Effect.push, list]
    rw [done] at exact' ⊢
    obtain ⟨size, fits⟩ := exact' _ rfl
    obtain ⟨oldSize, -⟩ := exact item rfl
    have old : item.sizeBytes = 64 + key.length + itemBytes items := by
      rw [oldSize, list]
      rfl
    have grown : (item.withValue key (.list (pushItems left values items))).sizeBytes =
        item.sizeBytes + itemBytes values := by
      rw [old]
      exact size.trans (Value.exactSize_pushItems key left values items)
    rw [planned]
    exact ⟨_, rfl,
      grown.trans (saturatingAdd_of_lt (pushedListBytes_eq_min values) (grown ▸ fits)).symm⟩

theorem forZAdd_leaves {pairs : List (Number × Bytes)}
    (exact : ∀ item, stored = some item → item.Exact key)
    (exact' : ∀ item, (Effect.zadd key pairs stored).2 = some item → item.Exact key)
    (writes : (forZAdd key pairs stored).response = none) :
    ∃ item, (Effect.zadd key pairs stored).2 = some item ∧
      item.sizeBytes = (forZAdd key pairs stored).resultingSize := by
  rcases forZAdd_write writes with ⟨rfl, planned⟩ | ⟨item, members, rfl, zset, planned⟩
  · obtain ⟨size, fits⟩ := exact' _ rfl
    have grown : (Item.create key (.zset (ZSetValue.empty.addAll pairs).2) 0).sizeBytes =
        80 + key.length + freshMemberBytes (fun _ => false) [] pairs :=
      size.trans (Value.exactSize_empty_addAll key pairs)
    rw [planned]
    exact ⟨_, rfl,
      grown.trans (saturatingAdd_of_lt (addedMemberBytes_nil_eq_min _ pairs) (grown ▸ fits)).symm⟩
  · have done : Effect.zadd key pairs (some item) = (.integer (members.addAll pairs).1,
        some (item.withValue key (.zset (members.addAll pairs).2))) := by
      simp only [Effect.zadd, zset]
    rw [done] at exact' ⊢
    obtain ⟨size, fits⟩ := exact' _ rfl
    obtain ⟨oldSize, -⟩ := exact item rfl
    have old : item.sizeBytes = 80 + key.length + members.memberBytes := by
      rw [oldSize, zset]
      rfl
    have grown : (item.withValue key (.zset (members.addAll pairs).2)).sizeBytes =
        item.sizeBytes +
          freshMemberBytes (fun member => (members.score member).isSome) [] pairs := by
      rw [old]
      exact size.trans (Value.exactSize_addAll key members pairs)
    rw [planned]
    exact ⟨_, rfl,
      grown.trans (saturatingAdd_of_lt (addedMemberBytes_nil_eq_min _ pairs) (grown ▸ fits)).symm⟩

theorem carriedOut (request : Growing) (writes : (request.plan key stored).response = none)
    (exact : ∀ item, stored = some item → item.Exact key)
    (exact' : ∀ item, (request.effect key stored).2 = some item → item.Exact key) :
    (request.plan key stored).CarriedOut key stored (request.effect key stored) := by
  have decided := request.decides key stored
  have succeeds := request.succeeds writes
  refine ⟨(decided.named writes).1, decided.balanced writes, ?_, ?_⟩
  · cases request with
    | set data options => exact succeeds options
    | incr | push | zadd => exact succeeds ⟨0, .always⟩
  · cases request with
    | set => exact forSet_leaves writes
    | incr => exact forIncr_leaves writes
    | push => exact forPush_leaves exact exact' writes
    | zadd => exact forZAdd_leaves exact exact' writes

end AdmissionPlan

/-! ### Answers of plans -/

namespace Executor

variable {store : Store} {moment : Int} {key : Bytes} {frame : Frame}

theorem cmdSet_of_response {data : Bytes} {rest : List Bytes} {options : SetOptions}
    (checked : store.expire moment key = store)
    (parsed : parseSetOptions moment rest = .ok options)
    (responds : (AdmissionPlan.forSet key data options
      ((store.find key).map Entry.item)).response = some frame) :
    cmdSet (fun _ => moment) (key :: data :: rest) store = (frame, store) := by
  unfold AdmissionPlan.forSet at responds
  simp only [cmdSet, parsed, Store.setString, checked]
  cases found : store.find key with
  | none =>
      rw [found] at responds
      split_ifs at responds with missing present
      · cases missing.2
      · obtain rfl := Option.some.inj responds
        simp [present.1]
      · cases responds
  | some entry =>
      rw [found] at responds
      split_ifs at responds with missing present
      · obtain rfl := Option.some.inj responds
        simp [missing.1]
      · cases present.2
      · cases responds

theorem cmdIncr_of_response (checked : store.expire moment key = store)
    (responds : (AdmissionPlan.forIncr key
      ((store.find key).map Entry.item)).response = some frame) :
    cmdIncr (fun _ => moment) [key] store = (frame, store) := by
  unfold AdmissionPlan.forIncr at responds
  simp only [cmdIncr, Store.incrementBy, checked]
  cases found : store.find key with
  | none =>
      rw [found] at responds
      cases responds
  | some entry =>
      rw [found] at responds
      simp only [Option.map_some, Entry.item] at responds
      cases value : entry.value with
      | string data =>
          simp only [value] at responds ⊢
          cases parsed : parseInt64 data with
          | none =>
              simp only [parsed] at responds ⊢
              obtain rfl := Option.some.inj responds
              rfl
          | some current =>
              simp only [parsed] at responds ⊢
              split_ifs at responds with largest
              · obtain rfl := Option.some.inj responds
                subst largest
                rfl
              · cases responds
      | list items =>
          simp only [value] at responds ⊢
          obtain rfl := Option.some.inj responds
          rfl
      | zset members =>
          simp only [value] at responds ⊢
          obtain rfl := Option.some.inj responds
          rfl

theorem cmdPush_of_response {left : Bool} {first : Bytes} {rest : List Bytes}
    (checked : store.expire moment key = store)
    (responds : (AdmissionPlan.forPush key (first :: rest)
      ((store.find key).map Entry.item)).response = some frame) :
    cmdPush left (fun _ => moment) (key :: first :: rest) store = (frame, store) := by
  unfold AdmissionPlan.forPush at responds
  simp only [cmdPush, Store.listPush, checked]
  cases found : store.find key with
  | none =>
      rw [found] at responds
      cases responds
  | some entry =>
      rw [found] at responds
      simp only [Option.map_some, Entry.item] at responds
      cases value : entry.value with
      | list items =>
          simp only [value] at responds
          cases responds
      | string data =>
          simp only [value] at responds ⊢
          obtain rfl := Option.some.inj responds
          rfl
      | zset members =>
          simp only [value] at responds ⊢
          obtain rfl := Option.some.inj responds
          rfl

theorem zsetAdd_of_response {pairs : List (Number × Bytes)}
    (checked : store.expire moment key = store)
    (responds : (AdmissionPlan.forZAdd key pairs
      ((store.find key).map Entry.item)).response = some frame) :
    store.zsetAdd moment key pairs = (.error .wrongType, store) ∧ frame = wrongTypeError := by
  unfold AdmissionPlan.forZAdd at responds
  simp only [Store.zsetAdd, checked]
  cases found : store.find key with
  | none =>
      rw [found] at responds
      cases responds
  | some entry =>
      rw [found] at responds
      simp only [Option.map_some, Entry.item] at responds
      cases value : entry.value with
      | zset members =>
          simp only [value] at responds
          cases responds
      | string data =>
          simp only [value] at responds
          exact ⟨by simp only [value], (Option.some.inj responds).symm⟩
      | list items =>
          simp only [value] at responds
          exact ⟨by simp only [value], (Option.some.inj responds).symm⟩

end Executor

/-! ### Plans and executions at one moment -/

/-- How a command is planned and executed while the clock shows one moment: both look
up one key and agree on what they find. -/
structure Prepared [FloatText] (cmd : Command) (moment : Int) (key : Bytes)
    (planOf : Option Item → AdmissionPlan) (effect : Effect) : Prop where
  plans : ∀ store : Store,
    store.planAdmission (fun _ => moment) cmd = store.planFrom moment key planOf
  acts : cmd.action (fun _ => moment) = .onKey key (effect.lookingAt moment)
  answers : ∀ (store : Store) frame, store.expire moment key = store →
    (planOf ((store.find key).map Entry.item)).response = some frame →
    Executor.execute (fun _ => moment) cmd store = (frame, store)
  carriesOut : ∀ stored, (planOf stored).response = none →
    (∀ item, stored = some item → item.Exact key) →
    (∀ item, (effect stored).2 = some item → item.Exact key) →
    (planOf stored).CarriedOut key stored (effect stored)

/-- The command is answered without a look at the store. -/
def Command.Refused [FloatText] (cmd : Command) (moment : Int) (frame : Frame) : Prop :=
  ∀ store : Store, store.planAdmission (fun _ => moment) cmd = (.respond frame, store) ∧
    Executor.execute (fun _ => moment) cmd store = (frame, store)

namespace Command

variable [FloatText] {cmd : Command} (moment : Int)

theorem Asks.answers {key : Bytes} {request : Growing} {frame : Frame} {store : Store}
    (asks : cmd.Asks (fun _ => moment) key request)
    (checked : store.expire moment key = store)
    (responds : (request.plan key ((store.find key).map Entry.item)).response = some frame) :
    Executor.execute (fun _ => moment) cmd store = (frame, store) := by
  unfold Executor.execute
  cases asks with
  | set named given parsed =>
      rw [named, given]
      exact Executor.cmdSet_of_response checked parsed responds
  | incr named given =>
      rw [named, given]
      exact Executor.cmdIncr_of_response checked responds
  | push left named given =>
      rw [named, given]
      cases left <;> exact Executor.cmdPush_of_response checked responds
  | zadd named given arity parsed =>
      obtain ⟨failed, rfl⟩ := Executor.zsetAdd_of_response checked responds
      simp only [named, given, Executor.cmdZAdd, if_neg arity, parsed, failed]

theorem prepared (growing : cmd.isGrowing = true) :
    (∃ frame, cmd.Refused moment frame) ∨
      ∃ key planOf effect, Prepared cmd moment key planOf effect := by
  rcases cmd.planned fun _ => moment with
    ⟨steady, -⟩ | ⟨-, plans, -, executes⟩ | @⟨key, request, asks⟩
  · simp [steady] at growing
  · exact .inl ⟨_, fun store => ⟨plans store, executes store⟩⟩
  · obtain ⟨-, plans, -, acts⟩ := asks.spec
    exact .inr ⟨key, request.plan key, request.effect key, plans, acts,
      fun store frame => asks.answers moment, fun stored => AdmissionPlan.carriedOut request⟩

end Command

/-! ### Reachable stores -/

/-- What an execution does after a plan: it repeats the answer of the plan and changes
nothing, or it succeeds, leaves the key at the planned size and makes the counter grow
by no more than planned, by exactly as much unless the entry shrinks. -/
def AdmissionPlan.AgreesWith (plan : AdmissionPlan) (planned : Store)
    (outcome : Frame × Store) : Prop :=
  match plan.response with
  | some frame => outcome = (frame, planned)
  | none => outcome.1.isError = false ∧
      ∃ entry, outcome.2.find plan.key = some entry ∧
        entry.sizeBytes = plan.resultingSize ∧
        outcome.2.usedBytes ≤ planned.usedBytes + plan.requiredGrowth ∧
        (AdmissionPlan.sizeOf (planned.dataset plan.key) ≤ entry.sizeBytes →
          outcome.2.usedBytes = planned.usedBytes + plan.requiredGrowth)

theorem Prepared.agrees [FloatText] {cmd : Command} {moment : Int} {key : Bytes}
    {planOf : Option Item → AdmissionPlan} {effect : Effect}
    (prepared : Prepared cmd moment key planOf effect) {planned : Store}
    (checked : planned.expire moment key = planned) (accounted : planned.Accounted)
    (fits : planned.SizesFit)
    (fits' : (Executor.execute (fun _ => moment) cmd planned).2.SizesFit) :
    (planOf ((planned.find key).map Entry.item)).AgreesWith planned
      (Executor.execute (fun _ => moment) cmd planned) := by
  have accounted' := (Executor.execute_changes (fun _ => moment) cmd planned).accounted accounted
  have observed := Executor.observe_execute (fun _ => moment) cmd planned
  have answers := prepared.answers planned
  have live : liveAt moment (planned.dataset key) = planned.dataset key := by
    rw [Store.live_eq_find_expire, checked]
    rfl
  rw [prepared.acts] at observed
  simp only [Action.perform, Effect.lookingAt, live] at observed
  change ∀ frame, _ → (planOf (planned.dataset key)).response = some frame → _ at answers
  change (planOf (planned.dataset key)).AgreesWith planned _
  generalize Executor.execute (fun _ => moment) cmd planned = outcome at *
  obtain ⟨reply, updated⟩ := Prod.mk.inj observed
  unfold AdmissionPlan.AgreesWith
  cases response : (planOf (planned.dataset key)).response with
  | some frame => exact answers frame checked response
  | none =>
      have exact' : ∀ item, (effect (planned.dataset key)).2 = some item → item.Exact key := by
        intro item left
        refine fits'.exact key item ?_
        rw [updated, Function.update_self, left]
      have done := prepared.carriesOut _ response (fits.exact key) exact'
      obtain ⟨item, left, size⟩ := done.leaves
      have stored : outcome.2.dataset key = some item := by
        rw [updated, Function.update_self, left]
      obtain ⟨entry, found, rfl⟩ := Option.map_eq_some_iff.mp stored
      have balance := Store.totalBytes_update updated
      have used := accounted.exact fits.totalBytes
      have used' := accounted'.exact fits'.totalBytes
      have balanced : max _ _ = _ := done.balanced
      rw [left] at balance
      change _ = _ + entry.sizeBytes at balance
      change entry.sizeBytes = _ at size
      refine ⟨reply ▸ done.succeeds, entry, ?_, size, ?_, ?_⟩
      · rw [done.key]
        exact found
      · omega
      · rw [done.key]
        omega

/-- At a clock that stands still, planning and executing a write agree in every store
that a run reaches, as long as the sizes stay below `2 ^ 64`. -/
theorem Engine.planning_agrees_with_execution [FloatText] {σ : Type} (config : EngineConfig)
    (state : σ) (calls : List (EngineCall σ)) (moment : Int) (cmd : Command)
    (growing : cmd.isGrowing = true) :
    let store :=
      (LabelledRuns.run EngineCall.step (Engine.new config, state) calls).1.store
    let planned := (store.planAdmission (fun _ => moment) cmd).2
    let outcome := Executor.execute (fun _ => moment) cmd planned
    planned.SizesFit → outcome.2.SizesFit →
      (store.planAdmission (fun _ => moment) cmd).1.AgreesWith planned outcome := by
  intro store planned outcome fits fits'
  have reached := (EngineCall.run_changes (Engine.new config, state) calls).accounted
    (Store.accounted_new config.stripeCount)
  have accounted : planned.Accounted :=
    (store.planAdmission_changes (fun _ => moment) cmd).accounted reached
  rcases Command.prepared moment growing with ⟨frame, refused⟩ | ⟨key, planOf, effect, prepared⟩
  · have planning := (refused store).1
    have same : planned = store := congrArg Prod.snd planning
    rw [planning]
    exact same ▸ (refused planned).2
  · have planning := (prepared.plans store).trans (store.planFrom_eq moment key planOf)
    have same : planned = store.expire moment key := congrArg Prod.snd planning
    have checked : planned.expire moment key = planned := by
      rw [same, Store.expire_expire]
    rw [planning]
    exact same ▸ prepared.agrees checked accounted fits fits'

section Examples

attribute [local instance] FloatText.rejecting

/-- A push after a push, at one moment. -/
theorem second_push_is_carried_out_as_planned :
    let store := (LabelledRuns.run EngineCall.step
      (Engine.new { stripeCount := 1, memoryLimitBytes := 0, evictionPolicy := "lru" }, ())
      [.execute none (.still 7) (fun _ => .canonical) (.make .lpush [[97], [1, 2]])]).1.store
    let planned := (store.planAdmission (fun _ => 7) (.make .rpush [[97], [3]])).2
    (store.planAdmission (fun _ => 7) (.make .rpush [[97], [3]])).1.AgreesWith planned
      (Executor.execute (fun _ => 7) (.make .rpush [[97], [3]]) planned) :=
  Engine.planning_agrees_with_execution _ () _ 7 (.make .rpush [[97], [3]]) rfl
    (by unfold Store.SizesFit; decide +kernel) (by unfold Store.SizesFit; decide +kernel)

end Examples
end MnemoKV
