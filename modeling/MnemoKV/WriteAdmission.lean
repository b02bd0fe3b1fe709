import MnemoKV.ExecutorRefinement
import MnemoKV.EvictionPolicies

/-!
# The admission-controlled write path

`Engine.Execute` with planning, eviction, the write hook and execution, in the
order of `executeWithAdmission`.  The hook threads a state of its own, which a
cluster node instantiates with its replication state; metrics are left out.
-/

namespace MnemoKV

/-- What a write will do: the growth it needs, or the answer it gives at once. -/
structure AdmissionPlan where
  key : Bytes
  willWrite : Bool
  requiredGrowth : Nat
  resultingSize : Nat
  response : Option Frame

/-- A store under a memory limit. -/
structure Engine where
  store : Store
  limitBytes : Nat
  policy : Policy

/-- A hook may fail with the text of its error.  A synchronous hook runs
before the mutation and can veto it; another one runs afterwards. -/
structure WriteHook (σ : Type) where
  run : Command → σ → Except String Unit × σ
  synchronous : Bool

/-- The clock readings of one write: while planning, at each sampling pass and
while executing. -/
structure WriteClock where
  plan : Readings
  sample : Nat → Int
  exec : Readings

/-- A clock that stands still. -/
def WriteClock.still (moment : Int) : WriteClock :=
  { plan := fun _ => moment, sample := fun _ => moment
    exec := fun _ => moment }

def oomFrame : Frame :=
  .newError "OOM" "command not allowed when used memory would exceed maxmemory"

def replicationFailed (text : String) : Frame :=
  .error (Bytes.ascii "ERR") (Bytes.ascii ("replication failed: " ++ text))

def positiveDelta (oldSize newSize : Nat) : Nat :=
  if newSize ≤ oldSize then 0 else newSize - oldSize

def saturatingAdd (first second : Nat) : Nat :=
  if maxUint64 - first < second then maxUint64 else first + second

def pushedListBytes (values : List Bytes) : Nat :=
  values.foldl (fun size value => saturatingAdd size (48 + value.length)) 0

/-- Sizes of the members that a `ZADD` adds, each counted once. -/
def addedMemberBytes (present : Bytes → Bool) :
    List Bytes → List (Number × Bytes) → Nat → Nat
  | _, [], added => added
  | seen, pair :: rest, added =>
      if pair.2 ∈ seen ∨ present pair.2 = true then
        addedMemberBytes present seen rest added
      else addedMemberBytes present (pair.2 :: seen) rest
        (saturatingAdd added (64 + pair.2.length))

namespace AdmissionPlan

/-- A write that is answered without a mutation. -/
def respond (frame : Frame) : AdmissionPlan :=
  { key := [], willWrite := false, requiredGrowth := 0, resultingSize := 0
    response := some frame }

/-- A write with its growth. -/
def write (key : Bytes) (oldSize newSize : Nat) : AdmissionPlan :=
  { key := key, willWrite := true
    requiredGrowth := positiveDelta oldSize newSize
    resultingSize := newSize, response := none }

/-- The plan of a command without admission arithmetic of its own. -/
def other (cmd : Command) : AdmissionPlan :=
  { key := [], willWrite := cmd.isWriteCommand, requiredGrowth := 0
    resultingSize := 0, response := none }

def sizeOf : Option Item → Nat
  | some item => item.sizeBytes
  | none => 0

def forSet (key data : Bytes) (options : SetOptions) (stored : Option Item) :
    AdmissionPlan :=
  if options.condition = .ifMissing ∧ stored.isSome = true then
    respond .nullBulk
  else if options.condition = .ifPresent ∧ stored.isSome = false then
    respond .nullBulk
  else write key (sizeOf stored) (stringEntrySize key data)

def forIncr (key : Bytes) (stored : Option Item) : AdmissionPlan :=
  match stored with
  | some item =>
      match item.value with
      | .string data =>
          match parseInt64 data with
          | none => respond notIntegerError
          | some current =>
              if current = maxInt64 then respond overflowError
              else write key item.sizeBytes
                (stringEntrySize key (formatInt64 (current + 1)))
      | _ => respond wrongTypeError
  | none => write key 0 (stringEntrySize key (formatInt64 (0 + 1)))

def forPush (key : Bytes) (values : List Bytes) (stored : Option Item) :
    AdmissionPlan :=
  match stored with
  | some item =>
      match item.value with
      | .list _ => write key item.sizeBytes
          (saturatingAdd item.sizeBytes (pushedListBytes values))
      | _ => respond wrongTypeError
  | none => write key 0
      (saturatingAdd (64 + key.length) (pushedListBytes values))

def forZAdd (key : Bytes) (pairs : List (Number × Bytes))
    (stored : Option Item) : AdmissionPlan :=
  match stored with
  | some item =>
      match item.value with
      | .zset members =>
          write key item.sizeBytes (saturatingAdd item.sizeBytes
            (addedMemberBytes (fun member => (members.score member).isSome) []
              pairs 0))
      | _ => respond wrongTypeError
  | none => write key 0 (saturatingAdd (80 + key.length)
      (addedMemberBytes (fun _ => false) [] pairs 0))

end AdmissionPlan

namespace Store

/-- A plan from what `Peek` returns. -/
def planFrom (store : Store) (now : Int) (key : Bytes)
    (plan : Option Item → AdmissionPlan) : AdmissionPlan × Store :=
  let (found, store) := store.get now key false
  (plan (found.map Entry.item), store)

def planSet (store : Store) (now : Readings) (args : List Bytes) :
    AdmissionPlan × Store :=
  match args with
  | key :: data :: rest =>
      match parseSetOptions (now 0) rest with
      | .error frame => (.respond frame, store)
      | .ok options => store.planFrom (now 1) key (.forSet key data options)
  | _ => (.respond (wrongArgs "set"), store)

def planIncr (store : Store) (now : Readings) (args : List Bytes) :
    AdmissionPlan × Store :=
  match args with
  | [key] => store.planFrom (now 0) key (.forIncr key)
  | _ => (.respond (wrongArgs "incr"), store)

def planListPush (store : Store) (name : String) (now : Readings)
    (args : List Bytes) : AdmissionPlan × Store :=
  match args with
  | key :: first :: rest =>
      store.planFrom (now 0) key (.forPush key (first :: rest))
  | _ => (.respond (wrongArgs name), store)

def planZAdd [FloatText] (store : Store) (now : Readings) (args : List Bytes) :
    AdmissionPlan × Store :=
  match args with
  | key :: pairs =>
      if pairs.length < 2 ∨ pairs.length % 2 ≠ 0 then
        (.respond (wrongArgs "zadd"), store)
      else
        match parseZAddPairs pairs with
        | .error frame => (.respond frame, store)
        | .ok parsed => store.planFrom (now 0) key (.forZAdd key parsed)
  | [] => (.respond (wrongArgs "zadd"), store)

def planAdmission [FloatText] (store : Store) (now : Readings)
    (cmd : Command) : AdmissionPlan × Store :=
  match cmd.verb with
  | some .set => store.planSet now cmd.args
  | some .incr => store.planIncr now cmd.args
  | some .lpush => store.planListPush "lpush" now cmd.args
  | some .rpush => store.planListPush "rpush" now cmd.args
  | some .zadd => store.planZAdd now cmd.args
  | _ => (.other cmd, store)

end Store

namespace WriteHook

variable {σ : Type}

/-- A synchronous hook before the mutation. -/
def before (hook : Option (WriteHook σ)) (cmd : Command) (state : σ) :
    Except String Unit × σ :=
  match hook with
  | some hook => if hook.synchronous then hook.run cmd state else (.ok (), state)
  | none => (.ok (), state)

/-- Any other hook after it; its error is dropped. -/
def after (hook : Option (WriteHook σ)) (cmd : Command) (state : σ) : σ :=
  match hook with
  | some hook => if hook.synchronous then state else (hook.run cmd state).2
  | none => state

end WriteHook

namespace Engine

variable {σ : Type}

def hasLimit (engine : Engine) : Bool := decide (0 < engine.limitBytes)

/-- The bytes that are left under the limit. -/
def available (engine : Engine) : Nat :=
  if engine.limitBytes = 0 then maxUint64
  else if engine.store.usedBytes ≥ engine.limitBytes then 0
  else engine.limitBytes - engine.store.usedBytes

def withStore (engine : Engine) (store : Store) : Engine :=
  { engine with store := store }

def evictionDeleteCommand (key : Bytes) : Command :=
  .make .del [key]

/-- The victims of one pass, in order; an error of the hook ends the write. -/
def evictVictims (hook : Option (WriteHook σ)) (planKey : Bytes) :
    List Candidate → Bool → Store → σ → Except Frame Bool × Store × σ
  | [], progress, store, state => (.ok progress, store, state)
  | victim :: rest, progress, store, state =>
      if victim.key = planKey then
        evictVictims hook planKey rest progress store state
      else
        match WriteHook.before hook (evictionDeleteCommand victim.key) state with
        | (.error text, state) => (.error (replicationFailed text), store, state)
        | (.ok (), state) =>
            match store.deleteWithSize victim.key with
            | (none, store) =>
                evictVictims hook planKey rest progress store state
            | (some _, store) =>
                evictVictims hook planKey rest true store
                  (WriteHook.after hook (evictionDeleteCommand victim.key) state)

/-- `passes` counts down from `maxEvictionPasses`; the result is the rejecting
frame, if any. -/
def freeForAdmission (hook : Option (WriteHook σ)) (clock : WriteClock)
    (choices : Nat → Choices) (plan : AdmissionPlan) :
    Nat → Engine → σ → Option Frame × Engine × σ
  | 0, engine, state => (some oomFrame, engine, state)
  | passes + 1, engine, state =>
      if engine.available ≥ plan.requiredGrowth then (none, engine, state)
      else if engine.policy = .noEviction then (some oomFrame, engine, state)
      else
        let victims := engine.store.pickVictims engine.policy (choices passes)
          (clock.sample passes) (plan.requiredGrowth - engine.available) plan.key
        if victims = [] then (some oomFrame, engine, state)
        else
          match evictVictims hook plan.key victims false engine.store state with
          | (.error frame, store, state) =>
              (some frame, engine.withStore store, state)
          | (.ok progress, store, state) =>
              if progress then
                freeForAdmission hook clock choices plan passes
                  (engine.withStore store) state
              else (some oomFrame, engine.withStore store, state)

def maxEvictionPasses : Nat := 64

/-- The admission check of a planned write: a rejecting frame, or room. -/
def ensureRoom (hook : Option (WriteHook σ)) (clock : WriteClock)
    (choices : Nat → Choices) (plan : AdmissionPlan) (engine : Engine)
    (state : σ) : Option Frame × Engine × σ :=
  if plan.willWrite && engine.hasLimit && decide (0 < plan.requiredGrowth) then
    if plan.resultingSize > engine.limitBytes then (some oomFrame, engine, state)
    else freeForAdmission hook clock choices plan maxEvictionPasses engine state
  else (none, engine, state)

/-- The hook and the mutation, once there is room. -/
def commit [FloatText] (hook : Option (WriteHook σ)) (now : Readings)
    (cmd : Command) (engine : Engine) (state : σ) : Frame × Engine × σ :=
  match WriteHook.before hook cmd state with
  | (.error text, state) => (replicationFailed text, engine, state)
  | (.ok (), state) =>
      let (frame, store) := Executor.execute now cmd engine.store
      (frame, engine.withStore store,
        if frame.isError then state else WriteHook.after hook cmd state)

/-- Plan, room, and then the hook and the mutation. -/
def executeWithAdmission [FloatText] (hook : Option (WriteHook σ))
    (clock : WriteClock) (choices : Nat → Choices) (cmd : Command)
    (engine : Engine) (state : σ) : Frame × Engine × σ :=
  let (plan, store) := engine.store.planAdmission clock.plan cmd
  let engine := engine.withStore store
  match plan.response with
  | some frame => (frame, engine, state)
  | none =>
      match ensureRoom hook clock choices plan engine state with
      | (some frame, engine, state) => (frame, engine, state)
      | (none, engine, state) => commit hook clock.exec cmd engine state

/-- Only writes go through admission. -/
def execute [FloatText] (hook : Option (WriteHook σ)) (clock : WriteClock)
    (choices : Nat → Choices) (cmd : Command) (engine : Engine) (state : σ) :
    Frame × Engine × σ :=
  if cmd.isWriteCommand then
    executeWithAdmission hook clock choices cmd engine state
  else
    let (frame, store) := Executor.execute clock.exec cmd engine.store
    (frame, engine.withStore store, state)

/-- The replica's side: no admission and no hook. -/
def applyReplicated [FloatText] (now : Readings) (cmd : Command)
    (engine : Engine) : Frame × Engine :=
  let (frame, store) := Executor.execute now cmd engine.store
  (frame, engine.withStore store)

/-! ### What making room does to the store -/

/-- Keys other than one are removed, one after the other. -/
def Evicts (planKey : Bytes) : Store → Store → Prop :=
  Relation.ReflTransGen fun before after =>
    ∃ key, key ≠ planKey ∧ after = (before.deleteWithSize key).2

/-- What each removal keeps, all of them keep. -/
theorem Evicts.related {planKey : Bytes} {before after : Store}
    (evicts : Evicts planKey before after) (related : Store → Store → Prop)
    (refl : ∀ store, related store store)
    (trans : ∀ {first second third}, related first second → related second third →
      related first third)
    (deletes : ∀ store key, key ≠ planKey → related store (store.deleteWithSize key).2) :
    related before after := by
  induction evicts with
  | refl => exact refl before
  | tail earlier removal kept =>
      obtain ⟨key, other, rfl⟩ := removal
      exact trans kept (deletes _ key other)

section Room

variable (hook : Option (WriteHook σ)) (clock : WriteClock) (choices : Nat → Choices)

theorem evictVictims_evicts (planKey : Bytes) (victims : List Candidate) (progress : Bool)
    (store : Store) (state : σ) :
    Evicts planKey store (evictVictims hook planKey victims progress store state).2.1 := by
  induction victims generalizing progress store state with
  | nil => exact .refl
  | cons victim rest induction =>
      unfold evictVictims
      split_ifs with own
      · exact induction progress store state
      · split
        · exact .refl
        · rename_i next _
          split
          · rename_i after removed
            exact .head ⟨victim.key, own, by rw [removed]⟩ (induction progress after next)
          · rename_i after removed
            exact .head ⟨victim.key, own, by rw [removed]⟩ (induction true after _)

/-- What the eviction passes leave; when they report room, there is room. -/
theorem freeForAdmission_evicts (plan : AdmissionPlan) (passes : Nat) (engine : Engine)
    (state : σ) {result : Option Frame × Engine × σ}
    (freed : freeForAdmission hook clock choices plan passes engine state = result) :
    result.2.1 = engine.withStore result.2.1.store ∧
      Evicts plan.key engine.store result.2.1.store ∧
      (result.1 = none → plan.requiredGrowth ≤ result.2.1.available) := by
  subst freed
  induction passes generalizing engine state with
  | zero => exact ⟨rfl, .refl, fun admitted => by cases admitted⟩
  | succ passes induction =>
      unfold freeForAdmission
      split_ifs with enough
      · exact ⟨rfl, .refl, fun _ => enough⟩
      · exact ⟨rfl, .refl, fun admitted => by cases admitted⟩
      · dsimp only
        split_ifs
        · exact ⟨rfl, .refl, fun admitted => by cases admitted⟩
        · have evicted := evictVictims_evicts hook plan.key
            (engine.store.pickVictims engine.policy (choices passes)
              (clock.sample passes) (plan.requiredGrowth - engine.available)
              plan.key) false engine.store state
          split
          · rename_i result
            rw [result] at evicted
            exact ⟨rfl, evicted, fun admitted => by cases admitted⟩
          · rename_i progress after next result
            rw [result] at evicted
            split_ifs
            · obtain ⟨same, later, room⟩ := induction (engine.withStore after) next
              exact ⟨same, evicted.trans later, room⟩
            · exact ⟨rfl, evicted, fun admitted => by cases admitted⟩

/-- The admission check of a growing write: a write that is let through fits. -/
theorem ensureRoom_evicts (plan : AdmissionPlan) (engine : Engine) (state : σ)
    {result : Option Frame × Engine × σ}
    (checked : ensureRoom hook clock choices plan engine state = result) :
    result.2.1 = engine.withStore result.2.1.store ∧
      Evicts plan.key engine.store result.2.1.store ∧
      (plan.requiredGrowth = 0 → result.2.1 = engine) ∧
      (result.1 = none → plan.willWrite = true → 0 < engine.limitBytes →
        0 < plan.requiredGrowth → plan.resultingSize ≤ engine.limitBytes ∧
          plan.requiredGrowth ≤ result.2.1.available) := by
  subst checked
  unfold ensureRoom
  split_ifs with growing tooLarge
  · exact ⟨rfl, .refl, fun _ => rfl, fun admitted => by cases admitted⟩
  · obtain ⟨same, evicts, room⟩ :=
      freeForAdmission_evicts hook clock choices plan maxEvictionPasses engine state rfl
    refine ⟨same, evicts, fun steady => ?_, fun through _ _ _ =>
      ⟨Nat.le_of_not_gt tooLarge, room through⟩⟩
    simp [steady] at growing
  · refine ⟨rfl, .refl, fun _ => rfl, fun _ writes limited grows => absurd ?_ growing⟩
    simp [writes, hasLimit, limited, grows]

end Room

end Engine
end MnemoKV
