import MnemoKV.EngineRuns

/-!
# Independence of the stripe count

Two stores are alike if every key finds the same entry in both and their byte
counters agree; how many stripes they have, and in which stripe a key lives, is
left open.  Every operation of the store returns the same from alike stores and
leaves alike stores behind, hence so does every command, and two engines without
a memory limit that differ in their stripe counts cannot be told apart by any
sequence of commands.
-/

namespace MnemoKV

namespace Store

/-- No lookup tells the stores apart, and neither does the counter. -/
structure Alike (first second : Store) : Prop where
  found : ∀ key, first.find key = second.find key
  counted : first.usedBytes = second.usedBytes

/-- The same result and alike stores. -/
structure Agree {α : Type} (first second : α × Store) : Prop where
  result : first.1 = second.1
  store : first.2.Alike second.2

theorem find_new (stripeCount : Int) (key : Bytes) :
    (Store.new stripeCount).find key = none := by
  simp [find, new]

theorem alike_new (firstCount secondCount : Int) :
    Alike (.new firstCount) (.new secondCount) :=
  ⟨fun key => by rw [find_new, find_new], rfl⟩

theorem find_flush (store : Store) (key : Bytes) : store.flush.find key = none := by
  have keeps : ∀ (entries : List Entry) (start : Store),
      (entries.foldl (fun state entry => state.subUsed entry.sizeBytes)
        start).find key = start.find key := by
    intro entries
    induction entries with
    | nil => exact fun _ => rfl
    | cons entry entries induction =>
        intro start
        rw [List.foldl_cons, induction, find_subUsed]
  unfold flush
  rw [keeps, find_emptied]

namespace Alike

variable {first second : Store}

section

variable (alike : Alike first second)

include alike

theorem addUsed (bytes : Nat) :
    Alike (first.addUsed bytes) (second.addUsed bytes) :=
  ⟨alike.found, by simp only [Store.addUsed, alike.counted]⟩

theorem subUsed (bytes : Nat) :
    Alike (first.subUsed bytes) (second.subUsed bytes) :=
  ⟨alike.found, by simp only [Store.subUsed, alike.counted]⟩

theorem adjustUsed (oldSize newSize : Nat) :
    Alike (first.adjustUsed oldSize newSize)
      (second.adjustUsed oldSize newSize) := by
  unfold Store.adjustUsed
  split_ifs
  · exact alike.addUsed _
  · exact alike.subUsed _

theorem assign (entry : Entry) :
    Alike (first.assign entry) (second.assign entry) := by
  refine ⟨fun key => ?_, alike.counted⟩
  rw [find_assign, find_assign, alike.found]

theorem unassign (key : Bytes) :
    Alike (first.unassign key) (second.unassign key) := by
  refine ⟨fun other => ?_, alike.counted⟩
  rw [find_unassign, find_unassign, alike.found]

theorem rewrite (entry : Entry) (value : Value)
    (now : Int) :
    Alike (first.rewrite entry value now) (second.rewrite entry value now) :=
  (alike.adjustUsed _ _).assign _

theorem insertNew (key : Bytes) (value : Value)
    (now : Int) :
    Alike (first.insertNew key value now) (second.insertNew key value now) :=
  (alike.addUsed _).assign _

theorem expire (now : Int) (key : Bytes) :
    Alike (first.expire now key) (second.expire now key) := by
  unfold Store.expire
  rw [alike.found key]
  split
  · split_ifs
    · exact (alike.unassign key).subUsed _
    · exact alike
  · exact alike

theorem get (now : Int) (key : Bytes)
    (touch : Bool) :
    Agree (first.get now key touch) (second.get now key touch) := by
  have expired := alike.expire now key
  unfold Store.get
  dsimp only
  rw [expired.found key]
  split
  · exact ⟨rfl, expired⟩
  · split_ifs
    · exact ⟨rfl, expired.assign _⟩
    · exact ⟨rfl, expired⟩

theorem deleteWithSize (key : Bytes) :
    Alike (first.deleteWithSize key).2 (second.deleteWithSize key).2 := by
  unfold Store.deleteWithSize
  rw [alike.found key]
  split
  · exact alike
  · exact (alike.unassign key).subUsed _

theorem operation (operation : Operation) (now : Int) (key : Bytes) :
    Alike (operation.apply now key first) (operation.apply now key second) := by
  have expired := alike.expire now key
  have found := expired.found key
  cases operation with
  | get touch => exact (alike.get now key touch).store
  | setString data expiresAtNs condition =>
      dsimp only [Operation.apply, Store.setString]
      rw [found]
      split
      · split_ifs
        · exact expired
        · exact (expired.adjustUsed _ _).assign _
      · split_ifs
        · exact expired
        · exact (expired.addUsed _).assign _
  | incrementBy delta =>
      dsimp only [Operation.apply, Store.incrementBy]
      rw [found]
      split
      · split
        · split
          · exact expired
          · split_ifs
            · exact expired
            · exact expired.rewrite _ _ _
        · exact expired
      · split_ifs
        · exact expired
        · exact expired.insertNew _ _ _
  | setExpireAt expiresAtNs =>
      dsimp only [Operation.apply, Store.setExpireAt]
      rw [found]
      split
      · exact expired
      · exact expired.assign _
  | listPush values left =>
      dsimp only [Operation.apply, Store.listPush]
      rw [found]
      split
      · split
        · exact expired.rewrite _ _ _
        · exact expired
      · exact expired.insertNew _ _ _
  | listPop left =>
      dsimp only [Operation.apply, Store.listPop]
      rw [found]
      split
      · exact expired
      · split
        · split
          · exact expired
          · split_ifs
            · exact (expired.unassign key).subUsed _
            · exact expired.rewrite _ _ _
        · exact expired
  | zsetAdd pairs =>
      dsimp only [Operation.apply, Store.zsetAdd]
      rw [found]
      split
      · split
        · exact expired.rewrite _ _ _
        · exact expired
      · exact expired.insertNew _ _ _

theorem mem_allEntries (entry : Entry) :
    entry ∈ first.allEntries ↔ entry ∈ second.allEntries := by
  rw [Store.mem_allEntries, Store.mem_allEntries, alike.found]

theorem perm_allEntries :
    first.allEntries.Perm second.allEntries :=
  (List.perm_ext_iff_of_nodup first.nodup_keys.of_map
    second.nodup_keys.of_map).mpr alike.mem_allEntries

/-- The subtractions of a flush may be made in any order. -/
theorem flush : Alike first.flush second.flush := by
  have counter : ∀ (entries : List Entry) (start : Store),
      (entries.foldl (fun state entry => state.subUsed entry.sizeBytes)
        start).usedBytes =
      entries.foldl (fun used entry =>
        wrap64 (used + (2 ^ 64 - wrap64 entry.sizeBytes))) start.usedBytes := by
    intro entries
    induction entries with
    | nil => exact fun _ => rfl
    | cons entry entries induction => exact fun start => induction _
  refine ⟨fun key => by rw [find_flush, find_flush], ?_⟩
  unfold Store.flush
  rw [counter, counter]
  change _ = List.foldl _ second.usedBytes _
  rw [← alike.counted]
  refine alike.perm_allEntries.foldl_eq' ?_ _
  intro entry _ other _ used
  simp only [wrap64]
  omega

theorem performs {now : Readings} {keys : List Bytes} {outcome : Store → Frame × Store}
    (performs : Performs now keys outcome) :
    Alike (outcome first).2 (outcome second).2 := by
  cases performs with
  | lookups lookups same =>
      rw [same, same]
      exact List.foldl_rel alike fun lookup _ _ _ alike => alike.expire _ _
  | operation index operation same =>
      rw [same, same]
      exact alike.operation operation _ _
  | deletions removed same =>
      rw [same, same]
      exact List.foldl_rel alike fun key _ _ _ alike => alike.deleteWithSize key
  | flush same =>
      rw [same, same]
      exact alike.flush

/-- Alike stores have the same dataset. -/
theorem dataset_eq : first.dataset = second.dataset := by
  funext key
  rw [dataset, alike.found key]
  rfl

theorem execute [FloatText] (now : Readings) (cmd : Command) :
    Agree (Executor.execute now cmd first) (Executor.execute now cmd second) := by
  have observed := Executor.observe_execute now cmd first
  rw [alike.dataset_eq, ← Executor.observe_execute now cmd second] at observed
  exact ⟨(Prod.ext_iff.mp observed).1, alike.performs (Executor.performs_execute now cmd)⟩

theorem planAdmission [FloatText] (now : Readings) (cmd : Command) :
    Agree (first.planAdmission now cmd) (second.planAdmission now cmd) := by
  refine ⟨?_, ?_⟩
  · rw [(first.planAdmission_spec now cmd).1, (second.planAdmission_spec now cmd).1,
      alike.dataset_eq]
  · rcases planAdmission_lookup now cmd with same | ⟨index, same⟩
    · rw [same, same]
      exact alike
    · rw [same, same]
      exact alike.expire _ _

end

end Alike
end Store

namespace Engine

open Store

/-- A call of `Execute` on an engine without a hook. -/
def answer [FloatText] (clock : WriteClock) (choices : Nat → Choices)
    (cmd : Command) (engine : Engine) : Frame × Engine :=
  let (frame, engine, _) :=
    execute (none : Option (WriteHook Unit)) clock choices cmd engine ()
  (frame, engine)

/-- The replies to a sequence of commands and the engine they leave.  The clock
belongs to the commands; the order in which maps are iterated is the engine's
own, given for each number of commands to come. -/
def answers [FloatText] (choices : Nat → Nat → Choices) :
    List (WriteClock × Command) → Engine → List Frame × Engine
  | [], engine => ([], engine)
  | (clock, cmd) :: calls, engine =>
      let (frame, engine) := engine.answer clock (choices calls.length) cmd
      let (frames, engine) := answers choices calls engine
      (frame :: frames, engine)

/-- Without a limit there is always room. -/
theorem ensureRoom_unlimited {σ : Type} {hook : Option (WriteHook σ)}
    {clock : WriteClock} {choices : Nat → Choices} {plan : AdmissionPlan}
    {engine : Engine} {state : σ} (unlimited : engine.limitBytes = 0) :
    ensureRoom hook clock choices plan engine state = (none, engine, state) := by
  simp [ensureRoom, hasLimit, unlimited]

variable [FloatText]

/-- What an engine without limit and hook does, in terms of its store alone. -/
theorem answer_unlimited {engine : Engine} (unlimited : engine.limitBytes = 0)
    (clock : WriteClock) (choices : Nat → Choices) (cmd : Command) :
    engine.answer clock choices cmd =
      if cmd.isWriteCommand then
        match engine.store.planAdmission clock.plan cmd with
        | (plan, store) =>
          match plan.response with
          | some frame => (frame, engine.withStore store)
          | none => engine.withStore store |>.applyReplicated clock.exec cmd
      else engine.applyReplicated clock.exec cmd := by
  unfold answer execute
  split_ifs
  · unfold executeWithAdmission
    obtain ⟨plan, store⟩ := engine.store.planAdmission clock.plan cmd
    have room : (engine.withStore store).limitBytes = 0 := unlimited
    dsimp only
    cases plan.response with
    | some frame => rfl
    | none =>
        dsimp only
        rw [ensureRoom_unlimited room]
        rfl
  · rfl

theorem limitBytes_answer {engine : Engine} (unlimited : engine.limitBytes = 0)
    (clock : WriteClock) (choices : Nat → Choices) (cmd : Command) :
    (engine.answer clock choices cmd).2.limitBytes = 0 := by
  rw [answer_unlimited unlimited]
  split_ifs
  · dsimp only
    split <;> exact unlimited
  · exact unlimited

variable {first second : Engine} (firstUnlimited : first.limitBytes = 0)
  (secondUnlimited : second.limitBytes = 0)
  (alike : first.store.Alike second.store)

include firstUnlimited secondUnlimited alike

theorem answer_alike (clock : WriteClock) (firstChoices secondChoices : Nat → Choices)
    (cmd : Command) :
    (first.answer clock firstChoices cmd).1 =
        (second.answer clock secondChoices cmd).1 ∧
      (first.answer clock firstChoices cmd).2.store.Alike
        (second.answer clock secondChoices cmd).2.store := by
  rw [answer_unlimited firstUnlimited, answer_unlimited secondUnlimited]
  split_ifs
  · obtain ⟨samePlan, planned⟩ := alike.planAdmission clock.plan cmd
    dsimp only
    rw [samePlan]
    split
    · exact ⟨rfl, planned⟩
    · obtain ⟨same, executed⟩ := planned.execute clock.exec cmd
      exact ⟨same, executed⟩
  · obtain ⟨same, executed⟩ := alike.execute clock.exec cmd
    exact ⟨same, executed⟩

theorem answers_alike (firstChoices secondChoices : Nat → Nat → Choices)
    (calls : List (WriteClock × Command)) :
    (first.answers firstChoices calls).1 = (second.answers secondChoices calls).1 ∧
      (first.answers firstChoices calls).2.store.Alike
        (second.answers secondChoices calls).2.store := by
  induction calls generalizing first second with
  | nil => exact ⟨rfl, alike⟩
  | cons call calls induction =>
      obtain ⟨clock, cmd⟩ := call
      obtain ⟨sameFrame, answered⟩ := answer_alike firstUnlimited secondUnlimited
        alike clock (firstChoices calls.length) (secondChoices calls.length) cmd
      obtain ⟨sameFrames, finished⟩ := induction
        (limitBytes_answer firstUnlimited clock (firstChoices calls.length) cmd)
        (limitBytes_answer secondUnlimited clock (secondChoices calls.length) cmd)
        answered
      exact ⟨congrArg₂ List.cons sameFrame sameFrames, finished⟩

end Engine

/-- Two standalone engines without a memory limit, with any stripe counts, any
eviction policies and any orders of map iteration, that start empty and run the
same commands under the same readings of the clock: they answer alike and end
with the same entries and the same byte counter. -/
theorem Engine.answers_do_not_depend_on_stripes [FloatText]
    (firstCount secondCount : Int) (firstPolicy secondPolicy : String)
    (firstChoices secondChoices : Nat → Nat → Choices)
    (calls : List (WriteClock × Command)) :
    let first := (Engine.new ⟨firstCount, 0, firstPolicy⟩).answers firstChoices calls
    let second :=
      (Engine.new ⟨secondCount, 0, secondPolicy⟩).answers secondChoices calls
    first.1 = second.1 ∧
      first.2.store.allEntries.Perm second.2.store.allEntries ∧
      first.2.store.usedBytes = second.2.store.usedBytes := by
  have empty : (Engine.new ⟨firstCount, 0, firstPolicy⟩).store.Alike
      (Engine.new ⟨secondCount, 0, secondPolicy⟩).store :=
    Store.alike_new firstCount secondCount
  obtain ⟨same, alike⟩ :=
    Engine.answers_alike rfl rfl empty firstChoices secondChoices calls
  exact ⟨same, alike.perm_allEntries, alike.counted⟩

end MnemoKV
