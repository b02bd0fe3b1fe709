import MnemoKV.ExpiringWrites
import MnemoKV.ReliableLinks

/-!
# Runs of a pair whose entries expire

Relative lifetimes are evaluated on each node by itself, so the replica's copy
of a key expires a little before the leader's.  A write that finds the key in
this window acts on different items; without such writes the live entries of a
slot agree at every time at which they have expired on both nodes or on neither,
until the numbers of the slot are spent.
-/

namespace MnemoKV

/-- A pair together with the time of its last command. -/
structure ClockedPair where
  pair : Pair
  time : Int

namespace ClockedPair

open LabelledRuns Replication

/-- The invariant: harmony, and evictions that leave the empty key alone. -/
structure Tuned (start : Pair) (state : ClockedPair) : Prop where
  epoch : 0 ≤ state.time
  harmony : Harmony state.time state.pair.leader.engine.store
    state.pair.replication
  owners : start.leader.metadata.SameOwners state.pair.leader.metadata
  clear : state.pair.EmptyKeyClear

def dataset (state : ClockedPair) : Dataset := state.pair.leader.dataset

def copy (state : ClockedPair) : Dataset := state.pair.replica.dataset

/-- A write does not find its key in the window between the two expiries. -/
def InTime (state : ClockedPair) (call : TimedCall) : Prop :=
  call.cmd.isWriteCommand = true →
    Replication.InTime call (state.dataset call.cmd.extractPrimaryKey)
      (state.copy call.cmd.extractPrimaryKey)

section Runs

variable [FloatText] {start : Pair} {state : ClockedPair} {call : TimedCall}

def step (state : ClockedPair) (call : TimedCall) : ClockedPair :=
  { pair := state.pair.step call.call, time := call.execTime }

omit [FloatText] in
theorem Tuned.finish (tuned : Tuned start state)
    (nonempty : ∀ key ∈ call.cmd.extractKeys, key ≠ [])
    (ordered : call.Ordered state.time) {store : Store} {next : Replication}
    (concluded : Concluded call state.pair.leader.engine.store
      state.pair.replication store next) :
    Tuned start
      { pair := state.pair.finish store next, time := call.execTime } := by
  have exec := ordered.exec
  have plan := ordered.plan
  have epoch := tuned.epoch
  obtain ⟨paired, counters, entries⟩ := concluded.harmony
  refine ⟨by dsimp only; omega, ⟨paired, counters, entries⟩,
    tuned.owners.trans concluded.owners, ?_⟩
  rcases tuned.clear with unlimited | never | missing | foreign
  · exact .inl unlimited
  · exact .inr (.inl never)
  · refine .inr (.inr (.inl (concluded.absent [] ?_ missing)))
    exact fun listed => nonempty [] listed rfl
  · refine .inr (.inr (.inr ?_))
    have owners : state.pair.leader.metadata.SameOwners next.metadata :=
      concluded.owners
    change ¬ next.metadata.Leads (next.metadata.slotForKey [])
    rw [owners.slotForKey, owners.leads_iff]
    exact foreign

omit [FloatText] in
theorem Tuned.refused (tuned : Tuned start state)
    (ordered : call.Ordered state.time) :
    Tuned start { pair := state.pair, time := call.execTime } := by
  have exec := ordered.exec
  have plan := ordered.plan
  have epoch := tuned.epoch
  exact ⟨by dsimp only; omega, tuned.harmony.mono (plan.trans exec),
    tuned.owners, tuned.clear⟩

theorem Tuned.read_concluded (tuned : Tuned start state)
    (ordered : call.Ordered state.time)
    (isRead : call.cmd.isWriteCommand = false) :
    Concluded call state.pair.leader.engine.store state.pair.replication
      (Executor.execute (fun _ => call.execTime) call.cmd
        state.pair.leader.engine.store).2 state.pair.replication := by
  have executed := Executor.dataset_execute (fun _ => call.execTime) call.cmd
    state.pair.leader.engine.store
  have lapsed := (Command.action_lapses (fun _ => call.execTime) call.cmd isRead
    state.pair.leader.engine.store.dataset).at_const
  rw [← executed] at lapsed
  exact ⟨tuned.harmony.lapse (ordered.plan.trans ordered.exec) lapsed, .refl _,
    fun _ _ => lapsed.absent⟩

/-- One client command. -/
theorem Tuned.step (tuned : Tuned start state)
    (nonempty : ∀ key ∈ call.cmd.extractKeys, key ≠ [])
    (ordered : call.Ordered state.time) (inTime : state.InTime call) :
    Tuned start (state.step call) := by
  unfold ClockedPair.step Pair.step
  by_cases routed : state.pair.leader.route call.cmd = .here
  · cases write : call.cmd.isWriteCommand with
    | true =>
        obtain ⟨frame, store, next, executed, concluded⟩ :=
          Harmony.executeWithAdmission ordered tuned.epoch
            (Pair.localCommand_of_here nonempty write routed) (inTime write)
            rfl tuned.harmony tuned.clear.foreign
        rw [Pair.execute_write call.call routed write executed]
        exact tuned.finish nonempty ordered concluded
    | false =>
        rw [Pair.execute_read call.call routed write]
        exact tuned.finish nonempty ordered (tuned.read_concluded ordered write)
  · obtain ⟨frame, -, executed⟩ := Pair.execute_elsewhere call.call routed
    rw [executed]
    exact tuned.refused ordered

/-- Live entries agree at every later time at which they have expired on both
nodes or on neither, as long as the replica's counter of the slot is below the
largest `uint64`. -/
theorem live_entries_agree (start : ClockedPair) (calls : List TimedCall)
    (epoch : 0 ≤ start.time)
    (paired : Paired start.pair.leader.metadata start.pair.replica.metadata)
    (inStep : ∀ slot, start.pair.leader.metadata.Leads slot →
      InStep start.pair.leader.engine.store start.pair.replication slot)
    (clear : start.pair.EmptyKeyClear)
    (nonempty : ∀ call ∈ calls, ∀ key ∈ call.cmd.extractKeys, key ≠ [])
    (ordered : ∀ index (inRange : index < calls.length),
      calls[index].Ordered (stateAt step start calls index).time)
    (inTime : ∀ index (inRange : index < calls.length),
      (stateAt step start calls index).InTime calls[index])
    (index : Nat) (visited : index ≤ calls.length) (reading : Int)
    (later : (stateAt step start calls index).time ≤ reading) (key : Bytes)
    (leads : start.pair.leader.metadata.Leads
      (start.pair.leader.metadata.slotForKey key))
    (unspent : (stateAt step start calls index).pair.replication.Unspent
      (start.pair.leader.metadata.slotForKey key))
    (alike : ExpiredAlike reading reading
      ((stateAt step start calls index).dataset key)
      ((stateAt step start calls index).copy key)) :
    (liveAt reading ((stateAt step start calls index).dataset key)).map
        Item.value =
      (liveAt reading ((stateAt step start calls index).copy key)).map
        Item.value := by
  have starts : Tuned start.pair start := by
    refine ⟨epoch, ⟨paired, fun slot led _ => (inStep slot led).counters, ?_⟩,
      .refl _, clear⟩
    intro other led _
    have same := congrFun (inStep _ led).datasets other
    simp only [part, Dataset.within_of_mem] at same
    rw [same]
    exact .refl _ _
  have tuned := stateAt_induction step start calls (Tuned start.pair) starts
    (fun index inRange tuned => tuned.step
      (nonempty _ (List.getElem_mem inRange)) (ordered index inRange)
      (inTime index inRange)) visited
  have ledNow : (stateAt step start calls index).pair.replication.metadata.Leads
      ((stateAt step start calls index).pair.replication.metadata.slotForKey
        key) := by
    change (stateAt step start calls index).pair.leader.metadata.Leads
      ((stateAt step start calls index).pair.leader.metadata.slotForKey key)
    rw [tuned.owners.slotForKey, tuned.owners.leads_iff]
    exact leads
  rw [← tuned.owners.slotForKey] at unspent
  exact (tuned.harmony.entries key ledNow unspent).values_eq later alike

end Runs

section Examples

attribute [local instance] FloatText.rejecting

def emptyClockedPair : ClockedPair := { pair := .emptyPair, time := 0 }

/-- A command planned and sent at one time and executed at another. -/
def timedCall (sent executed : Int) (cmd : Command) : TimedCall :=
  { cmd := cmd, choices := fun _ => .canonical, planTime := sent
    sampleTime := fun _ => sent, recordTime := fun _ => sent
    execTime := executed }

theorem timedCall_ordered {now sent executed : Int} (cmd : Command)
    (later : now ≤ sent) (after : sent ≤ executed) :
    (timedCall sent executed cmd).Ordered now :=
  ⟨later, fun _ => ⟨Int.le_refl _, after⟩⟩

theorem timedCall_inTime {state : ClockedPair} {sent executed : Int}
    {cmd : Command}
    (alike : ExpiredAlike executed sent (state.dataset cmd.extractPrimaryKey)
      (state.copy cmd.extractPrimaryKey))
    (ranges : ∀ lifetime ∈ cmd.lifetimes,
      executed ≤ maxInt64 - lifetime ↔ sent ≤ maxInt64 - lifetime) :
    state.InTime (timedCall sent executed cmd) :=
  fun _ => ⟨fun _ _ => alike, fun lifetime member _ => ranges lifetime member⟩

/-- Ten milliseconds to live, from 0 on the replica and from 5 ms on the
leader. -/
def setForTenMillis : TimedCall :=
  timedCall 0 5000000
    (.make .set [.ascii "k", .ascii "1", .ascii "PX", .ascii "10"])

def incrAt (time : Int) : TimedCall :=
  timedCall time time (.make .incr [.ascii "k"])

/-- At 12 ms the key has expired on the replica only: `INCR` starts it afresh
there and counts on at the leader. -/
theorem incr_between_the_expiries :
    let last := stateAt step emptyClockedPair [setForTenMillis, incrAt 12000000] 2
    emptyClockedPair.pair.Fresh ∧
    setForTenMillis.Ordered emptyClockedPair.time ∧
    (incrAt 12000000).Ordered
      (stateAt step emptyClockedPair [setForTenMillis] 1).time ∧
    ((stateAt step emptyClockedPair [setForTenMillis] 1).pair.execute
      (incrAt 12000000).call).1 = .integer 2 ∧
    last.time ≤ 13000000 ∧
    ExpiredAlike 13000000 13000000 (last.dataset (.ascii "k"))
      (last.copy (.ascii "k")) ∧
    (liveAt 13000000 (last.dataset (.ascii "k"))).map Item.value =
      some (.string (.ascii "2")) ∧
    (liveAt 13000000 (last.copy (.ascii "k"))).map Item.value =
      some (.string (.ascii "1")) := by
  refine ⟨Pair.fresh_emptyPair, timedCall_ordered _ (by decide) (by decide),
    timedCall_ordered _ (by decide) (by decide), rfl, by decide, by decide,
    by decide, by decide⟩

/-- The same `INCR` at 8 ms finds the key alive on both nodes. -/
theorem incr_before_the_expiries :
    let last := stateAt step emptyClockedPair [setForTenMillis, incrAt 8000000] 2
    (last.dataset (.ascii "k")).map Item.value = some (.string (.ascii "2")) ∧
    (liveAt 9000000 (last.dataset (.ascii "k"))).map Item.value =
      (liveAt 9000000 (last.copy (.ascii "k"))).map Item.value := by
  have first : emptyClockedPair.InTime setForTenMillis :=
    timedCall_inTime (by decide) (by decide)
  have second : (stateAt step emptyClockedPair [setForTenMillis] 1).InTime
      (incrAt 8000000) := timedCall_inTime (by decide) (by decide)
  refine ⟨by decide, live_entries_agree emptyClockedPair
    [setForTenMillis, incrAt 8000000] (by decide) Pair.paired_twoPeerConfig
    Pair.fresh_emptyPair.inStep (.inl rfl) ?_ ?_ ?_ 2 (by decide) 9000000
    (by decide) (.ascii "k") ⟨_, rfl, rfl⟩ (by unfold Unspent; decide)
    (by decide)⟩
  · decide
  · intro index inRange
    match index, inRange with
    | 0, _ => exact timedCall_ordered _ (by decide) (by decide)
    | 1, _ => exact timedCall_ordered _ (by decide) (by decide)
  · intro index inRange
    match index, inRange with
    | 0, _ => exact first
    | 1, _ => exact second

end Examples
end ClockedPair
end MnemoKV
