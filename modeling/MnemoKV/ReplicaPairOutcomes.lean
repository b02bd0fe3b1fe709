import MnemoKV.ReplicaPairCalls

/-!
# One client command on a pair of nodes

The outcome of a command that the coordinator of the leader receives, for any
behaviour of the link: the pair stays sound, ownership and limits stay, and no
key but the command's own appears.
-/

namespace MnemoKV
namespace Pair

open LabelledRuns Replication

/-- A client command as the pair supports it: no lifetimes, no empty keys. -/
structure ClientCommand (cmd : Command) : Prop where
  free : cmd.TTLFree
  nonempty : ∀ key ∈ cmd.extractKeys, key ≠ []

/-- Every write, client's or eviction's, repeats the command whose
acknowledgement was lost in its slot, if there is one. -/
structure Repeats (pair : Pair) (call : ClientCall) : Prop where
  write : call.cmd.isWriteCommand = true → call.cmd.extractKeys ≠ [] →
    ∀ pending, pair.history.unacked
      (pair.leader.metadata.slotForKey call.cmd.extractPrimaryKey) =
        some pending → call.cmd = pending
  evictions : 0 < pair.leader.engine.limitBytes →
    pair.leader.engine.policy ≠ .noEviction →
    ∀ key, pair.leader.dataset key ≠ none →
      key ≠ call.cmd.extractPrimaryKey → pair.replication.Evictable key

/-- Both nodes hold the same data without expiries under equal counters, and
nothing has been sent yet. -/
structure Fresh (pair : Pair) : Prop where
  paired : Paired pair.leader.metadata pair.replica.metadata
  persistent : ∀ slot, pair.leader.metadata.Leads slot →
    Persistent (pair.replication.part slot pair.leader.dataset)
  inStep : ∀ slot, pair.leader.metadata.Leads slot →
    InStep pair.leader.engine.store pair.replication slot
  history : pair.history = .empty

/-- A leader and a replica with a fresh slot table and the same entries. -/
def boot (config : ClusterConfig) (leaderID replicaID : String) (engine : Engine) :
    Pair :=
  { leader := { metadata := newMetadata config leaderID, engine := engine
                admitted := true }
    replica := { metadata := newMetadata config replicaID, engine := engine
                 admitted := true }
    history := .empty }

theorem fresh_boot {config : ClusterConfig} {leaderID replicaID : String}
    {engine : Engine}
    (paired : Paired (newMetadata config leaderID) (newMetadata config replicaID))
    (persistent : Persistent engine.store.dataset) :
    (boot config leaderID replicaID engine).Fresh := by
  refine ⟨paired, fun slot _ key item found => ?_, fun slot _ => ⟨rfl, ?_⟩, rfl⟩
  · simp only [part, Dataset.within] at found
    split_ifs at found
    exact persistent key item found
  · exact (applied_newMetadata ..).trans (sequence_newMetadata ..).symm

section OneCall

variable [FloatText] {pair : Pair} {call : ClientCall}

/-- The invariant of a pair. -/
def Sound (pair : Pair) : Prop :=
  Replication.Sound pair.leader.engine.store pair.replication

theorem Fresh.sound (fresh : pair.Fresh) : pair.Sound := by
  refine ⟨fresh.paired, fun slot leads => ⟨fresh.persistent slot leads,
    fun _ _ => fresh.inStep slot leads, fun _ cmd pending => ?_⟩, ?_⟩
  · simp [replication, fresh.history, History.empty] at pending
  · simp [replication, fresh.history, History.empty]

/-- The outcome of one client command. -/
structure Completed (pair : Pair) (call : ClientCall) (frame : Frame)
    (next : Pair) : Prop where
  sound : next.Sound
  owners : pair.leader.metadata.SameOwners next.leader.metadata
  limitBytes : next.leader.engine.limitBytes = pair.leader.engine.limitBytes
  policy : next.leader.engine.policy = pair.leader.engine.policy
  absent : ∀ key ∉ call.cmd.extractKeys, pair.leader.dataset key = none →
    next.leader.dataset key = none
  reliable : (∀ index, ∃ now, call.link index = .answered now) →
    ∀ slot, next.history.unacked slot = pair.history.unacked slot ∨
      next.history.unacked slot = none
  done : call.cmd.isWriteCommand = true → frame.isError = false →
    next.replication.Unspent
      (pair.leader.metadata.slotForKey call.cmd.extractPrimaryKey) →
    Done (pair.leader.metadata.slotForKey call.cmd.extractPrimaryKey) call.cmd
      frame pair.leader.engine.store next.leader.engine.store next.replication

theorem Completed.refused {frame : Frame} (sound : pair.Sound)
    (failed : frame.isError = true) : Completed pair call frame pair :=
  ⟨sound, .refl _, rfl, rfl, fun _ _ missing => missing, fun _ _ => .inl rfl,
    fun _ succeeded => by rw [failed] at succeeded; cases succeeded⟩

theorem finish_sound {store : Store} {state : Replication}
    (sound : Replication.Sound store state) : (pair.finish store state).Sound :=
  ⟨sound.paired, fun slot leads => (sound.slots slot leads).congr
    ⟨.refl _, rfl, rfl, rfl, rfl, rfl, List.Subset.refl _⟩, sound.suppressed⟩

theorem finish_completed {store : Store} {state : Replication} {frame : Frame}
    (ended : Ended call.link pair.leader.engine.store pair.replication call.cmd
      store state)
    (done : call.cmd.isWriteCommand = true → frame.isError = false →
      state.Unspent
        (pair.leader.metadata.slotForKey call.cmd.extractPrimaryKey) →
      Done (pair.leader.metadata.slotForKey call.cmd.extractPrimaryKey)
        call.cmd frame pair.leader.engine.store store state) :
    Completed pair call frame (pair.finish store state) :=
  ⟨finish_sound ended.sound, ended.owners, rfl, rfl, ended.absent,
    fun reliable => (ended.reliable reliable).unacked,
    fun write succeeded unspent =>
      have ⟨settled, inStep, applied⟩ := done write succeeded unspent
      ⟨settled, ⟨inStep.datasets, inStep.counters⟩, applied⟩⟩

/-- A command that is not a write only lets items lapse. -/
theorem read_ended (sound : pair.Sound) (isRead : call.cmd.isWriteCommand = false)
    (now : Readings) :
    Ended call.link pair.leader.engine.store pair.replication call.cmd
      (Executor.execute now call.cmd pair.leader.engine.store).2
      pair.replication := by
  have executed := Executor.dataset_execute now call.cmd pair.leader.engine.store
  have lapsed := Command.action_lapses now call.cmd isRead
    pair.leader.engine.store.dataset
  rw [← executed] at lapsed
  exact ⟨sound.of_leader fun slot leads => sound.part_of_lapsed lapsed leads,
    .refl _, fun _ _ => lapsed.absent, fun _ => .refl _⟩

theorem Sound.execute (sound : pair.Sound) (client : ClientCommand call.cmd)
    (repeats : pair.Repeats call) :
    Completed pair call (pair.execute call).1 (pair.execute call).2 := by
  by_cases routed : pair.leader.route call.cmd = .here
  · cases write : call.cmd.isWriteCommand with
    | true =>
        obtain ⟨frame, store, next, executed, ended, done⟩ :=
          Replication.Sound.executeWithAdmission sound
            ⟨localCommand_of_here client.nonempty write routed, client.free⟩
            (repeats.write write) repeats.evictions call.clock call.choices
            call.link
        rw [execute_write call routed write executed]
        exact finish_completed ended fun _ => done
    | false =>
        rw [execute_read call routed write]
        refine finish_completed (read_ended sound write call.clock.exec) ?_
        intro isWrite
        rw [write] at isWrite
        cases isWrite
  · obtain ⟨frame, failed, executed⟩ := execute_elsewhere call routed
    rw [executed]
    exact .refused sound failed

end OneCall

/-! ### A cluster of two nodes with one slot -/

def twoPeerConfig : ClusterConfig :=
  { id := "demo", enabled := true, replicationEnabled := true, slotCount := 1
    peers :=
      [⟨"node-1", "127.0.0.1:7001", "127.0.0.1:8001"⟩,
        ⟨"node-2", "127.0.0.1:7002", "127.0.0.1:8002"⟩] }

theorem paired_twoPeerConfig :
    Paired (newMetadata twoPeerConfig "node-1")
      (newMetadata twoPeerConfig "node-2") := by
  refine ⟨by decide, rfl, fun slot owner present _ => ?_⟩
  match slot with
  | 0 =>
      obtain rfl := Option.some.inj present
      exact ⟨rfl, rfl, _, rfl, rfl, rfl, rfl⟩
  | slot + 1 => cases present

def emptyPair : Pair :=
  boot twoPeerConfig "node-1" "node-2"
    { store := .new 1, limitBytes := 0, policy := .noEviction }

theorem fresh_emptyPair : emptyPair.Fresh :=
  fresh_boot paired_twoPeerConfig
    fun key item found => by rw [Store.dataset_new] at found; cases found

/-- A `SET` at a given time over a link that treats all records alike. -/
def setCall (time : Int) (delivery : Delivery) (key data : String) : ClientCall :=
  { cmd := .make .set [.ascii key, .ascii data]
    clock := { plan := fun _ => time, sample := fun _ => time
               exec := fun _ => time }
    choices := fun _ => .canonical
    link := fun _ => delivery }

theorem clientCommand_setCall {time : Int} {delivery : Delivery}
    {key data : String} (nonempty : Bytes.ascii key ≠ []) :
    ClientCommand (setCall time delivery key data).cmd := by
  refine ⟨⟨(nomatch ·), fun _ option member => nomatch member⟩, ?_⟩
  intro other member
  rw [List.mem_singleton.mp member]
  exact nonempty

end Pair
end MnemoKV
