import MnemoKV.AdmissionBounds
import MnemoKV.ReplicaPairOutcomes
import MnemoKV.StripeIndependence

/-!
# A cluster against a standalone engine

Over a reliable link and without a memory limit, a leader answers a command as a
standalone engine with the same entries would, unless the command is sent to the
replica and the replica refuses it.  Its parser refuses a record that is too
large, although the command was not; its executor answers with an error.  The
planner only looks at the growing commands first, so it is the errors of
`EXPIRE`, `LPOP` and `RPOP` that come back as replication failures.
-/

namespace MnemoKV

/-! ### Executions at different readings -/

/-- Two readings on the same side of every deadline overflow. -/
def SameRange (first second lifetime : Int) : Prop :=
  first ≤ maxInt64 - lifetime ↔ second ≤ maxInt64 - lifetime

theorem expirationFromNow_isSome {value unitNanos first second : Int}
    (same : SameRange first second (value * unitNanos)) :
    (expirationFromNow value unitNanos first).isSome =
      (expirationFromNow value unitNanos second).isSome := by
  unfold SameRange at same
  unfold expirationFromNow
  split_ifs with invalid late late' late'
  · rfl
  · rfl
  · omega
  · omega
  · rfl

theorem parseExpiry_isOk {amount : Bytes} {unitNanos first second deadline : Int}
    (same : ∀ value, parseInt64 amount = some value →
      SameRange first second (value * unitNanos))
    (parsed : parseExpiry amount unitNanos first = .ok deadline) :
    ∃ deadline', parseExpiry amount unitNanos second = .ok deadline' := by
  unfold parseExpiry at parsed ⊢
  cases number : parseInt64 amount with
  | none =>
      rw [number] at parsed
      cases parsed
  | some value =>
      rw [number] at parsed
      have alike := expirationFromNow_isSome (same value number)
      dsimp only at parsed ⊢
      cases found : expirationFromNow value unitNanos second with
      | some deadline' => exact ⟨deadline', rfl⟩
      | none =>
          rw [found, Option.isSome_none, Option.isSome_eq_false_iff,
            Option.isNone_iff_eq_none] at alike
          rw [alike] at parsed
          cases parsed

theorem parseSetOptionsFrom_isOk {first second : Int} {args : List Bytes}
    (same : ∀ lifetime ∈ setLifetimes args, SameRange first second lifetime)
    {options options' result : SetOptions} {expiring : Bool}
    (condition : options.condition = options'.condition)
    (parsed : parseSetOptionsFrom first options expiring args = .ok result) :
    ∃ result', parseSetOptionsFrom second options' expiring args = .ok result' := by
  fun_induction parseSetOptionsFrom first options expiring args
    generalizing options' with
  | case1 => exact ⟨options', rfl⟩
  | case2 => cases parsed
  | case3 => cases parsed
  | case4 => cases parsed
  | case5 options expiring option expiry amount rest fresh deadline found
      induction =>
      unfold setLifetimes at same
      rw [if_pos expiry] at same
      obtain ⟨deadline', found'⟩ := parseExpiry_isOk (fun value number =>
        same _ (List.mem_append_left _ (by rw [number]; simp))) found
      unfold parseSetOptionsFrom
      rw [if_pos expiry]
      dsimp only
      rw [if_neg fresh, found']
      exact induction (fun lifetime member =>
        same lifetime (List.mem_append_right _ member)) condition parsed
  | case6 => cases parsed
  | case7 options expiring option rest plain missing open_ induction =>
      unfold setLifetimes at same
      rw [if_neg plain] at same
      unfold parseSetOptionsFrom
      rw [if_neg plain, if_pos missing, if_neg (condition ▸ open_)]
      exact induction same rfl parsed
  | case8 => cases parsed
  | case9 options expiring option rest plain notMissing present open_ induction =>
      unfold setLifetimes at same
      rw [if_neg plain] at same
      unfold parseSetOptionsFrom
      rw [if_neg plain, if_neg notMissing, if_pos present,
        if_neg (condition ▸ open_)]
      exact induction same rfl parsed
  | case10 => cases parsed

/-- Two executions of a command that see the same live items under its keys and
whose deadlines overflow together. -/
structure Command.Comparable (cmd : Command) (now now' : Readings)
    (dataset dataset' : Dataset) : Prop where
  seen : ∀ key ∈ cmd.extractKeys, ∀ index index',
    liveAt (now index) (dataset key) = liveAt (now' index') (dataset' key)
  ranges : ∀ lifetime ∈ cmd.lifetimes, SameRange (now 0) (now' 0) lifetime

namespace Command

variable [FloatText] {cmd : Command} {now now' : Readings}
  {dataset dataset' : Dataset}

/-- The writes that reach the hook before anything has looked at them. -/
def Unplanned (cmd : Command) : Prop :=
  cmd.verb = some .expire ∨ cmd.verb = some .lpop ∨ cmd.verb = some .rpop

omit [FloatText] in
theorem expireAction_isError {args : List Bytes}
    (same : ∀ lifetime ∈ expireLifetimes args, SameRange (now 0) (now' 0) lifetime) :
    ((expireAction now args).perform dataset).1.isError =
      ((expireAction now' args).perform dataset').1.isError := by
  rcases args with _ | ⟨key, _ | ⟨amount, _ | ⟨extra, rest⟩⟩⟩
  · rfl
  · rfl
  · unfold expireAction
    dsimp only
    cases number : parseInt64 amount with
    | none => rfl
    | some seconds =>
        have alike := expirationFromNow_isSome
          (same (seconds * 1000000000) (by simp [expireLifetimes, number]))
        have moved : ∀ deadline stored,
            (Effect.expireAt deadline stored).1.isError = false := by
          rintro deadline (_ | item) <;> rfl
        dsimp only
        split_ifs
        · rfl
        · cases first : expirationFromNow seconds 1000000000 (now 0) with
          | none =>
              cases second : expirationFromNow seconds 1000000000 (now' 0) with
              | none => rfl
              | some deadline => simp [first, second] at alike
          | some deadline =>
              cases second : expirationFromNow seconds 1000000000 (now' 0) with
              | none => simp [first, second] at alike
              | some deadline' => exact (moved _ _).trans (moved _ _).symm
  · rfl

omit [FloatText] in
theorem popAction_isError {left : Bool} {args : List Bytes}
    (seen : ∀ key ∈ args.take 1,
      liveAt (now 0) (dataset key) = liveAt (now' 0) (dataset' key)) :
    ((popAction left now args).perform dataset).1.isError =
      ((popAction left now' args).perform dataset').1.isError := by
  rcases args with _ | ⟨key, _ | ⟨extra, rest⟩⟩
  · rfl
  · have same := seen key List.mem_cons_self
    simp only [popAction, Action.perform, Effect.lookingAt, same]
  · rfl

/-- `EXPIRE`, `LPOP` and `RPOP` fail in both of two comparable executions or in
neither. -/
theorem Comparable.isError_eq (comparable : cmd.Comparable now now' dataset dataset')
    (unplanned : cmd.Unplanned) :
    ((cmd.action now).perform dataset).1.isError =
      ((cmd.action now').perform dataset').1.isError := by
  obtain ⟨seen, ranges⟩ := comparable
  unfold action
  unfold lifetimes at ranges
  unfold extractKeys at seen
  rcases unplanned with named | named | named
  · rw [named] at ranges ⊢
    exact expireAction_isError ranges
  · rw [named] at seen ⊢
    exact popAction_isError fun key member => seen key member 0 0
  · rw [named] at seen ⊢
    exact popAction_isError fun key member => seen key member 0 0

end Command

/-! ### Plans without an answer -/

namespace Command

variable [FloatText] {cmd : Command} {now now' : Readings}
  {dataset dataset' : Dataset}

/-- What a command asks for in a comparable execution, up to the deadline. -/
theorem Comparable.asks (comparable : cmd.Comparable now now' dataset dataset') {key : Bytes}
    {request : Growing} (asks : cmd.Asks now key request) :
    ∃ options, cmd.Asks now' key (request.withOptions options) := by
  rcases asks.again now' with
    again | ⟨data, rest, options, frame, named, given, parsed, failed⟩
  · exact again
  · have ranges := comparable.ranges
    simp only [lifetimes, named, given] at ranges
    obtain ⟨later, reparsed⟩ := parseSetOptionsFrom_isOk ranges rfl parsed
    cases failed.symm.trans reparsed

theorem del_succeeds (named : cmd.verb = some .del) (keyed : cmd.extractKeys ≠ []) :
    ((cmd.action now').perform dataset').1.isError = false := by
  simp only [extractKeys, named] at keyed
  have given : ¬ cmd.args.length < 1 := by
    have := List.length_pos_iff.mpr keyed
    omega
  simp only [action, named, delAction, if_neg given]
  rfl

/-- A write that planning lets through and that is none of the unplanned ones
does not fail in a comparable execution. -/
theorem Comparable.succeeds (comparable : cmd.Comparable now now' dataset dataset')
    (write : cmd.isWriteCommand = true) (kept : cmd.isFlush = false)
    (keyed : cmd.extractKeys ≠ []) (planned : ¬ cmd.Unplanned)
    (silent : (cmd.plan now dataset).response = none) :
    ((cmd.action now').perform dataset').1.isError = false := by
  rcases cmd.planned now with ⟨steady, -⟩ | ⟨-, -, onDataset⟩ | @⟨key, request, asks⟩
  · unfold isGrowing at steady
    unfold Unplanned at planned
    unfold isWriteCommand at write
    unfold isFlush at kept
    cases named : cmd.verb with
    | none => simp [named] at write
    | some verb =>
        rw [named] at steady planned write kept
        cases verb with
        | set | incr | lpush | rpush | zadd => cases steady
        | del => exact del_succeeds named keyed
        | expire => exact absurd (.inl rfl) planned
        | lpop => exact absurd (.inr (.inl rfl)) planned
        | rpop => exact absurd (.inr (.inr rfl)) planned
        | flushdb | flushall => cases kept
        | _ => cases write
  · rw [onDataset] at silent
    cases silent
  · obtain ⟨options, asks'⟩ := comparable.asks asks
    obtain ⟨keys, -, onDataset, -⟩ := asks.spec
    rw [onDataset, comparable.seen key (keys ▸ List.mem_cons_self) _
      (request.withOptions options).index] at silent
    rw [asks'.spec.2.2.2]
    exact request.succeeds silent options

end Command

/-! ### Writes without a memory limit -/

/-- The frame of a write by its plan; `committed` is the frame once nothing
stands in the way of the hook. -/
def AdmissionPlan.answerOr (plan : AdmissionPlan) (committed : Frame) : Frame :=
  plan.response.getD committed

theorem Engine.answer_frame [FloatText] {engine : Engine}
    (unlimited : engine.limitBytes = 0) (clock : WriteClock)
    (choices : Nat → Choices) {cmd : Command} (write : cmd.isWriteCommand = true) :
    (engine.answer clock choices cmd).1 =
      (cmd.plan clock.plan engine.store.dataset).answerOr
        (Executor.execute clock.exec cmd
          (engine.store.planAdmission clock.plan cmd).2).1 := by
  rw [answer_unlimited unlimited, if_pos write,
    ← (engine.store.planAdmission_spec clock.plan cmd).1]
  unfold AdmissionPlan.answerOr
  dsimp only
  cases (engine.store.planAdmission clock.plan cmd).1.response <;> rfl

theorem Engine.hooked_frame [FloatText] {σ : Type} {hook : WriteHook σ}
    (synchronous : hook.synchronous = true) {engine : Engine}
    (unlimited : engine.limitBytes = 0) (clock : WriteClock)
    (choices : Nat → Choices) {cmd : Command} (write : cmd.isWriteCommand = true)
    (state : σ) :
    (engine.execute (some hook) clock choices cmd state).1 =
      (cmd.plan clock.plan engine.store.dataset).answerOr
        (match (hook.run cmd state).1 with
          | .error text => replicationFailed text
          | .ok () => (Executor.execute clock.exec cmd
              (engine.store.planAdmission clock.plan cmd).2).1) := by
  rw [← (engine.store.planAdmission_spec clock.plan cmd).1]
  unfold execute executeWithAdmission AdmissionPlan.answerOr
  rw [if_pos write]
  obtain ⟨plan, store⟩ := engine.store.planAdmission clock.plan cmd
  have room : (engine.withStore store).limitBytes = 0 := unlimited
  dsimp only
  cases plan.response with
  | some frame => rfl
  | none =>
      dsimp only
      rw [ensureRoom_unlimited room]
      simp only [commit, WriteHook.before, synchronous, if_true]
      obtain ⟨result, next⟩ := hook.run cmd state
      cases result <;> rfl

/-! ### Errors and failures of replication -/

theorem ne_replicationFailed {code message : Bytes} (text : String)
    (other : message.head? ≠ some 114) :
    Frame.error code message ≠ replicationFailed text := by
  intro same
  simp only [replicationFailed, Frame.error.injEq] at same
  rw [same.2, Bytes.ascii, String.toList_append, List.map_append] at other
  exact other rfl

namespace Command

variable {cmd : Command}

theorem expireAction_ne (now : Readings) (args : List Bytes) (dataset : Dataset)
    (text : String) :
    ((expireAction now args).perform dataset).1 ≠ replicationFailed text := by
  unfold expireAction
  split
  · split
    · exact ne_replicationFailed text (by decide)
    · split_ifs
      · exact Frame.noConfusion
      · split
        · exact ne_replicationFailed text (by decide)
        · simp only [Action.perform, Effect.lookingAt]
          cases liveAt (now 1) (dataset _) <;> exact Frame.noConfusion
  · exact ne_replicationFailed text (by decide)

theorem popAction_ne (left : Bool) (now : Readings) (args : List Bytes)
    (dataset : Dataset) (text : String) :
    ((popAction left now args).perform dataset).1 ≠ replicationFailed text := by
  unfold popAction
  split
  · simp only [Action.perform, Effect.lookingAt, Effect.pop]
    split
    · split
      · split <;> exact Frame.noConfusion
      · exact ne_replicationFailed text (by decide)
    · exact Frame.noConfusion
  · cases left <;> exact ne_replicationFailed text (by decide)

/-- The executor never answers as a failed replication does. -/
theorem Unplanned.ne_replicationFailed [FloatText] (unplanned : cmd.Unplanned)
    (now : Readings) (dataset : Dataset) (text : String) :
    ((cmd.action now).perform dataset).1 ≠ replicationFailed text := by
  unfold action
  rcases unplanned with named | named | named
  · rw [named]
    exact expireAction_ne now cmd.args dataset text
  · rw [named]
    exact popAction_ne true now cmd.args dataset text
  · rw [named]
    exact popAction_ne false now cmd.args dataset text

end Command

/-! ### The leader and a standalone engine -/

/-- A moment that some reading shows while the command is planned and executed
on the leader and on the replica. -/
def ClientCall.Reads (call : ClientCall) (moment : Int) : Prop :=
  call.clock.plan.At moment ∨ call.clock.exec.At moment ∨
    ∃ now : Readings, call.link 0 = .answered now ∧ now.At moment

namespace Pair

open Replication

/-- The node itself has to execute the command: it is admitted, and leads the
slot of all keys. -/
structure Serves (pair : Pair) (cmd : Command) (slot : Nat) : Prop where
  admitted : pair.leader.admitted = true
  named : pair.leader.id ≠ ""
  leads : pair.leader.metadata.Leads slot
  keys : cmd.KeysIn fun key => pair.leader.metadata.slotForKey key = slot
  data : ∀ verb ∈ cmd.verb, verb ∉ [Verb.flushdb, .flushall, .replicate,
    .clusterMeta, .clusterApply, .clusterSnapshot]

/-- No lifetime ends while the command runs: the items under its keys stay
expired or unexpired, and new deadlines stay within the range of the clock. -/
structure Quiet (pair : Pair) (call : ClientCall) : Prop where
  lasting : ∀ key ∈ call.cmd.extractKeys, ∀ item,
    pair.leader.dataset key = some item → ∀ first second,
      call.Reads first → call.Reads second →
        item.isExpired first = item.isExpired second
  ranges : ∀ lifetime ∈ call.cmd.lifetimes, ∀ first second,
    call.Reads first → call.Reads second → SameRange first second lifetime

/-- The write is left to the executors, and the replica refuses its record: the
parser does not take it, or the executor, which nobody has planned for, fails.
A replica that takes the record for a duplicate executes nothing. -/
structure Refused [FloatText] (pair : Pair) (call : ClientCall) (slot : Nat)
    (standalone : Frame) : Prop where
  write : call.cmd.isWriteCommand = true
  keyed : call.cmd.extractPrimaryKey ≠ []
  silent : (call.cmd.plan call.clock.plan pair.leader.dataset).response = none
  reason : ¬ (pair.replication.nextRecord slot call.cmd).Sendable ∨
    pair.replication.Unspent slot ∧ call.cmd.Unplanned ∧
      standalone.isError = true

variable {pair : Pair} {call : ClientCall} {slot : Nat}

theorem inStep_item {key : Bytes}
    (inStep : InStep pair.leader.engine.store pair.replication slot)
    (here : pair.leader.metadata.slotForKey key = slot) :
    pair.replica.dataset key = pair.leader.dataset key := by
  have same := congrFun inStep.datasets key
  have leader : pair.replication.part slot pair.leader.engine.store.dataset key =
      pair.leader.dataset key := if_pos here
  have replica : pair.replication.part slot pair.replication.replica.dataset key =
      pair.replica.dataset key := if_pos here
  rw [← leader, same, replica]

theorem Serves.routed {cmd : Command} (serves : pair.Serves cmd slot) :
    pair.leader.route cmd = .here := by
  obtain ⟨admitted, named, ⟨owner, present, leader⟩, keys, data⟩ := serves
  obtain ⟨row, here, rfl⟩ := Option.map_eq_some_iff.mp present
  have byLocal : row.leaderID = pair.leader.id := leader
  unfold Node.route
  split
  · rename_i found
    exact absurd (by decide) (data .replicate found)
  · rename_i found
    exact absurd (by decide) (data .clusterMeta found)
  · rename_i found
    exact absurd (by decide) (data .clusterApply found)
  · rename_i found
    exact absurd (by decide) (data .clusterSnapshot found)
  · rename_i found
    exact absurd (by decide) (data .flushdb found)
  · rename_i found
    exact absurd (by decide) (data .flushall found)
  · simp only [admitted, Bool.not_true, Bool.false_eq_true, if_false]
    split
    · rfl
    · rename_i key rest listed
      have same : ∀ other ∈ key :: rest,
          pair.leader.metadata.slotForKey other = slot := by
        rw [← listed]
        exact keys
      have together : (rest.any fun other => decide
          (pair.leader.metadata.slotForKey other ≠ slot)) = false := by
        rw [List.any_eq_false]
        intro other member
        simp [same other (List.mem_cons_of_mem _ member)]
      simp only [same key List.mem_cons_self, together, Bool.false_eq_true,
        if_false, here, byLocal, if_neg named, ne_eq, not_true]

theorem Quiet.live (quiet : pair.Quiet call) {key : Bytes}
    (listed : key ∈ call.cmd.extractKeys) {first second : Int}
    (earlier : call.Reads first) (later : call.Reads second) :
    liveAt first (pair.leader.dataset key) =
      liveAt second (pair.leader.dataset key) := by
  cases stored : pair.leader.dataset key with
  | none => rfl
  | some item =>
      rw [liveAt_some, liveAt_some,
        quiet.lasting key listed item stored first second earlier later]

/-- Dropping what has lapsed by one of the readings changes nothing. -/
theorem Quiet.live_of_lapsed (quiet : pair.Quiet call) {planned : Dataset}
    (lapsed : Lapsed call.clock.plan.At pair.leader.dataset planned) {key : Bytes}
    (listed : key ∈ call.cmd.extractKeys) {first second : Int}
    (earlier : call.Reads first) (later : call.Reads second) :
    liveAt first (planned key) = liveAt second (pair.leader.dataset key) := by
  rcases lapsed key with same | ⟨moment, planning, same⟩
  · rw [same]
    exact quiet.live listed earlier later
  · have alike := quiet.live listed (.inl planning) later
    rw [same]
    rcases liveAt_cases moment (pair.leader.dataset key) with kept | dropped
    · rw [kept]
      exact quiet.live listed earlier later
    · rw [dropped, ← alike, dropped]
      rfl

theorem Quiet.comparable (quiet : pair.Quiet call)
    (keys : call.cmd.KeysIn fun key => pair.leader.metadata.slotForKey key = slot)
    (inStep : InStep pair.leader.engine.store pair.replication slot)
    {own : Readings} (owned : ∀ index, call.Reads (own index)) {planned : Dataset}
    (lapsed : Lapsed call.clock.plan.At pair.leader.dataset planned)
    {now : Readings} (fate : call.link 0 = .answered now) :
    call.cmd.Comparable own now planned pair.replica.dataset := by
  have reads : ∀ index, call.Reads (now index) :=
    fun index => .inr (.inr ⟨now, fate, index, rfl⟩)
  refine ⟨fun key listed index index' => ?_, fun lifetime listed =>
    quiet.ranges lifetime listed _ _ (owned 0) (reads 0)⟩
  rw [inStep_item inStep (keys key listed)]
  exact quiet.live_of_lapsed lapsed listed (owned index) (reads index')

/-- Planning and execution on the leader itself. -/
theorem Quiet.planned (quiet : pair.Quiet call) {planned : Dataset}
    (lapsed : Lapsed call.clock.plan.At pair.leader.dataset planned) :
    call.cmd.Comparable call.clock.plan call.clock.exec pair.leader.dataset
      planned := by
  have plans : ∀ index, call.Reads (call.clock.plan index) :=
    fun index => .inl ⟨index, rfl⟩
  have execs : ∀ index, call.Reads (call.clock.exec index) :=
    fun index => .inr (.inl ⟨index, rfl⟩)
  exact ⟨fun key listed index index' =>
    (quiet.live_of_lapsed lapsed listed (execs index') (plans index)).symm,
    fun lifetime listed => quiet.ranges lifetime listed _ _ (plans 0) (execs 0)⟩

variable [FloatText]

/-- Over a reliable link the hook refuses a keyed write of an in-step slot
exactly if the replica's parser does, or its executor fails. -/
theorem replicate_reliable (paired : Paired pair.leader.metadata pair.replica.metadata)
    (leads : pair.leader.metadata.Leads slot)
    (inStep : InStep pair.leader.engine.store pair.replication slot)
    (keyed : call.cmd.extractPrimaryKey ≠ [])
    (routed : pair.leader.metadata.slotForKey call.cmd.extractPrimaryKey = slot)
    {now : Readings} (fate : call.link 0 = .answered now) :
    let refused := ¬ (pair.replication.nextRecord slot call.cmd).Sendable ∨
      pair.replication.Unspent slot ∧
        ((call.cmd.action now).perform pair.replica.dataset).1.isError = true
    (refused ∧
        ∃ text, ((hook call.link).run call.cmd pair.replication).1 = .error text) ∨
      ¬ refused ∧ ((hook call.link).run call.cmd pair.replication).1 = .ok () := by
  obtain ⟨row, copy, rows⟩ : ∃ row copy, pair.replication.SlotPair slot row copy :=
    exists_slotPair paired leads
  have only : ∀ delivery, call.link 0 = delivery → delivery = .answered now :=
    fun delivery same => same.symm.trans fate
  by_cases small : (pair.replication.nextRecord slot call.cmd).Sendable
  case neg =>
    obtain ⟨text, refused⟩ := transmit_of_not_sendable small (call.link 0)
      row.replicaID call.cmd { pair.replication with sent := 1 }
    exact .inl ⟨.inl small, text, congrArg Prod.fst
      ((rows.replicate_eq call.link keyed routed).trans refused)⟩
  have found : (∃ reason, call.link 0 = .undelivered reason) ∨
      ¬ (pair.replication.nextRecord slot call.cmd).Sendable → False := by
    rintro (⟨reason, sent⟩ | large)
    · cases only _ sent
    · exact large small
  by_cases unspent : pair.replication.Unspent slot
  · obtain ⟨after, result, replicated, outcome⟩ :=
      rows.replicate_outcome inStep.counters unspent call.link keyed routed
    have ran : ((hook call.link).run call.cmd pair.replication).1 = result :=
      congrArg Prod.fst replicated
    rw [ran]
    cases outcome with
    | lost sent => exact (found sent).elim
    | unacknowledged sent => cases only _ sent
    | refused sent failed =>
        rcases sent with sent | ⟨reason, sent⟩
        · cases only _ sent
          exact .inl ⟨.inr ⟨unspent, failed⟩, _, rfl⟩
        · cases only _ sent
    | acknowledged sent succeeded =>
        cases only _ sent
        refine .inr ⟨?_, rfl⟩
        rintro (large | ⟨-, failed⟩)
        · exact large small
        · exact Bool.false_ne_true (succeeded.symm.trans failed)
  · have bound := nextSequence_lt (pair.replication.metadata.sequence slot)
    obtain ⟨after, result, replicated, -, outcome⟩ := rows.replicate_repeat
      (by unfold Unspent at unspent; omega) call.link keyed routed
    have ran : ((hook call.link).run call.cmd pair.replication).1 = result :=
      congrArg Prod.fst replicated
    rw [ran]
    cases outcome with
    | lost sent => exact (found sent).elim
    | unacknowledged sent => cases only _ sent
    | acknowledged =>
        refine .inr ⟨?_, rfl⟩
        rintro (large | ⟨later, -⟩)
        · exact large small
        · exact unspent later

theorem execute_frame (serves : pair.Serves call.cmd slot) :
    (pair.execute call).1 = (pair.leader.engine.execute (some (hook call.link))
      call.clock call.choices call.cmd pair.replication).1 := by
  simp only [execute, serves.routed]

/-- A keyed write that its plan leaves to the executor: the replica comes first,
and its executor fails exactly if the command is one of the unplanned ones and
the leader's executor would fail too. -/
theorem replicate_quiet (paired : Paired pair.leader.metadata pair.replica.metadata)
    (serves : pair.Serves call.cmd slot)
    (inStep : InStep pair.leader.engine.store pair.replication slot)
    (reliable : ∀ index, ∃ now, call.link index = .answered now)
    (quiet : pair.Quiet call) (write : call.cmd.isWriteCommand = true)
    (keyed : call.cmd.extractPrimaryKey ≠ [])
    (silent : (call.cmd.plan call.clock.plan pair.leader.dataset).response = none)
    {standalone : Frame} (executed : standalone =
      (Executor.execute call.clock.exec call.cmd
        (pair.leader.engine.store.planAdmission call.clock.plan call.cmd).2).1) :
    (pair.Refused call slot standalone ∧
        ∃ text, ((hook call.link).run call.cmd pair.replication).1 = .error text ∧
          standalone ≠ replicationFailed text) ∨
      ¬ pair.Refused call slot standalone ∧
        ((hook call.link).run call.cmd pair.replication).1 = .ok () := by
  obtain ⟨now, fate⟩ := reliable 0
  have primary := call.cmd.extractPrimaryKey_mem keyed
  have kept := (Node.route_here serves.routed).1
  have replied := replicate_reliable paired serves.leads inStep keyed
    (serves.keys _ primary) fate
  have lapsed :=
    (pair.leader.engine.store.planAdmission_spec call.clock.plan call.cmd).2
  by_cases unplanned : call.cmd.Unplanned
  · have same := (quiet.comparable serves.keys inStep
      (fun index => .inr (.inl ⟨index, rfl⟩)) lapsed fate).isError_eq unplanned
    rw [← Executor.frame_execute] at same
    have failing : standalone.isError =
        ((call.cmd.action now).perform pair.replica.dataset).1.isError := by
      rw [executed]
      exact same
    rw [← failing] at replied
    rcases replied with ⟨reason, text, refused⟩ | ⟨passes, accepted⟩
    · refine .inl ⟨⟨write, keyed, silent, reason.imp_right fun failed =>
        ⟨failed.1, unplanned, failed.2⟩⟩, text, refused, ?_⟩
      rw [executed, Executor.frame_execute]
      exact unplanned.ne_replicationFailed _ _ text
    · exact .inr ⟨fun fails => passes (fails.reason.imp_right fun failed =>
        ⟨failed.1, failed.2.2⟩), accepted⟩
  · have names := List.ne_nil_of_mem primary
    have succeeds := (quiet.comparable serves.keys inStep (fun index => .inl ⟨index, rfl⟩)
      (.refl _ _) fate).succeeds write kept names unplanned silent
    have alone : standalone.isError = false := by
      rw [executed, Executor.frame_execute]
      exact (quiet.planned lapsed).succeeds write kept names unplanned silent
    rcases replied with ⟨large | ⟨-, failed⟩, text, refused⟩ | ⟨passes, accepted⟩
    · refine .inl ⟨⟨write, keyed, silent, .inl large⟩, text, refused, ?_⟩
      rintro rfl
      cases alone
    · rw [succeeds] at failed
      cases failed
    · exact .inr ⟨fun fails => passes (fails.reason.imp_right fun failed =>
        absurd failed.2.1 unplanned), accepted⟩

/-- Either the leader answers as its own engine without a hook does, or the
replica refuses the write and the client sees a failed replication. -/
theorem answers_like_own_engine
    (paired : Paired pair.leader.metadata pair.replica.metadata)
    (serves : pair.Serves call.cmd slot)
    (inStep : InStep pair.leader.engine.store pair.replication slot)
    (reliable : ∀ index, ∃ now, call.link index = .answered now)
    (unlimited : pair.leader.engine.limitBytes = 0) (quiet : pair.Quiet call)
    {standalone : Frame} (answered :
      standalone = (pair.leader.engine.answer call.clock call.choices call.cmd).1) :
    (¬ pair.Refused call slot standalone ∧ (pair.execute call).1 = standalone) ∨
      pair.Refused call slot standalone ∧
        ∃ text, (pair.execute call).1 = replicationFailed text ∧
          standalone ≠ replicationFailed text := by
  rw [execute_frame serves]
  cases write : call.cmd.isWriteCommand with
  | false =>
      refine .inl ⟨fun fails => ?_, ?_⟩
      · have writes := fails.write
        rw [write] at writes
        cases writes
      · rw [answered, Engine.answer_unlimited unlimited, write]
        simp [Engine.execute, write, Engine.applyReplicated]
  | true =>
      rw [Engine.answer_frame unlimited call.clock call.choices write] at answered
      rw [Engine.hooked_frame rfl unlimited call.clock call.choices write]
      unfold AdmissionPlan.answerOr at answered ⊢
      cases planned : (call.cmd.plan call.clock.plan
          pair.leader.engine.store.dataset).response with
      | some frame =>
          rw [planned] at answered
          refine .inl ⟨fun fails => ?_, answered.symm⟩
          cases planned.symm.trans fails.silent
      | none =>
          rw [planned, Option.getD_none] at answered
          rw [Option.getD_none, ← answered]
          by_cases keyed : call.cmd.extractPrimaryKey = []
          · -- `Replicate` takes the empty key for a command without keys
            have skipped : ((hook call.link).run call.cmd pair.replication).1 =
                .ok () := by
              simp [hook, replicate, keyed]
            rw [skipped]
            exact .inl ⟨fun fails => fails.keyed keyed, rfl⟩
          · rcases replicate_quiet paired serves inStep reliable quiet write keyed
              planned answered with
              ⟨fails, text, refused, distinct⟩ | ⟨passes, accepted⟩
            · rw [refused]
              exact .inr ⟨fails, text, rfl, distinct⟩
            · rw [accepted]
              exact .inl ⟨passes, rfl⟩

end Pair

/-- The leader of an in-step slot answers, over a reliable link and without a
memory limit, as a standalone engine with the same entries does, exactly unless
the replica refuses the record of the command.  Then the client sees a failed
replication instead. -/
theorem Pair.answers_like_standalone [FloatText] (pair : Pair) (call : ClientCall)
    (slot : Nat) (paired : Paired pair.leader.metadata pair.replica.metadata)
    (serves : pair.Serves call.cmd slot)
    (inStep : Replication.InStep pair.leader.engine.store pair.replication slot)
    (reliable : ∀ index, ∃ now, call.link index = .answered now)
    (unlimited : pair.leader.engine.limitBytes = 0) (quiet : pair.Quiet call)
    (standalone : Engine) (free : standalone.limitBytes = 0)
    (alike : pair.leader.engine.store.Alike standalone.store)
    (choices : Nat → Choices) :
    let frame := (standalone.answer call.clock choices call.cmd).1
    ((pair.execute call).1 = frame ↔ ¬ pair.Refused call slot frame) ∧
      (pair.Refused call slot frame →
        ∃ text, (pair.execute call).1 = replicationFailed text) := by
  intro frame
  have same : frame =
      (pair.leader.engine.answer call.clock call.choices call.cmd).1 :=
    (Engine.answer_alike unlimited free alike call.clock call.choices choices
      call.cmd).1.symm
  rcases answers_like_own_engine paired serves inStep reliable unlimited quiet same
    with ⟨passes, equal⟩ | ⟨fails, text, failed, distinct⟩
  · exact ⟨⟨fun _ => passes, fun _ => equal⟩, fun fails => absurd fails passes⟩
  · refine ⟨⟨fun equal => ?_, fun passes => absurd fails passes⟩,
      fun _ => ⟨text, failed⟩⟩
    exact absurd (equal.symm.trans failed) distinct

section Examples

attribute [local instance] FloatText.rejecting

namespace Pair

/-- A pair whose nodes hold a string. -/
def stringPair : Pair :=
  boot twoPeerConfig "node-1" "node-2"
    { store := (Store.new 1).insertNew (.ascii "k") (.string (.ascii "x")) 0
      limitBytes := 0, policy := .noEviction }

/-- A command at time one over a link that delivers everything. -/
def promptCall (verb : Verb) (args : List Bytes) : ClientCall :=
  { cmd := .make verb args, clock := .still 1, choices := fun _ => .canonical
    link := fun _ => .answered fun _ => 1 }

theorem reads_promptCall {verb : Verb} {args : List Bytes} {moment : Int}
    (read : (promptCall verb args).Reads moment) : moment = 1 := by
  rcases read with ⟨_, shown⟩ | ⟨_, shown⟩ | ⟨now, sent, _, shown⟩
  · exact shown.symm
  · exact shown.symm
  · cases sent
    exact shown.symm

theorem quiet_promptCall (pair : Pair) (verb : Verb) (args : List Bytes) :
    pair.Quiet (promptCall verb args) := by
  refine ⟨fun _ _ item _ first second earlier later => ?_,
    fun _ _ first second earlier later => ?_⟩
  · rw [reads_promptCall earlier, reads_promptCall later]
  · rw [reads_promptCall earlier, reads_promptCall later]
    exact Iff.rfl

theorem serves_stringPair {verb : Verb} (args : List Bytes)
    (data : verb ∉ [Verb.flushdb, .flushall, .replicate, .clusterMeta,
      .clusterApply, .clusterSnapshot]) :
    stringPair.Serves (promptCall verb args).cmd 0 := by
  refine ⟨rfl, by decide, ⟨_, rfl, rfl⟩, fun key _ => Nat.mod_one _, ?_⟩
  intro other same
  obtain rfl := Option.some.inj ((Command.verb_make verb args).symm.trans same)
  exact data

theorem inStep_stringPair :
    Replication.InStep stringPair.leader.engine.store stringPair.replication 0 :=
  ⟨rfl, rfl⟩

/-- `LPOP` on a string is refused by the replica first. -/
theorem pop_of_a_string_fails_to_replicate :
    Paired stringPair.leader.metadata stringPair.replica.metadata ∧
    stringPair.Serves (promptCall .lpop [.ascii "k"]).cmd 0 ∧
    Replication.InStep stringPair.leader.engine.store stringPair.replication 0 ∧
    stringPair.Quiet (promptCall .lpop [.ascii "k"]) ∧
    (stringPair.leader.engine.answer (.still 1) (fun _ => .canonical)
      (promptCall .lpop [.ascii "k"]).cmd).1 = wrongTypeError ∧
    (stringPair.execute (promptCall .lpop [.ascii "k"])).1 = replicationFailed
      ("slot replica is unavailable or not synchronized: " ++
        "replica node-2 rejected record: ERR replicated command failed") :=
  ⟨paired_twoPeerConfig, serves_stringPair _ (by decide),
    inStep_stringPair, quiet_promptCall _ _ _, rfl, rfl⟩

/-- An error that planning finds comes back unchanged. -/
theorem push_to_a_string_answers_alike :
    (stringPair.execute (promptCall .lpush [.ascii "k", .ascii "v"])).1 =
      (stringPair.leader.engine.answer (.still 1) (fun _ => .canonical)
        (promptCall .lpush [.ascii "k", .ascii "v"]).cmd).1 := by
  refine (answers_like_standalone stringPair
    (promptCall .lpush [.ascii "k", .ascii "v"]) 0 paired_twoPeerConfig
    (serves_stringPair _ (by decide)) inStep_stringPair
    (fun _ => ⟨_, rfl⟩) rfl (quiet_promptCall _ _ _) stringPair.leader.engine rfl
    ⟨fun _ => rfl, rfl⟩ fun _ => .canonical).1.mpr fun fails => ?_
  cases fails.silent

end Pair
end Examples

end MnemoKV
