import MnemoKV.ControlFence
import MnemoKV.MetadataSequenceRuns

/-!
# Fenced topology requests

The handlers of the controller's requests ask the fence first.  A request that the
fence has seen is answered from the current table, without another attempt.  The
fence cannot tell whether the first attempt succeeded, so this answer is right
exactly if no request comes again that was registered and not carried out.
-/

namespace MnemoKV

open LabelledRuns

/-- The fenced operations of the administrative interface. -/
inductive AdminOperation
  | promote (slot : Nat)
  | assignReplica (slot : Nat) (nodeID : String)
  | syncReplica (slot : Nat) (nodeID : String)
  deriving DecidableEq

namespace AdminOperation

def slot : AdminOperation → Nat
  | promote slot | assignReplica slot _ | syncReplica slot _ => slot

/-- The body of the request passes the handler's own checks. -/
def wellFormed : AdminOperation → Bool
  | assignReplica _ nodeID => nodeID != ""
  | _ => true

/-- The call of the `Manager`.  What `SyncReplica` finds on the way is given. -/
def perform (metadata : Metadata) (synced : Except ClusterError Metadata) :
    AdminOperation → Except ClusterError Metadata
  | promote slot => metadata.promote slot
  | assignReplica slot nodeID => metadata.assignReplica slot nodeID
  | syncReplica _ _ => synced

end AdminOperation

/-- An authenticated request of the controller, which writes the same bytes whenever
it sends the same request. -/
structure AdminRequest where
  index : Nat
  operation : AdminOperation
  deriving DecidableEq

/-- `OperationDigest`. -/
class RequestDigest where
  digest : AdminRequest → Digest

/-- The node may stop between `Begin` and the end of the operation, or before it has
answered. -/
inductive OperationFate
  | answered
  | stopsBefore
  | stopsAfter
  deriving DecidableEq

/-- What the environment decides about one delivery. -/
structure DeliveryFate where
  write : WriteFate
  operation : OperationFate
  synced : Except ClusterError Metadata
  failedPeers : List String

/-- The responses of the fenced handlers. -/
inductive AdminAnswer
  | forbidden
  | invalidBody
  | refused (error : FenceError)
  | failed (error : ClusterError)
  | missingSlot
  | done (metadataVersion : Nat) (slot : SlotState) (failedPeers : List String)

def AdminAnswer.status : AdminAnswer → Nat
  | forbidden => 403
  | invalidBody => 400
  | refused .persistFailed => 500
  | refused _ => 409
  | failed _ => 400
  | missingSlot => 500
  | done _ _ _ => 200

/-- A node with its fence and its table. -/
structure AdminNode where
  fence : FenceNode
  metadata : Metadata

/-- What happens to such a node. -/
inductive AdminEvent
  | deliver (request : AdminRequest) (fate : DeliveryFate)
  /-- Whatever else changes the table. -/
  | change (metadata : Metadata)
  | stop
  | restart (metadata : Metadata)

/-- `writeClusterAdminResult`. -/
def writeClusterAdminResult (metadata : Metadata) (slot : Nat)
    (failedPeers : List String) : AdminAnswer :=
  match metadata.slot slot with
  | none => .missingSlot
  | some row => .done metadata.version row failedPeers

theorem status_writeClusterAdminResult (metadata : Metadata) (slot : Nat)
    (failedPeers : List String) :
    (writeClusterAdminResult metadata slot failedPeers).status = 200 ↔
      (metadata.slot slot).isSome := by
  unfold writeClusterAdminResult
  cases metadata.slot slot with
  | none => exact ⟨nofun, nofun⟩
  | some row => exact ⟨fun _ => rfl, fun _ => rfl⟩

namespace AdminNode

section Deliveries

variable [RequestDigest]

/-- What the fence says to a request. -/
def begun (node : AdminNode) (request : AdminRequest) (fate : DeliveryFate) :
    FenceNode × Option FenceAnswer :=
  node.fence.begin request.index (RequestDigest.digest request) fate.write

/-- `handleClusterPromote`, `handleClusterReplica` and `handleClusterSync`. -/
def deliver (node : AdminNode) (request : AdminRequest) (fate : DeliveryFate) :
    AdminNode × Option AdminAnswer :=
  if node.fence.memory = none then (node, none)
  else if request.index = 0 then (node, some .forbidden)
  else if request.operation.wellFormed = false then (node, some .invalidBody)
  else
    let (fence, answer) := node.begun request fate
    match answer with
    | none => ({ node with fence }, none)
    | some (.refused error) => ({ node with fence }, some (.refused error))
    | some (.accepted true) =>
        ({ node with fence },
          some (writeClusterAdminResult node.metadata request.operation.slot []))
    | some (.accepted false) =>
        match fate.operation with
        | .stopsBefore => ({ node with fence := fence.step .stop }, none)
        | .answered =>
            match request.operation.perform node.metadata fate.synced with
            | .error error => ({ node with fence }, some (.failed error))
            | .ok metadata =>
                ({ fence, metadata },
                  some (writeClusterAdminResult metadata request.operation.slot
                    fate.failedPeers))
        | .stopsAfter =>
            match request.operation.perform node.metadata fate.synced with
            | .error _ => ({ node with fence := fence.step .stop }, none)
            | .ok metadata => ({ fence := fence.step .stop, metadata }, none)

def step (node : AdminNode) : AdminEvent → AdminNode
  | .deliver request fate => (node.deliver request fate).1
  | .change metadata => { node with metadata }
  | .stop => { node with fence := node.fence.step .stop }
  | .restart metadata => { fence := node.fence.step .restart, metadata }

/-! ### What happens to a request -/

/-- The request passes the checks before the fence. -/
def Admitted (request : AdminRequest) : Prop :=
  request.index ≠ 0 ∧ request.operation.wellFormed = true

/-- A success that comes from the replay branch. -/
def Replayed (node : AdminNode) (request : AdminRequest) (fate : DeliveryFate) : Prop :=
  (node.begun request fate).2 = some (.accepted true) ∧
    ∃ answer, (node.deliver request fate).2 = some answer ∧ answer.status = 200

/-- The operation runs and returns no error. -/
def CarriedOut (node : AdminNode) (request : AdminRequest) (fate : DeliveryFate) : Prop :=
  Admitted request ∧ (node.begun request fate).2 = some (.accepted false) ∧
    fate.operation ≠ .stopsBefore ∧
    (request.operation.perform node.metadata fate.synced).isOk = true

/-- The index of the request is written to the file. -/
def Registered (node : AdminNode) (request : AdminRequest) (fate : DeliveryFate) : Prop :=
  Admitted request ∧ node.fence.persisted < (node.begun request fate).1.persisted

variable {node : AdminNode} {request : AdminRequest} {fate : DeliveryFate}

/-- What the file contains once a request is registered. -/
def entry (request : AdminRequest) : FenceState :=
  { controlIndex := request.index
    operationDigest := HexText.encode (RequestDigest.digest request).val }

theorem begun_spec (node : AdminNode) (request : AdminRequest) (fate : DeliveryFate) :
    FenceNode.Begun node.fence request.index (RequestDigest.digest request)
      (node.begun request fate).1 (node.begun request fate).2 :=
  node.fence.begun request.index (RequestDigest.digest request) fate.write

theorem deliver_of_not_admitted (rejected : ¬ Admitted request) :
    (node.deliver request fate).1 = node ∧
      ∀ answer, (node.deliver request fate).2 = some answer → answer.status ≠ 200 := by
  unfold deliver
  split_ifs with down zero malformed
  · exact ⟨rfl, nofun⟩
  · exact ⟨rfl, fun _ same => Option.some.inj same ▸ nofun⟩
  · exact ⟨rfl, fun _ same => Option.some.inj same ▸ nofun⟩
  · exact absurd ⟨zero, by simpa using malformed⟩ rejected

/-- After the checks the fence is as `Begin` left it, or its process has stopped. -/
theorem fence_deliver (node : AdminNode) (admitted : Admitted request) :
    (node.deliver request fate).1.fence = (node.begun request fate).1 ∨
      (node.deliver request fate).1.fence = (node.begun request fate).1.step .stop := by
  unfold deliver
  split_ifs with down zero malformed
  · left
    have spec := node.begun_spec request fate
    generalize (node.begun request fate).1 = after at spec ⊢
    generalize (node.begun request fate).2 = answered at spec
    cases spec with
    | down => rfl
    | refused => rfl
    | replayed => rfl
    | accepted runs => rw [down] at runs; cases runs
    | unwritten runs => rw [down] at runs; cases runs
    | unanswered runs => rw [down] at runs; cases runs
  · exact absurd zero admitted.1
  · exact absurd (malformed.symm.trans admitted.2) nofun
  · dsimp only
    split
    · exact .inl rfl
    · exact .inl rfl
    · exact .inl rfl
    · split
      · exact .inr rfl
      · split
        · exact .inl rfl
        · exact .inl rfl
      · split
        · exact .inr rfl
        · exact .inr rfl

theorem file_deliver (admitted : Admitted request) :
    (node.deliver request fate).1.fence.file = (node.begun request fate).1.file := by
  rcases node.fence_deliver admitted with same | stopped
  · rw [same]
  · rw [stopped]
    rfl

theorem inStep_step (inStep : node.fence.InStep) (event : AdminEvent) :
    (node.step event).fence.InStep := by
  cases event with
  | deliver request fate =>
      by_cases admitted : Admitted request
      · have begins : (node.begun request fate).1.InStep :=
          FenceNode.inStep_step inStep (.begin request.index _ fate.write)
        rcases node.fence_deliver admitted with same | stopped
        · rw [step, same]
          exact begins
        · rw [step, stopped]
          exact FenceNode.inStep_step begins .stop
      · rw [step, (deliver_of_not_admitted admitted).1]
        exact inStep
  | change metadata => exact inStep
  | stop => exact FenceNode.inStep_step inStep .stop
  | restart metadata => exact FenceNode.inStep_step inStep .restart

theorem file_deliver_cases (inStep : node.fence.InStep) (request : AdminRequest)
    (fate : DeliveryFate) :
    ¬ node.Registered request fate ∧
        (node.deliver request fate).1.fence.file = node.fence.file ∨
      node.Registered request fate ∧ node.fence.persisted < request.index ∧
        (node.deliver request fate).1.fence.file = some (entry request) := by
  by_cases admitted : Admitted request
  · rw [file_deliver admitted, Registered, and_iff_right admitted]
    have persistedIn : ∀ {state}, node.fence.memory = some state →
        node.fence.persisted = state.controlIndex :=
      fun runs => congrArg FenceState.controlIndex (inStep _ runs)
    have spec := node.begun_spec request fate
    generalize (node.begun request fate).1 = after at spec ⊢
    generalize (node.begun request fate).2 = answered at spec
    cases spec with
    | down => exact .inl ⟨Nat.lt_irrefl _, rfl⟩
    | refused => exact .inl ⟨Nat.lt_irrefl _, rfl⟩
    | replayed => exact .inl ⟨Nat.lt_irrefl _, rfl⟩
    | unwritten => exact .inl ⟨Nat.lt_irrefl _, rfl⟩
    | accepted runs newer =>
        have lower := (persistedIn runs).trans_lt newer
        exact .inr ⟨lower, lower, rfl⟩
    | unanswered runs newer =>
        have lower := (persistedIn runs).trans_lt newer
        exact .inr ⟨lower, lower, rfl⟩
  · refine .inl ⟨fun registered => admitted registered.1, ?_⟩
    rw [(deliver_of_not_admitted admitted).1]

theorem CarriedOut.registered (inStep : node.fence.InStep)
    (carried : node.CarriedOut request fate) : node.Registered request fate := by
  obtain ⟨admitted, accepted, -⟩ := carried
  refine ⟨admitted, ?_⟩
  have spec := node.begun_spec request fate
  rw [accepted] at spec
  generalize (node.begun request fate).1 = after at spec ⊢
  cases spec with
  | accepted runs newer =>
      exact (congrArg FenceState.controlIndex (inStep _ runs)).trans_lt newer

/-- A replay is answered from the current table. -/
theorem deliver_of_replay (admitted : Admitted request)
    (accepted : (node.begun request fate).2 = some (.accepted true)) :
    (node.deliver request fate).2 =
      some (writeClusterAdminResult node.metadata request.operation.slot []) := by
  have runs : node.fence.memory ≠ none := by
    intro down
    have spec := node.begun_spec request fate
    rw [accepted] at spec
    generalize (node.begun request fate).1 = after at spec
    cases spec with
    | replayed runs => rw [down] at runs; cases runs
  unfold deliver
  rw [if_neg runs, if_neg admitted.1, if_neg (by rw [admitted.2]; decide)]
  dsimp only
  rw [accepted]

theorem replayed_iff (inStep : node.fence.InStep) (request : AdminRequest)
    (fate : DeliveryFate) :
    node.Replayed request fate ↔
      Admitted request ∧ node.fence.memory ≠ none ∧
        (node.metadata.slot request.operation.slot).isSome ∧
        node.fence.file = some (entry request) := by
  constructor
  · rintro ⟨accepted, answer, answered, success⟩
    have admitted : Admitted request := by
      by_contra rejected
      exact (deliver_of_not_admitted rejected).2 answer answered success
    rw [deliver_of_replay admitted accepted] at answered
    obtain rfl := Option.some.inj answered
    have present := (status_writeClusterAdminResult ..).mp success
    have spec := node.begun_spec request fate
    rw [accepted] at spec
    generalize (node.begun request fate).1 = after at spec
    cases spec with
    | @replayed state runs current same =>
        refine ⟨admitted, by rw [runs]; exact nofun, present, ?_⟩
        have stored := inStep state runs
        have written : state = entry request := by
          rw [entry, current, same]
        cases file : node.fence.file with
        | none =>
            -- The zero state is in no file, and no request has its index.
            rw [file] at stored
            exact absurd (current.trans (congrArg FenceState.controlIndex stored).symm)
              admitted.1
        | some known =>
            rw [file] at stored
            exact congrArg some (Eq.trans stored written)
  · rintro ⟨admitted, runs, present, file⟩
    obtain ⟨state, memory⟩ := Option.ne_none_iff_exists'.mp runs
    have stored := inStep state memory
    rw [file] at stored
    obtain rfl : entry request = state := stored
    have accepted : (node.begun request fate).2 = some (.accepted true) :=
      congrArg Prod.snd (FenceNode.begin_of_current memory admitted.1 rfl rfl)
    exact ⟨accepted, _, deliver_of_replay admitted accepted,
      (status_writeClusterAdminResult ..).mpr present⟩

/-! ### Whole runs -/

section Runs

variable (metadata : Metadata) (events : List AdminEvent)

/-- The node at a position of a run that starts with an empty directory. -/
abbrev nodeAt (position : Nat) : AdminNode :=
  stateAt step ⟨⟨none, none⟩, metadata⟩ events position

variable {metadata events}

theorem inStep_nodeAt (metadata : Metadata) {position : Nat} (bounded : position ≤ events.length) :
    (nodeAt metadata events position).fence.InStep :=
  stateAt_induction step ⟨⟨none, none⟩, metadata⟩ events (fun node => node.fence.InStep)
    (fun _ runs => nomatch runs) (fun _ _ inStep => inStep_step inStep _) bounded

theorem file_succ (metadata : Metadata) {position : Nat} (inRange : position < events.length) :
    (nodeAt metadata events (position + 1)).fence.file =
        (nodeAt metadata events position).fence.file ∧
      (∀ request fate, events[position] = .deliver request fate →
        ¬ (nodeAt metadata events position).Registered request fate) ∨
    ∃ request fate, events[position] = .deliver request fate ∧
      (nodeAt metadata events position).Registered request fate ∧
      (nodeAt metadata events position).fence.persisted < request.index ∧
      (nodeAt metadata events (position + 1)).fence.file = some (entry request) := by
  have inStep := inStep_nodeAt metadata inRange.le
  rw [nodeAt, stateAt_succ step _ events inRange]
  cases event : events[position] with
  | deliver request fate =>
      rcases file_deliver_cases inStep request fate with ⟨unregistered, same⟩ | registered
      · refine .inl ⟨same, ?_⟩
        rintro _ _ ⟨⟩
        exact unregistered
      · exact .inr ⟨request, fate, rfl, registered⟩
  | change | stop | restart => exact .inl ⟨rfl, fun _ _ other => by cases other⟩

theorem exists_registered {position : Nat} (bounded : position ≤ events.length)
    {state : FenceState}
    (file : (nodeAt metadata events position).fence.file = some state) :
    ∃ earlier, ∃ before : earlier < position, ∃ request fate,
      events[earlier] = .deliver request fate ∧
      (nodeAt metadata events earlier).Registered request fate ∧ state = entry request := by
  induction position with
  | zero => cases file
  | succ position induction =>
      rcases file_succ metadata bounded with
        ⟨same, -⟩ | ⟨request, fate, event, registered, -, written⟩
      · rw [same] at file
        obtain ⟨earlier, before, found⟩ := induction (Nat.le_of_succ_le bounded) file
        exact ⟨earlier, before.trans (Nat.lt_succ_self _), found⟩
      · rw [written] at file
        exact ⟨position, Nat.lt_succ_self _, request, fate, event, registered,
          (Option.some.inj file).symm⟩

theorem file_of_registered {first last : Nat} (ordered : first < last)
    (bounded : last ≤ events.length) {request : AdminRequest} {fate : DeliveryFate}
    (event : events[first] = .deliver request fate)
    (registered : (nodeAt metadata events first).Registered request fate) :
    (nodeAt metadata events last).fence.file = some (entry request) ∨
      request.index < (nodeAt metadata events last).fence.persisted := by
  induction last, ordered using Nat.le_induction with
  | base =>
      rcases file_succ metadata bounded with
        ⟨-, none⟩ | ⟨other, _, same, -, -, written⟩
      · exact absurd registered (none request fate event)
      · rw [event] at same
        cases same
        exact .inl written
  | succ last _ induction =>
      have before := induction (Nat.le_of_succ_le bounded) event
      rcases file_succ metadata bounded with
        ⟨same, -⟩ | ⟨other, _, -, -, newer, written⟩
      · rw [FenceNode.persisted, same]
        exact before
      · have highest : (nodeAt metadata events (last + 1)).fence.persisted = other.index := by
          rw [FenceNode.persisted, written]
          rfl
        rw [highest]
        rcases before with kept | higher
        · rw [FenceNode.persisted, kept] at newer
          exact .inr newer
        · exact .inr (higher.trans newer)

/-- An index is registered only once. -/
theorem registered_unique {first last : Nat} (ordered : first < last)
    (inRange : last < events.length) {request : AdminRequest} {fate fate' : DeliveryFate}
    (event : events[first] = .deliver request fate)
    (registered : (nodeAt metadata events first).Registered request fate)
    (event' : events[last] = .deliver request fate') :
    ¬ (nodeAt metadata events last).Registered request fate' := by
  intro again
  rcases file_succ metadata inRange with
    ⟨-, none⟩ | ⟨other, _, same, -, newer, -⟩
  · exact none request fate' event' again
  · rw [event'] at same
    cases same
    rcases file_of_registered ordered inRange.le event registered with kept | higher
    · rw [FenceNode.persisted, kept] at newer
      exact Nat.lt_irrefl _ newer
    · exact Nat.lt_asymm higher newer

end Runs

/-- Whenever a request is answered with success from the replay branch it had been
carried out, exactly if every request that was registered and not carried out comes
again only after a later one has been registered (or while the node is down, or for a
slot that does not exist). -/
theorem replays_were_carried_out_iff (metadata : Metadata) (events : List AdminEvent)
    (distinct : ∀ request fate request' fate', .deliver request fate ∈ events →
      .deliver request' fate' ∈ events →
      RequestDigest.digest request = RequestDigest.digest request' → request = request') :
    (∀ position (inRange : position < events.length) request fate,
      events[position] = .deliver request fate →
      (nodeAt metadata events position).Replayed request fate →
      ∃ earlier, ∃ before : earlier < position, ∃ fate,
        events[earlier] = .deliver request fate ∧
        (nodeAt metadata events earlier).CarriedOut request fate) ↔
    ∀ earlier position (before : earlier < position) (inRange : position < events.length)
      request fate fate', events[earlier] = .deliver request fate →
      (nodeAt metadata events earlier).Registered request fate →
      ¬ (nodeAt metadata events earlier).CarriedOut request fate →
      events[position] = .deliver request fate' →
      (nodeAt metadata events position).fence.memory ≠ none →
      ((nodeAt metadata events position).metadata.slot request.operation.slot).isSome →
      request.index < (nodeAt metadata events position).fence.persisted := by
  constructor
  · intro justified earlier position before inRange request fate fate' event registered
      failed again runs present
    rcases file_of_registered before inRange.le event registered with kept | higher
    · have inStep := inStep_nodeAt metadata inRange.le
      have replayed := (replayed_iff inStep request fate').mpr
        ⟨registered.1, runs, present, kept⟩
      obtain ⟨other, earlier', fate'', event'', carried⟩ :=
        justified position inRange request fate' again replayed
      have inStep' := inStep_nodeAt metadata (earlier'.trans inRange).le
      -- It was carried out when it was registered, which is only once.
      rcases Nat.lt_trichotomy earlier other with less | rfl | greater
      · exact absurd (carried.registered inStep') (registered_unique less
          (earlier'.trans inRange) event registered event'')
      · rw [event] at event''
        cases event''
        exact absurd carried failed
      · exact absurd registered (registered_unique greater (before.trans inRange) event''
          (carried.registered inStep') event)
    · exact higher
  · intro settled position inRange request fate event replayed
    have inStep := inStep_nodeAt metadata inRange.le
    obtain ⟨-, runs, present, file⟩ := (replayed_iff inStep request fate).mp replayed
    obtain ⟨earlier, before, first, fate', event', registered, same⟩ :=
      exists_registered inRange.le file
    have digests : RequestDigest.digest request = RequestDigest.digest first :=
      Subtype.ext (HexText.encode_injective (congrArg FenceState.operationDigest same))
    obtain rfl := distinct request fate first fate' (event ▸ List.getElem_mem inRange)
      (event' ▸ List.getElem_mem (before.trans inRange)) digests
    refine ⟨earlier, before, fate', event', ?_⟩
    by_contra failed
    have higher := settled earlier position before inRange request fate' fate event'
      registered failed event runs present
    rw [FenceNode.persisted, file] at higher
    exact Nat.lt_irrefl _ higher

/-- Operations are carried out in the order of their indices and none is carried out twice,
whatever is repeated, refused or interrupted by a restart in between. -/
theorem operations_are_carried_out_in_order (metadata : Metadata) (events : List AdminEvent)
    {first last : Nat} (ordered : first < last) (inRange : last < events.length)
    {request request' : AdminRequest} {fate fate' : DeliveryFate}
    (event : events[first] = .deliver request fate)
    (carried : (nodeAt metadata events first).CarriedOut request fate)
    (carried' : (nodeAt metadata events last).CarriedOut request' fate') :
    request.index < request'.index := by
  have registered := carried.registered (inStep_nodeAt metadata (ordered.trans inRange).le)
  have inStep := inStep_nodeAt metadata inRange.le
  have newer : (nodeAt metadata events last).fence.persisted < request'.index := by
    rcases file_deliver_cases inStep request' fate' with ⟨none, -⟩ | ⟨-, newer, -⟩
    · exact absurd (carried'.registered inStep) none
    · exact newer
  rcases file_of_registered ordered inRange.le event registered with kept | higher
  · rwa [FenceNode.persisted, kept] at newer
  · exact higher.trans newer

end Deliveries

section Examples

/-- A digest for runs with a single request. -/
@[reducible]
def constantDigest : RequestDigest := ⟨fun _ => ⟨List.replicate 32 0, List.length_replicate⟩⟩

attribute [local instance] constantDigest

/-- A delivery that nothing goes wrong with; it is no sync. -/
def undisturbed : DeliveryFate :=
  { write := .written, operation := .answered, synced := .error .replicaUnavailable
    failedPeers := [] }

def promotion : AdminRequest := { index := 5, operation := .promote 0 }

/-- The controller repeats a request with the same index. -/
def repeatedPromotion (table : Metadata) : List AdminEvent :=
  [.restart table, .deliver promotion undisturbed, .deliver promotion undisturbed]

def replicatedTable : Metadata := newMetadata MetadataCluster.threePeerConfig "node-2"

def unreplicatedTable : Metadata :=
  newMetadata { MetadataCluster.threePeerConfig with replicationEnabled := false } "node-2"

/-- The promotion of a slot without replica fails, and the same request then succeeds
without any change to the table. -/
theorem failed_promotion_is_replayed :
    let node := nodeAt unreplicatedTable (repeatedPromotion unreplicatedTable)
    ((node 1).deliver promotion undisturbed).2.map AdminAnswer.status = some 400 ∧
      ((node 2).begun promotion undisturbed).2 = some (.accepted true) ∧
      ((node 2).deliver promotion undisturbed).2.map AdminAnswer.status = some 200 ∧
      (node 3).metadata.version = 1 ∧
      (node 3).metadata.slots = unreplicatedTable.slots := by
  decide +kernel

theorem repeated_promotion_was_carried_out :
    let node := nodeAt replicatedTable (repeatedPromotion replicatedTable)
    (node 2).Replayed promotion undisturbed ∧
      ∃ earlier < 2, ∃ fate, (node earlier).CarriedOut promotion fate := by
  have succeeded : ((nodeAt replicatedTable (repeatedPromotion replicatedTable) 2).deliver
      promotion undisturbed).2.map AdminAnswer.status = some 200 := by
    decide +kernel
  have replayed : (nodeAt replicatedTable (repeatedPromotion replicatedTable) 2).Replayed
      promotion undisturbed :=
    ⟨by decide +kernel, Option.map_eq_some_iff.mp succeeded⟩
  have carried : (nodeAt replicatedTable (repeatedPromotion replicatedTable) 1).CarriedOut
      promotion undisturbed :=
    ⟨⟨by decide, by decide⟩, by decide +kernel, by decide, by decide +kernel⟩
  have justified := (replays_were_carried_out_iff replicatedTable
    (repeatedPromotion replicatedTable) ?_).mpr ?_
  · obtain ⟨earlier, before, fate, -, found⟩ :=
      justified 2 (by decide) promotion undisturbed rfl replayed
    exact ⟨replayed, earlier, before, fate, found⟩
  · intro request fate request' fate' listed listed' _
    simp only [repeatedPromotion, List.mem_cons, reduceCtorEq, AdminEvent.deliver.injEq,
      List.not_mem_nil, or_false, false_or, or_self] at listed listed'
    rw [listed.1, listed'.1]
  · intro earlier position before inRange request fate fate' event _ failed
    match earlier, position, before, inRange with
    | 0, _, _, _ => cases event
    | 1, _, _, _ =>
        cases event
        exact absurd carried failed
    | earlier + 2, position, before, inRange =>
        have short : position < 3 := inRange
        omega

/-- A new replica for the slot, after its promotion was sent twice. -/
theorem reassignment_follows_promotion :
    let reassignment : AdminRequest := { index := 6, operation := .assignReplica 0 "node-3" }
    let events := repeatedPromotion replicatedTable ++ [.deliver reassignment undisturbed]
    (nodeAt replicatedTable events 3).CarriedOut reassignment undisturbed ∧
      promotion.index < reassignment.index := by
  intro reassignment events
  have carried : (nodeAt replicatedTable events 3).CarriedOut reassignment undisturbed :=
    ⟨⟨by decide, by decide⟩, by decide +kernel, by decide, by decide +kernel⟩
  exact ⟨carried, operations_are_carried_out_in_order replicatedTable events (by decide : 1 < 3)
    (by decide) rfl ⟨⟨by decide, by decide⟩, by decide +kernel, by decide, by decide +kernel⟩
    carried⟩

end Examples

end AdminNode

end MnemoKV
