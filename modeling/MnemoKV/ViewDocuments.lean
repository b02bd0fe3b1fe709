import MnemoKV.ClusterObservation
import MnemoKV.MergingDecoders

/-!
# Views as JSON documents

The document of a view leaves empty replica identifiers, node lists and the
latest operation out.  Decoded into another view, it therefore lets the old
values of these fields show through.
-/

namespace MnemoKV

open MergingDecoders

/-! ### Texts of the enumerations -/

def ClusterStatus.text : ClusterStatus → String
  | unset => ""
  | healthy => "healthy"
  | failureSuspected => "failure_suspected"
  | degraded => "degraded"
  | promoting => "promoting"
  | repairing => "repairing"
  | rebalancing => "rebalancing"
  | unavailable => "unavailable"
  | potentialDataLoss => "potential_data_loss"
  | other text _ => text

def ClusterStatus.all : List ClusterStatus :=
  [unset, healthy, failureSuspected, degraded, promoting, repairing, rebalancing,
    unavailable, potentialDataLoss]

def ClusterStatus.parse (text : String) : ClusterStatus :=
  if declared : text ∈ declaredStatuses then
    (all.find? fun status => status.text == text).getD unset
  else other text declared

def CommandType.text : CommandType → String
  | observeView => "observe_view"
  | proposePlan => "propose_plan"
  | stepDone => "step_done"
  | planComplete => "plan_complete"
  | supersedePlan => "supersede_plan"
  | proposeRebalance => "propose_rebalance"
  | markUnavailable => "mark_unavailable"
  | admitReturningNode => "admit_returning_node"
  | other text _ => text

def CommandType.all : List CommandType :=
  [observeView, proposePlan, stepDone, planComplete, supersedePlan,
    proposeRebalance, markUnavailable, admitReturningNode]

/-- The empty text stands for no operation. -/
def CommandType.parse (text : String) : Option CommandType :=
  if declared : text ∈ "" :: declaredCommands then
    all.find? fun operation => operation.text == text
  else some (other text declared)

theorem ClusterStatus.parse_text (status : ClusterStatus) :
    parse status.text = status := by
  cases status with
  | other text undeclared => exact dif_neg undeclared
  | _ => decide

theorem CommandType.parse_text (operation : CommandType) :
    parse operation.text = some operation := by
  cases operation with
  | other text undeclared => exact dif_neg undeclared
  | _ => decide

/-! ### Encoding -/

def SlotView.encode (slot : SlotView) : Json :=
  .object <|
    [("number", .number slot.number), ("leaderId", .text slot.leaderID)] ++
    omitEmpty "replicaId" (slot.replicaID == "") (.text slot.replicaID) ++
    [("term", .number slot.term), ("replicaReady", .boolean slot.replicaReady)]

def NodeView.encode (node : NodeView) : Json :=
  .object <|
    [("id", .text node.id), ("reachable", .boolean node.reachable),
      ("suspected", .boolean node.suspected),
      ("consecutiveFails", .number node.consecFails),
      ("leaderSlots", .number node.leaderSlots),
      ("replicaSlots", .number node.replicaSlots),
      ("eligible", .boolean node.eligible)] ++
    omitEmpty "returning" (!node.returning) (.boolean node.returning)

def encodeTexts (texts : List String) : Json := .array (texts.map Json.text)

def StatusSummary.encode (status : StatusSummary) : Json :=
  .object <|
    [("state", .text status.state.text)] ++
    omitEmpty "failedNodes" status.failedNodes.isEmpty
      (encodeTexts status.failedNodes) ++
    omitEmpty "suspectedNodes" status.suspectedNodes.isEmpty
      (encodeTexts status.suspectedNodes) ++
    [("degradedSlots", .number status.degradedSlots),
      ("unavailableSlots", .number status.unavailableSlots)] ++
    match status.latestCommittedOperation with
    | none => []
    | some operation => [("latestCommittedOperation", .text operation.text)]

/-- What is written for the time of the observation is left open. -/
def ClusterView.encode (view : ClusterView) : Json :=
  .object
    [("clusterId", .text view.clusterID),
      ("metadataVersion", .number view.metadataVersion),
      ("slots", .array (view.slots.map SlotView.encode)),
      ("nodes", encodeTable NodeView.encode view.nodes),
      ("observedAt", .time "" view.observedAt),
      ("status", view.status.encode)]

/-! ### Decoding -/

def SlotView.zero : SlotView :=
  { number := 0, leaderID := "", replicaID := "", term := 0, replicaReady := false }

def SlotView.decode : Decoder SlotView :=
  record
    [("number", part number (fun number slot => { slot with number }) natural),
      ("leaderId", part leaderID (fun leaderID slot => { slot with leaderID }) text),
      ("replicaId", part replicaID (fun replicaID slot => { slot with replicaID })
        text),
      ("term", part term (fun term slot => { slot with term }) natural),
      ("replicaReady", part replicaReady
        (fun replicaReady slot => { slot with replicaReady }) boolean)]

def NodeView.decode : Decoder NodeView :=
  record
    [("id", part id (fun id node => { node with id }) text),
      ("reachable", part reachable (fun reachable node => { node with reachable })
        boolean),
      ("suspected", part suspected (fun suspected node => { node with suspected })
        boolean),
      ("consecutiveFails", part consecFails
        (fun consecFails node => { node with consecFails }) integer),
      ("leaderSlots", part leaderSlots
        (fun leaderSlots node => { node with leaderSlots }) integer),
      ("replicaSlots", part replicaSlots
        (fun replicaSlots node => { node with replicaSlots }) integer),
      ("eligible", part eligible (fun eligible node => { node with eligible })
        boolean),
      ("returning", part returning (fun returning node => { node with returning })
        boolean)]

/-- A summary and the texts that its slices still hold in memory. -/
structure StoredSummary where
  summary : StatusSummary
  spareFailed : List String
  spareSuspected : List String

namespace StoredSummary

def failed (stored : StoredSummary) : Slice String :=
  ⟨stored.summary.failedNodes, stored.spareFailed⟩

def suspected (stored : StoredSummary) : Slice String :=
  ⟨stored.summary.suspectedNodes, stored.spareSuspected⟩

def setFailed (failed : Slice String) (stored : StoredSummary) : StoredSummary :=
  { stored with
    summary := { stored.summary with failedNodes := failed.items }
    spareFailed := failed.spare }

def setSuspected (suspected : Slice String) (stored : StoredSummary) :
    StoredSummary :=
  { stored with
    summary := { stored.summary with suspectedNodes := suspected.items }
    spareSuspected := suspected.spare }

/-- A field outside the slices. -/
def plain {β : Type} (get : StatusSummary → β)
    (set : β → StatusSummary → StatusSummary) (decode : Decoder β) :
    Decoder StoredSummary :=
  part (fun stored => get stored.summary)
    (fun value stored => { stored with summary := set value stored.summary }) decode

def decode : Decoder StoredSummary :=
  record
    [("state", plain StatusSummary.state (fun state summary => { summary with state })
        (named ClusterStatus.parse)),
      ("failedNodes", part failed setFailed (slice "" text)),
      ("suspectedNodes", part suspected setSuspected (slice "" text)),
      ("degradedSlots", plain StatusSummary.degradedSlots
        (fun degradedSlots summary => { summary with degradedSlots }) integer),
      ("unavailableSlots", plain StatusSummary.unavailableSlots
        (fun unavailableSlots summary => { summary with unavailableSlots }) integer),
      ("latestCommittedOperation", plain StatusSummary.latestCommittedOperation
        (fun latestCommittedOperation summary =>
          { summary with latestCommittedOperation }) (named CommandType.parse))]

end StoredSummary

/-- Anything but the text of a time is an error of the time's own decoder. -/
def decodeTime : Decoder Int
  | .null, old => .whole old
  | .time _ instant, _ => .whole instant
  | _, old => ⟨old, .stopped⟩

/-- A view and what its slices still hold in memory. -/
structure StoredView where
  view : ClusterView
  spareSlots : List SlotView
  spareFailed : List String
  spareSuspected : List String

namespace StoredView

def zero : StoredView :=
  { view :=
      { clusterID := "", metadataVersion := 0, slots := [], nodes := ∅
        observedAt := 0, status := .zero }
    spareSlots := [], spareFailed := [], spareSuspected := [] }

def slots (stored : StoredView) : Slice SlotView :=
  ⟨stored.view.slots, stored.spareSlots⟩

def setSlots (slots : Slice SlotView) (stored : StoredView) : StoredView :=
  { stored with
    view := { stored.view with slots := slots.items }, spareSlots := slots.spare }

def status (stored : StoredView) : StoredSummary :=
  ⟨stored.view.status, stored.spareFailed, stored.spareSuspected⟩

def setStatus (status : StoredSummary) (stored : StoredView) : StoredView :=
  { stored with
    view := { stored.view with status := status.summary }
    spareFailed := status.spareFailed, spareSuspected := status.spareSuspected }

/-- A field outside the slices. -/
def plain {β : Type} (get : ClusterView → β) (set : β → ClusterView → ClusterView)
    (decode : Decoder β) : Decoder StoredView :=
  part (fun stored => get stored.view)
    (fun value stored => { stored with view := set value stored.view }) decode

def decode : Decoder StoredView :=
  record
    [("clusterId", plain ClusterView.clusterID
        (fun clusterID view => { view with clusterID }) text),
      ("metadataVersion", plain ClusterView.metadataVersion
        (fun metadataVersion view => { view with metadataVersion }) natural),
      ("slots", part slots setSlots (slice SlotView.zero SlotView.decode)),
      ("nodes", plain ClusterView.nodes (fun nodes view => { view with nodes })
        (table NodeView.zero NodeView.decode)),
      ("observedAt", plain ClusterView.observedAt
        (fun observedAt view => { view with observedAt }) decodeTime),
      ("status", part status setStatus StoredSummary.decode)]

end StoredView

/-! ### What shows through -/

def SlotView.merge (slot old : SlotView) : SlotView :=
  { slot with
    replicaID := if slot.replicaID = "" then old.replicaID else slot.replicaID }

def mergeTexts (texts old : List String) : List String :=
  if texts = [] then old else texts

def StatusSummary.merge (status old : StatusSummary) : StatusSummary :=
  { status with
    failedNodes := mergeTexts status.failedNodes old.failedNodes
    suspectedNodes := mergeTexts status.suspectedNodes old.suspectedNodes
    latestCommittedOperation :=
      status.latestCommittedOperation.or old.latestCommittedOperation }

def ClusterView.merge (view : ClusterView) (old : StoredView) : ClusterView :=
  { view with
    slots := mergeItems SlotView.zero SlotView.merge view.slots
      (old.view.slots ++ old.spareSlots)
    nodes := mergeTables old.view.nodes view.nodes
    status := view.status.merge old.view.status }

theorem SlotView.decode_encode (slot old : SlotView) :
    decode slot.encode old = .whole (slot.merge old) := by
  by_cases cleared : slot.replicaID = ""
  · simp [decode, encode, merge, cleared, omitEmpty, record, decodeFields,
      lookupField, List.lookup_cons, part]
  · simp [decode, encode, merge, cleared, omitEmpty, record, decodeFields,
      lookupField, List.lookup_cons, part]

/-- The values of a map are decoded afresh. -/
theorem NodeView.decode_encode (node : NodeView) :
    decode node.encode zero = .whole node := by
  obtain ⟨id, reachable, suspected, consecFails, leaderSlots, replicaSlots, eligible,
    returning⟩ := node
  cases returning with
  | false => simp [decode, encode, zero, omitEmpty, record, decodeFields,
      lookupField, List.lookup_cons, part]
  | true => simp [decode, encode, zero, omitEmpty, record, decodeFields,
      lookupField, List.lookup_cons, part]

/-- A text in a document replaces the one before. -/
theorem slice_encodeTexts (texts : List String) (old : Slice String) :
    slice "" text (encodeTexts texts) old =
      .whole ⟨texts, if texts = [] then [] else old.backing.drop texts.length⟩ := by
  have merges : ∀ item old : String, text (.text item) old = .whole item :=
    fun _ _ => rfl
  rw [encodeTexts, slice_encode "" merges, mergeItems_of_forget fun _ _ => rfl]

@[simp]
theorem named_status (status old : ClusterStatus) :
    named ClusterStatus.parse (.text status.text) old = .whole status :=
  congrArg Decoded.whole status.parse_text

@[simp]
theorem named_operation (operation : CommandType) (old : Option CommandType) :
    named CommandType.parse (.text operation.text) old = .whole (some operation) :=
  congrArg Decoded.whole operation.parse_text

theorem StoredSummary.decode_encode (status : StatusSummary) (old : StoredSummary) :
    (decode status.encode old).fit = .whole ∧
      (decode status.encode old).value.summary = status.merge old.summary := by
  obtain ⟨state, failedNodes, suspectedNodes, degradedSlots, unavailableSlots,
    operation⟩ := status
  by_cases noFailed : failedNodes = [] <;>
  by_cases noSuspected : suspectedNodes = [] <;>
  cases operation <;>
    simp [decode, StatusSummary.encode, StatusSummary.merge, mergeTexts, omitEmpty,
      noFailed, noSuspected, record, decodeFields, lookupField, List.lookup_cons, part, plain,
      slice_encodeTexts, setFailed, setSuspected]

theorem StoredView.decode_encode (view : ClusterView) (old : StoredView) :
    (decode view.encode old).fit = .whole ∧
      (decode view.encode old).value.view = view.merge old := by
  have nodes := table_encodeTable NodeView.decode_encode old.view.nodes view.nodes
  obtain ⟨summary, decoded, merged⟩ : ∃ summary,
      StoredSummary.decode view.status.encode
          ⟨old.view.status, old.spareFailed, old.spareSuspected⟩ = .whole summary ∧
        summary.summary = view.status.merge old.view.status :=
    have ⟨whole, merged⟩ := StoredSummary.decode_encode view.status old.status
    ⟨_, Decoded.ext rfl whole, merged⟩
  simp [decode, ClusterView.encode, ClusterView.merge, record, decodeFields,
    lookupField, List.lookup_cons, part, plain, slice_encode .zero SlotView.decode_encode, nodes,
    StoredView.slots, setSlots, decodeTime, status, setStatus, decoded, merged,
    Slice.backing]

end MnemoKV
