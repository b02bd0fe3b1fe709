import MnemoKV.CommittedCommands
import MnemoKV.RelatedTargets

/-!
# Snapshots of the controller's state

A voter that was restored from a snapshot goes on with the same state, but without
what the slices of the live view still hold in memory behind their last elements.
Later observations are decoded into that memory, so the two stay alike exactly if
there is nothing but zeros in it.
-/

namespace MnemoKV

open MergingDecoders

/-! ### Log entries -/

/-- The numbers that the fields of a view can hold. -/
def viewRanges : List (String × Int × Int) :=
  [("metadataVersion", 0, 2 ^ 64), ("number", 0, 2 ^ 32), ("term", 0, 2 ^ 64)] ++
    ["consecutiveFails", "leaderSlots", "replicaSlots", "degradedSlots",
      "unavailableSlots"].map fun name => (name, minInt64, maxInt64 + 1)

/-- What the data of a log entry is decoded into. -/
inductive LogData
  /-- No JSON of a `Command`. -/
  | undecodable
  | unknown (type : String) (undeclared : type ∉ declaredCommands)
  /-- The payload is missing, or does not fit what it is decoded into afresh. -/
  | misfit
  | command (command : ControlCommand)

/-- An entry of the replicated log. -/
structure LogEntry where
  index : Nat
  data : LogData

/-- The integers of an observation are those that their fields can hold.  Any other
number of a log entry is no `number` of its document. -/
def LogData.Ranged : LogData → Prop
  | command (.observeView payload) => payload.ranged viewRanges = true
  | _ => True

/-- An entry whose numbers fit the fields they are for. -/
structure RangedEntry extends LogEntry where
  ranged : data.Ranged

namespace FSM

/-- `Apply` on any log entry: the state that it leaves, and its error. -/
def applyEntry (fsm : FSM) (entry : LogEntry) : FSM × Option FSMError :=
  match entry.data with
  | .undecodable => (fsm, some .invalidCommand)
  | .unknown type _ => (fsm, some (.unknownCommandType type))
  | .misfit => (fsm, some .invalidPayload)
  | .command command =>
      match fsm.apply entry.index command with
      | .error error => (fsm.leftBy command, some error)
      | .ok after => (after, none)

def applyAll (fsm : FSM) : List LogEntry → FSM × List (Option FSMError)
  | [] => (fsm, [])
  | entry :: rest =>
      let (after, error) := fsm.applyEntry entry
      let (last, errors) := after.applyAll rest
      (last, error :: errors)

/-- The value whose JSON `Snapshot` and `Persist` write. -/
def persisted (fsm : FSM) : FSMSnapshot := fsm.cloneState

/-- `Restore` into a fresh FSM, with the state read from the JSON of a value. -/
def restored (data : FSMSnapshot) : FSM :=
  { state := data.clone.clone
    spareSlots := [], spareFailed := [], spareSuspected := [] }

/-- Nothing but zeros is left behind the slices of the view. -/
structure Clean (fsm : FSM) : Prop where
  slots : ∀ slot ∈ fsm.spareSlots, slot = .zero
  failed : ∀ nodeID ∈ fsm.spareFailed, nodeID = ""
  suspected : ∀ nodeID ∈ fsm.spareSuspected, nodeID = ""

theorem applyAll_append (fsm : FSM) (first second : List LogEntry) :
    fsm.applyAll (first ++ second) =
      let before := fsm.applyAll first
      let after := before.1.applyAll second
      (after.1, before.2 ++ after.2) := by
  induction first generalizing fsm with
  | nil => rfl
  | cons entry rest induction =>
      simp only [List.cons_append, applyAll, induction]

end FSM

/-! ### Memory that documents do not tell apart -/

namespace StoredSummary

/-- One summary, over spare elements that no decoder can tell apart. -/
structure Alike (first second : StoredSummary) : Prop where
  summary : first.summary = second.summary
  failed : ∀ index, first.spareFailed.getD index "" = second.spareFailed.getD index ""
  suspected : ∀ index,
    first.spareSuspected.getD index "" = second.spareSuspected.getD index ""

theorem respects_plain {β : Type} {get : StatusSummary → β}
    {set : β → StatusSummary → StatusSummary} {decode : Decoder β} :
    Respects Alike (plain get set decode) := by
  refine (respects_eq decode).part (fun first second alike => ?_) ?_
  · rw [alike.summary]
  · rintro first second value _ alike rfl
    exact ⟨congrArg (set value) alike.summary, alike.failed, alike.suspected⟩

theorem respects_decode : Respects Alike decode := by
  have failed : Respects Alike (part failed setFailed (slice "" text)) := by
    refine (respects_slice "" text).part (fun first second alike => ?_) ?_
    · exact ⟨congrArg StatusSummary.failedNodes alike.summary, alike.failed⟩
    · intro first second one other alike same
      refine ⟨?_, same.spare, alike.suspected⟩
      simp only [setFailed, alike.summary, same.items]
  have suspected : Respects Alike (part suspected setSuspected (slice "" text)) := by
    refine (respects_slice "" text).part (fun first second alike => ?_) ?_
    · exact ⟨congrArg StatusSummary.suspectedNodes alike.summary, alike.suspected⟩
    · intro first second one other alike same
      refine ⟨?_, alike.failed, same.spare⟩
      simp only [setSuspected, alike.summary, same.items]
  refine Respects.record ?_
  simp only [List.forall_mem_cons]
  exact ⟨respects_plain, failed, suspected, respects_plain, respects_plain,
    respects_plain, List.forall_mem_nil _⟩

end StoredSummary

namespace StoredView

/-- One view, over spare elements that no decoder can tell apart. -/
structure Alike (first second : StoredView) : Prop where
  view : first.view = second.view
  slots : ∀ index,
    first.spareSlots.getD index .zero = second.spareSlots.getD index .zero
  failed : ∀ index, first.spareFailed.getD index "" = second.spareFailed.getD index ""
  suspected : ∀ index,
    first.spareSuspected.getD index "" = second.spareSuspected.getD index ""

theorem respects_plain {β : Type} {get : ClusterView → β}
    {set : β → ClusterView → ClusterView} {decode : Decoder β} :
    Respects Alike (plain get set decode) := by
  refine (respects_eq decode).part (fun first second alike => ?_) ?_
  · rw [alike.view]
  · rintro first second value _ alike rfl
    exact ⟨congrArg (set value) alike.view, alike.slots, alike.failed,
      alike.suspected⟩

theorem respects_decode : Respects Alike decode := by
  have slots : Respects Alike
      (part slots setSlots (slice SlotView.zero SlotView.decode)) := by
    refine (respects_slice .zero SlotView.decode).part (fun first second alike => ?_) ?_
    · exact ⟨congrArg ClusterView.slots alike.view, alike.slots⟩
    · intro first second one other alike same
      refine ⟨?_, same.spare, alike.failed, alike.suspected⟩
      simp only [setSlots, alike.view, same.items]
  have status : Respects Alike (part status setStatus StoredSummary.decode) := by
    refine StoredSummary.respects_decode.part (fun first second alike => ?_) ?_
    · exact ⟨congrArg ClusterView.status alike.view, alike.failed, alike.suspected⟩
    · intro first second one other alike same
      refine ⟨?_, alike.slots, same.failed, same.suspected⟩
      simp only [setStatus, alike.view, same.summary]
  refine Respects.record ?_
  simp only [List.forall_mem_cons]
  exact ⟨respects_plain, respects_plain, slots, respects_plain,
    respects_plain, status, List.forall_mem_nil _⟩

end StoredView

/-! ### States that stay alike -/

namespace FSM

/-- One state, over spare elements that no decoder can tell apart. -/
structure Alike (first second : FSM) : Prop where
  state : first.state = second.state
  stored : first.stored.Alike second.stored

variable {first second : FSM}

theorem Alike.withStored (alike : first.Alike second) {one other : StoredView}
    (same : one.Alike other) : (first.withStored one).Alike (second.withStored other) := by
  refine ⟨?_, same.view, same.slots, same.failed, same.suspected⟩
  simp only [FSM.withStored, alike.state, same.view]

theorem Alike.withState (alike : first.Alike second) (state : FSMSnapshot) :
    (first.withState state).Alike (second.withState state) :=
  ⟨rfl, rfl, alike.stored.slots, alike.stored.failed, alike.stored.suspected⟩

/-- A command that is no observation does not touch the slices. -/
theorem applyCommand_silent {command : ControlCommand}
    (silent : command.observes = false) (same : first.state = second.state) :
    second.applyCommand command =
      (first.applyCommand command).map fun after => second.withState after.state := by
  cases command with
  | observeView payload => cases silent
  | proposePlan plan => simp only [applyCommand, same]; rfl
  | proposeRebalance plan => simp only [applyCommand, same]; rfl
  | stepDone planID stepIndex =>
      simp only [applyCommand, same]
      split
      · rfl
      · split_ifs <;> rfl
  | planComplete planID =>
      simp only [applyCommand, same]
      split <;> rfl
  | supersedePlan oldPlanID newPlan =>
      simp only [applyCommand, same]
      split
      · rfl
      · split_ifs <;> rfl
  | markUnavailable slots => simp only [applyCommand, same]; rfl
  | admitReturningNode nodeID admitted =>
      simp only [applyCommand, same]
      split_ifs <;> rfl

/-- What `Apply` records after a command. -/
def recorded (index : Nat) (command : ControlCommand)
    (latestOperation : Option CommandType) (state : FSMSnapshot) : FSMSnapshot :=
  let indexed := { state with controlIndex := index }
  match command with
  | .observeView _ => (indexed.setOperation latestOperation).updatePlanStatus
  | .planComplete _ =>
      (recordRebalance indexed index).setOperation (some .planComplete)
  | other => indexed.setOperation (some other.type)

theorem apply_eq (fsm : FSM) (index : Nat) (command : ControlCommand) :
    fsm.apply index command = (fsm.applyCommand command).map fun after =>
      after.withState (recorded index command
        fsm.state.latestView.status.latestCommittedOperation after.state) := by
  unfold apply
  split
  · rename_i failed
    rw [failed]
    rfl
  · rename_i done
    rw [done]
    rfl

theorem Alike.applyEntry (alike : first.Alike second) (entry : LogEntry) :
    (first.applyEntry entry).1.Alike (second.applyEntry entry).1 ∧
      (first.applyEntry entry).2 = (second.applyEntry entry).2 := by
  obtain ⟨index, data⟩ := entry
  cases data with
  | undecodable => exact ⟨alike, rfl⟩
  | unknown type undeclared => exact ⟨alike, rfl⟩
  | misfit => exact ⟨alike, rfl⟩
  | command command =>
      simp only [FSM.applyEntry, apply_eq, ← alike.state]
      cases observes : command.observes with
      | true =>
          cases command with
          | observeView payload =>
              obtain ⟨values, fits⟩ :=
                StoredView.respects_decode payload _ _ alike.stored
              have left := alike.withStored values
              simp only [applyCommand, fits]
              split_ifs
              · have same := left.state
                simp only [Except.map, same]
                exact ⟨left.withState _, trivial⟩
              · exact ⟨left, rfl⟩
          | _ => cases observes
      | false =>
          have left : first.leftBy command = first ∧ second.leftBy command = second := by
            cases command with
            | observeView payload => cases observes
            | _ => exact ⟨rfl, rfl⟩
          have own := applyCommand_silent observes (rfl : first.state = first.state)
          rw [applyCommand_silent observes alike.state, left.1, left.2]
          cases done : first.applyCommand command with
          | error error => exact ⟨alike, rfl⟩
          | ok after =>
              rw [done] at own
              have unspared : after = first.withState after.state :=
                Except.ok.inj own
              refine ⟨?_, rfl⟩
              rw [unspared]
              exact alike.withState _

theorem Alike.applyAll (alike : first.Alike second) (entries : List LogEntry) :
    (first.applyAll entries).1.Alike (second.applyAll entries).1 ∧
      (first.applyAll entries).2 = (second.applyAll entries).2 := by
  induction entries generalizing first second with
  | nil => exact ⟨alike, rfl⟩
  | cons entry rest induction =>
      obtain ⟨states, errors⟩ := alike.applyEntry entry
      obtain ⟨last, others⟩ := induction states
      exact ⟨last, by simp only [FSM.applyAll, errors, others]⟩

/-! ### Telling states apart -/

/-- An observation that fits brings its slots and node lists into the view. -/
theorem applyEntry_observeView {fsm : FSM} {payload : Json} {stored : StoredView}
    (decoded : StoredView.decode payload fsm.stored = .whole stored) (index : Nat) :
    let after := (fsm.applyEntry ⟨index, .command (.observeView payload)⟩).1.state
    after.latestView.slots = stored.view.slots ∧
      after.latestView.status.failedNodes = stored.view.status.failedNodes ∧
      after.latestView.status.suspectedNodes = stored.view.status.suspectedNodes := by
  have applied : fsm.applyCommand (.observeView payload) =
      .ok (fsm.withStored stored) := by
    simp only [applyCommand, decoded, Decoded.fit_whole, Decoded.value_whole, if_true]
  simp only [FSM.applyEntry, apply_eq, applied, Except.map, withState, recorded,
    FSMSnapshot.updatePlanStatus]
  split
  · exact ⟨rfl, rfl, rfl⟩
  · exact ⟨rfl, rfl, rfl⟩

theorem alike_of_shown (same : first.state = second.state)
    (shown : ∀ entry : RangedEntry, (first.applyEntry entry.toLogEntry).1.state =
      (second.applyEntry entry.toLogEntry).1.state) :
    first.Alike second := by
  have observed : ∀ (payload : Json) one other, payload.ranged viewRanges = true →
      StoredView.decode payload first.stored = .whole one →
      StoredView.decode payload second.stored = .whole other →
      one.view.slots = other.view.slots ∧
        one.view.status.failedNodes = other.view.status.failedNodes ∧
        one.view.status.suspectedNodes = other.view.status.suspectedNodes := by
    intro payload one other ranged decodedOne decodedOther
    have one := applyEntry_observeView decodedOne 0
    have other := applyEntry_observeView decodedOther 0
    dsimp only at one other
    rw [shown ⟨⟨0, .command (.observeView payload)⟩, ranged⟩] at one
    exact ⟨one.1.symm.trans other.1, one.2.1.symm.trans other.2.1,
      one.2.2.symm.trans other.2.2⟩
  have view : first.stored.view = second.stored.view :=
    congrArg FSMSnapshot.latestView same
  have status : first.stored.status.summary = second.stored.status.summary :=
    congrArg ClusterView.status view
  have keepsSlot : ∀ old, SlotView.decode .null old = .whole old := fun _ => rfl
  have keepsText : ∀ old, text .null old = .whole old := fun _ => rfl
  have slots : first.stored.slots.Alike .zero second.stored.slots := by
    refine Slice.alike_of_nulls keepsSlot (congrArg ClusterView.slots view) ?_
    intro count one other decodedOne decodedOther
    refine (observed (.object [("slots", nulls count)])
      (first.stored.setSlots one) (second.stored.setSlots other) ?_ ?_ ?_).1
    · exact ranged_field _ _ count
    · simp [StoredView.decode, record, decodeFields, lookupField, List.lookup_cons, part,
        decodedOne]
    · simp [StoredView.decode, record, decodeFields, lookupField, List.lookup_cons, part,
        decodedOther]
  have failed : first.stored.status.failed.Alike "" second.stored.status.failed := by
    refine Slice.alike_of_nulls keepsText
      (congrArg StatusSummary.failedNodes status) ?_
    intro count one other decodedOne decodedOther
    refine (observed (.object [("status", .object [("failedNodes", nulls count)])])
      (first.stored.setStatus (first.stored.status.setFailed one))
      (second.stored.setStatus (second.stored.status.setFailed other)) ?_ ?_ ?_).2.1
    · rw [Json.ranged, fieldsRanged, ranged_field]
      rfl
    · simp [StoredView.decode, StoredSummary.decode, record, decodeFields,
        lookupField, List.lookup_cons, part, decodedOne]
    · simp [StoredView.decode, StoredSummary.decode, record, decodeFields,
        lookupField, List.lookup_cons, part, decodedOther]
  have suspected : first.stored.status.suspected.Alike ""
      second.stored.status.suspected := by
    refine Slice.alike_of_nulls keepsText
      (congrArg StatusSummary.suspectedNodes status) ?_
    intro count one other decodedOne decodedOther
    refine (observed (.object [("status", .object [("suspectedNodes", nulls count)])])
      (first.stored.setStatus (first.stored.status.setSuspected one))
      (second.stored.setStatus (second.stored.status.setSuspected other)) ?_ ?_ ?_).2.2
    · rw [Json.ranged, fieldsRanged, ranged_field]
      rfl
    · simp [StoredView.decode, StoredSummary.decode, record, decodeFields,
        lookupField, List.lookup_cons, part, decodedOne]
    · simp [StoredView.decode, StoredSummary.decode, record, decodeFields,
        lookupField, List.lookup_cons, part, decodedOther]
  exact ⟨same, view, slots.spare, failed.spare, suspected.spare⟩

/-- The restored state is the live one without its spare memory. -/
theorem restored_alike_iff (fsm : FSM) :
    (restored fsm.persisted).Alike fsm ↔ fsm.Clean := by
  have state : (restored fsm.persisted).state = fsm.state := by
    simp [restored, persisted]
  have view : (restored fsm.persisted).stored.view = fsm.stored.view :=
    congrArg FSMSnapshot.latestView state
  have slots := forall_getD_eq_zero_iff SlotView.zero fsm.spareSlots
  have failed := forall_getD_eq_zero_iff "" fsm.spareFailed
  have suspected := forall_getD_eq_zero_iff "" fsm.spareSuspected
  constructor
  · intro alike
    exact ⟨slots.mp alike.stored.slots, failed.mp alike.stored.failed,
      suspected.mp alike.stored.suspected⟩
  · intro clean
    exact ⟨state, view, slots.mpr clean.slots, failed.mpr clean.failed,
      suspected.mpr clean.suspected⟩

/-- What a log does to a state. -/
def replay (fsm : FSM) (log : List RangedEntry) : FSM × List (Option FSMError) :=
  fsm.applyAll (log.map RangedEntry.toLogEntry)

/-- A snapshot after the first entries does not show in what follows exactly if
the slices of the view have nothing but zeros behind them by then. -/
theorem snapshot_is_transparent_iff (before : List RangedEntry) :
    (∀ after : List RangedEntry,
      let live := FSM.initial.replay (before ++ after)
      let first := FSM.initial.replay before
      let later := (restored first.1.persisted).replay after
      later.1.cloneState = live.1.cloneState ∧ first.2 ++ later.2 = live.2) ↔
    (FSM.initial.replay before).1.Clean := by
  simp only [replay, List.map_append, applyAll_append, cloneState_eq,
    List.append_cancel_left_eq]
  rw [← restored_alike_iff]
  constructor
  · intro transparent
    refine alike_of_shown ?_ fun entry => ?_
    · exact (transparent []).1
    · exact (transparent [entry]).1
  · intro alike after
    obtain ⟨states, errors⟩ := alike.applyAll (after.map RangedEntry.toLogEntry)
    exact ⟨states.state, errors⟩

/-! ### A replica behind a truncated slice -/

def truncatedView (slots : List SlotView) : ClusterView :=
  { StoredView.zero.view with clusterID := "main", slots }

def observation (index : Nat) (slots : List SlotView)
    (ranged : (truncatedView slots).encode.ranged viewRanges = true) : RangedEntry :=
  ⟨⟨index, .command (.observeView (truncatedView slots).encode)⟩, ranged⟩

/-- The table loses its second slot and gets it back without a replica; the live
controller shows the replica from before, the restored one does not. -/
theorem snapshot_hides_stale_replica :
    let first : SlotView := ⟨0, "a", "b", 1, true⟩
    let before := [observation 1 [first, ⟨1, "a", "b", 1, true⟩] (by decide),
      observation 2 [first] (by decide)]
    let after := [observation 3 [first, ⟨1, "b", "", 2, false⟩] (by decide)]
    let live := FSM.initial.replay (before ++ after)
    let restored := (restored (FSM.initial.replay before).1.persisted).replay after
    live.2 = [none, none, none] ∧ restored.2 = [none] ∧
      live.1.cloneState.latestView.slots.map SlotView.replicaID = ["b", "b"] ∧
      restored.1.cloneState.latestView.slots.map SlotView.replicaID = ["b", ""] := by
  refine ⟨rfl, rfl, rfl, rfl⟩

end FSM

end MnemoKV
