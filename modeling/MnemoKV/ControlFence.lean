import Mathlib.Data.Nat.Basic
import MnemoKV.HexText
import MnemoKV.LabelledRuns

/-!
# The control index fence

A node persists the highest control index that it has accepted, with a digest of the
operation, before the operation runs.  The process may stop around the write and
start again from the file.  The file never falls behind what was accepted, so no
index is accepted as new twice.
-/

namespace MnemoKV

open LabelledRuns

/-- A SHA-256 sum. -/
abbrev Digest := { bytes : Bytes // bytes.length = 32 }

/-- What the fence keeps on disk. -/
structure FenceState where
  controlIndex : Nat
  operationDigest : Bytes
  deriving DecidableEq

def FenceState.zero : FenceState := { controlIndex := 0, operationDigest := [] }

/-- The state that a file contains; a missing file stands for the zero state. -/
def openFenceStore : Option FenceState → Option FenceState
  | none => some .zero
  | some state =>
      if 0 < state.controlIndex ∧
          (HexText.decode state.operationDigest).map List.length ≠ some 32 then none
      else some state

/-- Why the fence refuses an operation. -/
inductive FenceError
  | staleControlIndex
  | controlIndexConflict
  | persistFailed
  deriving DecidableEq

/-- A replay has the index and the digest of the last operation. -/
inductive FenceAnswer
  | accepted (replay : Bool)
  | refused (error : FenceError)
  deriving DecidableEq

/-- What becomes of `persist`: the process may stop before the file is replaced, or
before the new state is in memory. -/
inductive WriteFate
  | written
  | failed
  | stopsBefore
  | stopsAfter
  deriving DecidableEq

/-- The file, and the store of the process if one runs. -/
structure FenceNode where
  file : Option FenceState
  memory : Option FenceState
  deriving DecidableEq

/-- What happens to a node with a fence. -/
inductive FenceEvent
  | begin (index : Nat) (digest : Digest) (fate : WriteFate)
  | stop
  | restart

namespace FenceNode

/-- `Begin`: an index has to grow, or come back with its digest. -/
def begin (node : FenceNode) (index : Nat) (digest : Digest) (fate : WriteFate) :
    FenceNode × Option FenceAnswer :=
  match node.memory with
  | none => (node, none)
  | some state =>
      if index = 0 ∨ index < state.controlIndex then
        (node, some (.refused .staleControlIndex))
      else if index = state.controlIndex then
        if HexText.encode digest.val ≠ state.operationDigest then
          (node, some (.refused .controlIndexConflict))
        else (node, some (.accepted true))
      else
        let next := { controlIndex := index, operationDigest := HexText.encode digest.val }
        match fate with
        | .written => ({ file := some next, memory := some next }, some (.accepted false))
        | .failed => (node, some (.refused .persistFailed))
        | .stopsBefore => ({ node with memory := none }, none)
        | .stopsAfter => ({ file := some next, memory := none }, none)

def step (node : FenceNode) : FenceEvent → FenceNode
  | .begin index digest fate => (node.begin index digest fate).1
  | .stop => { node with memory := none }
  | .restart => { node with memory := openFenceStore node.file }

/-- The answer that an event brings, if any. -/
def answer (node : FenceNode) : FenceEvent → Option FenceAnswer
  | .begin index digest fate => (node.begin index digest fate).2
  | _ => none

/-- The indices that a run accepts as new, in order. -/
def newIndices : FenceNode → List FenceEvent → List Nat
  | _, [] => []
  | node, event :: rest =>
      match event, node.answer event with
      | .begin index _ _, some (.accepted false) => index :: newIndices (node.step event) rest
      | _, _ => newIndices (node.step event) rest

/-! ### One event -/

/-- The persisted index. -/
def persisted (node : FenceNode) : Nat := (node.file.getD .zero).controlIndex

/-- A process that runs works with the persisted state. -/
def InStep (node : FenceNode) : Prop :=
  ∀ state, node.memory = some state → node.file.getD .zero = state

/-- All that `Begin` can do. -/
inductive Begun (node : FenceNode) (index : Nat) (digest : Digest) :
    FenceNode → Option FenceAnswer → Prop
  | down (stopped : node.memory = none) : Begun node index digest node none
  | refused {state : FenceState} (runs : node.memory = some state) (error : FenceError) :
      Begun node index digest node (some (.refused error))
  | replayed {state : FenceState} (runs : node.memory = some state)
      (current : index = state.controlIndex)
      (same : HexText.encode digest.val = state.operationDigest) :
      Begun node index digest node (some (.accepted true))
  | accepted {state : FenceState} (runs : node.memory = some state)
      (newer : state.controlIndex < index) :
      Begun node index digest ⟨some ⟨index, HexText.encode digest.val⟩,
        some ⟨index, HexText.encode digest.val⟩⟩ (some (.accepted false))
  | unwritten {state : FenceState} (runs : node.memory = some state)
      (newer : state.controlIndex < index) :
      Begun node index digest ⟨node.file, none⟩ none
  | unanswered {state : FenceState} (runs : node.memory = some state)
      (newer : state.controlIndex < index) :
      Begun node index digest ⟨some ⟨index, HexText.encode digest.val⟩, none⟩ none

theorem begun (node : FenceNode) (index : Nat) (digest : Digest) (fate : WriteFate) :
    Begun node index digest (node.begin index digest fate).1
      (node.begin index digest fate).2 := by
  unfold begin
  split
  · rename_i stopped
    exact .down stopped
  · rename_i state runs
    split_ifs with stale current conflict
    · exact .refused runs _
    · exact .refused runs _
    · exact .replayed runs current (not_not.mp conflict)
    · have newer : state.controlIndex < index := by omega
      cases fate with
      | written => exact .accepted runs newer
      | failed => exact .refused runs _
      | stopsBefore => exact .unwritten runs newer
      | stopsAfter => exact .unanswered runs newer

section Steps

variable {node : FenceNode} {index : Nat} {digest : Digest} {fate : WriteFate}
  {state : FenceState}

theorem begin_of_lower (runs : node.memory = some state) (lower : index < state.controlIndex) :
    node.begin index digest fate = (node, some (.refused .staleControlIndex)) := by
  unfold begin
  rw [runs]
  exact if_pos (.inr lower)

theorem begin_of_conflict (runs : node.memory = some state)
    (current : index = state.controlIndex)
    (other : HexText.encode digest.val ≠ state.operationDigest) :
    ∃ error, node.begin index digest fate = (node, some (.refused error)) := by
  unfold begin
  rw [runs]
  dsimp only
  split_ifs
  · exact ⟨_, rfl⟩
  · exact ⟨_, rfl⟩

theorem begin_of_current (runs : node.memory = some state) (positive : index ≠ 0)
    (current : index = state.controlIndex)
    (same : HexText.encode digest.val = state.operationDigest) :
    node.begin index digest fate = (node, some (.accepted true)) := by
  unfold begin
  rw [runs]
  dsimp only
  rw [if_neg (by omega), if_pos current, if_neg (not_not.mpr same)]

theorem inStep_step (inStep : node.InStep) (event : FenceEvent) : (node.step event).InStep := by
  intro state runs
  cases event with
  | begin index digest fate =>
      have begun := node.begun index digest fate
      simp only [step] at runs ⊢
      generalize (node.begin index digest fate).1 = after at begun runs ⊢
      generalize (node.begin index digest fate).2 = answered at begun
      cases begun with
      | accepted => exact Option.some.inj runs
      | unwritten => cases runs
      | unanswered => cases runs
      | down => exact inStep state runs
      | refused => exact inStep state runs
      | replayed => exact inStep state runs
  | stop => cases runs
  | restart =>
      have opened : openFenceStore node.file = some state := runs
      show node.file.getD .zero = state
      cases written : node.file with
      | none =>
          rw [written] at opened
          exact Option.some.inj opened
      | some known =>
          rw [written] at opened
          unfold openFenceStore at opened
          dsimp only at opened
          split_ifs at opened
          exact Option.some.inj opened

theorem persisted_step (inStep : node.InStep) (event : FenceEvent) :
    node.persisted ≤ (node.step event).persisted ∧
      ∀ index digest fate replay, event = .begin index digest fate →
        node.answer event = some (.accepted replay) →
          (node.step event).persisted = index ∧ (replay = false → node.persisted < index) := by
  cases event with
  | begin index digest fate =>
      have begun := node.begun index digest fate
      simp only [step, answer]
      generalize (node.begin index digest fate).1 = after at begun ⊢
      generalize (node.begin index digest fate).2 = answered at begun ⊢
      have persistedIn : ∀ {state}, node.memory = some state →
          node.persisted = state.controlIndex :=
        fun runs => congrArg FenceState.controlIndex (inStep _ runs)
      cases begun with
      | down => exact ⟨Nat.le_refl _, nofun⟩
      | refused => exact ⟨Nat.le_refl _, nofun⟩
      | replayed runs current =>
          refine ⟨Nat.le_refl _, ?_⟩
          rintro _ _ _ replay ⟨⟩ ⟨⟩
          exact ⟨(persistedIn runs).trans current.symm, nofun⟩
      | accepted runs newer =>
          have before := persistedIn runs
          refine ⟨before.trans_le newer.le, ?_⟩
          rintro _ _ _ replay ⟨⟩ ⟨⟩
          exact ⟨rfl, fun _ => before.trans_lt newer⟩
      | unwritten => exact ⟨Nat.le_refl _, nofun⟩
      | unanswered runs newer => exact ⟨(persistedIn runs).trans_le newer.le, nofun⟩
  | stop => exact ⟨Nat.le_refl _, nofun⟩
  | restart => exact ⟨Nat.le_refl _, nofun⟩

/-! ### Whole runs -/

theorem newIndices_increasing (inStep : node.InStep) (events : List FenceEvent) :
    (∀ index ∈ node.newIndices events, node.persisted < index) ∧
      (node.newIndices events).Pairwise (· < ·) := by
  induction events generalizing node with
  | nil => exact ⟨nofun, List.Pairwise.nil⟩
  | cons event rest induction =>
      obtain ⟨grows, accepts⟩ := persisted_step inStep event
      obtain ⟨above, increasing⟩ := induction (inStep_step inStep event)
      unfold newIndices
      split
      · rename_i index digest fate answered
        obtain ⟨kept, newer⟩ := accepts index digest fate false rfl answered
        refine ⟨fun other listed => ?_, List.pairwise_cons.mpr ⟨?_, increasing⟩⟩
        · rcases List.mem_cons.mp listed with rfl | later
          · exact newer rfl
          · exact grows.trans_lt (above other later)
        · intro other later
          rw [← kept]
          exact above other later
      · exact ⟨fun other listed => grows.trans_lt (above other listed), increasing⟩

theorem inStep_stateAt (file : Option FenceState) {events : List FenceEvent} {position : Nat}
    (bounded : position ≤ events.length) : (stateAt step ⟨file, none⟩ events position).InStep :=
  stateAt_induction step ⟨file, none⟩ events InStep (fun _ runs => nomatch runs)
    (fun _ _ inStep => inStep_step inStep _) bounded

/-- An index that was accepted stays below the persisted one. -/
theorem accepted_le_persisted (file : Option FenceState) {events : List FenceEvent}
    {earlier position : Nat} (before : earlier < position) (bounded : position ≤ events.length)
    {replay : Bool} (event : events[earlier] = .begin index digest fate)
    (answered : (stateAt step ⟨file, none⟩ events earlier).answer events[earlier] =
      some (.accepted replay)) :
    index ≤ (stateAt step ⟨file, none⟩ events position).persisted := by
  have inRange : earlier < events.length := before.trans_le bounded
  have accepted := (persisted_step (inStep_stateAt file inRange.le) events[earlier]).2 index
    digest fate replay event answered
  rw [← stateAt_succ step ⟨file, none⟩ events inRange] at accepted
  rw [← accepted.1]
  exact measure_stateAt_mono step persisted ⟨file, none⟩ events
    (fun index inRange => (persisted_step (inStep_stateAt file inRange.le) _).1) before bounded

/-- A file that `Begin` wrote is accepted at the next start. -/
theorem openFenceStore_written (index : Nat) (digest : Digest) :
    openFenceStore (some ⟨index, HexText.encode digest.val⟩) =
      some ⟨index, HexText.encode digest.val⟩ := by
  refine if_neg ?_
  rintro ⟨-, broken⟩
  rw [HexText.decode_encode, Option.map_some, digest.property] at broken
  exact broken rfl

/-- Whenever the process stops, it can start again. -/
theorem restart_opens {file : Option FenceState} (opens : (openFenceStore file).isSome)
    {events : List FenceEvent} {position : Nat} (bounded : position ≤ events.length) :
    (openFenceStore (stateAt step ⟨file, none⟩ events position).file).isSome := by
  refine stateAt_induction step ⟨file, none⟩ events
    (fun node => (openFenceStore node.file).isSome) opens (fun position inRange opens => ?_)
    bounded
  cases events[position] with
  | begin index digest fate =>
      have begun := FenceNode.begun (stateAt step ⟨file, none⟩ events position) index digest fate
      simp only [step]
      generalize (FenceNode.begin _ _ _ _).1 = after at begun ⊢
      generalize (FenceNode.begin _ _ _ _).2 = answered at begun
      cases begun with
      | down => exact opens
      | refused => exact opens
      | replayed => exact opens
      | unwritten => exact opens
      | accepted =>
          rw [openFenceStore_written]
          rfl
      | unanswered =>
          rw [openFenceStore_written]
          rfl
  | stop => exact opens
  | restart => exact opens

theorem restart_opens_after_lost_answer :
    let digest : Digest := ⟨List.replicate 32 0, List.length_replicate⟩
    (openFenceStore (stateAt step ⟨none, none⟩
      [.restart, .begin 5 digest .stopsAfter] 2).file).isSome :=
  restart_opens (by decide) (by decide)

end Steps

/-- Over any calls of `Begin` and restarts, also around the write: the indices that are
accepted as new increase strictly; a call with a lower index than an accepted one, or
with the current index and another digest, is refused; and a call that is refused or
fails leaves the file and the store as they were. -/
theorem control_indices_are_accepted_once (file : Option FenceState)
    (events : List FenceEvent) :
    (newIndices ⟨file, none⟩ events).Pairwise (· < ·) ∧
    ∀ position (inRange : position < events.length) index digest fate,
      events[position] = .begin index digest fate →
      ∀ node, stateAt step ⟨file, none⟩ events position = node →
      ∀ state, node.memory = some state →
        ((∃ earlier, ∃ before : earlier < position, ∃ accepted digest fate replay,
            events[earlier] = .begin accepted digest fate ∧
            (stateAt step ⟨file, none⟩ events earlier).answer events[earlier] =
              some (.accepted replay) ∧ index < accepted) ∨
          index = state.controlIndex ∧
            HexText.encode digest.val ≠ state.operationDigest →
          ∃ error, node.answer events[position] = some (.refused error)) ∧
        ∀ error, node.answer events[position] = some (.refused error) →
          node.step events[position] = node := by
  have stopped : InStep ⟨file, none⟩ := by
    intro state runs
    cases runs
  refine ⟨(newIndices_increasing stopped events).2, ?_⟩
  rintro position inRange index digest fate event node rfl state runs
  rw [event]
  refine ⟨?_, ?_⟩
  · rintro (⟨earlier, before, accepted, _, _, _, first, answered, lower⟩ | ⟨current, other⟩)
    · have kept := accepted_le_persisted file before inRange.le first answered
      rw [persisted, inStep_stateAt file inRange.le state runs] at kept
      exact ⟨_, congrArg Prod.snd (begin_of_lower runs (lower.trans_le kept))⟩
    · obtain ⟨error, refused⟩ := begin_of_conflict runs current other
      exact ⟨error, congrArg Prod.snd refused⟩
  · intro error answered
    have begun := FenceNode.begun (stateAt step ⟨file, none⟩ events position) index digest fate
    simp only [answer] at answered
    rw [answered] at begun
    simp only [step]
    generalize (FenceNode.begin _ _ _ _).1 = after at begun ⊢
    cases begun with
    | refused => rfl

end FenceNode

end MnemoKV
