import MnemoKV.ClusterObservation
import MnemoKV.Groupings
import MnemoKV.SliceSorts
import Mathlib.Data.List.Count

/-!
# Selecting the table of a quorum

`selectQuorumState` as the source computes it: the answers are grouped by a digest of the
fields on which nodes have to agree, the groups are visited in the order of a map, and
those with a quorum are sorted.  With a majority as the quorum there is at most one of
them, so none of these orders matters, nor does that of the answers.
-/

namespace MnemoKV

open Groupings

/-- The fields that go into the digest. -/
structure QuorumFields where
  clusterID : String
  slotCount : Nat
  version : Nat
  slots : List SlotStatus
  deriving DecidableEq

/-- What makes two responses count as one. -/
def ClusterStateResponse.quorumFields (state : ClusterStateResponse) : QuorumFields :=
  { clusterID := state.clusterID, slotCount := state.slotCount
    version := state.metadataVersion, slots := state.slots }

theorem ClusterStateResponse.agrees_iff (first second : ClusterStateResponse) :
    first.agrees second = true ↔ first.quorumFields = second.quorumFields := by
  simp only [agrees, quorumFields, Bool.and_eq_true, beq_iff_eq, QuorumFields.mk.injEq]
  tauto

/-- `no quorum-consistent cluster state`, with the number of responses and the quorum. -/
structure NoQuorum where
  responses : Nat
  quorum : Nat
  deriving DecidableEq

section Selection

variable {Digest : Type} [DecidableEq Digest]

/-- How a map of groups is iterated over. -/
abbrev Iteration (Digest : Type) :=
  List (Sigma fun _ : Digest => Tally ClusterStateResponse) →
    List (Sigma fun _ : Digest => Tally ClusterStateResponse)

/-- The groups that have a quorum. -/
def quorumCandidates (digest : QuorumFields → Digest) (iterate : Iteration Digest)
    (states : List ClusterStateResponse) (quorum : Nat) :
    List (Tally ClusterStateResponse) :=
  let groups := collect (fun state => digest state.quorumFields) states
  ((iterate groups.entries).map Sigma.snd).filter fun group => quorum ≤ group.count

def selectQuorumStateBy [SliceSort] (digest : QuorumFields → Digest)
    (iterate : Iteration Digest) (states : List ClusterStateResponse) (quorum : Nat) :
    Except NoQuorum ClusterStateResponse :=
  let sorted := SliceSort.sort (fun first second =>
      decide (second.first.metadataVersion < first.first.metadataVersion))
    (quorumCandidates digest iterate states quorum)
  match sorted.head? with
  | none => .error { responses := states.length, quorum }
  | some candidate => .ok candidate.first

/-- How many answers have the given fields. -/
abbrev reports (states : List ClusterStateResponse) (fields : QuorumFields) : Nat :=
  occurrences ClusterStateResponse.quorumFields states fields

variable {digest : QuorumFields → Digest} {iterate : Iteration Digest}
  {states : List ClusterStateResponse} {quorum : Nat}

theorem occurrences_digest (identifies : Function.Injective digest)
    (states : List ClusterStateResponse) (fields : QuorumFields) :
    occurrences (fun state => digest state.quorumFields) states (digest fields) =
      reports states fields := by
  have counted := List.count_map_of_injective
    (states.map ClusterStateResponse.quorumFields) digest identifies fields
  rw [List.map_map] at counted
  exact counted

section Identified

variable (identifies : Function.Injective digest)
  (iterates : ∀ entries, (iterate entries).Perm entries)

include identifies iterates

theorem reports_of_mem_candidates {candidate : Tally ClusterStateResponse}
    (listed : candidate ∈ quorumCandidates digest iterate states quorum) :
    candidate.first ∈ states ∧ quorum ≤ reports states candidate.first.quorumFields := by
  obtain ⟨mapped, enough⟩ := List.mem_filter.mp listed
  obtain ⟨⟨name, candidate⟩, entry, rfl⟩ := List.mem_map.mp mapped
  obtain ⟨found, counted⟩ := mem_entries_collect.mp ((iterates _).mem_iff.mp entry)
  have named : digest candidate.first.quorumFields = name := by
    simpa using List.find?_some found
  refine ⟨List.mem_of_find?_eq_some found, ?_⟩
  rw [← occurrences_digest identifies, named, ← counted]
  exact of_decide_eq_true enough

theorem exists_candidate {fields : QuorumFields} (positive : 0 < quorum)
    (enough : quorum ≤ reports states fields) :
    ∃ candidate ∈ quorumCandidates digest iterate states quorum,
      candidate.first.quorumFields = fields := by
  rw [← occurrences_digest identifies] at enough
  cases found : states.find? fun state => digest state.quorumFields = digest fields with
  | none =>
      rw [find?_eq_none_iff_occurrences] at found
      omega
  | some first =>
      have named : digest first.quorumFields = digest fields := by
        simpa using List.find?_some found
      refine ⟨⟨first, _⟩, List.mem_filter.mpr ⟨List.mem_map.mpr ⟨⟨digest fields, _⟩,
        (iterates _).mem_iff.mpr (mem_entries_collect.mpr ⟨found, rfl⟩), rfl⟩, ?_⟩,
        identifies named⟩
      exact decide_eq_true enough

variable [SliceSort]

theorem selectQuorumStateBy_ok {state : ClusterStateResponse}
    (selected : selectQuorumStateBy digest iterate states quorum = .ok state) :
    state ∈ states ∧ quorum ≤ reports states state.quorumFields := by
  unfold selectQuorumStateBy at selected
  dsimp only at selected
  split at selected
  · cases selected
  · rename_i candidate first
    obtain rfl := Except.ok.inj selected
    exact reports_of_mem_candidates identifies iterates
      (SliceSort.mem_sort.mp (List.mem_of_mem_head? first))

theorem selectQuorumStateBy_error {failure : NoQuorum} (positive : 0 < quorum)
    (refused : selectQuorumStateBy digest iterate states quorum = .error failure) :
    failure = ⟨states.length, quorum⟩ ∧ ∀ fields, reports states fields < quorum := by
  unfold selectQuorumStateBy at refused
  dsimp only at refused
  split at refused
  · rename_i none
    refine ⟨(Except.error.inj refused).symm, fun fields => ?_⟩
    by_contra enough
    obtain ⟨candidate, listed, -⟩ :=
      exists_candidate identifies iterates positive (not_lt.mp enough)
    rw [List.head?_eq_none_iff] at none
    exact List.not_mem_nil (none ▸ SliceSort.mem_sort.mpr listed)
  · cases refused

end Identified

/-- A majority selects at most one table, whatever the order of the answers, of the groups
and of equal versions. -/
theorem quorum_selection_is_unique [SliceSort] (digest : QuorumFields → Digest)
    (identifies : Function.Injective digest) (iterate : Iteration Digest)
    (iterates : ∀ entries, (iterate entries).Perm entries) (peers : Nat)
    (states : List ClusterStateResponse) (onePerPeer : states.length ≤ peers) :
    let quorum := peers / 2 + 1
    let outcome := selectQuorumStateBy digest iterate states quorum
    ((∃ state, outcome = .ok state) ↔ ∃ fields, quorum ≤ reports states fields) ∧
      (∀ state, outcome = .ok state → quorum ≤ reports states state.quorumFields) ∧
      (∀ fields fields', quorum ≤ reports states fields →
        quorum ≤ reports states fields' → fields = fields') ∧
      ∀ (states' : List ClusterStateResponse) (iterate' : Iteration Digest),
        states'.Perm states → (∀ entries, (iterate' entries).Perm entries) →
        (selectQuorumStateBy digest iterate' states' quorum).map
            ClusterStateResponse.quorumFields =
          outcome.map ClusterStateResponse.quorumFields := by
  intro quorum outcome
  have positive : 0 < quorum := Nat.succ_pos _
  have reported : ∀ state, outcome = .ok state → quorum ≤ reports states state.quorumFields :=
    fun state selected => (selectQuorumStateBy_ok identifies iterates selected).2
  have unique : ∀ fields fields', quorum ≤ reports states fields →
      quorum ≤ reports states fields' → fields = fields' :=
    fun fields fields' => majority_unique onePerPeer
  refine ⟨⟨?_, ?_⟩, reported, unique, fun states' iterate' arrived iterates' => ?_⟩
  · rintro ⟨state, selected⟩
    exact ⟨state.quorumFields, reported state selected⟩
  · rintro ⟨fields, enough⟩
    cases decided : outcome with
    | ok state => exact ⟨state, rfl⟩
    | error failure =>
        have none := (selectQuorumStateBy_error identifies iterates positive decided).2 fields
        omega
  · have sameReports : ∀ fields, reports states' fields = reports states fields :=
      occurrences_perm arrived
    cases decided : outcome with
    | error failure =>
        obtain ⟨rfl, none⟩ := selectQuorumStateBy_error identifies iterates positive decided
        cases decided' : selectQuorumStateBy digest iterate' states' quorum with
        | error failure' =>
            obtain ⟨rfl, -⟩ := selectQuorumStateBy_error identifies iterates' positive decided'
            rw [arrived.length_eq]
        | ok state =>
            have enough := (selectQuorumStateBy_ok identifies iterates' decided').2
            have few := none state.quorumFields
            rw [sameReports] at enough
            omega
    | ok state =>
        have enough := reported state decided
        cases decided' : selectQuorumStateBy digest iterate' states' quorum with
        | error failure' =>
            have few := (selectQuorumStateBy_error identifies iterates' positive decided').2
              state.quorumFields
            rw [sameReports] at few
            omega
        | ok state' =>
            have enough' := (selectQuorumStateBy_ok identifies iterates' decided').2
            rw [sameReports] at enough'
            exact congrArg Except.ok (unique _ _ enough' enough)

/-- `selectQuorumState` of the observer's rounds selects a table with the same fields. -/
theorem selectQuorumState_eq [SliceSort] (identifies : Function.Injective digest)
    (iterates : ∀ entries, (iterate entries).Perm entries) {peers : Nat}
    (onePerPeer : states.length ≤ peers) :
    (selectQuorumState states (peers / 2 + 1)).map ClusterStateResponse.quorumFields =
      (selectQuorumStateBy digest iterate states (peers / 2 + 1)).toOption.map
        ClusterStateResponse.quorumFields := by
  have positive : 0 < peers / 2 + 1 := Nat.succ_pos _
  have reported : ∀ state ∈ states, (states.countP fun other => other.agrees state) =
      reports states state.quorumFields := by
    intro state _
    rw [reports, occurrences, List.count, List.countP_map]
    refine List.countP_congr fun other _ => ?_
    simp [ClusterStateResponse.agrees_iff]
  cases selected : selectQuorumState states (peers / 2 + 1) with
  | none =>
      cases decided : selectQuorumStateBy digest iterate states (peers / 2 + 1) with
      | error failure => rfl
      | ok state =>
          obtain ⟨member, enough⟩ := selectQuorumStateBy_ok identifies iterates decided
          rw [← reported state member] at enough
          rw [selectQuorumState, List.head?_eq_none_iff] at selected
          have listed : state ∈ states.filter fun state =>
              decide (peers / 2 + 1 ≤ states.countP fun other => other.agrees state) :=
            List.mem_filter.mpr ⟨member, decide_eq_true enough⟩
          have sorted := (List.perm_insertionSort (fun first second : ClusterStateResponse =>
            second.metadataVersion ≤ first.metadataVersion) _).mem_iff.mpr listed
          rw [selected] at sorted
          exact absurd sorted List.not_mem_nil
  | some state =>
      have listed := (List.perm_insertionSort _ _).mem_iff.mp (List.mem_of_mem_head? selected)
      obtain ⟨member, enough⟩ := List.mem_filter.mp listed
      rw [decide_eq_true_eq, reported state member] at enough
      cases decided : selectQuorumStateBy digest iterate states (peers / 2 + 1) with
      | error failure =>
          have few := (selectQuorumStateBy_error identifies iterates positive decided).2
            state.quorumFields
          omega
      | ok state' =>
          have enough' := (selectQuorumStateBy_ok identifies iterates decided).2
          exact congrArg some (majority_unique onePerPeer enough enough')

end Selection

section Outvoted

/-- A table of one slot in the given version. -/
def answerOf (nodeID : String) (version : Nat) : ClusterStateResponse :=
  { enabled := true, nodeID, clusterID := "main", slotCount := 1, metadataVersion := version
    slots := [⟨0, "a", "b", 1, true⟩], dataState := .active }

/-- Two of three nodes outvote the third, which has a newer table. -/
theorem newer_table_is_outvoted :
    letI := SliceSort.insertion
    let states := [answerOf "a" 1, answerOf "b" 2, answerOf "c" 1]
    (∃ state, selectQuorumStateBy id List.reverse states 2 = .ok state) ∧
      (selectQuorumStateBy id List.reverse states 2).map
          ClusterStateResponse.quorumFields = .ok (answerOf "c" 1).quorumFields := by
  let := SliceSort.insertion
  let states := [answerOf "a" 1, answerOf "b" 2, answerOf "c" 1]
  obtain ⟨succeeds, reported, unique, -⟩ := quorum_selection_is_unique id
    Function.injective_id List.reverse (fun entries => entries.reverse_perm) 3 states
    (by decide)
  have enough : 2 ≤ reports states (answerOf "c" 1).quorumFields := by decide
  obtain ⟨state, selected⟩ := succeeds.mpr ⟨_, enough⟩
  refine ⟨⟨state, selected⟩, ?_⟩
  rw [selected]
  exact congrArg Except.ok (unique _ _ (reported state selected) enough)

end Outvoted
end MnemoKV
