import MnemoKV.PlanSemantics

/-!
# What a round of the observer shows

The slots of an observed view are those of one node that answered, and the row of
a peer tells how its own poll went.  A peer that has been confirmed as failed stays
so as long as it does not answer.
-/

namespace MnemoKV

/-- The part of a row that says whether the node may be used. -/
def NodeView.standing (node : NodeView) : Bool × Bool × Bool :=
  (node.reachable, node.suspected, node.eligible)

namespace NodeViews

theorem standing_adjust {nodes : NodeViews} {owner : String}
    {change : NodeView → NodeView}
    (keeps : ∀ node : NodeView, (change node).standing = node.standing)
    (nodeID : String) :
    ((nodes.adjust owner change).getD nodeID .zero).standing =
      (nodes.getD nodeID .zero).standing := by
  rw [adjust, Std.ExtTreeMap.getD_insert]
  split_ifs with same
  · rw [keeps, Std.LawfulEqCmp.eq_of_compare same]
  · rfl

theorem mem_adjust {nodes : NodeViews} {owner nodeID : String}
    {change : NodeView → NodeView} :
    nodeID ∈ nodes.adjust owner change ↔ owner = nodeID ∨ nodeID ∈ nodes := by
  rw [adjust, Std.ExtTreeMap.mem_insert, Std.LawfulEqCmp.compare_eq_iff_eq]

/-- Counting slots says nothing about availability. -/
theorem standing_countOwners (slots : List SlotStatus) (nodes : NodeViews)
    (nodeID : String) :
    ((slots.foldl countOwners nodes).getD nodeID .zero).standing =
      (nodes.getD nodeID .zero).standing := by
  induction slots generalizing nodes with
  | nil => rfl
  | cons slot rest induction =>
      rw [List.foldl_cons, induction]
      unfold countOwners
      dsimp only
      split_ifs
      · refine standing_adjust ?_ nodeID
        exact fun _ => rfl
      · refine (standing_adjust ?_ nodeID).trans (standing_adjust ?_ nodeID)
        · exact fun _ => rfl
        · exact fun _ => rfl

theorem mem_countOwners {slots : List SlotStatus} {nodes : NodeViews} {nodeID : String}
    (known : nodeID ∈ nodes ∨ nodeID ≠ "" ∧
      ∃ slot ∈ slots, slot.leaderID = nodeID ∨ slot.replicaID = nodeID) :
    nodeID ∈ slots.foldl countOwners nodes := by
  induction slots generalizing nodes with
  | nil =>
      rcases known with known | ⟨-, slot, none, -⟩
      · exact known
      · cases none
  | cons first rest induction =>
      rw [List.foldl_cons]
      have counted : nodeID ∈ nodes ∨ first.leaderID = nodeID ∨
          nodeID ≠ "" ∧ first.replicaID = nodeID → nodeID ∈ nodes.countOwners first := by
        intro here
        unfold countOwners
        dsimp only
        split_ifs with cleared
        · rw [mem_adjust]
          rcases here with known | leads | ⟨named, replicates⟩
          · exact .inr known
          · exact .inl leads
          · exact absurd (replicates.symm.trans cleared) named
        · rw [mem_adjust, mem_adjust]
          rcases here with known | leads | ⟨-, replicates⟩
          · exact .inr (.inr known)
          · exact .inr (.inl leads)
          · exact .inl replicates
      rcases known with known | ⟨named, slot, member, owns⟩
      · exact induction (.inl (counted (.inl known)))
      · rcases List.mem_cons.mp member with rfl | later
        · refine induction (.inl (counted (.inr ?_)))
          exact owns.imp_right fun replicates => ⟨named, replicates⟩
        · exact induction (.inr ⟨named, slot, later, owns⟩)

theorem getElem?_foldl_insert {rows : String → NodeView} (peers : List String)
    (nodes : NodeViews) (nodeID : String) :
    (peers.foldl (fun (nodes : NodeViews) peer => nodes.insert peer (rows peer))
      nodes)[nodeID]? =
        if nodeID ∈ peers then some (rows nodeID) else nodes[nodeID]? := by
  induction peers generalizing nodes with
  | nil => rfl
  | cons peer rest induction =>
      rw [List.foldl_cons, induction, Std.ExtTreeMap.getElem?_insert]
      by_cases later : nodeID ∈ rest
      · simp [later]
      · by_cases same : peer = nodeID
        · subst same
          simp
        · have other : ¬ nodeID = peer := fun equal => same equal.symm
          simp [later, same, other]

end NodeViews

/-- Whether an owner is available, from the row that it has or would get. -/
theorem ownerAvailable_eq (nodes : NodeViews) (nodeID : String) :
    ownerAvailable nodes nodeID =
      (decide (nodeID ≠ "") && (nodes.getD nodeID .zero).standing.1 &&
        (nodes.getD nodeID .zero).standing.2.2) := by
  unfold ownerAvailable NodeView.standing
  rw [Std.ExtTreeMap.getD_eq_getD_getElem?]
  by_cases unnamed : nodeID = ""
  · simp [unnamed]
  · cases found : nodes[nodeID]? with
    | none => simp [unnamed, NodeView.zero]
    | some node => simp [unnamed]

namespace Observer

variable {observer : Observer} {now : Int} {answers : String → PeerAnswer}

/-- The row of a node after a round, before slots are counted. -/
def row (observer : Observer) (now : Int) (answers : String → PeerAnswer)
    (nodeID : String) : NodeView :=
  if nodeID ∈ observer.peers then
    (observer.visitPeer now nodeID ((answers nodeID).accepted nodeID)).2
  else .zero

theorem selectQuorumState_mem {states : List ClusterStateResponse} {quorum : Nat}
    {canonical : ClusterStateResponse}
    (selected : selectQuorumState states quorum = some canonical) :
    canonical ∈ states := by
  have listed := List.mem_of_mem_head? selected
  exact (List.mem_filter.mp ((List.perm_insertionSort ..).mem_iff.mp listed)).1

/-- A view has the slots of a peer that answered, and a row with the right standing
for every peer and every owner. -/
theorem pollOnce_view {view : ClusterView}
    (observed : (observer.pollOnce now answers).2 = some view) :
    (∃ peer ∈ observer.peers, ∃ canonical,
      (answers peer).accepted peer = some canonical ∧
        view.slots = canonical.slots.map SlotStatus.view) ∧
    ∀ nodeID, (nodeID ∈ observer.peers ∨ nodeID ≠ "" ∧
        ∃ slot ∈ view.slots, slot.leaderID = nodeID ∨ slot.replicaID = nodeID) →
      ∃ node, view.nodes[nodeID]? = some node ∧
        node.standing = (observer.row now answers nodeID).standing := by
  simp only [pollOnce] at observed
  obtain ⟨canonical, selected, rfl⟩ := Option.map_eq_some_iff.mp observed
  obtain ⟨peer, listed, accepted⟩ :=
    List.mem_filterMap.mp (selectQuorumState_mem selected)
  refine ⟨⟨peer, listed, canonical, accepted, rfl⟩, fun nodeID known => ?_⟩
  simp only [ClusterView.observed] at known ⊢
  generalize based : observer.peers.foldl (fun (nodes : NodeViews) peer =>
    nodes.insert peer
      (observer.visitPeer now peer ((answers peer).accepted peer)).2) ∅ = base
  have rows : ∀ other, base[other]? = if other ∈ observer.peers then
      some (observer.visitPeer now other ((answers other).accepted other)).2
      else none := by
    intro other
    rw [← based, NodeViews.getElem?_foldl_insert]
    simp
  have present : nodeID ∈ canonical.slots.foldl NodeViews.countOwners base := by
    refine NodeViews.mem_countOwners ?_
    rcases known with polled | ⟨named, slot, member, owns⟩
    · left
      rw [Std.ExtTreeMap.mem_iff_isSome_getElem?, rows, if_pos polled]
      rfl
    · obtain ⟨status, reported, rfl⟩ := List.mem_map.mp member
      exact .inr ⟨named, status, reported, owns⟩
  obtain ⟨node, found⟩ := Option.isSome_iff_exists.mp
    (Std.ExtTreeMap.mem_iff_isSome_getElem?.mp present)
  refine ⟨node, found, ?_⟩
  have counted := NodeViews.standing_countOwners canonical.slots base nodeID
  rw [Std.ExtTreeMap.getD_eq_getD_getElem?, found, Option.getD_some,
    Std.ExtTreeMap.getD_eq_getD_getElem?, rows] at counted
  rw [counted, row]
  split_ifs <;> rfl

/-! ### Confirmed failures -/

/-- Enough misses, or long enough ones. -/
def Confirmed (observer : Observer) (now : Int) (record : FailureRecord) : Prop :=
  (0 < observer.failureCount ∧ observer.failureCount ≤ record.consecutive) ∨
    0 < observer.failureAfter ∧ ∃ first, record.firstMiss = some first ∧
      observer.failureAfter ≤ now - first

theorem missed_failed_iff (record : FailureRecord) :
    (observer.missed now record).failed = true ↔
      observer.Confirmed now (observer.missed now record) := by
  simp [missed, Confirmed]

theorem Confirmed.later {record : FailureRecord}
    (confirmed : observer.Confirmed now record) {later : Int} (after : now ≤ later) :
    observer.Confirmed later record := by
  rcases confirmed with often | ⟨bounded, first, began, long⟩
  · exact .inl often
  · exact .inr ⟨bounded, first, began, by omega⟩

/-- One more miss takes nothing back. -/
theorem Confirmed.missed {record : FailureRecord}
    (confirmed : observer.Confirmed now record) :
    observer.Confirmed now (observer.missed now record) := by
  rcases confirmed with ⟨counted, often⟩ | ⟨bounded, first, began, long⟩
  · exact .inl ⟨counted, Nat.le_succ_of_le often⟩
  · exact .inr ⟨bounded, first, by simp [Observer.missed, began], long⟩

theorem failures_of_missed {peer : String} (listed : peer ∈ observer.peers)
    (missed : (answers peer).accepted peer = none) :
    (observer.pollOnce now answers).1.failures peer =
      observer.missed now (observer.failures peer) := by
  simp [pollOnce, listed, missed, visitPeer]

end Observer

end MnemoKV
