import MnemoKV.LinearHistories
import MnemoKV.MetadataSequenceRuns
import MnemoKV.SlotOwnership

/-!
# One history of slot tables

If topology changes are made only on a node with the newest table, the tables of
all nodes are taken from a single history with one table for each version.  Merges
only move a node forward in it, whatever the order in which tables arrive.
-/

namespace MnemoKV

open LabelledRuns LinearHistories

namespace MetadataCluster

/-- Topology changes are made on a node that has the newest table. -/
def OnNewest (cluster : MetadataCluster) : MetadataOp → Prop
  | .promote node slot =>
      ((cluster.nodes node).promote slot).isOk →
        ∀ other, (cluster.nodes other).version ≤ (cluster.nodes node).version
  | .assignReplica node slot target =>
      ((cluster.nodes node).assignReplica slot target).isOk →
        ∀ other, (cluster.nodes other).version ≤ (cluster.nodes node).version
  | .markReplicaReady sync =>
      ∀ pending, cluster.syncs[sync]? = some pending →
        ((cluster.nodes pending.node).markReplicaReady pending.slot pending.term
          pending.sequence).isOk →
        ∀ other,
          (cluster.nodes other).version ≤ (cluster.nodes pending.node).version
  | _ => True

/-- The history has the tables of all nodes. -/
def RecordedIn (history : List OwnerTable) (cluster : MetadataCluster) : Prop :=
  ∀ node, Recorded history (cluster.nodes node).version (cluster.nodes node).owners

/-- The tables of the nodes and those on their way are taken from one history of
well-formed tables, the last of which some node has. -/
structure Follows (history : List OwnerTable) (cluster : MetadataCluster) : Prop where
  nodes : cluster.RecordedIn history
  published : ∀ message ∈ cluster.published,
    Recorded history message.2.version message.2.owners
  ordered : history.Pairwise OwnerTable.Precedes
  wellFormed : ∀ table ∈ history, ∀ slot ∈ table, slot.WellFormed
  newest : ∃ node, (cluster.nodes node).version = history.length

variable {history : List OwnerTable} {cluster : MetadataCluster} {node : String}
  {result : Metadata}

theorem RecordedIn.append (recorded : cluster.RecordedIn history)
    (table : OwnerTable) : cluster.RecordedIn (history ++ [table]) :=
  fun node => (recorded node).append table

/-- A change on a node with the newest table makes the next entry. -/
theorem Follows.change (follows : cluster.Follows history)
    (newest : ∀ other, (cluster.nodes other).version ≤ (cluster.nodes node).version)
    (changes : (cluster.nodes node).Changes result) :
    (cluster.install node (.ok result)).Follows (history ++ [result.owners]) := by
  obtain ⟨version, number, old, new, present, precedes, keeps, owners⟩ := changes
  have recorded := follows.nodes node
  have last : (cluster.nodes node).version = history.length := by
    obtain ⟨other, top⟩ := follows.newest
    have above := newest other
    have bounded := recorded.le_length
    omega
  rw [last] at version recorded
  refine ⟨?_, ?_, ?_, ?_, node, ?_⟩
  · intro other
    by_cases same : other = node
    · subst same
      simp only [install, Function.update_self, version]
      exact recorded_last history result.owners
    · simp only [install, Function.update_of_ne same]
      exact (follows.nodes other).append _
  · intro message sent
    exact (follows.published message sent).append _
  · refine pairwise_append_last OwnerTable.Precedes.refl OwnerTable.Precedes.trans
      follows.ordered recorded ?_
    rw [owners]
    exact OwnerTable.precedes_set present precedes
  · intro table member slot listed
    rcases List.mem_append.mp member with earlier | final
    · exact follows.wellFormed table earlier slot listed
    · rw [List.mem_singleton.mp final, owners] at listed
      have whole := follows.wellFormed _ recorded.mem
      rcases List.mem_or_eq_of_mem_set listed with other | rfl
      · exact whole slot other
      · exact keeps (whole old (List.mem_of_getElem? present))
  · simp [install, version]

theorem Follows.same (follows : cluster.Follows history)
    (same : result.version = (cluster.nodes node).version ∧
      result.owners = (cluster.nodes node).owners) :
    (cluster.install node (.ok result)).Follows history := by
  have versions : ∀ other, ((cluster.install node (.ok result)).nodes other).version =
      (cluster.nodes other).version := by
    intro other
    by_cases here : other = node
    · subst here
      simp [install, same.1]
    · simp [install, here]
  refine ⟨?_, follows.published, follows.ordered, follows.wellFormed, ?_⟩
  · intro other
    rw [versions]
    by_cases here : other = node
    · subst here
      simp only [install, Function.update_self, same.2]
      exact follows.nodes other
    · simp only [install, Function.update_of_ne here]
      exact follows.nodes other
  · obtain ⟨other, top⟩ := follows.newest
    exact ⟨other, (versions other).trans top⟩

/-- A merge takes the node to a later entry. -/
theorem Follows.merge (follows : cluster.Follows history)
    {incoming : MetadataSnapshot}
    (recorded : Recorded history incoming.version incoming.owners)
    (applied : (cluster.nodes node).applyRemote incoming = .ok result) :
    (cluster.install node (.ok result)).Follows history := by
  obtain ⟨newer, version, owners⟩ := Metadata.owners_applyRemote applied
  refine ⟨?_, follows.published, follows.ordered, follows.wellFormed, ?_⟩
  · intro other
    by_cases here : other = node
    · subst here
      simp only [install, Function.update_self, version, owners]
      exact recorded
    · simp only [install, Function.update_of_ne here]
      exact follows.nodes other
  · obtain ⟨other, top⟩ := follows.newest
    have bounded := recorded.le_length
    have apart : other ≠ node := by
      rintro rfl
      omega
    exact ⟨other, by simp [install, apart, top]⟩

/-- The history goes on so that all it has told stays told. -/
def Continues (history : List OwnerTable) (cluster : MetadataCluster) : Prop :=
  ∃ next, cluster.Follows next ∧
    ∀ state : MetadataCluster, state.RecordedIn history → state.RecordedIn next

theorem Follows.continues (follows : cluster.Follows history) :
    cluster.Continues history :=
  ⟨history, follows, fun _ recorded => recorded⟩

theorem Follows.install_same (follows : cluster.Follows history)
    {attempt : Except ClusterError Metadata}
    (same : ∀ result, attempt = .ok result →
      result.version = (cluster.nodes node).version ∧
        result.owners = (cluster.nodes node).owners) :
    (cluster.install node attempt).Continues history := by
  cases attempt with
  | error _ => exact follows.continues
  | ok result => exact (follows.same (same result rfl)).continues

theorem Follows.install_change (follows : cluster.Follows history)
    {attempt : Except ClusterError Metadata}
    (newest : attempt.isOk →
      ∀ other, (cluster.nodes other).version ≤ (cluster.nodes node).version)
    (changes : ∀ result, attempt = .ok result →
      (cluster.nodes node).Changes result) :
    (cluster.install node attempt).Continues history := by
  cases attempt with
  | error _ => exact follows.continues
  | ok result =>
      exact ⟨_, follows.change (newest rfl) (changes result rfl),
        fun _ recorded => recorded.append _⟩

theorem Follows.install_merge (follows : cluster.Follows history)
    {incoming : MetadataSnapshot}
    (recorded : Recorded history incoming.version incoming.owners) :
    (cluster.install node ((cluster.nodes node).applyRemote incoming)).Continues
      history := by
  cases applied : (cluster.nodes node).applyRemote incoming with
  | error _ => exact follows.continues
  | ok result => exact (follows.merge recorded applied).continues

/-- One step extends the history by at most one entry. -/
theorem Follows.step (follows : cluster.Follows history) (op : MetadataOp)
    (linear : cluster.OnNewest op) : (cluster.step op).Continues history := by
  cases op with
  | commitLeaderSequence node slot term sequence =>
      exact follows.install_same fun _ => Metadata.owners_commitLeaderSequence
  | commitReplicaSequence node slot term sequence =>
      exact follows.install_same fun _ => Metadata.owners_commitReplicaSequence
  | promote node slot =>
      exact follows.install_change linear fun _ => Metadata.changes_promote
  | assignReplica node slot target =>
      exact follows.install_change linear fun _ => Metadata.changes_assignReplica
  | startSync node slot target =>
      simp only [MetadataCluster.step]
      split
      · exact Follows.continues ⟨follows.nodes, follows.published, follows.ordered,
          follows.wellFormed, follows.newest⟩
      · exact follows.continues
  | markReplicaReady sync =>
      simp only [MetadataCluster.step]
      split
      · rename_i pending started
        exact follows.install_change (linear pending started) fun _ =>
          Metadata.changes_markReplicaReady
      · exact follows.continues
  | publish node =>
      refine Follows.continues ⟨follows.nodes, ?_, follows.ordered,
        follows.wellFormed, follows.newest⟩
      intro message sent
      rcases List.mem_append.mp sent with earlier | final
      · exact follows.published message earlier
      · rw [List.mem_singleton.mp final]
        exact follows.nodes node
  | applyRemote node message =>
      simp only [MetadataCluster.step]
      split
      · rename_i sender incoming sent
        split_ifs
        · exact follows.continues
        · exact follows.install_merge
            (follows.published _ (List.mem_of_getElem? sent))
      · exact follows.continues

/-! ### Versions never fall -/

theorem version_install {attempt : Except ClusterError Metadata}
    (grows : ∀ result, attempt = .ok result →
      (cluster.nodes node).version ≤ result.version) (other : String) :
    (cluster.nodes other).version ≤
      ((cluster.install node attempt).nodes other).version := by
  cases attempt with
  | error _ => exact Nat.le_refl _
  | ok result =>
      by_cases here : other = node
      · subst here
        simpa [install] using grows result rfl
      · simp [install, here]

theorem version_step (cluster : MetadataCluster) (op : MetadataOp) (other : String) :
    (cluster.nodes other).version ≤ ((cluster.step op).nodes other).version := by
  cases op with
  | commitLeaderSequence node slot term sequence =>
      exact version_install (fun _ committed =>
        (Metadata.owners_commitLeaderSequence committed).1.ge) other
  | commitReplicaSequence node slot term sequence =>
      exact version_install (fun _ committed =>
        (Metadata.owners_commitReplicaSequence committed).1.ge) other
  | promote node slot =>
      refine version_install (fun _ promoted => ?_) other
      exact (Metadata.changes_promote promoted).version ▸ Nat.le_succ _
  | assignReplica node slot target =>
      refine version_install (fun _ assigned => ?_) other
      exact (Metadata.changes_assignReplica assigned).version ▸ Nat.le_succ _
  | startSync node slot target =>
      simp only [step]
      split <;> exact Nat.le_refl _
  | markReplicaReady sync =>
      simp only [step]
      split
      · refine version_install (fun _ marked => ?_) other
        exact (Metadata.changes_markReplicaReady marked).version ▸ Nat.le_succ _
      · exact Nat.le_refl _
  | publish node => exact Nat.le_refl _
  | applyRemote node message =>
      simp only [step]
      split
      · split_ifs
        · exact Nat.le_refl _
        · exact version_install (fun _ applied =>
            (Metadata.owners_applyRemote applied).1.le) other
      · exact Nat.le_refl _

end MetadataCluster

/-! ### The tables of a new cluster -/

/-- What the validation of a configuration asks of the peers. -/
structure ClusterConfig.Valid (config : ClusterConfig) : Prop where
  named : ∀ peer ∈ config.peers, peer.id ≠ ""
  distinct : (config.peers.map MetadataPeer.id).Nodup
  two : 2 ≤ config.peers.length

theorem next_peer {peerIDs : List String} (distinct : peerIDs.Nodup)
    (two : 2 ≤ peerIDs.length) {index : Nat} {peerID : String}
    (present : peerIDs[index]? = some peerID) :
    peerIDs.getD ((index + 1) % peerIDs.length) "" ∈ peerIDs ∧
      peerID ≠ peerIDs.getD ((index + 1) % peerIDs.length) "" := by
  obtain ⟨inRange, rfl⟩ := List.getElem?_eq_some_iff.mp present
  have nextRange : (index + 1) % peerIDs.length < peerIDs.length :=
    Nat.mod_lt _ (by omega)
  rw [List.getD_eq_getElem?_getD, List.getElem?_eq_getElem nextRange,
    Option.getD_some]
  refine ⟨List.getElem_mem nextRange, fun same => ?_⟩
  have wraps := (List.Nodup.getElem_inj_iff distinct).mp same
  rcases Nat.lt_or_ge (index + 1) peerIDs.length with inner | last
  · rw [Nat.mod_eq_of_lt inner] at wraps
    omega
  · rw [show index + 1 = peerIDs.length by omega, Nat.mod_self] at wraps
    omega

theorem wellFormed_initialSlots {config : ClusterConfig} {peerIDs : List String}
    (named : ∀ peerID ∈ peerIDs, peerID ≠ "") (distinct : peerIDs.Nodup)
    (two : 2 ≤ peerIDs.length) :
    ∀ row ∈ initialSlots config peerIDs, row.owners.WellFormed := by
  intro row member
  obtain ⟨number, inRange, rfl⟩ := List.mem_mapIdx.mp member
  have listed := List.getElem_mem inRange
  generalize (List.flatMap _ peerIDs.zipIdx)[number] = owner at listed ⊢
  obtain ⟨source, present, copied⟩ := List.mem_flatMap.mp listed
  obtain rfl := List.eq_of_mem_replicate copied
  have place := List.mem_zipIdx_iff_getElem?.mp present
  have led := named owner.1 (List.mem_of_getElem? place)
  obtain ⟨next, apart⟩ := next_peer distinct two place
  refine ⟨led, ?_, ?_⟩
  · simp only [SlotState.owners]
    split_ifs
    · exact apart
    · exact led
  · intro enabled
    have enabled : config.replicationEnabled = true := enabled
    simp only [SlotState.owners, enabled, if_true]
    exact named _ next

theorem wellFormed_newMetadata {config : ClusterConfig} (valid : config.Valid)
    (nodeID : String) :
    ∀ row ∈ (newMetadata config nodeID).slots, row.owners.WellFormed := by
  intro row present
  unfold newMetadata at present
  dsimp only at present
  split_ifs at present
  · cases present
  · have sorted := List.perm_insertionSort (· ≤ ·) (config.peers.map MetadataPeer.id)
    refine wellFormed_initialSlots ?_ (sorted.nodup_iff.mpr valid.distinct) ?_ row
      present
    · intro peerID known
      obtain ⟨peer, listed, rfl⟩ := List.mem_map.mp (sorted.mem_iff.mp known)
      exact valid.named peer listed
    · simpa using valid.two

namespace MetadataCluster

/-- A cluster right after the start; `syncs` are the calls of `MarkReplicaReady`
that may come. -/
def start (config : ClusterConfig) (syncs : List PendingSync) : MetadataCluster :=
  { boot config with syncs }

theorem version_newMetadata (config : ClusterConfig) (node : String) :
    (newMetadata config node).version = 1 := by
  unfold newMetadata
  dsimp only
  split_ifs <;> rfl

theorem follows_start {config : ClusterConfig} (valid : config.Valid)
    (syncs : List PendingSync) :
    (start config syncs).Follows [(newMetadata config "").owners] := by
  have owners : ∀ node, (newMetadata config node).owners =
      (newMetadata config "").owners := by
    intro node
    unfold newMetadata
    dsimp only
    split_ifs <;> rfl
  refine ⟨?_, ?_, List.pairwise_singleton .., ?_, "", version_newMetadata config ""⟩
  · intro node
    change Recorded _ (newMetadata config node).version (newMetadata config node).owners
    rw [version_newMetadata]
    exact ⟨Nat.one_pos, congrArg some (owners node).symm⟩
  · exact fun message sent => nomatch sent
  · intro table member slot listed
    rw [List.mem_singleton.mp member] at listed
    obtain ⟨row, present, rfl⟩ := List.mem_map.mp listed
    exact wellFormed_newMetadata valid "" row present

variable {config : ClusterConfig} {syncs : List PendingSync} {ops : List MetadataOp}

theorem exists_history (valid : config.Valid)
    (linear : ∀ index (inRange : index < ops.length),
      (stateAt step (start config syncs) ops index).OnNewest ops[index]) :
    ∃ history : List OwnerTable, history.Pairwise OwnerTable.Precedes ∧
      (∀ table ∈ history, ∀ slot ∈ table, slot.WellFormed) ∧
      ∀ index ≤ ops.length,
        (stateAt step (start config syncs) ops index).RecordedIn history := by
  obtain ⟨history, follows, told⟩ := exists_record step (start config syncs) ops _
    (follows_start valid syncs) (fun _ _ follows => Follows.nodes follows)
    (fun _ index inRange follows => follows.step _ (linear index inRange))
  exact ⟨history, follows.ordered, follows.wellFormed, told⟩

theorem RecordedIn.precedes {first second : MetadataCluster}
    (ordered : history.Pairwise OwnerTable.Precedes)
    (old : first.RecordedIn history) (new : second.RecordedIn history)
    {one other : String}
    (le : (first.nodes one).version ≤ (second.nodes other).version) {slot : Nat}
    {row row' : SlotState} (present : (first.nodes one).slot slot = some row)
    (present' : (second.nodes other).slot slot = some row') :
    row.owners.Precedes row'.owners := by
  have tables := (old one).precedes OwnerTable.Precedes.refl ordered (new other) le
  exact tables.row (Metadata.owners_slot present)
    (Metadata.owners_slot present')


/-- If every topology change is made on a node with the newest table, then at all
times nodes with the same version have the same owners, versions and terms never
fall, a term has one leader, and every row is well formed. -/
theorem linear_history_gives_agreement (config : ClusterConfig) (valid : config.Valid)
    (syncs : List PendingSync) (ops : List MetadataOp)
    (linear : ∀ index (inRange : index < ops.length),
      (stateAt step (start config syncs) ops index).OnNewest ops[index]) :
    let table := fun index node =>
      (stateAt step (start config syncs) ops index).nodes node
    (∀ index ≤ ops.length, ∀ one other,
      (table index one).version = (table index other).version →
        (table index one).owners = (table index other).owners) ∧
    (∀ earlier later, earlier ≤ later → later ≤ ops.length → ∀ node,
      (table earlier node).version ≤ (table later node).version ∧
      ∀ slot row row', (table earlier node).slot slot = some row →
        (table later node).slot slot = some row' → row.term ≤ row'.term) ∧
    (∀ index ≤ ops.length, ∀ index' ≤ ops.length, ∀ one other slot row row',
      (table index one).slot slot = some row →
      (table index' other).slot slot = some row' → row.term = row'.term →
        row.leaderID = row'.leaderID) ∧
    (∀ index ≤ ops.length, ∀ node slot row, (table index node).slot slot = some row →
      row.leaderID ≠ "" ∧ row.leaderID ≠ row.replicaID ∧
        (row.replicaReady = true → row.replicaID ≠ "")) := by
  intro table
  obtain ⟨history, ordered, wellFormed, recorded⟩ := exists_history valid linear
  refine ⟨?_, ?_, ?_, ?_⟩
  · intro index bounded one other same
    have first := recorded index bounded one
    rw [same] at first
    exact first.unique (recorded index bounded other)
  · intro earlier later before bounded node
    have versions := measure_stateAt_mono step (fun state => (state.nodes node).version)
      (start config syncs) ops (fun index _ => version_step _ _ node) before bounded
    refine ⟨versions, fun slot row row' present present' => ?_⟩
    exact ((recorded earlier (before.trans bounded)).precedes ordered
      (recorded later bounded) versions present present').term_le
  · intro index bounded index' bounded' one other slot row row' present present' same
    rcases Nat.le_total (table index one).version (table index' other).version with
      le | ge
    · exact ((recorded index bounded).precedes ordered (recorded index' bounded') le
        present present').sameLeader same
    · exact (((recorded index' bounded').precedes ordered (recorded index bounded) ge
        present' present).sameLeader same.symm).symm
  · intro index bounded node slot row present
    have listed := List.mem_of_getElem? (Metadata.owners_slot present)
    obtain ⟨led, apart, assigned⟩ :=
      wellFormed _ (recorded index bounded node).mem _ listed
    exact ⟨led, apart, assigned⟩

/-- A promotion on one node and its delivery to another one. -/
def promotionRun : List MetadataOp :=
  [.promote "node-1" 0, .publish "node-1", .applyRemote "node-3" 0]

theorem promotion_is_agreed_on :
    let last := stateAt step (start threePeerConfig []) promotionRun 3
    (last.nodes "node-1").version = 2 ∧ (last.nodes "node-3").version = 2 ∧
      (last.nodes "node-1").owners = (last.nodes "node-3").owners := by
  refine ⟨rfl, rfl, (linear_history_gives_agreement threePeerConfig ?_ [] promotionRun
    ?_).1 3 (Nat.le_refl _) "node-1" "node-3" rfl⟩
  · exact ⟨by decide, by decide, by decide⟩
  · intro index inRange
    match index, inRange with
    | 0, _ =>
        intro _ other
        change (newMetadata threePeerConfig other).version ≤
          (newMetadata threePeerConfig "node-1").version
        rw [version_newMetadata, version_newMetadata]
    | 1, _ => trivial
    | 2, _ => trivial

end MetadataCluster

end MnemoKV
