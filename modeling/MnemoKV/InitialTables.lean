import MnemoKV.BlockDistribution
import MnemoKV.MetadataAgreement

/-!
# The slot table of a new cluster

`NewMetadata` fills a slice of all slots in one go over the peers.  The running index
stays inside the slice and ends at its length, each peer gets one range, and the order of
the peers in the configuration makes no difference.
-/

namespace MnemoKV

open BlockDistribution

/-! ### The loop over the peers -/

def SlotState.zero : SlotState :=
  { number := 0, leaderID := "", replicaID := "", term := 0, lastSequence := 0
    lastAppliedSequence := 0, replicaReady := false }

/-- The row that a peer, given with its index, leads at the start. -/
def initialRow (config : ClusterConfig) (peerIDs : List String) (owner : String × Nat)
    (slot : Nat) : SlotState :=
  { number := slot
    leaderID := owner.1
    replicaID :=
      if config.replicationEnabled then
        peerIDs.getD ((owner.2 + 1) % peerIDs.length) ""
      else ""
    term := 1
    lastSequence := 0
    lastAppliedSequence := 0
    replicaReady := config.replicationEnabled }

/-- The inner loop: as many writes as the peer gets slots. -/
def fillOwner (config : ClusterConfig) (peerIDs : List String) (state : Filling SlotState)
    (owner : String × Nat) : Option (Filling SlotState) :=
  (List.replicate (ownedSlotCount config.slotCount peerIDs.length owner.2)
    (initialRow config peerIDs owner)).foldlM Filling.write state

def fillSlots (config : ClusterConfig) (peerIDs : List String) : Option (Filling SlotState) :=
  peerIDs.zipIdx.foldlM (fillOwner config peerIDs)
    ⟨List.replicate config.slotCount .zero, 0⟩

/-- The owner of each slot, with its index among the peers. -/
def slotOwners (slotCount : Nat) (peerIDs : List String) : List (String × Nat) :=
  peerIDs.zipIdx.flatMap fun owner =>
    List.replicate (ownedSlotCount slotCount peerIDs.length owner.2) owner

theorem initialSlots_eq (config : ClusterConfig) (peerIDs : List String) :
    initialSlots config peerIDs =
      (slotOwners config.slotCount peerIDs).mapIdx fun slot owner =>
        initialRow config peerIDs owner slot :=
  rfl

theorem length_slotOwners {peerIDs : List String} (some : peerIDs ≠ []) (slotCount : Nat) :
    (slotOwners slotCount peerIDs).length = slotCount := by
  have shares : (peerIDs.zipIdx.map fun owner =>
      ownedSlotCount slotCount peerIDs.length owner.2) =
        (List.range peerIDs.length).map (share slotCount peerIDs.length) := by
    rw [List.range_eq_range', ← List.zipIdx_map_snd 0 peerIDs, List.map_map]
    rfl
  simp only [slotOwners, List.length_flatMap, List.length_replicate]
  rw [shares, sum_shares (List.length_pos_iff.mpr some)]

theorem foldlM_fillOwner (config : ClusterConfig) (peerIDs : List String)
    (owners : List (String × Nat)) (state : Filling SlotState) :
    owners.foldlM (fillOwner config peerIDs) state =
      ((owners.flatMap fun owner => List.replicate
        (ownedSlotCount config.slotCount peerIDs.length owner.2) owner).map
          (initialRow config peerIDs)).foldlM Filling.write state := by
  induction owners generalizing state with
  | nil => rfl
  | cons owner owners induction =>
      rw [List.foldlM_cons, List.flatMap_cons, List.map_append, List.foldlM_append,
        List.map_replicate]
      simp only [induction]
      rfl

/-- The loop writes every slot once and stops at the end of the slice. -/
theorem fillSlots_eq {peerIDs : List String} (some : peerIDs ≠ []) (config : ClusterConfig) :
    fillSlots config peerIDs = .some ⟨initialSlots config peerIDs, config.slotCount⟩ := by
  have length : ((slotOwners config.slotCount peerIDs).map
      (initialRow config peerIDs)).length = config.slotCount := by
    rw [List.length_map, length_slotOwners some]
  have rows : (((slotOwners config.slotCount peerIDs).map
      (initialRow config peerIDs)).mapIdx fun slot make => make slot) =
        initialSlots config peerIDs := by
    rw [initialSlots_eq]
    apply List.ext_getElem?
    intro slot
    simp only [List.getElem?_mapIdx, List.getElem?_map, Option.map_map]
    rfl
  rw [fillSlots, foldlM_fillOwner, ← slotOwners, foldlM_write_fresh, rows, length]
  rw [List.length_replicate, length]

/-! ### Peers in ascending order -/

section Peers

variable {config : ClusterConfig} (distinct : (config.peers.map MetadataPeer.id).Nodup)

theorem pairwise_lt_of_le {texts : List String} (ordered : texts.Pairwise (· ≤ ·))
    (apart : texts.Nodup) : texts.Pairwise (· < ·) := by
  refine (ordered.and apart).imp fun {first second} both => ?_
  rw [← String.not_le]
  exact fun more => both.2 (String.le_antisymm both.1 more)

/-- The identifiers of the peers in ascending order. -/
def ClusterConfig.peerIDs (config : ClusterConfig) : List String :=
  (config.peers.map MetadataPeer.id).insertionSort (· ≤ ·)

def ClusterConfig.sortedPeers (config : ClusterConfig) : List MetadataPeer :=
  config.peers.insertionSort fun first second => first.id ≤ second.id

theorem ClusterConfig.perm_peerIDs (config : ClusterConfig) :
    config.peerIDs.Perm (config.peers.map MetadataPeer.id) :=
  List.perm_insertionSort ..

theorem ClusterConfig.perm_sortedPeers (config : ClusterConfig) :
    config.sortedPeers.Perm config.peers :=
  List.perm_insertionSort ..

include distinct

theorem ClusterConfig.ascending_peerIDs : config.peerIDs.Pairwise (· < ·) := by
  refine pairwise_lt_of_le (List.pairwise_insertionSort _ _) ?_
  exact config.perm_peerIDs.nodup_iff.mpr distinct

theorem ClusterConfig.ascending_sortedPeers :
    (config.sortedPeers.map MetadataPeer.id).Pairwise (· < ·) := by
  have total : Std.Total fun first second : MetadataPeer => first.id ≤ second.id :=
    ⟨fun first second => String.le_total first.id second.id⟩
  have trans : IsTrans MetadataPeer fun first second => first.id ≤ second.id :=
    ⟨fun _ _ _ => String.le_trans⟩
  refine pairwise_lt_of_le
    (List.pairwise_map.mpr (List.pairwise_insertionSort _ config.peers)) ?_
  exact (config.perm_sortedPeers.map MetadataPeer.id).nodup_iff.mpr distinct

theorem ClusterConfig.id_sortedPeers :
    config.sortedPeers.map MetadataPeer.id = config.peerIDs := by
  have same : (config.sortedPeers.map MetadataPeer.id).Perm config.peerIDs :=
    (config.perm_sortedPeers.map MetadataPeer.id).trans config.perm_peerIDs.symm
  refine same.eq_of_pairwise ?_ (ascending_sortedPeers distinct) (ascending_peerIDs distinct)
  exact fun first second _ _ less more => absurd less (String.lt_asymm more)

/-- The order in a configuration does not matter. -/
theorem ClusterConfig.sortedPeers_of_perm {config' : ClusterConfig}
    (listed : config'.peers.Perm config.peers) : config'.sortedPeers = config.sortedPeers := by
  have distinct' : (config'.peers.map MetadataPeer.id).Nodup :=
    (listed.map MetadataPeer.id).nodup_iff.mpr distinct
  have same : config'.sortedPeers.Perm config.sortedPeers :=
    (config'.perm_sortedPeers.trans listed).trans config.perm_sortedPeers.symm
  refine same.eq_of_pairwise ?_ (List.pairwise_map.mp (ascending_sortedPeers distinct'))
    (List.pairwise_map.mp (ascending_sortedPeers distinct))
  exact fun first second _ _ less more => absurd less (String.lt_asymm more)

end Peers

/-! ### The new table -/

theorem newMetadata_eq {config : ClusterConfig} (enabled : config.enabled = true)
    (slots : 1 ≤ config.slotCount) (peers : config.peers ≠ []) (nodeID : String) :
    (newMetadata config nodeID).peers = config.sortedPeers ∧
      (newMetadata config nodeID).slots = initialSlots config config.peerIDs := by
  have filled : (!config.enabled || config.slotCount == 0 || config.peers.isEmpty) = false := by
    simp [enabled, Nat.one_le_iff_ne_zero.mp slots, peers]
  simp only [newMetadata, filled]
  exact ⟨rfl, rfl⟩

theorem numbers_initialSlots {peerIDs : List String} (some : peerIDs ≠ [])
    (config : ClusterConfig) :
    (initialSlots config peerIDs).map SlotState.number = List.range config.slotCount := by
  rw [initialSlots_eq]
  apply List.ext_getElem
  · simp [length_slotOwners some]
  · intro slot _ _
    simp [initialRow]

theorem leaders_initialSlots (config : ClusterConfig) (peerIDs : List String) :
    (initialSlots config peerIDs).map SlotState.leaderID =
      (peerIDs.zip ((List.range peerIDs.length).map
        (share config.slotCount peerIDs.length))).flatMap fun range =>
          List.replicate range.2 range.1 := by
  have owners : (initialSlots config peerIDs).map SlotState.leaderID =
      (slotOwners config.slotCount peerIDs).map Prod.fst := by
    rw [initialSlots_eq]
    apply List.ext_getElem
    · simp
    · intro slot _ _
      simp [initialRow]
  rw [owners, slotOwners, List.map_flatMap, List.zip_map_right, List.flatMap_map,
    List.range_eq_range', ← List.zipIdx_eq_zip_range']
  simp only [List.map_replicate]
  rfl

theorem initialSlots_rows {peerIDs : List String} (distinct : peerIDs.Nodup)
    (two : 2 ≤ peerIDs.length) {config : ClusterConfig}
    (replicated : config.replicationEnabled = true) {row : SlotState}
    (member : row ∈ initialSlots config peerIDs) :
    row.term = 1 ∧ row.replicaReady = true ∧ row.leaderID ∈ peerIDs ∧
      row.replicaID ∈ peerIDs ∧ row.replicaID ≠ row.leaderID := by
  obtain ⟨slot, inside, rfl⟩ := List.mem_mapIdx.mp member
  have listed := List.getElem_mem inside
  generalize (List.flatMap _ peerIDs.zipIdx)[slot] = owner at listed ⊢
  obtain ⟨source, present, copied⟩ := List.mem_flatMap.mp listed
  obtain rfl := List.eq_of_mem_replicate copied
  have place := List.mem_zipIdx_iff_getElem?.mp present
  obtain ⟨next, apart⟩ := next_peer distinct two place
  simp only [replicated, if_true]
  exact ⟨trivial, trivial, List.mem_of_getElem? place, next, apart.symm⟩

/-- `NewMetadata` of a valid configuration. -/
theorem initial_slot_map (config : ClusterConfig) (enabled : config.enabled = true)
    (replicated : config.replicationEnabled = true) (slots : 1 ≤ config.slotCount)
    (two : 2 ≤ config.peers.length) (distinct : (config.peers.map MetadataPeer.id).Nodup)
    (nodeID : String) :
    let metadata := newMetadata config nodeID
    let peerIDs := metadata.peers.map MetadataPeer.id
    fillSlots config peerIDs = some ⟨metadata.slots, config.slotCount⟩ ∧
      metadata.slots.map SlotState.number = List.range config.slotCount ∧
      (∀ row ∈ metadata.slots, row.term = 1 ∧ row.replicaReady = true ∧
        row.leaderID ∈ peerIDs ∧ row.replicaID ∈ peerIDs ∧ row.replicaID ≠ row.leaderID) ∧
      peerIDs.Pairwise (· < ·) ∧
      (∃ sizes : List Nat, sizes.length = peerIDs.length ∧
        metadata.slots.map SlotState.leaderID =
          ((peerIDs.zip sizes).flatMap fun range => List.replicate range.2 range.1) ∧
        ∀ size ∈ sizes, ∀ size' ∈ sizes, size ≤ size' + 1) ∧
      ∀ (config' : ClusterConfig) (nodeID' : String), config'.enabled = true →
        config'.replicationEnabled = true → config'.slotCount = config.slotCount →
        config'.peers.Perm config.peers →
        (newMetadata config' nodeID').slots = metadata.slots ∧
          (newMetadata config' nodeID').peers = metadata.peers := by
  have some : config.peers ≠ [] := by
    rintro none
    simp [none] at two
  have length : config.peerIDs.length = config.peers.length := by
    rw [config.perm_peerIDs.length_eq, List.length_map]
  have some' : config.peerIDs ≠ [] := by
    rw [← List.length_pos_iff]
    omega
  obtain ⟨peers, table⟩ := newMetadata_eq enabled slots some nodeID
  dsimp only
  rw [peers, table, ClusterConfig.id_sortedPeers distinct]
  refine ⟨fillSlots_eq some' config, numbers_initialSlots some' config, ?_,
    ClusterConfig.ascending_peerIDs distinct, ⟨_, ?_, leaders_initialSlots config _, ?_⟩, ?_⟩
  · intro row
    exact initialSlots_rows (config.perm_peerIDs.nodup_iff.mpr distinct) (by omega) replicated
  · simp
  · simp only [List.mem_map]
    rintro _ ⟨index, -, rfl⟩ _ ⟨index', -, rfl⟩
    exact share_le_succ ..
  · intro config' nodeID' enabled' replicated' sameCount listed
    have some'' : config'.peers ≠ [] := fun none => some (by simpa [none] using listed.symm)
    obtain ⟨peers', table'⟩ := newMetadata_eq enabled' (sameCount ▸ slots) some'' nodeID'
    have sorted := ClusterConfig.sortedPeers_of_perm distinct listed
    have ids : config'.peerIDs = config.peerIDs := by
      rw [← ClusterConfig.id_sortedPeers distinct, ← sorted, ClusterConfig.id_sortedPeers
        ((listed.map MetadataPeer.id).nodup_iff.mpr distinct)]
    rw [peers', table', sorted, ids]
    simp only [initialSlots, sameCount, replicated, replicated']
    exact ⟨trivial, trivial⟩

section Shuffled

/-- Peers that are not listed in the order of their names. -/
def shuffledPeers : ClusterConfig :=
  { id := "main", enabled := true, replicationEnabled := true, slotCount := 5
    peers := [⟨"c", "c:1", "c:2"⟩, ⟨"a", "a:1", "a:2"⟩, ⟨"b", "b:1", "b:2"⟩] }

theorem five_slots_in_three_ranges :
    (newMetadata shuffledPeers "b").slots.map (fun row => (row.leaderID, row.replicaID)) =
        [("a", "b"), ("a", "b"), ("b", "c"), ("b", "c"), ("c", "a")] ∧
      (newMetadata shuffledPeers "b").slots.map SlotState.number = List.range 5 :=
  ⟨by decide, (initial_slot_map shuffledPeers rfl rfl (by decide) (by decide) (by decide)
    "b").2.1⟩

end Shuffled

end MnemoKV
