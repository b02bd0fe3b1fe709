import MnemoKV.AdmissionGuards

/-!
# Cleared nodes and the slots they owned

A node that comes back while a slot still belongs to it is emptied and then admitted
as the owner; if nobody else had a copy, the next round takes the empty node for the
surviving one.  This cannot happen as long as nodes start again only after everything
has been taken from them.
-/

namespace MnemoKV

open LabelledRuns

namespace ManagedCluster

variable {state : ManagedCluster}

/-! ### A round of the observer -/

section Observation

variable {reached : List String}

/-- The observer after a round. -/
def polled (state : ManagedCluster) (reached : List String) : ManagedCluster :=
  { state with
    observer := (state.observer.pollOnce state.clock (state.answer reached)).1 }

/-- Only a node that runs is accepted, with its own table. -/
theorem node_of_accepted {peer : String} {response : ClusterStateResponse}
    (accepted : (state.answer reached peer).accepted peer = some response) :
    ∃ node, state.nodes peer = some node ∧ response = node.clusterState := by
  unfold answer at accepted
  split at accepted
  · cases accepted
  · rename_i node found
    unfold reach at found
    split_ifs at found
    refine ⟨node, found, ?_⟩
    simp only [PeerAnswer.accepted] at accepted
    split_ifs at accepted
    exact (Option.some.inj accepted).symm

theorem accepted_of_stopped (reached : List String) {peer : String}
    (stopped : state.nodes peer = none) :
    (state.answer reached peer).accepted peer = none := by
  cases accepted : (state.answer reached peer).accepted peer with
  | none => rfl
  | some response =>
      obtain ⟨node, running, -⟩ := node_of_accepted accepted
      rw [stopped] at running
      cases running

theorem row_of_accepted {peer : String} (listed : peer ∈ state.peers) {node : Node}
    (accepted : (state.answer reached peer).accepted peer = some node.clusterState) :
    (state.observer.row state.clock (state.answer reached) peer).standing =
      (true, false, node.admitted) := by
  have polls : peer ∈ state.observer.peers := listed
  rw [Observer.row, if_pos polls, accepted]
  cases fenced : node.admitted <;>
    simp [Observer.visitPeer, NodeView.standing, Node.clusterState, fenced]

theorem failures_polled {peer : String} (listed : peer ∈ state.peers)
    (missed : (state.answer reached peer).accepted peer = none) :
    (state.polled reached).observer.failures peer =
      state.observer.missed state.clock (state.observer.failures peer) :=
  Observer.failures_of_missed listed missed

theorem row_of_missed {peer : String} (listed : peer ∈ state.peers)
    (missed : (state.answer reached peer).accepted peer = none) :
    ∃ failed, failed =
        (state.observer.missed state.clock (state.observer.failures peer)).failed ∧
      (state.observer.row state.clock (state.answer reached) peer).standing =
        (!failed, !failed, !failed) := by
  have polls : peer ∈ state.observer.peers := listed
  rw [Observer.row, if_pos polls, missed]
  exact ⟨_, rfl, rfl⟩

theorem Gone.polled {nodeID : String} (gone : state.Gone nodeID)
    (reached : List String) : (state.polled reached).Gone nodeID := by
  intro listed
  have polls : nodeID ∈ state.peers := listed
  obtain ⟨stopped, confirmed⟩ := gone polls
  refine ⟨stopped, ?_⟩
  rw [failures_polled polls (accepted_of_stopped reached stopped)]
  exact confirmed.missed

theorem Guarded.polled (guarded : state.Guarded) (reached : List String) :
    (state.polled reached).Guarded := by
  refine ⟨guarded.named, guarded.tidy, guarded.numbered, ?_, guarded.pass, ?_,
    guarded.marks, guarded.unavailable⟩
  · exact fun nodeID barred =>
      (guarded.keptOut nodeID barred).carry (fun _ member => member) rfl
  · intro number lost table member
    obtain ⟨slot, found, leader, replica⟩ := guarded.lost number lost table member
    exact ⟨slot, found, leader.polled reached, fun ready => (replica ready).polled reached⟩

/-- What a committed observation is made of: the table of a node that runs, rows
for peers and owners as their polls went, and the rest of the state before. -/
structure Observed (state : ManagedCluster) (reached : List String) (table : SlotTable)
    (fsm : FSM) : Prop where
  member : table ∈ state.tables
  slots : ∃ old : Nat → SlotView, ∀ number : Nat,
    fsm.state.latestView.slots[number]? =
      table[number]?.map fun slot => slot.merge (old number)
  nodes : ∀ nodeID, (nodeID ∈ state.peers ∨ nodeID ≠ "" ∧
      ∃ slot ∈ table, slot.leaderID = nodeID ∨ slot.replicaID = nodeID) →
    ∃ node, fsm.state.latestView.nodes[nodeID]? = some node ∧
      node.standing =
        (state.observer.row state.clock (state.answer reached) nodeID).standing
  plan : ∀ plan ∈ fsm.state.activePlan, ∃ old ∈ state.activePlan, plan.steps = old.steps
  unavailable : ∀ number ∈ fsm.state.unavailable,
    number ∈ state.fsm.state.unavailable

theorem observe_cases (state : ManagedCluster) (reached : List String) :
    state.observe reached = state.polled reached ∨ ∃ table fsm,
      state.observe reached = { state.polled reached with fsm } ∧
        state.Observed reached table fsm := by
  unfold observe
  dsimp only
  split
  · exact .inl rfl
  · rename_i view observed
    split_ifs
    · exact .inl rfl
    obtain ⟨⟨peer, listed, canonical, accepted, slots⟩, rows⟩ :=
      Observer.pollOnce_view observed
    obtain ⟨node, running, rfl⟩ := node_of_accepted accepted
    have table : view.slots = node.metadata.views := by
      rw [slots]
      simp [Node.clusterState, Metadata.views]
    obtain ⟨fsm, applied, nodes, merged⟩ :=
      state.fsm.observed_view (state.fsm.state.controlIndex + 1) view
    have effect := FSM.apply_effect applied
    refine .inr ⟨view.slots, fsm, ?_, ?_⟩
    · simp only [commit, applied, polled]
    · refine ⟨table ▸ table_of_node listed running, merged, ?_, ?_, ?_⟩
      · intro nodeID known
        obtain ⟨row, found, standing⟩ := rows nodeID known
        exact ⟨row, nodes nodeID row found, standing⟩
      · intro plan active
        exact (effect.plan plan active).resolve_left (Option.some_ne_none plan).symm
      · intro number recorded
        exact (effect.unavailable number recorded).resolve_right List.not_mem_nil

section Committed

variable {table : SlotTable} {fsm : FSM} (observed : state.Observed reached table fsm)

include observed

theorem Observed.available {nodeID : String}
    (known : nodeID ∈ state.peers ∨ nodeID ≠ "" ∧
      ∃ slot ∈ table, slot.leaderID = nodeID ∨ slot.replicaID = nodeID) :
    ownerAvailable fsm.state.latestView.nodes nodeID = true ↔ nodeID ≠ "" ∧
      (state.observer.row state.clock (state.answer reached) nodeID).standing.1 = true ∧
      (state.observer.row state.clock (state.answer reached) nodeID).standing.2.2 =
        true := by
  obtain ⟨node, found, standing⟩ := observed.nodes nodeID known
  rw [ownerAvailable_eq, Std.ExtTreeMap.getD_eq_getD_getElem?, found, Option.getD_some,
    standing]
  simp [and_assoc]

theorem Observed.unavailable_of_gone {nodeID : String}
    (owns : ∃ slot ∈ table, slot.leaderID = nodeID ∨ slot.replicaID = nodeID)
    (gone : state.Gone nodeID) :
    ownerAvailable fsm.state.latestView.nodes nodeID = false := by
  rw [← Bool.not_eq_true]
  intro available
  by_cases unnamed : nodeID = ""
  · rw [ownerAvailable, if_pos unnamed] at available
    cases available
  · rw [observed.available (.inr ⟨unnamed, owns⟩)] at available
    by_cases listed : nodeID ∈ state.peers
    · obtain ⟨stopped, confirmed⟩ := gone listed
      obtain ⟨failed, fails, row⟩ :=
        row_of_missed listed (accepted_of_stopped reached stopped)
      rw [(Observer.missed_failed_iff _).mpr confirmed.missed] at fails
      rw [row, fails] at available
      exact absurd available.2.1 (by decide)
    · have unpolled : nodeID ∉ state.observer.peers := listed
      rw [Observer.row, if_neg unpolled] at available
      exact absurd available.2.1 (by decide)

/-- An owner that is not available is gone, because owners are not barred and only
nodes that have stopped are confirmed as failed. -/
theorem Observed.gone_of_unavailable (guarded : state.Guarded)
    (accurate : ∀ peer ∈ state.peers,
      ((state.polled reached).observer.failures peer).failed = true →
        state.admission peer = none)
    {slot : SlotView} (member : slot ∈ table) {nodeID : String}
    (owns : slot.leaderID = nodeID ∨ slot.replicaID = nodeID)
    (unavailable : ownerAvailable fsm.state.latestView.nodes nodeID = false) :
    (state.polled reached).Gone nodeID := by
  intro listed
  have polls : nodeID ∈ state.peers := listed
  have available := observed.available (.inl polls)
  rw [unavailable] at available
  cases accepted : (state.answer reached nodeID).accepted nodeID with
  | some response =>
      obtain ⟨node, running, rfl⟩ := node_of_accepted accepted
      rw [row_of_accepted polls accepted] at available
      refine absurd ⟨polls, .inl ?_⟩ (guarded.not_barred observed.member member owns)
      rw [admission, running, Option.map_some, Option.some.injEq, ← Bool.not_eq_true]
      exact fun admitted => Bool.false_ne_true
        (available.mpr ⟨guarded.named_of_mem polls, rfl, admitted⟩)
  | none =>
      obtain ⟨failed, fails, row⟩ := row_of_missed polls accepted
      rw [row] at available
      have confirmed : failed = true := by
        by_contra clear
        rw [Bool.not_eq_true] at clear
        subst clear
        exact Bool.false_ne_true
          (available.mpr ⟨guarded.named_of_mem polls, rfl, rfl⟩)
      rw [confirmed] at fails
      rw [failures_polled polls accepted]
      refine ⟨?_, (Observer.missed_failed_iff _).mp fails.symm⟩
      rw [← admission_eq_none]
      exact accurate nodeID polls (by rw [failures_polled polls accepted, ← fails])

theorem Observed.not_eligible {nodeID : String} (polls : nodeID ∈ state.peers)
    (waiting : state.admission nodeID ≠ some true) :
    nodeID ∉ fsm.state.latestView.eligibleNodeIDs := by
  intro listed
  obtain ⟨row, present, eligible, -, clear⟩ := ClusterView.mem_eligibleNodeIDs.mp listed
  obtain ⟨node, found, standing⟩ := observed.nodes nodeID (.inl polls)
  obtain rfl := Option.some.inj (present.symm.trans found)
  cases accepted : (state.answer reached nodeID).accepted nodeID with
  | some response =>
      obtain ⟨node, running, rfl⟩ := node_of_accepted accepted
      rw [row_of_accepted polls accepted] at standing
      have admitted : row.eligible = node.admitted :=
        congrArg (fun standing => standing.2.2) standing
      rw [admission, running, Option.map_some, ← admitted, eligible] at waiting
      exact waiting rfl
  | none =>
      obtain ⟨failed, -, missed⟩ := row_of_missed polls accepted
      rw [missed] at standing
      have suspected : row.suspected = !failed :=
        congrArg (fun standing => standing.2.1) standing
      have kept : row.eligible = !failed :=
        congrArg (fun standing => standing.2.2) standing
      rw [eligible] at kept
      rw [clear, ← kept] at suspected
      cases suspected

/-- A committed row agrees with that of the table where it counts. -/
structure Shows (slot shown : SlotView) : Prop where
  number : shown.number = slot.number
  leaderID : shown.leaderID = slot.leaderID
  replicaReady : shown.replicaReady = slot.replicaReady
  replicaID : slot.replicaReady = true → shown.replicaID = slot.replicaID

omit observed in
theorem shows_merge {slot : SlotView}
    (assigned : slot.replicaReady = true → slot.replicaID ≠ "") (old : SlotView) :
    Shows slot (slot.merge old) :=
  ⟨rfl, rfl, rfl, fun ready => if_neg (assigned ready)⟩

theorem Observed.shown (tidy : SlotTable.Tidy table) {number : Nat} {shown : SlotView}
    (found : fsm.state.latestView.slots[number]? = some shown) :
    ∃ slot, table[number]? = some slot ∧ Shows slot shown := by
  obtain ⟨old, slots⟩ := observed.slots
  rw [slots] at found
  obtain ⟨slot, present, rfl⟩ := Option.map_eq_some_iff.mp found
  exact ⟨slot, present,
    shows_merge (tidy.assigned slot (List.mem_of_getElem? present)) _⟩

/-- Slots of gone owners have no copy in the committed view. -/
theorem Observed.lost_of_orphaned (tidy : SlotTable.Tidy table) {number : Nat}
    (orphaned : state.Orphaned number table) :
    ∃ shown, fsm.state.latestView.slots[number]? = some shown ∧
      shown.classify fsm.state.latestView.nodes = .noSurvivingCopy := by
  obtain ⟨slot, present, leader, replica⟩ := orphaned
  have member := List.mem_of_getElem? present
  obtain ⟨old, slots⟩ := observed.slots
  refine ⟨slot.merge (old number), by rw [slots, present]; rfl, ?_⟩
  have shows := shows_merge (tidy.assigned slot member) (old number)
  rw [classify_noSurvivingCopy_iff, shows.leaderID, shows.replicaReady]
  refine ⟨observed.unavailable_of_gone ⟨slot, member, .inl rfl⟩ leader, ?_⟩
  cases ready : slot.replicaReady with
  | false => exact .inl rfl
  | true =>
      rw [shows.replicaID ready]
      exact .inr (observed.unavailable_of_gone ⟨slot, member, .inr rfl⟩ (replica ready))

end Committed

theorem Guarded.observe (guarded : state.Guarded)
    (accurate : ∀ peer ∈ state.peers,
      ((state.polled reached).observer.failures peer).failed = true →
        state.admission peer = none)
    (agreed : ∀ first ∈ state.tables, ∀ second ∈ state.tables, first = second) :
    (state.observe reached).Guarded := by
  have polled := guarded.polled reached
  rcases state.observe_cases reached with missed | ⟨table, fsm, committed, observed⟩
  · rw [missed]
    exact polled
  rw [committed]
  have tidy := guarded.tidy table observed.member
  have numbered : ∀ (number : Nat) (slot : SlotView),
      fsm.state.latestView.slots[number]? = some slot → slot.number = number := by
    intro number shown found
    obtain ⟨slot, present, shows⟩ := observed.shown tidy found
    exact shows.number.trans (tidy.numbered number slot present)
  -- slots that were lost have owners that are gone, and stay lost
  have stays : ∀ number, state.view.Lost number → fsm.state.latestView.Lost number := by
    intro number lost
    exact (lost_iff numbered).mpr
      (observed.lost_of_orphaned tidy (guarded.lost number lost table observed.member))
  refine ⟨guarded.named, guarded.tidy, numbered, ?_, guarded.pass, ?_, ?_, ?_⟩
  · intro nodeID barred
    have barred : state.Barred nodeID := barred
    have kept := guarded.keptOut nodeID barred
    refine ⟨kept.tables, ?_, ?_, ?_⟩
    · intro shown member
      obtain ⟨number, found⟩ := List.mem_iff_getElem?.mp member
      obtain ⟨slot, present, shows⟩ := observed.shown tidy found
      obtain ⟨leader, replica⟩ :=
        kept.tables table observed.member slot (List.mem_of_getElem? present)
      rw [shows.leaderID, shows.replicaReady]
      exact ⟨leader, fun ready => shows.replicaID ready ▸ replica⟩
    · refine observed.not_eligible barred.1 ?_
      rcases barred.2 with waiting | ⟨pass, taken, rfl, past⟩
      · simp [waiting]
      · exact (guarded.pass pass taken).2 past
    · intro plan active step listed
      obtain ⟨old, before, steps⟩ := observed.plan plan active
      exact kept.plan old before step (steps ▸ listed)
  · intro number lost other member
    obtain ⟨shown, found, classified⟩ := (lost_iff numbered).mp lost
    obtain ⟨slot, present, shows⟩ := observed.shown tidy found
    rw [classify_noSurvivingCopy_iff, shows.leaderID, shows.replicaReady] at classified
    have listed := List.mem_of_getElem? present
    obtain rfl := agreed table observed.member other member
    refine ⟨slot, present, observed.gone_of_unavailable guarded accurate listed (.inl rfl)
      classified.1, fun ready => ?_⟩
    rw [shows.replicaID ready, ready] at classified
    exact observed.gone_of_unavailable guarded accurate listed (.inr rfl)
      (classified.2.resolve_left nofun)
  · intro plan active step listed marks
    obtain ⟨old, before, steps⟩ := observed.plan plan active
    obtain ⟨lost, only⟩ := guarded.marks old before step (steps ▸ listed) marks
    exact ⟨stays _ lost, fun other present => only other (steps ▸ present)⟩
  · intro number recorded
    obtain ⟨lost, only⟩ := guarded.unavailable number (observed.unavailable number recorded)
    refine ⟨stays number lost, fun plan active step listed => ?_⟩
    obtain ⟨old, before, steps⟩ := observed.plan plan active
    exact only old before step (steps ▸ listed)

end Observation

/-! ### Whole runs -/

/-- What keeps the controller from being misled: a peer is confirmed as failed only
after it has stopped, and the nodes agree when they are observed; steps are carried
out for slots that still have a copy; a node that is to be cleared has not been
admitted before; and a node starts again only when nothing belongs to it any more,
with the table of a node that runs. -/
def Sound (config : ClusterConfig) (engineConfig : EngineConfig)
    (state : ManagedCluster) : ClusterEvent → Prop
  | .observe reached =>
      (∀ peer ∈ state.peers,
        ((state.polled reached).observer.failures peer).failed = true →
          state.admission peer = none) ∧
      ∀ first ∈ state.tables, ∀ second ∈ state.tables, first = second
  | .work _ _ =>
      ∀ plan ∈ state.activePlan, ∀ item ∈ plan.openStep,
        item.1.kind ≠ .markUnavailable → ¬ state.view.Lost item.1.slot
  | .prepare _ _ => ∀ pass ∈ state.pass, state.admission pass.nodeID ≠ some true
  | .restart nodeID reached =>
      state.admission nodeID = none → nodeID ∈ state.peers →
        state.KeptOut nodeID ∧
          (Node.startReturning config engineConfig nodeID
            (state.peerTables reached nodeID)).metadata.views ∈ state.tables
  | _ => True

instance (config : ClusterConfig) (engineConfig : EngineConfig)
    (state : ManagedCluster) (event : ClusterEvent) :
    Decidable (state.Sound config engineConfig event) :=
  match event with
  | .observe _ => inferInstanceAs (Decidable (_ ∧ _))
  | .work _ _ => inferInstanceAs (Decidable (∀ plan ∈ state.activePlan, _))
  | .prepare _ _ => inferInstanceAs (Decidable (∀ pass ∈ state.pass, _))
  | .restart _ _ => inferInstanceAs (Decidable (_ → _ → _ ∧ _))
  | .wait _ | .evaluate | .takeUp | .commitAdmission | .issueAdmission _ | .abandon | .stop _
  | .traffic _ _ _ => inferInstanceAs (Decidable True)

variable [PlanDigest] {config : ClusterConfig} {engineConfig : EngineConfig}

theorem Guarded.step (guarded : state.Guarded) (event : ClusterEvent)
    (sound : state.Sound config engineConfig event) :
    (state.step config engineConfig event).Guarded := by
  cases event with
  | wait elapsed => exact guarded.wait elapsed
  | observe reached => exact guarded.observe sound.1 sound.2
  | evaluate => exact guarded.evaluate
  | work delivered reached => exact guarded.work delivered reached sound
  | takeUp => exact guarded.takeUp
  | prepare fate reached => exact guarded.prepare fate reached sound
  | commitAdmission => exact guarded.commitAdmission
  | issueAdmission fate => exact guarded.issueAdmission fate
  | abandon => exact guarded.endPass
  | stop nodeID => exact guarded.stop nodeID
  | restart nodeID reached =>
      dsimp only [ManagedCluster.step]
      split
      · exact guarded
      · rename_i stopped
        split_ifs with listed
        · obtain ⟨kept, table⟩ := sound (admission_eq_none.mpr stopped) listed
          exact guarded.restart kept table rfl
        · exact guarded
  | traffic nodeID engine sequences =>
      dsimp only [ManagedCluster.step]
      split
      · exact guarded
      · exact guarded.traffic ‹_› engine sequences

omit [PlanDigest] in
theorem tidy_newMetadata (valid : config.Valid) (nodeID : String) :
    SlotTable.Tidy (newMetadata config nodeID).views := by
  refine ⟨?_, ?_⟩
  · intro number slot found
    obtain ⟨row, present, rfl⟩ := Option.map_eq_some_iff.mp
      ((List.getElem?_map ..).symm.trans found)
    unfold newMetadata at present
    dsimp only at present
    split_ifs at present
    · cases present
    · simp only [initialSlots, List.getElem?_mapIdx] at present
      obtain ⟨owner, -, rfl⟩ := Option.map_eq_some_iff.mp present
      rfl
  · intro slot member ready
    obtain ⟨row, present, rfl⟩ := List.mem_map.mp member
    exact (wellFormed_newMetadata valid nodeID row present).assigned ready

omit [PlanDigest] in
theorem guarded_start (valid : config.Valid) (observer : Observer) (planner : Planner) :
    (start config engineConfig observer planner).Guarded := by
  refine ⟨?_, ?_, nofun, ?_, nofun, ?_, nofun, ?_⟩
  · intro unnamed
    obtain ⟨peer, listed, empty⟩ := List.mem_map.mp unnamed
    exact valid.named peer listed empty
  · intro table member
    obtain ⟨peer, -, node, running, rfl⟩ := mem_tables.mp member
    simp only [start] at running
    split_ifs at running
    obtain rfl := Option.some.inj running
    exact tidy_newMetadata valid peer
  · rintro nodeID ⟨listed, waiting | ⟨pass, taken, -⟩⟩
    · have known : nodeID ∈ config.peers.map MetadataPeer.id := listed
      simp only [admission, start, if_pos known] at waiting
      cases waiting
    · cases taken
  · intro number lost
    obtain ⟨slot, none, -⟩ := ClusterView.exists_of_classified lost
    cases none
  · intro number recorded
    exact absurd recorded Std.ExtTreeMap.not_mem_empty

end ManagedCluster

/-- The row makes a node the leader or the ready replica. -/
def SlotView.PutsInCharge (nodeID : String) (slot : SlotView) : Prop :=
  slot.leaderID = nodeID ∨ slot.replicaReady = true ∧ slot.replicaID = nodeID

instance (nodeID : String) (slot : SlotView) : Decidable (slot.PutsInCharge nodeID) :=
  inferInstanceAs (Decidable (_ ∨ _))

namespace ManagedCluster

/-- The committed view or the table of a node that runs puts the node in charge. -/
def InCharge (state : ManagedCluster) (nodeID : String) : Prop :=
  (∃ slot ∈ state.view.slots, slot.PutsInCharge nodeID) ∨
    ∃ table ∈ state.tables, ∃ slot ∈ table, slot.PutsInCharge nodeID

instance (state : ManagedCluster) (nodeID : String) :
    Decidable (state.InCharge nodeID) :=
  inferInstanceAs (Decidable (_ ∨ _))

theorem KeptOut.not_inCharge {state : ManagedCluster} {nodeID : String}
    (kept : state.KeptOut nodeID) : ¬ state.InCharge nodeID := by
  rintro (⟨slot, member, leads | ⟨ready, replicates⟩⟩ |
    ⟨table, member, slot, listed, leads | ⟨-, replicates⟩⟩)
  · exact (kept.slots slot member).1 leads
  · exact (kept.slots slot member).2 ready replicates
  · exact (kept.tables table member slot listed).1 leads
  · exact (kept.tables table member slot listed).2 replicates

theorem Guarded.barred_of_admitting {state : ManagedCluster} (guarded : state.Guarded)
    {nodeID : String} (admitting : state.admitting = some nodeID) :
    state.Barred nodeID := by
  unfold ManagedCluster.admitting at admitting
  split at admitting
  · rename_i pass taken
    split_ifs at admitting with committed
    obtain rfl := Option.some.inj admitting
    exact ⟨(guarded.pass pass taken).1, .inr ⟨pass, taken, rfl, by simp [committed]⟩⟩
  · cases admitting

/-- In a run whose steps are all sound, no node is in charge of a slot when it is
about to be admitted, and a slot that was recorded as unavailable is never again
taken for one with a leader, assigned a replica or synchronised. -/
theorem cleared_nodes_get_no_data [PlanDigest] (config : ClusterConfig)
    (valid : config.Valid) (engineConfig : EngineConfig) (observer : Observer)
    (planner : Planner) (events : List ClusterEvent)
    (sound : ∀ index (inRange : index < events.length),
      (stateAt (step config engineConfig) (start config engineConfig observer planner)
        events index).Sound config engineConfig events[index]) :
    ∀ index ≤ events.length,
      let state := stateAt (step config engineConfig)
        (start config engineConfig observer planner) events index
      (∀ nodeID, state.admitting = some nodeID → ¬ state.InCharge nodeID) ∧
      ∀ number ∈ state.fsm.state.unavailable,
        state.view.classifySlots[number]? ≠ some .unaffected ∧
        state.view.classifySlots[number]? ≠ some .replicaLost ∧
        ∀ plan ∈ state.activePlan, ∀ step ∈ plan.steps, step.slot = number →
          step.kind ≠ .assignReplica ∧ step.kind ≠ .sync := by
  intro index bounded state
  have guarded : state.Guarded := stateAt_induction (step config engineConfig) _ events
    Guarded (guarded_start valid observer planner)
    (fun index inRange guarded => guarded.step events[index] (sound index inRange)) bounded
  refine ⟨fun nodeID admitting => ?_, fun number recorded => ?_⟩
  · exact (guarded.keptOut nodeID (guarded.barred_of_admitting admitting)).not_inCharge
  · obtain ⟨lost, only⟩ := guarded.unavailable number recorded
    have lost : state.view.classifySlots[number]? = some .noSurvivingCopy := lost
    rw [lost]
    refine ⟨nofun, nofun, fun plan active step listed same => ?_⟩
    rw [only plan active step listed same]
    exact ⟨nofun, nofun⟩

section Examples

/-- A digest that tells plans of different length apart. -/
@[reducible]
def digestOfLength : PlanDigest :=
  ⟨fun plan => String.ofList (plan.steps.map fun _ => '1')⟩

attribute [local instance] digestOfLength

def smallEngine : EngineConfig :=
  { stripeCount := 1, memoryLimitBytes := 0, evictionPolicy := "noeviction" }

/-- A cluster with one slot, which `a` leads and `b` replicates. -/
def oneSlotCluster (peers : List String) : ClusterConfig :=
  { id := "main", enabled := true, replicationEnabled := true, slotCount := 1
    peers := peers.map fun peer => ⟨peer, peer, peer⟩ }

def quickObserver : Observer :=
  { peers := [], failureAfter := 0, failureCount := 1, skewThreshold := 1
    failures := fun _ => .clear }

def patientPlanner : Planner :=
  { cooldown := 1, skewThreshold := 1, maxMoves := 1, eligibleKey := "", stableSince := 0 }

def reachedAfter (peers : List String) (events : List ClusterEvent) : ManagedCluster :=
  run (step (oneSlotCluster peers) smallEngine)
    (start (oneSlotCluster peers) smallEngine quickObserver patientPlanner) events

/-- Both owners fail and `a` comes back, which leaves the slot unavailable; then `a`
is cleared and about to be admitted. -/
def ownerReturns : List ClusterEvent :=
  [.observe ["a", "b", "c"], .stop "a", .stop "b", .observe ["c"],
    .restart "a" ["c"], .observe ["a", "c"], .evaluate, .work true [], .work true [],
    .work true [], .takeUp, .takeUp, .prepare .answered ["c"], .commitAdmission]

/-- The empty `a` is admitted as the leader, the recorded slot counts as one that
lost its replica only, and `a` is to be copied to `c`. -/
theorem cleared_owner_is_admitted :
    let ready := reachedAfter ["a", "b", "c"] ownerReturns
    let after := reachedAfter ["a", "b", "c"]
      (ownerReturns ++ [.issueAdmission .answered, .observe ["a", "c"], .evaluate])
    ready.admitting = some "a" ∧ ready.InCharge "a" ∧
      (after.nodes "a").map (fun node =>
        (node.admitted, node.engine.store.allEntries.length)) = some (true, 0) ∧
      0 ∈ after.fsm.state.unavailable ∧
      after.view.classifySlots[0]? = some .replicaLost ∧
      after.view.slots.map SlotView.leaderID = ["a"] ∧
      after.activePlan.map RecoveryPlan.steps =
        some [⟨.assignReplica, 0, "c"⟩, ⟨.sync, 0, "c"⟩] := by
  decide +kernel

def fivePeers : List String := ["a", "b", "c", "d", "e"]

/-- The slot is lost in the same way, but the node that comes back is `c`, which
owned nothing. -/
def outsiderReturns : List ClusterEvent :=
  [.observe fivePeers, .stop "c", .observe ["a", "b", "d", "e"], .restart "c" ["d"],
    .observe fivePeers, .stop "a", .stop "b", .observe ["c", "d", "e"], .evaluate,
    .work true [], .work true [], .work true [], .takeUp, .takeUp,
    .prepare .answered ["d"], .commitAdmission]

theorem cleared_outsider_is_admitted :
    let ready := reachedAfter fivePeers outsiderReturns
    ready.admitting = some "c" ∧ ¬ ready.InCharge "c" ∧
      0 ∈ ready.fsm.state.unavailable ∧
      ready.view.classifySlots[0]? ≠ some .replicaLost := by
  have kept := cleared_nodes_get_no_data (oneSlotCluster fivePeers)
    ⟨by decide, by decide, by decide⟩ smallEngine quickObserver patientPlanner
    outsiderReturns (by decide +kernel) outsiderReturns.length (Nat.le_refl _)
  rw [stateAt_length] at kept
  have admitting : (reachedAfter fivePeers outsiderReturns).admitting = some "c" := by
    decide +kernel
  have recorded : 0 ∈ (reachedAfter fivePeers outsiderReturns).fsm.state.unavailable := by
    decide +kernel
  exact ⟨admitting, kept.1 "c" admitting, recorded, (kept.2 0 recorded).2.1⟩

end Examples

end ManagedCluster

end MnemoKV
