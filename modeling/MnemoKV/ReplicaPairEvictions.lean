import MnemoKV.PlanResponses
import MnemoKV.ReplicaPairSteps

/-!
# Evictions on the leader of a pair

Every victim is deleted on the replica before it is deleted on the leader.  An
eviction keeps the pair sound when its `DEL` repeats what is unacknowledged in
the victim's slot; the empty key is never replicated, so it has to lie outside
the slots that the leader leads.
-/

namespace MnemoKV
namespace Replication

/-- Acknowledgements come in, and ownership stays. -/
structure Advanced (before after : Replication) : Prop where
  owners : before.metadata.SameOwners after.metadata
  unacked : ∀ slot, after.history.unacked slot = before.history.unacked slot ∨
    after.history.unacked slot = none

theorem Advanced.refl (state : Replication) : Advanced state state :=
  ⟨.refl _, fun _ => .inl rfl⟩

theorem Advanced.trans {first second third : Replication}
    (earlier : Advanced first second) (later : Advanced second third) :
    Advanced first third := by
  refine ⟨earlier.owners.trans later.owners, fun slot => ?_⟩
  rcases later.unacked slot with same | settled
  · rw [same]
    exact earlier.unacked slot
  · exact .inr settled

theorem Advanced.pending {before after : Replication}
    (advanced : Advanced before after) {slot : Nat} {cmd : Command}
    (pending : after.history.unacked slot = some cmd) :
    before.history.unacked slot = some cmd := by
  rcases advanced.unacked slot with same | settled
  · exact same.symm.trans pending
  · rw [settled] at pending
    cases pending

theorem Kept.advanced {slot : Nat} {state after : Replication}
    (kept : Kept slot state after)
    (settled : after.history.unacked slot = none) : Advanced state after := by
  refine ⟨kept.leaderOwners, fun other => ?_⟩
  by_cases same : other = slot
  · subst same
    exact .inr settled
  · exact .inl (kept.unacked other same)

/-- An eviction that replication carries along. -/
def Evictable (state : Replication) (key : Bytes) : Prop :=
  state.metadata.Leads (state.metadata.slotForKey key) →
    key ≠ [] ∧ ∀ pending,
      state.history.unacked (state.metadata.slotForKey key) = some pending →
        Engine.evictionDeleteCommand key = pending

theorem Evictable.advanced {before after : Replication} {key : Bytes}
    (evictable : before.Evictable key) (advanced : Advanced before after) :
    after.Evictable key := by
  intro leads
  rw [advanced.owners.slotForKey] at leads ⊢
  obtain ⟨nonempty, repeats⟩ :=
    evictable ((advanced.owners.leads_iff _).mp leads)
  exact ⟨nonempty, fun pending unacked =>
    repeats pending (advanced.pending unacked)⟩

theorem slotWrite_evictionDelete {state : Replication} {key : Bytes}
    (nonempty : key ≠ []) :
    state.SlotWrite (state.metadata.slotForKey key)
      (Engine.evictionDeleteCommand key) where
  write := rfl
  kept := rfl
  free := ⟨(nomatch ·), (nomatch ·)⟩
  keyed := nonempty
  routed := rfl
  members := by
    intro other member
    obtain rfl : other = key := List.mem_singleton.mp member
    rfl

variable [FloatText] {store store' : Store} {state : Replication}

theorem Sound.of_leader (sound : Sound store state)
    (parts : ∀ slot, state.metadata.Leads slot →
      state.part slot store'.dataset = state.part slot store.dataset) :
    Sound store' state :=
  ⟨sound.paired, fun slot leads => (sound.slots slot leads).congr
    ⟨.refl _, rfl, rfl, rfl, parts slot leads, rfl, List.Subset.refl _⟩,
    sound.suppressed⟩

/-- Lapsed items are items with an expiry, of which led slots have none. -/
theorem Sound.part_of_lapsed {moments : Int → Prop} (sound : Sound store state)
    (lapsed : Lapsed moments store.dataset store'.dataset) {slot : Nat}
    (leads : state.metadata.Leads slot) :
    state.part slot store'.dataset = state.part slot store.dataset := by
  have lapsedPart : Lapsed moments (state.part slot store.dataset)
      (state.part slot store'.dataset) := by
    intro key
    simp only [part, Dataset.within]
    split_ifs
    · exact lapsed key
    · exact .inl rfl
  exact lapsedPart.eq_of_persistent (sound.slots slot leads).persistent

theorem executed_deleteWithSize (store : Store) (key : Bytes) :
    Executed (Engine.evictionDeleteCommand key) store
      (store.deleteWithSize key).2 :=
  ⟨fun _ => 0, (store.dataset_deleteWithSize key).1⟩

/-- A record for a slot that the node does not lead is not sent. -/
theorem replicate_foreign (cmd : Command) (keyed : cmd.extractPrimaryKey ≠ [])
    (foreign : ¬ state.metadata.Leads
      (state.metadata.slotForKey cmd.extractPrimaryKey))
    (link : Nat → Delivery) :
    ∃ text, state.replicate link cmd = (.error text, state) := by
  unfold replicate
  rw [if_neg keyed]
  dsimp only
  cases prepared : state.metadata.prepareReplication
      (state.metadata.slotForKey cmd.extractPrimaryKey) with
  | error failure => exact ⟨failure.text, rfl⟩
  | ok result =>
      obtain ⟨present, leads, -⟩ := Metadata.prepareReplication_ok prepared
      exact absurd ⟨_, by simp [Metadata.owner, present]; rfl, leads⟩ foreign

theorem Sound.evict {key : Bytes} (sound : Sound store state)
    (evictable : state.Evictable key) (link : Nat → Delivery) :
    ∃ after result,
      state.replicate link (Engine.evictionDeleteCommand key) = (result, after) ∧
      state.metadata.SameOwners after.metadata ∧
      match result with
      | .error _ => Sound store after
      | .ok () => Sound (store.deleteWithSize key).2 after ∧
          Advanced state after := by
  by_cases leads : state.metadata.Leads (state.metadata.slotForKey key)
  · obtain ⟨nonempty, repeats⟩ := evictable leads
    obtain ⟨after, result, replicated, kept, outcome⟩ := sound.replicate leads
      (slotWrite_evictionDelete nonempty) ⟨fun _ => 0, rfl⟩ repeats link
    refine ⟨after, result, replicated, kept.leaderOwners, ?_⟩
    cases result with
    | error text => exact outcome
    | ok done => exact ⟨outcome.sound _ (executed_deleteWithSize store key),
        kept.advanced outcome.settled⟩
  · by_cases blank : key = []
    · subst blank
      refine ⟨state, .ok (), rfl, .refl _, sound.of_leader ?_, .refl _⟩
      intro slot led
      refine Dataset.within_congr fun other member => ?_
      have distinct : other ≠ [] := by
        rintro rfl
        exact leads (member ▸ led)
      rw [(store.dataset_deleteWithSize []).1]
      exact Function.update_of_ne distinct _ _
    · obtain ⟨text, unsent⟩ := replicate_foreign
        (Engine.evictionDeleteCommand key) blank leads link
      exact ⟨state, .error text, unsent, .refl _, sound⟩

/-! ### Reliable links -/

omit [FloatText] in
theorem setUnacked_advanced {slot : Nat} {after : Replication}
    (advanced : Advanced state after) :
    Advanced state (after.setUnacked slot none) := by
  refine ⟨advanced.owners, fun other => ?_⟩
  by_cases same : other = slot
  · subst same
    exact .inr (Function.update_self ..)
  · rcases advanced.unacked other with kept | settled
    · exact .inl ((Function.update_of_ne same ..).trans kept)
    · exact .inr ((Function.update_of_ne same ..).trans settled)

theorem deliver_advanced (now : Readings) (record : ReplicationRecord)
    (state : Replication) : Advanced state (state.deliver now record).2 := by
  unfold deliver
  split_ifs
  · refine ⟨.refl _, fun slot => .inl ?_⟩
    dsimp only
    split <;> rfl
  · exact .refl state

omit [FloatText] in
theorem commitLeaderSequence_sameOwners {metadata result : Metadata}
    {slot term sequence : Nat}
    (committed : metadata.commitLeaderSequence slot term sequence =
      .ok result) : metadata.SameOwners result := by
  obtain ⟨row, present, -, -, -, rfl⟩ :=
    Metadata.commitLeaderSequence_ok committed
  exact Metadata.sameOwners_setSlot present rfl

theorem transmit_advanced {now : Readings} {record : ReplicationRecord}
    {replicaID : String} {cmd : Command} :
    Advanced state
      (state.transmit (.answered now) record replicaID cmd).2 := by
  have delivered := state.deliver_advanced now record
  unfold transmit
  dsimp only
  generalize state.deliver now record = outcome at delivered ⊢
  rcases outcome with ⟨_ | _, next⟩
  · exact delivered
  · dsimp only at delivered ⊢
    split
    · exact delivered
    · rename_i metadata committed
      exact setUnacked_advanced ⟨delivered.owners.trans
        (commitLeaderSequence_sameOwners committed), delivered.unacked⟩

/-- Replication never changes who owns a slot. -/
theorem transmit_sameOwners (delivery : Delivery) (record : ReplicationRecord)
    (replicaID : String) (cmd : Command) (state : Replication) :
    state.metadata.SameOwners
      (state.transmit delivery record replicaID cmd).2.metadata := by
  cases delivery with
  | undelivered text => exact .refl _
  | answered now => exact transmit_advanced.owners
  | unanswered now text =>
      have delivered := (state.deliver_advanced now record).owners
      unfold transmit
      dsimp only
      generalize state.deliver now record = outcome at delivered ⊢
      rcases outcome with ⟨_ | _, next⟩ <;> exact delivered

theorem replicate_sameOwners (link : Nat → Delivery) (cmd : Command)
    (state : Replication) :
    state.metadata.SameOwners (state.replicate link cmd).2.metadata := by
  unfold replicate
  split_ifs
  · exact .refl _
  · dsimp only
    split
    · exact .refl _
    · exact transmit_sameOwners _ _ _ cmd { state with sent := state.sent + 1 }

/-- On a reliable link nothing becomes unacknowledged. -/
theorem replicate_advanced {link : Nat → Delivery}
    (reliable : ∀ index, ∃ now, link index = .answered now) (cmd : Command)
    (state : Replication) : Advanced state (state.replicate link cmd).2 := by
  unfold replicate
  split_ifs
  · exact .refl state
  · dsimp only
    split
    · exact .refl state
    · rename_i row sequence prepared
      obtain ⟨now, answered⟩ := reliable state.sent
      rw [answered]
      have sent : Advanced state { state with sent := state.sent + 1 } :=
        ⟨.refl _, fun _ => .inl rfl⟩
      split_ifs
      · exact sent.trans transmit_advanced
      · exact sent

/-! ### The loop of evictions -/

/-- The invariant of admission: relative to its start, entries only go away, and
the command's own key is not touched. -/
structure Admitting (origin : Store) (start : Replication) (cmd : Command)
    (store : Store) (state : Replication) : Prop where
  sound : Sound store state
  advanced : Advanced start state
  stored : ∀ key, store.dataset key ≠ none → origin.dataset key ≠ none
  admissible : ∃ now, (cmd.plan now origin.dataset).response = none
  target : cmd.extractKeys ≠ [] →
    store.dataset cmd.extractPrimaryKey = origin.dataset cmd.extractPrimaryKey

/-- How a call can end: no key but its own is new, and on a reliable link
nothing becomes unacknowledged. -/
structure Ended (link : Nat → Delivery) (origin : Store) (start : Replication)
    (cmd : Command) (store : Store) (state : Replication) : Prop where
  sound : Sound store state
  owners : start.metadata.SameOwners state.metadata
  absent : ∀ key ∉ cmd.extractKeys, origin.dataset key = none →
    store.dataset key = none
  reliable : (∀ index, ∃ now, link index = .answered now) →
    Advanced start state

section Loop

variable {origin : Store} {start : Replication} {cmd : Command}
  {link : Nat → Delivery}

section

variable (admitting : Admitting origin start cmd store state)

include admitting

theorem Admitting.absent
    {key : Bytes} (missing : origin.dataset key = none) :
    store.dataset key = none := by
  by_contra found
  exact admitting.stored key found missing

theorem Admitting.ended :
    Ended link origin start cmd store state :=
  ⟨admitting.sound, admitting.advanced.owners,
    fun _ _ missing => admitting.absent missing, fun _ => admitting.advanced⟩

theorem Admitting.failed {text : String} {after : Replication}
    {sent : Command} (vetoed : state.replicate link sent = (.error text, after))
    (sound : Sound store after)
    (owners : state.metadata.SameOwners after.metadata) :
    Ended link origin start cmd store after := by
  refine ⟨sound, admitting.advanced.owners.trans owners,
    fun _ _ missing => admitting.absent missing, fun reliable => ?_⟩
  have advanced := replicate_advanced reliable sent state
  rw [vetoed] at advanced
  exact admitting.advanced.trans advanced

theorem Admitting.evicted {key : Bytes}
    (distinct : key ≠ cmd.extractPrimaryKey) {after : Replication}
    (sound : Sound (store.deleteWithSize key).2 after)
    (advanced : Advanced state after) :
    Admitting origin start cmd (store.deleteWithSize key).2 after := by
  have removed := (store.dataset_deleteWithSize key).1
  refine ⟨sound, admitting.advanced.trans advanced, ?_, admitting.admissible, ?_⟩
  · intro other found
    rw [removed] at found
    refine admitting.stored other fun missing => found ?_
    simp [Function.update_apply, missing]
  · rw [removed, Function.update_of_ne distinct.symm]
    exact admitting.target

end

/-- The obligations of the eviction loop, met for a pair. -/
theorem Admitting.rule
    (clear : ∀ key, origin.dataset key ≠ none →
      key ≠ cmd.extractPrimaryKey → start.Evictable key) :
    Engine.EvictionRule (hook link) cmd.extractPrimaryKey
      (Admitting origin start cmd) (Ended link origin start cmd)
      (fun key => key ≠ cmd.extractPrimaryKey → start.Evictable key) where
  stored := by
    intro store state key entry admitting found
    refine clear key (admitting.stored key ?_)
    simp [Store.dataset, found]
  evicted := by
    intro store state next key admitting evictable distinct answered
    obtain ⟨after, result, replicated, -, outcome⟩ := admitting.sound.evict
      ((evictable distinct).advanced admitting.advanced) link
    obtain ⟨rfl, rfl⟩ : result = .ok () ∧ after = next :=
      Prod.mk.inj (replicated.symm.trans answered)
    exact admitting.evicted distinct outcome.1 outcome.2
  refused := by
    intro store state next key text admitting evictable distinct answered
    obtain ⟨after, result, replicated, owners, outcome⟩ :=
      admitting.sound.evict
        ((evictable distinct).advanced admitting.advanced) link
    obtain ⟨rfl, rfl⟩ : result = .error text ∧ after = next :=
      Prod.mk.inj (replicated.symm.trans answered)
    exact admitting.failed answered outcome owners

end Loop
end Replication
end MnemoKV
