import MnemoKV.ExpiringEntries
import MnemoKV.ReplicaPairEvictions

/-!
# A pair of nodes whose entries expire

The link is reliable and every command runs at one time on each node, the
replica's no later than the leader's.  Harmony is the invariant: equal counters
and concordant entries in all slots that the leader leads and whose numbers are
not spent.  It survives lazy removal on the leader and evictions.
-/

namespace MnemoKV

/-- A client command with the times at which its parts run. -/
structure TimedCall where
  cmd : Command
  choices : Nat → Choices
  planTime : Int
  sampleTime : Nat → Int
  recordTime : Nat → Int
  execTime : Int

namespace TimedCall

def link (call : TimedCall) : Nat → Delivery :=
  fun index => .answered fun _ => call.recordTime index

def call (call : TimedCall) : ClientCall :=
  { cmd := call.cmd
    clock := { plan := fun _ => call.planTime, sample := call.sampleTime
               exec := fun _ => call.execTime }
    choices := call.choices
    link := call.link }

/-- One clock that never runs backwards. -/
structure Ordered (now : Int) (call : TimedCall) : Prop where
  plan : now ≤ call.planTime
  records : ∀ index, call.planTime ≤ call.recordTime index ∧
    call.recordTime index ≤ call.execTime

theorem Ordered.exec {now : Int} {call : TimedCall} (ordered : Ordered now call) :
    call.planTime ≤ call.execTime := by
  have first := ordered.records 0
  omega

end TimedCall

namespace Replication

/-- Equal counters and concordant entries in every slot that the node leads, until its
numbers are spent. -/
structure Harmony (now : Int) (store : Store) (state : Replication) :
    Prop where
  paired : Paired state.metadata state.replica.metadata
  counters : ∀ slot, state.metadata.Leads slot → state.Unspent slot →
    state.replica.metadata.applied slot = state.metadata.sequence slot
  entries : ∀ key, state.metadata.Leads (state.metadata.slotForKey key) →
    state.Unspent (state.metadata.slotForKey key) →
    Concordant now (store.dataset key) (state.replica.dataset key)

variable {now later : Int} {store store' : Store} {state : Replication}

theorem Harmony.mono (harmony : Harmony now store state)
    (ordered : now ≤ later) : Harmony later store state :=
  ⟨harmony.paired, harmony.counters, fun key leads unspent =>
    (harmony.entries key leads unspent).mono ordered⟩

theorem Harmony.of_leader (harmony : Harmony now store state)
    (entries : ∀ key, state.metadata.Leads (state.metadata.slotForKey key) →
      state.Unspent (state.metadata.slotForKey key) →
      Concordant later (store'.dataset key) (state.replica.dataset key)) :
    Harmony later store' state :=
  ⟨harmony.paired, harmony.counters, entries⟩

/-- The leader drops expired entries. -/
theorem Harmony.lapse (harmony : Harmony now store state)
    (ordered : now ≤ later)
    (lapsed : Lapsed (· = later) store.dataset store'.dataset) :
    Harmony later store' state := by
  refine harmony.of_leader fun key leads unspent => ?_
  have concordant := harmony.entries key leads unspent
  rcases lapsed key with same | ⟨moment, rfl, same⟩
  · rw [same]
    exact concordant.mono ordered
  · rw [same]
    exact concordant.lapse ordered

/-- A record of the slot has been on its way: counters only go up, and they are
equal again. -/
structure Passed (slot : Nat) (before after : Replication) : Prop
    extends Kept slot before after where
  unspent : ∀ other, after.Unspent other → before.Unspent other
  counters : after.Unspent slot →
    after.replica.metadata.applied slot = after.metadata.sequence slot

theorem Harmony.of_sent {slot : Nat} {after : Replication}
    (harmony : Harmony now store state) (sent : Passed slot state after)
    (entries : ∀ key, state.metadata.Leads (state.metadata.slotForKey key) →
      after.Unspent (state.metadata.slotForKey key) →
      Concordant later (store'.dataset key) (after.replica.dataset key)) :
    Harmony later store' after := by
  have owners := sent.leaderOwners
  refine ⟨harmony.paired.congr owners sent.replicaOwners, ?_, ?_⟩
  · intro other leads unspent
    by_cases same : other = slot
    · subst same
      exact sent.counters unspent
    · rw [sent.applied other same, sent.sequence other same]
      exact harmony.counters other ((owners.leads_iff other).mp leads)
        (sent.unspent other unspent)
  · intro key leads unspent
    rw [owners.slotForKey] at leads unspent
    exact entries key ((owners.leads_iff _).mp leads) unspent

variable [FloatText] {call : TimedCall}

/-- A record on a reliable link: the replica runs the command, and the leader
goes on exactly when it succeeded there.  A record that the replica's parser
refuses stops the leader too, and one that it takes for a duplicate belongs to
a slot whose numbers are spent. -/
theorem Harmony.replicate {slot : Nat} (call : TimedCall) (cmd : Command)
    (harmony : Harmony now store state) (leads : state.metadata.Leads slot)
    (keyed : cmd.extractPrimaryKey ≠ [])
    (routed : state.metadata.slotForKey cmd.extractPrimaryKey = slot) :
    ∃ after result,
      state.replicate call.link cmd = (result, after) ∧
      Passed slot state after ∧
      (after.replica.dataset = state.replica.dataset ∧
          (after.Unspent slot → result.isOk = false) ∨
        state.Unspent slot ∧ ∃ index, after.replica.dataset =
            ((cmd.action fun _ => call.recordTime index).perform
              state.replica.dataset).2 ∧
          result.isOk = !((cmd.action fun _ => call.recordTime index).perform
            state.replica.dataset).1.isError) := by
  obtain ⟨row, copy, pair⟩ := exists_slotPair harmony.paired leads
  by_cases unspent : state.Unspent slot
  · have counters := harmony.counters slot leads unspent
    obtain ⟨after, result, replicated, outcome⟩ := pair.replicate_outcome
      counters unspent call.link keyed routed
    refine ⟨after, result, replicated, ?_⟩
    cases outcome with
    | unacknowledged fate => cases fate
    | lost fate moved dataset =>
        exact ⟨⟨moved.toKept, fun _ => moved.unspent, fun _ =>
          (moved.appliedHere.trans counters).trans moved.sequenceHere.symm⟩,
          .inl ⟨dataset, fun _ => rfl⟩⟩
    | refused fate failed moved dataset =>
        rcases fate with answered | ⟨reason, unanswered⟩
        · cases answered
          exact ⟨⟨moved.toKept, fun _ => moved.unspent, fun _ =>
            (moved.appliedHere.trans counters).trans moved.sequenceHere.symm⟩,
            .inr ⟨unspent, state.sent, dataset, by rw [failed]; rfl⟩⟩
        · cases unanswered
    | acknowledged fate succeeded moved dataset =>
        cases fate
        refine ⟨⟨moved.toKept, fun _ => moved.unspent, fun _ => ?_⟩,
          .inr ⟨unspent, state.sent, dataset, by rw [succeeded]; rfl⟩⟩
        refine moved.appliedHere.trans (Eq.trans ?_ moved.sequenceHere.symm)
        exact (nextSequence_of_lt unspent).symm.trans
          (congrArg nextSequence counters)
  · have bound := nextSequence_lt (state.metadata.sequence slot)
    obtain ⟨after, result, replicated, dataset, outcome⟩ :=
      pair.replicate_repeat (by unfold Unspent at unspent; omega) call.link keyed
        routed
    have sent : ∀ {leaderStep replicaStep pending applied suppressed},
        Moved slot state after leaderStep replicaStep pending applied suppressed →
        Passed slot state after := fun moved =>
      ⟨moved.toKept, fun _ => moved.unspent,
        fun later => absurd (moved.unspent later) unspent⟩
    refine ⟨after, result, replicated, ?_⟩
    cases outcome with
    | lost _ moved | unacknowledged _ moved | acknowledged moved =>
        exact ⟨sent moved,
          .inl ⟨dataset, fun later => absurd (moved.unspent later) unspent⟩⟩

/-- An eviction removes the key on both nodes; the empty key must not lie in a
slot that the node leads. -/
theorem Harmony.evict {key : Bytes} (call : TimedCall)
    (harmony : Harmony now store state)
    (clear : state.metadata.Leads (state.metadata.slotForKey key) → key ≠ []) :
    ∃ after result,
      state.replicate call.link (Engine.evictionDeleteCommand key) =
        (result, after) ∧
      state.metadata.SameOwners after.metadata ∧
      match result with
      | .error _ => Harmony now store after
      | .ok () => Harmony now (store.deleteWithSize key).2 after ∧
          ∀ other ≠ key,
            after.replica.dataset other = state.replica.dataset other := by
  have removed := (store.dataset_deleteWithSize key).1
  by_cases leads : state.metadata.Leads (state.metadata.slotForKey key)
  · obtain ⟨after, result, replicated, sent, outcome⟩ :=
      harmony.replicate call (Engine.evictionDeleteCommand key) leads
        (clear leads) rfl
    refine ⟨after, result, replicated, sent.leaderOwners, ?_⟩
    rcases outcome with ⟨dataset, stopped⟩ | ⟨-, index, dataset, answer⟩
    · cases result with
      | error text =>
          refine harmony.of_sent sent fun other led unspent => ?_
          rw [dataset]
          exact harmony.entries other led (sent.unspent _ unspent)
      | ok done =>
          refine ⟨harmony.of_sent sent fun other led unspent => ?_, fun _ _ => by
            rw [dataset]⟩
          have distinct : other ≠ key := by
            rintro rfl
            cases stopped unspent
          rw [removed, dataset, Function.update_of_ne distinct]
          exact harmony.entries other led (sent.unspent _ unspent)
    · have replicaRemoved : after.replica.dataset =
          Function.update state.replica.dataset key none := dataset
      cases result with
      | error text => cases answer
      | ok done =>
          refine ⟨harmony.of_sent sent fun other led unspent => ?_, ?_⟩
          · rw [removed, replicaRemoved]
            by_cases same : other = key
            · subst same
              simp only [Function.update_self]
              exact .refl _ _
            · simp only [Function.update_of_ne same]
              exact harmony.entries other led (sent.unspent _ unspent)
          · intro other distinct
            rw [replicaRemoved, Function.update_of_ne distinct]
  · by_cases blank : key = []
    · subst blank
      refine ⟨state, .ok (), rfl, .refl _, harmony.of_leader ?_, fun _ _ => rfl⟩
      intro other led unspent
      have distinct : other ≠ [] := by
        rintro rfl
        exact leads led
      rw [removed, Function.update_of_ne distinct]
      exact harmony.entries other led unspent
    · obtain ⟨text, unsent⟩ := replicate_foreign
        (Engine.evictionDeleteCommand key) blank leads call.link
      exact ⟨state, .error text, unsent, .refl _, harmony⟩

end Replication
end MnemoKV
