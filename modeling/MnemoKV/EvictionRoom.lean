import MnemoKV.EvictionPasses
import MnemoKV.StoreChanges
import MnemoKV.VictimOrders

/-!
# The room that evictions make

A pass of the admission loop deletes unexpired entries other than the written
one.  It takes all that it needs, all that there are, or fifteen at least, if the
written key is kept out of its sample.  The loop therefore makes room whenever
these entries are enough to make up for the missing bytes and the passes get to
enough of them.
-/

namespace MnemoKV
namespace Store

/-! ### Some of the entries -/

/-- The candidates of the entries that a test picks. -/
def picked (store : Store) (keep : Entry → Bool) : List Candidate :=
  (store.allEntries.filter keep).map Entry.candidate

theorem mem_picked {store : Store} {keep : Entry → Bool} {candidate : Candidate} :
    candidate ∈ store.picked keep ↔ ∃ entry, store.find candidate.key = some entry ∧
      keep entry = true ∧ entry.candidate = candidate := by
  unfold picked
  rw [List.mem_map]
  constructor
  · rintro ⟨entry, listed, rfl⟩
    obtain ⟨stored, kept⟩ := List.mem_filter.mp listed
    exact ⟨entry, mem_allEntries.mp stored, kept, rfl⟩
  · rintro ⟨entry, found, kept, rfl⟩
    exact ⟨entry, List.mem_filter.mpr ⟨mem_allEntries.mpr found, kept⟩, rfl⟩

theorem nodup_picked (store : Store) (keep : Entry → Bool) :
    ((store.picked keep).map Candidate.key).Nodup := by
  unfold picked
  rw [List.map_map]
  exact store.nodup_keys.sublist (List.filter_sublist.map _)

/-- The entries split by a second condition. -/
theorem picked_and (store : Store) (keep split : Entry → Bool) :
    (store.picked (fun entry => keep entry && split entry) ++
      store.picked fun entry => keep entry && !split entry).Perm
        (store.picked keep) := by
  unfold picked
  rw [← List.map_append]
  refine List.Perm.map _ ?_
  have parts := List.filter_append_perm split (store.allEntries.filter keep)
  rw [List.filter_filter, List.filter_filter] at parts
  simpa only [Bool.and_comm] using parts

theorem candidateBytes_picked_all (store : Store) :
    candidateBytes (store.picked fun _ => true) = store.totalBytes := by
  unfold picked candidateBytes totalBytes
  rw [List.filter_true, List.map_map]
  rfl

/-! ### Deleting several entries -/

/-- The keys are deleted one after the other. -/
def deleteAll (victims : List Candidate) (store : Store) : Store :=
  victims.foldl (fun store victim => (store.deleteWithSize victim.key).2) store

theorem find_deleteAll (victims : List Candidate) (store : Store) (key : Bytes) :
    (store.deleteAll victims).find key =
      if key ∈ victims.map Candidate.key then none else store.find key := by
  induction victims generalizing store with
  | nil => rfl
  | cons victim rest induction =>
      change ((store.deleteWithSize victim.key).2.deleteAll rest).find key = _
      rw [induction, find_deleteWithSize]
      by_cases same : key = victim.key
      · simp [same]
      · simp [same, Ne.symm same]

theorem deleteAll_changes (victims : List Candidate) (store : Store) :
    Changes store (store.deleteAll victims) := by
  induction victims generalizing store with
  | nil => exact .refl _
  | cons victim rest induction =>
      exact (store.deleteWithSize_changes victim.key).trans (induction _)

theorem dataset_deleteAll (victims : List Candidate) (store : Store) (key : Bytes) :
    (store.deleteAll victims).dataset key =
      if key ∈ victims.map Candidate.key then none else store.dataset key := by
  unfold dataset
  rw [find_deleteAll]
  split_ifs <;> rfl

section Split

variable {store : Store} {keep : Entry → Bool} {victims remaining : List Candidate}
  (perm : (victims ++ remaining).Perm (store.picked keep))

include perm

theorem picked_deleteAll : ((store.deleteAll victims).picked keep).Perm remaining := by
  have distinct : ((victims ++ remaining).map Candidate.key).Nodup :=
    (perm.map _).nodup_iff.mpr (store.nodup_picked keep)
  have separate : ∀ candidate ∈ remaining,
      candidate.key ∉ victims.map Candidate.key := by
    rw [List.map_append] at distinct
    exact fun candidate left taken => (List.nodup_append.mp distinct).2.2 _ taken _
      (List.mem_map_of_mem left) rfl
  refine (List.perm_ext_iff_of_nodup
    ((store.deleteAll victims).nodup_picked keep).of_map
    (List.nodup_append.mp distinct.of_map).2.1).mpr fun candidate => ?_
  rw [mem_picked, find_deleteAll]
  constructor
  · rintro ⟨entry, found, kept⟩
    split_ifs at found with taken
    have listed := perm.mem_iff.mpr (mem_picked.mpr ⟨entry, found, kept⟩)
    rcases List.mem_append.mp listed with victim | left
    · exact absurd (List.mem_map_of_mem victim) taken
    · exact left
  · intro left
    rw [if_neg (separate candidate left)]
    exact mem_picked.mp (perm.mem_iff.mp (List.mem_append_right _ left))

theorem totalBytes_deleteAll :
    (store.deleteAll victims).totalBytes + candidateBytes victims =
      store.totalBytes := by
  have whole : (victims ++ (remaining ++ store.picked fun entry => !keep entry)).Perm
      (store.picked fun _ => true) := by
    rw [← List.append_assoc]
    exact (perm.append_right _).trans (store.picked_and (fun _ => true) keep)
  have left := candidateBytes_perm (picked_deleteAll whole)
  have total := candidateBytes_perm whole
  rw [candidateBytes_picked_all] at left total
  rw [left, ← total, candidateBytes_append victims]
  exact Nat.add_comm _ _

end Split

/-! ### What can be evicted -/

/-- The unexpired entries other than the written one. -/
def evictable (store : Store) (planKey : Bytes) (now : Int) : List Candidate :=
  store.picked fun entry => decide (entry.key ≠ planKey) && !entry.isExpired now

/-- The readings of the samples find the same entries expired as `now`. -/
def Steady (store : Store) (clock : WriteClock) (now : Int) : Prop :=
  ∀ entry ∈ store.allEntries, ∀ pass,
    entry.isExpired (clock.sample pass) = entry.isExpired now

theorem Steady.deleteAll {store : Store} {clock : WriteClock} {now : Int}
    (steady : store.Steady clock now) (victims : List Candidate) :
    (store.deleteAll victims).Steady clock now := by
  intro entry listed
  refine steady entry ?_
  rw [mem_allEntries, find_deleteAll] at listed
  split_ifs at listed
  exact mem_allEntries.mpr listed

/-- The written key is kept out of the samples, or there is nothing to keep out.
`PickVictims` takes the empty key for no key at all. -/
def Excludes (store : Store) (planKey : Bytes) : Prop :=
  planKey ≠ [] ∨ store.find planKey = none

theorem Excludes.deleteAll {store : Store} {planKey : Bytes}
    (excludes : store.Excludes planKey) (victims : List Candidate) :
    (store.deleteAll victims).Excludes planKey := by
  refine excludes.imp_right fun absent => ?_
  rw [find_deleteAll, absent]
  split_ifs <;> rfl

end Store

namespace Engine

variable {clock : WriteClock} {choices : Nat → Choices} {plan : AdmissionPlan}
  {engine : Engine} {now : Int}

/-! ### One pass -/

/-- Of a sample, at most one candidate is set aside. -/
theorem length_filter_take {α : Type*} {keep : α → Bool} {candidates : List α}
    (single : (candidates.filter fun candidate => !keep candidate).length ≤ 1) :
    min 15 (candidates.filter keep).length ≤
      ((candidates.take 16).filter keep).length := by
  by_cases few : candidates.length ≤ 16
  · rw [List.take_of_length_le few]
    exact Nat.min_le_right _ _
  · have parts := List.length_eq_length_filter_add keep (l := candidates.take 16)
    have aside := ((List.take_sublist 16 candidates).filter
      fun candidate => !keep candidate).length_le
    rw [List.length_take] at parts
    omega

section Samples

variable (clock choices plan) (pass : Nat) (engine : Engine)

/-- What a pass goes through: the unexpired entries in iteration order. -/
def scanned : List Candidate :=
  (Store.unexpired (clock.sample pass) (engine.store.iterated (choices pass))).map
    Entry.candidate

theorem filter_scanned_perm (steady : engine.store.Steady clock now) :
    ((engine.scanned clock choices pass).filter
      fun candidate => candidate.key ≠ plan.key).Perm
        (engine.store.evictable plan.key now) := by
  unfold scanned Store.evictable Store.picked Store.unexpired
  rw [List.filter_map, List.filter_filter]
  refine (((engine.store.perm_iterated (choices pass)).filter _).trans
    (List.Perm.of_eq ?_)).map _
  refine List.filter_congr fun entry listed => ?_
  rw [steady entry listed pass]
  rfl

/-- The written key is scanned once at most. -/
theorem length_filter_scanned :
    ((engine.scanned clock choices pass).filter
      fun candidate => !decide (candidate.key ≠ plan.key)).length ≤ 1 := by
  have distinct : (((engine.scanned clock choices pass).filter
      fun candidate => !decide (candidate.key ≠ plan.key)).map Candidate.key).Nodup := by
    refine List.Nodup.sublist (List.filter_sublist.map _) ?_
    unfold scanned
    rw [List.map_map]
    exact (((engine.store.perm_iterated (choices pass)).map _).nodup_iff.mpr
      engine.store.nodup_keys).sublist (List.filter_sublist.map _)
  have same : ((engine.scanned clock choices pass).filter
      fun candidate => !decide (candidate.key ≠ plan.key)).map Candidate.key =
        List.replicate _ plan.key :=
    List.eq_replicate_iff.mpr ⟨rfl, by simp +contextual⟩
  rw [same, List.nodup_replicate, List.length_map] at distinct
  exact distinct

theorem filter_offered :
    (engine.store.offered (choices pass) (clock.sample pass) plan.key).filter
        (fun candidate => candidate.key ≠ plan.key) =
      ((engine.scanned clock choices pass).take 16).filter
        fun candidate => candidate.key ≠ plan.key := by
  unfold Store.offered scanned
  rw [InPlaceFilters.compact_eq_filter, Store.sample_eq]
  split_ifs
  · rw [List.filter_filter]
    simp only [Bool.and_self]
  · rfl

theorem filter_offered_of_excludes (excludes : engine.store.Excludes plan.key) :
    (engine.store.offered (choices pass) (clock.sample pass) plan.key).filter
        (fun candidate => candidate.key ≠ plan.key) =
      engine.store.offered (choices pass) (clock.sample pass) plan.key := by
  refine List.filter_eq_self.mpr fun candidate listed => ?_
  unfold Store.offered at listed
  rw [InPlaceFilters.compact_eq_filter] at listed
  split_ifs at listed with named
  · exact (List.mem_filter.mp listed).2
  · obtain ⟨entry, found, -⟩ := Store.mem_sample listed
    refine decide_eq_true fun same => ?_
    rw [same, excludes.resolve_left named] at found
    cases found

end Samples

variable (choices plan) in
/-- What a pass deletes, and what it is sure to delete. -/
theorem passVictims_spec (evicting : engine.policy ≠ .noEviction)
    (steady : engine.store.Steady clock now) (pass : Nat) :
    ∃ remaining,
      (engine.passVictims clock choices plan pass ++ remaining).Perm
        (engine.store.evictable plan.key now) ∧
      (engine.store.Excludes plan.key →
        plan.requiredGrowth - engine.available ≤
            candidateBytes (engine.passVictims clock choices plan pass) ∨
          min 15 (engine.store.evictable plan.key now).length ≤
            (engine.passVictims clock choices plan pass).length) := by
  have listed := filter_scanned_perm clock choices plan pass engine steady
  obtain ⟨ordered, perm, -, taken⟩ := Store.pickVictims_ordered (clock.sample pass)
    plan.key evicting (fun _ => List.pairwise_of_forall fun _ _ => trivial)
    (fun _ => List.pairwise_of_forall fun _ _ => trivial)
    (plan.requiredGrowth - engine.available)
  obtain ⟨rest, split⟩ := Policy.takeVictims_prefix
    (plan.requiredGrowth - engine.available) 0 ordered
  have many := length_filter_take (length_filter_scanned clock choices plan pass engine)
  rw [listed.length_eq, ← filter_offered] at many
  have enough := Policy.takeVictims_all_or_enough
    (plan.requiredGrowth - engine.available) ordered
  have sampled := perm.filter fun candidate => candidate.key ≠ plan.key
  rw [filter_offered] at sampled
  unfold passVictims
  rw [taken]
  generalize Policy.takeVictims (plan.requiredGrowth - engine.available) 0 ordered =
    victims at split enough ⊢
  refine ⟨rest.filter (fun candidate => candidate.key ≠ plan.key) ++
    ((engine.scanned clock choices pass).drop 16).filter
      (fun candidate => candidate.key ≠ plan.key), ?_, fun excludes => ?_⟩
  · rw [← List.append_assoc, ← List.filter_append, ← split]
    refine (sampled.append_right _).trans ?_
    rw [← List.filter_append, List.take_append_drop]
    exact listed
  · have own : victims.filter (fun victim => victim.key ≠ plan.key) = victims := by
      refine List.filter_eq_self.mpr fun victim member => ?_
      have offered := perm.subset (split ▸ List.mem_append_left _ member)
      rw [← filter_offered_of_excludes clock choices plan pass engine excludes] at offered
      exact (List.mem_filter.mp offered).2
    rw [own]
    refine enough.symm.imp_right fun all => ?_
    rw [filter_offered_of_excludes _ _ _ _ _ excludes, ← perm.length_eq] at many
    rw [all]
    exact many

/-! ### The whole loop -/

/-- A limit and an exact byte counter. -/
structure Counted (engine : Engine) : Prop where
  limited : 0 < engine.limitBytes
  accounted : engine.store.Accounted
  representable : engine.store.totalBytes < 2 ^ 64

/-- The bytes to be freed before the write fits. -/
def missing (engine : Engine) (plan : AdmissionPlan) : Nat :=
  engine.store.usedBytes + plan.requiredGrowth - engine.limitBytes

theorem Counted.used (counted : engine.Counted) :
    engine.store.usedBytes = engine.store.totalBytes :=
  counted.accounted.exact counted.representable

section Evict

variable {victims remaining : List Candidate}
  (perm : (victims ++ remaining).Perm (engine.store.evictable plan.key now))

include perm

theorem Counted.evict (counted : engine.Counted) : (engine.evict victims).Counted := by
  have total := Store.totalBytes_deleteAll perm
  have representable := counted.representable
  refine ⟨counted.limited, ?_, ?_⟩
  · exact (engine.store.deleteAll_changes victims).accounted counted.accounted
  · change (engine.store.deleteAll victims).totalBytes < 2 ^ 64
    omega

end Evict

section Loop

variable (clock choices) (counted : engine.Counted)
  (evicting : engine.policy ≠ .noEviction) (steady : engine.store.Steady clock now)
  (grows : 0 < plan.requiredGrowth)

include counted evicting steady grows

end Loop

end Engine
end MnemoKV
