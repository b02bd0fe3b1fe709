import MnemoKV.VictimOrders

/-!
# Which victims a policy selects

The victims of `Manager.PickVictims` are taken from a sample of the unexpired
entries, in the order of the policy, until the bytes they free add up to what is
needed.  The running sum is a `uint64`; what is said about it holds for the sum
as the machine computes it, and for the plain sum as long as that fits.
-/

namespace MnemoKV

namespace Policy

/-- Before its last victim the loop did not have enough. -/
theorem takeVictims_minimal {bytesNeeded freed : Nat} {candidates : List Candidate}
    (small : freed < 2 ^ 64) {front : List Candidate} {last : Candidate}
    (taken : takeVictims bytesNeeded freed candidates = front ++ [last]) :
    wrap64 (freed + candidateBytes front) < bytesNeeded := by
  induction candidates generalizing freed front with
  | nil => exact absurd taken.symm (List.append_ne_nil_of_right_ne_nil _ (List.cons_ne_nil _ _))
  | cons candidate rest induction =>
      unfold takeVictims at taken
      by_cases enough : freed ≥ bytesNeeded
      · rw [if_pos enough] at taken
        exact absurd taken.symm (by simp)
      · rw [if_neg enough] at taken
        cases front with
        | nil =>
            exact (Nat.mod_eq_of_lt small).trans_lt (Nat.lt_of_not_le enough)
        | cons first front =>
            obtain ⟨rfl, later⟩ := List.cons.inj taken
            rw [← wrap64_candidateBytes_cons]
            exact induction (Nat.mod_lt _ (by decide)) later

end Policy

namespace Store

variable (store : Store) (choices : Choices) (now : Int)

/-! ### The sample -/

theorem sample_sublist (limit : Nat) :
    (store.sample choices now limit).Sublist
      ((store.iterated choices).map Entry.candidate) := by
  rw [sample_eq]
  exact (List.take_sublist _ _).trans (List.filter_sublist.map _)

theorem nodup_keys_sample (limit : Nat) :
    ((store.sample choices now limit).map Candidate.key).Nodup := by
  have all : (((store.iterated choices).map Entry.candidate).map Candidate.key).Nodup := by
    rw [List.map_map]
    exact ((store.perm_iterated choices).map _).nodup_iff.mpr store.nodup_keys
  exact ((store.sample_sublist choices now limit).map _).nodup all

variable {store choices now}

theorem unexpired_of_mem_sample {limit : Nat} {candidate : Candidate}
    (member : candidate ∈ store.sample choices now limit) :
    ∃ entry, store.find candidate.key = some entry ∧ entry.isExpired now = false ∧
      candidate = entry.candidate := by
  rw [sample_eq] at member
  obtain ⟨entry, listed, rfl⟩ := List.mem_map.mp (List.mem_of_mem_take member)
  obtain ⟨stored, fresh⟩ := List.mem_filter.mp listed
  exact ⟨entry, mem_allEntries.mp ((store.perm_iterated choices).mem_iff.mp stored),
    by simpa using fresh, rfl⟩

/-- With at most as many unexpired entries as the limit, the sample holds all. -/
theorem sample_all {limit : Nat}
    (few : (unexpired now store.allEntries).length ≤ limit) :
    (store.sample choices now limit).Perm
      ((unexpired now store.allEntries).map Entry.candidate) := by
  have perm := (store.perm_iterated choices).filter fun entry => !entry.isExpired now
  rw [sample_eq, List.take_of_length_le]
  · exact perm.map _
  · rw [List.length_map]
    exact perm.length_eq.trans_le few

theorem mem_offered {excludeKey : Bytes} {candidate : Candidate} :
    candidate ∈ store.offered choices now excludeKey ↔
      candidate ∈ store.sample choices now 16 ∧
        (excludeKey ≠ [] → candidate.key ≠ excludeKey) := by
  unfold offered
  rw [InPlaceFilters.compact_eq_filter]
  split_ifs with named
  · simp [named]
  · simp [named]

theorem offered_sublist (excludeKey : Bytes) :
    (store.offered choices now excludeKey).Sublist (store.sample choices now 16) := by
  unfold offered
  rw [InPlaceFilters.compact_eq_filter]
  split_ifs
  · exact List.filter_sublist
  · exact List.Sublist.refl _

end Store

/-- A selection from the offered candidates that follows a rank and stops as soon
as it frees enough. -/
structure MinimalSelection (rank : Candidate → Int) (bytesNeeded : Nat)
    (offered victims : List Candidate) : Prop where
  distinct : (victims.map Candidate.key).Nodup
  subset : victims ⊆ offered
  ordered : ∀ victim ∈ victims, ∀ spared ∈ offered, spared ∉ victims →
    rank victim ≤ rank spared
  enough : offered ⊆ victims ∨
    bytesNeeded ≤ wrap64 (candidateBytes victims) ∧ bytesNeeded ≤ candidateBytes victims
  /-- The sum without the last victim, as the machine adds it. -/
  minimal : wrap64 (candidateBytes victims.dropLast) < bytesNeeded
  /-- The same for the plain sum, where the offered sizes can be added up. -/
  minimal_plain : candidateBytes offered < 2 ^ 64 →
    candidateBytes victims.dropLast < bytesNeeded

/-- The loop over sorted candidates makes such a selection. -/
theorem Policy.takeVictims_selection {rank : Candidate → Int} {bytesNeeded : Nat}
    {offered candidates : List Candidate} (needed : 0 < bytesNeeded)
    (perm : candidates.Perm offered)
    (distinct : (offered.map Candidate.key).Nodup)
    (sorted : candidates.Pairwise fun first second => rank first ≤ rank second) :
    MinimalSelection rank bytesNeeded offered
      (takeVictims bytesNeeded 0 candidates) := by
  obtain ⟨rest, split⟩ := takeVictims_prefix bytesNeeded 0 candidates
  have stops := takeVictims_all_or_stops bytesNeeded candidates
    (show 0 < 2 ^ 64 by decide)
  have minimal : wrap64 (candidateBytes (takeVictims bytesNeeded 0 candidates).dropLast) <
      bytesNeeded := by
    rcases List.eq_nil_or_concat (takeVictims bytesNeeded 0 candidates) with
      none | ⟨front, last, taken⟩
    · rw [none]
      exact needed
    · rw [List.concat_eq_append] at taken
      rw [taken, List.dropLast_concat, ← Nat.zero_add (candidateBytes front)]
      exact takeVictims_minimal (by decide) taken
  generalize takeVictims bytesNeeded 0 candidates = victims at split stops minimal ⊢
  have sublist : victims.Sublist candidates := split ▸ List.sublist_append_left _ _
  refine ⟨?_, fun victim taken => perm.subset (sublist.subset taken), ?_, ?_, minimal, ?_⟩
  · exact (sublist.map _).nodup ((perm.map _).nodup_iff.mpr distinct)
  · intro victim taken spared present left
    have later : spared ∈ rest := by
      have listed := perm.mem_iff.mpr present
      rw [split] at listed
      exact (List.mem_append.mp listed).resolve_left left
    rw [split] at sorted
    exact (List.pairwise_append.mp sorted).2.2 victim taken spared later
  · rcases stops with all | enough
    · exact .inl (all ▸ perm.symm.subset)
    · rw [Nat.zero_add] at enough
      exact .inr ⟨enough, enough.trans (Nat.mod_le _ _)⟩
  · intro fits
    have below : candidateBytes victims.dropLast < 2 ^ 64 :=
      calc candidateBytes victims.dropLast
          ≤ candidateBytes candidates :=
            candidateBytes_sublist ((List.dropLast_sublist _).trans sublist)
        _ = candidateBytes offered := candidateBytes_perm perm
        _ < 2 ^ 64 := fits
    rw [← Nat.mod_eq_of_lt below]
    exact minimal

/-- The victims of an ordering policy: distinct unexpired keys other than the
excluded one, selected in the order of the policy and no more than needed; a small
dataset is sampled as a whole. -/
theorem victim_selection_is_minimal (store : Store) (policy : Policy) (choices : Choices)
    (now : Int) (bytesNeeded : Nat) (excludeKey : Bytes)
    (ordering : policy = .fifo ∨ policy = .lru ∨ policy = .lfu)
    (needed : 0 < bytesNeeded) :
    MinimalSelection (policy.rank store.count) bytesNeeded
      (store.offered choices now excludeKey)
      (store.pickVictims policy choices now bytesNeeded excludeKey) ∧
    (∀ candidate, candidate ∈ store.offered choices now excludeKey ↔
      candidate ∈ store.sample choices now 16 ∧
        (excludeKey ≠ [] → candidate.key ≠ excludeKey)) ∧
    (∀ candidate ∈ store.sample choices now 16, ∃ entry,
      store.find candidate.key = some entry ∧ entry.isExpired now = false ∧
        candidate = entry.candidate) ∧
    ((Store.unexpired now store.allEntries).length ≤ 16 →
      (store.sample choices now 16).Perm
        ((Store.unexpired now store.allEntries).map Entry.candidate)) := by
  refine ⟨?_, fun _ => Store.mem_offered, fun _ => Store.unexpired_of_mem_sample,
    Store.sample_all⟩
  have evicting : policy ≠ .noEviction := by
    rcases ordering with rfl | rfl | rfl <;> decide
  have notRandom : policy ≠ .random := by
    rcases ordering with rfl | rfl | rfl <;> decide
  obtain ⟨ordered, perm, sorted, picked⟩ := Store.pickVictims_ordered now excludeKey evicting
    (fun candidates => choices.arrange_sorted (policy.rank store.count) candidates)
    (fun random => absurd random notRandom) bytesNeeded
  rw [picked]
  have distinct := ((Store.offered_sublist excludeKey).map Candidate.key).nodup
    (store.nodup_keys_sample choices now 16)
  exact Policy.takeVictims_selection needed perm distinct sorted

/-- Three entries of 66 bytes, written one after the other. -/
def threeEntries : Store :=
  (((Store.new 1).insertNew [99] (.string [0]) 3).insertNew [98] (.string [1]) 5).insertNew
    [97] (.string [2]) 7

/-- When the oldest entry is excluded, the older one of the others is taken. -/
theorem older_entry_is_the_victim :
    (threeEntries.pickVictims .fifo .canonical 9 60 [99]).map Candidate.key = [[98]] ∧
    MinimalSelection (Policy.fifo.rank threeEntries.count) 60
      (threeEntries.offered .canonical 9 [99])
      (threeEntries.pickVictims .fifo .canonical 9 60 [99]) :=
  ⟨by decide +kernel, (victim_selection_is_minimal threeEntries .fifo .canonical 9 60 [99]
    (.inl rfl) (by decide)).1⟩

end MnemoKV
