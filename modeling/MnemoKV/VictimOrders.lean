import MnemoKV.InPlaceFilters
import MnemoKV.StoreAccounting

/-!
# The order in which entries are evicted

The victims of a pass are the first of the sampled candidates in the order of the
policy.  They are all candidates, or make up for the missing bytes.
-/

namespace MnemoKV

/-- The bytes of a list of candidates. -/
def candidateBytes (candidates : List Candidate) : Nat :=
  (candidates.map Candidate.sizeBytes).sum

theorem candidateBytes_cons (candidate : Candidate) (rest : List Candidate) :
    candidateBytes (candidate :: rest) =
      candidate.sizeBytes + candidateBytes rest :=
  List.sum_cons

theorem candidateBytes_perm {first second : List Candidate}
    (perm : first.Perm second) : candidateBytes first = candidateBytes second :=
  (perm.map _).sum_eq

theorem candidateBytes_sublist {first second : List Candidate}
    (sublist : first.Sublist second) :
    candidateBytes first ≤ candidateBytes second :=
  (sublist.map _).sum_le_sum fun _ _ => Nat.zero_le _

theorem candidateBytes_append (first second : List Candidate) :
    candidateBytes (first ++ second) = candidateBytes first + candidateBytes second := by
  simp [candidateBytes]

namespace Policy

/-! ### The loop over the candidates -/

theorem takeVictims_prefix (bytesNeeded freed : Nat) (candidates : List Candidate) :
    ∃ rest, candidates = takeVictims bytesNeeded freed candidates ++ rest := by
  induction candidates generalizing freed with
  | nil => exact ⟨[], rfl⟩
  | cons candidate rest induction =>
      unfold takeVictims
      split_ifs
      · exact ⟨candidate :: rest, rfl⟩
      · obtain ⟨left, split⟩ := induction (wrap64 (freed + candidate.sizeBytes))
        exact ⟨left, by rw [List.cons_append, ← split]⟩

/-- The running sum of the loop is the sum of what has been taken. -/
theorem wrap64_candidateBytes_cons (freed : Nat) (candidate : Candidate)
    (rest : List Candidate) :
    wrap64 (wrap64 (freed + candidate.sizeBytes) + candidateBytes rest) =
      wrap64 (freed + candidateBytes (candidate :: rest)) := by
  rw [candidateBytes_cons, ← Nat.add_assoc]
  exact Nat.mod_add_mod _ _ _

/-- The loop takes everything or stops with enough. -/
theorem takeVictims_all_or_stops (bytesNeeded : Nat) {freed : Nat}
    (candidates : List Candidate) (small : freed < 2 ^ 64) :
    takeVictims bytesNeeded freed candidates = candidates ∨
      bytesNeeded ≤
        wrap64 (freed + candidateBytes (takeVictims bytesNeeded freed candidates)) := by
  induction candidates generalizing freed with
  | nil => exact .inl rfl
  | cons candidate rest induction =>
      unfold takeVictims
      by_cases enough : freed ≥ bytesNeeded
      · rw [if_pos enough]
        refine .inr (enough.trans ?_)
        exact (Nat.mod_eq_of_lt small).ge
      · rw [if_neg enough, ← wrap64_candidateBytes_cons]
        have below : wrap64 (freed + candidate.sizeBytes) < 2 ^ 64 :=
          Nat.mod_lt _ (by decide)
        rcases induction below with all | stops
        · exact .inl (by rw [all])
        · exact .inr stops

theorem takeVictims_all_or_enough (bytesNeeded : Nat) (candidates : List Candidate) :
    takeVictims bytesNeeded 0 candidates = candidates ∨
      bytesNeeded ≤ candidateBytes (takeVictims bytesNeeded 0 candidates) := by
  refine (takeVictims_all_or_stops bytesNeeded candidates (by decide)).imp_right
    fun stops => ?_
  rw [Nat.zero_add] at stops
  exact stops.trans (Nat.mod_le _ _)

end Policy

theorem Store.perm_iterated (store : Store) (choices : Choices) :
    (store.iterated choices).Perm store.allEntries :=
  List.Perm.flatMap_left _ fun stripe _ => choices.iterate_perm stripe _

/-! ### The order of a policy -/

/-- What the policy goes by.  `random` takes the candidates as they come, which
is stripe by stripe. -/
def Policy.rank (policy : Policy) (count : Nat) (candidate : Candidate) : Int :=
  match policy with
  | fifo => candidate.createdAtNs
  | lru => candidate.lastAccessNs
  | lfu => candidate.accessCount
  | random => stripeIndex count candidate.key
  | noEviction => 0

namespace Store

/-- What `Manager.PickVictims` hands to the policy: the sample, from which the
excluded key is removed in place. -/
def offered (store : Store) (choices : Choices) (now : Int) (excludeKey : Bytes) :
    List Candidate :=
  if excludeKey ≠ [] then
    InPlaceFilters.compact (fun candidate => decide (candidate.key ≠ excludeKey))
      (store.sample choices now 16)
  else store.sample choices now 16

theorem pickVictims_eq (store : Store) (policy : Policy) (choices : Choices) (now : Int)
    (bytesNeeded : Nat) (excludeKey : Bytes) :
    store.pickVictims policy choices now bytesNeeded excludeKey =
      if store.offered choices now excludeKey = [] then []
      else policy.pickVictims choices bytesNeeded
        (store.offered choices now excludeKey) := by
  unfold pickVictims offered
  rw [InPlaceFilters.compact_eq_filter]

/-- The victims are the first of the offered candidates in the order of the
policy.  `Before` is any relation that the order respects. -/
theorem pickVictims_ordered {store : Store} {policy : Policy} {choices : Choices}
    (now : Int) (excludeKey : Bytes) {Before : Candidate → Candidate → Prop}
    (evicting : policy ≠ .noEviction)
    (arranged : ∀ candidates,
      (choices.arrange (policy.rank store.count) candidates).Pairwise Before)
    (iterated : policy = .random →
      (store.offered choices now excludeKey).Pairwise Before)
    (bytesNeeded : Nat) :
    ∃ ordered : List Candidate, ordered.Perm (store.offered choices now excludeKey) ∧
      ordered.Pairwise Before ∧
      store.pickVictims policy choices now bytesNeeded excludeKey =
        Policy.takeVictims bytesNeeded 0 ordered := by
  rw [pickVictims_eq]
  generalize store.offered choices now excludeKey = offered at iterated ⊢
  have ranked : ∃ ordered : List Candidate, ordered.Perm offered ∧
      ordered.Pairwise Before ∧ policy.pickVictims choices bytesNeeded offered =
        Policy.takeVictims bytesNeeded 0 ordered := by
    cases policy with
    | fifo => exact ⟨_, choices.arrange_perm _ offered, arranged offered, rfl⟩
    | lru => exact ⟨_, choices.arrange_perm _ offered, arranged offered, rfl⟩
    | lfu => exact ⟨_, choices.arrange_perm _ offered, arranged offered, rfl⟩
    | random => exact ⟨offered, .refl _, iterated rfl, rfl⟩
    | noEviction => exact absurd rfl evicting
  obtain ⟨ordered, perm, sorted, picked⟩ := ranked
  refine ⟨ordered, perm, sorted, ?_⟩
  split_ifs with empty
  · rw [empty, List.perm_nil] at perm
    rw [perm]
    rfl
  · exact picked

end Store
end MnemoKV
