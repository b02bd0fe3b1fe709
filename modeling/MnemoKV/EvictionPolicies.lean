import MnemoKV.StripedStore

/-!
# Sampling and victim selection

`Store.Sample`, the five policies and `eviction.Manager.PickVictims`.  Go
leaves the iteration order of a map and the order of equal elements in an
unstable sort open; `Choices` fixes both, and every result holds for all of
them.
-/

namespace MnemoKV

/-- An entry that a policy may choose as a victim. -/
structure Candidate where
  key : Bytes
  sizeBytes : Nat
  createdAtNs : Int
  lastAccessNs : Int
  accessCount : Nat
  deriving DecidableEq

def Entry.candidate (entry : Entry) : Candidate :=
  { key := entry.key, sizeBytes := entry.sizeBytes
    createdAtNs := entry.createdAtNs, lastAccessNs := entry.lastAccessNs
    accessCount := entry.accessCount }

/-- One resolution of map iteration order and of ties in `sort.Slice`. -/
structure Choices where
  iterate : Nat → List Entry → List Entry
  iterate_perm : ∀ stripe entries, (iterate stripe entries).Perm entries
  arrange : (Candidate → Int) → List Candidate → List Candidate
  arrange_perm : ∀ rank candidates,
    (arrange rank candidates).Perm candidates
  arrange_sorted : ∀ rank candidates,
    (arrange rank candidates).Pairwise fun first second =>
      rank first ≤ rank second

/-- Key order for iteration and insertion sort for ranking. -/
def Choices.canonical : Choices where
  iterate _ entries := entries
  iterate_perm _ entries := List.Perm.refl entries
  arrange rank candidates :=
    candidates.insertionSort fun first second => rank first ≤ rank second
  arrange_perm _ candidates := List.perm_insertionSort _ candidates
  arrange_sorted rank candidates :=
    have : Std.Total fun first second : Candidate =>
        rank first ≤ rank second := ⟨fun _ _ => Int.le_total _ _⟩
    have : IsTrans Candidate fun first second => rank first ≤ rank second :=
      ⟨fun _ _ _ => Int.le_trans⟩
    List.pairwise_insertionSort _ candidates

/-- The eviction policies. -/
inductive Policy
  | fifo
  | random
  | lru
  | lfu
  | noEviction
  deriving DecidableEq, Repr

def policyByName (name : String) : Policy :=
  if name = "fifo" then .fifo
  else if name = "random" then .random
  else if name = "lru" then .lru
  else if name = "lfu" then .lfu
  else .noEviction

namespace Policy

/-- The loop that all evicting policies end with. -/
def takeVictims (bytesNeeded : Nat) :
    Nat → List Candidate → List Candidate
  | _, [] => []
  | freed, candidate :: rest =>
      if freed ≥ bytesNeeded then []
      else candidate ::
        takeVictims bytesNeeded (wrap64 (freed + candidate.sizeBytes)) rest

/-- The first candidates, in the order of the policy, that free the bytes. -/
def pickVictims (policy : Policy) (choices : Choices) (bytesNeeded : Nat)
    (candidates : List Candidate) : List Candidate :=
  match policy with
  | fifo => takeVictims bytesNeeded 0
      (choices.arrange Candidate.createdAtNs candidates)
  | lru => takeVictims bytesNeeded 0
      (choices.arrange Candidate.lastAccessNs candidates)
  | lfu => takeVictims bytesNeeded 0
      (choices.arrange (fun candidate => candidate.accessCount) candidates)
  | random => takeVictims bytesNeeded 0 candidates
  | noEviction => []

theorem takeVictims_subset (bytesNeeded freed : Nat)
    (candidates : List Candidate) :
    takeVictims bytesNeeded freed candidates ⊆ candidates := by
  induction candidates generalizing freed with
  | nil => exact List.Subset.refl _
  | cons candidate rest induction =>
      unfold takeVictims
      split_ifs with enough
      · exact List.nil_subset _
      · exact List.cons_subset_cons candidate (induction _)

theorem pickVictims_subset (policy : Policy) (choices : Choices)
    (bytesNeeded : Nat) (candidates : List Candidate) :
    policy.pickVictims choices bytesNeeded candidates ⊆ candidates := by
  have ranked : ∀ rank, takeVictims bytesNeeded 0
      (choices.arrange rank candidates) ⊆ candidates := fun rank =>
    List.Subset.trans (takeVictims_subset _ _ _)
      (choices.arrange_perm rank candidates).subset
  cases policy with
  | fifo => exact ranked _
  | lru => exact ranked _
  | lfu => exact ranked _
  | random => exact takeVictims_subset _ _ _
  | noEviction => exact List.nil_subset _

end Policy

namespace Store

/-- The inner loop of `Sample`, over the entries of one stripe. -/
def sampleEntries (now : Int) (limit : Nat) :
    List Candidate → List Entry → List Candidate
  | sampled, [] => sampled
  | sampled, entry :: rest =>
      if entry.isExpired now then sampleEntries now limit sampled rest
      else if (sampled ++ [entry.candidate]).length ≥ limit then
        sampled ++ [entry.candidate]
      else sampleEntries now limit (sampled ++ [entry.candidate]) rest

/-- The outer loop of `Sample` stops before a stripe once it has enough. -/
def sampleStripe (store : Store) (choices : Choices) (now : Int) (limit : Nat)
    (sampled : List Candidate) (stripe : Fin store.count) : List Candidate :=
  if sampled.length ≥ limit then sampled
  else sampleEntries now limit sampled
    (choices.iterate stripe ((store.stripes stripe).toList.map Prod.snd))

/-- At most so many unexpired entries, in the order of the scan. -/
def sample (store : Store) (choices : Choices) (now : Int) (limit : Nat) :
    List Candidate :=
  (List.finRange store.count).foldl (store.sampleStripe choices now limit) []

/-- `Manager.PickVictims`, with its sample of sixteen. -/
def pickVictims (store : Store) (policy : Policy) (choices : Choices)
    (now : Int) (bytesNeeded : Nat) (excludeKey : Bytes) : List Candidate :=
  let candidates := store.sample choices now 16
  let candidates :=
    if excludeKey ≠ [] then
      candidates.filter fun candidate => candidate.key ≠ excludeKey
    else candidates
  if candidates = [] then []
  else policy.pickVictims choices bytesNeeded candidates

/-- The entries of one stripe in the order in which a sample meets them. -/
def iteratedStripe (store : Store) (choices : Choices) (stripe : Fin store.count) :
    List Entry :=
  choices.iterate stripe ((store.stripes stripe).toList.map Prod.snd)

/-- The entries of all stripes. -/
def iterated (store : Store) (choices : Choices) : List Entry :=
  (List.finRange store.count).flatMap (store.iteratedStripe choices)

/-- The entries that have not expired. -/
def unexpired (now : Int) (entries : List Entry) : List Entry :=
  entries.filter fun entry => !entry.isExpired now

theorem sampleEntries_eq {now : Int} {limit : Nat} {sampled : List Candidate}
    {entries : List Entry} (room : sampled.length < limit) :
    sampleEntries now limit sampled entries =
      (sampled ++ (unexpired now entries).map Entry.candidate).take limit := by
  induction entries generalizing sampled with
  | nil => simp [sampleEntries, unexpired, List.take_of_length_le room.le]
  | cons entry rest induction =>
      unfold sampleEntries
      by_cases expired : entry.isExpired now = true
      · have skipped : unexpired now (entry :: rest) = unexpired now rest :=
          List.filter_cons_of_neg (by simp [expired])
        rw [if_pos expired, skipped]
        exact induction room
      · have kept : unexpired now (entry :: rest) = entry :: unexpired now rest :=
          List.filter_cons_of_pos (by simp [expired])
        rw [if_neg expired, kept, List.map_cons,
          List.append_cons sampled entry.candidate ((unexpired now rest).map _)]
        have grown : (sampled ++ [entry.candidate]).length = sampled.length + 1 :=
          List.length_append
        split_ifs with full
        · exact (List.take_left' (by omega)).symm
        · exact induction (by omega)

theorem sampleStripe_eq {store : Store} {choices : Choices} {now : Int}
    {limit : Nat} {sampled : List Candidate} {stripe : Fin store.count}
    (room : sampled.length ≤ limit) :
    store.sampleStripe choices now limit sampled stripe =
      (sampled ++ (unexpired now (store.iteratedStripe choices stripe)).map
        Entry.candidate).take limit := by
  unfold sampleStripe
  split_ifs with full
  · exact (List.take_left' (by omega)).symm
  · exact sampleEntries_eq (by omega)

/-- Cutting the first part before the whole is cut makes no difference. -/
theorem take_take_append (limit : Nat) (first second : List Candidate) :
    (first.take limit ++ second).take limit = (first ++ second).take limit := by
  rw [List.take_append, List.take_append, List.take_take, Nat.min_self, List.length_take]
  congr 2
  omega

/-- A sample is the first entries that have not expired, in iteration order. -/
theorem sample_eq (store : Store) (choices : Choices) (now : Int) (limit : Nat) :
    store.sample choices now limit =
      ((unexpired now (store.iterated choices)).map Entry.candidate).take limit := by
  have loop : ∀ (stripes : List (Fin store.count)) (sampled : List Candidate),
      sampled.length ≤ limit →
      stripes.foldl (store.sampleStripe choices now limit) sampled =
        (sampled ++ (unexpired now
          (stripes.flatMap (store.iteratedStripe choices))).map
            Entry.candidate).take limit := by
    intro stripes
    induction stripes with
    | nil =>
        intro sampled room
        simp [unexpired, List.take_of_length_le room]
    | cons stripe stripes induction =>
        intro sampled room
        rw [List.foldl_cons, sampleStripe_eq room, induction _ (List.length_take_le _ _),
          List.flatMap_cons, unexpired, unexpired, unexpired, List.filter_append,
          List.map_append, ← List.append_assoc]
        exact take_take_append limit _ _
  exact loop (List.finRange store.count) [] (Nat.zero_le _)

theorem find_of_mem_stripe {store : Store} {stripe : Fin store.count}
    {entry : Entry}
    (listed : entry ∈ (store.stripes stripe).toList.map Prod.snd) :
    store.find entry.key = some entry := by
  obtain ⟨⟨key, stored⟩, present, rfl⟩ := List.mem_map.mp listed
  have found : (store.stripes stripe)[key]? = some stored :=
    Std.ExtTreeMap.mem_toList_iff_getElem?_eq_some.mp present
  obtain ⟨sameKey, index⟩ := store.placed _ _ _ found
  have sameStripe : store.stripeFor key = stripe := Fin.ext index
  rw [find, sameKey, sameStripe]
  exact found

theorem mem_sample {store : Store} {choices : Choices} {now : Int}
    {limit : Nat} {candidate : Candidate}
    (member : candidate ∈ store.sample choices now limit) :
    ∃ entry, store.find candidate.key = some entry ∧ candidate = entry.candidate := by
  rw [sample_eq] at member
  obtain ⟨entry, kept, rfl⟩ := List.mem_map.mp (List.mem_of_mem_take member)
  obtain ⟨stripe, -, listed⟩ := List.mem_flatMap.mp (List.mem_of_mem_filter kept)
  exact ⟨entry, find_of_mem_stripe ((choices.iterate_perm stripe _).subset listed), rfl⟩

theorem mem_pickVictims {store : Store} {policy : Policy} {choices : Choices}
    {now : Int} {bytesNeeded : Nat} {excludeKey : Bytes}
    {candidate : Candidate}
    (member : candidate ∈ store.pickVictims policy choices now bytesNeeded
      excludeKey) :
    ∃ entry, store.find candidate.key = some entry := by
  unfold pickVictims at member
  dsimp only at member
  split_ifs at member with excluded none none
  · exact absurd member List.not_mem_nil
  · have kept := policy.pickVictims_subset choices bytesNeeded _ member
    exact (mem_sample (List.mem_filter.mp kept).1).imp fun _ => And.left
  · exact absurd member List.not_mem_nil
  · exact (mem_sample (policy.pickVictims_subset choices bytesNeeded _ member)).imp
      fun _ => And.left

end Store
end MnemoKV
