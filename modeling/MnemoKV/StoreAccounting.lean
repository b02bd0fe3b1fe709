import MnemoKV.KeyedListings
import MnemoKV.StoreSnapshots
import Mathlib.Logic.Relation

/-!
# Accounting of stored bytes

The counter of a store is kept by hand next to every insertion, replacement and
removal.  All operations of the store are chains of a few elementary changes,
and each of these keeps the counter equal, as a 64-bit number, to the sum of the
sizes of all entries.  While that sum fits, no subtraction wraps.
-/

namespace MnemoKV

open KeyedListings (Lists total held)

namespace Store

/-- The entries, listed with their keys. -/
def rows (store : Store) : List (Bytes × Item) :=
  store.allEntries.map fun entry => (entry.key, entry.item)

/-- The sizes of all entries, expired ones included. -/
def totalBytes (store : Store) : Nat :=
  (store.allEntries.map Entry.sizeBytes).sum

theorem nodup_keys (store : Store) : (store.allEntries.map Entry.key).Nodup := by
  have inStripe : ∀ stripe, ((store.stripes stripe).toList.map Prod.snd).map
      Entry.key = (store.stripes stripe).keys := by
    intro stripe
    rw [List.map_map, ← Std.ExtTreeMap.map_fst_toList_eq_keys]
    refine List.map_congr_left fun row member => ?_
    exact (store.placed stripe row.1 row.2
      (Std.ExtTreeMap.mem_toList_iff_getElem?_eq_some.mp member)).1
  have stripeOf : ∀ stripe, ∀ key ∈ (store.stripes stripe).keys,
      stripeIndex store.count key = stripe := by
    intro stripe key member
    obtain ⟨entry, found⟩ : ∃ entry, (store.stripes stripe)[key]? = some entry := by
      rw [Std.ExtTreeMap.mem_keys] at member
      exact ⟨_, Std.ExtTreeMap.getElem?_eq_some_getElem member⟩
    exact (store.placed stripe key entry found).2
  rw [allEntries, List.map_flatMap]
  simp only [inStripe]
  refine List.nodup_flatMap.mpr ⟨fun stripe _ => ?_, ?_⟩
  · exact Std.ExtTreeMap.nodup_keys
  · refine (List.nodup_finRange store.count).imp fun distinct => ?_
    intro key first second
    exact distinct (Fin.ext ((stripeOf _ key first).symm.trans
      (stripeOf _ key second)))

theorem lists_rows (store : Store) : Lists store.dataset store.rows where
  distinct := by
    rw [rows, List.map_map]
    exact store.nodup_keys
  complete key item := by
    rw [rows, List.mem_map]
    constructor
    · rintro ⟨entry, listed, same⟩
      obtain ⟨rfl, rfl⟩ := Prod.mk.inj same
      rw [dataset, mem_allEntries.mp listed, Option.map_some]
    · intro stored
      obtain ⟨entry, found, rfl⟩ := Option.map_eq_some_iff.mp stored
      obtain rfl := key_of_find found
      exact ⟨entry, mem_allEntries.mpr found, rfl⟩

/-- The rows of a store weigh their accounted sizes. -/
def rowBytes (_ : Bytes) (item : Item) : Nat := item.sizeBytes

theorem held_rowBytes (key : Bytes) (stored : Option Item) :
    held rowBytes key stored = AdmissionPlan.sizeOf stored := by
  cases stored <;> rfl

theorem totalBytes_eq_total (store : Store) :
    store.totalBytes = total rowBytes store.rows := by
  rw [totalBytes, total, rows, List.map_map]
  rfl

theorem totalBytes_update {store store' : Store} {key : Bytes}
    {stored : Option Item}
    (updated : store'.dataset = Function.update store.dataset key stored) :
    store'.totalBytes + AdmissionPlan.sizeOf (store.dataset key) =
      store.totalBytes + AdmissionPlan.sizeOf stored := by
  rw [totalBytes_eq_total, totalBytes_eq_total, ← held_rowBytes key,
    ← held_rowBytes key]
  exact store.lists_rows.total_update rowBytes (updated ▸ store'.lists_rows)

theorem totalBytes_congr {store store' : Store}
    (same : store'.dataset = store.dataset) :
    store'.totalBytes = store.totalBytes := by
  rw [totalBytes_eq_total, totalBytes_eq_total]
  exact (same ▸ store'.lists_rows).total_eq rowBytes store.lists_rows

/-- A store that holds no more under any key has no larger total. -/
theorem totalBytes_mono {store store' : Store}
    (smaller : ∀ key, AdmissionPlan.sizeOf (store'.dataset key) ≤
      AdmissionPlan.sizeOf (store.dataset key)) :
    store'.totalBytes ≤ store.totalBytes := by
  rw [totalBytes_eq_total, totalBytes_eq_total]
  refine store.lists_rows.total_mono rowBytes store'.lists_rows fun key => ?_
  rw [held_rowBytes, held_rowBytes]
  exact smaller key

theorem sizeOf_of_find {store : Store} {key : Bytes} {entry : Entry}
    (found : store.find key = some entry) :
    AdmissionPlan.sizeOf (store.dataset key) = entry.sizeBytes := by
  rw [dataset, found]
  rfl

theorem sizeOf_le_totalBytes (store : Store) (key : Bytes) :
    AdmissionPlan.sizeOf (store.dataset key) ≤ store.totalBytes := by
  rw [totalBytes_eq_total, ← held_rowBytes key]
  exact store.lists_rows.held_le_total rowBytes key

theorem sizeBytes_le_totalBytes {store : Store} {key : Bytes} {entry : Entry}
    (found : store.find key = some entry) :
    entry.sizeBytes ≤ store.totalBytes := by
  rw [← sizeOf_of_find found]
  exact store.sizeOf_le_totalBytes key

/-- The counter is the sum of the stored sizes, as a 64-bit number. -/
def Accounted (store : Store) : Prop :=
  store.usedBytes = wrap64 store.totalBytes

theorem Accounted.exact {store : Store} (accounted : store.Accounted)
    (fits : store.totalBytes < 2 ^ 64) : store.usedBytes = store.totalBytes := by
  rw [accounted, wrap64, Nat.mod_eq_of_lt fits]

/-- The subtractions made so far did not go below zero, if the content fitted into
the counter. -/
structure Metered (store : Store) : Prop where
  balance : store.balance = store.totalBytes
  covered : ∀ taken ∈ store.subtractions, taken.content < 2 ^ 64 →
    taken.amount ≤ taken.counter

/-- The elementary changes. -/
inductive Change (store : Store) : Store → Prop
  | drop {key : Bytes} {entry : Entry} (found : store.find key = some entry) :
      Change store ((store.unassign key).subUsed entry.sizeBytes)
  | replace {old : Entry} (entry : Entry)
      (found : store.find entry.key = some old) :
      Change store ((store.adjustUsed old.sizeBytes entry.sizeBytes).assign entry)
  | insert (entry : Entry) (missing : store.find entry.key = none) :
      Change store ((store.addUsed entry.sizeBytes).assign entry)
  | touch (old entry : Entry)
      (found : store.find entry.key = some old)
      (sameSize : entry.sizeBytes = old.sizeBytes) :
      Change store (store.assign entry)
  | flush : Change store store.flush
  | install {entries : List Entry} (distinct : (entries.map Entry.key).Nodup)
      (fits : (entries.map Entry.sizeBytes).sum < 2 ^ 64) :
      Change store (store.replaceAll entries (entries.map Entry.sizeBytes).sum)

theorem wrap64_sub {before amount after : Nat}
    (balance : after + amount = before) :
    wrap64 (wrap64 before + (2 ^ 64 - wrap64 amount)) = wrap64 after := by
  subst balance
  unfold wrap64
  omega

theorem wrap64_add (before amount : Nat) :
    wrap64 (wrap64 before + amount) = wrap64 (before + amount) := by
  unfold wrap64
  omega

theorem totalBytes_unassign {store : Store} {key : Bytes} {entry : Entry}
    (found : store.find key = some entry) (bytes : Nat) :
    ((store.unassign key).subUsed bytes).totalBytes + entry.sizeBytes =
      store.totalBytes := by
  have balance := totalBytes_update (dataset_unassign store key)
  rwa [sizeOf_of_find found] at balance

theorem totalBytes_assign (store : Store) (entry : Entry) :
    (store.assign entry).totalBytes +
        AdmissionPlan.sizeOf (store.dataset entry.key) =
      store.totalBytes + entry.sizeBytes :=
  totalBytes_update (dataset_assign store entry)

/-- The counter after the loop of `Flush` has subtracted the sizes. -/
theorem usedBytes_foldl_subUsed (entries : List Entry) (state : Store)
    {left : Nat}
    (covered : state.usedBytes =
      wrap64 (left + (entries.map Entry.sizeBytes).sum)) :
    (entries.foldl (fun state entry => state.subUsed entry.sizeBytes)
      state).usedBytes = wrap64 left := by
  induction entries generalizing state with
  | nil => simpa using covered
  | cons entry entries induction =>
      refine induction (state.subUsed entry.sizeBytes) ?_
      change wrap64 (state.usedBytes + _) = _
      rw [covered]
      refine wrap64_sub ?_
      rw [List.map_cons, List.sum_cons]
      omega

theorem totalBytes_of_empty {store : Store}
    (empty : store.dataset = fun _ => none) : store.totalBytes = 0 := by
  rw [totalBytes_eq_total]
  exact (empty ▸ store.lists_rows).total_eq rowBytes Lists.nil

theorem accounted_new (stripeCount : Int) : (Store.new stripeCount).Accounted := by
  rw [Accounted, totalBytes_of_empty (dataset_new stripeCount)]
  rfl

theorem accounted_flush {store : Store} (accounted : store.Accounted) :
    store.flush.Accounted := by
  rw [Accounted, totalBytes_of_empty store.dataset_flush]
  refine usedBytes_foldl_subUsed store.allEntries _ ?_
  rw [Nat.zero_add]
  exact accounted

theorem totalBytes_foldl_assign (entries : List Entry) (state : Store)
    (distinct : (entries.map Entry.key).Nodup)
    (fresh : ∀ entry ∈ entries, state.dataset entry.key = none) :
    (entries.foldl assign state).totalBytes =
      state.totalBytes + (entries.map Entry.sizeBytes).sum := by
  induction entries generalizing state with
  | nil => rfl
  | cons entry entries induction =>
      obtain ⟨unlisted, distinct⟩ := List.nodup_cons.mp distinct
      obtain ⟨missing, fresh⟩ := List.forall_mem_cons.mp fresh
      have balance := state.totalBytes_assign entry
      rw [missing] at balance
      rw [List.foldl_cons, induction (state.assign entry) distinct]
      · simp only [AdmissionPlan.sizeOf] at balance
        rw [List.map_cons, List.sum_cons]
        omega
      · intro other member
        have different : other.key ≠ entry.key := fun same =>
          unlisted (same ▸ List.mem_map_of_mem member)
        rw [dataset_assign, Function.update_of_ne different]
        exact fresh other member

theorem totalBytes_replaceAll (store : Store) {entries : List Entry}
    (distinct : (entries.map Entry.key).Nodup) (total : Nat) :
    (store.replaceAll entries total).totalBytes =
      (entries.map Entry.sizeBytes).sum := by
  refine (totalBytes_foldl_assign entries store.emptied distinct ?_).trans ?_
  · intro entry _
    simp [dataset]
  · rw [totalBytes_of_empty (by funext key; simp [dataset]), Nat.zero_add]

/-- Every elementary change keeps the books. -/
theorem Change.accounted {store store' : Store}
    (change : Change store store') (accounted : store.Accounted) :
    store'.Accounted := by
  cases change with
  | drop found =>
      change wrap64 (store.usedBytes + _) = _
      rw [accounted]
      exact wrap64_sub (totalBytes_unassign found _)
  | @replace old entry found =>
      have balance :=
        (store.adjustUsed old.sizeBytes entry.sizeBytes).totalBytes_assign entry
      rw [dataset_adjustUsed, sizeOf_of_find found] at balance
      have stored := sizeBytes_le_totalBytes found
      rw [totalBytes_congr (store.dataset_adjustUsed _ _)] at balance
      change (store.adjustUsed _ _).usedBytes = _
      unfold adjustUsed at balance ⊢
      split_ifs at balance ⊢ with grows
      · change wrap64 (store.usedBytes + _) = _
        rw [accounted, wrap64_add]
        congr 1
        omega
      · change wrap64 (store.usedBytes + _) = _
        rw [accounted]
        exact wrap64_sub (by omega)
  | insert entry missing =>
      have balance := (store.addUsed entry.sizeBytes).totalBytes_assign entry
      have absent : store.dataset entry.key = none := by simp [dataset, missing]
      rw [dataset_addUsed, absent] at balance
      change wrap64 (store.usedBytes + _) = _
      rw [accounted, wrap64_add]
      exact congrArg wrap64 balance.symm
  | touch old entry found sameSize =>
      have balance := store.totalBytes_assign entry
      rw [sizeOf_of_find found] at balance
      change store.usedBytes = _
      rw [accounted]
      congr 1
      omega
  | flush => exact accounted_flush accounted
  | install distinct fits =>
      rw [Accounted, totalBytes_replaceAll store distinct, wrap64,
        Nat.mod_eq_of_lt fits]
      rfl

/-- What is subtracted from an exact counter is covered by it. -/
theorem covered_cons {store : Store} {content amount : Nat}
    (counter : store.usedBytes = wrap64 content) (balance : store.balance = content)
    (covered : ∀ taken ∈ store.subtractions, taken.content < 2 ^ 64 →
      taken.amount ≤ taken.counter) (less : amount ≤ content) :
    ∀ taken ∈ (store.subUsed amount).subtractions, taken.content < 2 ^ 64 →
      taken.amount ≤ taken.counter := by
  refine List.forall_mem_cons.mpr ⟨fun fits => ?_, covered⟩
  dsimp only at fits ⊢
  rw [counter, wrap64, Nat.mod_eq_of_lt (by omega)]
  exact less

theorem metered_foldl_subUsed (entries : List Entry) (state : Store) {left : Nat}
    (counter : state.usedBytes = wrap64 (left + (entries.map Entry.sizeBytes).sum))
    (balance : state.balance = (left + (entries.map Entry.sizeBytes).sum : Nat))
    (covered : ∀ taken ∈ state.subtractions, taken.content < 2 ^ 64 →
      taken.amount ≤ taken.counter) :
    let last := entries.foldl (fun state entry => state.subUsed entry.sizeBytes) state
    last.balance = left ∧ ∀ taken ∈ last.subtractions, taken.content < 2 ^ 64 →
      taken.amount ≤ taken.counter := by
  induction entries generalizing state with
  | nil => exact ⟨by simpa using balance, covered⟩
  | cons entry entries induction =>
      rw [List.map_cons, List.sum_cons] at counter balance
      refine induction (state.subUsed entry.sizeBytes) ?_ ?_
        (covered_cons counter balance covered (by omega))
      · change wrap64 (state.usedBytes + _) = _
        rw [counter]
        exact wrap64_sub (by omega)
      · change state.balance - _ = _
        omega

theorem metered_new (stripeCount : Int) : (Store.new stripeCount).Metered := by
  refine ⟨?_, fun _ listed => nomatch listed⟩
  rw [totalBytes_of_empty (dataset_new stripeCount)]
  rfl

/-- No elementary change subtracts more than the counter shows. -/
theorem Change.metered {store store' : Store} (change : Change store store')
    (accounted : store.Accounted) (metered : store.Metered) : store'.Metered := by
  have balance := metered.balance
  cases change with
  | @drop key entry found =>
      have left := totalBytes_unassign found entry.sizeBytes
      refine ⟨?_, covered_cons accounted balance metered.covered
        (sizeBytes_le_totalBytes found)⟩
      change store.balance - _ = _
      omega
  | @replace old entry found =>
      have total :=
        (store.adjustUsed old.sizeBytes entry.sizeBytes).totalBytes_assign entry
      rw [dataset_adjustUsed, sizeOf_of_find found] at total
      have stored := sizeBytes_le_totalBytes found
      rw [totalBytes_congr (store.dataset_adjustUsed _ _)] at total
      unfold adjustUsed at total ⊢
      split_ifs at total ⊢ with grows
      · refine ⟨?_, metered.covered⟩
        change store.balance + _ = _
        omega
      · refine ⟨?_, covered_cons accounted balance metered.covered (by omega)⟩
        change store.balance - _ = _
        omega
  | insert entry missing =>
      have total := (store.addUsed entry.sizeBytes).totalBytes_assign entry
      have absent : store.dataset entry.key = none := by simp [dataset, missing]
      rw [dataset_addUsed, absent] at total
      have same : (store.addUsed entry.sizeBytes).totalBytes = store.totalBytes := rfl
      refine ⟨?_, metered.covered⟩
      change store.balance + _ = _
      simp only [AdmissionPlan.sizeOf] at total
      omega
  | touch old entry found sameSize =>
      have total := store.totalBytes_assign entry
      rw [sizeOf_of_find found] at total
      refine ⟨?_, metered.covered⟩
      change store.balance = _
      omega
  | flush =>
      obtain ⟨last, covered⟩ := metered_foldl_subUsed store.allEntries store.emptied
        (accounted.trans (by rw [Nat.zero_add]; rfl))
        (balance.trans (by rw [Nat.zero_add]; rfl)) metered.covered
      refine ⟨?_, covered⟩
      rw [totalBytes_of_empty store.dataset_flush]
      exact last
  | @install entries distinct fits =>
      have log : (entries.foldl assign store.emptied).subtractions =
          store.subtractions := by
        have kept : ∀ (listed : List Entry) (state : Store),
            (listed.foldl assign state).subtractions = state.subtractions := by
          intro listed
          induction listed with
          | nil => exact fun _ => rfl
          | cons entry rest induction => exact fun state => induction (state.assign entry)
        exact kept entries store.emptied
      refine ⟨?_, fun taken listed => metered.covered taken (log ▸ listed)⟩
      rw [totalBytes_replaceAll store distinct]
      rfl

end Store
end MnemoKV
