import MnemoKV.StripeIndependence
import MnemoKV.VictimSelection

/-!
# Access counts

A command renews at most one entry: it makes a new one that counts as accessed once,
or it raises the count of the present one.  The count is a 32-bit word.  While no count
of `2 ^ 32 - 1` is raised, it is one more than the number of calls that have touched the
key since it was created, and LFU takes keys in the order of these numbers.
-/

namespace MnemoKV

open LabelledRuns

namespace Store

/-! ### What happens to an entry -/

/-- Entries are kept, or removed for a reason. -/
def Thins (Reason : Entry → Prop) (before after : Store) : Prop :=
  ∀ key, after.find key = before.find key ∨
    after.find key = none ∧ ∀ entry, before.find key = some entry → Reason entry

namespace Thins

variable {Reason : Entry → Prop} {first second third : Store}

theorem refl (store : Store) : Thins Reason store store :=
  fun _ => .inl rfl

theorem trans (earlier : Thins Reason first second) (later : Thins Reason second third) :
    Thins Reason first third := by
  intro key
  rcases earlier key with same | ⟨gone, reason⟩
  · rw [← same]
    exact later key
  · refine .inr ⟨?_, reason⟩
    rcases later key with same | ⟨gone', -⟩
    · exact same.trans gone
    · exact gone'

theorem drop {store : Store} {key : Bytes} {entry : Entry}
    (found : store.find key = some entry) (reason : Reason entry) (bytes : Nat) :
    Thins Reason store ((store.unassign key).subUsed bytes) := by
  intro other
  rw [find_subUsed, find_unassign]
  split_ifs with same
  · refine .inr ⟨rfl, fun entry' found' => ?_⟩
    rw [← same, found] at found'
    exact Option.some.inj found' ▸ reason
  · exact .inl rfl

theorem expire (store : Store) {now : Int} (key : Bytes)
    (reason : ∀ entry : Entry, entry.isExpired now = true → Reason entry) :
    Thins Reason store (store.expire now key) := by
  unfold Store.expire
  split
  · rename_i entry found
    split_ifs with expired
    · exact drop found (reason entry expired) _
    · exact .refl store
  · exact .refl store

theorem deleteWithSize (store : Store) (key : Bytes)
    (reason : ∀ entry : Entry, entry.key = key → Reason entry) :
    Thins Reason store (store.deleteWithSize key).2 := by
  unfold Store.deleteWithSize
  split
  · exact .refl store
  · rename_i entry found
    exact drop found (reason entry (key_of_find found)) _

end Thins

/-- The entry of a key is another one: the old one touched, or a new one where the clock
has left none. -/
inductive Renewed (readings : Int → Prop) (old : Option Entry) (new : Entry) : Prop
  | touched {entry : Entry} {now : Int} (found : old = some entry) (reads : readings now)
      (live : entry.isExpired now = false)
      (counted : new.accessCount = (entry.accessCount + 1) % 2 ^ 32)
  | created
      (lapsed : ∀ entry, old = some entry → ∃ now, readings now ∧ entry.isExpired now = true)
      (counted : new.accessCount = 1)

/-- At most the entry of the owner is renewed. -/
def Renews (readings : Int → Prop) (owner : Bytes) (before after : Store) : Prop :=
  ∀ key new, after.find key = some new → before.find key = some new ∨
    key = owner ∧ Renewed readings (before.find key) new

variable {readings : Int → Prop} {owner : Bytes} {before middle after : Store}

theorem Renews.refl (store : Store) : Renews readings owner store store :=
  fun _ _ found => .inl found

theorem Thins.renews (thins : Thins (fun _ => True) before after) :
    Renews readings owner before after := by
  intro key new found
  rcases thins key with same | ⟨gone, -⟩
  · exact .inl (same ▸ found)
  · rw [gone] at found
    cases found

/-- If it is the owner's, the entry has expired. -/
def LapsedOwner (readings : Int → Prop) (owner : Bytes) (entry : Entry) : Prop :=
  entry.key = owner → ∃ now, readings now ∧ entry.isExpired now = true

theorem Thins.then_renews (thins : Thins (LapsedOwner readings owner) before middle)
    (renews : Renews readings owner middle after) : Renews readings owner before after := by
  intro key new found
  rcases thins key with same | ⟨gone, reason⟩
  · rw [← same]
    exact renews key new found
  · rcases renews key new found with kept | ⟨own, renewed⟩
    · rw [gone] at kept
      cases kept
    · refine .inr ⟨own, ?_⟩
      cases renewed with
      | touched present =>
          rw [gone] at present
          cases present
      | created _ counted =>
          refine .created (fun entry present => ?_) counted
          exact reason entry present ((key_of_find present).trans own)

theorem Write.renews {now : Int} (write : Write before owner after) (reads : readings now)
    (live : ∀ entry, before.find owner = some entry → entry.isExpired now = false) :
    Renews readings owner before after := by
  have assigned : ∀ {base : Store} {entry : Entry}, (∀ key, base.find key = before.find key) →
      entry.key = owner → Renewed readings (before.find owner) entry →
      Renews readings owner before (base.assign entry) := by
    rintro base entry same rfl renewed key new found
    rw [find_assign, same] at found
    split_ifs at found with own
    · obtain rfl := Option.some.inj found
      exact .inr ⟨own.symm, own ▸ renewed⟩
    · exact .inl found
  cases write with
  | nothing => exact .refl before
  | drop found => exact (Thins.drop found trivial _).renews
  | insert entry own missing counted =>
      refine assigned (find_addUsed before _) own (.created (fun old found => ?_) counted)
      rw [missing] at found
      cases found
  | replace entry own found counted =>
      exact assigned (find_adjustUsed before _ _) own
        (.touched found reads (live _ found) counted)
  | touch entry own found _ counted =>
      exact assigned (fun _ => rfl) own (.touched found reads (live _ found) counted)

theorem Performs.renews {now : Readings} {keys : List Bytes} {outcome : Store → Frame × Store}
    (performs : Performs now keys outcome) (reads : ∀ index, readings (now index))
    (store : Store) : Renews readings (keys.headD []) store (outcome store).2 := by
  cases performs with
  | lookups lookups same =>
      rw [same]
      refine Thins.renews (List.foldlRecOn lookups _ (.refl store) ?_)
      exact fun _ earlier _ _ => earlier.trans (.expire _ _ fun _ _ => trivial)
  | operation index operation same =>
      rw [same]
      refine Thins.then_renews
        (.expire store (keys.headD []) fun _ expired _ => ⟨_, reads index, expired⟩) ?_
      exact (operation.writes (now index) _ store).renews (reads index) fun entry =>
        unexpired_of_find_expire
  | deletions removed same =>
      rw [same]
      refine Thins.renews (List.foldlRecOn removed _ (.refl store) ?_)
      exact fun _ earlier _ _ => earlier.trans (.deleteWithSize _ _ fun _ _ => trivial)
  | flush same =>
      intro key new found
      rw [same, find_flush] at found
      cases found

end Store

/-! ### Runs of commands -/

namespace EngineCall

open Store

variable [FloatText] {σ : Type}

/-- The readings of the clock that a command makes about its keys. -/
def Reads (call : EngineCall σ) (moment : Int) : Prop :=
  match call with
  | execute _ clock _ _ => clock.plan.At moment ∨ clock.exec.At moment
  | applyReplicated now _ => now.At moment
  | restoreSnapshotEntries _ _ | setPolicy _ => False

/-- A restore is not a command, but replaces the dataset. -/
def isRestore : EngineCall σ → Bool
  | restoreSnapshotEntries _ _ => true
  | _ => false

/-- The key that a command is about. -/
def owner : EngineCall σ → Bytes
  | execute _ _ _ cmd | applyReplicated _ cmd => cmd.extractPrimaryKey
  | restoreSnapshotEntries _ _ | setPolicy _ => []

theorem step_renews (state : Engine × σ) {call : EngineCall σ}
    (command : call.isRestore = false) :
    Renews call.Reads call.owner state.1.store (step state call).1.store := by
  cases call with
  | execute hook clock choices cmd =>
      obtain ⟨planned, room, start, evicts, finish⟩ :=
        Engine.execute_stages hook clock choices cmd state.1 state.2
      have looked : Thins (LapsedOwner (execute hook clock choices cmd).Reads
          cmd.extractPrimaryKey) state.1.store planned := by
        rcases start with rfl | rfl
        · exact .refl _
        · rcases planAdmission_lookup clock.plan cmd with same | ⟨index, same⟩ <;>
            rw [same]
          · exact .refl _
          · exact .expire _ _ fun _ expired _ => ⟨_, .inl ⟨index, rfl⟩, expired⟩
      refine looked.then_renews (Thins.then_renews
        (evicts.related (Thins _) Thins.refl Thins.trans fun store key other =>
          .deleteWithSize store key fun entry own same =>
            absurd (own.symm.trans same) other) ?_)
      change Renews _ _ _ (Engine.execute hook clock choices cmd state.1 state.2).2.1.store
      rcases finish with same | same <;> rw [same]
      · exact .refl room
      · exact (Executor.performs_execute clock.exec cmd).renews
          (fun index => .inr ⟨index, rfl⟩) room
  | applyReplicated now cmd =>
      exact (Executor.performs_execute now cmd).renews (fun index => ⟨index, rfl⟩) _
  | restoreSnapshotEntries entries now => cases command
  | setPolicy policy => exact .refl state.1.store

/-- Along the calls the key always exists; the number is that of the calls that touch its
entry. -/
inductive Persists (key : Bytes) : Engine × σ → List (EngineCall σ) → Nat → Prop
  | here {state : Engine × σ} {entry : Entry} (found : state.1.store.find key = some entry) :
      Persists key state [] 0
  | call {state : Engine × σ} {call : EngineCall σ} {calls : List (EngineCall σ)}
      {entry : Entry} {touches : Nat} (found : state.1.store.find key = some entry)
      (live : ∀ moment, call.Reads moment → entry.isExpired moment = false)
      (command : call.isRestore = false) (rest : Persists key (step state call) calls touches) :
      Persists key state (call :: calls)
        (touches + if (step state call).1.store.find key = some entry then 0 else 1)

/-- A call makes an entry for a key that has none, or one that has expired. -/
structure Creates (key : Bytes) (state : Engine × σ) (call : EngineCall σ) : Prop where
  command : call.isRestore = false
  missing : ∀ entry, state.1.store.find key = some entry →
    ∀ moment, call.Reads moment → entry.isExpired moment = true
  new : (step state call).1.store.find key ≠ state.1.store.find key

/-- No call touches an entry that has already been counted `2 ^ 32 - 1` times. -/
def Unsaturated (key : Bytes) : Engine × σ → List (EngineCall σ) → Prop
  | _, [] => True
  | state, call :: calls =>
      (∀ entry, state.1.store.find key = some entry →
        ∀ next, (step state call).1.store.find key = some next →
          next = entry ∨ entry.accessCount + 1 < 2 ^ 32) ∧
      Unsaturated key (step state call) calls

/-- Every call about the key finds its entry counted less than `2 ^ 32 - 1` times. -/
def Roomy (key : Bytes) : Engine × σ → List (EngineCall σ) → Prop
  | _, [] => True
  | state, call :: calls =>
      (call.owner = key → ∀ entry, state.1.store.find key = some entry →
        entry.accessCount + 1 < 2 ^ 32) ∧
      Roomy key (step state call) calls

theorem Unsaturated.drop {key : Bytes} {state : Engine × σ} {first second : List (EngineCall σ)}
    (unsaturated : Unsaturated key state (first ++ second)) :
    Unsaturated key (run step state first) second := by
  induction first generalizing state with
  | nil => exact unsaturated
  | cons call calls induction => exact induction unsaturated.2

variable {key : Bytes} {state : Engine × σ} {call : EngineCall σ} {calls : List (EngineCall σ)}
  {touches : Nat}

theorem Persists.found (persists : Persists key state calls touches) :
    ∃ entry, state.1.store.find key = some entry := by
  cases persists with
  | here found => exact ⟨_, found⟩
  | call found => exact ⟨_, found⟩

theorem Creates.count (creates : Creates key state call) {entry : Entry}
    (found : (step state call).1.store.find key = some entry) : entry.accessCount = 1 := by
  rcases step_renews state creates.command key entry found with same | ⟨-, renewed⟩
  · exact absurd (found.trans same.symm) creates.new
  · cases renewed with
    | touched old reads live =>
        rw [creates.missing _ old _ reads] at live
        cases live
    | created _ counted => exact counted

/-- The count of the key never falls along the calls. -/
def NeverFalls (key : Bytes) : Engine × σ → List (EngineCall σ) → Prop
  | _, [] => True
  | state, call :: calls =>
      (∀ entry, state.1.store.find key = some entry →
        ∀ next, (step state call).1.store.find key = some next →
          entry.accessCount ≤ next.accessCount) ∧
      NeverFalls key (step state call) calls

theorem step_count (command : call.isRestore = false) {entry next : Entry}
    (found : state.1.store.find key = some entry)
    (live : ∀ moment, call.Reads moment → entry.isExpired moment = false)
    (there : (step state call).1.store.find key = some next) :
    next = entry ∨ next.accessCount = (entry.accessCount + 1) % 2 ^ 32 := by
  rcases step_renews state command key next there with same | ⟨-, renewed⟩
  · exact .inl (Option.some.inj (same.symm.trans found))
  · cases renewed with
    | touched old _ _ counted =>
        obtain rfl := Option.some.inj (found.symm.trans old)
        exact .inr counted
    | created lapsed =>
        obtain ⟨moment, reads, expired⟩ := lapsed entry found
        rw [live moment reads] at expired
        cases expired

theorem Persists.neverFalls_iff (persists : Persists key state calls touches) :
    NeverFalls key state calls ↔ Unsaturated key state calls := by
  induction persists with
  | here => exact Iff.rfl
  | @call state call calls entry touches found live command rest induction =>
      obtain ⟨next, there⟩ := rest.found
      refine and_congr ?_ induction
      simp only [found, there, Option.some.injEq, forall_eq']
      rcases step_count command found live there with rfl | counted
      · simp
      · rw [counted]
        refine ⟨fun larger => .inr (by omega), ?_⟩
        rintro (rfl | small)
        · omega
        · omega

theorem Persists.unsaturated_of_roomy (persists : Persists key state calls touches)
    (roomy : Roomy key state calls) : Unsaturated key state calls := by
  induction persists with
  | here => trivial
  | @call state call calls entry touches found live command rest induction =>
      refine ⟨fun first present next there => ?_, induction roomy.2⟩
      rcases step_renews state command key next there with same | ⟨own, -⟩
      · exact .inl (Option.some.inj (same.symm.trans present))
      · exact .inr (roomy.1 own.symm first present)

theorem Persists.count (persists : Persists key state calls touches)
    (unsaturated : Unsaturated key state calls) {first : Entry}
    (start : state.1.store.find key = some first) :
    ∃ last, (run step state calls).1.store.find key = some last ∧
      last.accessCount = first.accessCount + touches := by
  induction persists generalizing first with
  | here => exact ⟨first, start, rfl⟩
  | @call state call calls entry touches found live command rest induction =>
      obtain rfl := Option.some.inj (found.symm.trans start)
      obtain ⟨next, there⟩ := rest.found
      obtain ⟨last, finish, count⟩ := induction unsaturated.2 there
      refine ⟨last, finish, count.trans ?_⟩
      split_ifs with kept
      · rw [← Option.some.inj (there.symm.trans kept)]
        rfl
      · have small := (unsaturated.1 entry found next there).resolve_left
          fun same => kept (same ▸ there)
        rcases step_count command found live there with rfl | counted
        · exact absurd there kept
        · rw [counted, Nat.mod_eq_of_lt small]
          omega

/-- A call of the run has created the key, which has been there ever since. -/
def TouchedSince (state : Engine × σ) (calls : List (EngineCall σ)) (key : Bytes)
    (touches : Nat) : Prop :=
  ∃ earlier call later, calls = earlier ++ call :: later ∧
    Creates key (run step state earlier) call ∧
    Persists key (step (run step state earlier) call) later touches

theorem TouchedSince.count (since : TouchedSince state calls key touches)
    (unsaturated : Unsaturated key state calls) :
    ∃ last, (run step state calls).1.store.find key = some last ∧
      last.accessCount = 1 + touches := by
  obtain ⟨earlier, call, later, rfl, creates, persists⟩ := since
  obtain ⟨first, found⟩ := persists.found
  obtain ⟨last, finish, count⟩ := persists.count unsaturated.drop.2 found
  rw [run_append, run_cons]
  exact ⟨last, finish, count.trans (by rw [creates.count found])⟩

end EngineCall

/-! ### The order of LFU -/

namespace Store

/-- Of the candidates on offer, LFU never takes the first key before the second. -/
def NeverBefore (store : Store) (often rarely : Bytes) : Prop :=
  ∀ choices now bytesNeeded excludeKey, ∃ ordered : List Candidate,
    ordered.Perm (store.offered choices now excludeKey) ∧
      store.pickVictims .lfu choices now bytesNeeded excludeKey =
        Policy.takeVictims bytesNeeded 0 ordered ∧
      ordered.Pairwise fun first second => ¬ (first.key = often ∧ second.key = rarely)

theorem neverBefore_of_lt {store : Store} {often rarely : Bytes} {more less : Entry}
    (foundMore : store.find often = some more) (foundLess : store.find rarely = some less)
    (fewer : less.accessCount < more.accessCount) : store.NeverBefore often rarely := by
  intro choices now bytesNeeded excludeKey
  obtain ⟨ordered, perm, sorted, picked⟩ := @pickVictims_ordered store .lfu choices now
    excludeKey _ (by decide) (choices.arrange_sorted _) (fun random => by cases random)
    bytesNeeded
  refine ⟨ordered, perm, picked, sorted.imp_of_mem ?_⟩
  rintro first second firstListed secondListed ranked ⟨rfl, rfl⟩
  obtain ⟨entry, found, rfl⟩ := mem_sample (mem_offered.mp (perm.subset firstListed)).1
  obtain ⟨entry', found', rfl⟩ := mem_sample (mem_offered.mp (perm.subset secondListed)).1
  obtain rfl := Option.some.inj (foundMore.symm.trans found)
  obtain rfl := Option.some.inj (foundLess.symm.trans found')
  exact absurd (Int.ofNat_le.mp ranked) (Nat.not_le.mpr fewer)

end Store

/-- While a key exists, its count never falls just if no call touches it at its largest
count, as when no call about the key finds it there; and of two keys that have existed
since they were created, of which neither is touched at that count, LFU never takes the
one that was touched more often first. -/
theorem EngineCall.counts_follow_touches [FloatText] {σ : Type} (start : Engine × σ)
    (calls : List (EngineCall σ)) :
    (∀ key touches, Persists key start calls touches →
      (NeverFalls key start calls ↔ Unsaturated key start calls) ∧
        (Roomy key start calls → Unsaturated key start calls)) ∧
    ∀ often rarely more less, TouchedSince start calls often more →
      TouchedSince start calls rarely less → Unsaturated often start calls →
      Unsaturated rarely start calls → less < more →
      (run step start calls).1.store.NeverBefore often rarely := by
  refine ⟨fun key touches persists =>
    ⟨persists.neverFalls_iff, persists.unsaturated_of_roomy⟩, ?_⟩
  intro often rarely more less oftenSince rarelySince oftenUnsaturated rarelyUnsaturated fewer
  obtain ⟨first, found, count⟩ := oftenSince.count oftenUnsaturated
  obtain ⟨second, found', count'⟩ := rarelySince.count rarelyUnsaturated
  exact Store.neverBefore_of_lt found found' (by omega)

/-! ### A key that is read again and again -/

section Examples

open EngineCall

attribute [local instance] FloatText.rejecting

namespace EngineCall

/-- A client command at one moment. -/
def calling (verb : Verb) (args : List Bytes) : EngineCall Unit :=
  .execute none (.still 7) (fun _ => .canonical) (.make verb args)

variable {state : Engine × Unit} {key : Bytes} {entry : Entry}

theorem step_get (found : state.1.store.find key = some entry)
    (lasting : entry.expiresAtNs = 0) :
    (step state (calling .get [key])).1.store = state.1.store.assign (entry.touchRead 7) := by
  have live : entry.isExpired 7 = false := by simp [Entry.isExpired, lasting]
  have checked : state.1.store.expire 7 key = state.1.store :=
    Store.expire_of_unexpired fun other same => Option.some.inj (found.symm.trans same) ▸ live
  change (Executor.cmdGet (fun _ => 7) [key] state.1.store).2 = _
  simp only [Executor.cmdGet, Store.get, checked, found, if_true]
  split <;> rfl

/-- Reads of a key count it up modulo `2 ^ 32` and leave other keys alone. -/
theorem run_gets {other : Bytes} {still : Entry} (distinct : key ≠ other) (reads : Nat)
    (found : state.1.store.find key = some entry) (lasting : entry.expiresAtNs = 0)
    (small : entry.accessCount < 2 ^ 32) (foundOther : state.1.store.find other = some still)
    (lastingOther : still.expiresAtNs = 0) :
    let calls := List.replicate reads (calling .get [key])
    Persists key state calls reads ∧ Persists other state calls 0 ∧
      (run step state calls).1.store.find other = some still ∧
      ∃ last, (run step state calls).1.store.find key = some last ∧
        last.accessCount = (entry.accessCount + reads) % 2 ^ 32 := by
  induction reads generalizing state entry with
  | zero =>
      exact ⟨.here found, .here foundOther, foundOther, entry, found,
        (Nat.mod_eq_of_lt small).symm⟩
  | succ reads induction =>
      have live : ∀ {old : Entry}, old.expiresAtNs = 0 → ∀ moment,
          (calling .get [key]).Reads moment → old.isExpired moment = false :=
        fun lasting _ _ => by simp [Entry.isExpired, lasting]
      have there : (step state (calling .get [key])).1.store.find key =
          some (entry.touchRead 7) := by
        rw [step_get found lasting, Store.find_assign]
        exact if_pos (Store.key_of_find found)
      have kept : (step state (calling .get [key])).1.store.find other = some still := by
        rw [step_get found lasting, Store.find_assign, ← foundOther]
        exact if_neg fun same => distinct ((Store.key_of_find found).symm.trans same)
      obtain ⟨persists, persistsOther, finishOther, last, finish, count⟩ :=
        induction there lasting (Nat.mod_lt _ (by decide)) kept
      have touched : (entry.touchRead 7).accessCount = (entry.accessCount + 1) % 2 ^ 32 := rfl
      have different : entry.touchRead 7 ≠ entry := by
        intro same
        rw [same] at touched
        omega
      refine ⟨?_, ?_, finishOther, last, finish, ?_⟩
      · have whole := Persists.call found (live lasting) rfl persists
        rwa [if_neg (there ▸ fun same => different (Option.some.inj same))] at whole
      · have whole := Persists.call foundOther (live lastingOther) rfl persistsOther
        rwa [if_pos kept] at whole
      · rw [count, touched]
        omega

def lfuStart : Engine × Unit :=
  (Engine.new { stripeCount := 1, memoryLimitBytes := 0, evictionPolicy := "lfu" }, ())

/-- The keys `c` and `h` are set, and then `h` is read. -/
def hotRun (reads : Nat) : List (EngineCall Unit) :=
  calling .set [[99], [1]] :: calling .set [[104], [1]] ::
    List.replicate reads (calling .get [[104]])

theorem hotRun_spec (reads : Nat) :
    TouchedSince lfuStart (hotRun reads) [104] reads ∧
      TouchedSince lfuStart (hotRun reads) [99] 0 ∧
      ∃ hot cold, (run step lfuStart (hotRun reads)).1.store.find [104] = some hot ∧
        hot.accessCount = (1 + reads) % 2 ^ 32 ∧
        (run step lfuStart (hotRun reads)).1.store.find [99] = some cold ∧
        cold.accessCount = 1 := by
  obtain ⟨cold, foundCold, lastingCold, countCold⟩ : ∃ cold,
      (step (step lfuStart (calling .set [[99], [1]])) (calling .set [[104], [1]])).1.store.find
        [99] = some cold ∧ cold.expiresAtNs = 0 ∧ cold.accessCount = 1 := ⟨_, rfl, rfl, rfl⟩
  obtain ⟨hot, foundHot, lastingHot, countHot⟩ : ∃ hot,
      (step (step lfuStart (calling .set [[99], [1]])) (calling .set [[104], [1]])).1.store.find
        [104] = some hot ∧ hot.expiresAtNs = 0 ∧ hot.accessCount = 1 := ⟨_, rfl, rfl, rfl⟩
  obtain ⟨persists, persistsCold, finishCold, last, finish, count⟩ := run_gets (by decide) reads
    foundHot lastingHot (countHot ▸ by decide) foundCold lastingCold
  refine ⟨⟨[calling .set [[99], [1]]], _, _, rfl, ⟨rfl, ?_, ?_⟩, persists⟩,
    ⟨[], _, _, rfl, ⟨rfl, ?_, ?_⟩, ?_⟩, last, cold, finish, countHot ▸ count, finishCold,
      countCold⟩
  · intro entry (found : none = some entry)
    cases found
  · change some _ ≠ none
    exact Option.some_ne_none _
  · intro entry (found : none = some entry)
    cases found
  · change some _ ≠ none
    exact Option.some_ne_none _
  · have before : (step lfuStart (calling .set [[99], [1]])).1.store.find [99] = some cold :=
      foundCold
    have whole := Persists.call before (fun _ _ => by simp [Entry.isExpired, lastingCold])
      rfl persistsCold
    rwa [if_pos foundCold] at whole

end EngineCall

/-- After `2 ^ 32 - 1` reads the count of `h` has fallen from one to zero, and LFU takes
`h` before `c`, which nothing has touched. -/
theorem hot_key_is_taken_first :
    TouchedSince lfuStart (hotRun (2 ^ 32 - 1)) [104] (2 ^ 32 - 1) ∧
      TouchedSince lfuStart (hotRun (2 ^ 32 - 1)) [99] 0 ∧
      (∃ hot, (run step lfuStart (hotRun 0)).1.store.find [104] = some hot ∧
        hot.accessCount = 1) ∧
      (∃ hot, (run step lfuStart (hotRun (2 ^ 32 - 1))).1.store.find [104] = some hot ∧
        hot.accessCount = 0) ∧
      (run step lfuStart (hotRun (2 ^ 32 - 1))).1.store.NeverBefore [99] [104] := by
  obtain ⟨since, sinceCold, hot, cold, found, count, foundCold, countCold⟩ :=
    hotRun_spec (2 ^ 32 - 1)
  obtain ⟨-, -, young, -, foundYoung, countYoung, -⟩ := hotRun_spec 0
  have wrapped : hot.accessCount = 0 := count.trans (by decide)
  refine ⟨since, sinceCold, ⟨young, foundYoung, countYoung⟩, ⟨hot, found, wrapped⟩, ?_⟩
  exact Store.neverBefore_of_lt foundCold found (by omega)

/-- After one read `h` is never taken before `c`. -/
theorem read_key_is_taken_last :
    (run step lfuStart (hotRun 1)).1.store.NeverBefore [104] [99] := by
  obtain ⟨since, sinceCold, -⟩ := hotRun_spec 1
  refine (EngineCall.counts_follow_touches lfuStart (hotRun 1)).2 _ _ 1 0 since sinceCold
    ?_ ?_ (by decide)
  · refine ⟨?_, ?_, ?_, trivial⟩
    · intro entry (found : none = some entry)
      cases found
    · intro entry (found : none = some entry)
      cases found
    · intro entry (found : some _ = some entry) _ _
      cases found
      exact .inr (by decide)
  · have kept : (run step lfuStart (hotRun 1)).1.store.find [99] =
        (run step lfuStart (hotRun 0)).1.store.find [99] := by decide +kernel
    refine ⟨?_, fun entry found next there => .inl ?_, fun entry found next there => .inl ?_,
      trivial⟩
    · intro entry (found : none = some entry)
      cases found
    · exact Option.some.inj (there.symm.trans found)
    · exact Option.some.inj (there.symm.trans (kept.trans found))

end Examples
end MnemoKV
