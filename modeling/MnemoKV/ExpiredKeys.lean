import MnemoKV.PlanningLaws
import MnemoKV.StoreSnapshots

/-!
# Expired keys and absent keys

Two runs of one command are compared: on a store, and on the same store after
its expired entries are gone.  An action that looks keys up at the current time
cannot tell them apart.  Removals do not look: they count an expired entry that
is still stored, so the runs differ exactly when such an entry is removed.
-/

namespace MnemoKV

/-- The items that are not expired. -/
def Dataset.living (now : Int) (dataset : Dataset) : Dataset :=
  fun key => liveAt now (dataset key)

namespace Dataset

@[simp]
theorem living_living (now : Int) (dataset : Dataset) :
    (dataset.living now).living now = dataset.living now := by
  funext key
  exact liveAt_liveAt le_rfl _

theorem living_update (now : Int) (dataset : Dataset) (key : Bytes)
    (stored : Option Item) :
    living now (Function.update dataset key stored) =
      Function.update (dataset.living now) key (liveAt now stored) := by
  funext other
  by_cases same : other = key
  · subst same
    simp [living]
  · simp [living, same]

theorem living_of_lapsed {now : Int} {before after : Dataset}
    (lapsed : Lapsed (· = now) before after) :
    after.living now = before.living now := by
  funext key
  rcases lapsed key with same | ⟨_, rfl, same⟩
  · exact congrArg (liveAt now) same
  · exact (congrArg (liveAt _) same).trans (liveAt_liveAt le_rfl _)

/-- Nothing is left to lapse among the living items. -/
theorem eq_of_lapsed_living {now : Int} {before after : Dataset}
    (lapsed : Lapsed (· = now) (before.living now) after) :
    after = before.living now := by
  funext key
  rcases lapsed key with same | ⟨_, rfl, same⟩
  · exact same
  · exact same.trans (liveAt_liveAt le_rfl _)

/-- The key holds an item exactly if it holds a living one. -/
def Fresh (now : Int) (dataset : Dataset) (key : Bytes) : Prop :=
  (dataset key).isSome = (dataset.living now key).isSome

theorem fresh_remove {now : Int} {dataset : Dataset} {key other : Bytes} :
    Fresh now (Function.update dataset key none) other ↔
      other = key ∨ dataset.Fresh now other := by
  unfold Fresh
  rw [living_update]
  by_cases same : other = key
  · subst same
    simp
  · simp [same]

theorem living_isSome {now : Int} {dataset : Dataset} {key : Bytes}
    (live : (dataset.living now key).isSome = true) :
    (dataset key).isSome = true := by
  cases stored : dataset key with
  | none => simp [living, stored] at live
  | some item => rfl

end Dataset

namespace Action

/-- The action answers alike on the dataset and on its living items, and leaves
the same living items. -/
def Blind (now : Int) (dataset : Dataset) (action : Action) : Prop :=
  (action.perform dataset).1 = (action.perform (dataset.living now)).1 ∧
    (action.perform dataset).2.living now =
      (action.perform (dataset.living now)).2.living now

variable (now : Int) (dataset : Dataset)

theorem blind_reply (frame : Frame) : (reply frame).Blind now dataset :=
  ⟨rfl, (Dataset.living_living now dataset).symm⟩

theorem blind_clear : clear.Blind now dataset :=
  ⟨rfl, rfl⟩

theorem blind_lookingAt (key : Bytes) (effect : Effect) :
    (onKey key (effect.lookingAt now)).Blind now dataset := by
  have seen : effect.lookingAt now (dataset.living now key) =
      effect.lookingAt now (dataset key) :=
    congrArg effect (liveAt_liveAt le_rfl _)
  unfold Blind
  simp only [perform, seen, Dataset.living_update, Dataset.living_living,
    and_self]

theorem probeStep_living (count : Int) (key : Bytes) :
    probeStep (count, dataset.living now) (key, now) =
      ((probeStep (count, dataset) (key, now)).1,
        (probeStep (count, dataset) (key, now)).2.living now) := by
  have seen : liveAt now (dataset.living now key) = liveAt now (dataset key) :=
    liveAt_liveAt le_rfl _
  simp only [probeStep, seen, Dataset.living_update]
  rw [liveAt_liveAt le_rfl]

theorem blind_countLive {probes : List (Bytes × Int)}
    (current : ∀ probe ∈ probes, probe.2 = now) :
    (countLive probes).Blind now dataset := by
  have loop : ∀ (probes : List (Bytes × Int)) (count : Int) (dataset : Dataset),
      (∀ probe ∈ probes, probe.2 = now) →
      probes.foldl probeStep (count, dataset.living now) =
        ((probes.foldl probeStep (count, dataset)).1,
          (probes.foldl probeStep (count, dataset)).2.living now) := by
    intro probes
    induction probes with
    | nil => exact fun _ _ _ => rfl
    | cons probe probes induction =>
        intro count dataset current
        obtain ⟨headCurrent, tailCurrent⟩ := List.forall_mem_cons.mp current
        obtain ⟨key, moment⟩ := probe
        obtain rfl : moment = now := headCurrent
        rw [List.foldl_cons, List.foldl_cons, probeStep_living]
        exact induction _ _ tailCurrent
  have outcome := loop probes 0 dataset current
  unfold Blind
  simp only [perform, outcome, Dataset.living_living, and_self]

theorem removeStep_fresh {count alive : Int}
    (ordered : alive ≤ count) (key : Bytes) :
    (removeStep (alive, dataset.living now) key).2 =
        (removeStep (count, dataset) key).2.living now ∧
      (removeStep (alive, dataset.living now) key).1 ≤
        (removeStep (count, dataset) key).1 ∧
      ((removeStep (count, dataset) key).1 =
          (removeStep (alive, dataset.living now) key).1 ↔
        count = alive ∧ dataset.Fresh now key) := by
  refine ⟨?_, ?_⟩
  · simp [removeStep, Dataset.living_update]
  · unfold removeStep Dataset.Fresh
    cases live : (dataset.living now key).isSome with
    | true =>
        have stored := Dataset.living_isSome live
        simp [stored, ordered]
    | false =>
        cases stored : (dataset key).isSome with
        | true =>
            simp only [if_true, Bool.false_eq_true, if_false]
            exact ⟨by omega, by simp; omega⟩
        | false => simp [ordered]

/-- A removal counts more on the whole dataset, by its stale keys. -/
theorem removeAll_fresh {now : Int} (keys : List Bytes) (dataset : Dataset)
    {count alive : Int} (ordered : alive ≤ count) :
    (keys.foldl removeStep (count, dataset)).1 =
        (keys.foldl removeStep (alive, dataset.living now)).1 ↔
      count = alive ∧ ∀ key ∈ keys, dataset.Fresh now key := by
  induction keys generalizing dataset count alive with
  | nil => simp
  | cons key keys induction =>
      obtain ⟨sameDataset, stillOrdered, sameCount⟩ :=
        removeStep_fresh now dataset ordered key
      have others : ∀ other, Dataset.Fresh now (removeStep (count, dataset) key).2
          other ↔ other = key ∨ dataset.Fresh now other :=
        fun other => Dataset.fresh_remove
      rw [List.foldl_cons, List.foldl_cons,
        show removeStep (alive, dataset.living now) key =
          ((removeStep (alive, dataset.living now) key).1,
            (removeStep (count, dataset) key).2.living now) from
          Prod.ext rfl sameDataset,
        show removeStep (count, dataset) key =
          ((removeStep (count, dataset) key).1,
            (removeStep (count, dataset) key).2) from rfl,
        induction _ stillOrdered, sameCount, List.forall_mem_cons, and_assoc]
      refine and_congr_right fun _ => and_congr_right fun headFresh => ?_
      refine forall₂_congr fun other _ => (others other).trans ?_
      exact ⟨fun fresh => fresh.elim (fun same => same ▸ headFresh) id, .inr⟩

theorem blind_removeAll (keys : List Bytes) :
    (removeAll keys).Blind now dataset ↔ ∀ key ∈ keys, dataset.Fresh now key := by
  have sameLiving : (keys.foldl removeStep (0, dataset)).2.living now =
      (keys.foldl removeStep (0, dataset.living now)).2.living now := by
    funext key
    simp only [Dataset.living, removeAll_apply]
    split_ifs
    · rfl
    · exact (liveAt_liveAt le_rfl _).symm
  unfold Blind
  simp only [perform, sameLiving, and_true, Frame.integer.injEq]
  exact (removeAll_fresh keys dataset le_rfl).trans (and_iff_right rfl)

theorem blind_remove (key : Bytes) :
    (onKey key Effect.remove).Blind now dataset ↔ dataset.Fresh now key := by
  have sameLiving : Dataset.living now (Function.update dataset key none) =
      Dataset.living now (Function.update (dataset.living now) key none) := by
    rw [Dataset.living_update, Dataset.living_update, Dataset.living_living]
  unfold Blind Dataset.Fresh
  simp only [perform, Effect.remove, sameLiving, and_true, Frame.integer.injEq]
  cases (dataset key).isSome <;> cases (dataset.living now key).isSome <;> simp

end Action

namespace Command

/-- The keys that a command removes without looking them up. -/
def removedKeys (cmd : Command) : List Bytes :=
  match cmd.verb, cmd.args with
  | some .del, keys => keys
  | some .expire, [key, amount] =>
      match parseInt64 amount with
      | some seconds => if seconds ≤ 0 then [key] else []
      | none => []
  | _, _ => []

end Command

namespace Action

/-- The actions that look every key up, at readings of the clock. -/
inductive Looking (now : Readings) : Action → Prop
  | reply (frame : Frame) : Looking now (.reply frame)
  | clear : Looking now .clear
  | onKey (key : Bytes) (effect : Effect) (index : Nat) :
      Looking now (.onKey key (effect.lookingAt (now index)))
  | countLive (probes : List (Bytes × Int))
      (read : ∀ probe ∈ probes, now.At probe.2) : Looking now (.countLive probes)

theorem Looking.blind {moment : Int} {action : Action}
    (looking : action.Looking fun _ => moment) (dataset : Dataset) :
    action.Blind moment dataset := by
  cases looking with
  | reply frame => exact blind_reply moment dataset frame
  | clear => exact blind_clear moment dataset
  | onKey key effect index => exact blind_lookingAt moment dataset key effect
  | countLive probes read =>
      refine blind_countLive moment dataset fun probe member => ?_
      obtain ⟨index, same⟩ := read probe member
      exact same.symm

end Action

namespace Command

variable (now : Readings) (cmd : Command)

theorem action_looking_or_removes [FloatText] :
    (cmd.action now).Looking now ∧ cmd.removedKeys = [] ∨
      cmd.action now = .removeAll cmd.removedKeys ∨
      ∃ key, cmd.action now = .onKey key Effect.remove ∧
        cmd.removedKeys = [key] := by
  have acts := cmd.acts now
  by_cases none : cmd.removedKeys = []
  · refine .inl ⟨?_, none⟩
    generalize cmd.action now = action at acts ⊢
    cases acts with
    | replies => exact .reply _
    | clears => exact .clear
    | counts => exact .countLive _ fun _ => cmd.at_of_mem_probes now
    | reads => exact .onKey _ _ 0
    | writes => exact .onKey _ _ _
    | removes named some => exact absurd none (by simpa [removedKeys, named] using some)
    | drops named given parsed past => simp [removedKeys, named, given, parsed, past] at none
  · refine .inr ?_
    unfold removedKeys at none
    split at none
    · rename_i named
      have some : ¬ cmd.args.length < 1 := by simpa using none
      exact .inl (by simp only [action, removedKeys, named, delAction, if_neg some])
    · rename_i key amount named given
      split at none
      · rename_i seconds parsed
        split_ifs at none with past
        · refine .inr ⟨key, ?_, ?_⟩
          · simp [action, named, given, expireAction, parsed, past]
          · simp [removedKeys, named, given, parsed, past]
        · exact absurd rfl none
      · exact absurd rfl none
    · exact absurd rfl none

/-- The two runs of a command agree exactly if it removes no stale key. -/
theorem action_blind_iff [FloatText] (moment : Int) (dataset : Dataset) :
    (cmd.action fun _ => moment).Blind moment dataset ↔
      ∀ key ∈ cmd.removedKeys, dataset.Fresh moment key := by
  rcases cmd.action_looking_or_removes fun _ => moment with
    ⟨looking, unremoved⟩ | removes | ⟨key, removes, removed⟩
  · rw [unremoved]
    exact iff_of_true (looking.blind dataset) (by simp)
  · rw [removes]
    exact Action.blind_removeAll moment dataset _
  · rw [removes, removed, List.forall_mem_singleton]
    exact Action.blind_remove moment dataset key

/-- The answer that the admission plan of a write gives by itself. -/
def planAnswer [FloatText] (dataset : Dataset) : Option Frame :=
  if cmd.isWriteCommand then (cmd.plan now dataset).response else none

theorem planAnswer_living [FloatText] (moment : Int) (dataset : Dataset) :
    cmd.planAnswer (fun _ => moment) (dataset.living moment) =
      cmd.planAnswer (fun _ => moment) dataset := by
  have seen : ∀ key, liveAt moment (dataset.living moment key) =
      liveAt moment (dataset key) := fun key => liveAt_liveAt le_rfl _
  unfold planAnswer plan
  simp only [seen]

theorem planAdmission_of_removedKeys [FloatText] {cmd : Command}
    (removes : cmd.removedKeys ≠ []) (store : Store) :
    store.planAdmission now cmd = (.other cmd, store) := by
  unfold removedKeys at removes
  unfold Store.planAdmission
  split at removes
  · rename_i named
    rw [named]
  · rename_i named _
    rw [named]
  · exact absurd rfl removes

theorem planAnswer_of_removedKeys [FloatText] {cmd : Command}
    (removes : cmd.removedKeys ≠ []) (store : Store) :
    cmd.planAnswer now store.dataset = none := by
  have planned := planAdmission_of_removedKeys now removes store
  unfold planAnswer
  rw [← (store.planAdmission_spec now cmd).1, planned]
  exact ite_self _

end Command

namespace Store

/-- The store after every key it holds has been looked up once. -/
def withoutExpired (store : Store) (now : Int) : Store :=
  store.allEntries.foldl (fun state entry => state.expire now entry.key) store

theorem dataset_withoutExpired (store : Store) (now : Int) :
    (store.withoutExpired now).dataset = store.dataset.living now := by
  have loop : ∀ (entries : List Entry) (state : Store) (key : Bytes),
      (entries.foldl (fun state entry => state.expire now entry.key)
          state).dataset key =
        if key ∈ entries.map Entry.key then liveAt now (state.dataset key)
        else state.dataset key := by
    intro entries
    induction entries with
    | nil => simp
    | cons entry entries induction =>
        intro state key
        rw [List.foldl_cons, induction, dataset_expire]
        by_cases same : key = entry.key
        · subst same
          simp [liveAt_liveAt]
        · simp [same]
  funext key
  refine (loop store.allEntries store key).trans ?_
  split_ifs with listed
  · rfl
  · have missing : store.find key = none := by
      rw [Option.eq_none_iff_forall_ne_some]
      intro entry found
      have own := key_of_find found
      exact listed (List.mem_map.mpr
        ⟨entry, mem_allEntries.mpr (own.symm ▸ found), own⟩)
    simp [dataset, Dataset.living, missing]

theorem fresh_iff (store : Store) (now : Int) (key : Bytes) :
    store.dataset.Fresh now key ↔
      ∀ entry, store.find key = some entry → entry.isExpired now = false := by
  unfold Dataset.Fresh Dataset.living dataset
  cases found : store.find key with
  | none => simp
  | some entry =>
      have sameExpiry : entry.item.isExpired now = entry.isExpired now := rfl
      rw [Option.map_some, liveAt_some, sameExpiry]
      cases expired : entry.isExpired now <;> simp [expired]

end Store

namespace Engine

/-- The outcome of a call at the level of datasets. -/
def observed {σ : Type} (outcome : Frame × Engine × σ) : Frame × Dataset :=
  (outcome.1, outcome.2.1.store.dataset)

variable [FloatText] (engine : Engine) (moment : Int) (choices : Nat → Choices)
  (cmd : Command)

theorem executeWithAdmission_unlimited (unlimited : engine.limitBytes = 0) :
    observed (executeWithAdmission none (.still moment) choices cmd engine ()) =
      match (cmd.plan (fun _ => moment) engine.store.dataset).response with
      | some frame => (frame,
          (engine.store.planAdmission (fun _ => moment) cmd).2.dataset)
      | none => (cmd.action fun _ => moment).perform
          (engine.store.planAdmission (fun _ => moment) cmd).2.dataset := by
  have samePlan := (engine.store.planAdmission_spec (fun _ => moment) cmd).1
  have executed := Executor.observe_execute (fun _ => moment) cmd
    (engine.store.planAdmission (fun _ => moment) cmd).2
  unfold executeWithAdmission
  simp only [WriteClock.still, samePlan]
  cases answer : (cmd.plan (fun _ => moment) engine.store.dataset).response with
  | some frame => rfl
  | none =>
      have roomy : ∀ store : Store, (engine.withStore store).hasLimit = false := by
        simp [hasLimit, withStore, unlimited]
      simp only [ensureRoom, roomy, Bool.and_false, Bool.false_and,
        Bool.false_eq_true, if_false, commit, WriteHook.before]
      exact executed

/-- Without limit and hook, a command is answered by its plan or performed on
the dataset that planning leaves. -/
theorem execute_unlimited (unlimited : engine.limitBytes = 0) :
    ∃ planned, Lapsed (· = moment) engine.store.dataset planned ∧
      (cmd.removedKeys ≠ [] → planned = engine.store.dataset) ∧
      observed (execute none (.still moment) choices cmd engine ()) =
        match cmd.planAnswer (fun _ => moment) engine.store.dataset with
        | some frame => (frame, planned)
        | none => (cmd.action fun _ => moment).perform planned := by
  unfold execute Command.planAnswer
  by_cases writes : cmd.isWriteCommand = true
  · have lapsed := (engine.store.planAdmission_spec (fun _ => moment) cmd).2
    refine ⟨_, lapsed.at_const, ?_, ?_⟩
    · intro removes
      rw [Command.planAdmission_of_removedKeys _ removes]
    · simp only [writes, if_true]
      exact engine.executeWithAdmission_unlimited moment choices cmd unlimited
  · refine ⟨_, Lapsed.refl _ _, fun _ => rfl, ?_⟩
    simp only [writes, Bool.false_eq_true, if_false]
    exact Executor.observe_execute (fun _ => moment) cmd engine.store

end Engine

/-- Executing a command at a fixed time on a store, and on the store without
its expired entries, gives the same frame and leaves the same unexpired items
exactly if no key that the command removes holds an expired entry. -/
theorem expired_is_absent_iff [FloatText] (engine : Engine)
    (unlimited : engine.limitBytes = 0) (moment : Int)
    (choices others : Nat → Choices) (cmd : Command) :
    (let whole := Engine.execute none (.still moment) choices cmd engine ()
      let cleaned := Engine.execute none (.still moment) others cmd
        (engine.withStore (engine.store.withoutExpired moment)) ()
      whole.1 = cleaned.1 ∧
        ∀ key, liveAt moment (whole.2.1.store.dataset key) =
          liveAt moment (cleaned.2.1.store.dataset key)) ↔
      ∀ key ∈ cmd.removedKeys, ∀ entry, engine.store.find key = some entry →
        entry.isExpired moment = false := by
  obtain ⟨planned, lapsed, untouched, whole⟩ :=
    engine.execute_unlimited moment choices cmd unlimited
  obtain ⟨planned', lapsed', -, cleaned⟩ :=
    (engine.withStore (engine.store.withoutExpired moment)).execute_unlimited
      moment others cmd unlimited
  have sameDataset : (engine.withStore
      (engine.store.withoutExpired moment)).store.dataset =
        engine.store.dataset.living moment :=
    engine.store.dataset_withoutExpired moment
  rw [sameDataset] at lapsed' cleaned
  rw [Command.planAnswer_living] at cleaned
  obtain rfl := Dataset.eq_of_lapsed_living lapsed'
  have sameLiving := Dataset.living_of_lapsed lapsed
  have stale : (∀ key ∈ cmd.removedKeys, ∀ entry,
      engine.store.find key = some entry → entry.isExpired moment = false) ↔
      ∀ key ∈ cmd.removedKeys, planned.Fresh moment key := by
    refine forall₂_congr fun key removed => ?_
    rw [untouched (List.ne_nil_of_mem removed)]
    exact (engine.store.fresh_iff moment key).symm
  dsimp only
  rw [stale, ← funext_iff]
  change (Engine.observed _).1 = (Engine.observed _).1 ∧
    (Engine.observed _).2.living moment =
      (Engine.observed _).2.living moment ↔ _
  rw [whole, cleaned]
  cases answer : cmd.planAnswer (fun _ => moment) engine.store.dataset with
  | some frame =>
      have unremoved : cmd.removedKeys = [] := by
        by_contra removes
        rw [Command.planAnswer_of_removedKeys _ removes] at answer
        cases answer
      rw [unremoved]
      refine iff_of_true ⟨rfl, ?_⟩ (by simp)
      rw [Dataset.living_living]
      exact sameLiving
  | none =>
      have blind := cmd.action_blind_iff moment planned
      rw [Action.Blind, sameLiving] at blind
      exact blind

section Examples

attribute [local instance] FloatText.rejecting

/-- One key, set at time zero for one millisecond. -/
def fleetingStore : Store :=
  (Executor.execute (fun _ => 0)
    (.make .set [[107], [118], Bytes.ascii "PX", Bytes.ascii "1"])
    (.new 1)).2

/-- A `DEL` after the expiry counts the key that a lookup would not find. -/
theorem delete_counts_expired_key :
    let engine : Engine :=
      { store := fleetingStore, limitBytes := 0, policy := .noEviction }
    let cleaned := engine.withStore (engine.store.withoutExpired 1000000)
    (Engine.execute none (.still 1000000) (fun _ => .canonical)
      (.make .del [[107]]) engine ()).1 = .integer 1 ∧
    (Engine.execute none (.still 1000000) (fun _ => .canonical)
      (.make .del [[107]]) cleaned ()).1 = .integer 0 :=
  ⟨rfl, rfl⟩

/-- A `SET` that finds the key expired cannot tell. -/
theorem set_ignores_expired_key :
    let engine : Engine :=
      { store := fleetingStore, limitBytes := 0, policy := .noEviction }
    let cleaned := engine.withStore (engine.store.withoutExpired 1000000)
    (Engine.execute none (.still 1000000) (fun _ => .canonical)
      (.make .set [[107], [119]]) engine ()).1 =
    (Engine.execute none (.still 1000000) (fun _ => .canonical)
      (.make .set [[107], [119]]) cleaned ()).1 :=
  ((expired_is_absent_iff
    { store := fleetingStore, limitBytes := 0, policy := .noEviction } rfl
    1000000 (fun _ => .canonical) (fun _ => .canonical)
    (.make .set [[107], [119]])).mpr (by decide)).1

end Examples
end MnemoKV
