import MnemoKV.PlanningLaws
import MnemoKV.StoreAccounting

/-!
# Operations as chains of elementary changes

Every operation of the store looks its key up and then writes its entry at most
once.  Which operations a command makes depends on its arguments and on the
clock alone.  Hence every command and the planning of every write change the
store by a chain of elementary changes, whatever the clock shows.
-/

namespace MnemoKV
namespace Store

def Changes : Store → Store → Prop :=
  Relation.ReflTransGen Change

namespace Changes

theorem refl (store : Store) : Changes store store :=
  Relation.ReflTransGen.refl

theorem trans {first second third : Store} (earlier : Changes first second)
    (later : Changes second third) : Changes first third :=
  Relation.ReflTransGen.trans earlier later

theorem single {before after : Store} (change : Change before after) :
    Changes before after :=
  Relation.ReflTransGen.single change

theorem accounted {before after : Store} (changes : Changes before after)
    (start : before.Accounted) : after.Accounted := by
  induction changes with
  | refl => exact start
  | tail _ step kept =>
      exact step.accounted kept

theorem metered {before after : Store} (changes : Changes before after)
    (accounted : before.Accounted) (start : before.Metered) : after.Metered := by
  induction changes with
  | refl => exact start
  | tail earlier step kept => exact step.metered (Changes.accounted earlier accounted) kept

end Changes

theorem expire_changes (store : Store) (now : Int) (key : Bytes) :
    Changes store (store.expire now key) := by
  unfold expire
  split
  · rename_i entry found
    split_ifs
    · exact .single (.drop found)
    · exact .refl store
  · exact .refl store

theorem expire_of_unexpired {store : Store} {now : Int} {key : Bytes}
    (unexpired : ∀ entry, store.find key = some entry → entry.isExpired now = false) :
    store.expire now key = store := by
  unfold expire
  split
  · rename_i entry found
    rw [unexpired entry found]
    rfl
  · rfl

theorem unexpired_of_find_expire {store : Store} {now : Int} {key : Bytes} {entry : Entry}
    (found : (store.expire now key).find key = some entry) : entry.isExpired now = false := by
  unfold expire at found
  split at found
  · split_ifs at found with expired
    · simp [find_unassign] at found
    · simp_all
  · simp_all

theorem find_deleteWithSize (store : Store) (key other : Bytes) :
    (store.deleteWithSize key).2.find other =
      if key = other then none else store.find other := by
  unfold deleteWithSize
  split
  · rename_i missing
    split_ifs with same
    · rw [← same]
      exact missing
    · rfl
  · exact store.find_unassign key other

theorem deleteWithSize_changes (store : Store) (key : Bytes) :
    Changes store (store.deleteWithSize key).2 := by
  unfold deleteWithSize
  split
  · exact .refl store
  · rename_i entry found
    exact .single (.drop found)

/-! ### Operations -/

/-- At most one write of the entry of a key.  A new entry has been accessed once,
a present one is accessed once more. -/
inductive Write (store : Store) (key : Bytes) : Store → Prop
  | nothing : Write store key store
  | drop {entry : Entry} (found : store.find key = some entry) :
      Write store key ((store.unassign key).subUsed entry.sizeBytes)
  | insert (entry : Entry) (own : entry.key = key) (missing : store.find key = none)
      (counted : entry.accessCount = 1) :
      Write store key ((store.addUsed entry.sizeBytes).assign entry)
  | replace {old : Entry} (entry : Entry) (own : entry.key = key)
      (found : store.find key = some old)
      (counted : entry.accessCount = (old.accessCount + 1) % 2 ^ 32) :
      Write store key ((store.adjustUsed old.sizeBytes entry.sizeBytes).assign entry)
  | touch {old : Entry} (entry : Entry) (own : entry.key = key)
      (found : store.find key = some old) (sameSize : entry.sizeBytes = old.sizeBytes)
      (counted : entry.accessCount = (old.accessCount + 1) % 2 ^ 32) :
      Write store key (store.assign entry)

theorem Write.changes {store after : Store} {key : Bytes} (write : Write store key after) :
    Changes store after := by
  cases write with
  | nothing => exact .refl store
  | drop found => exact .single (.drop found)
  | insert entry own missing => exact .single (.insert entry (own ▸ missing))
  | replace entry own found => exact .single (.replace entry (own ▸ found))
  | touch entry own found sameSize =>
      exact .single (.touch _ entry (own ▸ found) sameSize)

/-- The operations on one key that look it up first. -/
inductive Operation
  | get (touch : Bool)
  | setString (data : Bytes) (expiresAtNs : Int) (condition : SetCondition)
  | incrementBy (delta : Int)
  | setExpireAt (expiresAtNs : Int)
  | listPush (values : List Bytes) (left : Bool)
  | listPop (left : Bool)
  | zsetAdd (pairs : List (Number × Bytes))

def Operation.apply (now : Int) (key : Bytes) (store : Store) : Operation → Store
  | get touch => (store.get now key touch).2
  | setString data expiresAtNs condition =>
      (store.setString now key data expiresAtNs condition).2
  | incrementBy delta => (store.incrementBy now key delta).2
  | setExpireAt expiresAtNs => (store.setExpireAt now key expiresAtNs).2
  | listPush values left => (store.listPush now key values left).2
  | listPop left => (store.listPop now key left).2
  | zsetAdd pairs => (store.zsetAdd now key pairs).2

theorem rewrite_writes {store : Store} {key : Bytes} {entry : Entry}
    (found : store.find key = some entry) (value : Value) (now : Int) :
    Write store key (store.rewrite entry value now) := by
  have own : entry.key = key := key_of_find found
  exact .replace ({ entry with
    value := value, sizeBytes := value.size entry.key, sized := rfl }.touchWrite now)
    own found rfl

theorem insertNew_writes {store : Store} {key : Bytes}
    (missing : store.find key = none) (value : Value) (now : Int) :
    Write store key (store.insertNew key value now) :=
  .insert (Entry.create key value 0 now) rfl missing rfl

/-- After the lookup, an operation writes at most once. -/
theorem Operation.writes (operation : Operation) (now : Int) (key : Bytes)
    (store : Store) :
    Write (store.expire now key) key (operation.apply now key store) := by
  cases operation with
  | get touch =>
      dsimp only [apply, Store.get]
      split
      · exact .nothing
      · rename_i entry found
        split_ifs
        · exact .touch (entry.touchRead now)
            (show entry.key = key from key_of_find found) found rfl rfl
        · exact .nothing
  | setString data expiresAtNs condition =>
      dsimp only [apply, Store.setString]
      split
      · rename_i existing found
        split_ifs
        · exact .nothing
        · exact .replace
            { Entry.create key (.string data) expiresAtNs now with
              createdAtNs := existing.createdAtNs
              accessCount := (existing.accessCount + 1) % 2 ^ 32
              version := wrap64 (existing.version + 1) } rfl found rfl
      · rename_i missing
        split_ifs
        · exact .nothing
        · exact .insert (Entry.create key (.string data) expiresAtNs now) rfl missing rfl
  | incrementBy delta =>
      dsimp only [apply, Store.incrementBy]
      split
      · rename_i entry found
        split
        · split
          · exact .nothing
          · split_ifs
            · exact .nothing
            · exact rewrite_writes found _ now
        · exact .nothing
      · rename_i missing
        split_ifs
        · exact .nothing
        · exact insertNew_writes missing _ now
  | setExpireAt expiresAtNs =>
      dsimp only [apply, Store.setExpireAt]
      split
      · exact .nothing
      · rename_i entry found
        exact .touch ({ entry with expiresAtNs := expiresAtNs }.touchWrite now)
          (show entry.key = key from key_of_find found) found rfl rfl
  | listPush values left =>
      dsimp only [apply, Store.listPush]
      split
      · rename_i entry found
        split
        · exact rewrite_writes found _ now
        · exact .nothing
      · rename_i missing
        exact insertNew_writes missing _ now
  | listPop left =>
      dsimp only [apply, Store.listPop]
      split
      · exact .nothing
      · rename_i entry found
        split
        · split
          · exact .nothing
          · split_ifs
            · exact .drop found
            · exact rewrite_writes found _ now
        · exact .nothing
  | zsetAdd pairs =>
      dsimp only [apply, Store.zsetAdd]
      split
      · rename_i entry found
        split
        · exact rewrite_writes found _ now
        · exact .nothing
      · rename_i missing
        exact insertNew_writes missing _ now

theorem get_unread (store : Store) (now : Int) (key : Bytes) :
    (store.get now key false).2 = store.expire now key := by
  unfold get
  dsimp only
  split <;> rfl

/-! ### Commands -/

/-- Looks the keys up, each at its own reading. -/
def expireAll (store : Store) (lookups : List (Bytes × Int)) : Store :=
  lookups.foldl (fun store lookup => store.expire lookup.2 lookup.1) store

def deleteEach (store : Store) (keys : List Bytes) : Store :=
  keys.foldl (fun store key => (store.deleteWithSize key).2) store

/-- How a command changes any store: it only looks keys up, makes one operation
on its first key, deletes keys or removes everything. -/
inductive Performs (now : Readings) (keys : List Bytes)
    (outcome : Store → Frame × Store) : Prop
  | lookups (lookups : List (Bytes × Int))
      (same : ∀ store, (outcome store).2 = store.expireAll lookups)
  | operation (index : Nat) (operation : Operation)
      (same : ∀ store, (outcome store).2 =
        operation.apply (now index) (keys.headD []) store)
  | deletions (removed : List Bytes)
      (same : ∀ store, (outcome store).2 = store.deleteEach removed)
  | flush (same : ∀ store, (outcome store).2 = store.flush)

namespace Performs

variable {now : Readings} {keys : List Bytes} {outcome : Store → Frame × Store}

theorem nothing (same : ∀ store, (outcome store).2 = store) :
    Performs now keys outcome :=
  .lookups [] same

theorem changes (performs : Performs now keys outcome) (store : Store) :
    Changes store (outcome store).2 := by
  cases performs with
  | lookups lookups same =>
      rw [same]
      refine List.foldlRecOn lookups _ (.refl store) ?_
      exact fun _ earlier _ _ => earlier.trans (expire_changes _ _ _)
  | operation index operation same =>
      rw [same]
      exact (store.expire_changes _ _).trans (operation.writes _ _ store).changes
  | deletions removed same =>
      rw [same]
      refine List.foldlRecOn removed _ (.refl store) ?_
      exact fun _ earlier _ _ => earlier.trans (deleteWithSize_changes _ _)
  | flush same =>
      rw [same]
      exact .single .flush

theorem take_one (performs : Performs now keys outcome) :
    Performs now (keys.take 1) outcome := by
  cases keys with
  | nil => exact performs
  | cons key keys =>
      cases performs with
      | lookups lookups same => exact .lookups lookups same
      | operation index operation same => exact .operation index operation same
      | deletions removed same => exact .deletions removed same
      | flush same => exact .flush same

end Performs

end Store

namespace Executor

open Store

variable (now : Readings) (args : List Bytes)

theorem performs_cmdDel : Performs now args (cmdDel args) := by
  have loop : ∀ (keys : List Bytes) (state : Int × Store),
      (keys.foldl delStep state).2 = state.2.deleteEach keys := by
    intro keys
    induction keys with
    | nil => exact fun _ => rfl
    | cons key keys induction => exact fun state => induction _
  by_cases missing : args.length < 1
  · exact .nothing fun store => by rw [cmdDel_eq, if_pos missing]
  · refine .deletions args fun store => ?_
    rw [cmdDel_eq, if_neg missing]
    exact loop args (0, store)

theorem performs_cmdExists : Performs now args (cmdExists now args) := by
  have loop : ∀ (keys : List (Bytes × Nat)) (state : Int × Store),
      (keys.foldl (existsStep now) state).2 =
        state.2.expireAll (keys.map fun indexed => (indexed.1, now indexed.2)) := by
    intro keys
    induction keys with
    | nil => exact fun _ => rfl
    | cons indexed keys induction =>
        intro state
        rw [List.foldl_cons, induction, existsStep, get_unread]
        rfl
  by_cases missing : args.length < 1
  · exact .nothing fun store => by rw [cmdExists_eq, if_pos missing]
  · refine .lookups (args.zipIdx.map fun indexed => (indexed.1, now indexed.2))
      fun store => ?_
    rw [cmdExists_eq, if_neg missing]
    exact loop args.zipIdx (0, store)

theorem performs_cmdExpire : Performs now args (cmdExpire now args) := by
  rcases args with _ | ⟨key, _ | ⟨amount, _ | ⟨extra, rest⟩⟩⟩
  · exact .nothing fun _ => rfl
  · exact .nothing fun _ => rfl
  · unfold cmdExpire
    dsimp only
    cases parseInt64 amount with
    | none => exact .nothing fun _ => rfl
    | some seconds =>
        dsimp only
        split_ifs
        · exact .deletions [key] fun _ => rfl
        · cases expirationFromNow seconds 1000000000 (now 0) with
          | none => exact .nothing fun _ => rfl
          | some deadline => exact .operation 1 (.setExpireAt deadline) fun _ => rfl
  · exact .nothing fun _ => rfl

theorem performs_cmdSet : Performs now args (cmdSet now args) := by
  rcases args with _ | ⟨key, _ | ⟨data, rest⟩⟩
  · exact .nothing fun _ => rfl
  · exact .nothing fun _ => rfl
  · unfold cmdSet
    dsimp only
    cases parseSetOptions (now 0) rest with
    | error frame => exact .nothing fun _ => rfl
    | ok options => exact .operation 1 (.setString data _ _) fun _ => rfl

/-- A command with a key as its only argument. -/
theorem performs_single {handler : List Bytes → Store → Frame × Store}
    (operation : Operation) (none : ∀ store, (handler [] store).2 = store)
    (many : ∀ key extra rest store, (handler (key :: extra :: rest) store).2 = store)
    (one : ∀ key store, (handler [key] store).2 = operation.apply (now 0) key store) :
    Performs now args (handler args) := by
  rcases args with _ | ⟨key, _ | ⟨extra, rest⟩⟩
  · exact .nothing none
  · exact .operation 0 operation (one key)
  · exact .nothing (many key extra rest)

theorem performs_cmdIncr : Performs now args (cmdIncr now args) := by
  refine performs_single now args (.incrementBy 1) (fun _ => rfl)
    (fun _ _ _ _ => rfl) fun key store => ?_
  dsimp only [cmdIncr]
  split <;> rfl

theorem performs_cmdPop (left : Bool) :
    Performs now args (cmdPop left now args) := by
  refine performs_single now args (.listPop left) (fun _ => rfl)
    (fun _ _ _ _ => rfl) fun key store => ?_
  dsimp only [cmdPop]
  split <;> rfl

theorem performs_cmdTTL : Performs now args (cmdTTL now args) := by
  refine performs_single now args (.get false) (fun _ => rfl)
    (fun _ _ _ _ => rfl) fun key store => ?_
  dsimp only [cmdTTL]
  split
  · rfl
  · split_ifs <;> rfl

theorem performs_cmdGet : Performs now args (cmdGet now args) := by
  refine performs_single now args (.get true) (fun _ => rfl)
    (fun _ _ _ _ => rfl) fun key store => ?_
  dsimp only [cmdGet]
  split
  · rfl
  · split <;> rfl

theorem performs_cmdLLen : Performs now args (cmdLLen now args) := by
  refine performs_single now args (.get false) (fun _ => rfl)
    (fun _ _ _ _ => rfl) fun key store => ?_
  dsimp only [cmdLLen]
  split
  · rfl
  · split <;> rfl

theorem performs_cmdZCard : Performs now args (cmdZCard now args) := by
  refine performs_single now args (.get false) (fun _ => rfl)
    (fun _ _ _ _ => rfl) fun key store => ?_
  dsimp only [cmdZCard]
  split
  · rfl
  · split <;> rfl

theorem performs_cmdPush (left : Bool) :
    Performs now args (cmdPush left now args) := by
  rcases args with _ | ⟨key, _ | ⟨first, rest⟩⟩
  · exact .nothing fun _ => rfl
  · exact .nothing fun _ => rfl
  · refine .operation 0 (.listPush (first :: rest) left) fun store => ?_
    dsimp only [cmdPush]
    split <;> rfl

theorem performs_cmdFlush (name : String) (keys : List Bytes) :
    Performs now keys (cmdFlush name args) := by
  by_cases extra : args.length ≠ 0
  · exact .nothing fun store => by rw [cmdFlush, if_pos extra]
  · exact .flush fun store => by rw [cmdFlush, if_neg extra]

variable [FloatText]

theorem performs_cmdZAdd : Performs now args (cmdZAdd now args) := by
  rcases args with _ | ⟨key, pairs⟩
  · exact .nothing fun _ => rfl
  · unfold cmdZAdd
    dsimp only
    split_ifs
    · exact .nothing fun _ => rfl
    · cases parseZAddPairs pairs with
      | error frame => exact .nothing fun _ => rfl
      | ok parsed =>
          refine .operation 0 (.zsetAdd parsed) fun store => ?_
          dsimp only
          split <;> rfl

theorem performs_cmdZScore : Performs now args (cmdZScore now args) := by
  rcases args with _ | ⟨key, _ | ⟨member, _ | ⟨extra, rest⟩⟩⟩
  · exact .nothing fun _ => rfl
  · exact .nothing fun _ => rfl
  · refine .operation 0 (.get true) fun store => ?_
    dsimp only [cmdZScore]
    split
    · rfl
    · split
      · split <;> rfl
      · rfl
  · exact .nothing fun _ => rfl

theorem performs_cmdZRange : Performs now args (cmdZRange now args) := by
  rcases args with _ | ⟨key, _ | ⟨first, _ | ⟨last, options⟩⟩⟩
  · exact .nothing fun _ => rfl
  · exact .nothing fun _ => rfl
  · exact .nothing fun _ => rfl
  · unfold cmdZRange
    dsimp only
    split_ifs
    · exact .nothing fun _ => rfl
    · refine .nothing fun store => ?_
      split <;> rfl
    · cases parseInt64 first with
      | none => exact .nothing fun _ => rfl
      | some start =>
          cases parseInt64 last with
          | none => exact .nothing fun _ => rfl
          | some stop =>
              refine .operation 0 (.get true) fun store => ?_
              dsimp only
              split
              · rfl
              · split <;> rfl

theorem performs_execute (cmd : Command) :
    Performs now cmd.extractKeys (execute now cmd) := by
  unfold execute Command.extractKeys
  cases cmd.verb with
  | none => exact .nothing fun _ => rfl
  | some verb =>
      cases verb with
      | ping => exact .nothing fun _ => by dsimp only [cmdPing]; split <;> rfl
      | echo => exact .nothing fun _ => by dsimp only [cmdEcho]; split <;> rfl
      | quit => exact .nothing fun _ => by dsimp only; split_ifs <;> rfl
      | flushdb | flushall => exact performs_cmdFlush now _ _ _
      | del => exact performs_cmdDel now _
      | existsKeys => exact performs_cmdExists now _
      | expire => exact (performs_cmdExpire now _).take_one
      | ttl => exact (performs_cmdTTL now _).take_one
      | set => exact (performs_cmdSet now _).take_one
      | get => exact (performs_cmdGet now _).take_one
      | incr => exact (performs_cmdIncr now _).take_one
      | lpush | rpush => exact (performs_cmdPush now _ _).take_one
      | lpop | rpop => exact (performs_cmdPop now _ _).take_one
      | llen => exact (performs_cmdLLen now _).take_one
      | zadd => exact (performs_cmdZAdd now _).take_one
      | zrange => exact (performs_cmdZRange now _).take_one
      | zcard => exact (performs_cmdZCard now _).take_one
      | zscore => exact (performs_cmdZScore now _).take_one
      | command | client | hello => exact .nothing fun _ => rfl
      | replicate | clusterMeta | clusterApply | clusterSnapshot =>
          exact .nothing fun _ => rfl

theorem execute_changes (cmd : Command) (store : Store) :
    Changes store (execute now cmd store).2 :=
  (performs_execute now cmd).changes store

end Executor

namespace Store

/-- Planning at most looks the first key up. -/
theorem planAdmission_lookup [FloatText] (now : Readings) (cmd : Command) :
    (∀ store : Store, (store.planAdmission now cmd).2 = store) ∨
      ∃ index, ∀ store : Store,
        (store.planAdmission now cmd).2 = store.expire (now index) cmd.extractPrimaryKey := by
  rcases cmd.planned now with ⟨-, plans⟩ | ⟨-, plans⟩ | @⟨key, request, asks⟩
  · exact .inl fun store => by rw [plans]
  · exact .inl fun store => by rw [plans]
  · obtain ⟨keys, plans, -⟩ := asks.spec
    refine .inr ⟨request.index, fun store => ?_⟩
    rw [plans, Command.extractPrimaryKey, keys]
    exact store.get_unread _ _

theorem planAdmission_changes [FloatText] (store : Store) (now : Readings)
    (cmd : Command) : Changes store (store.planAdmission now cmd).2 := by
  rcases planAdmission_lookup now cmd with same | ⟨index, same⟩
  · rw [same]
    exact .refl store
  · rw [same]
    exact store.expire_changes _ _

end Store

end MnemoKV
