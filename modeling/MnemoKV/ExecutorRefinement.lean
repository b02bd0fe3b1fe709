import MnemoKV.Datasets

/-!
# The executor implements the actions

The dataset of a store forgets stripes, access metadata and the byte counter.
Every handler answers and transforms the dataset exactly as the action of its
command does, whatever the store and the clock.
-/

namespace MnemoKV
namespace Store

def dataset (store : Store) : Dataset :=
  fun key => (store.find key).map Entry.item

/-- The outcome of a command as seen at the level of datasets. -/
def observe (outcome : Frame × Store) : Frame × Dataset :=
  (outcome.1, outcome.2.dataset)

theorem dataset_new (stripeCount : Int) :
    (Store.new stripeCount).dataset = fun _ => none := by
  funext key
  simp [dataset, new, find]

@[simp]
theorem dataset_addUsed (store : Store) (bytes : Nat) :
    (store.addUsed bytes).dataset = store.dataset :=
  rfl

@[simp]
theorem dataset_subUsed (store : Store) (bytes : Nat) :
    (store.subUsed bytes).dataset = store.dataset :=
  rfl

@[simp]
theorem dataset_adjustUsed (store : Store) (oldSize newSize : Nat) :
    (store.adjustUsed oldSize newSize).dataset = store.dataset := by
  funext key
  simp [dataset]

@[simp]
theorem dataset_assign (store : Store) (entry : Entry) :
    (store.assign entry).dataset =
      Function.update store.dataset entry.key (some entry.item) := by
  funext other
  by_cases same : entry.key = other
  · subst same
    simp [dataset, find_assign]
  · simp [dataset, find_assign, same, Function.update_of_ne (Ne.symm same)]

@[simp]
theorem dataset_unassign (store : Store) (key : Bytes) :
    (store.unassign key).dataset = Function.update store.dataset key none := by
  funext other
  by_cases same : key = other
  · subst same
    simp [dataset, find_unassign]
  · simp [dataset, find_unassign, same, Function.update_of_ne (Ne.symm same)]

@[simp]
theorem dataset_expire (store : Store) (now : Int) (key : Bytes) :
    (store.expire now key).dataset =
      Function.update store.dataset key (liveAt now (store.dataset key)) := by
  unfold expire
  cases found : store.find key with
  | none =>
      have stored : store.dataset key = none := by simp [dataset, found]
      simp only [stored, liveAt_none]
      exact (stored ▸ Function.update_eq_self key store.dataset).symm
  | some entry =>
      have stored : store.dataset key = some entry.item := by
        simp [dataset, found]
      have sameExpiry : entry.item.isExpired now = entry.isExpired now := rfl
      rw [stored, liveAt_some, sameExpiry]
      by_cases expired : entry.isExpired now = true
      · simp only [expired, if_true, dataset_subUsed, dataset_unassign]
      · simp only [expired, Bool.false_eq_true, if_false]
        exact (stored ▸ Function.update_eq_self key store.dataset).symm

/-- The lookup after `expire` finds what is live at that reading. -/
theorem live_eq_find_expire (store : Store) (now : Int) (key : Bytes) :
    liveAt now (store.dataset key) =
      ((store.expire now key).find key).map Entry.item := by
  have updated := congrFun (store.dataset_expire now key) key
  rw [Function.update_self] at updated
  exact updated.symm

theorem live_of_found {store : Store} {now : Int} {key : Bytes} {entry : Entry}
    (found : (store.expire now key).find key = some entry) :
    liveAt now (store.dataset key) = some entry.item := by
  rw [live_eq_find_expire, found, Option.map_some]

theorem live_of_missing {store : Store} {now : Int} {key : Bytes}
    (missing : (store.expire now key).find key = none) :
    liveAt now (store.dataset key) = none := by
  rw [live_eq_find_expire, missing, Option.map_none]

@[simp]
theorem dataset_rewrite (store : Store) (entry : Entry) (value : Value)
    (now : Int) :
    (store.rewrite entry value now).dataset =
      Function.update store.dataset entry.key
        (some (entry.item.withValue entry.key value)) := by
  simp [rewrite, Entry.item, Entry.touchWrite, Item.withValue]

@[simp]
theorem dataset_insertNew (store : Store) (key : Bytes) (value : Value)
    (now : Int) :
    (store.insertNew key value now).dataset =
      Function.update store.dataset key (some (.create key value 0)) := by
  simp [insertNew, Entry.item, Entry.create, Item.create]

theorem dataset_deleteWithSize (store : Store) (key : Bytes) :
    (store.deleteWithSize key).2.dataset =
        Function.update store.dataset key none ∧
      (store.deleteWithSize key).1.isSome = (store.dataset key).isSome := by
  unfold deleteWithSize
  cases found : store.find key with
  | none =>
      have unchanged : Function.update store.dataset key none = store.dataset := by
        conv_rhs => rw [← Function.update_eq_self key store.dataset]
        simp [dataset, found]
      simp [unchanged, dataset, found]
  | some entry => simp [dataset, found]

theorem dataset_delete (store : Store) (key : Bytes) :
    (store.delete key).2.dataset = Function.update store.dataset key none ∧
      (store.delete key).1 = (store.dataset key).isSome :=
  store.dataset_deleteWithSize key

theorem dataset_get (store : Store) (now : Int) (key : Bytes) (touch : Bool) :
    (store.get now key touch).2.dataset =
        Function.update store.dataset key (liveAt now (store.dataset key)) ∧
      (store.get now key touch).1.map Entry.item =
        liveAt now (store.dataset key) := by
  unfold get
  cases found : (store.expire now key).find key with
  | none => simp [found, live_of_missing found]
  | some entry =>
      cases touch <;>
        simp [found, key_of_find found, live_of_found found, Entry.item, Entry.touchRead]

theorem dataset_flush (store : Store) : store.flush.dataset = fun _ => none := by
  have keeps : ∀ (entries : List Entry) (state : Store),
      (entries.foldl (fun state entry => state.subUsed entry.sizeBytes)
        state).dataset = state.dataset := by
    intro entries
    induction entries with
    | nil => exact fun _ => rfl
    | cons entry entries induction =>
        intro state
        rw [List.foldl_cons, induction, dataset_subUsed]
  unfold flush
  rw [keeps]
  funext key
  simp [dataset]

end Store

namespace Executor

open Store

-- What actions, their effects and their replies do to a dataset.
attribute [local simp] observe Action.perform Effect.lookingAt Effect.set Effect.incr
  Effect.push Effect.pop Effect.zadd Effect.expireAt Effect.remove Entry.item getReply
  llenReply zcardReply zscoreReply zrangeReply StoreError.frame

/-- A read action answers from the entry that one lookup returns. -/
theorem perform_reading (store : Store) (now : Int) (key : Bytes) (touch : Bool)
    (reply : Option Item → Frame) :
    (Action.onKey key ((Effect.reading reply).lookingAt now)).perform
        store.dataset =
      (reply ((store.get now key touch).1.map Entry.item),
        (store.get now key touch).2.dataset) := by
  obtain ⟨dataset, found⟩ := store.dataset_get now key touch
  simp [Effect.reading, dataset, found]

theorem observe_cmdGet (now : Readings) (args : List Bytes) (store : Store) :
    observe (cmdGet now args store) =
      (Command.readAction "get" (now 0) getReply args).perform
        store.dataset := by
  rcases args with _ | ⟨key, _ | ⟨extra, rest⟩⟩
  · rfl
  · rw [Command.readAction, perform_reading store (now 0) key true]
    rcases outcome : store.get (now 0) key true with ⟨_ | entry, after⟩
    · simp [cmdGet, outcome]
    · cases value : entry.value <;>
        simp [cmdGet, outcome, value]
  · rfl

theorem observe_cmdTTL (now : Readings) (args : List Bytes) (store : Store) :
    observe (cmdTTL now args store) =
      (Command.readAction "ttl" (now 0) (ttlReply (now 1)) args).perform
        store.dataset := by
  rcases args with _ | ⟨key, _ | ⟨extra, rest⟩⟩
  · rfl
  · rw [Command.readAction, perform_reading store (now 0) key false]
    rcases outcome : store.get (now 0) key false with ⟨_ | entry, after⟩
    · simp [cmdTTL, outcome, ttlReply]
    · simp only [observe, cmdTTL, outcome, ttlReply, Option.map_some, Entry.item]
      split_ifs <;> rfl
  · rfl

theorem observe_cmdLLen (now : Readings) (args : List Bytes) (store : Store) :
    observe (cmdLLen now args store) =
      (Command.readAction "llen" (now 0) llenReply args).perform
        store.dataset := by
  rcases args with _ | ⟨key, _ | ⟨extra, rest⟩⟩
  · rfl
  · rw [Command.readAction, perform_reading store (now 0) key false]
    rcases outcome : store.get (now 0) key false with ⟨_ | entry, after⟩
    · simp [cmdLLen, outcome]
    · cases value : entry.value <;>
        simp [cmdLLen, outcome, value]
  · rfl

theorem observe_cmdZCard (now : Readings) (args : List Bytes) (store : Store) :
    observe (cmdZCard now args store) =
      (Command.readAction "zcard" (now 0) zcardReply args).perform
        store.dataset := by
  rcases args with _ | ⟨key, _ | ⟨extra, rest⟩⟩
  · rfl
  · rw [Command.readAction, perform_reading store (now 0) key false]
    rcases outcome : store.get (now 0) key false with ⟨_ | entry, after⟩
    · simp [cmdZCard, outcome]
    · cases value : entry.value <;>
        simp [cmdZCard, outcome, value]
  · rfl

theorem observe_cmdZScore [FloatText] (now : Readings) (args : List Bytes)
    (store : Store) :
    observe (cmdZScore now args store) =
      (Command.zscoreAction now args).perform store.dataset := by
  rcases args with _ | ⟨key, _ | ⟨member, _ | ⟨extra, rest⟩⟩⟩
  · rfl
  · rfl
  · rw [Command.zscoreAction, perform_reading store (now 0) key true]
    rcases outcome : store.get (now 0) key true with ⟨_ | entry, after⟩
    · simp [cmdZScore, outcome]
    · cases value : entry.value with
      | zset members =>
          cases score : members.score member <;>
            simp [cmdZScore, outcome, value, score]
      | string data =>
          simp [cmdZScore, outcome, value]
      | list items =>
          simp [cmdZScore, outcome, value]
  · rfl

theorem observe_cmdZRange [FloatText] (now : Readings) (args : List Bytes)
    (store : Store) :
    observe (cmdZRange now args store) =
      (Command.zrangeAction now args).perform store.dataset := by
  rcases args with _ | ⟨key, _ | ⟨first, _ | ⟨last, options⟩⟩⟩
  · rfl
  · rfl
  · rfl
  · simp only [cmdZRange, Command.zrangeAction]
    by_cases arity : options.length > 1
    · simp only [if_pos arity, observe, Action.perform]
    · simp only [if_neg arity]
      cases parseInt64 first with
      | none => rfl
      | some start =>
          cases parseInt64 last with
          | none => rfl
          | some stop =>
              by_cases unknown : options ≠ [] ∧
                  options.map Bytes.upper ≠ [Bytes.ascii "WITHSCORES"]
              · simp only [if_pos unknown, observe, Action.perform]
              · simp only [if_neg unknown]
                rw [perform_reading store (now 0) key true]
                rcases outcome : store.get (now 0) key true with
                  ⟨_ | entry, after⟩
                · simp
                · cases value : entry.value <;>
                    simp [value]

theorem observe_cmdSet (now : Readings) (args : List Bytes) (store : Store) :
    observe (cmdSet now args store) =
      (Command.setAction now args).perform store.dataset := by
  rcases args with _ | ⟨key, _ | ⟨data, rest⟩⟩
  · rfl
  · rfl
  · cases parsed : parseSetOptions (now 0) rest with
    | error frame =>
        simp [cmdSet, Command.setAction, parsed]
    | ok options =>
        cases found : (store.expire (now 1) key).find key with
        | none =>
            by_cases conditional : options.condition = .ifPresent <;>
              simp [cmdSet, Command.setAction, parsed, setString, found,
                live_of_missing found, conditional, Entry.create, Item.create]
        | some entry =>
            by_cases conditional : options.condition = .ifMissing <;>
              simp [cmdSet, Command.setAction, parsed, setString, found,
                live_of_found found, conditional, Entry.create, Item.create]

theorem observe_cmdIncr (now : Readings) (args : List Bytes) (store : Store) :
    observe (cmdIncr now args store) =
      (Command.incrAction now args).perform store.dataset := by
  rcases args with _ | ⟨key, _ | ⟨extra, rest⟩⟩
  · rfl
  · cases found : (store.expire (now 0) key).find key with
    | none =>
        have small : ¬ (0 : Int) > maxInt64 - 1 := by decide
        simp [cmdIncr, Command.incrAction, incrementBy, found, live_of_missing found,
          small]
    | some entry =>
        cases value : entry.value with
        | string data =>
            cases parsed : parseInt64 data with
            | none =>
                simp [cmdIncr, Command.incrAction, incrementBy, found,
                  live_of_found found, value, parsed]
            | some current =>
                by_cases overflow : current > maxInt64 - 1 <;>
                  simp [cmdIncr, Command.incrAction, incrementBy, found,
                    key_of_find found, live_of_found found, value, parsed, overflow]
        | list items =>
            simp [cmdIncr, Command.incrAction, incrementBy, found, live_of_found found,
              value]
        | zset members =>
            simp [cmdIncr, Command.incrAction, incrementBy, found, live_of_found found,
              value]
  · rfl

theorem observe_cmdPush (left : Bool) (now : Readings) (args : List Bytes)
    (store : Store) :
    observe (cmdPush left now args store) =
      (Command.pushAction left now args).perform store.dataset := by
  rcases args with _ | ⟨key, _ | ⟨first, rest⟩⟩
  · rfl
  · rfl
  · cases found : (store.expire (now 0) key).find key with
    | none =>
        simp [cmdPush, Command.pushAction, listPush, found, live_of_missing found]
    | some entry =>
        cases value : entry.value <;>
          simp [cmdPush, Command.pushAction, listPush, found, key_of_find found,
            live_of_found found, value]

theorem observe_cmdPop (left : Bool) (now : Readings) (args : List Bytes)
    (store : Store) :
    observe (cmdPop left now args store) =
      (Command.popAction left now args).perform store.dataset := by
  rcases args with _ | ⟨key, _ | ⟨extra, rest⟩⟩
  · rfl
  · cases found : (store.expire (now 0) key).find key with
    | none =>
        simp [cmdPop, Command.popAction, listPop, found, live_of_missing found]
    | some entry =>
        cases value : entry.value with
        | list items =>
            cases popped : popItem left items with
            | none =>
                simp [cmdPop, Command.popAction, listPop, found, live_of_found found,
                  value, popped]
            | some result =>
                by_cases last : result.2.length = 0 <;>
                  simp [cmdPop, Command.popAction, listPop, found, key_of_find found,
                    live_of_found found, value, popped, last]
        | string data =>
            simp [cmdPop, Command.popAction, listPop, found, live_of_found found, value]
        | zset members =>
            simp [cmdPop, Command.popAction, listPop, found, live_of_found found, value]
  · rfl

theorem observe_cmdZAdd [FloatText] (now : Readings) (args : List Bytes)
    (store : Store) :
    observe (cmdZAdd now args store) =
      (Command.zaddAction now args).perform store.dataset := by
  rcases args with _ | ⟨key, pairs⟩
  · rfl
  · by_cases arity : pairs.length < 2 ∨ pairs.length % 2 ≠ 0
    · simp only [observe, cmdZAdd, Command.zaddAction, if_pos arity,
        Action.perform]
    · cases parsed : parseZAddPairs pairs with
      | error frame =>
          simp only [observe, cmdZAdd, Command.zaddAction, if_neg arity, parsed,
            Action.perform]
      | ok scores =>
          simp only [observe, cmdZAdd, Command.zaddAction, if_neg arity, parsed]
          cases found : (store.expire (now 0) key).find key with
          | none =>
              simp [zsetAdd, found, live_of_missing found]
          | some entry =>
              cases value : entry.value <;>
                simp [zsetAdd, found, key_of_find found, live_of_found found, value]

theorem observe_cmdExpire (now : Readings) (args : List Bytes)
    (store : Store) :
    observe (cmdExpire now args store) =
      (Command.expireAction now args).perform store.dataset := by
  rcases args with _ | ⟨key, _ | ⟨amount, _ | ⟨extra, rest⟩⟩⟩
  · rfl
  · rfl
  · cases parsed : parseInt64 amount with
    | none =>
        simp [cmdExpire, Command.expireAction, parsed]
    | some seconds =>
        by_cases negative : seconds ≤ 0
        · obtain ⟨dataset, removed⟩ := store.dataset_delete key
          simp [cmdExpire, Command.expireAction, parsed, negative, dataset, removed]
        · cases deadline : expirationFromNow seconds 1000000000 (now 0) with
          | none =>
              simp [cmdExpire, Command.expireAction, parsed, negative, deadline]
          | some moment =>
              cases found : (store.expire (now 1) key).find key with
              | none =>
                  simp [cmdExpire, Command.expireAction, parsed, negative, deadline,
                    setExpireAt, found, live_of_missing found]
              | some entry =>
                  simp [cmdExpire, Command.expireAction, parsed, negative, deadline,
                    setExpireAt, found, key_of_find found, live_of_found found,
                    Entry.touchWrite]
  · rfl

theorem observe_cmdDel (args : List Bytes) (store : Store) :
    observe (cmdDel args store) =
      (Command.delAction args).perform store.dataset := by
  have loop : ∀ (keys : List Bytes) (count : Int) (state : Store),
      let outcome := keys.foldl delStep (count, state)
      (outcome.1, outcome.2.dataset) =
        keys.foldl Action.removeStep (count, state.dataset) := by
    intro keys
    induction keys with
    | nil => exact fun _ _ => rfl
    | cons key keys induction =>
        intro count state
        obtain ⟨dataset, removed⟩ := state.dataset_delete key
        simp only [List.foldl_cons, delStep, Action.removeStep, ← removed,
          ← dataset]
        exact induction _ _
  rw [cmdDel_eq, Command.delAction]
  split_ifs with arity
  · rfl
  · have outcome := loop args 0 store
    simp only [Action.perform, ← outcome, observe]

theorem observe_cmdExists (now : Readings) (args : List Bytes)
    (store : Store) :
    observe (cmdExists now args store) =
      (Command.existsAction now args).perform store.dataset := by
  have loop : ∀ (probes : List (Bytes × Nat)) (count : Int) (state : Store),
      let outcome := probes.foldl (existsStep now) (count, state)
      (outcome.1, outcome.2.dataset) =
        (probes.map fun indexed => (indexed.1, now indexed.2)).foldl
          Action.probeStep (count, state.dataset) := by
    intro probes
    induction probes with
    | nil => exact fun _ _ => rfl
    | cons probe probes induction =>
        intro count state
        obtain ⟨dataset, found⟩ := state.dataset_get (now probe.2) probe.1 false
        have sameCount :
            (liveAt (now probe.2) (state.dataset probe.1)).isSome =
              (state.get (now probe.2) probe.1 false).1.isSome := by
          rw [← found, Option.isSome_map]
        simp only [List.foldl_cons, List.map_cons, existsStep, Action.probeStep,
          sameCount, ← dataset]
        exact induction _ _
  rw [cmdExists_eq, Command.existsAction]
  split_ifs with arity
  · rfl
  · have outcome := loop args.zipIdx 0 store
    simp only [Action.perform, ← outcome, observe]

theorem observe_cmdFlush (name : String) (args : List Bytes) (store : Store) :
    observe (cmdFlush name args store) =
      (Command.flushAction name args).perform store.dataset := by
  unfold cmdFlush Command.flushAction
  split_ifs with arity
  · rfl
  · simp [dataset_flush]

/-- The executor answers and acts on the dataset as the command's action. -/
theorem observe_execute [FloatText] (now : Readings) (cmd : Command)
    (store : Store) :
    observe (execute now cmd store) =
      (cmd.action now).perform store.dataset := by
  unfold execute Command.action
  cases cmd.verb with
  | none => rfl
  | some verb =>
      cases verb with
      | ping => rcases cmd.args with _ | ⟨message, _ | ⟨extra, rest⟩⟩ <;> rfl
      | echo => rcases cmd.args with _ | ⟨message, _ | ⟨extra, rest⟩⟩ <;> rfl
      | quit => dsimp only; split_ifs <;> rfl
      | flushdb => exact observe_cmdFlush _ _ _
      | flushall => exact observe_cmdFlush _ _ _
      | del => exact observe_cmdDel _ _
      | existsKeys => exact observe_cmdExists _ _ _
      | expire => exact observe_cmdExpire _ _ _
      | ttl => exact observe_cmdTTL _ _ _
      | set => exact observe_cmdSet _ _ _
      | get => exact observe_cmdGet _ _ _
      | incr => exact observe_cmdIncr _ _ _
      | lpush => exact observe_cmdPush _ _ _ _
      | rpush => exact observe_cmdPush _ _ _ _
      | lpop => exact observe_cmdPop _ _ _ _
      | rpop => exact observe_cmdPop _ _ _ _
      | llen => exact observe_cmdLLen _ _ _
      | zadd => exact observe_cmdZAdd _ _ _
      | zrange => exact observe_cmdZRange _ _ _
      | zcard => exact observe_cmdZCard _ _ _
      | zscore => exact observe_cmdZScore _ _ _
      | command | client | hello => rfl
      | replicate | clusterMeta | clusterApply | clusterSnapshot => rfl

theorem frame_execute [FloatText] (now : Readings) (cmd : Command) (store : Store) :
    (execute now cmd store).1 = ((cmd.action now).perform store.dataset).1 :=
  congrArg Prod.fst (observe_execute now cmd store)

theorem dataset_execute [FloatText] (now : Readings) (cmd : Command) (store : Store) :
    (execute now cmd store).2.dataset = ((cmd.action now).perform store.dataset).2 :=
  congrArg Prod.snd (observe_execute now cmd store)

end Executor
end MnemoKV
