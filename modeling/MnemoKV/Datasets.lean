import MnemoKV.CommandExecutor

/-!
# Datasets and what commands mean on them

Abstractly the engine is a partial map from keys to items, an item being a
value with its accounted size and its expiry.  A command stands for an action
on such a map: it answers at once, or transforms the item of one key, or
removes or probes several keys.  Stripes, access metadata and the byte counter
are not visible at this level.
-/

namespace MnemoKV

/-- What clients can tell of an entry. -/
structure Item where
  value : Value
  sizeBytes : Nat
  expiresAtNs : Int
  deriving DecidableEq

namespace Item

def isExpired (item : Item) (now : Int) : Bool :=
  decide (item.expiresAtNs ≠ 0) && decide (item.expiresAtNs ≤ now)

def create (key : Bytes) (value : Value) (expiresAtNs : Int) : Item :=
  { value := value, sizeBytes := value.size key, expiresAtNs := expiresAtNs }

def withValue (item : Item) (key : Bytes) (value : Value) : Item :=
  { item with value := value, sizeBytes := value.size key }

end Item

def Entry.item (entry : Entry) : Item :=
  { value := entry.value, sizeBytes := entry.sizeBytes
    expiresAtNs := entry.expiresAtNs }

/-- What a lookup at time `now` sees of a stored item. -/
def liveAt (now : Int) (stored : Option Item) : Option Item :=
  stored.filter fun item => !item.isExpired now

@[simp]
theorem liveAt_none (now : Int) : liveAt now none = none :=
  rfl

theorem liveAt_some (now : Int) (item : Item) :
    liveAt now (some item) = if item.isExpired now then none else some item := by
  cases expired : item.isExpired now <;> simp [liveAt, Option.filter, expired]

theorem Item.isExpired_mono {item : Item} {now later : Int} (ordered : now ≤ later)
    (expired : item.isExpired now = true) : item.isExpired later = true := by
  simp only [Item.isExpired, Bool.and_eq_true, decide_eq_true_eq] at expired ⊢
  omega

theorem liveAt_eq_none_mono {stored : Option Item} {now later : Int}
    (ordered : now ≤ later) (dead : liveAt now stored = none) :
    liveAt later stored = none := by
  cases stored with
  | none => rfl
  | some item =>
      rw [liveAt_some] at dead ⊢
      split_ifs at dead with expired
      rw [if_pos (Item.isExpired_mono ordered expired)]

/-- A lookup returns the stored item or nothing. -/
theorem liveAt_cases (now : Int) (stored : Option Item) :
    liveAt now stored = stored ∨ liveAt now stored = none := by
  cases stored with
  | none => exact .inl rfl
  | some item =>
      rw [liveAt_some]
      split_ifs
      · exact .inr rfl
      · exact .inl rfl

theorem liveAt_liveAt {earlier later : Int} (ordered : earlier ≤ later)
    (stored : Option Item) :
    liveAt later (liveAt earlier stored) = liveAt later stored := by
  rcases liveAt_cases earlier stored with live | dead
  · rw [live]
  · rw [dead, liveAt_eq_none_mono ordered dead]
    rfl

/-- What clients can tell of a store: an item under each key. -/
abbrev Dataset := Bytes → Option Item

/-- A transformation of the item under one key, with the reply it produces. -/
abbrev Effect := Option Item → Frame × Option Item

namespace Effect

/-- Run an effect on what a lookup at `now` sees. -/
def lookingAt (now : Int) (effect : Effect) : Effect :=
  fun stored => effect (liveAt now stored)

def reading (reply : Option Item → Frame) : Effect :=
  fun stored => (reply stored, stored)

def set (key data : Bytes) (options : SetOptions) : Effect
  | some item =>
      if options.condition = .ifMissing then (.nullBulk, some item)
      else (.ok, some (.create key (.string data) options.expiresAtNs))
  | none =>
      if options.condition = .ifPresent then (.nullBulk, none)
      else (.ok, some (.create key (.string data) options.expiresAtNs))

def incr (key : Bytes) : Effect
  | some item =>
      match item.value with
      | .string data =>
          match parseInt64 data with
          | none => (notIntegerError, some item)
          | some current =>
              if current > maxInt64 - 1 then (overflowError, some item)
              else (.integer (current + 1),
                some (item.withValue key (.string (formatInt64 (current + 1)))))
      | _ => (wrongTypeError, some item)
  | none => (.integer 1, some (.create key (.string (formatInt64 1)) 0))

def push (left : Bool) (key : Bytes) (values : List Bytes) : Effect
  | some item =>
      match item.value with
      | .list items =>
          (.integer (pushItems left values items).length,
            some (item.withValue key (.list (pushItems left values items))))
      | _ => (wrongTypeError, some item)
  | none =>
      (.integer (pushItems left values []).length,
        some (.create key (.list (pushItems left values [])) 0))

def pop (left : Bool) (key : Bytes) : Effect
  | some item =>
      match item.value with
      | .list items =>
          match popItem left items with
          | none => (.nullBulk, some item)
          | some (popped, rest) =>
              (.bulkBytes popped,
                if rest.length = 0 then none
                else some (item.withValue key (.list rest)))
      | _ => (wrongTypeError, some item)
  | none => (.nullBulk, none)

def zadd (key : Bytes) (pairs : List (Number × Bytes)) : Effect
  | some item =>
      match item.value with
      | .zset members =>
          (.integer (members.addAll pairs).1,
            some (item.withValue key (.zset (members.addAll pairs).2)))
      | _ => (wrongTypeError, some item)
  | none =>
      (.integer (ZSetValue.empty.addAll pairs).1,
        some (.create key (.zset (ZSetValue.empty.addAll pairs).2) 0))

def expireAt (deadline : Int) : Effect
  | some item => (.integer 1, some { item with expiresAtNs := deadline })
  | none => (.integer 0, none)

/-- `EXPIRE` with a non-positive amount removes the key, expired or not. -/
def remove : Effect :=
  fun stored => (.integer (if stored.isSome then 1 else 0), none)

end Effect

/-- Replies of the single-key read commands. -/
def getReply : Option Item → Frame
  | none => .nullBulk
  | some item =>
      match item.value with
      | .string data => .bulkBytes data
      | _ => wrongTypeError

def ttlReply (now : Int) : Option Item → Frame
  | none => .integer (-2)
  | some item =>
      if item.expiresAtNs = 0 then .integer (-1)
      else if item.expiresAtNs - now ≤ 0 then .integer (-2)
      else .integer
        ((wrapInt64 (wrapInt64 (item.expiresAtNs - now + 1000000000) - 1)).tdiv
          1000000000)

def llenReply : Option Item → Frame
  | none => .integer 0
  | some item =>
      match item.value with
      | .list items => .integer items.length
      | _ => wrongTypeError

def zcardReply : Option Item → Frame
  | none => .integer 0
  | some item =>
      match item.value with
      | .zset members => .integer members.card
      | _ => wrongTypeError

def zscoreReply [FloatText] (member : Bytes) : Option Item → Frame
  | none => .nullBulk
  | some item =>
      match item.value with
      | .zset members =>
          match members.score member with
          | some score => .bulkBytes (Score.format score.val)
          | none => .nullBulk
      | _ => wrongTypeError

def zrangeReply [FloatText] (withScores : Bool) (start stop : Int) :
    Option Item → Frame
  | none => .array [] false
  | some item =>
      match item.value with
      | .zset members =>
          .array (Executor.memberFrames withScores
            (members.list.range start stop)) false
      | _ => wrongTypeError

/-- What a command does to a dataset. -/
inductive Action
  | reply (frame : Frame)
  | onKey (key : Bytes) (effect : Effect)
  | removeAll (keys : List Bytes)
  | countLive (probes : List (Bytes × Int))
  | clear

namespace Action

/-- The keys an action may look at or change; `clear` is not confined. -/
def keys : Action → List Bytes
  | reply _ => []
  | onKey key _ => [key]
  | removeAll keys => keys
  | countLive probes => probes.map Prod.fst
  | clear => []

def removeStep (state : Int × Dataset) (key : Bytes) : Int × Dataset :=
  (if (state.2 key).isSome then state.1 + 1 else state.1,
    Function.update state.2 key none)

def probeStep (state : Int × Dataset) (probe : Bytes × Int) : Int × Dataset :=
  let found := liveAt probe.2 (state.2 probe.1)
  (if found.isSome then state.1 + 1 else state.1,
    Function.update state.2 probe.1 found)

/-- The answer of an action, and the dataset that it leaves. -/
def perform (action : Action) (dataset : Dataset) : Frame × Dataset :=
  match action with
  | reply frame => (frame, dataset)
  | onKey key effect =>
      ((effect (dataset key)).1,
        Function.update dataset key (effect (dataset key)).2)
  | removeAll keys =>
      let (removed, dataset) := keys.foldl removeStep (0, dataset)
      (.integer removed, dataset)
  | countLive probes =>
      let (found, dataset) := probes.foldl probeStep (0, dataset)
      (.integer found, dataset)
  | clear => (.ok, fun _ => none)

end Action

namespace Command

def setAction (now : Readings) : List Bytes → Action
  | key :: data :: rest =>
      match parseSetOptions (now 0) rest with
      | .error frame => .reply frame
      | .ok options =>
          .onKey key ((Effect.set key data options).lookingAt (now 1))
  | _ => .reply (wrongArgs "set")

def expireAction (now : Readings) : List Bytes → Action
  | [key, amount] =>
      match parseInt64 amount with
      | none => .reply notIntegerError
      | some seconds =>
          if seconds ≤ 0 then .onKey key Effect.remove
          else
            match expirationFromNow seconds 1000000000 (now 0) with
            | none => .reply (invalidExpire "expire")
            | some deadline =>
                .onKey key ((Effect.expireAt deadline).lookingAt (now 1))
  | _ => .reply (wrongArgs "expire")

/-- A read of one key whose handler takes exactly that key. -/
def readAction (name : String) (now : Int) (reply : Option Item → Frame) :
    List Bytes → Action
  | [key] => .onKey key ((Effect.reading reply).lookingAt now)
  | _ => .reply (wrongArgs name)

def popAction (left : Bool) (now : Readings) : List Bytes → Action
  | [key] => .onKey key ((Effect.pop left key).lookingAt (now 0))
  | _ => .reply (wrongArgs (if left then "lpop" else "rpop"))

def pushAction (left : Bool) (now : Readings) : List Bytes → Action
  | key :: first :: rest =>
      .onKey key ((Effect.push left key (first :: rest)).lookingAt (now 0))
  | _ => .reply (wrongArgs (if left then "lpush" else "rpush"))

def incrAction (now : Readings) : List Bytes → Action
  | [key] => .onKey key ((Effect.incr key).lookingAt (now 0))
  | _ => .reply (wrongArgs "incr")

def zaddAction [FloatText] (now : Readings) : List Bytes → Action
  | key :: pairs =>
      if pairs.length < 2 ∨ pairs.length % 2 ≠ 0 then .reply (wrongArgs "zadd")
      else
        match parseZAddPairs pairs with
        | .error frame => .reply frame
        | .ok parsed => .onKey key ((Effect.zadd key parsed).lookingAt (now 0))
  | [] => .reply (wrongArgs "zadd")

def zrangeAction [FloatText] (now : Readings) : List Bytes → Action
  | key :: first :: last :: options =>
      if options.length > 1 then .reply (wrongArgs "zrange")
      else
        match parseInt64 first, parseInt64 last with
        | some start, some stop =>
            if options ≠ [] ∧
                options.map Bytes.upper ≠ [Bytes.ascii "WITHSCORES"] then
              .reply syntaxError
            else .onKey key
              ((Effect.reading (zrangeReply (options ≠ []) start stop)).lookingAt
                (now 0))
        | _, _ => .reply notIntegerError
  | _ => .reply (wrongArgs "zrange")

def zscoreAction [FloatText] (now : Readings) : List Bytes → Action
  | [key, member] =>
      .onKey key ((Effect.reading (zscoreReply member)).lookingAt (now 0))
  | _ => .reply (wrongArgs "zscore")

def delAction (args : List Bytes) : Action :=
  if args.length < 1 then .reply (wrongArgs "del") else .removeAll args

def existsAction (now : Readings) (args : List Bytes) : Action :=
  if args.length < 1 then .reply (wrongArgs "exists")
  else .countLive (args.zipIdx.map fun indexed => (indexed.1, now indexed.2))

def pingAction : List Bytes → Action
  | [] => .reply .pong
  | [message] => .reply (.bulkBytes message)
  | _ => .reply (wrongArgs "ping")

def echoAction : List Bytes → Action
  | [message] => .reply (.bulkBytes message)
  | _ => .reply (wrongArgs "echo")

def flushAction (name : String) (args : List Bytes) : Action :=
  if args.length ≠ 0 then .reply (wrongArgs name) else .clear

/-- The action that a command stands for at the given clock readings. -/
def action [FloatText] (now : Readings) (cmd : Command) : Action :=
  match cmd.verb with
  | some .ping => pingAction cmd.args
  | some .echo => echoAction cmd.args
  | some .quit =>
      if cmd.args.length ≠ 0 then .reply (wrongArgs "quit") else .reply .ok
  | some .command => .reply (.array [] false)
  | some .client => .reply .ok
  | some .hello => .reply (.newError "ERR" "HELLO not supported (RESP2 only)")
  | some .flushdb => flushAction "flushdb" cmd.args
  | some .flushall => flushAction "flushall" cmd.args
  | some .del => delAction cmd.args
  | some .existsKeys => existsAction now cmd.args
  | some .expire => expireAction now cmd.args
  | some .ttl => readAction "ttl" (now 0) (ttlReply (now 1)) cmd.args
  | some .set => setAction now cmd.args
  | some .get => readAction "get" (now 0) getReply cmd.args
  | some .incr => incrAction now cmd.args
  | some .lpush => pushAction true now cmd.args
  | some .rpush => pushAction false now cmd.args
  | some .lpop => popAction true now cmd.args
  | some .rpop => popAction false now cmd.args
  | some .llen => readAction "llen" (now 0) llenReply cmd.args
  | some .zadd => zaddAction now cmd.args
  | some .zrange => zrangeAction now cmd.args
  | some .zcard => readAction "zcard" (now 0) zcardReply cmd.args
  | some .zscore => zscoreAction now cmd.args
  | _ => .reply (.error (Bytes.ascii "ERR")
      (Bytes.ascii "unknown command '" ++ cmd.name ++ Bytes.ascii "'"))

end Command
end MnemoKV
