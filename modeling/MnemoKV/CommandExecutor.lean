import MnemoKV.WireFrames
import MnemoKV.StoreOperations

/-!
# The command executor

`Executor.Execute` and its handlers.  A handler may read the clock more than
once; `Readings` lists the successive readings of one command, in the order in
which the handler makes them.
-/

namespace MnemoKV

/-- The clock readings of one command, by number. -/
abbrev Readings := Nat → Int

def wrongArgs (name : String) : Frame :=
  .error (Bytes.ascii "ERR")
    (Bytes.ascii "wrong number of arguments for '" ++ Bytes.ascii name ++
      Bytes.ascii "' command")

def wrongTypeError : Frame :=
  .newError "WRONGTYPE" "Operation against a key holding the wrong kind of value"

def notIntegerError : Frame :=
  .newError "ERR" "value is not an integer or out of range"

def syntaxError : Frame := .newError "ERR" "syntax error"

def overflowError : Frame :=
  .newError "ERR" "increment or decrement would overflow"

def notFloatError : Frame := .newError "ERR" "value is not a valid float"

def invalidExpire (name : String) : Frame :=
  .error (Bytes.ascii "ERR")
    (Bytes.ascii "invalid expire time in '" ++ Bytes.ascii name ++
      Bytes.ascii "' command")

def StoreError.frame : Store.StoreError → Frame
  | .wrongType => wrongTypeError
  | .notInteger => notIntegerError
  | .intOverflow => overflowError

/-- The parsed options of `SET`. -/
structure SetOptions where
  expiresAtNs : Int
  condition : Store.SetCondition
  deriving DecidableEq, Repr

/-- The amount after `EX` or `PX`. -/
def parseExpiry (amount : Bytes) (unitNanos now : Int) : Except Frame Int :=
  match parseInt64 amount with
  | none => .error notIntegerError
  | some value =>
      match expirationFromNow value unitNanos now with
      | none => .error (invalidExpire "set")
      | some deadline => .ok deadline

/-- The option loop of `parseSetOptions`; `expiring` is `hasExpiration`. -/
def parseSetOptionsFrom (now : Int) :
    SetOptions → Bool → List Bytes → Except Frame SetOptions
  | options, _, [] => .ok options
  | options, expiring, option :: rest =>
      if Bytes.upper option = Bytes.ascii "EX" ∨
          Bytes.upper option = Bytes.ascii "PX" then
        match rest with
        | [] => .error syntaxError
        | amount :: rest =>
            if expiring then .error syntaxError
            else
              match parseExpiry amount
                (if Bytes.upper option = Bytes.ascii "EX" then 1000000000
                  else 1000000) now with
              | .error frame => .error frame
              | .ok deadline =>
                  parseSetOptionsFrom now
                    { options with expiresAtNs := deadline } true rest
      else if Bytes.upper option = Bytes.ascii "NX" then
        if options.condition = .ifPresent then .error syntaxError
        else parseSetOptionsFrom now
          { options with condition := .ifMissing } expiring rest
      else if Bytes.upper option = Bytes.ascii "XX" then
        if options.condition = .ifMissing then .error syntaxError
        else parseSetOptionsFrom now
          { options with condition := .ifPresent } expiring rest
      else .error syntaxError

/-- The options of `SET`, in any order. -/
def parseSetOptions (now : Int) (args : List Bytes) : Except Frame SetOptions :=
  parseSetOptionsFrom now { expiresAtNs := 0, condition := .always } false args

/-- Score and member arguments, two at a time. -/
def parseZAddPairs [FloatText] :
    List Bytes → Except Frame (List (Number × Bytes))
  | [] => .ok []
  | [_] => .error (wrongArgs "zadd")
  | score :: member :: rest =>
      match FloatText.parseFloat score with
      | none => .error notFloatError
      | some bits =>
          if nan : Score.isNaN bits = true then .error notFloatError
          else (parseZAddPairs rest).map fun pairs =>
            (⟨bits, Bool.eq_false_iff.mpr nan⟩, member) :: pairs

namespace Executor

def cmdPing (args : List Bytes) (store : Store) : Frame × Store :=
  match args with
  | [] => (.pong, store)
  | [message] => (.bulkBytes message, store)
  | _ => (wrongArgs "ping", store)

def cmdEcho (args : List Bytes) (store : Store) : Frame × Store :=
  match args with
  | [message] => (.bulkBytes message, store)
  | _ => (wrongArgs "echo", store)

def cmdDel (args : List Bytes) (store : Store) : Frame × Store :=
  if args.length < 1 then (wrongArgs "del", store)
  else
    let (deleted, store) := args.foldl
      (fun state key =>
        let (removed, store) := state.2.delete key
        (if removed then state.1 + 1 else state.1, store))
      ((0 : Int), store)
    (.integer deleted, store)

/-- One turn of the loop of `cmdDel`. -/
def delStep (state : Int × Store) (key : Bytes) : Int × Store :=
  let deleted := state.2.delete key
  (if deleted.1 then state.1 + 1 else state.1, deleted.2)

theorem cmdDel_eq (args : List Bytes) (store : Store) :
    cmdDel args store = if args.length < 1 then (wrongArgs "del", store) else
      (.integer (args.foldl delStep (0, store)).1,
        (args.foldl delStep (0, store)).2) :=
  rfl

def cmdExists (now : Readings) (args : List Bytes) (store : Store) :
    Frame × Store :=
  if args.length < 1 then (wrongArgs "exists", store)
  else
    let (count, store) := args.zipIdx.foldl
      (fun state indexed =>
        let (found, store) := state.2.get (now indexed.2) indexed.1 false
        (if found.isSome then state.1 + 1 else state.1, store))
      ((0 : Int), store)
    (.integer count, store)

/-- One turn of the loop of `cmdExists`. -/
def existsStep (now : Readings) (state : Int × Store) (indexed : Bytes × Nat) :
    Int × Store :=
  let looked := state.2.get (now indexed.2) indexed.1 false
  (if looked.1.isSome then state.1 + 1 else state.1, looked.2)

theorem cmdExists_eq (now : Readings) (args : List Bytes) (store : Store) :
    cmdExists now args store = if args.length < 1 then (wrongArgs "exists", store) else
      (.integer (args.zipIdx.foldl (existsStep now) (0, store)).1,
        (args.zipIdx.foldl (existsStep now) (0, store)).2) :=
  rfl

def cmdExpire (now : Readings) (args : List Bytes) (store : Store) :
    Frame × Store :=
  match args with
  | [key, amount] =>
      match parseInt64 amount with
      | none => (notIntegerError, store)
      | some seconds =>
          if seconds ≤ 0 then
            let (removed, store) := store.delete key
            (.integer (if removed then 1 else 0), store)
          else
            match expirationFromNow seconds 1000000000 (now 0) with
            | none => (invalidExpire "expire", store)
            | some deadline =>
                let (applied, store) := store.setExpireAt (now 1) key deadline
                (.integer (if applied then 1 else 0), store)
  | _ => (wrongArgs "expire", store)

def cmdTTL (now : Readings) (args : List Bytes) (store : Store) :
    Frame × Store :=
  match args with
  | [key] =>
      let (found, store) := store.get (now 0) key false
      match found with
      | none => (.integer (-2), store)
      | some entry =>
          if entry.expiresAtNs = 0 then (.integer (-1), store)
          else if entry.expiresAtNs - now 1 ≤ 0 then (.integer (-2), store)
          else (.integer
            ((wrapInt64 (wrapInt64 (entry.expiresAtNs - now 1 + 1000000000) - 1)).tdiv
              1000000000), store)
  | _ => (wrongArgs "ttl", store)

def cmdSet (now : Readings) (args : List Bytes) (store : Store) :
    Frame × Store :=
  match args with
  | key :: data :: rest =>
      match parseSetOptions (now 0) rest with
      | .error frame => (frame, store)
      | .ok options =>
          let (written, store) :=
            store.setString (now 1) key data options.expiresAtNs
              options.condition
          (if written then .ok else .nullBulk, store)
  | _ => (wrongArgs "set", store)

def cmdGet (now : Readings) (args : List Bytes) (store : Store) :
    Frame × Store :=
  match args with
  | [key] =>
      let (found, store) := store.get (now 0) key true
      match found with
      | none => (.nullBulk, store)
      | some entry =>
          match entry.value with
          | .string data => (.bulkBytes data, store)
          | _ => (wrongTypeError, store)
  | _ => (wrongArgs "get", store)

def cmdIncr (now : Readings) (args : List Bytes) (store : Store) :
    Frame × Store :=
  match args with
  | [key] =>
      let (outcome, store) := store.incrementBy (now 0) key 1
      match outcome with
      | .ok next => (.integer next, store)
      | .error failure => (StoreError.frame failure, store)
  | _ => (wrongArgs "incr", store)

/-- `cmdLPush` and `cmdRPush`. -/
def cmdPush (left : Bool) (now : Readings) (args : List Bytes)
    (store : Store) : Frame × Store :=
  match args with
  | key :: first :: rest =>
      let (outcome, store) :=
        store.listPush (now 0) key (first :: rest) left
      match outcome with
      | .ok length => (.integer length, store)
      | .error _ => (wrongTypeError, store)
  | _ => (wrongArgs (if left then "lpush" else "rpush"), store)

/-- `cmdLPop` and `cmdRPop`. -/
def cmdPop (left : Bool) (now : Readings) (args : List Bytes)
    (store : Store) : Frame × Store :=
  match args with
  | [key] =>
      let (outcome, store) := store.listPop (now 0) key left
      match outcome with
      | .ok (some item) => (.bulkBytes item, store)
      | .ok none => (.nullBulk, store)
      | .error _ => (wrongTypeError, store)
  | _ => (wrongArgs (if left then "lpop" else "rpop"), store)

def cmdLLen (now : Readings) (args : List Bytes) (store : Store) :
    Frame × Store :=
  match args with
  | [key] =>
      let (found, store) := store.get (now 0) key false
      match found with
      | none => (.integer 0, store)
      | some entry =>
          match entry.value with
          | .list items => (.integer items.length, store)
          | _ => (wrongTypeError, store)
  | _ => (wrongArgs "llen", store)

def cmdZAdd [FloatText] (now : Readings) (args : List Bytes) (store : Store) :
    Frame × Store :=
  match args with
  | key :: pairs =>
      if pairs.length < 2 ∨ pairs.length % 2 ≠ 0 then (wrongArgs "zadd", store)
      else
        match parseZAddPairs pairs with
        | .error frame => (frame, store)
        | .ok parsed =>
            let (outcome, store) := store.zsetAdd (now 0) key parsed
            match outcome with
            | .ok added => (.integer added, store)
            | .error _ => (wrongTypeError, store)
  | [] => (wrongArgs "zadd", store)

/-- Replies of `ZRANGE`, with each score after its member on request. -/
def memberFrames [FloatText] (withScores : Bool) (members : List ZSetMember) :
    List Frame :=
  members.flatMap fun node =>
    if withScores then
      [.bulkBytes node.member, .bulkBytes (Score.format node.score.val)]
    else [.bulkBytes node.member]

def cmdZRange [FloatText] (now : Readings) (args : List Bytes)
    (store : Store) : Frame × Store :=
  match args with
  | key :: first :: last :: options =>
      if options.length > 1 then (wrongArgs "zrange", store)
      else
        match parseInt64 first, parseInt64 last with
        | some start, some stop =>
            if options ≠ [] ∧
                options.map Bytes.upper ≠ [Bytes.ascii "WITHSCORES"] then
              (syntaxError, store)
            else
              let (found, store) := store.get (now 0) key true
              match found with
              | none => (.array [] false, store)
              | some entry =>
                  match entry.value with
                  | .zset members =>
                      (.array (memberFrames (options ≠ [])
                        (members.list.range start stop)) false, store)
                  | _ => (wrongTypeError, store)
        | _, _ => (notIntegerError, store)
  | _ => (wrongArgs "zrange", store)

def cmdZCard (now : Readings) (args : List Bytes) (store : Store) :
    Frame × Store :=
  match args with
  | [key] =>
      let (found, store) := store.get (now 0) key false
      match found with
      | none => (.integer 0, store)
      | some entry =>
          match entry.value with
          | .zset members => (.integer members.card, store)
          | _ => (wrongTypeError, store)
  | _ => (wrongArgs "zcard", store)

def cmdZScore [FloatText] (now : Readings) (args : List Bytes)
    (store : Store) : Frame × Store :=
  match args with
  | [key, member] =>
      let (found, store) := store.get (now 0) key true
      match found with
      | none => (.nullBulk, store)
      | some entry =>
          match entry.value with
          | .zset members =>
              match members.score member with
              | some score => (.bulkBytes (Score.format score.val), store)
              | none => (.nullBulk, store)
          | _ => (wrongTypeError, store)
  | _ => (wrongArgs "zscore", store)

/-- `FLUSHDB` and `FLUSHALL`. -/
def cmdFlush (name : String) (args : List Bytes) (store : Store) :
    Frame × Store :=
  if args.length ≠ 0 then (wrongArgs name, store) else (.ok, store.flush)

def execute [FloatText] (now : Readings) (cmd : Command) (store : Store) :
    Frame × Store :=
  match cmd.verb with
  | some .ping => cmdPing cmd.args store
  | some .echo => cmdEcho cmd.args store
  | some .quit =>
      if cmd.args.length ≠ 0 then (wrongArgs "quit", store) else (.ok, store)
  | some .command => (.array [] false, store)
  | some .client => (.ok, store)
  | some .hello =>
      (.newError "ERR" "HELLO not supported (RESP2 only)", store)
  | some .flushdb => cmdFlush "flushdb" cmd.args store
  | some .flushall => cmdFlush "flushall" cmd.args store
  | some .del => cmdDel cmd.args store
  | some .existsKeys => cmdExists now cmd.args store
  | some .expire => cmdExpire now cmd.args store
  | some .ttl => cmdTTL now cmd.args store
  | some .set => cmdSet now cmd.args store
  | some .get => cmdGet now cmd.args store
  | some .incr => cmdIncr now cmd.args store
  | some .lpush => cmdPush true now cmd.args store
  | some .rpush => cmdPush false now cmd.args store
  | some .lpop => cmdPop true now cmd.args store
  | some .rpop => cmdPop false now cmd.args store
  | some .llen => cmdLLen now cmd.args store
  | some .zadd => cmdZAdd now cmd.args store
  | some .zrange => cmdZRange now cmd.args store
  | some .zcard => cmdZCard now cmd.args store
  | some .zscore => cmdZScore now cmd.args store
  | _ => (.error (Bytes.ascii "ERR")
      (Bytes.ascii "unknown command '" ++ cmd.name ++ Bytes.ascii "'"), store)

end Executor
end MnemoKV
