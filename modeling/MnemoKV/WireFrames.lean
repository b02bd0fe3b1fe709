import MnemoKV.ByteStrings

/-!
# Reply frames and commands

The reply types of the wire protocol and the parsed form of a request.  A
command is dispatched on its upper-cased name; the names the node knows are
the constructors of `Verb`, and every other name leaves `verb` empty.
-/

namespace MnemoKV

/-- A reply: `resp.SimpleString`, `Error`, `Integer`, `BulkString`, `Array`. -/
inductive Frame
  | simple (text : Bytes)
  | error (code message : Bytes)
  | integer (value : Int)
  | bulk (value : Bytes) (null : Bool)
  | array (items : List Frame) (null : Bool)
  deriving Repr

namespace Frame

def newError (code message : String) : Frame :=
  .error (Bytes.ascii code) (Bytes.ascii message)

def ok : Frame := .simple (Bytes.ascii "OK")

def pong : Frame := .simple (Bytes.ascii "PONG")

def nullBulk : Frame := .bulk [] true

def bulkBytes (value : Bytes) : Frame := .bulk value false

def isError : Frame → Bool
  | .error _ _ => true
  | _ => false

end Frame

/-- The command names that some switch of the node mentions. -/
inductive Verb
  | ping | echo | quit | command | client | hello | flushdb | flushall
  | del | existsKeys | expire | ttl | set | get | incr
  | lpush | rpush | lpop | rpop | llen
  | zadd | zrange | zcard | zscore
  | replicate | clusterMeta | clusterApply | clusterSnapshot
  deriving DecidableEq, Repr

namespace Verb

def name : Verb → String
  | ping => "PING"
  | echo => "ECHO"
  | quit => "QUIT"
  | command => "COMMAND"
  | client => "CLIENT"
  | hello => "HELLO"
  | flushdb => "FLUSHDB"
  | flushall => "FLUSHALL"
  | del => "DEL"
  | existsKeys => "EXISTS"
  | expire => "EXPIRE"
  | ttl => "TTL"
  | set => "SET"
  | get => "GET"
  | incr => "INCR"
  | lpush => "LPUSH"
  | rpush => "RPUSH"
  | lpop => "LPOP"
  | rpop => "RPOP"
  | llen => "LLEN"
  | zadd => "ZADD"
  | zrange => "ZRANGE"
  | zcard => "ZCARD"
  | zscore => "ZSCORE"
  | replicate => "REPLICATE"
  | clusterMeta => "CLUSTERMETA"
  | clusterApply => "CLUSTERAPPLY"
  | clusterSnapshot => "CLUSTERSNAPSHOT"

def all : List Verb :=
  [ping, echo, quit, command, client, hello, flushdb, flushall, del,
    existsKeys, expire, ttl, set, get, incr, lpush, rpush, lpop, rpop, llen,
    zadd, zrange, zcard, zscore, replicate, clusterMeta, clusterApply,
    clusterSnapshot]

def ofName (name : Bytes) : Option Verb :=
  all.find? fun verb => Bytes.ascii verb.name == name

theorem ofName_name (verb : Verb) : ofName (Bytes.ascii verb.name) = some verb := by
  cases verb <;> decide

/-- `engine.IsWriteCommand`. -/
def isWrite : Verb → Bool
  | set | del | expire | incr | lpush | rpush | lpop | rpop | zadd
  | flushdb | flushall => true
  | _ => false

end Verb

/-- A parsed request; `name` is already upper-cased by the parser. -/
structure Command where
  name : Bytes
  args : List Bytes
  deriving DecidableEq, Repr

namespace Command

def verb (cmd : Command) : Option Verb :=
  Verb.ofName cmd.name

/-- A command of the node's own vocabulary. -/
def make (verb : Verb) (args : List Bytes) : Command :=
  { name := Bytes.ascii verb.name, args := args }

@[simp]
theorem verb_make (verb : Verb) (args : List Bytes) :
    (make verb args).verb = some verb :=
  Verb.ofName_name verb

def isWriteCommand (cmd : Command) : Bool :=
  match cmd.verb with
  | some verb => verb.isWrite
  | none => false

/-- Every key taking part in a routing decision. -/
def extractKeys (cmd : Command) : List Bytes :=
  match cmd.verb with
  | some .ping | some .echo | some .quit | some .flushdb | some .flushall
  | some .command | some .client | some .hello | some .replicate
  | some .clusterMeta | some .clusterApply | some .clusterSnapshot => []
  | some .del | some .existsKeys => cmd.args
  | _ => cmd.args.take 1

/-- The first routing key; `[]` stands for the source's `nil` as well as for
an empty key, which the callers do not tell apart. -/
def extractPrimaryKey (cmd : Command) : Bytes :=
  cmd.extractKeys.headD []

theorem extractPrimaryKey_mem (cmd : Command)
    (keyed : cmd.extractPrimaryKey ≠ []) :
    cmd.extractPrimaryKey ∈ cmd.extractKeys := by
  unfold extractPrimaryKey at keyed ⊢
  cases keys : cmd.extractKeys with
  | nil => simp [keys] at keyed
  | cons key rest => exact List.mem_cons_self

end Command
end MnemoKV
