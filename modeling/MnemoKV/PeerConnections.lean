import MnemoKV.ClusterMetadata
import MnemoKV.CommandExecutor
import MnemoKV.LabelledRuns
import MnemoKV.ReplyFrames
import MnemoKV.RequestGrammar

/-!
# Requests and replies on a peer connection

A node sends its requests to a peer over one connection and reads one frame
after each.  The peer parses whatever is on the stream, answers every command it
finds and then waits.  The two sides stay paired as long as the parser takes
each request as one command; a request with an empty name and arguments is taken
apart into several, and all later replies are shifted.
-/

namespace MnemoKV

/-- A call on the connection. -/
inductive PeerRequest
  | forward (cmd : Command)
  | sendReplication (record : ReplicationRecord)

namespace PeerRequest

def name : PeerRequest → Bytes
  | forward cmd => cmd.name
  | sendReplication _ => .ascii "REPLICATE"

def args : PeerRequest → List Bytes
  | forward cmd => cmd.args
  | sendReplication record => record.arguments

def words (request : PeerRequest) : List Bytes :=
  request.name :: request.args

/-- The command that the peer is asked to execute. -/
def command (request : PeerRequest) : Command :=
  { name := Bytes.upper request.name, args := request.args }

end PeerRequest

def emptyCommandError : Frame := .newError "ERR" "empty command"

def protocolError : Frame := .newError "ERR" "Protocol error"

/-- The peer closes the connection behind the reply. -/
def Command.quits (cmd : Command) : Bool :=
  decide (cmd.verb = some .quit) && cmd.args.isEmpty

/-- What the peer has done by the time it waits or closes the connection. -/
structure Served (σ : Type) where
  frames : List Frame
  state : σ
  unread : Bytes
  closed : Bool

def Served.emit {σ : Type} (frame : Frame) (served : Served σ) : Served σ :=
  { served with frames := frame :: served.frames }

section Connection

variable {σ : Type} (exec : σ → Command → Frame × σ)

/-- The loop of `connectionHandler.serve` over what has arrived. -/
def serve : Nat → σ → Bytes → Served σ
  | 0, state, stream =>
      { frames := [], state := state, unread := stream, closed := false }
  | fuel + 1, state, stream =>
      match Parser.next stream with
      | (.error .waiting, _) =>
          { frames := [], state := state, unread := stream, closed := false }
      | (.error .emptyLine, rest) => serve fuel state rest
      | (.error .emptyCommand, rest) =>
          (serve fuel state rest).emit emptyCommandError
      | (.error .protocol, rest) =>
          { frames := [protocolError], state := state, unread := rest
            closed := true }
      | (.ok cmd, rest) =>
          if cmd.quits then
            { frames := [(exec state cmd).1], state := (exec state cmd).2
              unread := rest, closed := true }
          else (serve fuel (exec state cmd).2 rest).emit (exec state cmd).1

/-- One connection: the peer's state, what the peer has not read yet, and the
replies that have not been read. -/
structure PeerConn (σ : Type) where
  state : σ
  unread : Bytes
  replies : Bytes
  closed : Bool

/-- One call: the frames that the peer produces in response and the one that is
read. -/
structure Exchange (σ : Type) where
  produced : List Frame
  read : Except ReplyError Frame
  after : PeerConn σ

namespace PeerConn

def dial (state : σ) : PeerConn σ :=
  { state := state, unread := [], replies := [], closed := false }

/-- The peer's part of a call. -/
def respond (conn : PeerConn σ) (request : PeerRequest) : Served σ :=
  let arrived := conn.unread ++ writeRequest request.words
  if conn.closed then
    { frames := [], state := conn.state, unread := arrived, closed := true }
  else serve exec arrived.length conn.state arrived

/-- Writes a request and takes the next frame for its reply. -/
def exchange (conn : PeerConn σ) (request : PeerRequest) : Exchange σ :=
  let served := conn.respond exec request
  let replies := conn.replies ++ Frame.writeAll served.frames
  let rest (replies : Bytes) : PeerConn σ :=
    { state := served.state, unread := served.unread, replies := replies
      closed := served.closed }
  match readFrame replies.length replies with
  | .error failure =>
      { produced := served.frames, read := .error failure, after := rest replies }
  | .ok (frame, behind) =>
      { produced := served.frames, read := .ok frame, after := rest behind }

def step (conn : PeerConn σ) (request : PeerRequest) : PeerConn σ :=
  (conn.exchange exec request).after

end PeerConn

/-- The reply to a request and the peer's state behind it. -/
def PeerRequest.reply (state : σ) (request : PeerRequest) : Frame × σ :=
  if request.name = [] then (emptyCommandError, state)
  else exec state request.command

variable {exec}

@[simp]
theorem serve_nil (fuel : Nat) (state : σ) :
    serve exec fuel state [] =
      { frames := [], state := state, unread := [], closed := false } := by
  cases fuel <;> rfl

/-- The loop ends only when the peer waits for more or has closed the
connection. -/
theorem serve_settles {fuel : Nat} {stream : Bytes}
    (enough : stream.length ≤ fuel) (state : σ) :
    (serve exec fuel state stream).closed = true ∨
      (Parser.next (serve exec fuel state stream).unread).1 =
        .error .waiting := by
  induction fuel generalizing stream state with
  | zero =>
      obtain rfl := List.length_eq_zero_iff.mp (Nat.le_zero.mp enough)
      exact .inr rfl
  | succ fuel induction =>
      unfold serve
      split
      · rename_i waiting
        exact .inr (congrArg Prod.fst waiting)
      · rename_i rest parsed
        have shorter := Parser.next_shorter parsed (by simp [Parser.Stops])
        exact induction (by omega) state
      · rename_i rest parsed
        have shorter := Parser.next_shorter parsed (by simp [Parser.Stops])
        exact induction (by omega) state
      · exact .inl rfl
      · rename_i cmd rest parsed
        have shorter := Parser.next_shorter parsed (by simp)
        split_ifs
        · exact .inl rfl
        · exact induction (by omega) _

/-- Nothing is under way on the connection. -/
structure PeerConn.Idle (conn : PeerConn σ) : Prop where
  unread : conn.unread = []
  replies : conn.replies = []
  opened : conn.closed = false

/-- The requests that the parser takes as one command. -/
def PeerRequest.Whole (request : PeerRequest) : Prop :=
  request.name ≠ [] ∨ request.args = []

theorem writeRequest_length (words : List Bytes) :
    ∃ fuel, (writeRequest words).length = fuel + 2 := by
  refine ⟨(writeRequest words).length - 2, ?_⟩
  simp only [writeRequest, List.length_cons, List.length_append,
    ByteLines.ending]
  omega

theorem PeerConn.Idle.respond_eq {conn : PeerConn σ} (idle : conn.Idle)
    (exec : σ → Command → Frame × σ) (request : PeerRequest) :
    ∃ fuel, conn.respond exec request =
      serve exec (fuel + 2) conn.state (writeRequest request.words) := by
  obtain ⟨fuel, length⟩ := writeRequest_length request.words
  refine ⟨fuel, ?_⟩
  simp only [respond, idle.opened, idle.unread, List.nil_append, length,
    Bool.false_eq_true, if_false]

theorem next_request {request : PeerRequest} (limits : WithinLimits request.words) :
    Parser.next (writeRequest request.words) =
      if request.name = [] then
        (.error .emptyCommand, request.args.flatMap writeWord)
      else (.ok request.command, []) := by
  have parsed := Parser.next_writeRequest limits []
  rw [List.append_nil, List.append_nil] at parsed
  exact parsed

/-- A whole request on an idle connection gets its reply and nothing else. -/
theorem PeerConn.Idle.respond_whole {conn : PeerConn σ} (idle : conn.Idle)
    {request : PeerRequest} (limits : WithinLimits request.words)
    (whole : request.Whole) :
    conn.respond exec request =
      { frames := [(request.reply exec conn.state).1]
        state := (request.reply exec conn.state).2
        unread := []
        closed := decide (request.name ≠ []) && request.command.quits } := by
  obtain ⟨fuel, responded⟩ := idle.respond_eq exec request
  rw [responded, serve, next_request limits]
  by_cases empty : request.name = []
  · have noArgs : request.args = [] := whole.resolve_left (not_not.mpr empty)
    simp [empty, noArgs, PeerRequest.reply, Served.emit]
  · by_cases quits : request.command.quits = true
    · simp [empty, quits, PeerRequest.reply]
    · simp [empty, quits, PeerRequest.reply, Served.emit]

/-- Otherwise the peer produces at least two frames. -/
theorem PeerConn.Idle.respond_broken {conn : PeerConn σ} (idle : conn.Idle)
    (exec : σ → Command → Frame × σ) {request : PeerRequest} (limits : WithinLimits request.words)
    (broken : ¬ request.Whole) :
    2 ≤ (conn.respond exec request).frames.length := by
  obtain ⟨empty, args⟩ := not_or.mp broken
  obtain ⟨arg, others, given⟩ := List.exists_cons_of_ne_nil args
  obtain ⟨fuel, responded⟩ := idle.respond_eq exec request
  have short : arg.length ≤ Parser.maxBulkLen := by
    refine limits.measured arg (List.mem_cons_of_mem _ ?_)
    rw [given]
    exact List.mem_cons_self
  have leftover := Parser.next_writeWord short (others.flatMap writeWord)
  rw [responded, serve, next_request limits, if_pos (not_not.mp empty), given,
    List.flatMap_cons]
  dsimp only [Served.emit]
  rw [serve, leftover]
  dsimp only [Served.emit]
  split_ifs
  · exact le_rfl
  · simp

/-- The call got exactly one frame from the peer, and read it. -/
def Exchange.Paired (exchange : Exchange σ) (reply : Frame) : Prop :=
  exchange.produced = [reply] ∧ exchange.read = .ok reply.onWire

theorem PeerConn.Idle.exchange_whole {conn : PeerConn σ} (idle : conn.Idle)
    (representable : ∀ state cmd, (exec state cmd).1.Representable)
    {request : PeerRequest} (limits : WithinLimits request.words)
    (whole : request.Whole) :
    (conn.exchange exec request).Paired (request.reply exec conn.state).1 ∧
      (request.command.quits = false →
        (conn.exchange exec request).after.Idle) := by
  have fits : (request.reply exec conn.state).1.Representable := by
    unfold PeerRequest.reply
    split_ifs
    · trivial
    · exact representable _ _
  have parsed := readFrame_write (request.reply exec conn.state).1 fits _ le_rfl []
  rw [List.append_nil] at parsed
  unfold exchange
  simp only [idle.respond_whole limits whole, idle.replies, List.nil_append,
    Frame.writeAll, List.append_nil, parsed]
  refine ⟨⟨rfl, rfl⟩, fun stays => ⟨rfl, rfl, ?_⟩⟩
  simp [stays]

theorem PeerConn.produced_exchange (conn : PeerConn σ) (request : PeerRequest) :
    (conn.exchange exec request).produced =
      (conn.respond exec request).frames := by
  unfold exchange
  dsimp only
  split <;> rfl

open LabelledRuns

/-- On one connection that is not closed by the peer, the peer answers every
request with exactly one frame, and each call reads the reply to its own request,
exactly if every request that has arguments has a name. -/
theorem replies_pair_with_requests_iff
    (representable : ∀ state cmd, (exec state cmd).1.Representable)
    (state : σ) (requests : List PeerRequest)
    (limits : ∀ request ∈ requests, WithinLimits request.words)
    (stays : ∀ index (inRange : index + 1 < requests.length),
      (requests[index]).command.quits = false) :
    (∀ index (inRange : index < requests.length),
      let conn := stateAt (PeerConn.step exec) (.dial state) requests index
      (conn.exchange exec requests[index]).Paired
        (requests[index].reply exec conn.state).1) ↔
    ∀ request ∈ requests, request.name ≠ [] ∨ request.args = [] := by
  have idle : ∀ index ≤ requests.length,
      (∀ earlier (inRange : earlier < requests.length), earlier < index →
        (requests[earlier]).Whole) → index < requests.length →
      (stateAt (PeerConn.step exec) (.dial state) requests index).Idle := by
    intro index
    induction index with
    | zero => exact fun _ _ _ => ⟨rfl, rfl, rfl⟩
    | succ index induction =>
        intro visited whole inside
        have inRange : index < requests.length := visited
        have before := induction inRange.le
          (fun earlier bound less => whole earlier bound (by omega)) inRange
        rw [stateAt_succ _ _ _ inRange]
        exact (before.exchange_whole representable
          (limits _ (List.getElem_mem inRange))
          (whole index inRange (Nat.lt_succ_self index))).2 (stays index inside)
  constructor
  · intro paired
    have whole : ∀ index (inRange : index < requests.length),
        (requests[index]).Whole := by
      intro index
      induction index using Nat.strong_induction_on with
      | _ index induction =>
          intro inRange
          by_contra broken
          have before := idle index inRange.le
            (fun earlier bound less => induction earlier less bound) inRange
          have frames := before.respond_broken exec
            (limits _ (List.getElem_mem inRange)) broken
          rw [← PeerConn.produced_exchange, (paired index inRange).1] at frames
          exact absurd frames (by simp)
    intro request member
    obtain ⟨index, inRange, rfl⟩ := List.getElem_of_mem member
    exact whole index inRange
  · intro whole index inRange
    have before := idle index inRange.le
      (fun earlier bound _ => whole _ (List.getElem_mem bound)) inRange
    exact (before.exchange_whole representable
      (limits _ (List.getElem_mem inRange))
      (whole _ (List.getElem_mem inRange))).1

end Connection

section Examples

attribute [local instance] FloatText.rejecting

open LabelledRuns

/-- A peer that executes commands at one time. -/
def peerAt (time : Int) (store : Store) (cmd : Command) : Frame × Store :=
  Executor.execute (fun _ => time) cmd store

def getRequest : PeerRequest := .forward (.make .get [.ascii "k"])

/-- A command as the HTTP handler builds it from two arguments, of which the
first is empty. -/
def namelessRequest : PeerRequest :=
  .forward { name := [], args := [.ascii "x"] }

def storedValue : Store :=
  (Store.new 1).insertNew (.ascii "k") (.string (.ascii "v")) 0

/-- The reply to `GET` is not what the call behind a nameless request reads. -/
theorem nameless_request_shifts_replies :
    let conn := stateAt (PeerConn.step (peerAt 0)) (.dial storedValue)
      [namelessRequest, getRequest] 1
    (getRequest.reply (peerAt 0) conn.state).1 = .bulk (.ascii "v") false ∧
      (conn.exchange (peerAt 0) getRequest).read =
        .ok (.newError "ERR" "unknown command '$1'") :=
  ⟨rfl, rfl⟩

/-- A peer that numbers its replies. -/
def countingPeer (count : Nat) (_ : Command) : Frame × Nat :=
  (.integer (count % 10 : Nat), count + 1)

theorem two_requests_are_served :
    let served := serve countingPeer 20 0 (.ascii "PING\r\nPING\r\nGE")
    served.closed = true ∨ (Parser.next served.unread).1 = .error .waiting :=
  serve_settles (by decide) 0

def recordRequest : PeerRequest :=
  .sendReplication { sourceNodeID := "node-1", slot := 0, term := 1
                     sequence := 1, args := [.ascii "DEL", .ascii "k"] }

/-- An acknowledgement that shares the connection with a forwarded command. -/
theorem acknowledgement_is_paired :
    ((PeerConn.dial 0).step countingPeer getRequest |>.exchange countingPeer
      recordRequest).Paired (.integer 1) :=
  (replies_pair_with_requests_iff
    (fun count _ => by
      change -(2 ^ 63) ≤ ((count % 10 : Nat) : Int) ∧
        ((count % 10 : Nat) : Int) < 2 ^ 63
      omega)
    0 [getRequest, recordRequest] (by decide)
    (fun index inRange => by
      obtain rfl : index = 0 := by
        simp only [List.length_cons, List.length_nil] at inRange
        omega
      rfl)).mpr (by decide) 1 (by decide)

end Examples
end MnemoKV
