import MnemoKV.Datasets

/-!
# Laws of actions

An action is confined to its keys and depends on nothing else; reading a
dataset, or failing on it, only lets expired items lapse; and commands without
a lifetime keep a dataset without expiries.
-/

namespace MnemoKV

namespace Action

/-- Not the action of a flush. -/
def Confined : Action → Prop
  | clear => False
  | _ => True

theorem removeAll_apply (keys : List Bytes) (count : Int) (dataset : Dataset)
    (key : Bytes) :
    (keys.foldl removeStep (count, dataset)).2 key =
      if key ∈ keys then none else dataset key := by
  induction keys generalizing count dataset with
  | nil => simp
  | cons first keys induction =>
      rw [List.foldl_cons, removeStep, induction]
      by_cases later : key ∈ keys
      · simp [later]
      · by_cases same : key = first
        · simp [same]
        · simp [later, same]

theorem perform_of_not_mem {action : Action} (confined : action.Confined)
    {key : Bytes} (absent : key ∉ action.keys) (dataset : Dataset) :
    (action.perform dataset).2 key = dataset key := by
  cases action with
  | reply frame => rfl
  | onKey own effect =>
      have distinct : key ≠ own := by simpa [keys] using absent
      simp [perform, distinct]
  | removeAll removed =>
      have kept : key ∉ removed := absent
      simp [perform, removeAll_apply, kept]
  | countLive probes =>
      suffices unchanged : ∀ (probes : List (Bytes × Int)) (count : Int)
          (dataset : Dataset), key ∉ probes.map Prod.fst →
          (probes.foldl probeStep (count, dataset)).2 key = dataset key from
        unchanged probes 0 dataset absent
      intro probes
      induction probes with
      | nil => exact fun _ _ _ => rfl
      | cons probe probes induction =>
          intro count dataset absent
          simp only [List.map_cons, List.mem_cons, not_or] at absent
          rw [List.foldl_cons, probeStep, induction _ _ absent.2,
            Function.update_of_ne absent.1]
  | clear => exact absurd confined id

end Action

/-- Some items of the first dataset may have lapsed at one of the moments. -/
def Lapsed (moments : Int → Prop) (before after : Dataset) : Prop :=
  ∀ key, after key = before key ∨
    ∃ moment, moments moment ∧ after key = liveAt moment (before key)

/-- The moments of a command's readings. -/
def Readings.At (now : Readings) (moment : Int) : Prop := ∃ index, now index = moment

namespace Lapsed

theorem refl (moments : Int → Prop) (dataset : Dataset) :
    Lapsed moments dataset dataset :=
  fun _ => .inl rfl

theorem update {moments : Int → Prop} {moment : Int} (allowed : moments moment)
    (dataset : Dataset) (key : Bytes) :
    Lapsed moments dataset
      (Function.update dataset key (liveAt moment (dataset key))) := by
  intro other
  by_cases same : other = key
  · subst same
    exact .inr ⟨moment, allowed, Function.update_self ..⟩
  · exact .inl (Function.update_of_ne same _ _)

theorem trans {moments : Int → Prop} {first second third : Dataset}
    (earlier : Lapsed moments first second)
    (later : Lapsed moments second third) : Lapsed moments first third := by
  intro key
  rcases later key with same | ⟨moment, allowed, lapsed⟩
  · rw [same]
    exact earlier key
  · rcases earlier key with same | ⟨previous, allowedBefore, lapsedBefore⟩
    · exact .inr ⟨moment, allowed, by rw [lapsed, same]⟩
    · cases stored : first key with
      | none => exact .inl (by simp [lapsed, lapsedBefore, stored])
      | some item =>
          rw [stored, liveAt_some] at lapsedBefore
          split_ifs at lapsedBefore with expired
          · refine .inr ⟨previous, allowedBefore, ?_⟩
            rw [lapsed, lapsedBefore, liveAt_some, if_pos expired, liveAt_none]
          · exact .inr ⟨moment, allowed, by rw [lapsed, lapsedBefore]⟩

/-- With a constant clock there is one moment. -/
theorem at_const {moment : Int} {before after : Dataset}
    (lapsed : Lapsed (Readings.At fun _ => moment) before after) :
    Lapsed (· = moment) before after := by
  intro key
  rcases lapsed key with same | ⟨reading, ⟨index, rfl⟩, same⟩
  · exact .inl same
  · exact .inr ⟨moment, rfl, same⟩

theorem absent {moments : Int → Prop} {before after : Dataset}
    (lapsed : Lapsed moments before after) {key : Bytes}
    (missing : before key = none) : after key = none := by
  rcases lapsed key with same | ⟨moment, -, same⟩
  · exact same.trans missing
  · rw [same, missing, liveAt_none]

end Lapsed

/-- No item carries an expiry. -/
def Persistent (dataset : Dataset) : Prop :=
  ∀ key item, dataset key = some item → item.expiresAtNs = 0

theorem liveAt_of_persistent {stored : Option Item}
    (persistent : ∀ item, stored = some item → item.expiresAtNs = 0)
    (now : Int) : liveAt now stored = stored := by
  cases stored with
  | none => rfl
  | some item =>
      have lasting : item.isExpired now = false := by
        simp [Item.isExpired, persistent item rfl]
      rw [liveAt_some, lasting]
      rfl

theorem Lapsed.eq_of_persistent {moments : Int → Prop} {before after : Dataset}
    (lapsed : Lapsed moments before after) (persistent : Persistent before) :
    after = before := by
  funext key
  rcases lapsed key with same | ⟨moment, -, same⟩
  · exact same
  · rw [same, liveAt_of_persistent (persistent key)]

namespace Effect

/-- An effect whose error replies leave the item as it was seen. -/
def KeepsOnError (effect : Effect) : Prop :=
  ∀ stored, (effect stored).1.isError = true → (effect stored).2 = stored

theorem keepsOnError_set (key data : Bytes) (options : SetOptions) :
    KeepsOnError (set key data options) := by
  rintro (_ | item) failed <;> simp only [set] at failed ⊢ <;>
    split_ifs at failed <;> simp_all [Frame.isError, Frame.ok, Frame.nullBulk]

theorem keepsOnError_incr (key : Bytes) : KeepsOnError (incr key) := by
  rintro (_ | item) failed
  · simp [incr, Frame.isError] at failed
  · simp only [incr] at failed ⊢
    split at failed
    · split at failed
      · simp_all
      · split_ifs at failed with overflow
        · simp_all
        · simp [Frame.isError] at failed
    · simp_all

theorem keepsOnError_push (left : Bool) (key : Bytes) (values : List Bytes) :
    KeepsOnError (push left key values) := by
  rintro (_ | item) failed
  · simp [push, Frame.isError] at failed
  · simp only [push] at failed ⊢
    split at failed
    · simp [Frame.isError] at failed
    · simp_all

theorem keepsOnError_pop (left : Bool) (key : Bytes) :
    KeepsOnError (pop left key) := by
  rintro (_ | item) failed
  · rfl
  · simp only [pop] at failed ⊢
    split at failed
    · split at failed
      · simp_all
      · simp [Frame.isError, Frame.bulkBytes] at failed
    · simp_all

theorem keepsOnError_zadd (key : Bytes) (pairs : List (Number × Bytes)) :
    KeepsOnError (zadd key pairs) := by
  rintro (_ | item) failed
  · simp [zadd, Frame.isError] at failed
  · simp only [zadd] at failed ⊢
    split at failed
    · simp [Frame.isError] at failed
    · simp_all

theorem keepsOnError_expireAt (deadline : Int) :
    KeepsOnError (expireAt deadline) := by
  rintro (_ | item) failed
  · rfl
  · simp [expireAt, Frame.isError] at failed

end Effect

namespace Action

/-- Whatever it answers, the action only lets items lapse. -/
def Lapses (moments : Int → Prop) (action : Action) : Prop :=
  ∀ dataset, Lapsed moments dataset (action.perform dataset).2

/-- When it answers with an error, the action only lets items lapse. -/
def LapsesOnError (moments : Int → Prop) (action : Action) : Prop :=
  ∀ dataset, (action.perform dataset).1.isError = true →
    Lapsed moments dataset (action.perform dataset).2

theorem lapses_reply (moments : Int → Prop) (frame : Frame) :
    (reply frame).Lapses moments :=
  fun dataset => Lapsed.refl moments dataset

theorem lapses_reading {moments : Int → Prop} {moment : Int}
    (allowed : moments moment) (key : Bytes) (answer : Option Item → Frame) :
    (onKey key ((Effect.reading answer).lookingAt moment)).Lapses moments :=
  fun dataset => Lapsed.update allowed dataset key

theorem lapses_countLive {moments : Int → Prop} (probes : List (Bytes × Int))
    (allowed : ∀ probe ∈ probes, moments probe.2) :
    (countLive probes).Lapses moments := by
  suffices loop : ∀ (probes : List (Bytes × Int)) (count : Int)
      (dataset : Dataset), (∀ probe ∈ probes, moments probe.2) →
      Lapsed moments dataset (probes.foldl probeStep (count, dataset)).2 from
    fun dataset => loop probes 0 dataset allowed
  intro probes
  induction probes with
  | nil => exact fun _ dataset _ => Lapsed.refl moments dataset
  | cons probe probes induction =>
      intro count dataset allowed
      have first := Lapsed.update (allowed probe List.mem_cons_self) dataset
        probe.1
      exact first.trans (induction _ _ fun other member =>
        allowed other (List.mem_cons_of_mem _ member))

theorem Lapses.onError {moments : Int → Prop} {action : Action}
    (lapses : action.Lapses moments) : action.LapsesOnError moments :=
  fun dataset _ => lapses dataset

theorem lapsesOnError_onKey {moments : Int → Prop} {moment : Int}
    (allowed : moments moment) (key : Bytes) {effect : Effect}
    (keeps : effect.KeepsOnError) :
    (onKey key (effect.lookingAt moment)).LapsesOnError moments := by
  intro dataset failed
  have same : (effect.lookingAt moment (dataset key)).2 =
      liveAt moment (dataset key) := keeps _ failed
  simp only [perform, same]
  exact Lapsed.update allowed dataset key

end Action

/-! ### What commands stand for -/

/-- An error without a code of its own. -/
def Frame.IsPlainError (frame : Frame) : Prop :=
  ∃ message, frame = .error (Bytes.ascii "ERR") message

theorem Frame.IsPlainError.isError {frame : Frame} (plain : frame.IsPlainError) :
    frame.isError = true := by
  obtain ⟨message, rfl⟩ := plain
  rfl

theorem parseExpiry_error {amount : Bytes} {unitNanos now : Int} {frame : Frame}
    (failed : parseExpiry amount unitNanos now = .error frame) :
    frame.IsPlainError := by
  unfold parseExpiry at failed
  split at failed
  · cases failed
    exact ⟨_, rfl⟩
  · split at failed <;> cases failed
    exact ⟨_, rfl⟩

theorem parseSetOptionsFrom_error {now : Int} {args : List Bytes}
    {options : SetOptions} {expiring : Bool} {frame : Frame}
    (failed : parseSetOptionsFrom now options expiring args = .error frame) :
    frame.IsPlainError := by
  fun_induction parseSetOptionsFrom now options expiring args with
  | case1 => cases failed
  | case2 => cases failed; exact ⟨_, rfl⟩
  | case3 => cases failed; exact ⟨_, rfl⟩
  | case4 options expiring option expiry amount rest first reason parsed =>
      cases failed
      exact parseExpiry_error parsed
  | case5 options expiring option expiry amount rest first deadline parsed
      induction => exact induction failed
  | case6 => cases failed; exact ⟨_, rfl⟩
  | case7 _ _ _ _ _ _ _ induction => exact induction failed
  | case8 => cases failed; exact ⟨_, rfl⟩
  | case9 _ _ _ _ _ _ _ _ induction => exact induction failed
  | case10 => cases failed; exact ⟨_, rfl⟩

theorem parseZAddPairs_error [FloatText] {args : List Bytes} {frame : Frame}
    (failed : parseZAddPairs args = .error frame) : frame.IsPlainError := by
  fun_induction parseZAddPairs args with
  | case1 => cases failed
  | case2 => cases failed; exact ⟨_, rfl⟩
  | case3 => cases failed; exact ⟨_, rfl⟩
  | case4 => cases failed; exact ⟨_, rfl⟩
  | case5 score member rest bits parsed number induction =>
      cases tail : parseZAddPairs rest with
      | error inner =>
          rw [tail] at failed
          cases failed
          exact induction tail
      | ok pairs =>
          rw [tail] at failed
          cases failed

namespace Command

/-- Commands that the cluster coordinator refuses. -/
def isFlush (cmd : Command) : Bool :=
  cmd.verb == some .flushdb || cmd.verb == some .flushall

/-- What a write command does to its key, and the reading at which it looks it up. -/
inductive Mutates (now : Readings) (cmd : Command) (key : Bytes) : Nat → Effect → Prop
  | set {data : Bytes} {rest : List Bytes} {options : SetOptions}
      (named : cmd.verb = some .set) (given : cmd.args = key :: data :: rest)
      (parsed : parseSetOptions (now 0) rest = .ok options) :
      Mutates now cmd key 1 (.set key data options)
  | expireAt (named : cmd.verb = some .expire) (deadline : Int) :
      Mutates now cmd key 1 (.expireAt deadline)
  | incr (named : cmd.verb = some .incr) : Mutates now cmd key 0 (.incr key)
  | push {left : Bool} (named : cmd.verb = some (if left then .lpush else .rpush))
      (values : List Bytes) : Mutates now cmd key 0 (.push left key values)
  | pop {left : Bool} (named : cmd.verb = some (if left then .lpop else .rpop)) :
      Mutates now cmd key 0 (.pop left key)
  | zadd (named : cmd.verb = some .zadd) (pairs : List (Number × Bytes)) :
      Mutates now cmd key 0 (.zadd key pairs)

/-- The actions that a command may stand for. -/
inductive Acts (now : Readings) (cmd : Command) : Action → Prop
  | replies (frame : Frame) (refused : cmd.isWriteCommand = true → frame.IsPlainError) :
      Acts now cmd (.reply frame)
  | clears (flush : cmd.isFlush = true) : Acts now cmd .clear
  | removes (named : cmd.verb = some .del) (some : cmd.args ≠ []) :
      Acts now cmd (.removeAll cmd.args)
  | counts (named : cmd.verb = some .existsKeys) :
      Acts now cmd (.countLive (cmd.args.zipIdx.map fun indexed => (indexed.1, now indexed.2)))
  | drops {key amount : Bytes} {seconds : Int} (named : cmd.verb = some .expire)
      (given : cmd.args = [key, amount]) (parsed : parseInt64 amount = some seconds)
      (past : seconds ≤ 0) : Acts now cmd (.onKey key .remove)
  | reads {key : Bytes} (keys : cmd.extractKeys = [key])
      (isRead : cmd.isWriteCommand = false) (answer : Option Item → Frame) :
      Acts now cmd (.onKey key ((Effect.reading answer).lookingAt (now 0)))
  | writes {key : Bytes} {index : Nat} {effect : Effect} (keys : cmd.extractKeys = [key])
      (mutates : cmd.Mutates now key index effect) :
      Acts now cmd (.onKey key (effect.lookingAt (now index)))

theorem Mutates.isWriteCommand {now : Readings} {cmd : Command} {key : Bytes} {index : Nat}
    {effect : Effect} (mutates : cmd.Mutates now key index effect) :
    cmd.isWriteCommand = true := by
  unfold Command.isWriteCommand
  cases mutates with
  | push named | pop named => rw [named]; split_ifs <;> rfl
  | set named | expireAt named | incr named | zadd named => rw [named]; rfl

theorem Mutates.keepsOnError {now : Readings} {cmd : Command} {key : Bytes} {index : Nat}
    {effect : Effect} (mutates : cmd.Mutates now key index effect) : effect.KeepsOnError := by
  cases mutates with
  | set => exact Effect.keepsOnError_set _ _ _
  | expireAt => exact Effect.keepsOnError_expireAt _
  | incr => exact Effect.keepsOnError_incr _
  | push => exact Effect.keepsOnError_push _ _ _
  | pop => exact Effect.keepsOnError_pop _ _
  | zadd => exact Effect.keepsOnError_zadd _ _

variable (now : Readings) (cmd : Command)

theorem acts [FloatText] : cmd.Acts now (cmd.action now) := by
  have refused : ∀ {frame : Frame}, frame.IsPlainError → cmd.Acts now (.reply frame) :=
    fun plain => .replies _ fun _ => plain
  have answered : ∀ {frame}, cmd.isWriteCommand = false → cmd.Acts now (.reply frame) :=
    fun isRead => .replies _ fun write => by rw [isRead] at write; cases write
  have reading : ∀ {key rest} answer, cmd.args = key :: rest →
      cmd.extractKeys = cmd.args.take 1 → cmd.isWriteCommand = false →
      cmd.Acts now (.onKey key ((Effect.reading answer).lookingAt (now 0))) :=
    fun answer given first isRead => .reads (by rw [first, given]; rfl) isRead answer
  have writing : ∀ {key rest index effect}, cmd.args = key :: rest →
      cmd.extractKeys = cmd.args.take 1 → cmd.Mutates now key index effect →
      cmd.Acts now (.onKey key (effect.lookingAt (now index))) :=
    fun given first mutates => .writes (by rw [first, given]; rfl) mutates
  unfold extractKeys isWriteCommand at reading
  unfold isWriteCommand at answered
  unfold extractKeys at writing
  unfold action
  cases named : cmd.verb with
  | none => exact refused ⟨_, rfl⟩
  | some verb =>
      rw [named] at answered reading writing
      cases verb with
      | ping => dsimp only [pingAction]; split <;> exact answered rfl
      | echo => dsimp only [echoAction]; split <;> exact answered rfl
      | quit => dsimp only; split_ifs <;> exact answered rfl
      | command | client | hello => exact answered rfl
      | replicate | clusterMeta | clusterApply | clusterSnapshot => exact answered rfl
      | flushdb | flushall =>
          dsimp only [flushAction]
          split_ifs
          · exact refused ⟨_, rfl⟩
          · exact .clears (by simp [isFlush, named])
      | del =>
          dsimp only [delAction]
          split_ifs with arity
          · exact refused ⟨_, rfl⟩
          · exact .removes named fun none => arity (by simp [none])
      | existsKeys =>
          dsimp only [existsAction]
          split_ifs
          · exact refused ⟨_, rfl⟩
          · exact .counts named
      | get | ttl | llen | zcard | zscore =>
          dsimp only [readAction, zscoreAction]
          split
          · exact reading _ ‹_› rfl rfl
          · exact refused ⟨_, rfl⟩
      | zrange =>
          dsimp only [zrangeAction]
          split
          · split
            · exact refused ⟨_, rfl⟩
            · split
              · split
                · exact refused ⟨_, rfl⟩
                · exact reading _ ‹_› rfl rfl
              · exact refused ⟨_, rfl⟩
          · exact refused ⟨_, rfl⟩
      | incr =>
          dsimp only [incrAction]
          split
          · exact writing ‹_› rfl (.incr named)
          · exact refused ⟨_, rfl⟩
      | lpush | rpush =>
          dsimp only [pushAction]
          split
          · exact writing ‹_› rfl (.push named _)
          · exact refused ⟨_, rfl⟩
      | lpop | rpop =>
          dsimp only [popAction]
          split
          · exact writing ‹_› rfl (.pop named)
          · exact refused ⟨_, rfl⟩
      | zadd =>
          dsimp only [zaddAction]
          split
          · split_ifs
            · exact refused ⟨_, rfl⟩
            · split
              · exact refused (parseZAddPairs_error ‹_›)
              · exact writing ‹_› rfl (.zadd named _)
          · exact refused ⟨_, rfl⟩
      | set =>
          dsimp only [setAction]
          split
          · split
            · exact refused (parseSetOptionsFrom_error ‹_›)
            · exact writing ‹_› rfl (.set named ‹_› ‹_›)
          · exact refused ⟨_, rfl⟩
      | expire =>
          dsimp only [expireAction]
          split
          · split
            · exact refused ⟨_, rfl⟩
            · split_ifs
              · exact .drops named ‹_› ‹_› ‹_›
              · split
                · exact refused ⟨_, rfl⟩
                · exact writing ‹_› rfl (.expireAt named _)
          · exact refused ⟨_, rfl⟩

theorem isWriteCommand_of_isFlush {cmd : Command} (flush : cmd.isFlush = true) :
    cmd.isWriteCommand = true := by
  simp only [isFlush, Bool.or_eq_true, beq_iff_eq] at flush
  rcases flush with named | named <;> rw [isWriteCommand, named] <;> rfl

theorem at_of_mem_probes {probe : Bytes × Int} (member : probe ∈
    cmd.args.zipIdx.map fun indexed => (indexed.1, now indexed.2)) : now.At probe.2 := by
  obtain ⟨indexed, -, rfl⟩ := List.mem_map.mp member
  exact ⟨indexed.2, rfl⟩

theorem lapses_counts : (Action.countLive
    (cmd.args.zipIdx.map fun indexed => (indexed.1, now indexed.2))).Lapses now.At :=
  Action.lapses_countLive _ fun _ => at_of_mem_probes now cmd

/-- A read lets items lapse and changes nothing else. -/
theorem action_lapses [FloatText] (isRead : cmd.isWriteCommand = false) :
    (cmd.action now).Lapses now.At := by
  have acts := cmd.acts now
  generalize cmd.action now = action at acts ⊢
  cases acts with
  | replies frame => exact Action.lapses_reply _ _
  | clears flush => simp [isWriteCommand_of_isFlush flush] at isRead
  | removes named | drops named => simp [isWriteCommand, named, Verb.isWrite] at isRead
  | counts => exact lapses_counts now cmd
  | reads keys isRead answer => exact Action.lapses_reading ⟨0, rfl⟩ _ _
  | writes keys mutates => simp [mutates.isWriteCommand] at isRead

/-- A command that fails lets items lapse and changes nothing else. -/
theorem action_lapsesOnError [FloatText] :
    (cmd.action now).LapsesOnError now.At := by
  have acts := cmd.acts now
  generalize cmd.action now = action at acts ⊢
  cases acts with
  | replies frame => exact (Action.lapses_reply _ _).onError
  | clears | removes | counts | drops =>
      intro dataset failed
      cases failed
  | reads keys isRead answer => exact (Action.lapses_reading ⟨0, rfl⟩ _ _).onError
  | writes keys mutates =>
      exact Action.lapsesOnError_onKey ⟨_, rfl⟩ _ mutates.keepsOnError

end Command
end MnemoKV
