import MnemoKV.AdmissionRules
import MnemoKV.CommandScope

/-!
# Admission planning on datasets

What a plan says depends only on the item under the command's first key, and
planning only lets that item lapse.
-/

namespace MnemoKV

namespace Command

/-- The plan of a command as a function of the dataset. -/
def plan [FloatText] (now : Readings) (cmd : Command) (dataset : Dataset) :
    AdmissionPlan :=
  match cmd.verb, cmd.args with
  | some .set, key :: data :: rest =>
      match parseSetOptions (now 0) rest with
      | .error frame => .respond frame
      | .ok options =>
          .forSet key data options (liveAt (now 1) (dataset key))
  | some .set, _ => .respond (wrongArgs "set")
  | some .incr, [key] => .forIncr key (liveAt (now 0) (dataset key))
  | some .incr, _ => .respond (wrongArgs "incr")
  | some .lpush, key :: first :: rest =>
      .forPush key (first :: rest) (liveAt (now 0) (dataset key))
  | some .lpush, _ => .respond (wrongArgs "lpush")
  | some .rpush, key :: first :: rest =>
      .forPush key (first :: rest) (liveAt (now 0) (dataset key))
  | some .rpush, _ => .respond (wrongArgs "rpush")
  | some .zadd, key :: pairs =>
      if pairs.length < 2 ∨ pairs.length % 2 ≠ 0 then .respond (wrongArgs "zadd")
      else
        match parseZAddPairs pairs with
        | .error frame => .respond frame
        | .ok parsed => .forZAdd key parsed (liveAt (now 0) (dataset key))
  | some .zadd, [] => .respond (wrongArgs "zadd")
  | _, _ => .other cmd

end Command

namespace AdmissionPlan

/-- What a plan for a key comes to: an answer, which is an error or nil, or a write. -/
inductive Decides (key : Bytes) (stored : Option Item) : AdmissionPlan → Prop
  | answer {frame : Frame} (plain : frame.isError = true ∨ frame = .nullBulk) :
      Decides key stored (respond frame)
  | write (newSize : Nat) : Decides key stored (write key (sizeOf stored) newSize)

variable {key : Bytes} {stored : Option Item}

theorem decides_forSet {data : Bytes} {options : SetOptions} :
    Decides key stored (forSet key data options stored) := by
  unfold forSet
  split_ifs
  · exact .answer (.inr rfl)
  · exact .answer (.inr rfl)
  · exact .write _

theorem decides_forIncr : Decides key stored (forIncr key stored) := by
  unfold forIncr
  split
  · split
    · split
      · exact .answer (.inl rfl)
      · split_ifs
        · exact .answer (.inl rfl)
        · exact .write _
    · exact .answer (.inl rfl)
  · exact .write _

theorem decides_forPush {values : List Bytes} :
    Decides key stored (forPush key values stored) := by
  unfold forPush
  split
  · split
    · exact .write _
    · exact .answer (.inl rfl)
  · exact .write _

theorem decides_forZAdd {pairs : List (Number × Bytes)} :
    Decides key stored (forZAdd key pairs stored) := by
  unfold forZAdd
  split
  · split
    · exact .write _
    · exact .answer (.inl rfl)
  · exact .write _

end AdmissionPlan

/-- A growing write with its arguments parsed. -/
inductive Growing
  | set (data : Bytes) (options : SetOptions)
  | incr
  | push (left : Bool) (values : List Bytes)
  | zadd (pairs : List (Number × Bytes))

namespace Growing

/-- The reading at which the key is looked up. -/
def index : Growing → Nat
  | set .. => 1
  | _ => 0

def effect (key : Bytes) : Growing → Effect
  | set data options => .set key data options
  | incr => .incr key
  | push left values => .push left key values
  | zadd pairs => .zadd key pairs

def plan (key : Bytes) : Growing → Option Item → AdmissionPlan
  | set data options => .forSet key data options
  | incr => .forIncr key
  | push _ values => .forPush key values
  | zadd pairs => .forZAdd key pairs

/-- The write with other options; they are all that depends on when it is parsed. -/
def withOptions (options : SetOptions) : Growing → Growing
  | set data _ => set data options
  | other => other

theorem decides (request : Growing) (key : Bytes) (stored : Option Item) :
    (request.plan key stored).Decides key stored := by
  cases request with
  | set => exact AdmissionPlan.decides_forSet
  | incr => exact AdmissionPlan.decides_forIncr
  | push => exact AdmissionPlan.decides_forPush
  | zadd => exact AdmissionPlan.decides_forZAdd

end Growing

namespace Command

/-- The commands with admission arithmetic of their own. -/
def isGrowing (cmd : Command) : Bool :=
  match cmd.verb with
  | some .set | some .incr | some .lpush | some .rpush | some .zadd => true
  | _ => false

/-- What a growing command asks for, parsed at these readings. -/
inductive Asks [FloatText] (now : Readings) (cmd : Command) (key : Bytes) : Growing → Prop
  | set {data : Bytes} {rest : List Bytes} {options : SetOptions}
      (named : cmd.verb = some .set) (given : cmd.args = key :: data :: rest)
      (parsed : parseSetOptions (now 0) rest = .ok options) :
      Asks now cmd key (.set data options)
  | incr (named : cmd.verb = some .incr) (given : cmd.args = [key]) : Asks now cmd key .incr
  | push (left : Bool) {first : Bytes} {rest : List Bytes}
      (named : cmd.verb = some (if left then .lpush else .rpush))
      (given : cmd.args = key :: first :: rest) :
      Asks now cmd key (.push left (first :: rest))
  | zadd {args : List Bytes} {pairs : List (Number × Bytes)}
      (named : cmd.verb = some .zadd) (given : cmd.args = key :: args)
      (arity : ¬ (args.length < 2 ∨ args.length % 2 ≠ 0))
      (parsed : parseZAddPairs args = .ok pairs) : Asks now cmd key (.zadd pairs)

theorem Asks.spec [FloatText] {now : Readings} {cmd : Command} {key : Bytes}
    {request : Growing} (asks : cmd.Asks now key request) :
    cmd.extractKeys = [key] ∧
      (∀ store : Store, store.planAdmission now cmd =
        store.planFrom (now request.index) key (request.plan key)) ∧
      (∀ dataset, cmd.plan now dataset =
        request.plan key (liveAt (now request.index) (dataset key))) ∧
      cmd.action now = .onKey key ((request.effect key).lookingAt (now request.index)) := by
  unfold extractKeys Store.planAdmission Command.plan action
  cases asks with
  | set named given parsed =>
      rw [named, given]
      dsimp only [Store.planSet, setAction]
      rw [parsed]
      exact ⟨rfl, fun _ => rfl, fun _ => rfl, rfl⟩
  | incr named given =>
      rw [named, given]
      exact ⟨rfl, fun _ => rfl, fun _ => rfl, rfl⟩
  | push left named given =>
      rw [named, given]
      cases left <;> exact ⟨rfl, fun _ => rfl, fun _ => rfl, rfl⟩
  | zadd named given arity parsed =>
      rw [named, given]
      dsimp only [Store.planZAdd, zaddAction]
      simp only [if_neg arity, parsed]
      exact ⟨rfl, fun _ => rfl, fun _ => rfl, rfl⟩

/-- At other readings the command asks for the same write, up to its options, unless
these are not accepted any more. -/
theorem Asks.again [FloatText] {now : Readings} {cmd : Command} {key : Bytes}
    {request : Growing} (asks : cmd.Asks now key request) (now' : Readings) :
    (∃ options, cmd.Asks now' key (request.withOptions options)) ∨
      ∃ data rest options frame, cmd.verb = some .set ∧ cmd.args = key :: data :: rest ∧
        parseSetOptions (now 0) rest = .ok options ∧
        parseSetOptions (now' 0) rest = .error frame := by
  cases asks with
  | @set data rest options named given parsed =>
      cases reparsed : parseSetOptions (now' 0) rest with
      | error frame => exact .inr ⟨data, rest, options, frame, named, given, parsed, reparsed⟩
      | ok later => exact .inl ⟨later, .set named given reparsed⟩
  | incr named given => exact .inl ⟨⟨0, .always⟩, .incr named given⟩
  | push left named given => exact .inl ⟨⟨0, .always⟩, .push left named given⟩
  | zadd named given arity parsed =>
      exact .inl ⟨⟨0, .always⟩, .zadd named given arity parsed⟩

/-- How a command is planned: not at all, by a refusal that the executor repeats, or by
a look at its key. -/
inductive Planned [FloatText] (now : Readings) (cmd : Command) : Prop
  | other (steady : cmd.isGrowing = false)
      (plans : ∀ store : Store, store.planAdmission now cmd = (.other cmd, store))
      (onDataset : ∀ dataset, cmd.plan now dataset = .other cmd)
  | refused {frame : Frame} (plain : frame.IsPlainError)
      (plans : ∀ store : Store, store.planAdmission now cmd = (.respond frame, store))
      (onDataset : ∀ dataset, cmd.plan now dataset = .respond frame)
      (executes : ∀ store : Store, Executor.execute now cmd store = (frame, store))
  | looks {key : Bytes} {request : Growing} (asks : cmd.Asks now key request)

theorem planned [FloatText] (now : Readings) (cmd : Command) : cmd.Planned now := by
  have other := @Planned.other _ now cmd
  have refused := @Planned.refused _ now cmd
  unfold Store.planAdmission plan at other refused
  unfold isGrowing at other
  unfold Executor.execute at refused
  cases named : cmd.verb with
  | none =>
      rw [named] at other
      exact other rfl (fun _ => rfl) fun _ => rfl
  | some verb =>
      rw [named] at other refused
      cases verb with
      | set =>
          rcases given : cmd.args with _ | ⟨key, _ | ⟨data, rest⟩⟩ <;> rw [given] at refused
          · exact refused ⟨_, rfl⟩ (fun _ => rfl) (fun _ => rfl) fun _ => rfl
          · exact refused ⟨_, rfl⟩ (fun _ => rfl) (fun _ => rfl) fun _ => rfl
          · dsimp only [Store.planSet, Executor.cmdSet] at refused
            cases parsed : parseSetOptions (now 0) rest with
            | error frame =>
                rw [parsed] at refused
                exact refused (parseSetOptionsFrom_error parsed) (fun _ => rfl) (fun _ => rfl)
                  fun _ => rfl
            | ok options => exact .looks (.set named given parsed)
      | incr =>
          rcases given : cmd.args with _ | ⟨key, _ | ⟨extra, rest⟩⟩ <;> rw [given] at refused
          · exact refused ⟨_, rfl⟩ (fun _ => rfl) (fun _ => rfl) fun _ => rfl
          · exact .looks (.incr named given)
          · exact refused ⟨_, rfl⟩ (fun _ => rfl) (fun _ => rfl) fun _ => rfl
      | lpush | rpush =>
          rcases given : cmd.args with _ | ⟨key, _ | ⟨first, rest⟩⟩ <;> rw [given] at refused
          · exact refused ⟨_, rfl⟩ (fun _ => rfl) (fun _ => rfl) fun _ => rfl
          · exact refused ⟨_, rfl⟩ (fun _ => rfl) (fun _ => rfl) fun _ => rfl
          · first
              | exact .looks (.push true named given)
              | exact .looks (.push false named given)
      | zadd =>
          rcases given : cmd.args with _ | ⟨key, args⟩ <;> rw [given] at refused
          · exact refused ⟨_, rfl⟩ (fun _ => rfl) (fun _ => rfl) fun _ => rfl
          · dsimp only [Store.planZAdd, Executor.cmdZAdd] at refused
            split_ifs at refused with arity
            · exact refused ⟨_, rfl⟩ (fun _ => rfl) (fun _ => rfl) fun _ => rfl
            · cases parsed : parseZAddPairs args with
              | error frame =>
                  rw [parsed] at refused
                  exact refused (parseZAddPairs_error parsed) (fun _ => rfl) (fun _ => rfl)
                    fun _ => rfl
              | ok pairs => exact .looks (.zadd named given arity parsed)
      | _ => exact other rfl (fun _ => rfl) fun _ => rfl

end Command

namespace Store

theorem planFrom_spec (store : Store) {moments : Int → Prop} {now : Int}
    (allowed : moments now) (key : Bytes) (plan : Option Item → AdmissionPlan) :
    (store.planFrom now key plan).1 = plan (liveAt now (store.dataset key)) ∧
      Lapsed moments store.dataset (store.planFrom now key plan).2.dataset := by
  obtain ⟨dataset, found⟩ := store.dataset_get now key false
  refine ⟨congrArg plan found, ?_⟩
  change Lapsed moments store.dataset (store.get now key false).2.dataset
  rw [dataset]
  exact Lapsed.update allowed _ _

/-- Planning computes the plan of the dataset and lets one item lapse. -/
theorem planAdmission_spec [FloatText] (store : Store) (now : Readings)
    (cmd : Command) :
    (store.planAdmission now cmd).1 = cmd.plan now store.dataset ∧
      Lapsed now.At store.dataset (store.planAdmission now cmd).2.dataset := by
  rcases cmd.planned now with ⟨-, plans, onDataset⟩ | ⟨-, plans, onDataset⟩ | ⟨asks⟩
  · rw [plans, onDataset]
    exact ⟨rfl, .refl _ _⟩
  · rw [plans, onDataset]
    exact ⟨rfl, .refl _ _⟩
  · obtain ⟨-, plans, onDataset, -⟩ := asks.spec
    rw [plans, onDataset]
    exact store.planFrom_spec ⟨_, rfl⟩ _ _

end Store

/-- A plan that grows is one for its key. -/
def AdmissionPlan.GrowsOnly (key : Bytes) (plan : AdmissionPlan) : Prop :=
  0 < plan.requiredGrowth → plan.key = key

theorem Command.plan_growsOnly [FloatText] (now : Readings) (cmd : Command)
    (dataset : Dataset) :
    (cmd.plan now dataset).GrowsOnly cmd.extractPrimaryKey := by
  intro grows
  rcases cmd.planned now with ⟨-, -, onDataset⟩ | ⟨-, -, onDataset, -⟩ | @⟨key, request, asks⟩
  · rw [onDataset] at grows
    exact absurd grows (Nat.lt_irrefl 0)
  · rw [onDataset] at grows
    exact absurd grows (Nat.lt_irrefl 0)
  · obtain ⟨keys, -, onDataset, -⟩ := asks.spec
    have decided := request.decides key (liveAt (now request.index) (dataset key))
    rw [← onDataset] at decided
    generalize cmd.plan now dataset = plan at decided grows ⊢
    cases decided with
    | answer => exact absurd grows (Nat.lt_irrefl 0)
    | write => rw [extractPrimaryKey, keys]; rfl

end MnemoKV
