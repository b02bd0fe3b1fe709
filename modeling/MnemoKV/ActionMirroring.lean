import MnemoKV.ActionLaws

/-!
# Running one command on two datasets

A replica executes the same command as its leader, earlier.  Its item mirrors
the leader's when both hold the same value and either neither expires or the
replica's expires no later.  Writes keep items mirrored as long as both sides
see the key, or both miss it, and every lifetime in the command fits the clock
range on both sides or on neither.
-/

namespace MnemoKV

/-- Deadlines of a leader and its replica; zero means none. -/
structure DeadlineMirrors (leader replica : Int) : Prop where
  lasting : leader = 0 ↔ replica = 0
  earlier : replica ≤ leader

theorem DeadlineMirrors.refl (deadline : Int) :
    DeadlineMirrors deadline deadline :=
  ⟨Iff.rfl, Int.le_refl _⟩

/-- Equal but for a deadline that the replica has computed by its own clock. -/
structure Item.Mirrors (leader replica : Item) : Prop where
  value : leader.value = replica.value
  size : leader.sizeBytes = replica.sizeBytes
  deadline : DeadlineMirrors leader.expiresAtNs replica.expiresAtNs

theorem Item.Mirrors.withValue {leader replica : Item}
    (mirrors : leader.Mirrors replica) (key : Bytes) (value : Value) :
    (leader.withValue key value).Mirrors (replica.withValue key value) :=
  ⟨rfl, rfl, mirrors.deadline⟩

theorem Item.mirrors_create (key : Bytes) (value : Value) {leader replica : Int}
    (deadline : DeadlineMirrors leader replica) :
    (Item.create key value leader).Mirrors (Item.create key value replica) :=
  ⟨rfl, rfl, deadline⟩

def Mirrored : Option Item → Option Item → Prop
  | some leader, some replica => leader.Mirrors replica
  | none, none => True
  | _, _ => False

theorem Mirrored.refl (stored : Option Item) : Mirrored stored stored := by
  cases stored with
  | none => trivial
  | some item => exact ⟨rfl, rfl, DeadlineMirrors.refl _⟩

theorem Mirrored.eq_of_persistent {leader replica : Option Item}
    (mirrored : Mirrored leader replica)
    (lasting : ∀ item, leader = some item → item.expiresAtNs = 0) :
    leader = replica := by
  cases leader with
  | none =>
      cases replica with
      | none => rfl
      | some _ => exact absurd mirrored id
  | some leaderItem =>
      cases replica with
      | none => exact absurd mirrored id
      | some replicaItem =>
          obtain ⟨value, size, deadline⟩ := mirrored
          have zero := lasting leaderItem rfl
          have zero' := deadline.lasting.mp zero
          cases leaderItem
          cases replicaItem
          simp_all

namespace Effect

/-- Two effects that answer alike and keep mirrored items mirrored. -/
def Mirrors (leader replica : Effect) : Prop :=
  ∀ stored stored', Mirrored stored stored' →
    (leader stored).1.isError = (replica stored').1.isError ∧
      Mirrored (leader stored).2 (replica stored').2

/-- Case analysis on a mirrored pair. -/
theorem mirrors_of {leader replica : Effect}
    (missing : (leader none).1.isError = (replica none).1.isError ∧
      Mirrored (leader none).2 (replica none).2)
    (present : ∀ item item', item.Mirrors item' →
      (leader (some item)).1.isError = (replica (some item')).1.isError ∧
        Mirrored (leader (some item)).2 (replica (some item')).2) :
    Mirrors leader replica := by
  rintro (_ | item) (_ | item') mirrored
  · exact missing
  · exact absurd mirrored id
  · exact absurd mirrored id
  · exact present item item' mirrored

theorem set_mirrors (key data : Bytes) {options options' : SetOptions}
    (condition : options.condition = options'.condition)
    (deadline : DeadlineMirrors options.expiresAtNs options'.expiresAtNs) :
    Mirrors (set key data options) (set key data options') := by
  have created := Item.mirrors_create key (.string data) deadline
  refine mirrors_of ?_ ?_
  · simp only [set, ← condition]
    split_ifs
    · exact ⟨rfl, trivial⟩
    · exact ⟨rfl, created⟩
  · intro item item' mirrors
    simp only [set, ← condition]
    split_ifs
    · exact ⟨rfl, mirrors⟩
    · exact ⟨rfl, created⟩

theorem incr_mirrors (key : Bytes) : Mirrors (incr key) (incr key) := by
  refine mirrors_of ⟨rfl, Mirrored.refl _⟩ ?_
  intro item item' mirrors
  simp only [incr, ← mirrors.value]
  split
  · split
    · exact ⟨rfl, mirrors⟩
    · split_ifs
      · exact ⟨rfl, mirrors⟩
      · exact ⟨rfl, mirrors.withValue _ _⟩
  · exact ⟨rfl, mirrors⟩

theorem push_mirrors (left : Bool) (key : Bytes) (values : List Bytes) :
    Mirrors (push left key values) (push left key values) := by
  refine mirrors_of ⟨rfl, Mirrored.refl _⟩ ?_
  intro item item' mirrors
  simp only [push, ← mirrors.value]
  split
  · exact ⟨rfl, mirrors.withValue _ _⟩
  · exact ⟨rfl, mirrors⟩

theorem pop_mirrors (left : Bool) (key : Bytes) :
    Mirrors (pop left key) (pop left key) := by
  refine mirrors_of ⟨rfl, Mirrored.refl _⟩ ?_
  intro item item' mirrors
  simp only [pop, ← mirrors.value]
  split
  · split
    · exact ⟨rfl, mirrors⟩
    · split_ifs
      · exact ⟨rfl, trivial⟩
      · exact ⟨rfl, mirrors.withValue _ _⟩
  · exact ⟨rfl, mirrors⟩

theorem zadd_mirrors (key : Bytes) (pairs : List (Number × Bytes)) :
    Mirrors (zadd key pairs) (zadd key pairs) := by
  refine mirrors_of ⟨rfl, Mirrored.refl _⟩ ?_
  intro item item' mirrors
  simp only [zadd, ← mirrors.value]
  split
  · exact ⟨rfl, mirrors.withValue _ _⟩
  · exact ⟨rfl, mirrors⟩

theorem expireAt_mirrors {deadline deadline' : Int}
    (mirrors : DeadlineMirrors deadline deadline') :
    Mirrors (expireAt deadline) (expireAt deadline') :=
  mirrors_of ⟨rfl, trivial⟩ fun _ _ items =>
    ⟨rfl, ⟨items.value, items.size, mirrors⟩⟩

end Effect

/-! ### Lifetimes written in a command -/

/-- The lifetimes, in nanoseconds, that a `SET` option list asks for. -/
def setLifetimes : List Bytes → List Int
  | [] => []
  | option :: rest =>
      if Bytes.upper option = Bytes.ascii "EX" ∨
          Bytes.upper option = Bytes.ascii "PX" then
        match rest with
        | [] => []
        | amount :: rest =>
            ((parseInt64 amount).map fun value : Int => value *
              (if Bytes.upper option = Bytes.ascii "EX" then 1000000000
                else 1000000)).toList ++ setLifetimes rest
      else setLifetimes rest

def expireLifetimes : List Bytes → List Int
  | [_, amount] =>
      ((parseInt64 amount).map fun value : Int => value * 1000000000).toList
  | _ => []

def Command.lifetimes (cmd : Command) : List Int :=
  match cmd.verb with
  | some .set => setLifetimes (cmd.args.drop 2)
  | some .expire => expireLifetimes cmd.args
  | _ => []

/-- Adding a lifetime to either clock stays in range, or leaves it, on both
sides; the replica reads its clock first. -/
structure LifetimeFits (leader replica lifetime : Int) : Prop where
  epoch : 0 ≤ replica
  ordered : replica ≤ leader
  alike : leader ≤ maxInt64 - lifetime ↔ replica ≤ maxInt64 - lifetime

/-- The lifetime as `expirationFromNow` sees it on both sides. -/
theorem expirationFromNow_mirrors {value unitNanos leader replica : Int}
    (positive : 0 < unitNanos)
    (fits : LifetimeFits leader replica (value * unitNanos)) :
    (expirationFromNow value unitNanos leader = none ∧
      expirationFromNow value unitNanos replica = none) ∨
    ∃ deadline deadline',
      expirationFromNow value unitNanos leader = some deadline ∧
      expirationFromNow value unitNanos replica = some deadline' ∧
      DeadlineMirrors deadline deadline' := by
  unfold expirationFromNow
  by_cases invalid : value ≤ 0 ∨ value > maxInt64 / unitNanos
  · simp [invalid]
  · simp only [if_neg invalid]
    have lifetime : 0 < value * unitNanos :=
      Int.mul_pos (by omega) positive
    obtain ⟨epoch, ordered, alike⟩ := fits
    by_cases late : leader > maxInt64 - value * unitNanos
    · have late' : replica > maxInt64 - value * unitNanos := by omega
      simp [late, late']
    · have early : ¬ replica > maxInt64 - value * unitNanos := by omega
      simp only [if_neg late, if_neg early]
      exact .inr ⟨_, _, rfl, rfl, ⟨by omega, by omega⟩⟩

/-- Both option lists are rejected, or accepted with one condition and
mirrored deadlines. -/
def OptionsMirror : Except Frame SetOptions → Except Frame SetOptions → Prop
  | .ok leader, .ok replica =>
      leader.condition = replica.condition ∧
        DeadlineMirrors leader.expiresAtNs replica.expiresAtNs
  | .error leader, .error replica =>
      leader.isError = true ∧ replica.isError = true
  | _, _ => False

theorem parseExpiry_mirrors {amount : Bytes} {unitNanos leader replica : Int}
    (positive : 0 < unitNanos)
    (fits : ∀ value, parseInt64 amount = some value →
      LifetimeFits leader replica (value * unitNanos)) :
    (∃ failure failure',
      parseExpiry amount unitNanos leader = .error failure ∧
      parseExpiry amount unitNanos replica = .error failure' ∧
      failure.isError = true ∧ failure'.isError = true) ∨
    ∃ deadline deadline',
      parseExpiry amount unitNanos leader = .ok deadline ∧
      parseExpiry amount unitNanos replica = .ok deadline' ∧
      DeadlineMirrors deadline deadline' := by
  unfold parseExpiry
  cases parsed : parseInt64 amount with
  | none => exact .inl ⟨_, _, rfl, rfl, rfl, rfl⟩
  | some value =>
      rcases expirationFromNow_mirrors positive (fits value parsed) with
        ⟨none, none'⟩ | ⟨deadline, deadline', some, some', mirrors⟩
      · simp only [none, none']
        exact .inl ⟨_, _, rfl, rfl, rfl, rfl⟩
      · simp only [some, some']
        exact .inr ⟨_, _, rfl, rfl, mirrors⟩

theorem parseSetOptionsFrom_mirrors {leader replica : Int} (length : Nat) :
    ∀ (args : List Bytes) (options options' : SetOptions) (expiring : Bool),
      args.length ≤ length →
      (∀ lifetime ∈ setLifetimes args, LifetimeFits leader replica lifetime) →
      options.condition = options'.condition →
      DeadlineMirrors options.expiresAtNs options'.expiresAtNs →
      OptionsMirror (parseSetOptionsFrom leader options expiring args)
        (parseSetOptionsFrom replica options' expiring args) := by
  induction length with
  | zero =>
      intro args options options' expiring short fits condition deadline
      obtain rfl := List.length_eq_zero_iff.mp (Nat.le_zero.mp short)
      exact ⟨condition, deadline⟩
  | succ length induction =>
      intro args options options' expiring short fits condition deadline
      rcases args with _ | ⟨option, rest⟩
      · exact ⟨condition, deadline⟩
      · have restShort : rest.length ≤ length := by simpa using short
        unfold parseSetOptionsFrom
        unfold setLifetimes at fits
        rw [← condition]
        by_cases expiry : Bytes.upper option = Bytes.ascii "EX" ∨
            Bytes.upper option = Bytes.ascii "PX"
        · simp only [if_pos expiry] at fits ⊢
          rcases rest with _ | ⟨amount, rest⟩
          · exact ⟨rfl, rfl⟩
          · cases expiring with
            | true => exact ⟨rfl, rfl⟩
            | false =>
                simp only [Bool.false_eq_true, if_false]
                have positive : (0 : Int) <
                    if Bytes.upper option = Bytes.ascii "EX" then 1000000000
                    else 1000000 := by split_ifs <;> decide
                have amountFits : ∀ value, parseInt64 amount = some value →
                    LifetimeFits leader replica (value *
                      if Bytes.upper option = Bytes.ascii "EX" then 1000000000
                      else 1000000) := fun value parsed =>
                  fits _ (List.mem_append_left _ (by rw [parsed]; simp))
                rcases parseExpiry_mirrors positive amountFits with
                  ⟨_, _, failed, failed', error, error'⟩ |
                  ⟨_, _, found, found', mirrors⟩
                · simp only [failed, failed']
                  exact ⟨error, error'⟩
                · simp only [found, found']
                  refine induction rest _ _ true ?_ ?_ rfl mirrors
                  · simp only [List.length_cons] at restShort
                    omega
                  · exact fun lifetime member =>
                      fits lifetime (List.mem_append_right _ member)
        · simp only [if_neg expiry] at fits ⊢
          split_ifs
          · exact ⟨rfl, rfl⟩
          · exact induction rest _ _ _ restShort fits rfl deadline
          · exact ⟨rfl, rfl⟩
          · exact induction rest _ _ _ restShort fits rfl deadline
          · exact ⟨rfl, rfl⟩

namespace Action

/-- Actions of one write on the two sides. -/
inductive Mirrors (leader replica : Readings) : Action → Action → Prop
  | reply {frame frame' : Frame} (alike : frame.isError = frame'.isError) :
      Mirrors leader replica (reply frame) (reply frame')
  | onKey {key : Bytes} {effect effect' : Effect}
      (keeps : ∀ stored stored',
        (∀ index, Mirrored (liveAt (leader index) stored)
          (liveAt (replica index) stored')) →
        (effect stored).1.isError = (effect' stored').1.isError ∧
          Mirrored (effect stored).2 (effect' stored').2) :
      Mirrors leader replica (onKey key effect) (onKey key effect')
  | removeAll (keys : List Bytes) :
      Mirrors leader replica (removeAll keys) (removeAll keys)

theorem Mirrors.lookingAt {leader replica : Readings} {key : Bytes}
    {effect effect' : Effect} (mirrors : effect.Mirrors effect') (index : Nat) :
    Mirrors leader replica (.onKey key (effect.lookingAt (leader index)))
      (.onKey key (effect'.lookingAt (replica index))) :=
  .onKey fun _ _ seen => mirrors _ _ (seen index)

/-- On the keys of the action the results mirror each other or nothing was
touched. -/
theorem Mirrors.perform {leader replica : Readings} {action action' : Action}
    (mirrors : Mirrors leader replica action action')
    {dataset dataset' : Dataset}
    (seen : ∀ key ∈ action.keys, ∀ index,
      Mirrored (liveAt (leader index) (dataset key))
        (liveAt (replica index) (dataset' key))) :
    (action.perform dataset).1.isError = (action'.perform dataset').1.isError ∧
      ∀ key,
        Mirrored ((action.perform dataset).2 key)
            ((action'.perform dataset').2 key) ∨
          (action.perform dataset).2 key = dataset key ∧
            (action'.perform dataset').2 key = dataset' key := by
  cases mirrors with
  | reply alike => exact ⟨alike, fun _ => .inr ⟨rfl, rfl⟩⟩
  | @onKey own effect effect' keeps =>
      obtain ⟨alike, mirrored⟩ := keeps (dataset own) (dataset' own)
        (seen own (by simp [keys]))
      refine ⟨alike, fun key => ?_⟩
      by_cases same : key = own
      · subst same
        exact .inl (by simpa [Action.perform] using mirrored)
      · exact .inr (by simp [Action.perform, same])
  | removeAll keys =>
      refine ⟨rfl, fun key => ?_⟩
      simp only [Action.perform, removeAll_apply]
      by_cases member : key ∈ keys
      · simp [member, Mirrored]
      · simp [member]

end Action

namespace Command

/-- Every lifetime of the command fits both clocks alike. -/
def LifetimesFit (leader replica : Readings) (cmd : Command) : Prop :=
  ∀ lifetime ∈ cmd.lifetimes, LifetimeFits (leader 0) (replica 0) lifetime

/-- `SET` on the two sides: both reply without looking at the key, or both set
it under one condition with mirrored deadlines. -/
theorem setAction_cases {leader replica : Readings} {args : List Bytes}
    (fits : ∀ lifetime ∈ setLifetimes (args.drop 2),
      LifetimeFits (leader 0) (replica 0) lifetime) :
    (∃ frame frame', setAction leader args = .reply frame ∧
      setAction replica args = .reply frame' ∧
      frame.isError = frame'.isError) ∨
    ∃ key data options options',
      parseSetOptions (leader 0) (args.drop 2) = .ok options ∧
      setAction leader args =
        .onKey key ((Effect.set key data options).lookingAt (leader 1)) ∧
      setAction replica args =
        .onKey key ((Effect.set key data options').lookingAt (replica 1)) ∧
      options.condition = options'.condition ∧
      DeadlineMirrors options.expiresAtNs options'.expiresAtNs := by
  rcases args with _ | ⟨key, _ | ⟨data, rest⟩⟩
  · exact .inl ⟨_, _, rfl, rfl, rfl⟩
  · exact .inl ⟨_, _, rfl, rfl, rfl⟩
  · have parsed := parseSetOptionsFrom_mirrors rest.length rest
      { expiresAtNs := 0, condition := .always } _ false (Nat.le_refl _) fits rfl
      (DeadlineMirrors.refl 0)
    change OptionsMirror (parseSetOptions (leader 0) rest)
      (parseSetOptions (replica 0) rest) at parsed
    simp only [setAction, List.drop_succ_cons, List.drop_zero]
    cases outcome : parseSetOptions (leader 0) rest with
    | error failure =>
        cases outcome' : parseSetOptions (replica 0) rest with
        | error failure' =>
            rw [outcome, outcome'] at parsed
            exact .inl ⟨_, _, rfl, rfl, parsed.1.trans parsed.2.symm⟩
        | ok options' =>
            rw [outcome, outcome'] at parsed
            exact absurd parsed id
    | ok options =>
        cases outcome' : parseSetOptions (replica 0) rest with
        | error failure' =>
            rw [outcome, outcome'] at parsed
            exact absurd parsed id
        | ok options' =>
            rw [outcome, outcome'] at parsed
            exact .inr ⟨key, data, options, options', rfl, rfl, rfl, parsed⟩

theorem setAction_mirrors {leader replica : Readings} {args : List Bytes}
    (fits : ∀ lifetime ∈ setLifetimes (args.drop 2),
      LifetimeFits (leader 0) (replica 0) lifetime) :
    Action.Mirrors leader replica (setAction leader args)
      (setAction replica args) := by
  rcases setAction_cases fits with ⟨frame, frame', here, there, alike⟩ |
    ⟨key, data, options, options', -, here, there, condition, deadline⟩
  · rw [here, there]
    exact .reply alike
  · rw [here, there]
    exact .lookingAt (Effect.set_mirrors key data condition deadline) 1

theorem expireAction_mirrors {leader replica : Readings} {args : List Bytes}
    (fits : ∀ lifetime ∈ expireLifetimes args,
      LifetimeFits (leader 0) (replica 0) lifetime) :
    Action.Mirrors leader replica (expireAction leader args)
      (expireAction replica args) := by
  rcases args with _ | ⟨key, _ | ⟨amount, _ | ⟨extra, rest⟩⟩⟩
  · exact .reply rfl
  · exact .reply rfl
  · simp only [expireAction]
    cases parsed : parseInt64 amount with
    | none => exact .reply rfl
    | some seconds =>
        by_cases negative : seconds ≤ 0
        · simp only [if_pos negative]
          exact .onKey fun _ _ _ => ⟨rfl, trivial⟩
        · simp only [if_neg negative]
          have lifetime := fits (seconds * 1000000000) (by simp [expireLifetimes, parsed])
          rcases expirationFromNow_mirrors (by decide) lifetime with
            ⟨none, none'⟩ | ⟨_, _, some, some', mirrors⟩
          · simp only [none, none']
            exact .reply rfl
          · simp only [some, some']
            exact .lookingAt (Effect.expireAt_mirrors mirrors) 1
  · exact .reply rfl

theorem action_mirrors [FloatText] {leader replica : Readings} {cmd : Command}
    (write : cmd.isWriteCommand = true) (kept : cmd.isFlush = false)
    (fits : LifetimesFit leader replica cmd) :
    Action.Mirrors leader replica (cmd.action leader) (cmd.action replica) := by
  unfold action
  unfold isWriteCommand at write
  cases named : cmd.verb with
  | none => simp [named] at write
  | some verb =>
      rw [named] at write
      cases verb with
      | set =>
          refine setAction_mirrors ?_
          simpa [LifetimesFit, lifetimes, named] using fits
      | expire =>
          refine expireAction_mirrors ?_
          simpa [LifetimesFit, lifetimes, named] using fits
      | del =>
          dsimp only [delAction]
          split_ifs
          · exact .reply rfl
          · exact .removeAll _
      | incr =>
          dsimp only [incrAction]
          rcases cmd.args with _ | ⟨key, _ | ⟨extra, rest⟩⟩
          · exact .reply rfl
          · exact .lookingAt (Effect.incr_mirrors key) 0
          · exact .reply rfl
      | lpush | rpush =>
          dsimp only [pushAction]
          rcases cmd.args with _ | ⟨key, _ | ⟨first, rest⟩⟩
          · exact .reply rfl
          · exact .reply rfl
          · exact .lookingAt (Effect.push_mirrors _ key _) 0
      | lpop | rpop =>
          dsimp only [popAction]
          rcases cmd.args with _ | ⟨key, _ | ⟨extra, rest⟩⟩
          · exact .reply rfl
          · exact .lookingAt (Effect.pop_mirrors _ key) 0
          · exact .reply rfl
      | zadd =>
          dsimp only [zaddAction]
          rcases cmd.args with _ | ⟨key, pairs⟩
          · exact .reply rfl
          · dsimp only
            split_ifs
            · exact .reply rfl
            · cases parseZAddPairs pairs with
              | error frame => exact .reply rfl
              | ok parsed => exact .lookingAt (Effect.zadd_mirrors key parsed) 0
      | flushdb | flushall => simp [isFlush, named] at kept
      | _ => simp [Verb.isWrite] at write

end Command
end MnemoKV
