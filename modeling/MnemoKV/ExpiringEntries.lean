import MnemoKV.CommandScope

/-!
# Entries that expire on two nodes

The item of a leader and the item of its replica are concordant at a time when
they mirror each other or both have expired.  Concordance survives the passing
of time and lazy removal, and a write keeps it when its key has expired on both
sides or on neither at the moments of execution.  A write that overwrites its
key needs no such condition.
-/

namespace MnemoKV

theorem Item.Mirrors.isExpired {leader replica : Item}
    (mirrors : leader.Mirrors replica) {now : Int}
    (expired : leader.isExpired now = true) : replica.isExpired now = true := by
  have lasting := mirrors.deadline.lasting
  have earlier := mirrors.deadline.earlier
  simp only [Item.isExpired, Bool.and_eq_true, decide_eq_true_eq] at expired ⊢
  omega

/-- The items mirror each other, or both are gone at the given time. -/
def Concordant (now : Int) (leader replica : Option Item) : Prop :=
  Mirrored leader replica ∨
    liveAt now leader = none ∧ liveAt now replica = none

/-- The time to live has passed on both nodes or on neither. -/
def ExpiredAlike (leaderTime replicaTime : Int) :
    Option Item → Option Item → Prop
  | some leader, some replica =>
      leader.isExpired leaderTime = replica.isExpired replicaTime
  | _, _ => True

instance (leaderTime replicaTime : Int) : (leader replica : Option Item) →
    Decidable (ExpiredAlike leaderTime replicaTime leader replica)
  | some _, some _ => inferInstanceAs (Decidable (_ = _))
  | none, _ => isTrue trivial
  | some _, none => isTrue trivial

namespace Concordant

variable {now later : Int} {leader replica : Option Item}

theorem refl (now : Int) (stored : Option Item) : Concordant now stored stored :=
  .inl (Mirrored.refl stored)

section

variable (concordant : Concordant now leader replica)

include concordant

theorem mono
    (ordered : now ≤ later) : Concordant later leader replica := by
  rcases concordant with mirrored | ⟨dead, dead'⟩
  · exact .inl mirrored
  · exact .inr ⟨liveAt_eq_none_mono ordered dead,
      liveAt_eq_none_mono ordered dead'⟩

/-- Once the leader's item has expired, so has the replica's. -/
theorem dead
    (ordered : now ≤ later) (gone : liveAt later leader = none) :
    liveAt later replica = none := by
  rcases concordant with mirrored | ⟨-, dead'⟩
  · cases leader with
    | none =>
        cases replica with
        | none => rfl
        | some _ => exact absurd mirrored id
    | some item =>
        cases replica with
        | none => exact absurd mirrored id
        | some item' =>
            rw [liveAt_some] at gone ⊢
            split_ifs at gone with expired
            have expired' := Item.Mirrors.isExpired mirrored expired
            rw [if_pos expired']
  · exact liveAt_eq_none_mono ordered dead'

/-- The leader may drop what has expired. -/
theorem lapse
    (ordered : now ≤ later) :
    Concordant later (liveAt later leader) replica := by
  rcases liveAt_cases later leader with same | gone
  · rw [same]
    exact concordant.mono ordered
  · rw [gone]
    exact .inr ⟨rfl, concordant.dead ordered gone⟩

/-- What lookups on the two sides see. -/
theorem seen
    {leaderTime replicaTime : Int} (leaderLater : now ≤ leaderTime)
    (replicaLater : now ≤ replicaTime)
    (alike : ExpiredAlike leaderTime replicaTime leader replica) :
    Mirrored (liveAt leaderTime leader) (liveAt replicaTime replica) := by
  rcases concordant with mirrored | ⟨dead, dead'⟩
  · cases leader with
    | none =>
        cases replica with
        | none => trivial
        | some _ => exact absurd mirrored id
    | some item =>
        cases replica with
        | none => exact absurd mirrored id
        | some item' =>
            rw [liveAt_some, liveAt_some, show _ = _ from alike]
            split_ifs
            · trivial
            · exact mirrored
  · rw [liveAt_eq_none_mono leaderLater dead,
      liveAt_eq_none_mono replicaLater dead']
    trivial

/-- Equal values, or nothing, at a later time of reading. -/
theorem values_eq
    (ordered : now ≤ later) (alike : ExpiredAlike later later leader replica) :
    (liveAt later leader).map Item.value =
      (liveAt later replica).map Item.value := by
  have mirrored := concordant.seen ordered ordered alike
  generalize liveAt later leader = live at mirrored ⊢
  generalize liveAt later replica = live' at mirrored ⊢
  cases live with
  | none =>
      cases live' with
      | none => rfl
      | some _ => exact absurd mirrored id
  | some item =>
      cases live' with
      | none => exact absurd mirrored id
      | some item' => exact congrArg some mirrored.value

end

end Concordant

/-! ### Writes that do not look at the stored item -/

/-- `DEL`, and `SET` with neither `NX` nor `XX`. -/
def Command.Overwrites (cmd : Command) : Prop :=
  cmd.verb = some .del ∨ cmd.verb = some .set ∧
    ∀ option ∈ cmd.args.drop 2, Bytes.upper option ≠ Bytes.ascii "NX" ∧
      Bytes.upper option ≠ Bytes.ascii "XX"

theorem parseSetOptionsFrom_condition {now : Int} {args : List Bytes}
    {options parsed : SetOptions} {expiring : Bool}
    (plain : ∀ option ∈ args, Bytes.upper option ≠ Bytes.ascii "NX" ∧
      Bytes.upper option ≠ Bytes.ascii "XX")
    (accepted : parseSetOptionsFrom now options expiring args = .ok parsed) :
    parsed.condition = options.condition := by
  fun_induction parseSetOptionsFrom now options expiring args with
  | case1 => rw [Except.ok.inj accepted]
  | case5 options expiring option expiry amount rest first deadline found
      induction =>
      exact induction (fun other member => plain other
        (List.mem_cons_of_mem _ (List.mem_cons_of_mem _ member))) accepted
  | case7 options expiring option rest notExpiry isNX =>
      exact absurd isNX (plain option List.mem_cons_self).1
  | case9 options expiring option rest notExpiry notNX isXX =>
      exact absurd isXX (plain option List.mem_cons_self).2
  | case2 | case3 | case4 | case6 | case8 | case10 => cases accepted

theorem Effect.set_always (key data : Bytes) {options : SetOptions}
    (always : options.condition = .always) (stored : Option Item) :
    set key data options stored =
      (.ok, some (.create key (.string data) options.expiresAtNs)) := by
  cases stored <;> simp [set, always]

namespace Command

variable {leader replica : Readings} {cmd : Command}

/-- The result of an action on the two sides, key by key. -/
def ResultsMirror (leader replica : Dataset × (Frame × Dataset)) : Prop :=
  leader.2.1.isError = replica.2.1.isError ∧
    ∀ key, Mirrored (leader.2.2 key) (replica.2.2 key) ∨
      leader.2.2 key = leader.1 key ∧ replica.2.2 key = replica.1 key

theorem ResultsMirror.concordant {leader replica : Dataset × (Frame × Dataset)}
    (results : ResultsMirror leader replica) {key : Bytes} {now later : Int}
    (concordant : Concordant now (leader.1 key) (replica.1 key))
    (ordered : now ≤ later) :
    Concordant later (leader.2.2 key) (replica.2.2 key) := by
  rcases results.2 key with mirrored | ⟨same, same'⟩
  · exact .inl mirrored
  · rw [same, same']
    exact concordant.mono ordered

/-- A command that fails on the replica would have failed on the leader, which
therefore does not run it. -/
theorem ResultsMirror.concordant_of_failed
    {leader replica : Dataset × (Frame × Dataset)}
    (results : ResultsMirror leader replica) {key : Bytes} {now later : Int}
    (concordant : Concordant now (leader.1 key) (replica.1 key))
    (ordered : now ≤ later)
    (lapsed : Lapsed (· = later) leader.1 leader.2.2) :
    Concordant later (leader.1 key) (replica.2.2 key) := by
  rcases results.2 key with mirrored | ⟨-, same'⟩
  · rcases lapsed key with same | ⟨moment, rfl, same⟩
    · rw [same] at mirrored
      exact .inl mirrored
    · rw [same] at mirrored
      rcases liveAt_cases moment (leader.1 key) with live | gone
      · rw [live] at mirrored
        exact .inl mirrored
      · rw [gone] at mirrored
        refine .inr ⟨gone, ?_⟩
        cases found : replica.2.2 key with
        | none => rfl
        | some item =>
            rw [found] at mirrored
            exact absurd mirrored id
  · rw [same']
    exact concordant.mono ordered

theorem setAction_overwrites {args : List Bytes}
    (fits : ∀ lifetime ∈ setLifetimes (args.drop 2),
      LifetimeFits (leader 0) (replica 0) lifetime)
    (plain : ∀ option ∈ args.drop 2, Bytes.upper option ≠ Bytes.ascii "NX" ∧
      Bytes.upper option ≠ Bytes.ascii "XX") (dataset dataset' : Dataset) :
    ResultsMirror (dataset, (setAction leader args).perform dataset)
      (dataset', (setAction replica args).perform dataset') := by
  rcases setAction_cases fits with ⟨frame, frame', here, there, alike⟩ |
    ⟨key, data, options, options', parsed, here, there, condition, deadline⟩
  · rw [here, there]
    exact ⟨alike, fun _ => .inr ⟨rfl, rfl⟩⟩
  · have always : options.condition = .always :=
      parseSetOptionsFrom_condition plain parsed
    have always' : options'.condition = .always := condition ▸ always
    rw [here, there]
    simp only [ResultsMirror, Action.perform, Effect.lookingAt,
      Effect.set_always key data always, Effect.set_always key data always']
    refine ⟨trivial, fun other => ?_⟩
    by_cases same : other = key
    · subst same
      simp only [Function.update_self]
      exact .inl (Item.mirrors_create other (.string data) deadline)
    · simp only [Function.update_of_ne same]
      exact .inr ⟨trivial, trivial⟩

/-- Keys that a write looks up, other than those of `DEL`. -/
theorem eq_primary_of_mem {key : Bytes} (write : cmd.isWriteCommand = true)
    (lookup : cmd.verb ≠ some .del) (member : key ∈ cmd.extractKeys) :
    key = cmd.extractPrimaryKey := by
  unfold extractPrimaryKey
  unfold extractKeys at member ⊢
  unfold isWriteCommand at write
  revert write lookup member
  cases cmd.verb with
  | none => exact fun write => nomatch write
  | some verb =>
      cases verb with
      | set | incr | expire | lpush | rpush | lpop | rpop | zadd =>
          intro _ _
          rcases cmd.args with _ | ⟨first, rest⟩
          · exact fun member => nomatch member
          · exact fun member => List.mem_singleton.mp member
      | del => exact fun _ lookup => absurd rfl lookup
      | flushdb | flushall => exact fun _ _ member => nomatch member
      | _ => exact fun write => nomatch write

theorem perform_mirrors [FloatText] (write : cmd.isWriteCommand = true)
    (kept : cmd.isFlush = false) (fits : cmd.LifetimesFit leader replica)
    {dataset dataset' : Dataset}
    (seen : ¬ cmd.Overwrites → ∀ index,
      Mirrored (liveAt (leader index) (dataset cmd.extractPrimaryKey))
        (liveAt (replica index) (dataset' cmd.extractPrimaryKey))) :
    ResultsMirror (dataset, (cmd.action leader).perform dataset)
      (dataset', (cmd.action replica).perform dataset') := by
  by_cases overwrites : cmd.Overwrites
  · rcases overwrites with named | ⟨named, plain⟩
    · simp only [action, named, delAction]
      split_ifs
      · exact ⟨rfl, fun _ => .inr ⟨rfl, rfl⟩⟩
      · refine ⟨rfl, fun key => ?_⟩
        simp only [Action.perform, Action.removeAll_apply]
        by_cases member : key ∈ cmd.args
        · simp [member, Mirrored]
        · simp [member]
    · simp only [action, named]
      refine setAction_overwrites ?_ plain dataset dataset'
      simpa [LifetimesFit, lifetimes, named] using fits
  · refine (action_mirrors write kept fits).perform ?_
    intro key member
    rw [eq_primary_of_mem write (fun named => overwrites (.inl named))
      (cmd.action_keys_subset leader member)]
    exact seen overwrites

end Command
end MnemoKV
