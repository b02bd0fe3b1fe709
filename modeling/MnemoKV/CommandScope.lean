import MnemoKV.ActionMirroring

/-!
# Which keys a command can touch, and datasets without expiries

The keys of an action are among the keys the router extracts, so a command
routed to one slot stays in that slot.  Commands that name no lifetime keep a
dataset free of expiries.
-/

namespace MnemoKV

namespace Command

variable (now : Readings) (cmd : Command)

theorem action_confined [FloatText] (kept : cmd.isFlush = false) :
    (cmd.action now).Confined := by
  have acts := cmd.acts now
  generalize cmd.action now = action at acts ⊢
  cases acts with
  | clears flush => simp [flush] at kept
  | replies | removes | counts | drops | reads | writes => trivial

/-- An action stays within the routing keys of its command. -/
theorem action_keys_subset [FloatText] :
    (cmd.action now).keys ⊆ cmd.extractKeys := by
  have acts := cmd.acts now
  generalize cmd.action now = action at acts ⊢
  cases acts with
  | replies | clears => exact List.nil_subset _
  | removes named => simp [extractKeys, named, Action.keys]
  | counts named => simp [extractKeys, named, Action.keys, Function.comp_def]
  | drops named given => simp [extractKeys, named, given, Action.keys]
  | reads keys | writes keys =>
      rw [keys]
      exact List.Subset.refl _

/-- Outside its routing keys a command changes nothing. -/
theorem action_perform_of_not_mem [FloatText] (kept : cmd.isFlush = false)
    {key : Bytes} (absent : key ∉ cmd.extractKeys) (dataset : Dataset) :
    ((cmd.action now).perform dataset).2 key = dataset key :=
  Action.perform_of_not_mem (action_confined now cmd kept)
    (fun member => absent (action_keys_subset now cmd member)) dataset

/-- A command with neither `EX`, `PX` nor `EXPIRE`. -/
def TTLFree (cmd : Command) : Prop :=
  cmd.verb ≠ some .expire ∧
    (cmd.verb = some .set → ∀ option ∈ cmd.args.drop 2,
      Bytes.upper option ≠ Bytes.ascii "EX" ∧
        Bytes.upper option ≠ Bytes.ascii "PX")

end Command

theorem setLifetimes_eq_nil {args : List Bytes}
    (free : ∀ option ∈ args, Bytes.upper option ≠ Bytes.ascii "EX" ∧
      Bytes.upper option ≠ Bytes.ascii "PX") : setLifetimes args = [] := by
  induction args with
  | nil => rfl
  | cons option rest induction =>
      have head := free option List.mem_cons_self
      unfold setLifetimes
      rw [if_neg (not_or.mpr head)]
      exact induction fun other member =>
        free other (List.mem_cons_of_mem _ member)

theorem Command.TTLFree.lifetimes_eq_nil {cmd : Command} (free : cmd.TTLFree) :
    cmd.lifetimes = [] := by
  unfold lifetimes
  split
  · rename_i named
    exact setLifetimes_eq_nil (free.2 named)
  · rename_i named
    exact absurd named free.1
  · rfl

theorem Command.TTLFree.lifetimesFit {cmd : Command} (free : cmd.TTLFree)
    (leader replica : Readings) : cmd.LifetimesFit leader replica := by
  intro lifetime member
  rw [free.lifetimes_eq_nil] at member
  exact absurd member List.not_mem_nil

theorem parseSetOptionsFrom_lasting {now : Int} {args : List Bytes}
    (free : ∀ option ∈ args, Bytes.upper option ≠ Bytes.ascii "EX" ∧
      Bytes.upper option ≠ Bytes.ascii "PX")
    {options parsed : SetOptions} {expiring : Bool}
    (accepted : parseSetOptionsFrom now options expiring args = .ok parsed) :
    parsed.expiresAtNs = options.expiresAtNs := by
  induction args generalizing options expiring with
  | nil =>
      obtain rfl : options = parsed := by simpa [parseSetOptionsFrom] using accepted
      rfl
  | cons option rest induction =>
      have head := free option List.mem_cons_self
      have tail := fun other member => free other (List.mem_cons_of_mem _ member)
      unfold parseSetOptionsFrom at accepted
      rw [if_neg (not_or.mpr head)] at accepted
      split_ifs at accepted
      · have kept := induction tail accepted
        exact kept
      · have kept := induction tail accepted
        exact kept

/-- An effect that never introduces an expiry. -/
def Effect.Persists (effect : Effect) : Prop :=
  ∀ stored, (∀ item, stored = some item → item.expiresAtNs = 0) →
    ∀ item, (effect stored).2 = some item → item.expiresAtNs = 0

namespace Effect

theorem persists_set (key data : Bytes) {options : SetOptions}
    (lasting : options.expiresAtNs = 0) : (set key data options).Persists := by
  rintro (_ | stored) persistent item result <;> simp only [set] at result <;>
    split_ifs at result
  · cases result
    exact lasting
  · exact persistent item result
  · cases result
    exact lasting

theorem persists_incr (key : Bytes) : (incr key).Persists := by
  rintro (_ | stored) persistent item result <;> simp only [incr] at result
  · cases result
    rfl
  · split at result
    · split at result
      · exact persistent item result
      · split_ifs at result
        · exact persistent item result
        · cases result
          exact persistent stored rfl
    · exact persistent item result

theorem persists_push (left : Bool) (key : Bytes) (values : List Bytes) :
    (push left key values).Persists := by
  rintro (_ | stored) persistent item result <;> simp only [push] at result
  · cases result
    rfl
  · split at result
    · cases result
      exact persistent stored rfl
    · exact persistent item result

theorem persists_pop (left : Bool) (key : Bytes) : (pop left key).Persists := by
  rintro (_ | stored) persistent item result <;> simp only [pop] at result
  · cases result
  · split at result
    · split at result
      · exact persistent item result
      · split_ifs at result
        cases result
        exact persistent stored rfl
    · exact persistent item result

theorem persists_zadd (key : Bytes) (pairs : List (Number × Bytes)) :
    (zadd key pairs).Persists := by
  rintro (_ | stored) persistent item result <;> simp only [zadd] at result
  · cases result
    rfl
  · split at result
    · cases result
      exact persistent stored rfl
    · exact persistent item result

end Effect

theorem Command.Mutates.persists {cmd : Command} (free : cmd.TTLFree) {now : Readings}
    {key : Bytes} {index : Nat} {effect : Effect}
    (mutates : cmd.Mutates now key index effect) : effect.Persists := by
  cases mutates with
  | set named given parsed =>
      have optionsFree := free.2 named
      rw [given] at optionsFree
      exact Effect.persists_set _ _ (parseSetOptionsFrom_lasting optionsFree parsed)
  | expireAt named => exact absurd named free.1
  | incr => exact Effect.persists_incr _
  | push => exact Effect.persists_push _ _ _
  | pop => exact Effect.persists_pop _ _
  | zadd => exact Effect.persists_zadd _ _

theorem Persistent.update {dataset : Dataset} (persistent : Persistent dataset)
    (key : Bytes) {stored : Option Item}
    (lasting : ∀ item, stored = some item → item.expiresAtNs = 0) :
    Persistent (Function.update dataset key stored) := by
  intro other item found
  by_cases same : other = key
  · subst same
    rw [Function.update_self] at found
    exact lasting item found
  · rw [Function.update_of_ne same] at found
    exact persistent other item found

theorem Persistent.onKey {dataset : Dataset} (persistent : Persistent dataset)
    (key : Bytes) {effect : Effect} (persists : effect.Persists) (moment : Int) :
    Persistent ((Action.onKey key (effect.lookingAt moment)).perform dataset).2 := by
  refine persistent.update key (persists _ ?_)
  rw [liveAt_of_persistent (persistent key)]
  exact persistent key

/-- Commands without lifetimes keep a dataset persistent. -/
theorem Persistent.perform [FloatText] {dataset : Dataset}
    (persistent : Persistent dataset) {cmd : Command} (free : cmd.TTLFree)
    (now : Readings) : Persistent ((cmd.action now).perform dataset).2 := by
  have acts := cmd.acts now
  generalize cmd.action now = action at acts ⊢
  cases acts with
  | replies => exact persistent
  | clears =>
      intro key item found
      cases found
  | removes =>
      intro key item found
      simp only [Action.perform, Action.removeAll_apply] at found
      split_ifs at found
      exact persistent key item found
  | counts =>
      rw [(cmd.lapses_counts now dataset).eq_of_persistent persistent]
      exact persistent
  | drops named => exact absurd named free.1
  | reads => exact persistent.onKey _ (fun _ lasting => lasting) _
  | writes keys mutates => exact persistent.onKey _ (mutates.persists free) _

end MnemoKV
