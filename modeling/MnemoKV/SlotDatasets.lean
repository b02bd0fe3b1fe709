import MnemoKV.PlanningLaws

/-!
# Parts of a dataset

The part of a dataset that belongs to a set of keys, such as the keys of one
slot.  A command whose keys all lie in the set acts on the part as it acts on
the whole, and on a part without expiries the clock does not matter.
-/

namespace MnemoKV

def Dataset.within (dataset : Dataset) (Member : Bytes → Prop)
    [DecidablePred Member] : Dataset :=
  fun key => if Member key then dataset key else none

section Within

variable {Member : Bytes → Prop} [DecidablePred Member]

theorem Dataset.within_of_mem {dataset : Dataset} {key : Bytes}
    (member : Member key) : dataset.within Member key = dataset key :=
  if_pos member

theorem Dataset.within_update_of_mem {dataset : Dataset} {key : Bytes}
    (member : Member key) (stored : Option Item) :
    Dataset.within (Function.update dataset key stored) Member =
      Function.update (dataset.within Member) key stored := by
  funext other
  by_cases same : other = key
  · subst same
    simp [Dataset.within, member]
  · simp [Dataset.within, same]

/-- Two datasets that agree on the members have the same part. -/
theorem Dataset.within_congr {first second : Dataset}
    (agree : ∀ key, Member key → first key = second key) :
    first.within Member = second.within Member := by
  funext key
  unfold Dataset.within
  split_ifs with member
  · exact agree key member
  · rfl

theorem foldl_removeStep_within (keys : List Bytes)
    (members : ∀ key ∈ keys, Member key) (count : Int) (dataset : Dataset) :
    keys.foldl Action.removeStep (count, dataset.within Member) =
      ((keys.foldl Action.removeStep (count, dataset)).1,
        Dataset.within (keys.foldl Action.removeStep (count, dataset)).2
          Member) := by
  induction keys generalizing count dataset with
  | nil => rfl
  | cons key keys induction =>
      have head := members key List.mem_cons_self
      simp only [List.foldl_cons, Action.removeStep, Dataset.within_of_mem head,
        ← Dataset.within_update_of_mem head]
      exact induction (fun other member =>
        members other (List.mem_cons_of_mem _ member)) _ _

theorem foldl_probeStep_within (probes : List (Bytes × Int))
    (members : ∀ key ∈ probes.map Prod.fst, Member key) (count : Int)
    (dataset : Dataset) :
    probes.foldl Action.probeStep (count, dataset.within Member) =
      ((probes.foldl Action.probeStep (count, dataset)).1,
        Dataset.within (probes.foldl Action.probeStep (count, dataset)).2
          Member) := by
  induction probes generalizing count dataset with
  | nil => rfl
  | cons probe probes induction =>
      have head := members probe.1 (by simp)
      simp only [List.foldl_cons, Action.probeStep, Dataset.within_of_mem head,
        ← Dataset.within_update_of_mem head]
      exact induction (fun other member =>
        members other (List.mem_cons_of_mem _ member)) _ _

theorem Action.perform_within {action : Action} (confined : action.Confined)
    (members : ∀ key ∈ action.keys, Member key) (dataset : Dataset) :
    action.perform (dataset.within Member) =
      ((action.perform dataset).1,
        Dataset.within (action.perform dataset).2 Member) := by
  cases action with
  | reply frame => rfl
  | onKey key effect =>
      have member := members key (by simp [keys])
      simp only [perform, Dataset.within_of_mem member,
        Dataset.within_update_of_mem member]
  | removeAll removed =>
      simp only [perform, foldl_removeStep_within removed members]
  | countLive probes =>
      simp only [perform, foldl_probeStep_within probes members]
  | clear => exact absurd confined id

namespace Command

/-- Every routing key of the command lies in the set. -/
def KeysIn (cmd : Command) (Member : Bytes → Prop) : Prop :=
  ∀ key ∈ cmd.extractKeys, Member key

theorem perform_within [FloatText] {cmd : Command} (kept : cmd.isFlush = false)
    (members : cmd.KeysIn Member) (now : Readings) (dataset : Dataset) :
    (cmd.action now).perform (dataset.within Member) =
      (((cmd.action now).perform dataset).1,
        Dataset.within ((cmd.action now).perform dataset).2 Member) :=
  Action.perform_within (cmd.action_confined now kept)
    (fun key member => members key (cmd.action_keys_subset now member)) dataset

/-- A command with no key in the set leaves the part alone. -/
theorem within_perform_of_disjoint [FloatText] {cmd : Command}
    (kept : cmd.isFlush = false)
    (foreign : ∀ key ∈ cmd.extractKeys, ¬ Member key) (now : Readings)
    (dataset : Dataset) :
    Dataset.within ((cmd.action now).perform dataset).2 Member =
      dataset.within Member :=
  Dataset.within_congr fun key member =>
    action_perform_of_not_mem now cmd kept
      (fun listed => foreign key listed member) dataset

theorem plan_congr [FloatText] (now : Readings) (cmd : Command)
    {first second : Dataset}
    (agree : first cmd.extractPrimaryKey = second cmd.extractPrimaryKey) :
    cmd.plan now first = cmd.plan now second := by
  rcases cmd.planned now with ⟨-, -, onDataset⟩ | ⟨-, -, onDataset⟩ | @⟨key, request, asks⟩
  · rw [onDataset, onDataset]
  · rw [onDataset, onDataset]
  · obtain ⟨keys, -, onDataset, -⟩ := asks.spec
    rw [extractPrimaryKey, keys] at agree
    rw [onDataset, onDataset, show first key = second key from agree]

end Command
end Within

/-- On a dataset without expiries a write without lifetimes does the same at
all times. -/
theorem Persistent.perform_eq [FloatText] {dataset : Dataset}
    (persistent : Persistent dataset) {cmd : Command}
    (write : cmd.isWriteCommand = true) (kept : cmd.isFlush = false)
    (free : cmd.TTLFree) (now now' : Readings) :
    ((cmd.action now).perform dataset).1.isError =
        ((cmd.action now').perform dataset).1.isError ∧
      ((cmd.action now).perform dataset).2 =
        ((cmd.action now').perform dataset).2 := by
  have mirrors := Command.action_mirrors write kept (free.lifetimesFit now now')
  have seen : ∀ key ∈ (cmd.action now).keys, ∀ index,
      Mirrored (liveAt (now index) (dataset key))
        (liveAt (now' index) (dataset key)) := by
    intro key _ index
    rw [liveAt_of_persistent (persistent key),
      liveAt_of_persistent (persistent key)]
    exact Mirrored.refl _
  obtain ⟨alike, results⟩ := mirrors.perform seen
  refine ⟨alike, funext fun key => ?_⟩
  rcases results key with mirrored | ⟨same, same'⟩
  · exact mirrored.eq_of_persistent (persistent.perform free now key)
  · rw [same, same']

end MnemoKV
