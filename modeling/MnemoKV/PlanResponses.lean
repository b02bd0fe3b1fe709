import MnemoKV.SlotDatasets

/-!
# Commands answered without being sent

A plan may answer by itself: with an error, or with nil when the condition of a
`SET` does not hold.  On a dataset without expiries the answer does not depend
on the clock.  A write without keys is always an error.
-/

namespace MnemoKV

namespace AdmissionPlan

/-- The plan answers with nothing, an error or nil. -/
def AnswersPlainly (plan : AdmissionPlan) : Prop :=
  ∀ frame, plan.response = some frame → frame.isError = true ∨ frame = .nullBulk

end AdmissionPlan

theorem Command.plan_answersPlainly [FloatText] (now : Readings)
    (cmd : Command) (dataset : Dataset) :
    (cmd.plan now dataset).AnswersPlainly := by
  intro frame answers
  rcases cmd.planned now with ⟨-, -, onDataset⟩ | ⟨plain, -, onDataset⟩ | @⟨key, request, asks⟩
  · rw [onDataset] at answers
    cases answers
  · rw [onDataset] at answers
    exact Option.some.inj answers ▸ .inl plain.isError
  · have decided := request.decides key (liveAt (now request.index) (dataset key))
    rw [← asks.spec.2.2.1] at decided
    generalize cmd.plan now dataset = plan at decided answers
    cases decided with
    | answer plain =>
        obtain rfl := Option.some.inj answers
        exact plain
    | write => cases answers

/-- Option lists without a lifetime parse the same at all times. -/
theorem parseSetOptionsFrom_eq {now now' : Int} {args : List Bytes}
    (free : ∀ option ∈ args, Bytes.upper option ≠ Bytes.ascii "EX" ∧
      Bytes.upper option ≠ Bytes.ascii "PX")
    (options : SetOptions) (expiring : Bool) :
    parseSetOptionsFrom now options expiring args =
      parseSetOptionsFrom now' options expiring args := by
  induction args generalizing options with
  | nil => rfl
  | cons option rest induction =>
      have head := free option List.mem_cons_self
      have tail := induction fun other member =>
        free other (List.mem_cons_of_mem _ member)
      unfold parseSetOptionsFrom
      simp only [if_neg (not_or.mpr head), tail]

theorem Persistent.plan_eq [FloatText] {dataset : Dataset}
    (persistent : Persistent dataset) {cmd : Command} (free : cmd.TTLFree)
    (now now' : Readings) : cmd.plan now dataset = cmd.plan now' dataset := by
  have live : ∀ key moment, liveAt moment (dataset key) = dataset key :=
    fun key moment => liveAt_of_persistent (persistent key) moment
  unfold Command.plan
  simp only [live]
  split
  · rename_i key data rest named given
    have optionsFree := free.2 named
    rw [given] at optionsFree
    have same : parseSetOptions (now 0) rest = parseSetOptions (now' 0) rest :=
      parseSetOptionsFrom_eq optionsFree _ _
    rw [same]
  all_goals rfl

end MnemoKV
