import Mathlib.Order.Basic
import Mathlib.Data.Nat.Init

/-!
# Runs of a labelled step function

A system that always has a next state is described by a step function from a
state and a label to a state.  A run is a list of labels, and the states it
visits are indexed by the number of labels consumed.  The induction rules
below turn facts about one step into facts about every state of a run.
-/

namespace LabelledRuns

variable {State Label : Type*} (step : State → Label → State)

/-- The state reached by consuming every label. -/
def run (start : State) (labels : List Label) : State :=
  labels.foldl step start

/-- The state reached after the first `index` labels. -/
def stateAt (start : State) (labels : List Label) (index : Nat) : State :=
  run step start (labels.take index)

@[simp]
theorem run_nil (start : State) : run step start [] = start :=
  rfl

@[simp]
theorem run_cons (start : State) (label : Label) (labels : List Label) :
    run step start (label :: labels) = run step (step start label) labels :=
  rfl

theorem run_append (start : State) (first second : List Label) :
    run step start (first ++ second) =
      run step (run step start first) second := by
  simp [run]

@[simp]
theorem stateAt_zero (start : State) (labels : List Label) :
    stateAt step start labels 0 = start :=
  rfl

theorem stateAt_length (start : State) (labels : List Label) :
    stateAt step start labels labels.length = run step start labels := by
  simp [stateAt]

theorem stateAt_succ (start : State) (labels : List Label) {index : Nat}
    (inRange : index < labels.length) :
    stateAt step start labels (index + 1) =
      step (stateAt step start labels index) labels[index] := by
  simp only [stateAt, List.take_succ_eq_append_getElem inRange, run_append,
    run_cons, run_nil]

/-- A property of the start that every step keeps holds in every state of the
run.  The step hypothesis may use the position of the step. -/
theorem stateAt_induction (start : State) (labels : List Label)
    (Holds : State → Prop) (starts : Holds start)
    (keeps : ∀ index (inRange : index < labels.length),
      Holds (stateAt step start labels index) →
        Holds (step (stateAt step start labels index) labels[index]))
    {index : Nat} (bounded : index ≤ labels.length) :
    Holds (stateAt step start labels index) := by
  induction index with
  | zero => exact starts
  | succ index ih =>
      rw [stateAt_succ step start labels bounded]
      exact keeps index bounded (ih (Nat.le_of_succ_le bounded))

theorem run_induction {labels : List Label} {Holds : State → Prop}
    (keeps : ∀ state, ∀ label ∈ labels, Holds state → Holds (step state label))
    {start : State} (starts : Holds start) : Holds (run step start labels) := by
  induction labels generalizing start with
  | nil => exact starts
  | cons label rest induction =>
      exact induction (fun state other member =>
        keeps state other (List.mem_cons_of_mem _ member))
        (keeps start label List.mem_cons_self starts)

/-- A record that each step may extend, so that what it says about a state stays
said, finally tells about all states of the run. -/
theorem exists_record {Record : Type*} {Holds Tells : Record → State → Prop}
    (start : State) (labels : List Label) (record : Record)
    (starts : Holds record start)
    (tells : ∀ record state, Holds record state → Tells record state)
    (continues : ∀ record, ∀ index (inRange : index < labels.length),
      Holds record (stateAt step start labels index) →
      ∃ next, Holds next (step (stateAt step start labels index) labels[index]) ∧
        ∀ state, Tells record state → Tells next state) :
    ∃ record, Holds record (run step start labels) ∧
      ∀ index ≤ labels.length, Tells record (stateAt step start labels index) := by
  suffices upTo : ∀ last ≤ labels.length, ∃ record,
      Holds record (stateAt step start labels last) ∧
        ∀ index ≤ last, Tells record (stateAt step start labels index) by
    have whole := upTo labels.length (Nat.le_refl _)
    rwa [stateAt_length] at whole
  intro last bounded
  induction last with
  | zero =>
      refine ⟨record, starts, fun index first => ?_⟩
      rw [Nat.le_zero.mp first]
      exact tells record start starts
  | succ last induction =>
      obtain ⟨record, holds, told⟩ := induction (Nat.le_of_succ_le bounded)
      obtain ⟨next, holdsNext, keeps⟩ := continues record last bounded holds
      rw [← stateAt_succ step start labels bounded] at holdsNext
      refine ⟨next, holdsNext, fun index before => ?_⟩
      rcases Nat.lt_or_eq_of_le before with earlier | rfl
      · exact keeps _ (told index (Nat.le_of_lt_succ earlier))
      · exact tells next _ holdsNext

/-- A measure that no step lowers is monotone along the run. -/
theorem measure_stateAt_mono {Value : Type*} [Preorder Value]
    (measure : State → Value) (start : State) (labels : List Label)
    (grows : ∀ index (inRange : index < labels.length),
      measure (stateAt step start labels index) ≤
        measure (step (stateAt step start labels index) labels[index]))
    {first last : Nat} (ordered : first ≤ last)
    (bounded : last ≤ labels.length) :
    measure (stateAt step start labels first) ≤
      measure (stateAt step start labels last) := by
  induction last, ordered using Nat.le_induction with
  | base => exact le_refl _
  | succ last _ ih =>
      rw [stateAt_succ step start labels bounded]
      exact (ih (Nat.le_of_succ_le bounded)).trans (grows last bounded)

end LabelledRuns
