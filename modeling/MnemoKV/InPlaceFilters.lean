import Mathlib.Data.List.Basic

/-!
# Filtering a buffer in place

The idiom that writes the kept elements back to the front of the buffer it is
reading.  The write position never passes the read position, so every element is
read before it is overwritten.
-/

namespace InPlaceFilters

variable {α : Type} (keep : α → Bool)

/-- One turn: the buffer and the number of elements kept so far. -/
def compactStep (state : List α × Nat) (index : Nat) : List α × Nat :=
  match state.1[index]? with
  | none => state
  | some value =>
      if keep value then (state.1.set state.2 value, state.2 + 1) else state

/-- The loop that moves kept elements to the front of one array. -/
def compact (buffer : List α) : List α :=
  let final := (List.range buffer.length).foldl (compactStep keep) (buffer, 0)
  final.1.take final.2

/-- The buffer holds the kept elements, then stale ones, then what is unread. -/
def Compacted (buffer : List α) (read : Nat) (state : List α × Nat) : Prop :=
  ∃ stale : List α,
    state.1 = (buffer.take read).filter keep ++ (stale ++ buffer.drop read) ∧
    state.2 = ((buffer.take read).filter keep).length ∧
    state.2 + stale.length = read

variable {keep}

theorem Compacted.step {buffer : List α} {read : Nat} {state : List α × Nat}
    (compacted : Compacted keep buffer read state) (inside : read < buffer.length) :
    Compacted keep buffer (read + 1) (compactStep keep state read) := by
  obtain ⟨stale, contents, kept, position⟩ := compacted
  obtain ⟨value, rest, unread⟩ : ∃ value rest, buffer.drop read = value :: rest :=
    ⟨_, _, List.drop_eq_getElem_cons inside⟩
  have following : buffer.drop (read + 1) = rest := by
    rw [← List.drop_drop, unread, List.drop_one, List.tail_cons]
  have taken : buffer.take (read + 1) = buffer.take read ++ [value] := by
    rw [List.take_add, unread]
    rfl
  have current : state.1[read]? = some value := by
    rw [contents, unread, ← List.append_assoc, List.getElem?_append_right (by
      rw [List.length_append, ← kept]
      omega)]
    rw [List.length_append, ← kept, position, Nat.sub_self]
    rfl
  unfold compactStep
  rw [current]
  dsimp only
  rw [Compacted, taken, following, List.filter_append]
  by_cases selected : keep value = true
  · rw [if_pos selected, List.filter_cons_of_pos selected, List.filter_nil]
    refine ⟨(stale ++ [value]).tail, ?_, ?_, ?_⟩
    · -- The write replaces the first stale element, or the element just read.
      rw [contents, unread, kept, List.set_append_right _ _ (Nat.le_refl _), Nat.sub_self,
        List.append_assoc]
      cases stale with
      | nil => rfl
      | cons first stale => simp
    · simp [kept]
    · simp
      omega
  · rw [if_neg selected, List.filter_cons_of_neg (by simpa using selected), List.filter_nil,
      List.append_nil]
    refine ⟨stale ++ [value], ?_, kept, ?_⟩
    · rw [contents, unread, List.append_assoc]
      rfl
    · rw [List.length_append, List.length_singleton]
      omega

theorem compacted_foldl (keep : α → Bool) (buffer : List α) (read : Nat)
    (inside : read ≤ buffer.length) :
    Compacted keep buffer read
      ((List.range read).foldl (compactStep keep) (buffer, 0)) := by
  induction read with
  | zero => exact ⟨[], rfl, rfl, rfl⟩
  | succ read induction =>
      rw [List.range_succ, List.foldl_append, List.foldl_cons, List.foldl_nil]
      exact (induction (by omega)).step (by omega)

theorem compact_eq_filter (keep : α → Bool) (buffer : List α) :
    compact keep buffer = buffer.filter keep := by
  obtain ⟨stale, contents, kept, -⟩ :=
    compacted_foldl keep buffer buffer.length (Nat.le_refl _)
  rw [List.take_length] at contents kept
  rw [compact, contents, kept, List.take_left]

end InPlaceFilters
