import Mathlib.Data.List.Nodup

/-!
# Following a partial successor

Each place names the next one or none.  If every step leads upwards in some rank or
to a place without a successor, then no place is visited twice, and where the ranks
are bounded the path comes to an end.
-/

namespace ForwardingPaths

variable {Place : Type*} (next : Place → Option Place)

/-- The first places on the way from one of them. -/
def path : Nat → Place → List Place
  | 0, _ => []
  | fuel + 1, place =>
      place :: match next place with
        | none => []
        | some other => path fuel other

/-- Steps that do not end the path lead upwards. -/
def Climbs (rank : Place → Nat) : Prop :=
  ∀ place other, next place = some other → next other = none ∨ rank place < rank other

variable {next} {rank : Place → Nat}

theorem eq_of_mem_path {fuel : Nat} {place other : Place} (last : next place = none)
    (visited : other ∈ path next fuel place) : other = place := by
  cases fuel with
  | zero => cases visited
  | succ fuel =>
      rw [path, last] at visited
      exact List.mem_singleton.mp visited

theorem mem_path (climbs : Climbs next rank) {fuel : Nat} {place other : Place}
    (visited : other ∈ path next fuel place) :
    other = place ∨ next other = none ∨ rank place < rank other := by
  induction fuel generalizing place with
  | zero => cases visited
  | succ fuel induction =>
      rw [path] at visited
      rcases List.mem_cons.mp visited with here | later
      · exact .inl here
      · cases found : next place with
        | none => simp [found] at later
        | some second =>
            rw [found] at later
            rcases induction later with rfl | last | above
            · exact .inr (climbs place other found)
            · exact .inr (.inl last)
            · rcases climbs place second found with last | below
              · obtain rfl := eq_of_mem_path last later
                exact .inr (.inl last)
              · exact .inr (.inr (Nat.lt_trans below above))

theorem nodup_path (climbs : Climbs next rank) (fuel : Nat) (place : Place) :
    (path next fuel place).Nodup := by
  induction fuel generalizing place with
  | zero => exact List.nodup_nil
  | succ fuel induction =>
      rw [path]
      cases found : next place with
      | none => exact List.nodup_singleton place
      | some second =>
          refine List.nodup_cons.mpr ⟨fun again => ?_, induction second⟩
          have apart : place ≠ second := by
            rintro rfl
            rcases climbs place place found with last | below
            · rw [found] at last
              cases last
            · exact Nat.lt_irrefl _ below
          rcases mem_path climbs again with here | last | above
          · exact apart here
          · rw [found] at last
            cases last
          · rcases climbs place second found with last | below
            · exact apart (eq_of_mem_path last again)
            · exact Nat.lt_asymm above below

theorem exists_path_end (climbs : Climbs next rank) {limit : Nat}
    (bounded : ∀ place, rank place ≤ limit) (place : Place) :
    ∃ fuel last, (path next fuel place).getLast? = some last ∧ next last = none := by
  induction room : limit - rank place using Nat.strongRecOn generalizing place with
  | _ room induction =>
      cases found : next place with
      | none =>
          refine ⟨1, place, ?_, found⟩
          rw [path, found]
          rfl
      | some second =>
          have goesOn : ∃ fuel last, (path next fuel second).getLast? = some last ∧
              next last = none := by
            rcases climbs place second found with last | below
            · refine ⟨1, second, ?_, last⟩
              rw [path, last]
              rfl
            · have highest := bounded second
              exact induction (limit - rank second) (by omega) second rfl
          obtain ⟨fuel, last, ends, stops⟩ := goesOn
          refine ⟨fuel + 1, last, ?_, stops⟩
          rw [path, found]
          dsimp only
          cases rest : path next fuel second with
          | nil =>
              rw [rest] at ends
              cases ends
          | cons head tail =>
              rw [rest] at ends
              rw [List.getLast?_cons_cons]
              exact ends

end ForwardingPaths
