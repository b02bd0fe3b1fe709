import MnemoKV.KeyedListings
import MnemoKV.WriteAdmission

/-!
# Exact sizes of values

The accounted size of a value is a 64-bit number and the admission arithmetic
saturates.  Here both are compared with the exact size, and the sizes after a
push, a pop and an insertion into a sorted set with the size before.
-/

namespace MnemoKV

open KeyedListings (Lists total held)

def itemBytes (items : List Bytes) : Nat :=
  (items.map fun item => 48 + item.length).sum

/-- What the rows of a sorted set's index weigh. -/
def memberWeight (member : Bytes) (_ : Number) : Nat := 64 + member.length

def ZSetValue.memberBytes (value : ZSetValue) : Nat :=
  total memberWeight value.index.toList

/-- The size of a value before reduction to 64 bits. -/
def Value.exactSize (key : Bytes) : Value → Nat
  | .string data => 64 + key.length + data.length
  | .list items => 64 + key.length + itemBytes items
  | .zset members => 80 + key.length + members.memberBytes

theorem Value.size_eq_wrap64 (key : Bytes) (value : Value) :
    value.size key = wrap64 (value.exactSize key) := by
  cases value <;> rfl

theorem Value.size_eq_exactSize {key : Bytes} {value : Value}
    (fits : value.exactSize key < 2 ^ 64) :
    value.size key = value.exactSize key := by
  rw [size_eq_wrap64, wrap64, Nat.mod_eq_of_lt fits]

/-! ### Saturating sums -/

theorem saturatingAdd_eq_min {first : Nat} (fits : first ≤ maxUint64)
    (second : Nat) : saturatingAdd first second = min (first + second) maxUint64 := by
  unfold saturatingAdd
  split_ifs <;> omega

/-- A sum with a saturated one that stays below the largest number is exact. -/
theorem saturatingAdd_exact {first second bytes : Nat} (fits : first ≤ maxUint64)
    (sum : second = min bytes maxUint64)
    (unsaturated : saturatingAdd first second < maxUint64) :
    saturatingAdd first second = first + bytes ∧ first + bytes < 2 ^ 64 := by
  rw [saturatingAdd_eq_min fits, sum] at unsaturated ⊢
  simp only [maxUint64] at unsaturated ⊢
  omega

theorem saturatingAdd_of_lt {first second bytes : Nat}
    (sum : second = min bytes maxUint64) (below : first + bytes < 2 ^ 64) :
    saturatingAdd first second = first + bytes := by
  rw [saturatingAdd_eq_min (by simp only [maxUint64]; omega), sum]
  simp only [maxUint64]
  omega

theorem saturatingAdd_min (first second : Nat) :
    saturatingAdd (min first maxUint64) second =
      min (first + second) maxUint64 := by
  rw [saturatingAdd_eq_min (Nat.min_le_right _ _)]
  omega

theorem pushedListBytes_eq_min (values : List Bytes) :
    pushedListBytes values = min (itemBytes values) maxUint64 := by
  have loop : ∀ (values : List Bytes) (size : Nat),
      values.foldl (fun size value => saturatingAdd size (48 + value.length))
        (min size maxUint64) = min (size + itemBytes values) maxUint64 := by
    intro values
    induction values with
    | nil => exact fun _ => rfl
    | cons value values induction =>
        intro size
        rw [List.foldl_cons, saturatingAdd_min, induction, itemBytes, itemBytes,
          List.map_cons, List.sum_cons, Nat.add_assoc]
  have whole := loop values 0
  rwa [Nat.zero_min, Nat.zero_add] at whole

/-- The sizes of the members that are neither seen nor present. -/
def freshMemberBytes (present : Bytes → Bool) :
    List Bytes → List (Number × Bytes) → Nat
  | _, [] => 0
  | seen, pair :: rest =>
      if pair.2 ∈ seen ∨ present pair.2 = true then
        freshMemberBytes present seen rest
      else 64 + pair.2.length + freshMemberBytes present (pair.2 :: seen) rest

theorem addedMemberBytes_eq_min (present : Bytes → Bool) (seen : List Bytes)
    (pairs : List (Number × Bytes)) (added : Nat) :
    addedMemberBytes present seen pairs (min added maxUint64) =
      min (added + freshMemberBytes present seen pairs) maxUint64 := by
  induction pairs generalizing seen added with
  | nil => rfl
  | cons pair rest induction =>
      unfold addedMemberBytes freshMemberBytes
      split_ifs
      · exact induction seen added
      · rw [saturatingAdd_min, induction, Nat.add_assoc]

theorem addedMemberBytes_nil_eq_min (present : Bytes → Bool) (pairs : List (Number × Bytes)) :
    addedMemberBytes present [] pairs 0 =
      min (freshMemberBytes present [] pairs) maxUint64 := by
  have whole := addedMemberBytes_eq_min present [] pairs 0
  rwa [Nat.zero_min, Nat.zero_add] at whole

/-! ### Lists -/

theorem itemBytes_pushItems (left : Bool) (values items : List Bytes) :
    itemBytes (pushItems left values items) =
      itemBytes items + itemBytes values := by
  cases left <;> simp [pushItems, itemBytes, Nat.add_comm]

theorem Value.exactSize_pushItems (key : Bytes) (left : Bool) (values items : List Bytes) :
    (Value.list (pushItems left values items)).exactSize key =
      64 + key.length + itemBytes items + itemBytes values := by
  change 64 + key.length + itemBytes _ = _
  rw [itemBytes_pushItems]
  omega

theorem itemBytes_popItem {left : Bool} {items rest : List Bytes} {item : Bytes}
    (popped : popItem left items = some (item, rest)) :
    itemBytes rest ≤ itemBytes items := by
  have shorter : rest.Sublist items := by
    unfold popItem at popped
    split_ifs at popped
    · obtain ⟨head, -, same⟩ := Option.map_eq_some_iff.mp popped
      obtain ⟨rfl, rfl⟩ := Prod.mk.inj same
      exact List.tail_sublist items
    · obtain ⟨last, -, same⟩ := Option.map_eq_some_iff.mp popped
      obtain ⟨rfl, rfl⟩ := Prod.mk.inj same
      exact List.dropLast_sublist items
  exact (shorter.map _).sum_le_sum fun _ _ => Nat.zero_le _

/-! ### Sorted sets -/

namespace ZSetValue

theorem lists_index (value : ZSetValue) : Lists value.score value.index.toList where
  distinct := by
    rw [Std.ExtTreeMap.map_fst_toList_eq_keys]
    exact Std.ExtTreeMap.nodup_keys
  complete member score := Std.ExtTreeMap.mem_toList_iff_getElem?_eq_some

/-- Adding a member gives it the score, or leaves an equal one. -/
theorem score_add (value : ZSetValue) (score : Number) (member : Bytes) :
    ∃ kept, (value.add score member).2.score =
      Function.update value.score member (some kept) := by
  have inserted : ∀ number : Number, (fun other =>
      (value.index.insert member number)[other]?) =
        Function.update value.score member (some number) := by
    intro number
    funext other
    rw [Std.ExtTreeMap.getElem?_insert]
    by_cases same : member = other
    · subst same
      simp
    · simp [same, Function.update_of_ne (Ne.symm same), ZSetValue.score]
  unfold add
  split
  · rename_i old found
    split_ifs
    · refine ⟨old, ?_⟩
      rw [show some old = value.score member from found.symm,
        Function.update_eq_self]
    · exact ⟨score, inserted score⟩
  · exact ⟨score, inserted score⟩

theorem memberBytes_add (value : ZSetValue) (score : Number) (member : Bytes) :
    (value.add score member).2.memberBytes =
      value.memberBytes +
        if (value.score member).isSome then 0 else 64 + member.length := by
  obtain ⟨kept, updated⟩ := value.score_add score member
  have balance := value.lists_index.total_update memberWeight
    (updated ▸ (value.add score member).2.lists_index)
  unfold memberBytes
  cases stored : value.score member with
  | none =>
      rw [stored] at balance
      exact balance
  | some old =>
      rw [stored] at balance
      exact Nat.add_right_cancel balance

/-- One turn of the loop of `zsetAdd`. -/
def addStep (state : Nat × ZSetValue) (pair : Number × Bytes) : Nat × ZSetValue :=
  let added := state.2.add pair.1 pair.2
  (if added.1 then state.1 + 1 else state.1, added.2)

/-- The set after the loop of `zsetAdd`. -/
theorem addAll_cons (value : ZSetValue) (pair : Number × Bytes)
    (pairs : List (Number × Bytes)) :
    (value.addAll (pair :: pairs)).2 =
      ((value.add pair.1 pair.2).2.addAll pairs).2 := by
  have loop : ∀ (pairs : List (Number × Bytes)) (first second : Nat)
      (value : ZSetValue),
      (pairs.foldl addStep (first, value)).2 =
        (pairs.foldl addStep (second, value)).2 := by
    intro pairs
    induction pairs with
    | nil => exact fun _ _ _ => rfl
    | cons pair pairs induction => exact fun _ _ _ => induction _ _ _
  exact loop pairs _ _ _

theorem memberBytes_addAll (present : Bytes → Bool) (seen : List Bytes)
    (pairs : List (Number × Bytes)) (value : ZSetValue)
    (known : ∀ member, (value.score member).isSome = true ↔
      member ∈ seen ∨ present member = true) :
    (value.addAll pairs).2.memberBytes =
      value.memberBytes + freshMemberBytes present seen pairs := by
  induction pairs generalizing value seen with
  | nil => rfl
  | cons pair pairs induction =>
      obtain ⟨kept, updated⟩ := value.score_add pair.1 pair.2
      rw [addAll_cons]
      unfold freshMemberBytes
      split_ifs with old
      · rw [induction seen _ ?_, memberBytes_add, if_pos ((known pair.2).mpr old),
          Nat.add_zero]
        intro member
        rw [updated]
        by_cases same : member = pair.2
        · subst same
          simpa using old
        · rw [Function.update_of_ne same]
          exact known member
      · have fresh : ¬ (value.score pair.2).isSome = true := fun stored =>
          old ((known pair.2).mp stored)
        rw [induction (pair.2 :: seen) _ ?_, memberBytes_add, if_neg fresh,
          Nat.add_assoc]
        intro member
        rw [updated]
        by_cases same : member = pair.2
        · subst same
          simp
        · rw [Function.update_of_ne same, List.mem_cons]
          simp [same, known]

theorem score_addAll_isSome (pairs : List (Number × Bytes)) (value : ZSetValue)
    (member : Bytes) :
    ((value.addAll pairs).2.score member).isSome = true ↔
      (value.score member).isSome = true ∨ member ∈ pairs.map Prod.snd := by
  induction pairs generalizing value with
  | nil => simp [addAll]
  | cons pair pairs induction =>
      obtain ⟨kept, updated⟩ := value.score_add pair.1 pair.2
      rw [addAll_cons, induction, updated]
      by_cases same : member = pair.2
      · subst same
        simp
      · simp [same]

/-- The members added to nothing weigh no more than those added to a set. -/
theorem memberBytes_empty_addAll_le (value : ZSetValue)
    (pairs : List (Number × Bytes)) :
    (empty.addAll pairs).2.memberBytes ≤ (value.addAll pairs).2.memberBytes := by
  refine (value.addAll pairs).2.lists_index.total_mono memberWeight
    (empty.addAll pairs).2.lists_index fun member => ?_
  cases fresh : (empty.addAll pairs).2.score member with
  | none => exact Nat.zero_le _
  | some score =>
      have listed : member ∈ pairs.map Prod.snd := by
        have stored := (score_addAll_isSome pairs empty member).mp
          (by rw [fresh]; rfl)
        simpa [ZSetValue.score, empty] using stored
      obtain ⟨other, stored⟩ := Option.isSome_iff_exists.mp
        ((score_addAll_isSome pairs value member).mpr (.inr listed))
      rw [stored]
      exact le_rfl

end ZSetValue

theorem Value.exactSize_addAll (key : Bytes) (members : ZSetValue)
    (pairs : List (Number × Bytes)) :
    (Value.zset (members.addAll pairs).2).exactSize key =
      80 + key.length + members.memberBytes +
        freshMemberBytes (fun member => (members.score member).isSome) [] pairs := by
  have grown := ZSetValue.memberBytes_addAll (fun member => (members.score member).isSome) []
    pairs members (by simp)
  change 80 + key.length + (members.addAll pairs).2.memberBytes = _
  omega

theorem Value.exactSize_empty_addAll (key : Bytes) (pairs : List (Number × Bytes)) :
    (Value.zset (ZSetValue.empty.addAll pairs).2).exactSize key =
      80 + key.length + freshMemberBytes (fun _ => false) [] pairs := by
  have none : ∀ member, (ZSetValue.empty.score member).isSome = false := by
    simp [ZSetValue.score, ZSetValue.empty]
  have emptyBytes : ZSetValue.empty.memberBytes = 0 := rfl
  rw [exactSize_addAll, emptyBytes, Nat.add_zero]
  simp only [none]

end MnemoKV
