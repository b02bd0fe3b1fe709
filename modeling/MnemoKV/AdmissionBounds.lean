import MnemoKV.PlanningLaws
import MnemoKV.ValueSizes

/-!
# Planned and real growth

The plan of a write announces the growth of the written key.  Whatever the
write does later, also when the key has expired in the meantime, the item it
leaves is no larger than the larger of what was stored and what was planned.
All other writes leave nothing larger behind.
-/

namespace MnemoKV

namespace Item

/-- The accounted size is the exact size. -/
def Exact (key : Bytes) (item : Item) : Prop :=
  item.sizeBytes = item.value.exactSize key ∧ item.sizeBytes < 2 ^ 64

theorem exact_create {key : Bytes} {value : Value}
    (fits : value.exactSize key < 2 ^ 64) (expiresAtNs : Int) :
    (create key value expiresAtNs).Exact key ∧
      (create key value expiresAtNs).sizeBytes = value.exactSize key := by
  have same : (create key value expiresAtNs).sizeBytes = value.exactSize key :=
    Value.size_eq_exactSize fits
  exact ⟨⟨same, same ▸ fits⟩, same⟩

theorem exact_withValue {key : Bytes} {value : Value} (item : Item)
    (fits : value.exactSize key < 2 ^ 64) :
    (item.withValue key value).Exact key ∧
      (item.withValue key value).sizeBytes = value.exactSize key := by
  have same : (item.withValue key value).sizeBytes = value.exactSize key :=
    Value.size_eq_exactSize fits
  exact ⟨⟨same, same ▸ fits⟩, same⟩

end Item

/-- What is stored under the key, if anything, is exact and within the bound. -/
def BoundedBy (key : Bytes) (bound : Nat) (stored : Option Item) : Prop :=
  ∀ item, stored = some item → item.Exact key ∧ item.sizeBytes ≤ bound

namespace BoundedBy

variable {key : Bytes} {bound : Nat}

theorem none : BoundedBy key bound Option.none :=
  fun _ absent => nomatch absent

theorem mono {larger : Nat} {stored : Option Item} (bounded : BoundedBy key bound stored)
    (grows : bound ≤ larger) : BoundedBy key larger stored :=
  fun item found => ⟨(bounded item found).1, (bounded item found).2.trans grows⟩

theorem self {stored : Option Item}
    (exact : ∀ item, stored = some item → item.Exact key) :
    BoundedBy key (AdmissionPlan.sizeOf stored) stored := by
  rintro item rfl
  exact ⟨exact item rfl, le_rfl⟩

theorem sizeOf_le {stored : Option Item} (bounded : BoundedBy key bound stored) :
    AdmissionPlan.sizeOf stored ≤ bound := by
  cases stored with
  | none => exact Nat.zero_le _
  | some item => exact (bounded item rfl).2

theorem live {stored : Option Item} (bounded : BoundedBy key bound stored)
    (now : Int) : BoundedBy key bound (liveAt now stored) := by
  rcases liveAt_cases now stored with same | gone
  · rwa [same]
  · rw [gone]
    exact BoundedBy.none

theorem create {value : Value} (fits : value.exactSize key < 2 ^ 64)
    (within : value.exactSize key ≤ bound) (expiresAtNs : Int) :
    BoundedBy key bound (some (.create key value expiresAtNs)) := by
  intro item found
  obtain rfl := Option.some.inj found
  obtain ⟨exact, same⟩ := Item.exact_create fits expiresAtNs
  exact ⟨exact, same ▸ within⟩

theorem withValue {value : Value} (fits : value.exactSize key < 2 ^ 64)
    (within : value.exactSize key ≤ bound) (item : Item) :
    BoundedBy key bound (some (item.withValue key value)) := by
  intro other found
  obtain rfl := Option.some.inj found
  obtain ⟨exact, same⟩ := item.exact_withValue fits
  exact ⟨exact, same ▸ within⟩

end BoundedBy

theorem parseInt64_range {text : Bytes} {value : Int}
    (parsed : parseInt64 text = some value) :
    minInt64 ≤ value ∧ value ≤ maxInt64 := by
  have inside : ∀ number : Int, inInt64 number = some value →
      minInt64 ≤ value ∧ value ≤ maxInt64 := by
    intro number accepted
    unfold inInt64 at accepted
    split_ifs at accepted with range
    obtain rfl := Option.some.inj accepted
    exact range
  unfold parseInt64 at parsed
  split at parsed
  · cases parsed
  · obtain rfl := Option.some.inj parsed
    decide
  · split_ifs at parsed
    exact inside _ parsed
  · split_ifs at parsed
    exact inside _ parsed

theorem length_formatInt64_le {value : Int} (low : minInt64 ≤ value)
    (high : value ≤ maxInt64) : (formatInt64 value).length ≤ 20 := by
  refine DecimalNumerals.length_writeInt_le (by decide) ?_
  simp only [minInt64, maxInt64] at low high
  omega

/-! ### Plans that write -/

namespace AdmissionPlan

theorem forSet_write {key data : Bytes} {options : SetOptions}
    {stored : Option Item}
    (writes : (forSet key data options stored).response = none) :
    forSet key data options stored =
      write key (sizeOf stored) (stringEntrySize key data) := by
  unfold forSet at writes ⊢
  split_ifs at writes ⊢
  · cases writes
  · cases writes
  · rfl

/-- The number that an increment starts from. -/
def Starts (stored : Option Item) (current : Int) : Prop :=
  stored = none ∧ current = 0 ∨
    ∃ item data, stored = some item ∧ item.value = .string data ∧
      parseInt64 data = some current

theorem forIncr_write {key : Bytes} {stored : Option Item}
    (writes : (forIncr key stored).response = none) :
    ∃ current, Starts stored current ∧ current ≠ maxInt64 ∧
      forIncr key stored = write key (sizeOf stored)
        (stringEntrySize key (formatInt64 (current + 1))) := by
  unfold forIncr at writes ⊢
  split at writes
  · rename_i item
    split at writes
    · rename_i data string
      split at writes
      · cases writes
      · rename_i current parsed
        split_ifs at writes with largest
        · cases writes
        · refine ⟨current, .inr ⟨item, data, rfl, string, parsed⟩, largest, ?_⟩
          exact if_neg largest
    · cases writes
  · exact ⟨0, .inl ⟨rfl, rfl⟩, by decide, rfl⟩

theorem forPush_write {key : Bytes} {values : List Bytes} {stored : Option Item}
    (writes : (forPush key values stored).response = none) :
    (stored = none ∧ forPush key values stored = write key 0
        (saturatingAdd (64 + key.length) (pushedListBytes values))) ∨
      ∃ item items, stored = some item ∧ item.value = .list items ∧
        forPush key values stored = write key item.sizeBytes
          (saturatingAdd item.sizeBytes (pushedListBytes values)) := by
  unfold forPush at writes ⊢
  split at writes
  · rename_i item
    split at writes
    · rename_i items list
      exact .inr ⟨item, items, rfl, list, rfl⟩
    · cases writes
  · exact .inl ⟨rfl, rfl⟩

theorem forZAdd_write {key : Bytes} {pairs : List (Number × Bytes)}
    {stored : Option Item}
    (writes : (forZAdd key pairs stored).response = none) :
    (stored = none ∧ forZAdd key pairs stored = write key 0
        (saturatingAdd (80 + key.length)
          (addedMemberBytes (fun _ => false) [] pairs 0))) ∨
      ∃ item members, stored = some item ∧ item.value = .zset members ∧
        forZAdd key pairs stored = write key item.sizeBytes
          (saturatingAdd item.sizeBytes (addedMemberBytes
            (fun member => (members.score member).isSome) [] pairs 0)) := by
  unfold forZAdd at writes ⊢
  split at writes
  · rename_i item
    split at writes
    · rename_i members zset
      exact .inr ⟨item, members, rfl, zset, rfl⟩
    · cases writes
  · exact .inl ⟨rfl, rfl⟩

end AdmissionPlan

/-- A write that its plan lets through succeeds on what was planned for. -/
theorem Growing.succeeds (request : Growing) {key : Bytes} {stored : Option Item}
    (silent : (request.plan key stored).response = none) (options : SetOptions) :
    ((request.withOptions options).effect key stored).1.isError = false := by
  cases request with
  | set data =>
      dsimp only [withOptions, effect]
      cases stored <;> dsimp only [Effect.set] <;> split_ifs <;> rfl
  | incr =>
      obtain ⟨current, starts, below, -⟩ := AdmissionPlan.forIncr_write silent
      rcases starts with ⟨rfl, -⟩ | ⟨item, data, rfl, string, parsed⟩
      · rfl
      · have smaller : ¬ current > maxInt64 - 1 := by
          have inside := parseInt64_range parsed
          omega
        simp only [withOptions, effect, Effect.incr, string, parsed, if_neg smaller]
        rfl
  | push left values =>
      rcases AdmissionPlan.forPush_write silent with ⟨rfl, -⟩ | ⟨item, items, rfl, list, -⟩
      · rfl
      · simp only [withOptions, effect, Effect.push, list]
        rfl
  | zadd pairs =>
      rcases AdmissionPlan.forZAdd_write silent with ⟨rfl, -⟩ | ⟨item, members, rfl, zset, -⟩
      · rfl
      · simp only [withOptions, effect, Effect.zadd, zset]
        rfl

/-! ### Growing writes -/

section Growing

variable {key : Bytes} {stored live : Option Item}

/-- What the written key holds when the write comes is what was planned on, or
nothing. -/
theorem bounded_of_seen {bound : Nat}
    (exact : ∀ item, stored = some item → item.Exact key)
    (seen : live = stored ∨ live = none) :
    BoundedBy key (max (AdmissionPlan.sizeOf stored) bound) live := by
  rcases seen with rfl | rfl
  · exact (BoundedBy.self exact).mono (Nat.le_max_left _ _)
  · exact .none

theorem set_bounded {data : Bytes} {options : SetOptions}
    (short : key.length + data.length < 2 ^ 63)
    (exact : ∀ item, stored = some item → item.Exact key)
    (seen : live = stored ∨ live = none)
    (writes : (AdmissionPlan.forSet key data options stored).response = none)
    (later : SetOptions) :
    BoundedBy key
      (max (AdmissionPlan.sizeOf stored)
        (AdmissionPlan.forSet key data options stored).resultingSize)
      (Effect.set key data later live).2 := by
  have fits : (Value.string data).exactSize key < 2 ^ 64 :=
    show 64 + key.length + data.length < 2 ^ 64 by omega
  have written : ∀ expiresAtNs, BoundedBy key
      (max (AdmissionPlan.sizeOf stored) (stringEntrySize key data))
      (some (.create key (.string data) expiresAtNs)) := by
    intro expiresAtNs
    refine BoundedBy.create fits ?_ expiresAtNs
    rw [← Value.size_eq_exactSize fits]
    exact Nat.le_max_right _ _
  have kept : BoundedBy key
      (max (AdmissionPlan.sizeOf stored) (stringEntrySize key data)) live :=
    bounded_of_seen exact seen
  rw [AdmissionPlan.forSet_write writes]
  cases live with
  | none =>
      dsimp only [Effect.set]
      split_ifs
      · exact kept
      · exact written _
  | some item =>
      dsimp only [Effect.set]
      split_ifs
      · exact kept
      · exact written _

theorem incr_bounded (short : key.length < 2 ^ 63)
    (exact : ∀ item, stored = some item → item.Exact key)
    (seen : live = stored ∨ live = none)
    (writes : (AdmissionPlan.forIncr key stored).response = none) :
    BoundedBy key
      (max (AdmissionPlan.sizeOf stored)
        (AdmissionPlan.forIncr key stored).resultingSize)
      (Effect.incr key live).2 := by
  obtain ⟨current, starts, below, planned⟩ := AdmissionPlan.forIncr_write writes
  have range : minInt64 ≤ current + 1 ∧ current + 1 ≤ maxInt64 := by
    rcases starts with ⟨-, rfl⟩ | ⟨item, data, -, -, parsed⟩
    · decide
    · have inside := parseInt64_range parsed
      omega
  have digits := length_formatInt64_le range.1 range.2
  have fits : (Value.string (formatInt64 (current + 1))).exactSize key < 2 ^ 64 :=
    show 64 + key.length + (formatInt64 (current + 1)).length < 2 ^ 64 by omega
  have planSize : (AdmissionPlan.forIncr key stored).resultingSize =
      (Value.string (formatInt64 (current + 1))).exactSize key := by
    rw [planned]
    exact Value.size_eq_exactSize fits
  have one : (Value.string (formatInt64 1)).exactSize key ≤
      (Value.string (formatInt64 (current + 1))).exactSize key := by
    have nonempty := List.length_pos_iff.mpr
      (DecimalNumerals.writeInt_ne_nil (current + 1))
    have single : (formatInt64 1).length = 1 := by decide
    change 64 + key.length + (formatInt64 1).length ≤
      64 + key.length + (DecimalNumerals.writeInt (current + 1)).length
    omega
  rw [planSize]
  cases live with
  | none =>
      exact .create (one.trans_lt fits) (one.trans (Nat.le_max_right _ _)) 0
  | some item =>
      obtain rfl : some item = stored := by simpa using seen
      rcases starts with ⟨absent, -⟩ | ⟨other, data, same, string, parsed⟩
      · cases absent
      · obtain rfl := Option.some.inj same
        have smaller : ¬ current > maxInt64 - 1 := by
          have inside := parseInt64_range parsed
          omega
        simp only [Effect.incr, string, parsed, if_neg smaller]
        exact .withValue fits (Nat.le_max_right _ _) item

theorem push_bounded (left : Bool) {values : List Bytes}
    (short : key.length < 2 ^ 63)
    (exact : ∀ item, stored = some item → item.Exact key)
    (seen : live = stored ∨ live = none)
    (writes : (AdmissionPlan.forPush key values stored).response = none)
    (unsaturated :
      (AdmissionPlan.forPush key values stored).resultingSize < maxUint64) :
    BoundedBy key
      (max (AdmissionPlan.sizeOf stored)
        (AdmissionPlan.forPush key values stored).resultingSize)
      (Effect.push left key values live).2 := by
  have created : (Value.list (pushItems left values [])).exactSize key =
      64 + key.length + itemBytes values := Value.exactSize_pushItems key left values []
  rcases AdmissionPlan.forPush_write writes with
    ⟨rfl, planned⟩ | ⟨item, items, rfl, list, planned⟩
  · obtain rfl : live = none := by simpa using seen
    rw [planned] at unsaturated ⊢
    obtain ⟨size, fits⟩ := saturatingAdd_exact (by simp only [maxUint64]; omega)
      (pushedListBytes_eq_min values) unsaturated
    dsimp only [AdmissionPlan.write]
    exact .create (by omega) (by omega) 0
  · have stored := exact item rfl
    have old : item.sizeBytes = 64 + key.length + itemBytes items := by
      rw [stored.1, list]
      rfl
    rw [planned] at unsaturated ⊢
    obtain ⟨size, fits⟩ := saturatingAdd_exact (Nat.le_pred_of_lt stored.2)
      (pushedListBytes_eq_min values) unsaturated
    dsimp only [AdmissionPlan.write]
    rcases seen with rfl | rfl
    · have grown := Value.exactSize_pushItems key left values items
      simp only [Effect.push, list]
      exact .withValue (by omega) (by omega) item
    · exact .create (by omega) (by omega) 0

theorem zadd_bounded {pairs : List (Number × Bytes)}
    (short : key.length < 2 ^ 63)
    (exact : ∀ item, stored = some item → item.Exact key)
    (seen : live = stored ∨ live = none)
    (writes : (AdmissionPlan.forZAdd key pairs stored).response = none)
    (unsaturated :
      (AdmissionPlan.forZAdd key pairs stored).resultingSize < maxUint64) :
    BoundedBy key
      (max (AdmissionPlan.sizeOf stored)
        (AdmissionPlan.forZAdd key pairs stored).resultingSize)
      (Effect.zadd key pairs live).2 := by
  have created := Value.exactSize_empty_addAll key pairs
  rcases AdmissionPlan.forZAdd_write writes with
    ⟨rfl, planned⟩ | ⟨item, members, rfl, zset, planned⟩
  · obtain rfl : live = none := by simpa using seen
    rw [planned] at unsaturated ⊢
    obtain ⟨size, fits⟩ := saturatingAdd_exact (by simp only [maxUint64]; omega)
      (addedMemberBytes_nil_eq_min _ pairs) unsaturated
    dsimp only [AdmissionPlan.write]
    exact .create (by omega) (by omega) 0
  · have stored := exact item rfl
    have old : item.sizeBytes = 80 + key.length + members.memberBytes := by
      rw [stored.1, zset]
      rfl
    have grown := Value.exactSize_addAll key members pairs
    have fewer := members.memberBytes_empty_addAll_le pairs
    have extended : (Value.zset (members.addAll pairs).2).exactSize key =
        80 + key.length + (members.addAll pairs).2.memberBytes := rfl
    have fresh : (Value.zset (ZSetValue.empty.addAll pairs).2).exactSize key =
        80 + key.length + (ZSetValue.empty.addAll pairs).2.memberBytes := rfl
    rw [planned] at unsaturated ⊢
    obtain ⟨size, fits⟩ := saturatingAdd_exact (Nat.le_pred_of_lt stored.2)
      (addedMemberBytes_nil_eq_min _ pairs) unsaturated
    dsimp only [AdmissionPlan.write]
    rcases seen with rfl | rfl
    · simp only [Effect.zadd, zset]
      exact .withValue (by omega) (by omega) item
    · exact .create (by omega) (by omega) 0

end Growing

/-! ### Other writes -/

theorem pop_bounded {key : Bytes} {live : Option Item} {bound : Nat}
    (bounded : BoundedBy key bound live) (left : Bool) :
    BoundedBy key bound (Effect.pop left key live).2 := by
  cases live with
  | none => exact bounded
  | some item =>
      obtain ⟨exact, within⟩ := bounded item rfl
      simp only [Effect.pop]
      split
      · rename_i items list
        split
        · exact bounded
        · rename_i popped rest taken
          split_ifs
          · exact .none
          · have old : item.sizeBytes = 64 + key.length + itemBytes items := by
              rw [exact.1, list]
              rfl
            have shorter := itemBytes_popItem taken
            have fits := exact.2
            have remaining : (Value.list rest).exactSize key =
                64 + key.length + itemBytes rest := rfl
            exact .withValue (by omega) (by omega) item
      · exact bounded

theorem expireAt_bounded {key : Bytes} {live : Option Item} {bound : Nat}
    (bounded : BoundedBy key bound live) (deadline : Int) :
    BoundedBy key bound (Effect.expireAt deadline live).2 := by
  cases live with
  | none => exact bounded
  | some item =>
      intro other found
      obtain rfl := Option.some.inj found
      exact bounded item rfl

end MnemoKV
