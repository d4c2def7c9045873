import Aafp.Cbor.Canonical

/-! The keys of decoded maps. -/
namespace Aafp.Cbor

open Foundation List

def Value.DistinctKeys : Value → Prop
  | .array items => ∀ item ∈ items, item.DistinctKeys
  | .intMap entries => (entries.map Prod.fst).Nodup ∧ ∀ entry ∈ entries, entry.2.DistinctKeys
  | .strMap entries => (entries.map Prod.fst).Nodup ∧ ∀ entry ∈ entries, entry.2.DistinctKeys
  | _ => True
decreasing_by all_goals first | decreasing_tactic | exact sizeOf_intEntry_lt ‹_› | exact sizeOf_strEntry_lt ‹_›

def Value.intKeys : Value → List Int
  | .array items => items.flatMap fun item => item.intKeys
  | .intMap entries => entries.flatMap fun entry => entry.1.toInt :: entry.2.intKeys
  | .strMap entries => entries.flatMap fun entry => entry.2.intKeys
  | _ => []
decreasing_by all_goals first | decreasing_tactic | exact sizeOf_intEntry_lt ‹_› | exact sizeOf_strEntry_lt ‹_›

def Item.integer : Item → Option Int
  | .unsigned arg => some arg.toNat
  | .negative arg => some (-1 - arg.toNat)
  | _ => none

def Item.intKeys : Item → List Int
  | .array items => items.flatMap fun item => item.intKeys
  | .map entries => entries.flatMap fun entry => entry.1.integer.toList ++ entry.2.intKeys
  | _ => []
decreasing_by all_goals first | decreasing_tactic | exact sizeOf_value_lt ‹_›

theorem integer_intKeyItem (key : Int64) : (intKeyItem key).integer = some key.toInt := by
  unfold intKeyItem
  split
  next nonneg => rw [Item.integer, toUInt64_toNat_of_nonneg nonneg]
  next negative =>
    have mirrored : 0 ≤ -1 - key := mirror_nonneg_iff.mpr (Int64.not_le.mp negative)
    have back : -1 - (-1 - key.toInt) = key.toInt := by omega
    rw [Item.integer, toUInt64_toNat_of_nonneg mirrored, mirror_toInt, back]

theorem Value.intKeys_lt (value : Value) : ∀ key ∈ value.intKeys, key < 2 ^ 63 := by
  induction value with
  | array items ih =>
    rw [Value.intKeys]
    intro key mem
    obtain ⟨item, inside, found⟩ := mem_flatMap.mp mem
    exact ih item inside key found
  | intMap entries ih =>
    rw [Value.intKeys]
    intro key mem
    obtain ⟨entry, inside, found⟩ := mem_flatMap.mp mem
    cases found with
    | head => exact entry.1.toInt_lt
    | tail _ later => exact ih entry inside key later
  | strMap entries ih =>
    rw [Value.intKeys]
    intro key mem
    obtain ⟨entry, inside, found⟩ := mem_flatMap.mp mem
    exact ih entry inside key found
  | _ => simp [Value.intKeys]

private theorem intKeyItem_of_lt (accepted : item.Accepted) (isInt : isIntKey item.value = true)
    (small : ∀ key ∈ item.integer, key < 2 ^ 63) : intKeyItem (intKeyOf item.value) = item := by
  apply intKeyItem_intKeyOf accepted isInt
  rintro arg rfl
  have below := small arg.toNat rfl
  change arg.toNat ≤ 2 ^ 63 - 1
  omega

variable {entries : List (Item × Item)}

private theorem nodup_keys (keyOf : Value → κ) (spell : κ → Item)
    (spelled : ∀ entry ∈ entries, spell (keyOf entry.1.value) = entry.1)
    (distinct : (entries.map fun entry => entry.1.value).Nodup) :
    (entries.map fun entry => keyOf entry.1.value).Nodup := by
  have cast : (entries.map fun entry => keyOf entry.1.value) =
      (entries.map fun entry => entry.1.value).map keyOf := by
    rw [map_map]
    rfl
  rw [cast]
  apply distinct.map_on
  intro left leftMember right rightMember same
  obtain ⟨first, firstMember, rfl⟩ := mem_map.mp leftMember
  obtain ⟨second, secondMember, rfl⟩ := mem_map.mp rightMember
  rw [← spelled first firstMember, ← spelled second secondMember, same]

/-- The value holds the keys that its item spells, and no map holds a key twice. -/
structure Item.KeysKept (item : Item) : Prop where
  distinct : item.value.DistinctKeys
  same : item.value.intKeys = item.intKeys

private theorem intMap_keysKept (spelled : ∀ entry ∈ entries, intKeyItem (intKeyOf entry.1.value) = entry.1)
    (distinct : (entries.map fun entry => entry.1.value).Nodup) (values : ∀ entry ∈ entries, entry.2.KeysKept) :
    let map := Value.intMap (entries.map fun entry => (intKeyOf entry.1.value, entry.2.value))
    map.DistinctKeys ∧ map.intKeys = (Item.map entries).intKeys := by
  refine ⟨?_, ?_⟩
  · rw [Value.DistinctKeys, map_map, forall_mem_map]
    exact ⟨nodup_keys intKeyOf intKeyItem spelled distinct, fun entry mem => (values entry mem).distinct⟩
  · rw [Value.intKeys, Item.intKeys, flatMap_map]
    apply flatMap_congr
    intro entry mem
    have integer : entry.1.integer = some (intKeyOf entry.1.value).toInt := by
      rw [← integer_intKeyItem, spelled entry mem]
    rw [integer, (values entry mem).same]
    rfl

private theorem strMap_keysKept (spelled : ∀ entry ∈ entries, .textString (textKeyOf entry.1.value) = entry.1)
    (distinct : (entries.map fun entry => entry.1.value).Nodup) (values : ∀ entry ∈ entries, entry.2.KeysKept) :
    let map := Value.strMap (entries.map fun entry => (textKeyOf entry.1.value, entry.2.value))
    map.DistinctKeys ∧ map.intKeys = (Item.map entries).intKeys := by
  refine ⟨?_, ?_⟩
  · rw [Value.DistinctKeys, map_map, forall_mem_map]
    exact ⟨nodup_keys textKeyOf Item.textString spelled distinct,
      fun entry mem => (values entry mem).distinct⟩
  · rw [Value.intKeys, Item.intKeys, flatMap_map]
    apply flatMap_congr
    intro entry mem
    rw [← spelled entry mem, (values entry mem).same]
    rfl

theorem Item.keysKept {item : Item} (accepted : item.Accepted)
    (small : ∀ key ∈ item.intKeys, key < 2 ^ 63) : item.KeysKept := by
  induction accepted with
  | @array items _ ih =>
    rw [Item.intKeys] at small
    have each : ∀ item ∈ items, item.KeysKept := fun item mem =>
      ih item mem fun key found => small key (mem_flatMap.mpr ⟨item, mem, found⟩)
    refine ⟨?_, ?_⟩
    · rw [Item.value, Value.DistinctKeys, forall_mem_map]
      exact fun item mem => (each item mem).distinct
    · rw [Item.value, Value.intKeys, Item.intKeys, flatMap_map]
      apply flatMap_congr
      exact fun item mem => (each item mem).same
  | @map entries keys _ distinct kind _ valueIh =>
    rw [Item.intKeys] at small
    have here : ∀ entry ∈ entries, ∀ key ∈ entry.1.integer.toList ++ entry.2.intKeys, key < 2 ^ 63 :=
      fun entry mem key found => small key (mem_flatMap.mpr ⟨entry, mem, found⟩)
    have values : ∀ entry ∈ entries, entry.2.KeysKept := fun entry mem =>
      valueIh entry mem fun key found => here entry mem key (mem_append_right _ found)
    have meaning : (Item.map entries).value.DistinctKeys ∧
        (Item.map entries).value.intKeys = (Item.map entries).intKeys := by
      obtain ⟨ints, same⟩ | ⟨texts, same⟩ := Item.value_map_cases kind
      · rw [same]
        apply intMap_keysKept _ distinct values
        intro entry mem
        apply intKeyItem_of_lt (keys entry mem) (ints entry mem)
        intro key found
        exact here entry mem key (mem_append_left _ (Option.mem_toList.mpr found))
      · rw [same]
        apply strMap_keysKept _ distinct values
        exact fun entry mem => textString_textKeyOf (texts entry mem)
    exact ⟨meaning.1, meaning.2⟩
  | @simple kind =>
    constructor <;> cases kind <;> simp [Item.value, Simple.value, Value.DistinctKeys, Value.intKeys, Item.intKeys]
  | _ =>
    constructor <;> simp [Item.value, Value.DistinctKeys, Value.intKeys, Item.intKeys]

/-- A decoded value keeps its keys exactly if none of its unsigned map keys is above `i64::MAX`. -/
theorem decode_keeps_keys_iff (data : List UInt8) (value : Value) (consumed : Nat)
    (bounded : data.length ≤ isizeMax) (read : decode data = .ok (value, consumed)) :
    ∃ item : Item, item.wire = data.take consumed ∧
      (∀ other : Item, other.wire = data.take consumed → other = item) ∧
      (value.DistinctKeys ∧ value.intKeys = item.intKeys ↔ ∀ key ∈ item.intKeys, key < 2 ^ 63) := by
  obtain ⟨item, spans, rfl, -⟩ := decodeValue_sound read
  have moved : consumed = item.wire.length := by simpa using spans.moved
  have here : data = item.wire ++ data.drop consumed := by simpa using spans.here
  have wire : item.wire = data.take consumed := by
    rw [moved]
    conv_rhs => rw [here]
    exact take_left.symm
  have short : (data.take consumed).length < 2 ^ 64 := by
    rw [length_take]
    unfold isizeMax at bounded
    omega
  refine ⟨item, wire, ?_, ?_, ?_⟩
  · intro other same
    have itemFits : item.Fits := item.fits_of_length (by rwa [wire])
    have otherFits : other.Fits := other.fits_of_length (by rwa [same])
    have spelling : other.wire ++ [] = item.wire ++ [] := by rw [same, wire]
    exact (Item.wire_append_inj otherFits itemFits spelling).1
  · rintro ⟨_, same⟩
    rw [← same]
    exact item.value.intKeys_lt
  · intro small
    have kept := Item.keysKept spans.accepted small
    exact ⟨kept.distinct, kept.same⟩

/-- `{1: 2}` keeps its key. -/
theorem decode_keeps_keys_one_entry : ∃ item : Item, item.wire = [0xA1, 0x01, 0x02] ∧
      (∀ other : Item, other.wire = [0xA1, 0x01, 0x02] → other = item) ∧
      ((Value.intMap [(1, .unsigned 2)]).DistinctKeys ∧ (Value.intMap [(1, .unsigned 2)]).intKeys = item.intKeys ↔
        ∀ key ∈ item.intKeys, key < 2 ^ 63) :=
  decode_keeps_keys_iff [0xA1, 0x01, 0x02] (.intMap [(1, .unsigned 2)]) 3 (by decide)
    (by decide +kernel)

/-- `2 ^ 64 - 1` and `-1` are two keys on the wire. -/
def collidingKeys : List UInt8 :=
  [0xA2, 0x1B, 0xFF, 0xFF, 0xFF, 0xFF, 0xFF, 0xFF, 0xFF, 0xFF, 0x00, 0x20, 0x01]

/-- A map with the keys `2 ^ 64 - 1` and `-1` is decoded to one with the key `-1` twice. -/
theorem decode_collides_keys : decode collidingKeys = .ok (.intMap [(-1, .unsigned 0), (-1, .unsigned 1)], 13) ∧
      (Item.map [(.unsigned 0xFFFFFFFFFFFFFFFF, .unsigned 0), (.negative 0, .unsigned 1)]).wire = collidingKeys ∧
      ¬ (Value.intMap [(-1, .unsigned 0), (-1, .unsigned 1)]).DistinctKeys ∧
      (Value.intMap [(-1, .unsigned 0), (-1, .unsigned 1)]).intKeys ≠
        (Item.map [(.unsigned 0xFFFFFFFFFFFFFFFF, .unsigned 0), (.negative 0, .unsigned 1)]).intKeys := by
  refine ⟨by decide +kernel, ?_, ?_, ?_⟩
  · simp only [Item.wire, flatMap_cons, flatMap_nil]
    decide +kernel
  · rw [Value.DistinctKeys]
    simp
  · intro same
    simp only [Value.intKeys, Item.intKeys, Item.integer] at same
    revert same
    decide

end Aafp.Cbor
