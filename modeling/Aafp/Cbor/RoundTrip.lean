import Aafp.Cbor.Normal

/-! Decoding undoes encoding up to normal form. -/
namespace Aafp.Cbor

open Foundation List Value

def intKeyItem (key : Int64) : Item :=
  if 0 ≤ key then .unsigned key.toUInt64 else .negative (-1 - key).toUInt64

variable (key : Int64)

theorem intKeyItem_wire : (intKeyItem key).wire = encodeIntKey key := by
  unfold intKeyItem encodeIntKey
  split <;> rw [Item.wire]

theorem intKeyItem_isIntKey : isIntKey (intKeyItem key).value = true := by
  unfold intKeyItem
  split <;> simp [Item.value, isIntKey]

theorem intKeyOf_intKeyItem : intKeyOf (intKeyItem key).value = key := by
  unfold intKeyItem
  split
  · simp [Item.value, intKeyOf]
  · simp only [Item.value, intKeyOf, Int64.toInt64_toUInt64]
    grind

private theorem mirror_inRange {n : Int64} (below : n < 0) : (-1 - n).toUInt64 ≤ i64Max := by
  have nonneg := mirror_nonneg_iff.mpr below
  exact toInt64_nonneg_iff.mp nonneg

theorem intKeyItem_accepted : (intKeyItem key).Accepted := by
  unfold intKeyItem
  split
  · exact .unsigned
  next negative => exact .negative (mirror_inRange (Int64.not_le.mp negative))

theorem intKeyItem_height : (intKeyItem key).height = 1 := by
  unfold intKeyItem
  split <;> simp [Item.height]

theorem value_strMap (entries : List (String × Item)) :
    (Item.map (entries.map fun entry => (.textString entry.1, entry.2))).value =
      if entries.isEmpty then .intMap [] else .strMap (entries.map fun entry => (entry.1, entry.2.value)) := by
  cases entries <;> simp [Item.value, Function.comp_def, isIntKey, textKeyOf]

private theorem sizeOf_value_lt {entries : List (κ × Value)} [SizeOf κ] (mem : entry ∈ entries) :
    sizeOf entry.2 < 1 + sizeOf entries := by
  have entryLt := sizeOf_lt_of_mem mem
  obtain ⟨key, value⟩ := entry
  simp only [Prod.mk.sizeOf_spec] at entryLt ⊢
  omega

def Value.item : Value → Item
  | .unsigned n => .unsigned n
  | .negative n => .negative (-1 - n).toUInt64
  | .byteString bytes => .byteString bytes
  | .textString text => .textString text
  | .array items => .array (items.map fun item => item.item)
  | .intMap entries => .map ((sortIntKeys (entries.map fun entry => (entry.1, entry.2.item))).map
      fun entry => (intKeyItem entry.1, entry.2))
  | .strMap entries => .map ((sortStrKeys (entries.map fun entry => (entry.1, entry.2.item))).map
      fun entry => (.textString entry.1, entry.2))
  | .bool flag => .simple (if flag then .true else .false)
  | .null => .simple .null
decreasing_by
  · decreasing_tactic
  · simpa using sizeOf_value_lt ‹_›
  · simpa using sizeOf_value_lt ‹_›

theorem Value.item_intMap (entries : List (Int64 × Value)) : (intMap entries).item =
    .map ((sortIntKeys entries).map fun entry => (intKeyItem entry.1, entry.2.item)) := by
  rw [item, sortIntKeys_map, map_map]
  rfl

theorem Value.item_strMap (entries : List (String × Value)) : (strMap entries).item =
    .map ((sortStrKeys entries).map fun entry => (.textString entry.1, entry.2.item)) := by
  rw [item, sortStrKeys_map, map_map]
  rfl

variable (value : Value)

theorem Value.item_wire : value.item.wire = encodeValue value := by
  induction value with
  | array items ih =>
    rw [item, Item.wire, encodeValue_array]
    simp only [lenArgument, length_map, flatMap_map]
    rw [flatMap_congr ih]
  | intMap entries ih =>
    have each : ∀ entry ∈ sortIntKeys entries, entry.2.item.wire = encodeValue entry.2 :=
      fun entry mem => ih entry ((sortIntKeys_perm entries).mem_iff.mp mem)
    rw [item_intMap, Item.wire, encodeValue_intMap]
    simp only [lenArgument, length_map, (sortIntKeys_perm entries).length_eq,
      flatMap_map, intKeyItem_wire]
    rw [flatMap_congr fun entry mem => by rw [each entry mem]]
  | strMap entries ih =>
    have each : ∀ entry ∈ sortStrKeys entries, entry.2.item.wire = encodeValue entry.2 :=
      fun entry mem => ih entry ((sortStrKeys_perm entries).mem_iff.mp mem)
    rw [item_strMap, encodeValue_strMap]
    simp only [lenArgument, length_map, (sortStrKeys_perm entries).length_eq, flatMap_map, Item.wire]
    rw [flatMap_congr fun entry mem => by rw [each entry mem]]
  | bool flag =>
    rw [item, Item.wire]
    cases flag <;> decide +kernel
  | null =>
    rw [item, Item.wire]
    decide +kernel
  | _ => simp [item, Item.wire, encodeValue, textKeyEncoding]

theorem Value.item_value : value.item.value = value.norm := by
  induction value with
  | array items ih =>
    rw [item, Item.value, norm, map_map]
    exact congrArg array (map_congr_left ih)
  | intMap entries ih =>
    rw [item_intMap, norm, sortIntKeys_map]
    simp only [Item.value, map_map, Function.comp_def, intKeyItem_isIntKey, intKeyOf_intKeyItem, all_map]
    refine (if_pos (by simp)).trans (congrArg intMap (map_congr_left fun entry mem => ?_))
    rw [ih entry ((sortIntKeys_perm entries).mem_iff.mp mem)]
  | strMap entries ih =>
    have spelled := value_strMap ((sortStrKeys entries).map fun entry => (entry.1, entry.2.item))
    simp only [map_map, Function.comp_def, isEmpty_map, (sortStrKeys_perm entries).isEmpty_eq] at spelled
    rw [item_strMap, spelled, norm, sortStrKeys_map]
    split
    · rfl
    · refine congrArg strMap (map_congr_left fun entry mem => ?_)
      rw [ih entry ((sortStrKeys_perm entries).mem_iff.mp mem)]
  | negative n =>
    simp only [item, Item.value, norm, Int64.toInt64_toUInt64]
    exact congrArg negative (by grind)
  | bool flag => cases flag <;> simp [item, Item.value, norm, Simple.value]
  | null => simp [item, Item.value, norm, Simple.value]
  | _ => simp [item, Item.value, norm]

theorem Value.item_accepted {value : Value} (wellFormed : value.WellFormed) : value.item.Accepted := by
  induction wellFormed with
  | unsigned => simpa [item] using .unsigned
  | negative below => simpa [item] using .negative (mirror_inRange below)
  | byteString => simpa [item] using .byteString
  | textString => simpa [item] using .textString
  | array _ ih =>
    rw [item]
    exact .array (by simpa using ih)
  | @intMap entries distinct _ ih =>
    have perm := sortIntKeys_perm entries
    rw [item_intMap]
    refine .map (forall_mem_map.mpr fun entry _ => intKeyItem_accepted entry.1) ?_ ?_
      (.inl (forall_mem_map.mpr fun entry _ => intKeyItem_isIntKey entry.1))
    · exact forall_mem_map.mpr fun entry sorted => ih entry (perm.mem_iff.mp sorted)
    · have keys : ((sortIntKeys entries).map Prod.fst).Nodup := (perm.map Prod.fst).nodup_iff.mpr distinct
      have injective : Function.Injective fun key => (intKeyItem key).value :=
        Function.LeftInverse.injective intKeyOf_intKeyItem
      simpa [Function.comp_def] using keys.map injective
  | @strMap entries distinct _ ih =>
    have perm := sortStrKeys_perm entries
    rw [item_strMap]
    refine .map (forall_mem_map.mpr fun _ _ => .textString) ?_ ?_
      (.inr (forall_mem_map.mpr fun _ _ => by simp [Item.value, isTextKey]))
    · exact forall_mem_map.mpr fun entry sorted => ih entry (perm.mem_iff.mp sorted)
    · have keys : ((sortStrKeys entries).map Prod.fst).Nodup := (perm.map Prod.fst).nodup_iff.mpr distinct
      have injective : Function.Injective textString := fun _ _ => textString.inj
      simpa [Function.comp_def, Item.value] using keys.map injective
  | bool => simpa [item] using .simple
  | null => simpa [item] using .simple

theorem Value.height_pos : 0 < value.height := by
  cases value <;> simp [height]

theorem Value.item_height_le : value.item.height ≤ value.height := by
  induction value with
  | array items ih =>
    rw [item, Item.height, height, map_map]
    refine Nat.add_le_add_left (foldr_max_le fun height listed => ?_) 1
    obtain ⟨item, mem, rfl⟩ := mem_map.mp listed
    exact Nat.le_trans (ih item mem) (le_foldr_max (mem_map_of_mem mem))
  | intMap entries ih =>
    rw [item_intMap, Item.height, height, map_map]
    refine Nat.add_le_add_left (foldr_max_le fun height listed => ?_) 1
    obtain ⟨entry, sorted, rfl⟩ := mem_map.mp listed
    have mem := (sortIntKeys_perm entries).mem_iff.mp sorted
    have inside := le_foldr_max (mem_map_of_mem (f := fun entry => entry.2.height) mem)
    have lower := ih entry mem
    have positive := entry.2.height_pos
    simp only [Function.comp_apply, intKeyItem_height]
    omega
  | strMap entries ih =>
    rw [item_strMap, Item.height, height, map_map]
    refine Nat.add_le_add_left (foldr_max_le fun height listed => ?_) 1
    obtain ⟨entry, sorted, rfl⟩ := mem_map.mp listed
    have mem := (sortStrKeys_perm entries).mem_iff.mp sorted
    have inside := le_foldr_max (mem_map_of_mem (f := fun entry => entry.2.height) mem)
    have lower := ih entry mem
    have positive := entry.2.height_pos
    simp only [Function.comp_apply, Item.height]
    omega
  | _ => simp [item, Item.height, height]

theorem encodeValue_norm : encodeValue value.norm = encodeValue value := by
  induction value with
  | array items ih =>
    rw [Value.norm, encodeValue_array, encodeValue_array, flatMap_map, flatMap_congr ih]
    simp [lenArgument]
  | intMap entries ih =>
    have each : ∀ entry ∈ sortIntKeys entries, encodeValue entry.2.norm = encodeValue entry.2 :=
      fun entry sorted => ih entry ((sortIntKeys_perm entries).mem_iff.mp sorted)
    rw [Value.norm, encodeValue_intMap, encodeValue_intMap, sortIntKeys_idem, sortIntKeys_map,
      flatMap_map, flatMap_congr fun entry sorted => by rw [each entry sorted]]
    simp [lenArgument, (sortIntKeys_perm entries).length_eq]
  | strMap entries ih =>
    have each : ∀ entry ∈ sortStrKeys entries, encodeValue entry.2.norm = encodeValue entry.2 :=
      fun entry sorted => ih entry ((sortStrKeys_perm entries).mem_iff.mp sorted)
    rw [Value.norm]
    split
    next empty =>
      rw [isEmpty_iff.mp empty, encodeValue_intMap, encodeValue_strMap]
      simp [lenArgument, sortIntKeys, sortStrKeys, sortBy]
    · rw [encodeValue_strMap, encodeValue_strMap, sortStrKeys_idem, sortStrKeys_map,
        flatMap_map, flatMap_congr fun entry sorted => by rw [each entry sorted]]
      simp [lenArgument, (sortStrKeys_perm entries).length_eq]
  | _ => simp [Value.norm]

/-- The encoding of a well-formed value decodes to its normal form, whatever follows. -/
theorem decode_encodeValue {value : Value} (rest : List UInt8) (wellFormed : value.WellFormed)
    (shallow : value.height ≤ maxDecodeDepth) (bounded : (encodeValue value ++ rest).length ≤ isizeMax) :
    decode (encodeValue value ++ rest) = .ok (value.norm, (encodeValue value).length) := by
  have here : (encodeValue value ++ rest).drop 0 = value.item.wire ++ rest := by
    rw [drop_zero, item_wire]
  have read := decodeValue_complete (item_accepted wellFormed) bounded
    (Nat.le_trans value.item_height_le shallow) here
  rw [item_wire, item_value, Nat.zero_add] at read
  exact read

theorem Value.Reordered.encodeValue_eq (same : left.Reordered right)
    (wellFormed : left.WellFormed) : encodeValue left = encodeValue right := by
  rw [← encodeValue_norm left, same.norm_eq wellFormed, encodeValue_norm]

theorem reordered_of_encodeValue_eq (wellFormed : left.WellFormed)
    (otherFormed : right.WellFormed) (shallow : left.height ≤ maxDecodeDepth)
    (otherShallow : right.height ≤ maxDecodeDepth) (bounded : (encodeValue left).length ≤ isizeMax)
    (same : encodeValue left = encodeValue right) : left.Reordered right := by
  have read := decode_encodeValue [] wellFormed shallow (by simpa using bounded)
  have otherRead := decode_encodeValue [] otherFormed otherShallow
    (by simpa [← same] using bounded)
  rw [same, otherRead] at read
  have normal : right.norm = left.norm := congrArg Prod.fst (Except.ok.inj read)
  have back := right.reordered_norm
  rw [normal] at back
  exact left.reordered_norm.trans back.symm

/-- Decoding undoes encoding up to normal form. Values share an encoding exactly if they differ in
the order of map entries and the kind of empty maps. -/
theorem decode_encode (rest : List UInt8) (wellFormed : value.WellFormed) (shallow : value.height ≤ maxDecodeDepth)
    (bounded : (encodeValue value ++ rest).length ≤ isizeMax) : ∃ bytes, encode value = .ok bytes ∧
      decode (bytes ++ rest) = .ok (value.norm, bytes.length) ∧ encode value.norm = .ok bytes ∧
      ∀ other : Value, other.WellFormed → other.height ≤ maxDecodeDepth →
        (encode other = .ok bytes ↔ other.Reordered value) := by
  refine ⟨encodeValue value, rfl, decode_encodeValue rest wellFormed shallow bounded, ?_, ?_⟩
  · rw [encode, encodeValue_norm]
  · intro other otherFormed otherShallow
    have short : (encodeValue value).length ≤ isizeMax := by
      rw [length_append] at bounded
      omega
    constructor
    · intro same
      have bytes : encodeValue other = encodeValue value := Except.ok.inj same
      exact (reordered_of_encodeValue_eq wellFormed otherFormed shallow otherShallow short bytes.symm).symm
    · intro same
      rw [encode, same.encodeValue_eq otherFormed]

/-- An unsorted map with an empty text-keyed map inside, followed by a stray byte. -/
theorem decode_encode_unsorted_map :
    ∃ bytes, encode (.intMap [(-1, .strMap []), (2, .array [.negative (-5)])]) = .ok bytes ∧
      decode (bytes ++ [0xFF]) = .ok (.intMap [(2, .array [.negative (-5)]), (-1, .intMap [])], bytes.length) := by
  obtain ⟨bytes, encoded, decoded, _⟩ :=
    decode_encode (.intMap [(-1, .strMap []), (2, .array [.negative (-5)])]) [0xFF]
      (.intMap (by decide) (by simp [Value.WellFormed.negative (n := -5) (by decide)]))
      (by simp [height, maxDecodeDepth]) (by decide +kernel)
  have norm : (intMap [(-1, .strMap []), (2, .array [.negative (-5)])]).norm =
      .intMap [(2, .array [.negative (-5)]), (-1, .intMap [])] := by
    simp only [Value.norm, map_cons, map_nil, isEmpty_nil, ↓reduceIte]
    decide +kernel
  exact ⟨bytes, encoded, norm ▸ decoded⟩

end Aafp.Cbor
