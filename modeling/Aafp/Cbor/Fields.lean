import Aafp.Cbor.RoundTrip
import Aafp.Foundation.HashMap

/-! Maps of fields under integer keys, as the protocol's messages and records are encoded. -/
namespace Aafp.Cbor

open Foundation List Value

@[simp] theorem intMapGet_norm (distinct : (entries.map Prod.fst).Nodup) (key : Int64) :
    intMapGet (intMap entries).norm key = (intMapGet (.intMap entries) key).map norm := by
  rw [Value.norm]
  simp only [intMapGet]
  have mapped : ((entries.map fun entry => (entry.1, entry.2.norm)).map Prod.fst).Nodup := by
    simpa [Function.comp_def] using distinct
  rw [← find?_key_perm mapped (sortIntKeys_perm _).symm]
  simp [Function.comp_def]

@[simp] theorem norm_unsigned (n : UInt64) : (unsigned n).norm = .unsigned n := by
  simp [Value.norm]

@[simp] theorem norm_byteString (bytes : List UInt8) : (byteString bytes).norm = .byteString bytes := by
  simp [Value.norm]

@[simp] theorem norm_array (items : List Value) : (array items).norm = .array (items.map norm) := by
  rw [Value.norm]

@[simp] theorem norm_strMap_nil : (strMap []).norm = .intMap [] := by
  simp [Value.norm]

theorem norm_strMap (filled : entries ≠ []) :
    (strMap entries).norm = .strMap (sortStrKeys (entries.map fun entry => (entry.1, entry.2.norm))) := by
  rw [Value.norm, if_neg (by simpa using filled)]

@[simp] theorem norm_null : Value.null.norm = .null := by
  simp [Value.norm]

theorem height_array_le (each : ∀ item ∈ items, item.height ≤ bound) : (array items).height ≤ bound + 1 := by
  rw [height, Nat.add_comm]
  exact Nat.add_le_add_right (foldr_max_le (forall_mem_map.mpr each)) 1

theorem height_intMap_le
    (each : ∀ entry ∈ entries, entry.2.height ≤ bound) : (intMap entries).height ≤ bound + 1 := by
  rw [height, Nat.add_comm]
  exact Nat.add_le_add_right (foldr_max_le (forall_mem_map.mpr each)) 1

@[simp] theorem norm_textString (text : String) : (textString text).norm = .textString text := by
  simp [Value.norm]

@[simp] theorem norm_bool (flag : Bool) : (bool flag).norm = .bool flag := by
  simp [Value.norm]

theorem height_intMap_mono (among : ∀ entry ∈ entries, entry ∈ others) :
    (intMap entries).height ≤ (intMap others).height := by
  rw [height, height]
  refine Nat.add_le_add_left (foldr_max_le (forall_mem_map.mpr fun entry mem => ?_)) 1
  exact le_foldr_max (mem_map_of_mem (among entry mem))

theorem Value.reordered_of_norm_eq {left right : Value} (same : left.norm = right.norm) : left.Reordered right := by
  have back := right.reordered_norm
  rw [← same] at back
  exact left.reordered_norm.trans back.symm

theorem forall₂_of_map_eq (same : items.map f = others.map g) :
    List.Forall₂ (fun item other => f item = g other) items others := by
  have equal : List.Forall₂ Eq (items.map f) (others.map g) := by
    rw [same]
    exact forall₂_refl _
  rwa [forall₂_map_left_iff, forall₂_map_right_iff] at equal

theorem forall₂_reordered_of_norm (same : items.map norm = others.map norm) :
    List.Forall₂ Value.Reordered items others :=
  (forall₂_of_map_eq same).imp fun _ _ => reordered_of_norm_eq

theorem encodeValue_intMap_congr (same : entries.map (fun entry => (entry.1, encodeValue entry.2)) =
      others.map fun entry => (entry.1, encodeValue entry.2)) :
    encodeValue (.intMap entries) = encodeValue (.intMap others) := by
  rw [encodeValue, encodeValue, encodeIntEntries_eq, encodeIntEntries_eq, same]

theorem encodeValue_array_congr (same : items.map encodeValue = others.map encodeValue) :
    encodeValue (.array items) = encodeValue (.array others) := by
  have length : items.length = others.length := by simpa using congrArg length same
  rw [encodeValue_array, encodeValue_array, lenArgument, lenArgument, length, flatMap_def,
    flatMap_def, same]

theorem encodeValue_array_norm (items : List Value) :
    encodeValue (.array (items.map norm)) = encodeValue (.array items) := by
  rw [← norm_array, encodeValue_norm]

@[simp] theorem sortStrKeys_eq_nil_iff : sortStrKeys entries = [] ↔ entries = [] := by
  rw [← perm_nil, ← perm_nil]
  exact ⟨(sortStrKeys_perm entries).symm.trans, (sortStrKeys_perm entries).trans⟩

/-- Text-keyed entries with their values in normal form, in canonical order, have
the encoding of the entries. -/
theorem encodeValue_strMap_sort (entries : List (String × Value)) :
    encodeValue (.strMap (sortStrKeys (entries.map fun entry => (entry.1, entry.2.norm)))) =
      encodeValue (.strMap entries) := by
  by_cases empty : entries = []
  · simp [empty, sortStrKeys, sortBy]
  · rw [← encodeValue_norm (.strMap entries), norm_strMap empty]

theorem fields_eq (embeds : (intMap left).WellFormed ∧ (intMap left).height ≤ maxDecodeDepth)
    (otherEmbeds : (intMap right).WellFormed ∧ (intMap right).height ≤ maxDecodeDepth)
    (bounded : (encodeValue (.intMap left)).length ≤ isizeMax)
    (same : encode (.intMap left) = encode (.intMap right)) (key : Int64) :
    (intMapGet (.intMap left) key).map norm = (intMapGet (.intMap right) key).map norm := by
  have reordered := reordered_of_encodeValue_eq embeds.1 otherEmbeds.1 embeds.2 otherEmbeds.2 bounded
    (Except.ok.inj same)
  rw [← intMapGet_norm (wellFormed_intMap.mp embeds.1).1,
    ← intMapGet_norm (wellFormed_intMap.mp otherEmbeds.1).1, reordered.norm_eq embeds.1]

/-- The entries of every map inside the value stand in the encoder's order. -/
def Value.InCanonicalOrder : Value → Prop
  | .array items => ∀ item ∈ items, item.InCanonicalOrder
  | .intMap entries => entries.Pairwise (fun left right => (intKeyOrder left right).isLE = true) ∧
      ∀ entry ∈ entries, entry.2.InCanonicalOrder
  | .strMap entries => entries.Pairwise (fun left right => (strKeyOrder left right).isLE = true) ∧
      ∀ entry ∈ entries, entry.2.InCanonicalOrder
  | _ => True
decreasing_by all_goals first | decreasing_tactic | exact sizeOf_intEntry_lt ‹_› | exact sizeOf_strEntry_lt ‹_›

/-- No map inside the value is an empty `strMap`, which has no keys to tell its kind. -/
def Value.NoEmptyStrMap : Value → Prop
  | .array items => ∀ item ∈ items, item.NoEmptyStrMap
  | .intMap entries => ∀ entry ∈ entries, entry.2.NoEmptyStrMap
  | .strMap entries => entries ≠ [] ∧ ∀ entry ∈ entries, entry.2.NoEmptyStrMap
  | _ => True
decreasing_by all_goals first | decreasing_tactic | exact sizeOf_intEntry_lt ‹_› | exact sizeOf_strEntry_lt ‹_›

private theorem map_norm_entries {entries : List (κ × Value)} (each : ∀ entry ∈ entries, entry.2.norm = entry.2) :
    (entries.map fun entry => (entry.1, entry.2.norm)) = entries := by
  refine (map_congr_left fun entry mem => ?_).trans (map_id entries)
  rw [each entry mem]
  rfl

theorem Value.norm_eq_self (value : Value) (inOrder : value.InCanonicalOrder)
    (keyed : value.NoEmptyStrMap) : value.norm = value := by
  induction value with
  | array items ih =>
    rw [InCanonicalOrder] at inOrder
    rw [NoEmptyStrMap] at keyed
    have each : ∀ item ∈ items, item.norm = item :=
      fun item mem => ih item mem (inOrder item mem) (keyed item mem)
    rw [norm_array, map_congr_left each, map_id']
  | intMap entries ih =>
    rw [InCanonicalOrder] at inOrder
    rw [NoEmptyStrMap] at keyed
    have each : ∀ entry ∈ entries, entry.2.norm = entry.2 :=
      fun entry mem => ih entry mem (inOrder.2 entry mem) (keyed entry mem)
    rw [norm, map_norm_entries each, sortIntKeys_eq, sortBy_eq_self _ inOrder.1]
  | strMap entries ih =>
    rw [InCanonicalOrder] at inOrder
    rw [NoEmptyStrMap] at keyed
    have each : ∀ entry ∈ entries, entry.2.norm = entry.2 :=
      fun entry mem => ih entry mem (inOrder.2 entry mem) (keyed.2 entry mem)
    rw [norm_strMap keyed.1, map_norm_entries each, sortStrKeys_eq, sortBy_eq_self _ inOrder.1]
  | _ => simp [norm]

end Aafp.Cbor
