import Aafp.Cbor.Item

/-! Normal forms of values. -/
namespace Aafp.Cbor

open Foundation List Value

private theorem Value.sizeOf_entry_lt {entries : List (κ × Value)} [SizeOf κ]
    (mem : entry ∈ entries) : sizeOf entry.2 < sizeOf entries := by
  have entryLt := sizeOf_lt_of_mem mem
  obtain ⟨key, value⟩ := entry
  simp only [Prod.mk.sizeOf_spec] at entryLt ⊢
  omega

theorem Value.sizeOf_intEntry_lt {entries : List (Int64 × Value)} (mem : entry ∈ entries) :
    sizeOf entry.2 < sizeOf (intMap entries) :=
  Nat.lt_trans (sizeOf_entry_lt mem) (by simp)

theorem Value.sizeOf_strEntry_lt {entries : List (String × Value)} (mem : entry ∈ entries) :
    sizeOf entry.2 < sizeOf (strMap entries) :=
  Nat.lt_trans (sizeOf_entry_lt mem) (by simp)

/-- `negative` carries a negative number, and the keys of every map are pairwise distinct. -/
inductive Value.WellFormed : Value → Prop where
  | unsigned : WellFormed (.unsigned n)
  | negative (below : n < 0) : WellFormed (.negative n)
  | byteString : WellFormed (.byteString bytes)
  | textString : WellFormed (.textString text)
  | array (each : ∀ item ∈ items, WellFormed item) : WellFormed (.array items)
  | intMap (distinct : (entries.map Prod.fst).Nodup)
      (each : ∀ entry ∈ entries, WellFormed entry.2) : WellFormed (.intMap entries)
  | strMap (distinct : (entries.map Prod.fst).Nodup)
      (each : ∀ entry ∈ entries, WellFormed entry.2) : WellFormed (.strMap entries)
  | bool : WellFormed (.bool flag)
  | null : WellFormed .null

def Value.height : Value → Nat
  | .array items => 1 + (items.map fun item => item.height).foldr max 0
  | .intMap entries => 1 + (entries.map fun entry => entry.2.height).foldr max 0
  | .strMap entries => 1 + (entries.map fun entry => entry.2.height).foldr max 0
  | _ => 1
decreasing_by all_goals first | decreasing_tactic | exact sizeOf_intEntry_lt ‹_› | exact sizeOf_strEntry_lt ‹_›

/-- Sort every map by the encodings of its keys. An empty map becomes an `intMap`. -/
def Value.norm : Value → Value
  | .array items => .array (items.map fun item => item.norm)
  | .intMap entries => .intMap (sortIntKeys (entries.map fun entry => (entry.1, entry.2.norm)))
  | .strMap entries =>
    if entries.isEmpty then .intMap []
    else .strMap (sortStrKeys (entries.map fun entry => (entry.1, entry.2.norm)))
  | value => value
decreasing_by
  all_goals first | decreasing_tactic | exact sizeOf_intEntry_lt ‹_› | exact sizeOf_strEntry_lt ‹_›

/-- The least congruence under which the order of map entries, and the kind of
an empty map, do not matter. -/
inductive Value.Reordered : Value → Value → Prop where
  | refl (value : Value) : Reordered value value
  | symm (same : Reordered left right) : Reordered right left
  | trans (first : Reordered left middle) (second : Reordered middle right) : Reordered left right
  | intEntries (perm : entries.Perm others) : Reordered (.intMap entries) (.intMap others)
  | strEntries (perm : entries.Perm others) : Reordered (.strMap entries) (.strMap others)
  | emptyMap : Reordered (.strMap []) (.intMap [])
  | arrayItem (same : Reordered item other) :
      Reordered (.array (front ++ item :: back)) (.array (front ++ other :: back))
  | intValue (same : Reordered value other) :
      Reordered (.intMap (front ++ (key, value) :: back)) (.intMap (front ++ (key, other) :: back))
  | strValue (same : Reordered value other) :
      Reordered (.strMap (front ++ (key, value) :: back)) (.strMap (front ++ (key, other) :: back))

private theorem reordered_map (wrap : List α → Value) (f : α → α) (step : ∀ {front item back}, item ∈ items →
      (wrap (front ++ item :: back)).Reordered (wrap (front ++ f item :: back))) (front : List α) :
    (wrap (front ++ items)).Reordered (wrap (front ++ items.map f)) := by
  induction items generalizing front with
  | nil => exact .refl _
  | cons item items ih =>
    have later := ih (fun mem => step (mem_cons_of_mem _ mem)) (front ++ [f item])
    rw [append_assoc, append_assoc] at later
    exact (step mem_cons_self).trans later

theorem Value.reordered_norm (value : Value) : value.Reordered value.norm := by
  induction value with
  | array items ih =>
    rw [norm]
    exact reordered_map array _ (fun mem => .arrayItem (ih _ mem)) []
  | intMap entries ih =>
    rw [norm]
    have values := reordered_map intMap (fun entry => (entry.1, entry.2.norm))
      (fun mem => .intValue (ih _ mem)) []
    exact values.trans (.intEntries (sortIntKeys_perm _).symm)
  | strMap entries ih =>
    rw [norm]
    split
    next empty =>
      rw [isEmpty_iff.mp empty]
      exact .emptyMap
    · have values := reordered_map strMap (fun entry => (entry.1, entry.2.norm))
        (fun mem => .strValue (ih _ mem)) []
      exact values.trans (.strEntries (sortStrKeys_perm _).symm)
  | _ =>
    simp only [norm]
    exact .refl _

@[simp] theorem Value.wellFormed_array : (array items).WellFormed ↔ ∀ item ∈ items, item.WellFormed :=
  ⟨fun | .array each => each, .array⟩

@[simp] theorem Value.wellFormed_intMap : (intMap entries).WellFormed ↔
    (entries.map Prod.fst).Nodup ∧ ∀ entry ∈ entries, entry.2.WellFormed :=
  ⟨fun | .intMap distinct each => ⟨distinct, each⟩, fun ⟨distinct, each⟩ => .intMap distinct each⟩

@[simp] theorem Value.wellFormed_strMap : (strMap entries).WellFormed ↔
    (entries.map Prod.fst).Nodup ∧ ∀ entry ∈ entries, entry.2.WellFormed :=
  ⟨fun | .strMap distinct each => ⟨distinct, each⟩, fun ⟨distinct, each⟩ => .strMap distinct each⟩

theorem Value.Reordered.wellFormed_iff {left right : Value} (same : left.Reordered right) :
    left.WellFormed ↔ right.WellFormed := by
  induction same with
  | refl => rfl
  | symm _ ih => exact ih.symm
  | trans _ _ first second => exact first.trans second
  | intEntries perm => simp only [wellFormed_intMap, (perm.map Prod.fst).nodup_iff, perm.mem_iff]
  | strEntries perm => simp only [wellFormed_strMap, (perm.map Prod.fst).nodup_iff, perm.mem_iff]
  | emptyMap => simp
  | arrayItem _ ih => simp [or_imp, forall_and, ih]
  | intValue _ ih => simp [or_imp, forall_and, ih]
  | strValue _ ih => simp [or_imp, forall_and, ih]

theorem intKeyEncoding_inj (same : intKeyEncoding left = intKeyEncoding right) : left = right := by
  simp only [intKeyEncoding, encodeIntKey] at same
  split at same <;> split at same <;>
    have heads := encodeHeader_append_inj (by decide) (by decide) (congrArg (· ++ []) same)
  · simpa using congrArg UInt64.toInt64 heads.2.1
  · exact absurd heads.1 (by decide)
  · exact absurd heads.1 (by decide)
  · have mirrored : -1 - left = -1 - right := by simpa using congrArg UInt64.toInt64 heads.2.1
    grind

theorem sortIntKeys_eq_of_perm (distinct : (first.map Prod.fst).Nodup) (perm : first.Perm second) :
    sortIntKeys first = sortIntKeys second := by
  have ties : ∀ {left right : Int64},
      lengthFirst (intKeyEncoding left) (intKeyEncoding right) = .eq → left = right :=
    fun tied => intKeyEncoding_inj (lengthFirst_eq_eq tied)
  rw [sortIntKeys_eq, sortIntKeys_eq]
  exact sortBy_eq_of_perm (separated_of_nodup_keys ties distinct) perm

theorem sortStrKeys_eq_of_perm (distinct : (first.map Prod.fst).Nodup) (perm : first.Perm second) :
    sortStrKeys first = sortStrKeys second := by
  have ties : ∀ {left right : String},
      compare (textKeyEncoding left) (textKeyEncoding right) = .eq → left = right :=
    fun tied => asBytes_inj (encodeHeader_append_inj (by decide) (by decide) (Std.LawfulEqOrd.eq_of_compare tied)).2.2
  rw [sortStrKeys_eq, sortStrKeys_eq]
  exact sortBy_eq_of_perm (separated_of_nodup_keys ties distinct) perm

theorem Value.Reordered.norm_eq {left right : Value} (same : left.Reordered right)
    (wellFormed : left.WellFormed) : left.norm = right.norm := by
  induction same with
  | refl => rfl
  | symm same ih => exact (ih (same.wellFormed_iff.mpr wellFormed)).symm
  | trans first _ firstIh secondIh =>
    exact (firstIh wellFormed).trans (secondIh (first.wellFormed_iff.mp wellFormed))
  | intEntries perm =>
    have distinct := (wellFormed_intMap.mp wellFormed).1
    rw [norm, norm]
    congr 1
    exact sortIntKeys_eq_of_perm (by simpa [Function.comp_def] using distinct) (perm.map _)
  | strEntries perm =>
    have distinct := (wellFormed_strMap.mp wellFormed).1
    rw [norm, norm, perm.isEmpty_eq]
    split
    · rfl
    · congr 1
      exact sortStrKeys_eq_of_perm (by simpa [Function.comp_def] using distinct) (perm.map _)
  | emptyMap => simp [norm, sortIntKeys, sortBy]
  | arrayItem _ ih =>
    have inner := ih (wellFormed_array.mp wellFormed _ (mem_append_right _ mem_cons_self))
    simp [norm, inner]
  | intValue _ ih =>
    have inner := ih ((wellFormed_intMap.mp wellFormed).2 _ (mem_append_right _ mem_cons_self))
    simp [norm, inner]
  | strValue _ ih =>
    have inner := ih ((wellFormed_strMap.mp wellFormed).2 _ (mem_append_right _ mem_cons_self))
    simp [norm, inner]

end Aafp.Cbor
