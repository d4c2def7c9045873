import Aafp.Cbor.Header
import Aafp.Foundation.SortBy
import Mathlib.Algebra.Order.BigOperators.Group.List

/-! The canonical encoder. -/
namespace Aafp.Cbor

open Foundation List

def simpleFalse : UInt8 := 20
def simpleTrue : UInt8 := 21
def simpleNull : UInt8 := 22
def simpleUndefined : UInt8 := 23

/-- The UTF-8 bytes of a text, as `as_bytes`. -/
def asBytes (text : String) : List UInt8 := text.toUTF8.data.toList

/-- A container or string length as the head argument: `len() as u64`. -/
def lenArgument (items : List α) : UInt64 := UInt64.ofNat items.length

def encodeIntKey (key : Int64) : List UInt8 :=
  if 0 ≤ key then encodeHeader mtUnsigned key.toUInt64
  else encodeHeader mtNegative (-1 - key).toUInt64

def intKeyEncoding (key : Int64) : List UInt8 := encodeIntKey key

def textKeyEncoding (text : String) : List UInt8 :=
  encodeHeader mtTextString (lenArgument (asBytes text)) ++ asBytes text

def sortIntKeys (entries : List (Int64 × α)) : List (Int64 × α) :=
  let indexed := entries.map fun entry => (intKeyEncoding entry.1, entry.1, entry.2)
  (sortBy (fun left right => lengthFirst left.1 right.1) indexed).map
    fun (_, key, value) => (key, value)

def sortStrKeys (entries : List (String × α)) : List (String × α) :=
  let indexed := entries.map fun entry => (asBytes entry.1, entry.1, entry.2)
  (sortBy (fun left right =>
    compare (textKeyEncoding left.2.1) (textKeyEncoding right.2.1)) indexed).map
    fun (_, key, value) => (key, value)

mutual

-- Entry values are encoded before the sort, which compares keys only; the
-- source sorts first and encodes in sorted order, with the same bytes.
def encodeValue : Value → List UInt8
  | .unsigned n => encodeHeader mtUnsigned n
  | .negative n => encodeHeader mtNegative (-1 - n).toUInt64
  | .byteString bytes => encodeHeader mtByteString (lenArgument bytes) ++ bytes
  | .textString text => encodeHeader mtTextString (lenArgument (asBytes text)) ++ asBytes text
  | .array items => encodeHeader mtArray (lenArgument items) ++ encodeItems items
  | .intMap entries =>
    let sorted := sortIntKeys (encodeIntEntries entries)
    encodeHeader mtMap (lenArgument sorted) ++
      sorted.flatMap fun entry => encodeIntKey entry.1 ++ entry.2
  | .strMap entries =>
    let sorted := sortStrKeys (encodeStrEntries entries)
    encodeHeader mtMap (lenArgument sorted) ++
      sorted.flatMap fun entry => textKeyEncoding entry.1 ++ entry.2
  | .bool true => [(mtSimple <<< 5) ||| simpleTrue]
  | .bool false => [(mtSimple <<< 5) ||| simpleFalse]
  | .null => [(mtSimple <<< 5) ||| simpleNull]

def encodeItems : List Value → List UInt8
  | [] => []
  | item :: items => encodeValue item ++ encodeItems items

def encodeIntEntries : List (Int64 × Value) → List (Int64 × List UInt8)
  | [] => []
  | (key, value) :: entries => (key, encodeValue value) :: encodeIntEntries entries

def encodeStrEntries : List (String × Value) → List (String × List UInt8)
  | [] => []
  | (key, value) :: entries => (key, encodeValue value) :: encodeStrEntries entries

end

def encode (value : Value) : Except CborError (List UInt8) := .ok (encodeValue value)

def intKeyOrder (left right : Int64 × α) : Ordering :=
  lengthFirst (intKeyEncoding left.1) (intKeyEncoding right.1)

def strKeyOrder (left right : String × α) : Ordering :=
  compare (textKeyEncoding left.1) (textKeyEncoding right.1)

instance : Std.TransCmp (intKeyOrder (α := α)) :=
  transCmp_comap lengthFirst fun entry : Int64 × α => intKeyEncoding entry.1

instance : Std.TransCmp (strKeyOrder (α := α)) :=
  transCmp_comap compare fun entry : String × α => textKeyEncoding entry.1

variable (items : List Value) (f : α → β) (entries : List (Int64 × α))

theorem sortIntKeys_eq : sortIntKeys entries = sortBy intKeyOrder entries := by
  have indexed := sortBy_map intKeyOrder (fun left right => lengthFirst left.1 right.1)
    (fun entry => (intKeyEncoding entry.1, entry.1, entry.2))
    (fun _ _ => by simp only [intKeyOrder]) entries
  simp only [sortIntKeys, indexed, map_map, Function.comp_def, Prod.mk.eta, map_id_fun', id]

theorem sortStrKeys_eq (entries : List (String × α)) : sortStrKeys entries = sortBy strKeyOrder entries := by
  have indexed := sortBy_map strKeyOrder
    (fun left right => compare (textKeyEncoding left.2.1) (textKeyEncoding right.2.1))
    (fun entry => (asBytes entry.1, entry.1, entry.2))
    (fun _ _ => by simp only [strKeyOrder]) entries
  simp only [sortStrKeys, indexed, map_map, Function.comp_def, Prod.mk.eta, map_id_fun', id]

theorem sortIntKeys_map :
    sortIntKeys (entries.map fun entry => (entry.1, f entry.2)) =
      (sortIntKeys entries).map fun entry => (entry.1, f entry.2) := by
  simp only [sortIntKeys_eq]
  exact sortBy_map intKeyOrder intKeyOrder (fun entry => (entry.1, f entry.2))
    (fun _ _ => by simp only [intKeyOrder]) entries

theorem sortStrKeys_map (entries : List (String × α)) :
    sortStrKeys (entries.map fun entry => (entry.1, f entry.2)) =
      (sortStrKeys entries).map fun entry => (entry.1, f entry.2) := by
  simp only [sortStrKeys_eq]
  exact sortBy_map strKeyOrder strKeyOrder (fun entry => (entry.1, f entry.2))
    (fun _ _ => by simp only [strKeyOrder]) entries

theorem sortIntKeys_perm : (sortIntKeys entries).Perm entries := by
  rw [sortIntKeys_eq]
  exact sortBy_perm _ entries

theorem sortStrKeys_perm (entries : List (String × α)) : (sortStrKeys entries).Perm entries := by
  rw [sortStrKeys_eq]
  exact sortBy_perm _ entries

theorem sortIntKeys_idem : sortIntKeys (sortIntKeys entries) = sortIntKeys entries := by
  rw [sortIntKeys_eq, sortIntKeys_eq]
  exact sortBy_eq_self _ (sortBy_sorted _ entries)

theorem sortStrKeys_idem (entries : List (String × α)) :
    sortStrKeys (sortStrKeys entries) = sortStrKeys entries := by
  rw [sortStrKeys_eq, sortStrKeys_eq]
  exact sortBy_eq_self _ (sortBy_sorted _ entries)

theorem encodeItems_eq : encodeItems items = items.flatMap encodeValue := by
  induction items with
  | nil => rfl
  | cons item items ih => simp [encodeItems, ih]

theorem encodeIntEntries_eq (entries : List (Int64 × Value)) :
    encodeIntEntries entries = entries.map fun entry => (entry.1, encodeValue entry.2) := by
  induction entries with
  | nil => rfl
  | cons entry entries ih => simp [encodeIntEntries, ih]

theorem encodeStrEntries_eq (entries : List (String × Value)) :
    encodeStrEntries entries = entries.map fun entry => (entry.1, encodeValue entry.2) := by
  induction entries with
  | nil => rfl
  | cons entry entries ih => simp [encodeStrEntries, ih]

theorem encodeValue_array : encodeValue (.array items) =
    encodeHeader mtArray (lenArgument items) ++ items.flatMap encodeValue := by
  rw [encodeValue, encodeItems_eq]

theorem encodeValue_intMap (entries : List (Int64 × Value)) : encodeValue (.intMap entries) =
    encodeHeader mtMap (lenArgument entries) ++
      (sortIntKeys entries).flatMap fun entry => encodeIntKey entry.1 ++ encodeValue entry.2 := by
  rw [encodeValue, encodeIntEntries_eq, sortIntKeys_map]
  simp [lenArgument, flatMap_map, (sortIntKeys_perm entries).length_eq]

theorem encodeValue_strMap (entries : List (String × Value)) : encodeValue (.strMap entries) =
    encodeHeader mtMap (lenArgument entries) ++
      (sortStrKeys entries).flatMap fun entry => textKeyEncoding entry.1 ++ encodeValue entry.2 := by
  rw [encodeValue, encodeStrEntries_eq, sortStrKeys_map]
  simp [lenArgument, flatMap_map, (sortStrKeys_perm entries).length_eq]

theorem length_encodeIntKey_le (key : Int64) : (encodeIntKey key).length ≤ 9 := by
  unfold encodeIntKey
  split <;> exact length_encodeHeader_le _ _

/-- An upper bound for the length of a value, from the lengths of what it holds. -/
def Value.room : Value → Nat
  | .unsigned _ | .array [] => 9
  | .byteString bytes => 9 + bytes.length
  | value => (encodeValue value).length

theorem Value.room_unsigned (n : UInt64) : (Value.unsigned n).room = 9 := rfl

theorem Value.room_nil : (Value.array []).room = 9 := rfl

theorem Value.room_byteString (bytes : List UInt8) : (Value.byteString bytes).room = 9 + bytes.length := rfl

theorem length_encodeValue_le_room (value : Value) : (encodeValue value).length ≤ value.room := by
  cases value with
  | unsigned => exact length_encodeHeader_le _ _
  | byteString =>
    rw [encodeValue, length_append]
    exact Nat.add_le_add_right (length_encodeHeader_le _ _) _
  | array items =>
    cases items with
    | nil =>
      rw [encodeValue_array, flatMap_nil, append_nil]
      exact length_encodeHeader_le _ _
    | cons => exact Nat.le_refl _
  | _ => exact Nat.le_refl _

theorem length_encodeValue_intMap_le (entries : List (Int64 × Value)) :
    (encodeValue (.intMap entries)).length ≤ 9 + (entries.map fun entry => 9 + entry.2.room).sum := by
  rw [encodeValue_intMap, length_append, length_flatMap]
  refine Nat.add_le_add (length_encodeHeader_le _ _) ?_
  rw [((sortIntKeys_perm entries).map _).sum_nat]
  refine sum_le_sum fun entry _ => ?_
  rw [length_append]
  exact Nat.add_le_add (length_encodeIntKey_le entry.1) (length_encodeValue_le_room entry.2)

theorem length_encodeValue_le_intMap {entries} (entry : Int64 × Value) (mem : entry ∈ entries) :
    (encodeValue entry.2).length ≤ (encodeValue (.intMap entries)).length := by
  rw [encodeValue_intMap, length_append, length_flatMap, ((sortIntKeys_perm entries).map _).sum_nat]
  have part := single_le_sum (fun _ _ => Nat.zero_le _) _ (mem_map_of_mem
    (f := fun entry => (encodeIntKey entry.1 ++ encodeValue entry.2).length) mem)
  rw [length_append] at part
  omega

end Aafp.Cbor
