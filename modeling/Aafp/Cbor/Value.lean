import Mathlib.Data.List.Basic

/-! The value tree and the errors of the canonical CBOR codec, with the
accessors the protocol layers use to read decoded maps. -/
namespace Aafp.Cbor

open List

/-- Map entries keep the order in which they were given; the encoder sorts them. -/
inductive Value where
  | unsigned (n : UInt64)
  | negative (n : Int64)
  | byteString (bytes : List UInt8)
  | textString (text : String)
  | array (items : List Value)
  | intMap (entries : List (Int64 × Value))
  | strMap (entries : List (String × Value))
  | bool (flag : Bool)
  | null

/-- Errors of encoding and decoding, with the byte offset they are reported at. -/
inductive CborError where
  | unexpectedEof (offset : Nat)
  | invalid (offset : Nat) (message : String)
  | unsupported (offset : Nat) (feature : String)
  | keyOutOfRange (key : Int64)
  | depthExceeded (offset limit : Nat)
deriving DecidableEq

instance : ToString CborError where
  toString
    | .unexpectedEof offset => s!"unexpected end of input at offset {offset}"
    | .invalid offset message => s!"invalid CBOR at offset {offset}: {message}"
    | .unsupported offset feature => s!"unsupported CBOR feature at offset {offset}: {feature}"
    | .keyOutOfRange key => s!"integer key out of range: {key}"
    | .depthExceeded offset limit =>
      s!"CBOR nesting depth exceeded limit {limit} at offset {offset}"

@[elab_as_elim, induction_eliminator]
theorem Value.induct {motive : Value → Prop}
    (unsigned : ∀ n, motive (.unsigned n)) (negative : ∀ n, motive (.negative n))
    (byteString : ∀ bytes, motive (.byteString bytes)) (textString : ∀ text, motive (.textString text))
    (array : ∀ items, (∀ item ∈ items, motive item) → motive (.array items))
    (intMap : ∀ entries, (∀ entry ∈ entries, motive entry.2) → motive (.intMap entries))
    (strMap : ∀ entries, (∀ entry ∈ entries, motive entry.2) → motive (.strMap entries))
    (bool : ∀ flag, motive (.bool flag)) (null : motive .null) (value : Value) : motive value := by
  refine @Value.rec motive (fun items => ∀ item ∈ items, motive item)
    (fun entries => ∀ entry ∈ entries, motive entry.2)
    (fun entries => ∀ entry ∈ entries, motive entry.2)
    (fun entry => motive entry.2) (fun entry => motive entry.2)
    unsigned negative byteString textString array intMap strMap bool null
    ?_ ?_ ?_ ?_ ?_ ?_ ?_ ?_ value
  · simp
  · intro head tail headHolds tailHolds
    exact forall_mem_cons.mpr ⟨headHolds, tailHolds⟩
  · simp
  · intro head tail headHolds tailHolds
    exact forall_mem_cons.mpr ⟨headHolds, tailHolds⟩
  · simp
  · intro head tail headHolds tailHolds
    exact forall_mem_cons.mpr ⟨headHolds, tailHolds⟩
  · intro key value holds
    exact holds
  · intro key value holds
    exact holds

mutual

def Value.beq : Value → Value → Bool
  | .unsigned left, .unsigned right => left == right
  | .negative left, .negative right => left == right
  | .byteString left, .byteString right => left == right
  | .textString left, .textString right => left == right
  | .array left, .array right => itemsBeq left right
  | .intMap left, .intMap right => intEntriesBeq left right
  | .strMap left, .strMap right => strEntriesBeq left right
  | .bool left, .bool right => left == right
  | .null, .null => true
  | _, _ => false

def Value.itemsBeq : List Value → List Value → Bool
  | [], [] => true
  | left :: lefts, right :: rights => left.beq right && itemsBeq lefts rights
  | _, _ => false

def Value.intEntriesBeq : List (Int64 × Value) → List (Int64 × Value) → Bool
  | [], [] => true
  | (key, left) :: lefts, (other, right) :: rights =>
    key == other && left.beq right && intEntriesBeq lefts rights
  | _, _ => false

def Value.strEntriesBeq : List (String × Value) → List (String × Value) → Bool
  | [], [] => true
  | (key, left) :: lefts, (other, right) :: rights =>
    key == other && left.beq right && strEntriesBeq lefts rights
  | _, _ => false

end

private theorem Value.itemsBeq_iff (each : ∀ left ∈ lefts, ∀ right, left.beq right = true ↔ left = right)
    (rights : List Value) : itemsBeq lefts rights = true ↔ lefts = rights := by
  induction lefts generalizing rights with
  | nil => cases rights <;> simp [itemsBeq]
  | cons left lefts ih =>
    cases rights with
    | nil => simp [itemsBeq]
    | cons right rights =>
      have later := ih (fun other mem => each other (mem_cons_of_mem _ mem)) rights
      simp [itemsBeq, each left (by simp) right, later]

private theorem Value.intEntriesBeq_iff (each : ∀ left ∈ lefts, ∀ right, left.2.beq right = true ↔ left.2 = right)
    (rights : List (Int64 × Value)) : intEntriesBeq lefts rights = true ↔ lefts = rights := by
  induction lefts generalizing rights with
  | nil => cases rights <;> simp [intEntriesBeq]
  | cons left lefts ih =>
    cases rights with
    | nil => simp [intEntriesBeq]
    | cons right rights =>
      have later := ih (fun other mem => each other (mem_cons_of_mem _ mem)) rights
      obtain ⟨key, value⟩ := left
      obtain ⟨other, compared⟩ := right
      simp [intEntriesBeq, each (key, value) (by simp) compared, later]

private theorem Value.strEntriesBeq_iff (each : ∀ left ∈ lefts, ∀ right, left.2.beq right = true ↔ left.2 = right)
    (rights : List (String × Value)) : strEntriesBeq lefts rights = true ↔ lefts = rights := by
  induction lefts generalizing rights with
  | nil => cases rights <;> simp [strEntriesBeq]
  | cons left lefts ih =>
    cases rights with
    | nil => simp [strEntriesBeq]
    | cons right rights =>
      have later := ih (fun other mem => each other (mem_cons_of_mem _ mem)) rights
      obtain ⟨key, value⟩ := left
      obtain ⟨other, compared⟩ := right
      simp [strEntriesBeq, each (key, value) (by simp) compared, later]

theorem Value.beq_iff (left right : Value) : left.beq right = true ↔ left = right := by
  induction left generalizing right with
  | array items ih =>
    cases right <;> simp [Value.beq, itemsBeq_iff ih]
  | intMap entries ih =>
    cases right <;> simp [Value.beq, intEntriesBeq_iff ih]
  | strMap entries ih =>
    cases right <;> simp [Value.beq, strEntriesBeq_iff ih]
  | _ => cases right <;> simp [Value.beq]

instance : DecidableEq Value := fun left right => decidable_of_iff _ (Value.beq_iff left right)

def intMapGet (map : Value) (key : Int64) : Option Value :=
  match map with
  | .intMap entries => (entries.find? (fun entry => entry.1 == key)).map Prod.snd
  | _ => none

@[simp] theorem intMapGet_nil (key : Int64) : intMapGet (.intMap []) key = none := rfl

@[simp] theorem intMapGet_cons (entries : List (Int64 × Value)) (key wanted : Int64) :
    intMapGet (.intMap ((key, value) :: entries)) wanted =
      if key = wanted then some value else intMapGet (.intMap entries) wanted := by
  by_cases same : key = wanted <;> simp [intMapGet, same]

namespace Value

def uint? : Value → Option UInt64
  | .unsigned n => some n
  | _ => none

def tstr? : Value → Option String
  | .textString text => some text
  | _ => none

def bstr? : Value → Option (List UInt8)
  | .byteString bytes => some bytes
  | _ => none

def array? : Value → Option (List Value)
  | .array items => some items
  | _ => none

variable {value : Value}

@[simp] theorem uint?_eq_some : value.uint? = some n ↔ value = .unsigned n := by
  cases value <;> simp [uint?]

@[simp] theorem tstr?_eq_some : value.tstr? = some text ↔ value = .textString text := by
  cases value <;> simp [tstr?]

@[simp] theorem bstr?_eq_some : value.bstr? = some bytes ↔ value = .byteString bytes := by
  cases value <;> simp [bstr?]

@[simp] theorem array?_eq_some : value.array? = some items ↔ value = .array items := by
  cases value <;> simp [array?]

end Value

/-- A field of a map that must be there, in the form that is read. -/
def expectField (read : Value → Option α) (missing : ε) (unexpected : Value → ε) (val : Option Value) : Except ε α :=
  match val with
  | some value =>
    match read value with
    | some content => .ok content
    | none => .error (unexpected value)
  | none => .error missing

theorem expectField_eq_ok {read : Value → Option α} :
    expectField read missing unexpected val = .ok content ↔ ∃ value, val = some value ∧ read value = some content := by
  cases val with
  | none => simp [expectField]
  | some value => cases found : read value <;> simp [expectField, found]

@[simp] theorem expectField_some {read : Value → Option α} (found : read value = some content) :
    expectField read missing unexpected (some value) = .ok content :=
  expectField_eq_ok.mpr ⟨value, rfl, found⟩

end Aafp.Cbor
