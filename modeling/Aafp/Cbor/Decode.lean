import Aafp.Foundation.Result
import Aafp.Cbor.Encode

/-! The decoder and the canonical check. -/
namespace Aafp.Cbor

open Foundation

def maxDecodeDepth : Nat := 100

/-- `i64::MAX as u64`. -/
def i64Max : UInt64 := 0x7FFFFFFFFFFFFFFF

/-- Where UTF-8 validation stopped, as `core::str::Utf8Error`. -/
structure Utf8Error where
  validUpTo : Nat
  errorLen : Option Nat

instance : ToString Utf8Error where
  toString error :=
    match error.errorLen with
    | some len =>
      let index := error.validUpTo
      s!"invalid utf-8 sequence of {len} bytes from index {index}"
    | none =>
      let index := error.validUpTo
      s!"incomplete utf-8 byte sequence from index {index}"

def isContinuation (byte : UInt8) : Bool := byte &&& 0xC0 == 0x80

def utf8CharWidth (byte : UInt8) : Nat :=
  if byte < 0x80 then 1
  else if 0xC2 ≤ byte ∧ byte ≤ 0xDF then 2
  else if 0xE0 ≤ byte ∧ byte ≤ 0xEF then 3
  else if 0xF0 ≤ byte ∧ byte ≤ 0xF4 then 4
  else 0

/-- No overlong form, no surrogate, nothing above U+10FFFF. -/
def secondByteOk (first second : UInt8) : Bool :=
  isContinuation second &&
    !(first == 0xE0 && second < 0xA0) && !(first == 0xED && 0x9F < second) &&
    !(first == 0xF0 && second < 0x90) && !(first == 0xF4 && 0x8F < second)

def utf8Failure : (index : Nat) → List UInt8 → Option Utf8Error
  | _, [] => none
  | index, first :: rest =>
    match utf8CharWidth first, rest with
    | 1, rest => utf8Failure (index + 1) rest
    | 2, [] => some ⟨index, none⟩
    | 2, second :: rest =>
      if isContinuation second then utf8Failure (index + 2) rest else some ⟨index, some 1⟩
    | 3, [] => some ⟨index, none⟩
    | 3, [second] => if secondByteOk first second then some ⟨index, none⟩ else some ⟨index, some 1⟩
    | 3, second :: third :: rest =>
      if !secondByteOk first second then some ⟨index, some 1⟩
      else if !isContinuation third then some ⟨index, some 2⟩
      else utf8Failure (index + 3) rest
    | 4, [] => some ⟨index, none⟩
    | 4, [second] => if secondByteOk first second then some ⟨index, none⟩ else some ⟨index, some 1⟩
    | 4, [second, third] =>
      if !secondByteOk first second then some ⟨index, some 1⟩
      else if !isContinuation third then some ⟨index, some 2⟩
      else some ⟨index, none⟩
    | 4, second :: third :: fourth :: rest =>
      if !secondByteOk first second then some ⟨index, some 1⟩
      else if !isContinuation third then some ⟨index, some 2⟩
      else if !isContinuation fourth then some ⟨index, some 3⟩
      else utf8Failure (index + 4) rest
    | _, _ => some ⟨index, some 1⟩

/-- `std::str::from_utf8`. -/
def fromUtf8 (bytes : List UInt8) : Except Utf8Error String :=
  match String.fromUTF8? ⟨bytes.toArray⟩ with
  | some text => .ok text
  | none => .error ((utf8Failure 0 bytes).getD ⟨0, none⟩)

/-- The bytes of a string item: `what` names the string kind in the overflow
error of `checked_add`. -/
def readSlice (data : List UInt8) (pos len : Nat) (what : String) :
    Except CborError (List UInt8 × Nat) :=
  if pos + len ≥ 2 ^ 64 then .error (.invalid pos s!"{what} length overflow")
  else if pos + len > data.length then .error (.unexpectedEof pos)
  else .ok ((data.drop pos).take len, pos + len)

/-- The element loop of an array, with `item` decoding one level deeper. -/
def decodeItems (item : Nat → Except CborError (Value × Nat)) :
    (len pos : Nat) → Except CborError (List Value × Nat)
  | 0, pos => .ok ([], pos)
  | len + 1, pos => do
    let (value, pos) ← item pos
    let (values, pos) ← decodeItems item len pos
    .ok (value :: values, pos)

/-- The entry loop of a map. A key is compared with all earlier ones after its value has been read.
-/
def decodeEntries (item : Nat → Except CborError (Value × Nat)) :
    (len pos : Nat) → (entries : List (Value × Value)) →
    Except CborError (List (Value × Value) × Nat)
  | 0, pos, entries => .ok (entries, pos)
  | len + 1, pos, entries => do
    let (key, pos) ← item pos
    let (val, pos) ← item pos
    if entries.any (fun entry => entry.1 == key) then
      .error (.invalid pos "duplicate map key")
    else decodeEntries item len pos (entries ++ [(key, val)])

def isIntKey : Value → Bool
  | .unsigned _ | .negative _ => true
  | _ => false

def isTextKey : Value → Bool
  | .textString _ => true
  | _ => false

/-- The key of an `intMap` entry. An unsigned key is cast with `n as i64`. -/
def intKeyOf : Value → Int64
  | .unsigned n => n.toInt64
  | .negative n => n
  | _ => 0

def textKeyOf : Value → String
  | .textString text => text
  | _ => ""

/-- Convert decoded entries to an `intMap` or a `strMap` by their key types. -/
def mapOfEntries (pos : Nat) (entries : List (Value × Value)) : Except CborError Value :=
  if entries.all (fun entry => isIntKey entry.1) then
    .ok (.intMap (entries.map fun entry => (intKeyOf entry.1, entry.2)))
  else if entries.all (fun entry => isTextKey entry.1) then
    .ok (.strMap (entries.map fun entry => (textKeyOf entry.1, entry.2)))
  else .error (.unsupported pos "mixed key types in map")

def decodeSimple (ai : UInt8) (pos : Nat) : Except CborError (Value × Nat) :=
  if ai = simpleFalse then .ok (.bool false, pos)
  else if ai = simpleTrue then .ok (.bool true, pos)
  else if ai = simpleNull then .ok (.null, pos)
  else if ai = simpleUndefined then .ok (.null, pos)
  else .error (.unsupported pos s!"simple value {ai}")

/-- The part of `decode_value` after the head: dispatch on the major type. -/
def decodeBody (data : List UInt8) (item : Nat → Except CborError (Value × Nat))
    (major ai : UInt8) (arg : UInt64) (pos : Nat) : Except CborError (Value × Nat) :=
  if major = mtUnsigned then .ok (.unsigned arg, pos)
  else if major = mtNegative then
    if arg > i64Max then .error (.invalid pos s!"negative integer out of range: {arg}")
    else .ok (.negative (-1 - arg.toInt64), pos)
  else if major = mtByteString then do
    let (bytes, pos) ← readSlice data pos arg.toNat "byte string"
    .ok (.byteString bytes, pos)
  else if major = mtTextString then do
    let (bytes, pos) ← readSlice data pos arg.toNat "text string"
    match fromUtf8 bytes with
    | .error error => .error (.invalid pos s!"invalid UTF-8: {error}")
    | .ok text => .ok (.textString text, pos)
  else if major = mtArray then
    if arg.toNat > data.length then .error (.unexpectedEof pos)
    else do
      let (items, pos) ← decodeItems item arg.toNat pos
      .ok (.array items, pos)
  else if major = mtMap then
    if arg.toNat > data.length then .error (.unexpectedEof pos)
    else do
      let (entries, pos) ← decodeEntries item arg.toNat pos []
      let map ← mapOfEntries pos entries
      .ok (map, pos)
  else if major = mtSimple then decodeSimple ai pos
  else if major = mtTag then .error (.unsupported pos s!"tag {arg}")
  else .error (.unsupported pos s!"major type {major}")

/-- Decode one value. `levels` is what is left of the nesting budget: the
source's `depth` is `maxDecodeDepth - levels`. -/
def decodeValue (data : List UInt8) : (levels pos : Nat) → Except CborError (Value × Nat)
  | levels, pos =>
    match data[pos]? with
    | none => .error (.unexpectedEof pos)
    | some initialByte =>
      match levels with
      | 0 => .error (.depthExceeded pos maxDecodeDepth)
      | levels + 1 => do
        let major := initialByte >>> 5
        let ai := initialByte &&& 0x1F
        let (arg, pos) ← readArgument data (pos + 1) ai
        decodeBody data (decodeValue data levels) major ai arg pos

def decode (data : List UInt8) : Except CborError (Value × Nat) :=
  decodeValue data maxDecodeDepth 0

def checkCanonical (data : List UInt8) : Except CborError Unit := do
  let (_, consumed) ← decode data
  let total := data.length
  if consumed ≠ total then
    .error (.invalid consumed
      s!"trailing bytes after CBOR value: consumed {consumed} of {total} bytes")
  else .ok ()

end Aafp.Cbor
