import Aafp.Cbor.Decode

/-! The messages of the RPC layer (RFC-0002 §4.3-4.6). -/
namespace Aafp.Messaging

open Foundation Cbor

/-- `unexpectedValue` is an invalid field whose message shows a value with `{:?}`. -/
inductive RpcError where
  | missingField (field : String)
  | invalidField (field message : String)
  | unexpectedValue (field expectation : String) (value : Value)
  | cbor (error : CborError)
deriving DecidableEq

def readUint (val : Option Value) (field : String) : Except RpcError UInt64 :=
  expectField Value.uint? (.missingField field) (.unexpectedValue field "expected uint, got") val

def readTstr (val : Option Value) (field : String) : Except RpcError String :=
  expectField Value.tstr? (.missingField field) (.unexpectedValue field "expected tstr, got") val

def nullNotOmitted : String := "null is not valid; field must be omitted when absent (A-2)"

def readData (val : Option Value) (field : String) : Except RpcError (Option (List UInt8)) :=
  match val with
  | some (.byteString bytes) => .ok (some bytes)
  | none => .ok none
  | some .null => .error (.invalidField field nullNotOmitted)
  | some other => .error (.unexpectedValue field "expected bstr, got" other)

def encodeMessage (toCbor : M → Value) (message : M) : Except RpcError (List UInt8) :=
  (encode (toCbor message)).mapError .cbor

def decodeMessage (fromCbor : Value → Except RpcError M) (data : List UInt8) : Except RpcError M := do
  let (val, _) ← (decode data).mapError .cbor
  fromCbor val

structure RpcRequest where
  id : UInt64
  method : String
  params : Value

namespace RpcRequest

def toCbor (request : RpcRequest) : Value :=
  .intMap [(1, .unsigned request.id), (2, .textString request.method), (3, request.params)]

/-- The parameters must be present and must not be null (A-1). -/
def fromCbor (val : Value) : Except RpcError RpcRequest := do
  let get := intMapGet val
  let id ← readUint (get 1) "id"
  let method ← readTstr (get 2) "method"
  let params ← match get 3 with
    | some .null =>
      .error (.invalidField "params" "null is not valid; use an empty map for no params (A-1)")
    | some params => .ok params
    | none => .error (.missingField "params")
  .ok { id, method, params }

def encode : RpcRequest → Except RpcError (List UInt8) := encodeMessage toCbor

def decode : List UInt8 → Except RpcError RpcRequest := decodeMessage fromCbor

end RpcRequest

structure RpcErrorObject where
  code : UInt32
  message : String
  data : Option (List UInt8)
deriving DecidableEq

namespace RpcErrorObject

def new (code : UInt32) (message : String) : RpcErrorObject := { code, message, data := none }

def toCbor (error : RpcErrorObject) : Value :=
  .intMap ([(1, .unsigned error.code.toUInt64), (2, .textString error.message)] ++
    error.data.toList.map fun data => (3, .byteString data))

/-- The code is cast with `*n as u32`. -/
def fromCbor (val : Value) : Except RpcError RpcErrorObject := do
  let get := intMapGet val
  let code ← readUint (get 1) "error.code"
  let message ← readTstr (get 2) "error.message"
  let data ← readData (get 3) "error.data"
  .ok { code := code.toUInt32, message, data }

end RpcErrorObject

structure RpcResponse where
  id : UInt64
  result : Option Value
  error : Option RpcErrorObject
deriving DecidableEq

namespace RpcResponse

def success (id : UInt64) (result : Value) : RpcResponse := { id, result := some result, error := none }

/-- `RpcResponse::error`. -/
def failure (id : UInt64) (error : RpcErrorObject) : RpcResponse :=
  { id, result := none, error := some error }

def toCbor (response : RpcResponse) : Value :=
  .intMap ([(1, .unsigned response.id)] ++ (response.result.toList.map fun result => (2, result)) ++
    response.error.toList.map fun error => (3, error.toCbor))

def fromCbor (val : Value) : Except RpcError RpcResponse := do
  let get := intMapGet val
  let id ← readUint (get 1) "id"
  let result ← match get 2 with
    | none => .ok none
    | some .null => .error (.invalidField "result" nullNotOmitted)
    | some other => .ok (some other)
  let error ← match get 3 with
    | none => .ok none
    | some .null => .error (.invalidField "error" nullNotOmitted)
    | some val => do
      let error ← RpcErrorObject.fromCbor val
      .ok (some error)
  .ok { id, result, error }

def encode : RpcResponse → Except RpcError (List UInt8) := encodeMessage toCbor

def decode : List UInt8 → Except RpcError RpcResponse := decodeMessage fromCbor

end RpcResponse

structure CloseMessage where
  code : UInt32
  message : String

namespace CloseMessage

def toCbor (close : CloseMessage) : Value :=
  .intMap [(1, .unsigned close.code.toUInt64), (2, .textString close.message)]

def fromCbor (val : Value) : Except RpcError CloseMessage := do
  let get := intMapGet val
  let code ← readUint (get 1) "code"
  let message ← readTstr (get 2) "message"
  .ok { code := code.toUInt32, message }

def encode : CloseMessage → Except RpcError (List UInt8) := encodeMessage toCbor

def decode : List UInt8 → Except RpcError CloseMessage := decodeMessage fromCbor

end CloseMessage

structure ErrorMessage where
  code : UInt32
  message : String
  data : Option (List UInt8)
  fatal : Bool

namespace ErrorMessage

def toCbor (error : ErrorMessage) : Value :=
  .intMap ([(1, .unsigned error.code.toUInt64), (2, .textString error.message)] ++
    (error.data.toList.map fun data => (3, .byteString data)) ++ [(4, .bool error.fatal)])

/-- An error without the fatal flag is not fatal. -/
def fromCbor (val : Value) : Except RpcError ErrorMessage := do
  let get := intMapGet val
  let code ← readUint (get 1) "code"
  let message ← readTstr (get 2) "message"
  let data ← readData (get 3) "data"
  let fatal ← match get 4 with
    | some (.bool fatal) => .ok fatal
    | some other => .error (.unexpectedValue "fatal" "expected bool, got" other)
    | none => .ok false
  .ok { code := code.toUInt32, message, data, fatal }

def encode : ErrorMessage → Except RpcError (List UInt8) := encodeMessage toCbor

def decode : List UInt8 → Except RpcError ErrorMessage := decodeMessage fromCbor

end ErrorMessage

end Aafp.Messaging
