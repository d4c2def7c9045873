import Aafp.Crypto.Primitives
import Aafp.Foundation.Hex

/-! Agent ids, the errors of the identity layer, and the readers of its CBOR fields. -/
namespace Aafp.Identity

open Foundation Cbor Crypto

/-- `unexpectedValue` is an invalid field whose message shows a value with `{:?}`. -/
inductive IdentityError where
  | invalidAgentIdLength (expected actual : Nat)
  | invalidAgentId
  | invalidRecordType (got : String)
  | unsupportedAlgorithm (code : UInt64)
  | signatureVerificationFailed
  | invalidPublicKey
  | invalidSignatureLength
  | expired (expiresAt now : UInt64)
  | missingField (field : String)
  | invalidField (field message : String)
  | unexpectedValue (field expectation : String) (value : Value)
deriving DecidableEq

abbrev AgentId := Bytes32

def agentIdSize : Nat := 32

def deriveAgentId (prims : Primitives) (publicKey : List UInt8) : AgentId := prims.sha256 publicKey

def agentIdFromBytes (bytes : List UInt8) : Except IdentityError AgentId :=
  if whole : bytes.length = agentIdSize then .ok ⟨bytes, whole⟩
  else .error (.invalidAgentIdLength agentIdSize bytes.length)

@[simp] theorem agentIdFromBytes_val (agentId : AgentId) : agentIdFromBytes agentId.1 = .ok agentId :=
  dif_pos agentId.2

def agentIdToHex (agentId : AgentId) : String := hexEncode agentId.1

def expectU64 (val : Option Value) (field : String) : Except IdentityError UInt64 :=
  expectField Value.uint? (.missingField field) (.unexpectedValue field "expected uint, got") val

def expectBstr (val : Option Value) (field : String) : Except IdentityError (List UInt8) :=
  expectField Value.bstr? (.missingField field) (.unexpectedValue field "expected bstr, got") val

def expectTstr (val : Option Value) (field : String) : Except IdentityError String :=
  expectField Value.tstr? (.missingField field) (.unexpectedValue field "expected tstr, got") val

def expectArray (val : Option Value) (field : String) : Except IdentityError (List Value) :=
  expectField Value.array? (.missingField field) (.unexpectedValue field "expected array, got") val

end Aafp.Identity
