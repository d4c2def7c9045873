import Aafp.Cbor.RoundTrip
import Aafp.Foundation.HashMap
import Aafp.Identity.AgentId

/-! UCAN tokens. -/
namespace Aafp.Identity

open Foundation Cbor Crypto

inductive Failure where
  | returned (error : IdentityError)
  | panicked (message : String)

/-- `HashMap<String, String>`. -/
abbrev StringMap := AList fun _ : String => String

/-- The entries in the order of the map's iteration, which the encoder sorts. -/
def stringsToCbor (map : StringMap) : Value :=
  .strMap (map.entries.map fun entry => (entry.1, .textString entry.2))

theorem encodeValue_stringsToCbor_perm (same : first.entries.Perm second.entries) :
    encodeValue (stringsToCbor first) = encodeValue (stringsToCbor second) := by
  refine (Value.Reordered.strEntries (same.map _)).encodeValue_eq (Value.wellFormed_strMap.mpr ⟨?_, ?_⟩)
  · simpa [Function.comp_def, AList.keys, List.keys] using first.keys_nodup
  · simp only [List.forall_mem_map]
    exact fun _ _ => .textString

def ucanAlg : String := "ML-DSA-65"

def ucanTyp : String := "UCAN"

structure UcanHeader where
  alg : String
  typ : String
  kid : String
deriving DecidableEq

def UcanHeader.toCbor (header : UcanHeader) : Value :=
  .intMap [(1, .textString header.alg), (2, .textString header.typ), (3, .textString header.kid)]

structure Capability where
  resource : String
  action : String
  caveats : StringMap

namespace Capability

def toCbor (cap : Capability) : Value :=
  .intMap ([(1, .textString cap.resource), (2, .textString cap.action)] ++
    if cap.caveats.entries.isEmpty then [] else [(3, stringsToCbor cap.caveats)])

/-- `starts_with`; valid UTF-8 texts compare by characters as by bytes. -/
def startsWith (text start : String) : Bool := start.toList.isPrefixOf text.toList

/-- The resource is the same or a sub-resource, the action is the same, and all
caveats of the parent are there with the same values. -/
def isSubsetOf (cap parent : Capability) : Bool :=
  let resourceOk := cap.resource == parent.resource || startsWith cap.resource (parent.resource ++ ".")
  let actionOk := cap.action == parent.action
  if !resourceOk || !actionOk then false
  else parent.caveats.entries.all fun caveat => cap.caveats.lookup caveat.1 == some caveat.2

end Capability

mutual

structure UcanPayload where
  iss : String
  aud : String
  exp : UInt64
  nbf : UInt64
  prf : List Ucan
  att : List Capability
  fct : List StringMap

structure Ucan where
  header : UcanHeader
  payload : UcanPayload
  signature : List UInt8

end

mutual

def UcanPayload.toCbor : UcanPayload → Value
  | ⟨iss, aud, exp, nbf, prf, att, fct⟩ =>
    .intMap ([(1, .textString iss), (2, .textString aud), (3, .unsigned exp), (4, .unsigned nbf)] ++
      (if prf.isEmpty then [] else [(5, .array (Ucan.toCborAll prf))]) ++
      (if att.isEmpty then [] else [(6, .array (att.map Capability.toCbor))]) ++
      if fct.isEmpty then [] else [(7, .array (fct.map stringsToCbor))])

def Ucan.toCbor : Ucan → Value
  | ⟨header, payload, signature⟩ =>
    .intMap [(1, header.toCbor), (2, payload.toCbor), (3, .byteString signature)]

def Ucan.toCborAll : List Ucan → List Value
  | [] => []
  | token :: tokens => token.toCbor :: Ucan.toCborAll tokens

end

/-- Every capability is a subset of a granted one; otherwise the first that is
not is reported. -/
def requireCovered (caps granted : List Capability) (problem : String) : Except IdentityError Unit :=
  match caps.find? fun cap => !granted.any cap.isSubsetOf with
  | none => .ok ()
  | some cap =>
    let resource := cap.resource
    let action := cap.action
    .error (.invalidField "att" s!"capability '{resource}' '{action}' {problem}")

namespace Ucan

def signingInput (token : Ucan) : List UInt8 :=
  encodeValue token.header.toCbor ++ encodeValue token.payload.toCbor

/-- Sign with a key pair whose id is the header's `kid`; `coins` is the
randomness of the signature. -/
def sign (prims : Primitives) (keypair : AgentKeypair) (coins : List UInt8) (token : Ucan) :
    Except Failure Ucan :=
  let expectedKid := agentIdToHex (deriveAgentId prims keypair.publicKey)
  let kid := token.header.kid
  if kid ≠ expectedKid then
    .error (.returned (.invalidField "kid"
      s!"kid does not match keypair: expected {expectedKid}, got {kid}"))
  else if prims.isSecretKey keypair.secretKey then
    .ok { token with signature := prims.signWith keypair.secretKey token.signingInput coins }
  else .error (.panicked "valid secret key")

def verify (prims : Primitives) (token : Ucan) (publicKey : List UInt8) (now : UInt64) :
    Except IdentityError Unit := do
  let alg := token.header.alg
  ensure (alg = ucanAlg) (.invalidField "alg" s!"unsupported algorithm: {alg}")
  ensure (token.header.kid = agentIdToHex (deriveAgentId prims publicKey)) .invalidAgentId
  ensure (prims.isPublicKey publicKey) .invalidPublicKey
  ensure (token.signature.length = mlDsa65SignatureLen) .invalidSignatureLength
  ensure (prims.verify publicKey token.signingInput token.signature) .signatureVerificationFailed
  ensure (now < token.payload.exp) (.expired token.payload.exp now)
  let nbf := token.payload.nbf
  ensure (nbf ≤ now) (.invalidField "nbf" s!"token not yet valid: nbf={nbf}, now={now}")

/-- Create a delegated UCAN from this token. -/
def delegate (prims : Primitives) (token : Ucan) (newIssuer : AgentKeypair) (audience : AgentId)
    (capabilities : List Capability) (expiresAt notBefore : UInt64) (coins : List UInt8) :
    Except Failure Ucan := do
  (requireCovered capabilities token.payload.att "is not a subset of parent capabilities").mapError .returned
  let issuerKid := agentIdToHex (deriveAgentId prims newIssuer.publicKey)
  sign prims newIssuer coins
    { header := { alg := ucanAlg, typ := ucanTyp, kid := issuerKid }
      payload :=
        { iss := issuerKid, aud := agentIdToHex audience, exp := expiresAt, nbf := notBefore
          prf := [token], att := capabilities, fct := [] }
      signature := [] }

/-- The key a resolver gives for a `kid`. -/
abbrev Resolver := String → Option (List UInt8)

def checkLink (child parent : UcanPayload) : Except IdentityError Unit := do
  let aud := parent.aud
  let iss := child.iss
  ensure (aud = iss)
    (.invalidField "prf" s!"chain link broken: parent aud '{aud}' does not match child iss '{iss}'")
  requireCovered child.att parent.att "expands beyond parent"

mutual

def validateChainImpl (prims : Primitives) (now : UInt64) (resolver : Resolver) :
    Ucan → Except IdentityError Unit
  | token@⟨⟨_, _, kid⟩, payload@⟨_, _, _, _, prf, _, _⟩, _⟩ => do
    let some pubkey := resolver kid
      | throw (.invalidField "kid" s!"cannot resolve public key for kid: {kid}")
    token.verify prims pubkey now
    validateProofs prims now resolver payload prf

def validateProofs (prims : Primitives) (now : UInt64) (resolver : Resolver) (child : UcanPayload) :
    List Ucan → Except IdentityError Unit
  | [] => .ok ()
  | parent :: parents => do
    checkLink child parent.payload
    validateChainImpl prims now resolver parent
    validateProofs prims now resolver child parents

end

/-- Validate the proof chain of this token. -/
def validateChain (prims : Primitives) (token : Ucan) (now : UInt64) (resolver : Resolver) :
    Except IdentityError Unit :=
  token.validateChainImpl prims now resolver

end Ucan

end Aafp.Identity
