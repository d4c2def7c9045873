import Aafp.Identity.Revocation

/-! Certificates of authorities and the verifier of certificate chains. -/
namespace Aafp.Identity

open Foundation Cbor Crypto

def caDomainSeparator : List UInt8 := asBytes "aafp-v1-ca"

def caCertTypeV1 : String := "aafp-ca-cert-v1"

inductive CaError where
  | signatureVerificationFailed
  | expired
  | notYetValid
  | missingField (field : String)
  | invalidField (field message : String)
  | agentIdMismatch
  | invalidPublicKey
  | invalidSignatureLength
  | caNotTrusted (issuer : String)
  | revoked
  | selfSignedRejected

/-- An authority binds an agent id and its public key to capabilities, for a time. -/
structure CaCertificate where
  certType : String
  agentId : AgentId
  publicKey : List UInt8
  issuer : String
  issuerPublicKey : List UInt8
  serialNumber : UInt64
  notBefore : UInt64
  notAfter : UInt64
  capabilities : List String
  caSignature : List UInt8

namespace CaCertificate

def toCborWithoutSig (cert : CaCertificate) : Value :=
  .intMap [
    (1, .textString cert.certType),
    (2, .byteString cert.agentId.1),
    (3, .byteString cert.publicKey),
    (4, .textString cert.issuer),
    (5, .byteString cert.issuerPublicKey),
    (6, .unsigned cert.serialNumber),
    (7, .unsigned cert.notBefore),
    (8, .unsigned cert.notAfter),
    (9, .array (cert.capabilities.map Value.textString))]

def signatureInput (cert : CaCertificate) : List UInt8 :=
  caDomainSeparator ++ encodeValue cert.toCborWithoutSig

/-- `coins` is the randomness of the signature. -/
def issue (prims : Primitives) (agentId : AgentId) (agentPublicKey : List UInt8) (issuerName : String)
    (issuerPublicKey caSecretKey coins : List UInt8) (serialNumber notBefore notAfter : UInt64)
    (capabilities : List String) : CaCertificate :=
  let cert : CaCertificate :=
    { certType := caCertTypeV1, agentId, publicKey := agentPublicKey, issuer := issuerName
      issuerPublicKey, serialNumber, notBefore, notAfter, capabilities, caSignature := [] }
  { cert with caSignature := prims.signWith caSecretKey cert.signatureInput coins }

def verify (prims : Primitives) (cert : CaCertificate) (now : UInt64) : Except CaError Unit := do
  let got := cert.certType
  ensure (cert.certType = caCertTypeV1)
    (.invalidField "type" s!"expected {caCertTypeV1}, got {got}")
  ensure (cert.agentId = deriveAgentId prims cert.publicKey) .agentIdMismatch
  ensure (cert.notBefore ≤ now) .notYetValid
  ensure (now < cert.notAfter) .expired
  ensure (prims.isPublicKey cert.issuerPublicKey) .invalidPublicKey
  ensure (cert.caSignature.length = mlDsa65SignatureLen) .invalidSignatureLength
  ensure (prims.verify cert.issuerPublicKey cert.signatureInput cert.caSignature)
    .signatureVerificationFailed

def isSelfSigned (cert : CaCertificate) : Bool := cert.issuerPublicKey = cert.publicKey

end CaCertificate

structure CaVerifier where
  trustedRoots : HashSet (List UInt8)

namespace CaVerifier

def new : CaVerifier := ⟨∅⟩

variable (verifier : CaVerifier)

def addTrustedRoot (publicKey : List UInt8) : CaVerifier :=
  ⟨verifier.trustedRoots.insert publicKey ()⟩

def isTrustedCa (publicKey : List UInt8) : Bool :=
  publicKey ∈ verifier.trustedRoots

/-- The links of a chain from the certificate at an index on. The last one must have
been issued by a trusted authority. -/
def verifyLinks (verifier : CaVerifier) (prims : Primitives) (now : UInt64)
    (revocationStore : Option RevocationStore) : Nat → List CaCertificate → Except CaError Unit
  | _, [] => .ok ()
  | index, cert :: chain => do
    cert.verify prims now
    ensure (¬ revocationStore.any fun store => store.isRevoked cert.agentId) .revoked
    match chain with
    | next :: _ =>
      let following := index + 1
      ensure (cert.issuerPublicKey = next.publicKey) (.invalidField "chain"
        s!"certificate {index} issuer does not match certificate {following} public key")
    | [] =>
      ensure (verifier.isTrustedCa cert.issuerPublicKey) (.caNotTrusted cert.issuer)
      ensure (¬ (cert.isSelfSigned && !verifier.isTrustedCa cert.publicKey)) .selfSignedRejected
    verifier.verifyLinks prims now revocationStore (index + 1) chain

def verifyChain (prims : Primitives) (chain : List CaCertificate) (now : UInt64)
    (revocationStore : Option RevocationStore) : Except CaError Unit :=
  if chain.isEmpty then .error (.missingField "chain")
  else verifier.verifyLinks prims now revocationStore 0 chain

def verifyCertificate (prims : Primitives) (cert : CaCertificate)
    (now : UInt64) (revocationStore : Option RevocationStore) : Except CaError Unit :=
  verifier.verifyChain prims [cert] now revocationStore

end CaVerifier

end Aafp.Identity
