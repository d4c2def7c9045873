import Aafp.Crypto.Messages

/-! The cryptography that the source takes from other crates. -/
namespace Aafp.Crypto

open Foundation List

def mlDsa65PubkeyLen : Nat := 1952

def mlDsa65SecretkeyLen : Nat := 4032

def mlDsa65SignatureLen : Nat := 3309

/-- SHA-256, HKDF-SHA256 and ML-DSA-65. Signing is randomised, so it takes
random coins. -/
structure Primitives where
  sha256 : List UInt8 → Bytes32
  hkdfSha256 : (salt ikm info : List UInt8) → (outputLen : Nat) → List UInt8
  hkdfSha256_length : ∀ salt ikm info outputLen, outputLen ≤ 255 * 32 →
    (hkdfSha256 salt ikm info outputLen).length = outputLen
  decodesPublicKey : List UInt8 → Bool
  decodesSecretKey : List UInt8 → Bool
  signWith : (secretKey message coins : List UInt8) → List UInt8
  signWith_length : ∀ secretKey message coins,
    (signWith secretKey message coins).length = mlDsa65SignatureLen
  verifyWith : (publicKey message signature : List UInt8) → Bool

/-- The text of a signature of `standIn`, cut or filled to the right length. -/
def spelled (text : List UInt8) : List UInt8 :=
  (text ++ replicate mlDsa65SignatureLen 0).take mlDsa65SignatureLen

theorem length_spelled (text : List UInt8) : (spelled text).length = mlDsa65SignatureLen := by
  simp [spelled]

namespace Primitives

/-- The hash is the length of its input, a secret key begins with its public key, and a signature
spells key and message. -/
def standIn : Primitives where
  sha256 bytes := ⟨bigEndian 32 bytes.length, length_bigEndian 32 _⟩
  hkdfSha256 _ _ _ outputLen := replicate outputLen 1
  hkdfSha256_length _ _ _ _ _ := length_replicate
  decodesPublicKey _ := true
  decodesSecretKey _ := true
  signWith secretKey message _ := spelled (secretKey.take mlDsa65PubkeyLen ++ message)
  signWith_length _ _ _ := length_spelled _
  verifyWith publicKey message signature := signature == spelled (publicKey ++ message)

/-- `MlDsa65PublicKey::from_bytes` succeeds. -/
def isPublicKey (prims : Primitives) (bytes : List UInt8) : Bool :=
  bytes.length == mlDsa65PubkeyLen && prims.decodesPublicKey bytes

/-- `MlDsa65SecretKey::from_bytes` succeeds. -/
def isSecretKey (prims : Primitives) (bytes : List UInt8) : Bool :=
  bytes.length == mlDsa65SecretkeyLen && prims.decodesSecretKey bytes

/-- `MlDsa65::verify`, which decodes its arguments again. -/
def verify (prims : Primitives) (publicKey message signature : List UInt8) : Bool :=
  prims.isPublicKey publicKey && signature.length == mlDsa65SignatureLen &&
    prims.verifyWith publicKey message signature

end Primitives

structure AgentKeypair where
  publicKey : List UInt8
  secretKey : List UInt8

/-- A key pair of the signature scheme: what the secret key signs, the public
key verifies. -/
structure Works (prims : Primitives) (keypair : AgentKeypair) : Prop where
  publicKey : prims.isPublicKey keypair.publicKey
  secretKey : prims.isSecretKey keypair.secretKey
  verifies : ∀ message coins,
    prims.verify keypair.publicKey message (prims.signWith keypair.secretKey message coins)

def standInKeys (seed : UInt8) : AgentKeypair :=
  ⟨replicate mlDsa65PubkeyLen seed, replicate mlDsa65SecretkeyLen seed⟩

theorem standInKeys_work (seed : UInt8) : Works .standIn (standInKeys seed) where
  publicKey := by simp [Primitives.isPublicKey, standInKeys, Primitives.standIn]
  secretKey := by simp [Primitives.isSecretKey, standInKeys, Primitives.standIn]
  verifies message coins := by
    have start : (standInKeys seed).secretKey.take mlDsa65PubkeyLen = (standInKeys seed).publicKey :=
      take_replicate
    simp only [Primitives.verify, Primitives.standIn, start, length_spelled, beq_self_eq_true, Bool.and_true]
    simp [Primitives.isPublicKey, standInKeys]

end Aafp.Crypto
