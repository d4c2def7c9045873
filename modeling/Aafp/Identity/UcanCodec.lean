import Aafp.Identity.UcanEquality

/-! Tokens as bytes. -/
namespace Aafp.Identity

open Foundation Cbor Crypto Value
open List hiding map

/-- The decoders of this module do not tell a field of another kind from a missing one. -/
def textField (val : Value) (key : Int64) (field : String) : Except IdentityError String :=
  match intMapGet val key with
  | some (.textString text) => .ok text
  | _ => .error (.missingField field)

def unsignedField (val : Value) (key : Int64) (field : String) : Except IdentityError UInt64 :=
  match intMapGet val key with
  | some (.unsigned n) => .ok n
  | _ => .error (.missingField field)

def insertText (map : StringMap) (entry : String × Value) : StringMap :=
  match entry.2 with
  | .textString text => map.insert entry.1 text
  | _ => map

/-- The texts among the entries of a map; a later entry replaces an earlier one. -/
def stringsFromCbor (entries : List (String × Value)) : StringMap := entries.foldl insertText ∅

def UcanHeader.fromCbor (val : Value) : Except IdentityError UcanHeader := do
  let alg ← textField val 1 "alg"
  let typ ← textField val 2 "typ"
  let kid ← textField val 3 "kid"
  .ok { alg, typ, kid }

def Capability.fromCbor (val : Value) : Except IdentityError Capability := do
  let resource ← textField val 1 "resource"
  let action ← textField val 2 "action"
  let caveats := match intMapGet val 3 with
    | some (.strMap entries) => stringsFromCbor entries
    | _ => ∅
  .ok { resource, action, caveats }

def capabilitiesFromCbor : Option Value → Except IdentityError (List Capability)
  | some (.array items) => items.mapM Capability.fromCbor
  | _ => .ok []

def factFromCbor : Value → Option StringMap
  | .strMap entries => some (stringsFromCbor entries)
  | _ => none

def factsFromCbor : Option Value → List StringMap
  | some (.array items) => items.filterMap factFromCbor
  | _ => []

theorem sizeOf_intMapGet_lt (found : intMapGet val key = some value) : sizeOf value < sizeOf val := by
  unfold intMapGet at found
  split at found
  · obtain ⟨entry, isFirst, rfl⟩ := Option.map_eq_some_iff.mp found
    exact sizeOf_intEntry_lt (mem_of_find?_eq_some isFirst)
  · cases found

mutual

def UcanPayload.fromCbor (val : Value) : Except IdentityError UcanPayload := do
  let iss ← textField val 1 "iss"
  let aud ← textField val 2 "aud"
  let exp ← unsignedField val 3 "exp"
  let nbf ← unsignedField val 4 "nbf"
  let prf ← match _found : intMapGet val 5 with
    | some (.array items) => Ucan.fromCborAll items
    | _ => .ok []
  let att ← capabilitiesFromCbor (intMapGet val 6)
  .ok { iss, aud, exp, nbf, prf, att, fct := factsFromCbor (intMapGet val 7) }
termination_by sizeOf val
decreasing_by
  have smaller := sizeOf_intMapGet_lt _found
  simp only [array.sizeOf_spec] at smaller
  omega

def Ucan.fromCbor (val : Value) : Except IdentityError Ucan := do
  let header ← match intMapGet val 1 with
    | some header => UcanHeader.fromCbor header
    | none => .error (.missingField "header")
  let payload ← match _found : intMapGet val 2 with
    | some payload => UcanPayload.fromCbor payload
    | none => .error (.missingField "payload")
  let signature := match intMapGet val 3 with
    | some (.byteString bytes) => bytes
    | _ => []
  .ok { header, payload, signature }
termination_by sizeOf val
decreasing_by exact sizeOf_intMapGet_lt _found

def Ucan.fromCborAll : List Value → Except IdentityError (List Ucan)
  | [] => .ok []
  | item :: items => do
    let token ← Ucan.fromCbor item
    let tokens ← Ucan.fromCborAll items
    .ok (token :: tokens)
termination_by items => sizeOf items

end

/-- `IdentityError::Cbor` apart from the other errors of reading a token. -/
inductive TokenError where
  | cbor (error : CborError)
  | identity (error : IdentityError)

def Ucan.toBytes (token : Ucan) : Except TokenError (List UInt8) :=
  (encode token.toCbor).mapError .cbor

def Ucan.fromBytes (data : List UInt8) : Except TokenError Ucan := do
  let (val, _) ← (decode data).mapError .cbor
  (Ucan.fromCbor val).mapError .identity

def rereadStrings (map : StringMap) : StringMap :=
  stringsFromCbor (sortStrKeys (map.entries.map fun entry => (entry.1, textString entry.2)))

def Capability.reread (cap : Capability) : Capability :=
  { cap with caveats := rereadStrings cap.caveats }

mutual

def UcanPayload.reread : UcanPayload → UcanPayload
  | ⟨iss, aud, exp, nbf, prf, att, fct⟩ =>
    { iss, aud, exp, nbf, prf := Ucan.rereadAll prf, att := att.map Capability.reread
      fct := (fct.filter fun fact => !fact.entries.isEmpty).map rereadStrings }

def Ucan.reread : Ucan → Ucan
  | ⟨header, payload, signature⟩ => ⟨header, payload.reread, signature⟩

def Ucan.rereadAll : List Ucan → List Ucan
  | [] => []
  | token :: tokens => token.reread :: Ucan.rereadAll tokens

end

theorem Ucan.rereadAll_eq (tokens : List Ucan) : Ucan.rereadAll tokens = tokens.map Ucan.reread := by
  induction tokens with
  | nil => rfl
  | cons token tokens ih => rw [Ucan.rereadAll, ih, map_cons]

private theorem lookup_insertTexts {entries : List (String × Value)}
    (distinct : (entries.map Prod.fst).Nodup)
    (texts : ∀ entry ∈ entries, ∃ text, entry.2 = .textString text) (map : StringMap) (key value : String) :
    (entries.foldl insertText map).lookup key = some value ↔
      (key, .textString value) ∈ entries ∨ key ∉ entries.map Prod.fst ∧ map.lookup key = some value := by
  induction entries generalizing map with
  | nil => simp
  | cons entry entries ih =>
    obtain ⟨first, held⟩ := entry
    obtain ⟨⟨text, isText⟩, later⟩ := forall_mem_cons.mp texts
    obtain ⟨fresh, apart⟩ := nodup_cons.mp distinct
    cases isText
    rw [foldl_cons, ih apart later, insertText, lookup_insert_eq_some, map_cons,
      mem_cons, mem_cons]
    by_cases same : first = key
    · subst same
      -- the key does not come again, so its text stays
      have once : (first, .textString value) ∉ entries :=
        fun again => fresh (mem_map.mpr ⟨_, again, rfl⟩)
      simp [once, fresh, eq_comm]
    · simp [same, Ne.symm same]

theorem lookup_stringsFromCbor {map : StringMap}
    (listed : entries.Perm (map.entries.map fun entry => (entry.1, textString entry.2))) (key : String) :
    (stringsFromCbor entries).lookup key = map.lookup key := by
  have distinct : (entries.map Prod.fst).Nodup := by
    rw [(listed.map Prod.fst).nodup_iff, map_map]
    exact map.keys_nodup
  have texts : ∀ entry ∈ entries, ∃ text, entry.2 = .textString text := by
    intro entry mem
    obtain ⟨source, -, rfl⟩ := mem_map.mp (listed.mem_iff.mp mem)
    exact ⟨source.2, rfl⟩
  apply Option.ext
  intro value
  have found : (key, .textString value) ∈ entries ↔ map.lookup key = some value := by
    rw [listed.mem_iff, mem_map]
    constructor
    · rintro ⟨source, mem, same⟩
      cases same
      exact AList.mem_lookup_iff.mpr mem
    · intro held
      exact ⟨⟨key, value⟩, AList.mem_lookup_iff.mp held, rfl⟩
  rw [stringsFromCbor, lookup_insertTexts distinct texts, found]
  simp

theorem mapEq_rereadStrings (map : StringMap) : mapEq (rereadStrings map) map = true :=
  mapEq_iff.mpr (lookup_stringsFromCbor (sortStrKeys_perm _))

theorem norm_stringsToCbor (filled : map.entries.isEmpty = false) :
    (stringsToCbor map).norm =
      .strMap (sortStrKeys (map.entries.map fun entry => (entry.1, textString entry.2))) := by
  rw [stringsToCbor, norm_strMap (by simpa using filled)]
  simp [Function.comp_def]

variable (cap : Capability) (token : Ucan) (payload : UcanPayload) (facts : List StringMap)

theorem filterMap_factFromCbor : (facts.map fun fact => (stringsToCbor fact).norm).filterMap factFromCbor =
      (facts.filter fun fact => !fact.entries.isEmpty).map rereadStrings := by
  induction facts with
  | nil => rfl
  | cons fact facts ih =>
    rw [map_cons, filterMap_cons, filter_cons, ih]
    cases empty : fact.entries.isEmpty with
    | true => simp_all [stringsToCbor, Value.norm, factFromCbor]
    | false =>
      rw [norm_stringsToCbor empty]
      rfl

theorem UcanHeader.fromCbor_norm (header : UcanHeader) : UcanHeader.fromCbor header.toCbor.norm = .ok header := by
  simp [UcanHeader.fromCbor, UcanHeader.toCbor, textField]

theorem Capability.fromCbor_norm : Capability.fromCbor cap.toCbor.norm = .ok cap.reread := by
  cases empty : cap.caveats.entries.isEmpty with
  | true =>
    have cleared : rereadStrings cap.caveats = ∅ := by
      simp [rereadStrings, isEmpty_iff.mp empty, sortStrKeys, sortBy, stringsFromCbor]
    simp [Capability.fromCbor, Capability.toCbor, textField, empty, Capability.reread, cleared]
  | false =>
    simp [Capability.fromCbor, Capability.toCbor, textField, empty, Capability.reread, norm_stringsToCbor empty,
      rereadStrings]

private theorem distinctKeys (iss aud exp nbf tokens caps facts : Value) (first second third : Bool) :
    (([(1, iss), (2, aud), (3, exp), (4, nbf)] ++ (if first then [] else [(5, tokens)]) ++
      (if second then [] else [(6, caps)]) ++ (if third then [] else [(7, facts)]) :
        List (Int64 × Value)).map Prod.fst).Nodup := by
  cases first <;> cases second <;> cases third <;> simp

private theorem UcanPayload.get_norm :
    intMapGet payload.toCbor.norm 1 = some (.textString payload.iss) ∧
    intMapGet payload.toCbor.norm 2 = some (.textString payload.aud) ∧
    intMapGet payload.toCbor.norm 3 = some (.unsigned payload.exp) ∧
    intMapGet payload.toCbor.norm 4 = some (.unsigned payload.nbf) ∧
    intMapGet payload.toCbor.norm 5 = (if payload.prf.isEmpty then none else
      some (.array (payload.prf.map fun token => token.toCbor.norm))) ∧
    intMapGet payload.toCbor.norm 6 = (if payload.att.isEmpty then none else
      some (.array (payload.att.map fun cap => cap.toCbor.norm))) ∧
    intMapGet payload.toCbor.norm 7 = (if payload.fct.isEmpty then none else
      some (.array (payload.fct.map fun fact => (stringsToCbor fact).norm))) := by
  obtain ⟨iss, aud, exp, nbf, prf, att, fct⟩ := payload
  simp only [UcanPayload.toCbor, Ucan.toCborAll_eq, intMapGet_norm (distinctKeys ..)]
  cases prf.isEmpty <;> cases att.isEmpty <;> cases fct.isEmpty <;>
    simp [Function.comp_def]

theorem UcanPayload.fromCbor_norm
    (proofs : Ucan.fromCborAll (payload.prf.map fun token => token.toCbor.norm) =
      .ok (payload.prf.map Ucan.reread)) :
    UcanPayload.fromCbor payload.toCbor.norm = .ok payload.reread := by
  obtain ⟨iss, aud, exp, nbf, tokens, caps, facts⟩ := payload.get_norm
  have att : capabilitiesFromCbor (intMapGet payload.toCbor.norm 6) =
      .ok (payload.att.map Capability.reread) := by
    rw [caps]
    split
    next empty => simp [isEmpty_iff.mp empty, capabilitiesFromCbor]
    · rw [capabilitiesFromCbor, mapM_map]
      exact mapM_ok Capability.fromCbor_norm payload.att
  have fct : factsFromCbor (intMapGet payload.toCbor.norm 7) =
      (payload.fct.filter fun fact => !fact.entries.isEmpty).map rereadStrings := by
    rw [facts]
    split
    next empty => simp [isEmpty_iff.mp empty, factsFromCbor]
    · exact filterMap_factFromCbor payload.fct
  have same : payload.reread = ⟨payload.iss, payload.aud, payload.exp, payload.nbf,
      payload.prf.map Ucan.reread, payload.att.map Capability.reread,
      (payload.fct.filter fun fact => !fact.entries.isEmpty).map rereadStrings⟩ := by
    cases payload
    rw [UcanPayload.reread, Ucan.rereadAll_eq]
  rw [UcanPayload.fromCbor, same]
  simp only [textField, unsignedField, iss, aud, exp, nbf, ok_bind, att, fct]
  split
  next items found =>
    rw [tokens] at found
    split at found
    · cases found
    · cases found
      rw [proofs, ok_bind]
  next other =>
    have none : payload.prf = [] := by
      by_contra filled
      exact other _ (tokens.trans (if_neg (by simpa using filled)))
    rw [none, map_nil]

theorem Ucan.fromCborAll_map {read : Ucan → Ucan} (tokens : List Ucan)
    (each : ∀ token ∈ tokens, Ucan.fromCbor token.toCbor.norm = .ok (read token)) :
    Ucan.fromCborAll (tokens.map fun token => token.toCbor.norm) = .ok (tokens.map read) := by
  induction tokens with
  | nil => rw [map_nil, Ucan.fromCborAll, map_nil]
  | cons token tokens ih =>
    rw [forall_mem_cons] at each
    rw [map_cons, Ucan.fromCborAll, each.1, ok_bind, ih each.2, ok_bind, map_cons]

theorem Ucan.fromCbor_norm : Ucan.fromCbor token.toCbor.norm = .ok token.reread := by
  induction token using Ucan.proofInduction with
  | token token ih =>
    have read := token.payload.fromCbor_norm (Ucan.fromCborAll_map token.payload.prf ih)
    obtain ⟨header, payload, signature⟩ := token
    have fields : intMapGet (Ucan.toCbor ⟨header, payload, signature⟩).norm 1 = some header.toCbor.norm ∧
        intMapGet (Ucan.toCbor ⟨header, payload, signature⟩).norm 2 = some payload.toCbor.norm ∧
        intMapGet (Ucan.toCbor ⟨header, payload, signature⟩).norm 3 = some (.byteString signature) := by
      simp [Ucan.toCbor]
    obtain ⟨first, second, third⟩ := fields
    rw [Ucan.fromCbor, Ucan.reread]
    simp only [first, UcanHeader.fromCbor_norm, ok_bind, third]
    split
    next found =>
      cases second.symm.trans found
      rw [read, ok_bind]
    next found => cases second.symm.trans found

theorem stringsToCbor_wellFormed (map : StringMap) : (stringsToCbor map).WellFormed := by
  refine .strMap ?_ (forall_mem_map.mpr fun _ _ => .textString)
  rw [map_map]
  exact map.keys_nodup

theorem Capability.toCbor_wellFormed : cap.toCbor.WellFormed := by
  unfold Capability.toCbor
  split
  · exact .intMap (by simp) (by simp [Value.WellFormed.textString])
  · exact .intMap (by simp) (by simp [Value.WellFormed.textString, stringsToCbor_wellFormed])

theorem UcanPayload.toCbor_wellFormed
    (proofs : ∀ parent ∈ payload.prf, parent.toCbor.WellFormed) : payload.toCbor.WellFormed := by
  obtain ⟨iss, aud, exp, nbf, prf, att, fct⟩ := payload
  have tokens : (array (Ucan.toCborAll prf)).WellFormed := by
    rw [Ucan.toCborAll_eq]
    exact .array (forall_mem_map.mpr proofs)
  have caps : (array (att.map Capability.toCbor)).WellFormed :=
    .array (forall_mem_map.mpr fun cap _ => cap.toCbor_wellFormed)
  have facts : (array (fct.map stringsToCbor)).WellFormed :=
    .array (forall_mem_map.mpr fun fact _ => stringsToCbor_wellFormed fact)
  refine .intMap (distinctKeys ..) ?_
  simp only [forall_mem_append, forall_mem_cons]
  refine ⟨⟨⟨⟨.textString, .textString, .unsigned, .unsigned, nofun⟩, ?_⟩, ?_⟩, ?_⟩
  · split
    · exact nofun
    · exact forall_mem_singleton.mpr tokens
  · split
    · exact nofun
    · exact forall_mem_singleton.mpr caps
  · split
    · exact nofun
    · exact forall_mem_singleton.mpr facts

namespace Ucan

theorem toCbor_wellFormed : token.toCbor.WellFormed := by
  induction token using Ucan.proofInduction with
  | token token ih =>
    have payload := token.payload.toCbor_wellFormed ih
    obtain ⟨header, _, _⟩ := token
    have texts : header.toCbor.WellFormed :=
      .intMap (by simp) (by simp [Value.WellFormed.textString])
    refine .intMap (by simp) ?_
    simp only [forall_mem_cons]
    exact ⟨texts, payload, .byteString, nofun⟩

theorem fromBytes_encoded {token : Ucan} (shallow : token.toCbor.height ≤ maxDecodeDepth)
    (bounded : (encodeValue token.toCbor).length ≤ isizeMax) :
    fromBytes (encodeValue token.toCbor) = .ok token.reread := by
  have decoded := decode_encodeValue [] token.toCbor_wellFormed shallow (by simpa using bounded)
  rw [append_nil] at decoded
  rw [fromBytes, decoded]
  exact mapError_eq_ok.mpr token.fromCbor_norm

def FactsFilled (token : Ucan) : Prop :=
  ∀ ancestor, InProofTree ancestor token → ∀ fact ∈ ancestor.payload.fct, fact.entries ≠ []

theorem factsFilled_iff {token : Ucan} : token.FactsFilled ↔
    (∀ fact ∈ token.payload.fct, fact.entries ≠ []) ∧ ∀ parent ∈ token.payload.prf, parent.FactsFilled := by
  constructor
  · intro filled
    exact ⟨filled token .self, fun parent proof ancestor within => filled ancestor (.above proof within)⟩
  · intro ⟨own, above⟩ ancestor within
    cases within with
    | self => exact own
    | above proof further => exact above _ proof ancestor further

private theorem facts_reread_iff :
    List.Forall₂ (fun fact other => mapEq fact other = true)
        ((facts.filter fun fact => !fact.entries.isEmpty).map rereadStrings) facts ↔
      ∀ fact ∈ facts, fact.entries ≠ [] := by
  constructor
  · intro alike fact mem
    have length := alike.length_eq
    rw [length_map, length_filter_eq_length_iff] at length
    simpa using length fact mem
  · intro filled
    have all : facts.filter (fun fact => !fact.entries.isEmpty) = facts :=
      filter_eq_self.mpr fun fact mem => by simpa using filled fact mem
    rw [all, forall₂_map_left_iff]
    exact forall₂_same.mpr fun fact _ => mapEq_rereadStrings fact

theorem reread_sameAs_iff : token.reread.sameAs token = true ↔ token.FactsFilled := by
  induction token using Ucan.proofInduction with
  | token token ih =>
    rw [factsFilled_iff, sameAs_iff]
    obtain ⟨header, ⟨iss, aud, exp, nbf, prf, att, fct⟩, signature⟩ := token
    have caps : List.Forall₂ (fun cap other => Capability.sameAs cap other = true)
        (att.map Capability.reread) att := by
      rw [forall₂_map_left_iff]
      refine forall₂_same.mpr fun cap _ => Capability.sameAs_iff.mpr ⟨rfl, rfl, ?_⟩
      exact mapEq_iff.mp (mapEq_rereadStrings cap.caveats)
    have proofs : List.Forall₂ (fun token other => token.sameAs other = true) (prf.map reread) prf ↔
        ∀ parent ∈ prf, parent.FactsFilled := by
      rw [forall₂_map_left_iff, forall₂_same]
      exact forall₂_congr ih
    rw [← proofs, ← facts_reread_iff, reread, UcanPayload.reread, rereadAll_eq]
    constructor
    · intro same
      exact ⟨same.2.1.fct, same.2.1.prf⟩
    · intro ⟨facts, parents⟩
      exact ⟨rfl, ⟨rfl, rfl, rfl, rfl, parents, caps, facts⟩, rfl⟩

/-- A token that came through unchanged, and is signed over and validated as before. -/
structure Survives (token decoded : Ucan) : Prop where
  equal : decoded.sameAs token = true
  signingInput : decoded.signingInput = token.signingInput
  validation : ∀ prims now resolver,
    decoded.validateChain prims now resolver = token.validateChain prims now resolver

/-- A token survives exactly if no token of its proof tree has an empty map among its facts. -/
theorem token_survives_iff (token : Ucan) (shallow : token.toCbor.height ≤ maxDecodeDepth)
    (bounded : (encodeValue token.toCbor).length ≤ isizeMax) :
    ∃ bytes decoded, token.toBytes = .ok bytes ∧ fromBytes bytes = .ok decoded ∧
      (Survives token decoded ↔ token.FactsFilled) := by
  refine ⟨encodeValue token.toCbor, token.reread, rfl, fromBytes_encoded shallow bounded, ?_⟩
  rw [← reread_sameAs_iff]
  constructor
  · intro survives
    exact survives.equal
  · intro same
    exact ⟨same, signingInput_congr same, fun prims now resolver => validateChain_congr same prims now resolver⟩

private def stating (facts : List StringMap) (signature : List UInt8) : Ucan :=
  ⟨⟨ucanAlg, ucanTyp, kidOf 1⟩, ⟨kidOf 1, kidOf 2, 100, 0, [], [], facts⟩, signature⟩

private theorem stating_height (signature : List UInt8) :
    (stating facts signature).toCbor.height ≤ maxDecodeDepth := by
  have texts (map : StringMap) : (stringsToCbor map).height ≤ 2 := by
    rw [stringsToCbor, height, Nat.add_comm, map_map]
    refine Nat.add_le_add_right (foldr_max_le (forall_mem_map.mpr fun entry _ => ?_)) 1
    simp [height]
  have stated : (array (facts.map stringsToCbor)).height ≤ 3 :=
    height_array_le (forall_mem_map.mpr fun fact _ => texts fact)
  have payload : (stating facts signature).payload.toCbor.height ≤ 4 := by
    apply height_intMap_le
    cases facts <;> simp_all [height]
  have whole : (stating facts signature).toCbor.height ≤ 5 := by
    apply height_intMap_le
    simp only [forall_mem_cons]
    exact ⟨height_intMap_le (by simp [height]), payload, by simp [height], forall_mem_nil _⟩
  exact Nat.le_trans whole (by decide)

theorem token_survives_with_fact :
    ∃ bytes decoded, (stating [AList.singleton "region" "eu"] []).toBytes = .ok bytes ∧
      fromBytes bytes = .ok decoded ∧ Survives (stating [AList.singleton "region" "eu"] []) decoded := by
  obtain ⟨bytes, decoded, encoded, read, survives⟩ := token_survives_iff
    (stating [AList.singleton "region" "eu"] []) (stating_height _ _) (by decide +kernel)
  refine ⟨bytes, decoded, encoded, read, survives.mpr (factsFilled_iff.mpr ⟨?_, nofun⟩)⟩
  exact forall_mem_singleton.mpr nofun

/-- A token is read back without its empty map of facts, and its signature fails. -/
theorem empty_fact_is_lost :
    let unsigned := stating [∅] []
    let token := stating [∅] (keepingStart.signWith (standInKeys 1).secretKey unsigned.signingInput [])
    ∃ bytes decoded, token.toBytes = .ok bytes ∧ fromBytes bytes = .ok decoded ∧
      decoded.payload.fct = [] ∧
      token.validateChain keepingStart 50 resolveSample = .ok () ∧
      decoded.validateChain keepingStart 50 resolveSample = .error .signatureVerificationFailed := by
  intro unsigned token
  refine ⟨encodeValue token.toCbor, token.reread, rfl, fromBytes_encoded (stating_height _ _) ?_, rfl, ?_, ?_⟩
  · decide +kernel
  · decide +kernel
  · decide +kernel

end Ucan

end Aafp.Identity
