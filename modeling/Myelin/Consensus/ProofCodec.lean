/-
  The persisted form of finality proofs.

  `encode` wraps a proof into an envelope (format version, engine kind, schema hash, payload hash)
  and writes it as compact JSON; `decode` parses, checks the envelope and then re-encodes: what it
  accepts is CANONICAL by construction.  The writer is modelled byte by byte, because `encode`
  bounds its size; the parser of the JSON library is a parameter, used only through
  `fromSlice (toVec envelope) = envelope`.

  The size limit never bites: with at most 4096 signatures and identifiers of at most 128 bytes an
  envelope stays below 8 MiB (`envelopeJson_length_le`).  So `encode` succeeds exactly on the
  `Encodable` proofs.  What the codec asks for and the engines do NOT is an identifier of at most
  128 bytes and, for Tendermint, a list of nothing but precommits; **the main theorem** says that an
  accepted proof of configured signers can be persisted if and only if it meets these two.
-/
import Myelin.Consensus.Engines
import Myelin.Lib.Json

namespace Myelin.Consensus

open Lib
open ConsensusError (proofCodec)
open SelectedConsensus (toyCertificate)

variable {id : String} {vote : TendermintVote}

/-! ## Schema commitments -/

/-- Length-prefixed field of a schema commitment. -/
def putField (value : List UInt8) : List UInt8 := le64 (UInt64.ofNat value.length) ++ value

/-- Commitment to one schema of an engine. -/
def schemaHash (crypto : Crypto) (schemaClass label : String) : Hash32 :=
  crypto.blake3 (utf8 "myelin:consensus-schema" ++ putField (utf8 schemaClass) ++
    putField (utf8 label))

/-- Commitment to the proof schema of an engine. -/
def proofSchemaHash (crypto : Crypto) (kind : ConsensusKind) : Hash32 :=
  schemaHash crypto "proof" (match kind with
    | .staticClosedCommittee => "static-closed-committee-proof-v1"
    | .proofOfAuthority => "proof-of-authority-proof-v1"
    | .tendermint => "tendermint-decision-proof-v1")

/-! ## Wire structs -/

/-- A committee signature on the wire. -/
structure SignatureWire where
  validatorId : String
  signature : List UInt8
  deriving DecidableEq

/-- A proof on the wire. -/
inductive ProofWire where
  | staticClosedCommittee (blockHash : Hash32) (signatures : List SignatureWire)
  | proofOfAuthority (blockHash : Hash32) (height : UInt64) (authorityId : String)
      (signature : List UInt8)
  | tendermint (decision : TendermintDecision)
  deriving DecidableEq

/-- Versioned envelope of a proof. -/
structure ProofEnvelopeWire where
  formatVersion : UInt16
  consensusKind : String
  proofSchemaHash : Hash32
  payloadHash : Hash32
  payload : ProofWire
  deriving DecidableEq

/-- Engine a payload belongs to. -/
def ProofWire.kind : ProofWire → ConsensusKind
  | .staticClosedCommittee .. => .staticClosedCommittee
  | .proofOfAuthority .. => .proofOfAuthority
  | .tendermint .. => .tendermint

/-- Owned wire copy of a committee signature. -/
def SignatureWire.from (value : CommitteeSignature) : SignatureWire :=
  ⟨value.validatorId, value.signature.val⟩

/-- Owned wire copy of a proof. -/
def ProofWire.from : FinalityProof → ProofWire
  | .staticClosedCommittee certificate =>
      .staticClosedCommittee certificate.blockHash (certificate.signatures.map SignatureWire.from)
  | .proofOfAuthority blockSeal =>
      .proofOfAuthority blockSeal.blockHash blockSeal.height blockSeal.authorityId
        blockSeal.signature.val
  | .tendermint decision => .tendermint decision

/-- A signature of exactly `n` bytes. -/
def fixedSignature (n : Nat) (value : List UInt8) (label : String) :
    Except ConsensusError (FixedBytes n) :=
  okOr (FixedBytes.ofList? n value)
    (.proofCodec (label ++ " must be exactly " ++ toString n ++ " bytes"))

/-- A committee signature from the wire. -/
def CommitteeSignature.tryFrom (value : SignatureWire) :
    Except ConsensusError CommitteeSignature := do
  let signature ← fixedSignature 64 value.signature "signature"
  pure ⟨value.validatorId, signature⟩

/-- A proof from the wire. -/
def FinalityProof.tryFrom : ProofWire → Except ConsensusError FinalityProof
  | .staticClosedCommittee blockHash signatures => do
      let signatures ← mapResult CommitteeSignature.tryFrom signatures
      pure (.staticClosedCommittee ⟨blockHash, signatures⟩)
  | .proofOfAuthority blockHash height authorityId signature => do
      let signature ← fixedSignature 65 signature "CKB PoA signature"
      pure (.proofOfAuthority ⟨blockHash, height, authorityId, signature⟩)
  | .tendermint decision => .ok (.tendermint decision)

lemma fixedSignature_val (value : FixedBytes n) (label : String) :
    fixedSignature n value.val label = .ok value :=
  okOr_eq_ok.mpr (FixedBytes.ofList?_val value)

lemma CommitteeSignature.tryFrom_from (value : CommitteeSignature) :
    CommitteeSignature.tryFrom (SignatureWire.from value) = .ok value :=
  bind_eq_ok.mpr ⟨value.signature, fixedSignature_val value.signature _, rfl⟩

/-- The wire copy loses nothing. -/
lemma FinalityProof.tryFrom_from (proof : FinalityProof) :
    FinalityProof.tryFrom (ProofWire.from proof) = .ok proof := by
  cases proof with
  | staticClosedCommittee certificate =>
    have h : mapResult CommitteeSignature.tryFrom (certificate.signatures.map SignatureWire.from) =
        .ok certificate.signatures := by
      rw [mapResult_eq_ok, List.forall₂_map_left_iff, List.forall₂_same]
      exact fun value _ => CommitteeSignature.tryFrom_from value
    exact bind_eq_ok.mpr ⟨certificate.signatures, h, rfl⟩
  | proofOfAuthority blockSeal =>
    exact bind_eq_ok.mpr ⟨blockSeal.signature, fixedSignature_val blockSeal.signature _, rfl⟩
  | tendermint decision => rfl

lemma ProofWire.kind_from (proof : FinalityProof) : (ProofWire.from proof).kind = proof.kind := by
  cases proof <;> rfl

/-! ## The JSON text -/

/-- A Tendermint vote as JSON. -/
def voteJson (vote : TendermintVote) : List UInt8 :=
  jsonObject [
    ("height", jsonNat vote.height.toNat),
    ("round", jsonNat vote.round.toNat),
    ("step", jsonString vote.step.name),
    ("block_hash", match vote.blockHash with
      | some blockHash => jsonBytes blockHash.val
      | none => jsonNull),
    ("validator_id", jsonString vote.validatorId),
    ("signature", jsonBytes vote.signature)]

/-- A committee signature as JSON. -/
def signatureJson (signature : SignatureWire) : List UInt8 :=
  jsonObject [
    ("validator_id", jsonString signature.validatorId),
    ("signature", jsonBytes signature.signature)]

/-- A payload as JSON, with the variant's name under `kind`. -/
def payloadJson : ProofWire → List UInt8
  | .staticClosedCommittee blockHash signatures => jsonObject [
      ("kind", jsonString "static-closed-committee"),
      ("block_hash", jsonBytes blockHash.val),
      ("signatures", jsonArray (signatures.map signatureJson))]
  | .proofOfAuthority blockHash height authorityId signature => jsonObject [
      ("kind", jsonString "proof-of-authority"),
      ("block_hash", jsonBytes blockHash.val),
      ("height", jsonNat height.toNat),
      ("authority_id", jsonString authorityId),
      ("signature", jsonBytes signature)]
  | .tendermint decision => jsonObject [
      ("kind", jsonString "tendermint"),
      ("decision", jsonObject [
        ("height", jsonNat decision.height.toNat),
        ("round", jsonNat decision.round.toNat),
        ("block_hash", jsonBytes decision.blockHash.val),
        ("precommits", jsonArray (decision.precommits.map voteJson))])]

/-- An envelope as JSON. -/
def envelopeJson (envelope : ProofEnvelopeWire) : List UInt8 :=
  jsonObject [
    ("format_version", jsonNat envelope.formatVersion.toNat),
    ("consensus_kind", jsonString envelope.consensusKind),
    ("proof_schema_hash", jsonBytes envelope.proofSchemaHash.val),
    ("payload_hash", jsonBytes envelope.payloadHash.val),
    ("payload", payloadJson envelope.payload)]

/-! ## Encoding and decoding -/

/-- Format version written into every envelope. -/
def proofFormatVersion : UInt16 := 1

/-- Largest encoded proof, in bytes. -/
def maxProofBytes : Nat := 8 * 1024 * 1024

/-- Most signatures of one proof. -/
def maxSignatures : Nat := 4096

/-- Longest validator or authority identifier, in bytes. -/
def maxValidatorIdBytes : Nat := 128

/-- Identifier length. -/
def validateId (id : String) : Except ConsensusError Unit :=
  ensure (id ≠ "" ∧ (utf8 id).length ≤ maxValidatorIdBytes) (.proofCodec
    ("validator/authority id length must be 1..=" ++ toString maxValidatorIdBytes ++ " bytes"))

/-- Limits of a Tendermint decision. -/
def validateDecision (decision : TendermintDecision) : Except ConsensusError Unit := do
  ensure (decision.precommits.length ≤ maxSignatures) (proofCodec "too many Tendermint precommits")
  forResult (fun vote => do
    ensure (vote.step = .precommit) (proofCodec "Tendermint decision contains a non-precommit vote")
    validateId vote.validatorId
    ensure (vote.signature.length = 64)
      (proofCodec "Tendermint signature must be exactly 64 bytes"))
    decision.precommits

/-- Limits of committee signatures on the wire. -/
def validateSignatures (signatures : List SignatureWire) : Except ConsensusError Unit := do
  ensure (signatures.length ≤ maxSignatures) (proofCodec "too many committee signatures")
  forResult (fun signature => do
    validateId signature.validatorId
    ensure (signature.signature.length = 64)
      (proofCodec "signature must be exactly 64 bytes")) signatures

/-- Limits of a payload. -/
def validatePayload : ProofWire → Except ConsensusError Unit
  | .staticClosedCommittee _ signatures => validateSignatures signatures
  | .proofOfAuthority _ _ authorityId signature => do
      validateId authorityId
      ensure (signature.length = 65) (proofCodec "CKB PoA signature must be exactly 65 bytes")
  | .tendermint decision => validateDecision decision

/-- Limits of the caller's proof, checked before it is copied. -/
def validateCaller : FinalityProof → Except ConsensusError Unit
  | .staticClosedCommittee certificate => do
      ensure (certificate.signatures.length ≤ maxSignatures)
        (proofCodec "too many committee signatures")
      forResult (fun signature => validateId signature.validatorId) certificate.signatures
  | .proofOfAuthority blockSeal => validateId blockSeal.authorityId
  | .tendermint decision => validateDecision decision

/-- The envelope around a payload. -/
def proofEnvelope (crypto : Crypto) (kind : ConsensusKind) (payload : ProofWire) :
    ProofEnvelopeWire where
  formatVersion := proofFormatVersion
  consensusKind := kind.asStr
  proofSchemaHash := proofSchemaHash crypto kind
  payloadHash := crypto.blake3 (payloadJson payload)
  payload := payload

namespace FinalityProof

/-- Canonical bytes of a proof. -/
def encode (crypto : Crypto) (proof : FinalityProof) : Except ConsensusError (List UInt8) := do
  validateCaller proof
  let payload := ProofWire.from proof
  validatePayload payload
  let encoded := envelopeJson (proofEnvelope crypto proof.kind payload)
  ensure (encoded.length ≤ maxProofBytes)
    (.proofCodec ("proof exceeds " ++ toString maxProofBytes ++ " bytes"))
  pure encoded

/-- Parse, check and re-encode.  `fromSlice` is the JSON library's parser, with its error text. -/
def decode (crypto : Crypto) (fromSlice : List UInt8 → Except String ProofEnvelopeWire)
    (bytes : List UInt8) : Except ConsensusError FinalityProof := do
  ensure (bytes ≠ [] ∧ bytes.length ≤ maxProofBytes)
    (proofCodec ("proof size must be 1..=" ++ toString maxProofBytes ++ " bytes"))
  let envelope ← (fromSlice bytes).mapError proofCodec
  ensure (envelope.formatVersion = proofFormatVersion) (proofCodec
    ("unsupported proof format version " ++ toString envelope.formatVersion))
  let kind ← ConsensusKind.fromCanonicalStr envelope.consensusKind
  ensure (envelope.proofSchemaHash = proofSchemaHash crypto kind)
    (proofCodec "proof schema commitment mismatch")
  ensure (envelope.payload.kind = kind) (proofCodec "proof kind does not match its envelope")
  validatePayload envelope.payload
  ensure (crypto.blake3 (payloadJson envelope.payload) = envelope.payloadHash)
    (proofCodec "proof payload hash mismatch")
  let proof ← FinalityProof.tryFrom envelope.payload
  let canonical ← proof.encode crypto
  ensure (canonical = bytes) (proofCodec "proof encoding is not canonical")
  pure proof

/-! ## What can be encoded -/

/-- The limits of the codec on an identifier. -/
def ValidId (id : String) : Prop := id ≠ "" ∧ (utf8 id).length ≤ maxValidatorIdBytes

/-- The limits of the codec on a proof. -/
def Encodable : FinalityProof → Prop
  | .staticClosedCommittee certificate =>
      certificate.signatures.length ≤ maxSignatures ∧
        ∀ signature ∈ certificate.signatures, ValidId signature.validatorId
  | .proofOfAuthority blockSeal => ValidId blockSeal.authorityId
  | .tendermint decision =>
      decision.precommits.length ≤ maxSignatures ∧
        ∀ vote ∈ decision.precommits,
          vote.step = .precommit ∧ ValidId vote.validatorId ∧ vote.signature.length = 64

lemma validateId_eq_ok : validateId id = .ok u ↔ ValidId id :=
  ensure_eq_ok

/-- Both validation passes ask for the same; the second one also for the signature lengths that
    the caller's types already fix. -/
lemma validate_eq_ok :
    (validateCaller proof = .ok () ∧ validatePayload (ProofWire.from proof) = .ok ()) ↔
      proof.Encodable := by
  cases proof with
  | staticClosedCommittee certificate =>
    have hlength : ∀ signature : CommitteeSignature, signature.signature.val.length = 64 :=
      fun signature => signature.signature.property
    simp only [validateCaller, validatePayload, validateSignatures, ProofWire.from, eq_ok,
      forResult_eq_ok, validateId_eq_ok, List.length_map, List.forall_mem_map, SignatureWire.from,
      hlength, and_true, and_self, Encodable]
  | proofOfAuthority blockSeal =>
    have hlength : blockSeal.signature.val.length = 65 := blockSeal.signature.property
    simp only [validateCaller, validatePayload, ProofWire.from, eq_ok, validateId_eq_ok, hlength,
      and_true, and_self, Encodable]
  | tendermint decision =>
    simp only [validateCaller, validatePayload, ProofWire.from, validateDecision, eq_ok,
      forResult_eq_ok, validateId_eq_ok, and_self, Encodable]

/-! ## Sizes -/

lemma jsonNat64_length_le (n : UInt64) : (jsonNat n.toNat).length ≤ 20 :=
  jsonNat_length_le (by decide) (n.toNat_lt.trans (by decide))

lemma jsonNat32_length_le (n : UInt32) : (jsonNat n.toNat).length ≤ 10 :=
  jsonNat_length_le (by decide) (n.toNat_lt.trans (by decide))

lemma jsonHash_length_le (h : Hash32) : (jsonBytes h.val).length ≤ 130 := by
  have := jsonBytes_length_le h.val
  rw [h.property] at this
  exact this

/-- A valid identifier, every byte of which may need an escape. -/
lemma ValidId.jsonString_length_le (h : ValidId id) : (jsonString id).length ≤ 770 := by
  have := Lib.jsonString_length_le id
  have : (utf8 id).length ≤ 128 := h.2
  omega

lemma voteJson_length_le (hid : ValidId vote.validatorId)
    (hsignature : vote.signature.length = 64) : (voteJson vote).length ≤ 1300 := by
  have hheight := jsonNat64_length_le vote.height
  have hround := jsonNat32_length_le vote.round
  have hstep : (jsonString vote.step.name).length ≤ 11 := by cases vote.step <;> decide
  have hhash : (match vote.blockHash with
      | some blockHash => jsonBytes blockHash.val
      | none => jsonNull).length ≤ 130 := by
    cases vote.blockHash with
    | none => decide
    | some blockHash => exact jsonHash_length_le blockHash
  have hname := hid.jsonString_length_le
  have hbytes := jsonBytes_length_le vote.signature
  rw [hsignature] at hbytes
  refine (jsonObject_length_le _ (k := 58) rfl).trans ?_
  simp only [List.map_cons, List.map_nil, List.sum_cons, List.sum_nil]
  omega

lemma signatureJson_length_le (hid : ValidId signature.validatorId) :
    (signatureJson (SignatureWire.from signature)).length ≤ 1100 := by
  have hname := hid.jsonString_length_le
  have hbytes := jsonBytes_length_le signature.signature.val
  rw [signature.signature.property] at hbytes
  refine (jsonObject_length_le _ (k := 25) rfl).trans ?_
  simp only [SignatureWire.from, List.map_cons, List.map_nil, List.sum_cons, List.sum_nil]
  omega

/-- The payload of an encodable proof: at most 4096 entries of at most 1300 bytes. -/
lemma payloadJson_length_le (h : proof.Encodable) :
    (payloadJson (ProofWire.from proof)).length ≤ 5400000 := by
  cases proof with
  | staticClosedCommittee certificate =>
    obtain ⟨hcount, hids⟩ := h
    have hcount : certificate.signatures.length ≤ 4096 := hcount
    have hentries := jsonArray_length_le
      ((certificate.signatures.map SignatureWire.from).map signatureJson)
      (List.forall_mem_map.mpr (List.forall_mem_map.mpr fun signature hmem =>
        signatureJson_length_le (hids signature hmem)))
    rw [List.length_map, List.length_map] at hentries
    have hhash := jsonHash_length_le certificate.blockHash
    refine (jsonObject_length_le _ (k := 30) rfl).trans ?_
    simp only [List.map_cons, List.map_nil, List.sum_cons, List.sum_nil,
      show (jsonString "static-closed-committee").length = 25 from rfl]
    omega
  | proofOfAuthority blockSeal =>
    have hhash := jsonHash_length_le blockSeal.blockHash
    have hheight := jsonNat64_length_le blockSeal.height
    have hname := h.jsonString_length_le
    have hbytes := jsonBytes_length_le blockSeal.signature.val
    rw [blockSeal.signature.property] at hbytes
    refine (jsonObject_length_le _ (k := 51) rfl).trans ?_
    simp only [List.map_cons, List.map_nil, List.sum_cons, List.sum_nil,
      show (jsonString "proof-of-authority").length = 20 from rfl]
    omega
  | tendermint decision =>
    obtain ⟨hcount, hvotes⟩ := h
    have hcount : decision.precommits.length ≤ 4096 := hcount
    have hentries := jsonArray_length_le (decision.precommits.map voteJson)
      (List.forall_mem_map.mpr fun vote hmem =>
        voteJson_length_le (hvotes vote hmem).2.1 (hvotes vote hmem).2.2)
    rw [List.length_map] at hentries
    have hhash := jsonHash_length_le decision.blockHash
    have hheight := jsonNat64_length_le decision.height
    have hround := jsonNat32_length_le decision.round
    have hdecision := jsonObject_length_le [
      ("height", jsonNat decision.height.toNat), ("round", jsonNat decision.round.toNat),
      ("block_hash", jsonBytes decision.blockHash.val),
      ("precommits", jsonArray (decision.precommits.map voteJson))] (k := 39) rfl
    refine (jsonObject_length_le _ (k := 16) rfl).trans ?_
    simp only [List.map_cons, List.map_nil, List.sum_cons, List.sum_nil,
      show (jsonString "tendermint").length = 12 from rfl] at hdecision ⊢
    omega

/-- The size limit never bites. -/
lemma envelopeJson_length_le (crypto : Crypto) (h : proof.Encodable) :
    (envelopeJson (proofEnvelope crypto proof.kind (ProofWire.from proof))).length ≤
      maxProofBytes := by
  have hpayload := payloadJson_length_le h
  have hversion : (jsonNat proofFormatVersion.toNat).length = 1 := by decide
  have hkind : (jsonString proof.kind.asStr).length ≤ 25 := by cases proof.kind <;> decide
  have hschema := jsonHash_length_le (proofSchemaHash crypto proof.kind)
  have hhash := jsonHash_length_le (crypto.blake3 (payloadJson (ProofWire.from proof)))
  refine (jsonObject_length_le _ (k := 74) rfl).trans ?_
  simp only [proofEnvelope, List.map_cons, List.map_nil, List.sum_cons, List.sum_nil,
    show maxProofBytes = 8388608 from rfl]
  omega

/-! ## The codec laws -/

section Laws

variable {crypto : Crypto} {fromSlice : List UInt8 → Except String ProofEnvelopeWire}
  {proof : FinalityProof} {bytes : List UInt8}

/-- The canonical bytes of a proof, whether or not it is within the limits. -/
def canonicalBytes (crypto : Crypto) (proof : FinalityProof) : List UInt8 :=
  envelopeJson (proofEnvelope crypto proof.kind (ProofWire.from proof))

lemma encode_eq_ok :
    proof.encode crypto = .ok bytes ↔ proof.Encodable ∧ bytes = proof.canonicalBytes crypto := by
  simp only [encode, eq_ok]
  constructor
  · rintro ⟨hcaller, hpayload, _, rfl⟩
    exact ⟨validate_eq_ok.mp ⟨hcaller, hpayload⟩, rfl⟩
  · rintro ⟨hencodable, rfl⟩
    obtain ⟨hcaller, hpayload⟩ := validate_eq_ok.mpr hencodable
    exact ⟨hcaller, hpayload, envelopeJson_length_le crypto hencodable, rfl⟩

/-- What `decode` accepts is what `encode` writes; nothing about the parser is needed. -/
lemma encode_of_decode (h : decode crypto fromSlice bytes = .ok proof) :
    proof.encode crypto = .ok bytes := by
  simp only [decode, eq_ok] at h
  obtain ⟨_, _, _, _, _, _, _, _, _, _, decoded, _, canonical, hencode, rfl, rfl⟩ := h
  exact hencode

/-- What `encode` writes is read back, if the parser reads back the envelope. -/
lemma decode_of_encode (hserde : fromSlice (proof.canonicalBytes crypto) =
      .ok (proofEnvelope crypto proof.kind (ProofWire.from proof)))
    (h : proof.encode crypto = .ok bytes) : decode crypto fromSlice bytes = .ok proof := by
  obtain ⟨hencodable, rfl⟩ := encode_eq_ok.mp h
  have hbytes : proof.canonicalBytes crypto ≠ [] := by simp [canonicalBytes, envelopeJson, jsonObject]
  have hsize := envelopeJson_length_le crypto hencodable
  simp only [decode, eq_ok, hserde]
  exact ⟨⟨hbytes, hsize⟩, _, rfl, rfl, _, ConsensusKind.fromCanonicalStr_asStr _, rfl,
    ProofWire.kind_from proof, (validate_eq_ok.mpr hencodable).2, rfl, _,
    FinalityProof.tryFrom_from proof, _, h, rfl, rfl⟩

end Laws

/-! ## Accepted proofs -/

/-- The identifiers under the signatures of a proof. -/
def signerIds : FinalityProof → List String
  | .staticClosedCommittee certificate => certificate.signatures.map (·.validatorId)
  | .proofOfAuthority blockSeal => [blockSeal.authorityId]
  | .tendermint decision => decision.precommits.map (·.validatorId)

/-- Limits the codec has and the engines do not. -/
structure Persistable (proof : FinalityProof) : Prop where
  shortIds : ∀ id ∈ proof.signerIds, (utf8 id).length ≤ maxValidatorIdBytes
  precommits : ∀ decision, proof = .tendermint decision →
    ∀ vote ∈ decision.precommits, vote.step = .precommit

end FinalityProof

/-- The configured validators or authorities. -/
def SelectedConsensus.configuredIds {crypto : Crypto} : SelectedConsensus crypto → List String
  | .staticClosedCommittee e => e.validators.validators.map (·.id)
  | .proofOfAuthority e => e.authorities.map (·.id)
  | .tendermint e => e.validators.validators.map (·.id)

namespace FinalityProof

variable {crypto : Crypto} {engine : SelectedConsensus crypto} {block : MyelinBlock}
  {proof : FinalityProof} {finalised : FinalisedConsensusBlock}

lemma configuredIds_nonempty (h : id ∈ engine.configuredIds) : id ≠ "" := by
  match engine with
  | .staticClosedCommittee e =>
    obtain ⟨validator, hmem, rfl⟩ := List.mem_map.mp h
    exact e.validators.wellFormed.ids_nonempty validator hmem
  | .proofOfAuthority e =>
    obtain ⟨authority, hmem, rfl⟩ := List.mem_map.mp h
    exact e.ids_nonempty authority hmem
  | .tendermint e =>
    obtain ⟨validator, hmem, rfl⟩ := List.mem_map.mp h
    exact e.validators.wellFormed.ids_nonempty validator hmem

/-- An accepted decision has only 64-byte signatures, counted or not: all become entries. -/
lemma signature_length_of_accepted
    (h : engine.finaliseWithProof block (.tendermint decision) = .ok finalised)
    (hvote : vote ∈ decision.precommits) : vote.signature.length = 64 := by
  simp only [SelectedConsensus.finaliseWithProof, eq_ok] at h
  obtain ⟨_, h⟩ := h
  match engine with
  | .tendermint e =>
    simp only [bind_eq_ok] at h
    obtain ⟨_, hfinalise, _⟩ := h
    obtain ⟨_, _, _, _, _, _, signatures, hentries, _⟩ := finalise_eq_ok.mp hfinalise
    refine (forall_entries (P := fun vote => vote.signature.length = 64) (Q := fun _ => True)
      hentries fun vote entry _ hsignature => ?_).mp (fun _ _ => trivial) vote hvote
    rw [hsignature, entry.signature.property]
    exact iff_of_true rfl trivial
  | .staticClosedCommittee e => simp at h
  | .proofOfAuthority e => simp at h

/-- On accepted proofs of at most 4096 configured signers, the codec's limits come down to the two
    that the engines do not have. -/
lemma encodable_iff_persistable (h : engine.finaliseWithProof block proof = .ok finalised)
    (hconfigured : ∀ id ∈ proof.signerIds, id ∈ engine.configuredIds)
    (hcount : proof.signerIds.length ≤ maxSignatures) :
    proof.Encodable ↔ proof.Persistable := by
  have hvalid : ∀ id ∈ proof.signerIds,
      (ValidId id ↔ (utf8 id).length ≤ maxValidatorIdBytes) := fun id hid =>
    ⟨fun hvalid => hvalid.2, fun hshort => ⟨configuredIds_nonempty (hconfigured id hid), hshort⟩⟩
  have hids : (∀ id ∈ proof.signerIds, ValidId id) ↔
      ∀ id ∈ proof.signerIds, (utf8 id).length ≤ maxValidatorIdBytes := forall₂_congr hvalid
  cases proof with
  | staticClosedCommittee certificate =>
    simp only [signerIds, List.length_map, List.forall_mem_map] at hcount hids
    constructor
    · rintro ⟨_, hencodable⟩
      exact ⟨List.forall_mem_map.mpr (hids.mp hencodable), by rintro _ ⟨⟩⟩
    · rintro ⟨hshort, _⟩
      exact ⟨hcount, hids.mpr (List.forall_mem_map.mp hshort)⟩
  | proofOfAuthority blockSeal =>
    simp only [signerIds, List.forall_mem_singleton] at hids
    constructor
    · intro hencodable
      exact ⟨List.forall_mem_singleton.mpr (hids.mp hencodable), by rintro _ ⟨⟩⟩
    · rintro ⟨hshort, _⟩
      exact hids.mpr (hshort blockSeal.authorityId (List.mem_singleton_self _))
  | tendermint decision =>
    simp only [signerIds, List.length_map, List.forall_mem_map] at hcount hids
    constructor
    · rintro ⟨_, hencodable⟩
      refine ⟨List.forall_mem_map.mpr (hids.mp fun vote hvote => (hencodable vote hvote).2.1), ?_⟩
      rintro _ ⟨⟩ vote hvote
      exact (hencodable vote hvote).1
    · rintro ⟨hshort, hsteps⟩
      have hnames := hids.mpr (List.forall_mem_map.mp hshort)
      exact ⟨hcount, fun vote hvote => ⟨hsteps decision rfl vote hvote, hnames vote hvote,
        signature_length_of_accepted h hvote⟩⟩

/-- **Persistence.**  An accepted proof of at most 4096 configured signers is written and read back
    unchanged exactly when its identifiers have at most 128 bytes and a Tendermint decision holds
    precommits only.  Whatever is read at all is read from its canonical bytes. -/
theorem accepted_proof_persists_iff (fromSlice : List UInt8 → Except String ProofEnvelopeWire) :
    (∀ (engine : SelectedConsensus crypto) (block : MyelinBlock) (proof : FinalityProof)
        (finalised : FinalisedConsensusBlock),
      fromSlice (proof.canonicalBytes crypto) =
        .ok (proofEnvelope crypto proof.kind (ProofWire.from proof)) →
      engine.finaliseWithProof block proof = .ok finalised →
      (∀ id ∈ proof.signerIds, id ∈ engine.configuredIds) →
      proof.signerIds.length ≤ maxSignatures →
      ((∃ bytes, proof.encode crypto = .ok bytes ∧ decode crypto fromSlice bytes = .ok proof) ↔
        proof.Persistable)) ∧
    ∀ bytes decoded, decode crypto fromSlice bytes = .ok decoded →
      decoded.encode crypto = .ok bytes := by
  refine ⟨fun engine block proof finalised hserde h hconfigured hcount => ?_,
    fun bytes decoded hdecode => encode_of_decode hdecode⟩
  rw [← encodable_iff_persistable h hconfigured hcount]
  constructor
  · rintro ⟨bytes, hencode, _⟩
    exact (encode_eq_ok.mp hencode).1
  · intro hencodable
    have hencode : proof.encode crypto = .ok (proof.canonicalBytes crypto) :=
      encode_eq_ok.mpr ⟨hencodable, rfl⟩
    exact ⟨_, hencode, decode_of_encode hserde hencode⟩

/-- Two of three sign a block; their certificate survives a parser that knows its envelope. -/
theorem accepted_proof_persists_two_of_three :
    ∃ bytes, (toyCertificate [] [("alice", 1), ("bob", 2)]).encode toyCrypto = .ok bytes ∧
      decode toyCrypto (fun _ => .ok (proofEnvelope toyCrypto .staticClosedCommittee
        (ProofWire.from (toyCertificate [] [("alice", 1), ("bob", 2)])))) bytes =
        .ok (toyCertificate [] [("alice", 1), ("bob", 2)]) := by
  have h : (SelectedConsensus.toyCommitteeEngine 2 (by decide) (by decide)).finaliseWithProof
      (SelectedConsensus.toyStaticBlock [])
      (toyCertificate [] [("alice", 1), ("bob", 2)]) = .ok ⟨_, _, _⟩ := rfl
  refine ((accepted_proof_persists_iff _).1 _ _ _ _ rfl h (by decide) (by decide)).mpr
    ⟨by decide, ?_⟩
  rintro _ ⟨⟩

/-- A validator identifier of 129 bytes. -/
def longId : String :=
  "aaaaaaaaaaaaaaaaaaaaaaaaaaaaaaaaaaaaaaaaaaaaaaaaaaaaaaaaaaaaaaaaa" ++
  "aaaaaaaaaaaaaaaaaaaaaaaaaaaaaaaaaaaaaaaaaaaaaaaaaaaaaaaaaaaaaaaa"

/-- A committee of one validator with that identifier. -/
def longIdCommittee : ConsensusConfig :=
  ⟨.staticClosedCommittee, some ⟨[toyValidator longId 1], 1⟩, none, none⟩

/-- **A finalised block that cannot be persisted**: `from_config` accepts the identifier, the engine
    accepts the validator's certificate, `encode` refuses it. -/
theorem long_id_certificate_not_persistable :
    ∃ engine, SelectedConsensus.fromConfig toyCrypto longIdCommittee = .ok engine ∧
      succeeds (engine.finaliseWithProof (SelectedConsensus.toyStaticBlock [])
        (toyCertificate [] [(longId, 1)])) ∧
      (toyCertificate [] [(longId, 1)]).signerIds = [longId] ∧
      (toyCertificate [] [(longId, 1)]).encode toyCrypto =
        .error (.proofCodec "validator/authority id length must be 1..=128 bytes") :=
  ⟨_, rfl, by decide, rfl, by decide +kernel⟩

end FinalityProof

end Myelin.Consensus
