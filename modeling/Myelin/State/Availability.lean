/-
  What a data-availability certificate commits to.

  `commitment` hashes a domain, the blob id, the numbers of the policy and then three sorted runs of
  32-byte values: trusted auditors, receipt hashes, probe hashes.  Sorting makes the bytes independent
  of the orders in which the three are kept.  The runs follow each other WITHOUT their counts, where
  `hash_fields` writes every field after its length, so the bytes do not say where one run ends and
  the next begins: the last auditor may as well be the first receipt.

    - `certificate_binding_iff`: certificates with the same bytes are the same exactly if they have as
      many auditors and as many receipts.
-/
import Myelin.Lib.Delimited
import Myelin.State.CellTree

namespace Myelin.State

open Lib

/-- Digest of fields, each after its length. -/
def hashFields (blake3 : List UInt8 → Hash) (domain : String) (fields : List (List UInt8)) : Hash :=
  blake3 (utf8 domain ++ fields.flatMap fun field => le64 (UInt64.ofNat field.length) ++ field)

structure DaErasureProfile where
  dataShards : UInt16
  parityShards : UInt16
  shardSize : UInt32
  shardRoot : Hash

structure DaBlobCommitment where
  «namespace» : Hash
  sessionId : Hash
  chunkIndex : UInt64
  payloadHash : Hash
  payloadLen : UInt64
  segmentRoot : Hash
  erasure : DaErasureProfile

structure DaPolicy where
  minDistinctProviders : UInt16
  minDistinctFaultDomains : UInt16
  minRetentionEpochs : UInt64
  minSuccessfulProbes : UInt16
  minProbedProviders : UInt16
  maxProbeAgeEpochs : UInt64
  maxProbeLatencyMs : UInt32
  trustedAuditors : List Hash

structure DaProviderReceipt where
  blobId : Hash
  providerId : String
  faultDomain : String
  retrievalEndpoint : String
  storedAtEpoch : UInt64
  retainedUntilEpoch : UInt64
  providerPublicKey : Hash
  signature : List UInt8

structure DaRetrievalProbe where
  blobId : Hash
  providerId : String
  receiptHash : Hash
  sampleIndex : UInt32
  sampleHash : Hash
  sampleProofHash : Hash
  observedAtEpoch : UInt64
  latencyMs : UInt32
  successful : Bool
  auditorPublicKey : Hash
  signature : List UInt8

structure DaCertificate where
  blob : DaBlobCommitment
  policy : DaPolicy
  receipts : List DaProviderReceipt
  probes : List DaRetrievalProbe

section Digests

variable (blake3 : List UInt8 → Hash)

def DaBlobCommitment.blobId (blob : DaBlobCommitment) : Hash :=
  hashFields blake3 "myelin:da-blob"
    [blob.namespace.val, blob.sessionId.val, le64 blob.chunkIndex, blob.payloadHash.val,
      le64 blob.payloadLen, blob.segmentRoot.val, le16 blob.erasure.dataShards,
      le16 blob.erasure.parityShards, le32 blob.erasure.shardSize, blob.erasure.shardRoot.val]

def DaProviderReceipt.signingDigest (receipt : DaProviderReceipt) : Hash :=
  hashFields blake3 "myelin:da-provider-receipt"
    [receipt.blobId.val, utf8 receipt.providerId, utf8 receipt.faultDomain,
      utf8 receipt.retrievalEndpoint, le64 receipt.storedAtEpoch, le64 receipt.retainedUntilEpoch,
      receipt.providerPublicKey.val]

def DaProviderReceipt.receiptHash (receipt : DaProviderReceipt) : Hash :=
  hashFields blake3 "myelin:da-provider-receipt-hash"
    [(receipt.signingDigest blake3).val, receipt.signature]

def DaRetrievalProbe.signingDigest (probe : DaRetrievalProbe) : Hash :=
  hashFields blake3 "myelin:da-retrieval-probe"
    [probe.blobId.val, utf8 probe.providerId, probe.receiptHash.val, le32 probe.sampleIndex,
      probe.sampleHash.val, probe.sampleProofHash.val, le64 probe.observedAtEpoch,
      le32 probe.latencyMs, [boolByte probe.successful], probe.auditorPublicKey.val]

/-- What `commitment` lists for a probe, under the domain of its signing digest. -/
def DaRetrievalProbe.probeHash (probe : DaRetrievalProbe) : Hash :=
  hashFields blake3 "myelin:da-retrieval-probe" [(probe.signingDigest blake3).val, probe.signature]

end Digests

/-- Hashes sorted, one after the other. -/
def hashRun (hashes : List Hash) : List UInt8 := (hashes.insertionSort (· ≤ ·)).flatMap Subtype.val

/-- What `hash_policy_into` feeds. -/
def DaPolicy.bytes (policy : DaPolicy) : List UInt8 :=
  le16 policy.minDistinctProviders ++ le16 policy.minDistinctFaultDomains ++
    le64 policy.minRetentionEpochs ++ le16 policy.minSuccessfulProbes ++ le16 policy.minProbedProviders ++
    le64 policy.maxProbeAgeEpochs ++ le32 policy.maxProbeLatencyMs ++ hashRun policy.trustedAuditors

namespace DaCertificate

variable (blake3 : List UInt8 → Hash)

def receiptHashes (certificate : DaCertificate) : List Hash :=
  certificate.receipts.map (·.receiptHash blake3)

def probeHashes (certificate : DaCertificate) : List Hash :=
  certificate.probes.map (·.probeHash blake3)

/-- What `commitment` hashes. -/
def preimage (certificate : DaCertificate) : List UInt8 :=
  utf8 "myelin:da-certificate" ++ (certificate.blob.blobId blake3).val ++ certificate.policy.bytes ++
    hashRun (certificate.receiptHashes blake3) ++ hashRun (certificate.probeHashes blake3)

def commitment (certificate : DaCertificate) : Hash := blake3 (certificate.preimage blake3)

/-- The same blob id, policy, receipt hashes and probe hashes, in whatever order. -/
structure Same (first second : DaCertificate) : Prop where
  blob : first.blob.blobId blake3 = second.blob.blobId blake3
  policy : { first.policy with trustedAuditors := [] } = { second.policy with trustedAuditors := [] }
  auditors : first.policy.trustedAuditors.Perm second.policy.trustedAuditors
  receipts : (first.receiptHashes blake3).Perm (second.receiptHashes blake3)
  probes : (first.probeHashes blake3).Perm (second.probeHashes blake3)

end DaCertificate

lemma insertionSort_eq_iff_perm {xs ys : List Hash} :
    xs.insertionSort (· ≤ ·) = ys.insertionSort (· ≤ ·) ↔ xs.Perm ys := by
  have hperm := fun zs : List Hash => List.perm_insertionSort (· ≤ ·) zs
  constructor
  · intro heq
    exact (hperm xs).symm.trans (heq ▸ hperm ys)
  · intro h
    exact (((hperm xs).trans h).trans (hperm ys).symm).eq_of_pairwise'
      (List.pairwise_insertionSort ..) (List.pairwise_insertionSort ..)

lemma hashRun_perm {xs : List Hash} (h : xs.Perm ys) : hashRun xs = hashRun ys := by
  rw [hashRun, hashRun, insertionSort_eq_iff_perm.mpr h]

/-- A run of known length ends where it ends. -/
lemma hashRun_read {xs ys : List Hash} (hlength : xs.length = ys.length)
    (heq : hashRun xs ++ rest = hashRun ys ++ rest') : xs.Perm ys ∧ rest = rest' := by
  obtain ⟨hsorted, hrest⟩ := (delimited_fixedBytes 32).flatMap
    (by rw [List.length_insertionSort, List.length_insertionSort, hlength])
    (fun _ _ => trivial) (fun _ _ => trivial) heq
  exact ⟨insertionSort_eq_iff_perm.mp hsorted, hrest⟩

/-- Only the auditors of a policy have no end of their own. -/
lemma DaPolicy.bytes_read {first second : DaPolicy}
    (hlength : first.trustedAuditors.length = second.trustedAuditors.length)
    (heq : first.bytes ++ rest = second.bytes ++ rest') :
    { first with trustedAuditors := [] } = { second with trustedAuditors := [] } ∧
      first.trustedAuditors.Perm second.trustedAuditors ∧ rest = rest' := by
  simp only [DaPolicy.bytes, List.append_assoc, le16_append_inj, le32_append_inj,
    le64_append_inj] at heq
  obtain ⟨hproviders, hdomains, hretention, hprobes, hprobed, hage, hlatency, heq⟩ := heq
  obtain ⟨hauditors, hrest⟩ := hashRun_read hlength heq
  exact ⟨by simp only [*], hauditors, hrest⟩

namespace DaCertificate

variable {blake3 : List UInt8 → Hash} {first second : DaCertificate}

lemma Same.of_preimage
    (hauditors : first.policy.trustedAuditors.length = second.policy.trustedAuditors.length)
    (hreceipts : first.receipts.length = second.receipts.length)
    (heq : first.preimage blake3 = second.preimage blake3) : Same blake3 first second := by
  simp only [preimage, List.append_assoc, List.append_right_inj, val_append_inj] at heq
  obtain ⟨hblob, heq⟩ := heq
  obtain ⟨hpolicy, hauditors, heq⟩ := DaPolicy.bytes_read hauditors heq
  obtain ⟨hreceipts, heq⟩ := hashRun_read (by rwa [receiptHashes, receiptHashes, List.length_map,
    List.length_map]) heq
  exact ⟨hblob, hpolicy, hauditors, hreceipts,
    insertionSort_eq_iff_perm.mp (flatMap_fixedBytes_injective (by decide) heq)⟩

/-- The bytes hashed do not depend on the order of receipts, probes or auditors.  Where two
certificates have the same bytes they are the same exactly if they have as many auditors and as many
receipts. -/
theorem certificate_binding_iff (blake3 : List UInt8 → Hash) :
    (∀ certificate : DaCertificate,
      certificate.commitment blake3 = blake3 (certificate.preimage blake3)) ∧
    (∀ (certificate : DaCertificate) (auditors : List Hash) (receipts : List DaProviderReceipt)
        (probes : List DaRetrievalProbe), auditors.Perm certificate.policy.trustedAuditors →
      receipts.Perm certificate.receipts → probes.Perm certificate.probes →
      preimage blake3 ⟨certificate.blob, { certificate.policy with trustedAuditors := auditors }, receipts,
        probes⟩ = certificate.preimage blake3) ∧
      ∀ first second : DaCertificate, first.preimage blake3 = second.preimage blake3 →
        (Same blake3 first second ↔
          first.policy.trustedAuditors.length = second.policy.trustedAuditors.length ∧
            first.receipts.length = second.receipts.length) := by
  refine ⟨fun _ => rfl, fun certificate auditors receipts probes hauditors hreceipts hprobes => ?_,
    fun first second heq => ⟨fun h => ⟨h.auditors.length_eq, ?_⟩, fun h => .of_preimage h.1 h.2 heq⟩⟩
  · simp only [preimage, DaPolicy.bytes, receiptHashes, probeHashes, hashRun_perm hauditors,
      hashRun_perm (hreceipts.map _), hashRun_perm (hprobes.map _)]
  · simpa only [receiptHashes, List.length_map] using h.receipts.length_eq

/-- An auditor key that is the hash of a receipt: listed as the second auditor, or with the receipt
listed, the bytes are the same. -/
theorem auditor_read_as_receipt :
    ∃ (blake3 : List UInt8 → Hash) (first second : DaCertificate),
      first.preimage blake3 = second.preimage blake3 ∧ ¬ Same blake3 first second := by
  let zero := FixedBytes.fill 32 0
  let receipt : DaProviderReceipt := ⟨zero, "provider", "region", "https", 1, 9, zero, []⟩
  let blob : DaBlobCommitment := ⟨zero, zero, 0, zero, 1, zero, 1, 0, 1, zero⟩
  let policy : DaPolicy := ⟨1, 1, 1, 1, 1, 1, 1, [zero]⟩
  let blake3 : List UInt8 → Hash := headBytes
  refine ⟨blake3, ⟨blob, { policy with trustedAuditors := [zero, receipt.receiptHash blake3] }, [], []⟩,
    ⟨blob, policy, [receipt], []⟩, by decide +kernel, fun h => ?_⟩
  exact absurd h.auditors.length_eq (by decide)

end DaCertificate

end Myelin.State
