/-
  The other way to finalise a Tendermint block: by a certificate of weighted precommits.

  `finalise_block_with_decision` checks VOTES and makes a certificate of their signatures;
  `verify_precommit_certificate` checks certificates.  The two are compared on the decision's own
  precommits (`precommit_certificate_verifies_iff`):

    - ids, distinctness and power agree: the tally's voters are the certificate's signers, so nothing
      of the certificate but its signatures can be refused;

    - the signed message does not.  A vote is signed under `myelin:tendermint-vote`, a certificate
      entry is verified under `myelin:weighted-precommit`, with other fields in another order.

  So an artefact verifies exactly if each precommit's signature happens to be valid for BOTH
  messages.  A signature that is valid for one message only never is, unless the two digests are
  equal; and since a quorum is not empty, no artefact made of such signatures verifies.
-/
import Myelin.Consensus.Decision

namespace Myelin.Consensus

open Lib

variable {crypto : Crypto}

/-- Digest an entry of a precommit certificate is verified against. -/
def weightedPrecommitDigest (crypto : Crypto) (validatorId : String) (blockHash : Hash32)
    (height : UInt64) (round : UInt32) : Hash32 :=
  crypto.blake3 (utf8 "myelin:weighted-precommit" ++ le64 height ++ le32 round ++
    idBytes validatorId ++ blockHash.val)

namespace Tendermint

variable (e : Tendermint crypto)

/-- Verify a precommit certificate for a block hash, height and round. -/
def verifyPrecommitCertificate (blockHash : Hash32) (height : UInt64) (round : UInt32)
    (certificate : WeightedPrecommitCertificate) : Except ConsensusError Unit := do
  ensure (certificate.blockHash = blockHash) ConsensusError.wrongBlockHash
  ensure (certificate.height = height) (ConsensusError.wrongHeight height certificate.height)
  ensure (certificate.round = round) (ConsensusError.wrongRound round certificate.round)
  let signedPower ← e.validators.certificateLoop
    (weightedPrecommitDigest crypto · blockHash height round) "precommit power overflow" [] 0
    certificate.signatures
  ensure (e.quorumPower ≤ signedPower) (.quorumNotMet signedPower e.quorumPower)

/-- Verify and finalise a block with a precommit certificate. -/
def finaliseBlockWithPrecommit (block : MyelinBlock) (round : UInt32)
    (certificate : WeightedPrecommitCertificate) :
    Except ConsensusError FinalisedWeightedPrecommitBlock := do
  ensure (block.consensusKind = .tendermint)
    (.wrongEngine ConsensusKind.tendermint.asStr block.consensusKind.asStr)
  let blockHash := block.hash crypto
  e.verifyPrecommitCertificate blockHash block.number round certificate
  pure ⟨block, blockHash, round, certificate⟩

variable {e}

/-- **The certificates an engine accepts.** -/
theorem verifyPrecommitCertificate_eq_ok {round : UInt32} :
    e.verifyPrecommitCertificate blockHash height round certificate = .ok () ↔
      certificate.blockHash = blockHash ∧ certificate.height = height ∧ certificate.round = round ∧
      (∀ signature ∈ certificate.signatures, e.validators.Signed
        (weightedPrecommitDigest crypto · blockHash height round) signature) ∧
      (certificate.signatures.map (·.validatorId)).Nodup ∧
      e.committee.quorum ≤
        e.committee.power (certificate.signatures.map (·.validatorId)).toFinset := by
  simp only [verifyPrecommitCertificate, eq_ok]
  exact and_congr_right fun _ => and_congr_right fun _ => and_congr_right fun _ =>
    ValidatorMap.certificateLoop_eq_ok

/-- The vote's signature is a configured validator's over a digest. -/
def VoteSigned (e : Tendermint crypto) (digest : String → Hash32) (vote : TendermintVote) : Prop :=
  ∃ validator signature, e.validators.get? vote.validatorId = some validator ∧
    vote.signature = signature.val ∧
    verifySchnorr crypto validator.publicKey (digest vote.validatorId) signature = true

/-- A vote and its certificate entry carry the same signature. -/
lemma voteSigned_iff {digest : String → Hash32} {vote : TendermintVote} {entry : CommitteeSignature}
    (hid : vote.validatorId = entry.validatorId) (hsig : vote.signature = entry.signature.val) :
    e.VoteSigned digest vote ↔ e.validators.Signed digest entry := by
  constructor
  · rintro ⟨validator, signature, hget, hsame, hverify⟩
    rw [hid] at hget hverify
    obtain rfl : signature = entry.signature := Subtype.ext (hsame.symm.trans hsig)
    exact ⟨validator, hget, hverify⟩
  · rintro ⟨validator, hget, hverify⟩
    rw [← hid] at hget hverify
    exact ⟨validator, entry.signature, hget, hsig, hverify⟩

/-- The vote's signature is valid for one digest at most, whatever the key. -/
def SignsOnce (crypto : Crypto) (vote : TendermintVote) : Prop :=
  ∀ signature key digest other, vote.signature = signature.val →
    verifySchnorr crypto key digest signature = true →
    verifySchnorr crypto key other signature = true → digest = other

/-- A vote that was accepted, with a signature for one digest, is no weighted precommit. -/
lemma not_voteSigned {vote : TendermintVote} (haccepted : e.verifyVote vote = .ok ())
    (honce : SignsOnce crypto vote)
    (hdiffer : voteDigest crypto vote.height vote.round vote.step vote.blockHash vote.validatorId ≠
      digest vote.validatorId) : ¬e.VoteSigned digest vote := by
  rintro ⟨validator, signature, hget, hsame, hverify⟩
  simp only [verifyVote, signature64, hget, hsame, FixedBytes.ofList?_val, okOr, eq_ok,
    Except.ok.injEq, exists_eq_left'] at haccepted
  exact hdiffer (honce signature _ _ _ hsame haccepted hverify)

/-- An accepted decision all of whose precommits count comes out as an artefact that the engine
    verifies, and finalises again, exactly if the signature of every precommit is also valid for the
    digest of a weighted precommit; if each of them is valid for one digest at most, and the two
    digests differ, the artefact is refused. -/
theorem precommit_certificate_verifies_iff {block : MyelinBlock} {decision : TendermintDecision}
    {finalised : FinalisedWeightedPrecommitBlock}
    (h : e.finaliseBlockWithDecision block decision = .ok finalised)
    (hcounts : ∀ vote ∈ decision.precommits, decision.counts vote = true) :
    ((e.verifyPrecommitCertificate finalised.blockHash block.number finalised.round
        finalised.certificate = .ok () ∧
      e.finaliseBlockWithPrecommit block finalised.round finalised.certificate = .ok finalised) ↔
    ∀ vote ∈ decision.precommits, e.VoteSigned
      (weightedPrecommitDigest crypto · (block.hash crypto) block.number decision.round) vote) ∧
    ((∀ vote ∈ decision.precommits, SignsOnce crypto vote ∧
      voteDigest crypto block.number decision.round .precommit (some (block.hash crypto))
        vote.validatorId ≠
      weightedPrecommitDigest crypto vote.validatorId (block.hash crypto) block.number
        decision.round) →
      e.verifyPrecommitCertificate finalised.blockHash block.number finalised.round
        finalised.certificate ≠ .ok ()) := by
  obtain ⟨hkind, hheight, hhash, hverified, hnodup, hquorum, signatures, hentries, rfl⟩ :=
    finalise_eq_ok.mp h
  have hids := entries_ids hentries
  rw [List.filter_eq_self.mpr hcounts, ← hids] at hnodup
  -- the voters of the tally are the signers of the certificate
  have hpower : e.committee.quorum ≤
      e.committee.power (signatures.map (·.validatorId)).toFinset := by
    refine hquorum.trans (e.committee.power_mono fun id hid => ?_)
    obtain ⟨vote, hvote, -, rfl⟩ := mem_voters.mp hid
    rw [hids]
    exact List.mem_toFinset.mpr (List.mem_map_of_mem hvote)
  have hsigned := forall_entries hentries fun vote entry hid hsig =>
    (voteSigned_iff hid hsig : e.VoteSigned (weightedPrecommitDigest crypto · (block.hash crypto)
      block.number decision.round) vote ↔ _)
  refine ⟨⟨fun hboth => ?_, fun hall => ?_⟩, fun honce hverify => ?_⟩
  · exact hsigned.mp (verifyPrecommitCertificate_eq_ok.mp hboth.1).2.2.2.1
  · have hverify : e.verifyPrecommitCertificate (block.hash crypto) block.number decision.round
        ⟨block.hash crypto, decision.height, decision.round, signatures⟩ = .ok () :=
      verifyPrecommitCertificate_eq_ok.mpr ⟨rfl, hheight, rfl, hsigned.mpr hall, hnodup, hpower⟩
    refine ⟨hverify, ?_⟩
    simp only [finaliseBlockWithPrecommit, bind_eq_ok, exists_unit, ensure_eq_ok]
    exact ⟨hkind, hverify, rfl⟩
  · -- a quorum has a voter, whose vote was accepted
    obtain ⟨vote, hvote, hfor⟩ := hquorum.exists_vote
    obtain ⟨honly, hdiffer⟩ := honce vote hvote
    obtain ⟨hheight', hround, hstep, hvalue⟩ := TendermintVote.isFor_iff.mp hfor
    refine not_voteSigned (hverified vote hvote (hcounts vote hvote)) honly ?_
      (hsigned.mp (verifyPrecommitCertificate_eq_ok.mp hverify).2.2.2.1 vote hvote)
    rwa [hheight', hround, hstep, hvalue, hheight, hhash]

/-- A hash that keeps the first bytes, and signatures that repeat the digests they sign: one in each
    half. -/
def echoCrypto : Crypto :=
  { toyCrypto with
    blake3 := headBytes
    schnorr := fun _ digest signature =>
      signature.val.take 32 == digest.val || signature.val.drop 32 == digest.val }

/-- One validator, whose vote decides. -/
def soleEngine : Tendermint echoCrypto :=
  ⟨⟨⟨[toyValidator "alice" 1], by decide, by decide, by decide, fun _ _ => rfl, by decide⟩, 1,
    toyQuorum_ne_zero, by decide⟩⟩

/-- What a precommit of the sole validator for the toy block signs. -/
def soleDigest : Hash32 := voteDigest echoCrypto 8 0 .precommit (some (toyBlock.hash echoCrypto)) "alice"

/-- Its precommit, signed as `verify_vote` demands, and over one more digest. -/
def soleDecision (also : Hash32) : TendermintDecision :=
  ⟨8, 0, toyBlock.hash echoCrypto, [⟨8, 0, .precommit, some (toyBlock.hash echoCrypto), "alice",
    soleDigest.val ++ also.val⟩]⟩

/-- The artefact of that decision. -/
def soleArtefact (also : Hash32) : FinalisedWeightedPrecommitBlock :=
  ⟨toyBlock, toyBlock.hash echoCrypto, 0, ⟨toyBlock.hash echoCrypto, 8, 0,
    [⟨"alice", ⟨soleDigest.val ++ also.val, by simp [soleDigest.2, also.2]⟩⟩]⟩⟩

/-- Signed over the digest of a weighted precommit as well, the artefact is finalised again. -/
theorem precommit_certificate_verifies_soleArtefact :
    let also := weightedPrecommitDigest echoCrypto "alice" (toyBlock.hash echoCrypto) 8 0
    soleEngine.finaliseBlockWithDecision toyBlock (soleDecision also) = .ok (soleArtefact also) ∧
    soleEngine.finaliseBlockWithPrecommit toyBlock 0 (soleArtefact also).certificate =
      .ok (soleArtefact also) := by
  intro also
  have hfinal : soleEngine.finaliseBlockWithDecision toyBlock (soleDecision also) =
      .ok (soleArtefact also) := by decide
  refine ⟨hfinal, ((precommit_certificate_verifies_iff hfinal (by decide)).1.mpr ?_).2⟩
  rw [soleDecision, List.forall_mem_singleton]
  exact ⟨toyValidator "alice" 1, ⟨soleDigest.val ++ also.val, by decide⟩, rfl, rfl, by decide⟩

/-- Signed over one digest, the artefact of an accepted decision is refused: the message it is
    verified against begins with another domain. -/
theorem finalised_artefact_refused :
    (∀ vote ∈ (soleDecision soleDigest).precommits, (soleDecision soleDigest).counts vote = true) ∧
    soleEngine.finaliseBlockWithDecision toyBlock (soleDecision soleDigest) =
      .ok (soleArtefact soleDigest) ∧
    soleEngine.verifyPrecommitCertificate (toyBlock.hash echoCrypto) toyBlock.number 0
      (soleArtefact soleDigest).certificate = .error (.invalidSignature "alice") := by
  refine ⟨?_, ?_, ?_⟩ <;> decide

end Tendermint

end Myelin.Consensus
