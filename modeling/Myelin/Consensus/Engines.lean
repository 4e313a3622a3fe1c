/-
  One dispatch surface over the three engines, and who can be held to account for a fork.

  `SignedBy` says that a configured validator or authority has a valid signature in a proof.  An
  accepted proof carries a quorum of such signers (`accepted_signers`), so two accepted proofs
  share signers of weight at least `2 * quorum - total` — whatever the blocks, rounds and proofs
  are.  For proof of authority the committee of a height is its one scheduled authority.

  Whether that bound is POSITIVE is a matter of configuration: the constructors require
  `0 < quorum ≤ total` and no more.  Proof of authority always has it, a Tendermint engine has it
  once `new_round_state` has accepted its quorum; a static committee of three with quorum one does
  not (`disjoint_certificates_accepted`).
-/
import Myelin.Consensus.Decision
import Myelin.Consensus.ProofOfAuthority
import Myelin.Consensus.StaticCommittee

namespace Myelin.Consensus

open Lib

variable {crypto : Crypto}

/-! ## Selection and dispatch -/

/-- Consensus configuration after parsing. -/
structure ConsensusConfig where
  kind : ConsensusKind
  staticCommittee : Option StaticCommitteeConfig
  proofOfAuthority : Option ProofOfAuthorityConfig
  tendermint : Option TendermintConfig
  deriving DecidableEq

/-- Engine-specific finality proof. -/
inductive FinalityProof where
  | staticClosedCommittee (certificate : CommitteeCertificate)
  | proofOfAuthority (blockSeal : ProofOfAuthoritySeal)
  | tendermint (decision : TendermintDecision)
  deriving DecidableEq

/-- Engine required to verify a proof. -/
def FinalityProof.kind : FinalityProof → ConsensusKind
  | .staticClosedCommittee _ => .staticClosedCommittee
  | .proofOfAuthority _ => .proofOfAuthority
  | .tendermint _ => .tendermint

/-- Engine-neutral finalised block. -/
structure FinalisedConsensusBlock where
  block : MyelinBlock
  blockHash : Hash32
  proof : FinalityProof
  deriving DecidableEq

/-- A selected consensus engine. -/
inductive SelectedConsensus (crypto : Crypto) where
  | staticClosedCommittee (engine : StaticClosedCommittee crypto)
  | proofOfAuthority (engine : ProofOfAuthority crypto)
  | tendermint (engine : Tendermint crypto)

namespace SelectedConsensus

/-- Build a selected engine from config. -/
def fromConfig (crypto : Crypto) (config : ConsensusConfig) :
    Except ConsensusError (SelectedConsensus crypto) :=
  match config.kind with
  | .staticClosedCommittee => do
      let committee ← okOr config.staticCommittee (.invalidConfig "missing static committee config")
      let engine ← StaticClosedCommittee.new crypto committee
      pure (.staticClosedCommittee engine)
  | .proofOfAuthority => do
      let authorities ← okOr config.proofOfAuthority
        (.invalidConfig "missing proof-of-authority config")
      let engine ← ProofOfAuthority.new crypto authorities
      pure (.proofOfAuthority engine)
  | .tendermint => do
      let tendermint ← okOr config.tendermint (.invalidConfig "missing tendermint config")
      let engine ← Tendermint.new crypto tendermint
      pure (.tendermint engine)

/-- Engine kind. -/
def kind : SelectedConsensus crypto → ConsensusKind
  | .staticClosedCommittee _ => .staticClosedCommittee
  | .proofOfAuthority _ => .proofOfAuthority
  | .tendermint _ => .tendermint

/-- Verify a proof with the selected engine. -/
def finaliseWithProof (engine : SelectedConsensus crypto) (block : MyelinBlock)
    (proof : FinalityProof) : Except ConsensusError FinalisedConsensusBlock := do
  let mismatch := ConsensusError.wrongFinalityProof engine.kind.asStr proof.kind.asStr
  ensure (proof.kind = engine.kind) mismatch
  match engine, proof with
  | .staticClosedCommittee e, .staticClosedCommittee certificate => do
      let _ ← e.finaliseBlock block certificate
      pure ⟨block, block.hash crypto, proof⟩
  | .proofOfAuthority e, .proofOfAuthority blockSeal => do
      let _ ← e.finaliseBlockWithSeal block blockSeal
      pure ⟨block, block.hash crypto, proof⟩
  | .tendermint e, .tendermint decision => do
      let _ ← e.finaliseBlockWithDecision block decision
      pure ⟨block, block.hash crypto, proof⟩
  -- unreachable: the kinds were compared before
  | _, _ => .error mismatch

/-! ## Signers -/

/-- The committee that may finalise a height. -/
def committeeAt (height : UInt64) : SelectedConsensus crypto → Committee String
  | .staticClosedCommittee e => e.committee
  | .proofOfAuthority e =>
      { members := {(e.expectedAuthority height).id}, weight := fun _ => 1, quorum := 1 }
  | .tendermint e => e.committee

/-- `id` is configured and has a valid signature for the block in the proof. -/
def SignedBy (block : MyelinBlock) (id : String) :
    SelectedConsensus crypto → FinalityProof → Prop
  | .staticClosedCommittee e, .staticClosedCommittee certificate =>
      ∃ signature ∈ certificate.signatures, signature.validatorId = id ∧
        e.validators.Signed (staticSignatureDigest crypto · (block.hash crypto)) signature
  | .proofOfAuthority e, .proofOfAuthority blockSeal =>
      ∃ authority ∈ e.authorities, authority.id = id ∧ blockSeal.authorityId = id ∧
        (crypto.recoverPublicKey (poaSealDigest crypto id (block.hash crypto) block.number)
          blockSeal.signature).toOption = some authority.publicKey
  | .tendermint e, .tendermint decision =>
      ∃ vote ∈ decision.precommits, vote.validatorId = id ∧
        vote.isFor block.number decision.round .precommit (some (block.hash crypto)) = true ∧
        e.verifyVote vote = .ok ()
  | _, _ => False

variable {engine : SelectedConsensus crypto} {block block' : MyelinBlock}
  {proof proof' : FinalityProof} {finalised finalised' : FinalisedConsensusBlock}

/-- An accepted proof carries a quorum of signers. -/
lemma accepted_signers (h : engine.finaliseWithProof block proof = .ok finalised) :
    ∃ signers, (engine.committeeAt block.number).IsQuorum signers ∧
      ∀ id ∈ signers, engine.SignedBy block id proof := by
  simp only [finaliseWithProof, eq_ok] at h
  obtain ⟨_, h⟩ := h
  rcases engine with e | e | e <;> rcases proof with certificate | blockSeal | decision
  case staticClosedCommittee.staticClosedCommittee =>
    simp only [eq_ok, StaticClosedCommittee.finaliseBlock] at h
    obtain ⟨_, ⟨_, hverify, _⟩, _⟩ := h
    obtain ⟨_, hvalid, _, hquorum⟩ := StaticClosedCommittee.verifyCertificate_eq_ok.mp hverify
    refine ⟨(certificate.signatures.map CommitteeSignature.validatorId).toFinset,
      ⟨fun id hid => ?_, hquorum⟩, ?_⟩
    · obtain ⟨signature, hmem, rfl⟩ := List.mem_map.mp (List.mem_toFinset.mp hid)
      obtain ⟨validator, hget, _⟩ := hvalid signature hmem
      exact ValidatorMap.mem_members.mpr ⟨validator, hget⟩
    · intro id hid
      obtain ⟨signature, hmem, rfl⟩ := List.mem_map.mp (List.mem_toFinset.mp hid)
      exact ⟨signature, hmem, rfl, hvalid signature hmem⟩
  case proofOfAuthority.proofOfAuthority =>
    simp only [eq_ok, ProofOfAuthority.finaliseBlockWithSeal, ProofOfAuthority.verifySeal] at h
    obtain ⟨_, ⟨_, ⟨_, _, hid, hrecover⟩, _⟩, _⟩ := h
    refine ⟨{(e.expectedAuthority block.number).id}, ⟨Finset.Subset.refl _, ?_⟩, ?_⟩
    · simp [committeeAt, Committee.power]
    · intro id hmem
      rw [Finset.mem_singleton] at hmem
      subst hmem
      rw [hid] at hrecover
      exact ⟨_, e.expectedAuthority_mem block.number, rfl, hid, hrecover⟩
  case tendermint.tendermint =>
    simp only [eq_ok] at h
    obtain ⟨_, hfinalise, _⟩ := h
    obtain ⟨_, hheight, hhash, hverified, _, hquorum, _⟩ := finalise_eq_ok.mp hfinalise
    refine ⟨voters decision.precommits decision.height decision.round .precommit
      (some decision.blockHash), ⟨fun id hid => ?_, hquorum⟩, ?_⟩
    · obtain ⟨vote, hmem, hfor, rfl⟩ := mem_voters.mp hid
      exact Tendermint.mem_members_of_verifyVote (hverified vote hmem hfor)
    · intro id hid
      obtain ⟨vote, hmem, hfor, rfl⟩ := mem_voters.mp hid
      exact ⟨vote, hmem, rfl, hheight ▸ hhash ▸ hfor, hverified vote hmem hfor⟩
  -- any other proof is of the wrong kind
  all_goals cases h

open Classical in
/-- The configured validators with a valid signature in both proofs. -/
noncomputable def commonSigners (engine : SelectedConsensus crypto) (block block' : MyelinBlock)
    (proof proof' : FinalityProof) : Finset String :=
  (engine.committeeAt block.number).members.filter fun id =>
    engine.SignedBy block id proof ∧ engine.SignedBy block' id proof'

lemma mem_commonSigners {id : String} :
    id ∈ engine.commonSigners block block' proof proof' ↔
      id ∈ (engine.committeeAt block.number).members ∧
        engine.SignedBy block id proof ∧ engine.SignedBy block' id proof' := by
  classical exact Finset.mem_filter

/-- **Accountability.**  Two blocks of one number that an engine accepts share signers of weight at
    least `2 * quorum - total`.  Where that is positive — always for proof of authority, and for a
    Tendermint engine that can open a round state — somebody has signed both. -/
theorem finality_accountability (h : engine.finaliseWithProof block proof = .ok finalised)
    (h' : engine.finaliseWithProof block' proof' = .ok finalised')
    (hnumber : block.number = block'.number) :
    2 * (engine.committeeAt block.number).quorum ≤
      (engine.committeeAt block.number).power (engine.commonSigners block block' proof proof') +
        (engine.committeeAt block.number).total ∧
    ((engine.committeeAt block.number).total < 2 * (engine.committeeAt block.number).quorum →
      ∃ id ∈ (engine.committeeAt block.number).members,
        engine.SignedBy block id proof ∧ engine.SignedBy block' id proof') ∧
    (engine.kind = .proofOfAuthority →
      (engine.committeeAt block.number).total < 2 * (engine.committeeAt block.number).quorum) ∧
    (∀ e height state, engine = .tendermint e → e.newRoundState height = .ok state →
      (engine.committeeAt block.number).total < 2 * (engine.committeeAt block.number).quorum) := by
  obtain ⟨signers, hquorum, hsigned⟩ := accepted_signers h
  obtain ⟨signers', hquorum', hsigned'⟩ := accepted_signers h'
  rw [← hnumber] at hquorum'
  have hcommon : signers ∩ signers' ⊆ engine.commonSigners block block' proof proof' := by
    intro id hid
    obtain ⟨hleft, hright⟩ := Finset.mem_inter.mp hid
    exact mem_commonSigners.mpr ⟨hquorum.1 hleft, hsigned id hleft, hsigned' id hright⟩
  have hbound : 2 * (engine.committeeAt block.number).quorum ≤
      (engine.committeeAt block.number).power (engine.commonSigners block block' proof proof') +
        (engine.committeeAt block.number).total := by
    have hinter := (engine.committeeAt block.number).power_add_power_le hquorum.1 hquorum'.1
    have hmono := (engine.committeeAt block.number).power_mono hcommon
    have := hquorum.2
    have := hquorum'.2
    omega
  refine ⟨hbound, fun hpositive => ?_, ?_, ?_⟩
  · obtain ⟨id, hleft, hright, _⟩ := (engine.committeeAt block.number).exists_mem_inter_not_mem
      (B := ∅) hquorum hquorum' (by simpa [Committee.power] using hpositive)
    exact ⟨id, hquorum.1 hleft, hsigned id hleft, hsigned' id hright⟩
  · intro hkind
    cases engine with
    | proofOfAuthority e => simp [committeeAt, Committee.total, Committee.power]
    | staticClosedCommittee e => simp [kind] at hkind
    | tendermint e => simp [kind] at hkind
  · rintro e height state rfl hnew
    have htwoThirds := Tendermint.validateTendermintQuorum_ok (newRoundState_ok hnew).1
    simp only [committeeAt, Tendermint.committee_quorum]
    omega

/-- A toy committee of three. -/
def toyCommittee (quorum : UInt64) : ConsensusConfig :=
  ⟨.staticClosedCommittee,
    some ⟨[toyValidator "alice" 1, toyValidator "bob" 2, toyValidator "carol" 3], quorum⟩, none, none⟩

/-- The engine `from_config` builds from `toyCommittee quorum`, for a quorum of one to three. -/
def toyCommitteeEngine (quorum : UInt64) (hpos : quorum ≠ 0) (hle : quorum.toNat ≤ 3) :
    SelectedConsensus toyCrypto :=
  .staticClosedCommittee ⟨⟨⟨[toyValidator "alice" 1, toyValidator "bob" 2, toyValidator "carol" 3],
    by decide, by decide, by decide, fun _ _ => rfl, by decide⟩, quorum, hpos, hle⟩⟩

/-- The commitment of some transaction. -/
def toyTransaction : Hash32 := FixedBytes.fill 32 7

/-- A static-committee block of height 8 with the given transactions. -/
def toyStaticBlock (transactions : List Hash32) : MyelinBlock :=
  { toyBlock with
    consensusKind := .staticClosedCommittee, orderedCellTxCommitments := transactions }

/-- A toy certificate for such a block. -/
def toyCertificate (transactions : List Hash32) (signers : List (String × UInt8)) : FinalityProof :=
  .staticClosedCommittee {
    blockHash := (toyStaticBlock transactions).hash toyCrypto
    signatures := signers.map fun signer => ⟨signer.1, FixedBytes.fill 64 signer.2⟩ }

/-- With quorum two of three, two different blocks have a common signer. -/
theorem finality_accountability_two_of_three :
    fromConfig toyCrypto (toyCommittee 2) = .ok (toyCommitteeEngine 2 (by decide) (by decide)) ∧
    (toyStaticBlock []).hash toyCrypto ≠ (toyStaticBlock [toyTransaction]).hash toyCrypto ∧
    ∃ id ∈ ((toyCommitteeEngine 2 (by decide) (by decide)).committeeAt 8).members,
      (toyCommitteeEngine 2 (by decide) (by decide)).SignedBy (toyStaticBlock []) id
        (toyCertificate [] [("alice", 1), ("bob", 2)]) ∧
      (toyCommitteeEngine 2 (by decide) (by decide)).SignedBy (toyStaticBlock [toyTransaction]) id
        (toyCertificate [toyTransaction] [("bob", 2), ("carol", 3)]) := by
  refine ⟨rfl, by decide, ?_⟩
  have h : (toyCommitteeEngine 2 (by decide) (by decide)).finaliseWithProof (toyStaticBlock [])
      (toyCertificate [] [("alice", 1), ("bob", 2)]) = .ok ⟨_, _, _⟩ := rfl
  have h' : (toyCommitteeEngine 2 (by decide) (by decide)).finaliseWithProof
      (toyStaticBlock [toyTransaction])
      (toyCertificate [toyTransaction] [("bob", 2), ("carol", 3)]) = .ok ⟨_, _, _⟩ := rfl
  exact (finality_accountability h h' rfl).2.1 (by decide)

/-- **Quorums that do not meet are accepted**: a committee of three with quorum one finalises two
    different blocks of one number, one signed by alice alone and one by bob alone. -/
theorem disjoint_certificates_accepted :
    fromConfig toyCrypto (toyCommittee 1) = .ok (toyCommitteeEngine 1 (by decide) (by decide)) ∧
    succeeds ((toyCommitteeEngine 1 (by decide) (by decide)).finaliseWithProof
      (toyStaticBlock []) (toyCertificate [] [("alice", 1)])) ∧
    succeeds ((toyCommitteeEngine 1 (by decide) (by decide)).finaliseWithProof
      (toyStaticBlock [toyTransaction]) (toyCertificate [toyTransaction] [("bob", 2)])) ∧
    (toyStaticBlock []).number = (toyStaticBlock [toyTransaction]).number ∧
    (toyStaticBlock []).hash toyCrypto ≠ (toyStaticBlock [toyTransaction]).hash toyCrypto ∧
    (toyCommitteeEngine 1 (by decide) (by decide)).commonSigners
      (toyStaticBlock []) (toyStaticBlock [toyTransaction])
      (toyCertificate [] [("alice", 1)]) (toyCertificate [toyTransaction] [("bob", 2)]) = ∅ := by
  refine ⟨rfl, by decide, by decide, rfl, by decide, ?_⟩
  rw [Finset.eq_empty_iff_forall_notMem]
  intro id hid
  obtain ⟨_, ⟨signature, hmem, rfl, _⟩, signature', hmem', hsame, _⟩ := mem_commonSigners.mp hid
  rw [List.map_singleton, List.mem_singleton] at hmem hmem'
  subst hmem hmem'
  exact absurd hsame (by decide)

end SelectedConsensus

end Myelin.Consensus
