/-
  Finalising a block with a Tendermint decision, and the certificate that comes out.

  `finalise_block_with_decision` TALLIES the precommits that match the decision and skips the rest,
  but builds the certificate from ALL of them.  So acceptance and certificate are computed over
  different lists: the quorum is always there (`accepted_quorum`), while a vote the tally skipped —
  a STRAY — enters the certificate unchecked.

  `CleanCertificate` is what a certificate is for: entries of distinct configured validators, each a
  valid precommit signature for exactly this hash, height and round, with quorum power.  **The main
  theorem** says that the certificate of an accepted decision is clean if and only if its strays are
  harmless, and that the decisions of the round state machine have no strays at all.
-/
import Myelin.Consensus.RoundInvariant

namespace Myelin.Consensus

open Lib TendermintRoundState
open FixedBytes (fill)

variable {crypto : Crypto}
variable {entry : CommitteeSignature} {votes : List TendermintVote} {s : TendermintRoundState}

/-- Tendermint precommit certificate for one block height and round. -/
structure WeightedPrecommitCertificate where
  blockHash : Hash32
  height : UInt64
  round : UInt32
  signatures : List CommitteeSignature
  deriving DecidableEq

/-- Finalised Tendermint block artefact. -/
structure FinalisedWeightedPrecommitBlock where
  block : MyelinBlock
  blockHash : Hash32
  round : UInt32
  certificate : WeightedPrecommitCertificate
  deriving DecidableEq

/-- The certificate entry made from a precommit. -/
def certificateEntry (vote : TendermintVote) : Except ConsensusError CommitteeSignature := do
  let signature ← signature64 vote.signature vote.validatorId
  pure ⟨vote.validatorId, signature⟩

/-- Verify a decision against a block and finalise it. -/
def Tendermint.finaliseBlockWithDecision (e : Tendermint crypto) (block : MyelinBlock)
    (decision : TendermintDecision) : Except ConsensusError FinalisedWeightedPrecommitBlock := do
  ensure (block.consensusKind = .tendermint)
    (.wrongEngine ConsensusKind.tendermint.asStr block.consensusKind.asStr)
  ensure (decision.height = block.number) (ConsensusError.wrongHeight block.number decision.height)
  let blockHash := block.hash crypto
  ensure (decision.blockHash = blockHash) ConsensusError.wrongBlockHash
  let signedPower ← e.votePower decision.precommits decision.height decision.round .precommit
    (some blockHash)
  ensure (e.quorumPower ≤ signedPower) (.quorumNotMet signedPower e.quorumPower)
  -- every precommit of the decision, matching or not
  let signatures ← mapResult certificateEntry decision.precommits
  pure ⟨block, blockHash, decision.round, ⟨blockHash, decision.height, decision.round, signatures⟩⟩

/-! ## What acceptance establishes -/

/-- The tally's filter for a decision. -/
def TendermintDecision.counts (decision : TendermintDecision) (vote : TendermintVote) : Bool :=
  vote.isFor decision.height decision.round .precommit (some decision.blockHash)

/-- The vote as a precommit for the decision's own height, round and block. -/
def TendermintDecision.relabel (decision : TendermintDecision) (vote : TendermintVote) :
    TendermintVote :=
  { vote with
    height := decision.height, round := decision.round, step := .precommit
    blockHash := some decision.blockHash }

variable {vote : TendermintVote}

lemma TendermintDecision.relabel_of_counts {decision : TendermintDecision}
    (h : decision.counts vote = true) : decision.relabel vote = vote := by
  obtain ⟨hheight, hround, hstep, hvalue⟩ := TendermintVote.isFor_iff.mp h
  rw [relabel, ← hheight, ← hround, ← hstep, ← hvalue]

variable {e : Tendermint crypto} {block : MyelinBlock} {decision : TendermintDecision}
  {finalised : FinalisedWeightedPrecommitBlock}

/-- A precommit with a 64-byte signature, and its certificate entry. -/
lemma certificateEntry_eq_ok :
    certificateEntry vote = .ok entry ↔
      vote.validatorId = entry.validatorId ∧ vote.signature = entry.signature.val := by
  simp only [certificateEntry, signature64, eq_ok, FixedBytes.ofList?_eq_some]
  constructor
  · rintro ⟨signature, hsig, rfl⟩
    exact ⟨rfl, hsig⟩
  · rintro ⟨hid, hsig⟩
    exact ⟨entry.signature, hsig, by rw [hid]⟩

/-- A verified vote has a 64-byte signature. -/
lemma exists_certificateEntry (h : e.verifyVote vote = .ok ()) :
    ∃ entry, certificateEntry vote = .ok entry := by
  simp only [Tendermint.verifyVote, signature64, eq_ok, FixedBytes.ofList?_eq_some] at h
  obtain ⟨_, _, signature, hsig, _⟩ := h
  exact ⟨⟨vote.validatorId, signature⟩, certificateEntry_eq_ok.mpr ⟨rfl, hsig⟩⟩

/-- Everything an accepted decision has passed. -/
lemma finalise_eq_ok :
    e.finaliseBlockWithDecision block decision = .ok finalised ↔
      block.consensusKind = .tendermint ∧ decision.height = block.number ∧
      decision.blockHash = block.hash crypto ∧
      (∀ vote ∈ decision.precommits, decision.counts vote = true → e.verifyVote vote = .ok ()) ∧
      ((decision.precommits.filter decision.counts).map (·.validatorId)).Nodup ∧
      QuorumFor e decision.precommits decision.height decision.round .precommit
        (some decision.blockHash) ∧
      ∃ signatures, List.Forall₂ (fun vote (entry : CommitteeSignature) =>
          vote.validatorId = entry.validatorId ∧ vote.signature = entry.signature.val)
          decision.precommits signatures ∧
        finalised = ⟨block, block.hash crypto, decision.round,
          ⟨block.hash crypto, decision.height, decision.round, signatures⟩⟩ := by
  simp only [Tendermint.finaliseBlockWithDecision, eq_ok, mapResult_eq_ok, certificateEntry_eq_ok]
  constructor
  · rintro ⟨hkind, hheight, hhash, power, hpower, hquorum, signatures, hentries, rfl⟩
    rw [← hhash] at hpower
    obtain ⟨hverified, hnodup, _⟩ := Tendermint.votePower_eq_ok.mp hpower
    exact ⟨hkind, hheight, hhash, hverified, hnodup, (quorumFor_iff hpower).mp hquorum,
      signatures, hentries, rfl⟩
  · rintro ⟨hkind, hheight, hhash, hverified, hnodup, hquorum, signatures, hentries, rfl⟩
    obtain ⟨power, hpower⟩ := Tendermint.exists_votePower hverified hnodup
    exact ⟨hkind, hheight, hhash, power, hhash ▸ hpower, (quorumFor_iff hpower).mpr hquorum,
      signatures, hentries, rfl⟩

/-! ## Clean certificates -/

/-- What a certificate stands for: distinct configured validators, each with a valid precommit
    signature for exactly this block hash, height and round, of quorum power together. -/
structure CleanCertificate (e : Tendermint crypto) (block : MyelinBlock)
    (finalised : FinalisedWeightedPrecommitBlock) : Prop where
  distinct : (finalised.certificate.signatures.map (·.validatorId)).Nodup
  valid : ∀ entry ∈ finalised.certificate.signatures, ∃ validator,
    e.validators.get? entry.validatorId = some validator ∧
    verifySchnorr crypto validator.publicKey
      (voteDigest crypto block.number finalised.round .precommit (some (block.hash crypto))
        entry.validatorId) entry.signature = true
  quorum : e.committee.quorum ≤
    e.committee.power (finalised.certificate.signatures.map (·.validatorId)).toFinset

/-- A vote the tally skips does no harm: its signature is after all a configured validator's for the
    decision's own precommit, and its validator has no second vote in the list. -/
def StraysHarmless (e : Tendermint crypto) (decision : TendermintDecision) : Prop :=
  ∀ vote ∈ decision.precommits, decision.counts vote = false →
    e.verifyVote (decision.relabel vote) = .ok () ∧
    (decision.precommits.map (·.validatorId)).count vote.validatorId = 1

instance (e : Tendermint crypto) (decision : TendermintDecision) :
    Decidable (StraysHarmless e decision) :=
  inferInstanceAs (Decidable (∀ vote ∈ decision.precommits, _ → _))

/-- A vote relabelled as the decision's precommit verifies exactly when its entry is valid. -/
lemma verifyVote_relabel (hid : vote.validatorId = entry.validatorId)
    (hsig : vote.signature = entry.signature.val) :
    e.verifyVote (decision.relabel vote) = .ok () ↔ ∃ validator,
      e.validators.get? entry.validatorId = some validator ∧
      verifySchnorr crypto validator.publicKey
        (voteDigest crypto decision.height decision.round .precommit (some decision.blockHash)
          entry.validatorId) entry.signature = true := by
  simp only [Tendermint.verifyVote, TendermintDecision.relabel, signature64, hid, hsig,
    FixedBytes.ofList?_val, okOr, eq_ok, Except.ok.injEq, exists_eq_left']
  constructor
  · rintro ⟨validator, hget, hverify⟩
    exact ⟨validator, by simpa using okOr_eq_ok.mp hget, hverify⟩
  · rintro ⟨validator, hget, hverify⟩
    exact ⟨validator, okOr_eq_ok.mpr hget, hverify⟩

section

variable {signatures : List CommitteeSignature}
  (h : List.Forall₂ (fun vote (entry : CommitteeSignature) =>
    vote.validatorId = entry.validatorId ∧ vote.signature = entry.signature.val) votes signatures)
include h

/-- Entries carry the ids of the precommits, in order. -/
lemma entries_ids : signatures.map (·.validatorId) = votes.map (·.validatorId) := by
  induction h with
  | nil => rfl
  | cons hentry _ ih => rw [List.map_cons, List.map_cons, ih, hentry.1]

/-- Something holds of every entry exactly when it holds of every precommit it was made from. -/
lemma forall_entries {P : TendermintVote → Prop} {Q : CommitteeSignature → Prop}
    (hPQ : ∀ vote entry, vote.validatorId = entry.validatorId →
      vote.signature = entry.signature.val → (P vote ↔ Q entry)) :
    (∀ entry ∈ signatures, Q entry) ↔ ∀ vote ∈ votes, P vote := by
  induction h with
  | nil => simp
  | cons hentry _ ih =>
    rw [List.forall_mem_cons, List.forall_mem_cons, ih, hPQ _ _ hentry.1 hentry.2]

end

/-- **The certificate of an accepted decision is clean exactly when its strays are harmless.** -/
theorem clean_iff_straysHarmless (h : e.finaliseBlockWithDecision block decision = .ok finalised) :
    CleanCertificate e block finalised ↔ StraysHarmless e decision := by
  obtain ⟨_, hheight, hhash, hverified, hnodup, hquorum, signatures, hentries, rfl⟩ :=
    finalise_eq_ok.mp h
  have hids := entries_ids hentries
  have hvalid := forall_entries (P := fun vote => e.verifyVote (decision.relabel vote) = .ok ())
    hentries fun vote entry hid hsig => verifyVote_relabel hid hsig
  rw [hheight, hhash] at hvalid
  have hdistinct := nodup_map_iff_rest (f := TendermintVote.validatorId) hnodup
  constructor
  · intro hclean vote hvote hstray
    have hall := hvalid.mp hclean.valid
    have hnodup' : (decision.precommits.map (·.validatorId)).Nodup := hids ▸ hclean.distinct
    exact ⟨hall vote hvote, hdistinct.mp hnodup' vote hvote hstray⟩
  · intro hstrays
    refine ⟨?_, hvalid.mpr fun vote hvote => ?_, ?_⟩
    · simp only [hids]
      exact hdistinct.mpr fun vote hvote hstray => (hstrays vote hvote hstray).2
    · cases hcounts : decision.counts vote with
      | true =>
        rw [TendermintDecision.relabel_of_counts hcounts]
        exact hverified vote hvote hcounts
      | false => exact (hstrays vote hvote hcounts).1
    · -- the counted voters are among the signers, and they already carry the quorum
      refine hquorum.trans (e.committee.power_mono fun id hid => ?_)
      obtain ⟨vote, hvote, _, rfl⟩ := mem_voters.mp hid
      simp only [hids, List.mem_toFinset]
      exact List.mem_map_of_mem hvote

/-! ## Decisions of the round state machine -/

/-- The decision a vote completes on a well-formed store: the retained precommits of the vote's
    round and block, the vote included, and nothing else. -/
lemma receiveVote_decided (hs : VoteStore e s)
    (h : (s.receiveVote e vote).1 = .ok (.decided decision)) :
    VoteStore e (s.receiveVote e vote).2 ∧
    QuorumFor e (s.receiveVote e vote).2.votes decision.height decision.round .precommit
      (some decision.blockHash) ∧
    decision.precommits = (s.receiveVote e vote).2.votes.filter decision.counts := by
  have hstep := roundStep_receiveVote hs vote
  have hstore := hs.step hstep
  rw [h] at hstep
  generalize (s.receiveVote e vote).2 = s' at hstep hstore
  refine ⟨hstore, ?_⟩
  -- of the results a vote can have, only one is a decision
  generalize hres : Except.map RoundReturn.progress (Except.ok (.decided decision)) = result at hstep
  cases hstep with
  | decide _ blockHash admitted free step value quorum d decided =>
    obtain rfl : decision = d := by simpa [Except.map] using hres
    rw [decided]
    exact ⟨quorum, rfl⟩
  | vote _ _ undecided =>
    exact absurd (by simpa [Except.map] using hres.symm) (undecided decision)
  | _ => simp [Except.map] at hres

/-- A decision of the machine is accepted for its block, with a clean certificate. -/
lemma finalise_of_decided (hs : VoteStore e s)
    (h : (s.receiveVote e vote).1 = .ok (.decided decision))
    (hkind : block.consensusKind = .tendermint) (hnumber : block.number = decision.height)
    (hhash : block.hash crypto = decision.blockHash) :
    ∃ finalised, e.finaliseBlockWithDecision block decision = .ok finalised ∧
      CleanCertificate e block finalised := by
  obtain ⟨hstore, hquorum, hprecommits⟩ := receiveVote_decided hs h
  generalize (s.receiveVote e vote).2 = s' at hstore hquorum hprecommits
  have hcounts : ∀ v ∈ decision.precommits, decision.counts v = true := by
    intro v hv
    rw [hprecommits] at hv
    exact (List.mem_filter.mp hv).2
  have hverified : ∀ v ∈ decision.precommits, e.verifyVote v = .ok () := by
    intro v hv
    rw [hprecommits] at hv
    exact hstore.verified v (List.mem_filter.mp hv).1
  -- filtering once more changes nothing
  have hfilter : decision.precommits.filter decision.counts = decision.precommits :=
    List.filter_eq_self.mpr hcounts
  have hnodup : ((decision.precommits.filter decision.counts).map (·.validatorId)).Nodup := by
    rw [hfilter, hprecommits]
    exact ids_nodup_of_slots hstore.oneVote decision.height decision.round .precommit
      (some decision.blockHash)
  have hquorum' : QuorumFor e decision.precommits decision.height decision.round .precommit
      (some decision.blockHash) := by
    refine hquorum.trans (e.committee.power_mono fun id hid => ?_)
    obtain ⟨v, hv, hfor, rfl⟩ := mem_voters.mp hid
    exact mem_voters.mpr ⟨v, hprecommits ▸ List.mem_filter.mpr ⟨hv, hfor⟩, hfor, rfl⟩
  -- every verified precommit has a 64-byte signature, so every entry can be made
  obtain ⟨signatures, hentries⟩ : ∃ signatures,
      mapResult certificateEntry decision.precommits = .ok signatures :=
    exists_mapResult fun v hv => exists_certificateEntry (hverified v hv)
  have hok := finalise_eq_ok.mpr ⟨hkind, hnumber.symm, hhash.symm,
    fun v hv _ => hverified v hv, hnodup, hquorum', signatures, by
      simpa only [mapResult_eq_ok, certificateEntry_eq_ok] using hentries, rfl⟩
  refine ⟨_, hok, (clean_iff_straysHarmless hok).mpr fun v hv hstray => ?_⟩
  rw [hcounts v hv] at hstray
  exact absurd hstray (by simp)

/-- **Decision soundness.**  The certificate of an accepted decision is clean exactly when the votes
    its tally skipped are harmless; and every decision that `receive_vote` produces on a reachable
    state is accepted for the Tendermint block of its hash and height, with a clean certificate. -/
theorem decision_certificate_clean_iff :
    (∀ (block : MyelinBlock) (decision : TendermintDecision)
        (finalised : FinalisedWeightedPrecommitBlock),
      e.finaliseBlockWithDecision block decision = .ok finalised →
      (CleanCertificate e block finalised ↔ StraysHarmless e decision)) ∧
    ∀ (height : UInt64) (fresh : TendermintRoundState) (calls : List RoundCall)
        (vote : TendermintVote) (decision : TendermintDecision),
      e.newRoundState height = .ok fresh →
      ((run e fresh calls).receiveVote e vote).1 = .ok (.decided decision) →
      ∀ block : MyelinBlock, block.consensusKind = .tendermint →
        block.number = decision.height → block.hash crypto = decision.blockHash →
        ∃ finalised, e.finaliseBlockWithDecision block decision = .ok finalised ∧
          CleanCertificate e block finalised := by
  refine ⟨fun block decision finalised h => clean_iff_straysHarmless h, ?_⟩
  intro height fresh calls vote decision hnew hdecided block hkind hnumber hhash
  have hs : VoteStore e (run e fresh calls) := (VoteStore.fresh hnew).run calls
  exact finalise_of_decided hs hdecided hkind hnumber hhash

/-- A Tendermint block of height 8. -/
def toyBlock : MyelinBlock :=
  ⟨1, fill 32 12, fill 32 0, 8, 0, .tendermint, fill 32 10, fill 32 11, fill 32 1, fill 32 2, [], [],
    fill 32 5⟩

/-- A toy validator's precommit for the toy block in round 0. -/
def toyPrecommit (id : String) (key : UInt8) : TendermintVote :=
  toyVote id key 0 .precommit (some (toyBlock.hash toyCrypto))

/-- Three precommits for the toy block, and whatever else is put into the list. -/
def toyDecision (others : List TendermintVote) : TendermintDecision where
  height := 8
  round := 0
  blockHash := toyBlock.hash toyCrypto
  precommits := [toyPrecommit "alice" 1, toyPrecommit "bob" 2, toyPrecommit "carol" 3] ++ others

/-- The decision that the third precommit completes is accepted with a clean certificate. -/
theorem decision_certificate_clean_toyDecision :
    ∃ finalised, toyEngine.finaliseBlockWithDecision toyBlock (toyDecision []) = .ok finalised ∧
      CleanCertificate toyEngine toyBlock finalised ∧
      (CleanCertificate toyEngine toyBlock finalised ↔
        StraysHarmless toyEngine (toyDecision [])) := by
  have hdecided : ((run toyEngine toyFresh [.receiveVote (toyPrecommit "alice" 1),
      .receiveVote (toyPrecommit "bob" 2)]).receiveVote toyEngine (toyPrecommit "carol" 3)).1 =
      .ok (.decided (toyDecision [])) := by decide
  obtain ⟨finalised, hok, hclean⟩ := (decision_certificate_clean_iff (e := toyEngine)).2 8 toyFresh
    _ _ _ rfl hdecided toyBlock rfl rfl rfl
  exact ⟨finalised, hok, hclean, (decision_certificate_clean_iff (e := toyEngine)).1 _ _ _ hok⟩

/-- A prevote of an unknown validator, under a signature of 64 zero bytes. -/
def toyStray : TendermintVote := toyVote "mallory" 0 5 .prevote none

/-- A decision is accepted with the stray in it, and the stray is an entry of the certificate. -/
theorem stray_vote_enters_certificate :
    ∃ finalised,
      toyEngine.finaliseBlockWithDecision toyBlock (toyDecision [toyStray]) = .ok finalised ∧
      (∃ entry ∈ finalised.certificate.signatures,
        entry.validatorId = "mallory" ∧ toyEngine.validators.get? "mallory" = none) ∧
      ¬ CleanCertificate toyEngine toyBlock finalised := by
  have hok : (toyEngine.finaliseBlockWithDecision toyBlock (toyDecision [toyStray])).map
      (fun finalised => finalised.certificate.signatures.map (·.validatorId)) =
      .ok ["alice", "bob", "carol", "mallory"] := by decide
  cases hfinal : toyEngine.finaliseBlockWithDecision toyBlock (toyDecision [toyStray]) with
  | error error => rw [hfinal] at hok; simp [Except.map] at hok
  | ok finalised =>
    rw [hfinal, Except.map, Except.ok.injEq] at hok
    have hmem : "mallory" ∈ finalised.certificate.signatures.map (·.validatorId) := by
      rw [hok]
      decide
    obtain ⟨entry, hentry, hid⟩ := List.mem_map.mp hmem
    have hunknown : toyEngine.validators.get? "mallory" = none := by decide
    refine ⟨finalised, rfl, ⟨entry, hentry, hid, hunknown⟩, fun hclean => ?_⟩
    obtain ⟨validator, hget, _⟩ := hclean.valid entry hentry
    rw [hid, hunknown] at hget
    exact absurd hget (by simp)

end Myelin.Consensus
