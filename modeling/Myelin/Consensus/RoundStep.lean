/-
  What one call can do to a round state.

  `VoteStore` is the well-formedness of the retained messages: every vote verifies, is for the
  state's height and a round not above the current one, and no validator has two votes in one
  round and step; no round has two proposals.  On such a store the tally NEVER fails
  (`votePower_of_voteStore`), which is why a vote pushed before the tally is never left behind by
  an error.

  **`roundStep_of_call`**: from a well-formed store, every call has exactly one of the effects
  listed in `RoundStep`.  All later invariants are case analyses on `RoundStep`; none of them
  opens the code again.
-/
import Myelin.Consensus.RoundState

namespace Myelin.Consensus

open Lib TendermintRoundState

variable {crypto : Crypto} {e : Tendermint crypto} {s : TendermintRoundState}

/-! ## Quorums of retained votes -/

/-- The votes for one round, step and value carry at least the quorum power. -/
def QuorumFor (e : Tendermint crypto) (votes : List TendermintVote) (height : UInt64)
    (round : UInt32) (step : TendermintStep) (value : Option Hash32) : Prop :=
  e.committee.quorum ≤ e.committee.power (voters votes height round step value)

instance (e : Tendermint crypto) (votes : List TendermintVote) (height : UInt64) (round : UInt32)
    (step : TendermintStep) (value : Option Hash32) :
    Decidable (QuorumFor e votes height round step value) :=
  inferInstanceAs (Decidable (_ ≤ _))

/-- A quorum is not empty: no engine has the quorum zero. -/
lemma QuorumFor.exists_vote {e : Tendermint crypto} {votes : List TendermintVote}
    {height : UInt64} {round : UInt32} {step : TendermintStep} {value : Option Hash32}
    (h : QuorumFor e votes height round step value) :
    ∃ vote ∈ votes, vote.isFor height round step value = true := by
  have hpositive : 0 < e.committee.quorum :=
    Nat.pos_of_ne_zero fun hzero => e.set.quorum_ne_zero (UInt64.toNat_inj.mp hzero)
  have hpower : e.committee.power ∅ < e.committee.power (voters votes height round step value) :=
    hpositive.trans_le h
  obtain ⟨id, hid, -⟩ := e.committee.exists_mem_not_mem hpower
  obtain ⟨vote, hvote, hfor, -⟩ := mem_voters.mp hid
  exact ⟨vote, hvote, hfor⟩

variable {votes : List TendermintVote}

lemma QuorumFor.mono {votes' : List TendermintVote} {height : UInt64} {round : UInt32}
    {step : TendermintStep} {value : Option Hash32} (hsub : votes ⊆ votes')
    (h : QuorumFor e votes height round step value) : QuorumFor e votes' height round step value :=
  h.trans (e.committee.power_mono (voters_mono hsub height round step value))

/-- What a tally compares with the quorum power. -/
lemma quorumFor_iff {height : UInt64} {round : UInt32} {step : TendermintStep}
    {value : Option Hash32} {power : UInt64}
    (h : e.votePower votes height round step value = .ok power) :
    e.quorumPower ≤ power ↔ QuorumFor e votes height round step value := by
  rw [UInt64.le_iff_toNat_le, (Tendermint.votePower_eq_ok.mp h).2.2]
  exact Iff.rfl

/-! ## The vote store -/

/-- The place a vote takes: at most one vote is retained for each. -/
def TendermintVote.slot (vote : TendermintVote) : UInt32 × TendermintStep × String :=
  (vote.round, vote.step, vote.validatorId)

/-- Well-formedness of the retained messages. -/
structure VoteStore (e : Tendermint crypto) (s : TendermintRoundState) : Prop where
  verified : ∀ vote ∈ s.votes, e.verifyVote vote = .ok ()
  sameHeight : ∀ vote ∈ s.votes, vote.height = s.height
  roundLe : ∀ vote ∈ s.votes, vote.round ≤ s.round
  oneVote : (s.votes.map TendermintVote.slot).Nodup
  oneProposal : (s.proposals.map (·.round)).Nodup

/-- Distinct slots leave distinct validators within one round and step. -/
lemma ids_nodup_of_slots (hslots : (votes.map TendermintVote.slot).Nodup) (height : UInt64)
    (round : UInt32) (step : TendermintStep) (value : Option Hash32) :
    ((votes.filter (·.isFor height round step value)).map (·.validatorId)).Nodup := by
  have hslot : (votes.filter (·.isFor height round step value)).map TendermintVote.slot =
      ((votes.filter (·.isFor height round step value)).map (·.validatorId)).map
        (fun id => (round, step, id)) := by
    rw [List.map_map]
    refine List.map_congr_left fun vote hvote => ?_
    obtain ⟨_, hround, hstep, _⟩ := TendermintVote.isFor_iff.mp (List.mem_filter.mp hvote).2
    simp only [TendermintVote.slot, hround, hstep, Function.comp_apply]
  refine List.Nodup.of_map (fun id => (round, step, id)) ?_
  rw [← hslot]
  exact hslots.sublist (List.filter_sublist.map _)

/-- On a well-formed store the tally succeeds. -/
lemma votePower_of_voteStore (hs : VoteStore e s) (round : UInt32) (step : TendermintStep)
    (value : Option Hash32) : ∃ power, e.votePower s.votes s.height round step value = .ok power :=
  Tendermint.exists_votePower (fun vote hmem _ => hs.verified vote hmem)
    (ids_nodup_of_slots hs.oneVote s.height round step value)

variable {vote : TendermintVote}

/-- No vote is retained in the slot of a vote the lookup does not find. -/
lemma slot_fresh (h : s.existingVote vote = none) :
    vote.slot ∉ s.votes.map TendermintVote.slot := by
  intro hmem
  obtain ⟨other, hother, heq⟩ := List.mem_map.mp hmem
  have hno := List.find?_eq_none.mp h other hother
  simp only [TendermintVote.slot, Prod.mk.injEq] at heq
  exact hno (by simp [heq.1, heq.2.1, heq.2.2])

/-- An admitted vote. -/
lemma admitVote_ok :
    s.admitVote e vote = .ok () ↔ s.decision = none ∧ vote.height = s.height ∧
      vote.round ≤ s.round ∧ e.verifyVote vote = .ok () := by
  simp only [admitVote, ensureLive, eq_ok]

/-- Pushing an admitted vote into a free slot keeps the store well-formed. -/
lemma VoteStore.push (hs : VoteStore e s) (hadm : s.admitVote e vote = .ok ())
    (hfree : s.existingVote vote = none) : VoteStore e { s with votes := s.votes ++ [vote] } := by
  obtain ⟨_, hheight, hround, hverify⟩ := admitVote_ok.mp hadm
  exact ⟨forall_mem_snoc hs.verified hverify, forall_mem_snoc hs.sameHeight hheight,
    forall_mem_snoc hs.roundLe hround, nodup_map_snoc hs.oneVote (slot_fresh hfree),
    hs.oneProposal⟩

/-! ## The effects of a call -/

/-- One call from `s`: the call, its result, and the state it leaves behind. -/
inductive RoundStep (e : Tendermint crypto) (s : TendermintRoundState) :
    RoundCall → Except ConsensusError RoundReturn → TendermintRoundState → Prop where
  /-- A failing call changes nothing. -/
  | fail (c : RoundCall) (error : ConsensusError) : RoundStep e s c (.error error) s
  /-- A proposal that is already retained. -/
  | knownProposal (proposal : TendermintProposal) (live : s.decision = none) :
      RoundStep e s (.receiveProposal proposal) (.ok (.progress .proposalAccepted)) s
  /-- A vote that is already retained. -/
  | knownVote (vote : TendermintVote) (live : s.decision = none) :
      RoundStep e s (.receiveVote vote) (.ok (.progress .voteAccepted)) s
  /-- The prevote value is only read. -/
  | prevote (value : Option Hash32) (live : s.decision = none)
      (returns : s.prevoteValue e = .ok value) :
      RoundStep e s .prevoteValue (.ok (.value value)) s
  /-- A nil prevote quorum locks nothing. -/
  | precommitNil (live : s.decision = none) :
      RoundStep e s .precommitValue (.ok (.value none)) s
  /-- A new proposal of the current round. -/
  | propose (proposal : TendermintProposal) (admitted : s.admitProposal e proposal = .ok ())
      (free : s.proposals.find? (·.round = proposal.round) = none)
      (justified : ∀ validRound ∈ proposal.validRound,
        QuorumFor e s.votes s.height validRound .prevote (some proposal.blockHash)) :
      RoundStep e s (.receiveProposal proposal) (.ok (.progress .proposalAccepted))
        { s with proposals := s.proposals ++ [proposal] }
  /-- A new vote that completes no quorum for a block. -/
  | vote (vote : TendermintVote) (progress : TendermintProgress)
      (undecided : ∀ decision, progress ≠ .decided decision)
      (admitted : s.admitVote e vote = .ok ()) (free : s.existingVote vote = none)
      (noQuorum : vote.blockHash ≠ none →
        ¬ QuorumFor e (s.votes ++ [vote]) s.height vote.round vote.step vote.blockHash) :
      RoundStep e s (.receiveVote vote) (.ok (.progress progress))
        { s with votes := s.votes ++ [vote] }
  /-- A new prevote with which a block has a prevote quorum. -/
  | prevoteQuorum (vote : TendermintVote) (blockHash : Hash32)
      (admitted : s.admitVote e vote = .ok ()) (free : s.existingVote vote = none)
      (step : vote.step = .prevote) (value : vote.blockHash = some blockHash)
      (quorum : QuorumFor e (s.votes ++ [vote]) s.height vote.round .prevote (some blockHash)) :
      RoundStep e s (.receiveVote vote) (.ok (.progress (.prevoteQuorum (some blockHash))))
        { s with
          votes := s.votes ++ [vote]
          validValue := some blockHash, validRound := some vote.round }
  /-- A new precommit with which a block has a precommit quorum. -/
  | decide (vote : TendermintVote) (blockHash : Hash32)
      (admitted : s.admitVote e vote = .ok ()) (free : s.existingVote vote = none)
      (step : vote.step = .precommit) (value : vote.blockHash = some blockHash)
      (quorum : QuorumFor e (s.votes ++ [vote]) s.height vote.round .precommit (some blockHash))
      (decision : TendermintDecision)
      (decided : decision = {
        height := s.height, round := vote.round, blockHash := blockHash,
        precommits := (s.votes ++ [vote]).filter
          (·.isFor s.height vote.round .precommit (some blockHash)) }) :
      RoundStep e s (.receiveVote vote) (.ok (.progress (.decided decision)))
        { s with votes := s.votes ++ [vote], decision := some decision }
  /-- A precommit value with a prevote quorum in the current round. -/
  | lock (blockHash : Hash32) (live : s.decision = none)
      (quorum : QuorumFor e s.votes s.height s.round .prevote (some blockHash)) :
      RoundStep e s .precommitValue (.ok (.value (some blockHash)))
        { s with
          lockedValue := some blockHash, lockedRound := some s.round
          validValue := some blockHash, validRound := some s.round }
  /-- The next round. -/
  | advance (round : UInt32) (live : s.decision = none) (next : round.toNat = s.round.toNat + 1) :
      RoundStep e s .advanceRound (.ok (.round round)) { s with round := round }

lemma ensureLive_ok : s.ensureLive = .ok u ↔ s.decision = none := by
  simp only [ensureLive, ensure_eq_ok]

lemma roundStep_receiveProposal (hs : VoteStore e s) (proposal : TendermintProposal) :
    RoundStep e s (.receiveProposal proposal) ((s.receiveProposal e proposal).1.map .progress)
      (s.receiveProposal e proposal).2 := by
  unfold receiveProposal
  cases hadm : s.admitProposal e proposal with
  | error error => exact .fail _ error
  | ok u =>
    have hlive : s.decision = none := by
      simp only [admitProposal, eq_ok, ensureLive_ok] at hadm
      exact hadm.1
    cases hfind : s.proposals.find? (·.round = proposal.round) with
    | some existing =>
      by_cases heq : existing = proposal
      · simp only [heq, if_true]
        exact .knownProposal _ hlive
      · simp only [heq, if_false]
        exact .fail _ _
    | none =>
      cases hcheck : s.checkValidRound e proposal with
      | error error => exact .fail _ error
      | ok u =>
        refine .propose proposal hadm hfind fun validRound hmem => ?_
        rw [Option.mem_def] at hmem
        obtain ⟨power, hpower⟩ :=
          votePower_of_voteStore hs validRound .prevote (some proposal.blockHash)
        simp only [checkValidRound, hmem, eq_ok, hpower, Except.ok.injEq, exists_eq_left'] at hcheck
        exact (quorumFor_iff hpower).mp hcheck

lemma roundStep_receiveVote (hs : VoteStore e s) (vote : TendermintVote) :
    RoundStep e s (.receiveVote vote) ((s.receiveVote e vote).1.map .progress)
      (s.receiveVote e vote).2 := by
  unfold receiveVote
  cases hadm : s.admitVote e vote with
  | error error => exact .fail _ error
  | ok u =>
    have hlive : s.decision = none := (admitVote_ok.mp hadm).1
    cases hfind : s.existingVote vote with
    | some existing =>
      by_cases heq : existing = vote
      · simp only [heq, if_true]
        exact .knownVote _ hlive
      · simp only [heq, if_false]
        exact .fail _ _
    | none =>
      have hpush := hs.push hadm hfind
      obtain ⟨power, hpower⟩ := votePower_of_voteStore hpush vote.round vote.step vote.blockHash
      have hquorum := quorumFor_iff hpower
      simp only at hpower hquorum ⊢
      rw [hpower]
      by_cases hlt : power < e.quorumPower
      · have hno : ¬ e.quorumPower ≤ power := UInt64.not_le.mpr hlt
        simp only [hlt, if_true]
        exact .vote vote _ (by simp) hadm hfind fun _ => (not_congr hquorum).mp hno
      · have hyes := hquorum.mp (UInt64.not_lt.mp hlt)
        simp only [hlt, if_false]
        cases hstep : vote.step <;> cases hvalue : vote.blockHash <;>
          rw [hstep, hvalue] at hyes
        · exact .vote vote _ (by simp) hadm hfind fun hne => absurd hvalue hne
        · exact .prevoteQuorum vote _ hadm hfind hstep hvalue hyes
        · exact .vote vote _ (by simp) hadm hfind fun hne => absurd hvalue hne
        · exact .decide vote _ hadm hfind hstep hvalue hyes _ rfl

lemma roundStep_precommitValue (hs : VoteStore e s) :
    RoundStep e s .precommitValue ((s.precommitValue e).1.map .value) (s.precommitValue e).2 := by
  unfold precommitValue
  cases hlive : s.ensureLive with
  | error error => exact .fail _ error
  | ok u =>
    rw [ensureLive_ok] at hlive
    simp only
    -- the loop stops at the first candidate with a quorum
    induction s.candidates with
    | nil => exact .fail _ _
    | cons value rest ih =>
      unfold precommitLoop
      obtain ⟨power, hpower⟩ := votePower_of_voteStore hs s.round .prevote value
      simp only [hpower]
      by_cases hle : e.quorumPower ≤ power
      · simp only [hle, if_true]
        cases value with
        | none => exact .precommitNil hlive
        | some blockHash => exact .lock blockHash hlive ((quorumFor_iff hpower).mp hle)
      · simp only [hle, if_false]
        exact ih

lemma roundStep_advanceRound :
    RoundStep e s .advanceRound (s.advanceRound.1.map .round) s.advanceRound.2 := by
  unfold advanceRound
  cases hlive : s.ensureLive with
  | error error => exact .fail _ error
  | ok u =>
    cases hadd : checkedAdd32 s.round 1 with
    | none => exact .fail _ _
    | some round => exact .advance round (ensureLive_ok.mp hlive) (checkedAdd32_eq_some.mp hadd)

/-- **Every call on a well-formed store has one of the listed effects.** -/
theorem roundStep_of_call (hs : VoteStore e s) (c : RoundCall) :
    RoundStep e s c (c.call e s).1 (c.call e s).2 := by
  cases c with
  | receiveProposal proposal => exact roundStep_receiveProposal hs proposal
  | receiveVote vote => exact roundStep_receiveVote hs vote
  | prevoteValue =>
    unfold RoundCall.call
    cases hvalue : s.prevoteValue e with
    | error error => exact .fail _ error
    | ok value =>
      have hlive : s.decision = none := by
        simp only [prevoteValue, eq_ok, ensureLive_ok] at hvalue
        exact hvalue.1
      exact .prevote value hlive hvalue
  | precommitValue => exact roundStep_precommitValue hs
  | advanceRound => exact roundStep_advanceRound

end Myelin.Consensus
