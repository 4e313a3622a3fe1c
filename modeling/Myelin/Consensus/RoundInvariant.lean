/-
  What holds along every run of the round state machine.

  Two invariants, each kept by every `RoundStep` and so by every run from a fresh state:
  * `VoteStore` (from `RoundStep.lean`): the retained messages are well-formed.  It makes a failing
    call a no-op, and a decided state a dead end;
  * `LockRecord`: lock and valid value are recorded with their rounds, with the prevote quorum that
    put them there still retained, and never for a round above the current one.

  What does NOT hold along every run is that the valid round only grows.  `receive_vote` accepts
  prevotes of earlier rounds and records the round of the vote that completes a quorum, whatever is
  recorded already; `LateQuorum` is exactly that event, and **`lock_discipline_iff`** says that the
  lock/valid discipline holds along a run if and only if the run has no such event.
-/
import Myelin.Consensus.RoundStep

namespace Myelin.Consensus

open Lib TendermintRoundState
open FixedBytes (fill)

variable {crypto : Crypto} {e : Tendermint crypto} {s s' : TendermintRoundState} {c : RoundCall}
  {result : Except ConsensusError RoundReturn}

/-! ## Runs -/

/-- What holds of the first state and is kept by every call holds after every run. -/
lemma run_invariant {P : TendermintRoundState → Prop} (h0 : P s)
    (hstep : ∀ s c, P s → P (RoundCall.after e s c)) (calls : List RoundCall) :
    P (run e s calls) := by
  induction calls generalizing s with
  | nil => exact h0
  | cons c rest ih => exact ih (hstep s c h0)

lemma run_append (calls more : List RoundCall) :
    run e s (calls ++ more) = run e (run e s calls) more :=
  List.foldl_append

lemma run_snoc (calls : List RoundCall) (c : RoundCall) :
    run e s (calls ++ [c]) = c.after e (run e s calls) := by
  rw [run_append]
  rfl

/-- The fresh state: nothing retained, nothing recorded, and the quorum exceeds two thirds. -/
lemma newRoundState_ok {height : UInt64} (h : e.newRoundState height = .ok s) :
    e.validateTendermintQuorum = .ok () ∧ s = {
      height := height, round := 0, lockedValue := none, lockedRound := none,
      validValue := none, validRound := none, proposals := [], votes := [], decision := none } := by
  simp only [Tendermint.newRoundState, eq_ok] at h
  exact ⟨h.1, h.2.symm⟩

/-! ## The vote store -/

lemma VoteStore.fresh {height : UInt64} (h : e.newRoundState height = .ok s) : VoteStore e s := by
  obtain ⟨_, rfl⟩ := newRoundState_ok h
  exact ⟨by simp, by simp, by simp, by simp, by simp⟩

/-- No step breaks the store. -/
lemma VoteStore.step (hs : VoteStore e s) (h : RoundStep e s c result s') : VoteStore e s' := by
  cases h with
  | fail | knownProposal | knownVote | prevote | precommitNil => exact hs
  | propose proposal admitted free =>
    refine ⟨hs.verified, hs.sameHeight, hs.roundLe, hs.oneVote, nodup_map_snoc hs.oneProposal ?_⟩
    intro hmem
    obtain ⟨other, hother, heq⟩ := List.mem_map.mp hmem
    exact absurd heq (by simpa using List.find?_eq_none.mp free other hother)
  | vote vote _ _ admitted free => exact hs.push admitted free
  | prevoteQuorum vote blockHash admitted free | decide vote blockHash admitted free =>
    obtain ⟨h1, h2, h3, h4, h5⟩ := hs.push admitted free
    exact ⟨h1, h2, h3, h4, h5⟩
  | lock => exact ⟨hs.verified, hs.sameHeight, hs.roundLe, hs.oneVote, hs.oneProposal⟩
  | advance round live next =>
    refine ⟨hs.verified, hs.sameHeight, fun vote hvote => ?_, hs.oneVote, hs.oneProposal⟩
    have := UInt32.le_iff_toNat_le.mp (hs.roundLe vote hvote)
    exact UInt32.le_iff_toNat_le.mpr (by simp only; omega)

lemma VoteStore.after (hs : VoteStore e s) (c : RoundCall) : VoteStore e (c.after e s) :=
  hs.step (roundStep_of_call hs c)

lemma VoteStore.run (hs : VoteStore e s) (calls : List RoundCall) :
    VoteStore e (Consensus.run e s calls) :=
  run_invariant hs (fun _ c hs => hs.after c) calls

/-! ## Errors and the end of a height -/

/-- A failing call on a well-formed store leaves it untouched. -/
lemma VoteStore.error_unchanged (hs : VoteStore e s) (h : (c.call e s).1 = .error error) :
    c.after e s = s := by
  have hstep := roundStep_of_call hs c
  rw [h] at hstep
  unfold RoundCall.after
  generalize (c.call e s).2 = s' at hstep
  cases hstep
  rfl

variable {decision : TendermintDecision}

/-- After the decision every call fails. -/
lemma VoteStore.decided_fails (hs : VoteStore e s) (hdecided : s.decision = some decision)
    (c : RoundCall) : ∃ error, (c.call e s).1 = .error error := by
  have hno : s.decision ≠ none := by rw [hdecided]; exact Option.some_ne_none _
  have hstep := roundStep_of_call hs c
  generalize (c.call e s).1 = result at hstep
  generalize (c.call e s).2 = s' at hstep
  cases hstep with
  | fail _ error => exact ⟨error, rfl⟩
  | knownProposal _ live | knownVote _ live | prevote _ live | precommitNil live =>
    exact absurd live hno
  | propose proposal admitted =>
    simp only [admitProposal, eq_ok, ensureLive_ok] at admitted
    exact absurd admitted.1 hno
  | vote vote _ _ admitted | prevoteQuorum vote _ admitted | decide vote _ admitted =>
    exact absurd (admitVote_ok.mp admitted).1 hno
  | lock _ live | advance _ live => exact absurd live hno

/-- A decided state is where every run stays. -/
lemma VoteStore.run_of_decided (hs : VoteStore e s) (hdecided : s.decision = some decision)
    (calls : List RoundCall) : Consensus.run e s calls = s := by
  induction calls with
  | nil => rfl
  | cons c rest ih =>
    obtain ⟨error, herror⟩ := hs.decided_fails hdecided c
    have hsame : c.after e s = s := hs.error_unchanged herror
    calc Consensus.run e s (c :: rest) = Consensus.run e (c.after e s) rest := rfl
      _ = Consensus.run e s rest := by rw [hsame]
      _ = s := ih

/-- **Errors are atomic and the vote store is well-formed, in every reachable state**: a failing
    call changes nothing; the retained votes verify, are of this height and of rounds up to the
    current one, at most one per round, step and validator, and at most one proposal per round is
    retained; and once a decision is set every later call fails and the decision stays. -/
theorem errors_atomic_votes_well_formed {height : UInt64} {fresh : TendermintRoundState}
    (hnew : e.newRoundState height = .ok fresh) (calls : List RoundCall) :
    (∀ (c : RoundCall) (error : ConsensusError), (c.call e (run e fresh calls)).1 = .error error →
      (c.call e (run e fresh calls)).2 = run e fresh calls) ∧
    ((∀ vote ∈ (run e fresh calls).votes, e.verifyVote vote = .ok () ∧
        vote.height = (run e fresh calls).height ∧ vote.round ≤ (run e fresh calls).round) ∧
      ((run e fresh calls).votes.map TendermintVote.slot).Nodup ∧
      ((run e fresh calls).proposals.map (·.round)).Nodup) ∧
    (∀ decision, (run e fresh calls).decision = some decision → ∀ more,
      (∀ c : RoundCall, ∃ error, (c.call e (run e fresh (calls ++ more))).1 = .error error) ∧
      (run e fresh (calls ++ more)).decision = some decision) := by
  have hs : VoteStore e (run e fresh calls) := (VoteStore.fresh hnew).run calls
  refine ⟨fun c error herror => hs.error_unchanged herror, ⟨fun vote hvote =>
    ⟨hs.verified vote hvote, hs.sameHeight vote hvote, hs.roundLe vote hvote⟩,
    hs.oneVote, hs.oneProposal⟩, ?_⟩
  intro decision hdecided more
  have hsame : run e fresh (calls ++ more) = run e fresh calls := by
    rw [run_append, hs.run_of_decided hdecided more]
  rw [hsame]
  exact ⟨hs.decided_fails hdecided, hdecided⟩

/-- The fresh toy state of height 8. -/
def toyFresh : TendermintRoundState := ⟨8, 0, none, none, none, none, [], [], none⟩

/-- Two prevotes for one block in round 0, then a lock on another block in round 1. -/
def toyCalls : List RoundCall := [
  .receiveVote (toyVote "alice" 1 0 .prevote (some (fill 32 7))),
  .receiveVote (toyVote "bob" 2 0 .prevote (some (fill 32 7))),
  .advanceRound,
  .receiveVote (toyVote "alice" 1 1 .prevote (some (fill 32 9))),
  .receiveVote (toyVote "bob" 2 1 .prevote (some (fill 32 9))),
  .receiveVote (toyVote "carol" 3 1 .prevote (some (fill 32 9))),
  .precommitValue]

theorem errors_atomic_toyCalls :
    toyEngine.newRoundState 8 = .ok toyFresh ∧
    (run toyEngine toyFresh toyCalls).votes.length = 5 ∧
    ((run toyEngine toyFresh toyCalls).votes.map TendermintVote.slot).Nodup :=
  ⟨rfl, by decide, (errors_atomic_votes_well_formed (e := toyEngine) rfl toyCalls).2.1.2.1⟩

/-! ## Locks and valid values -/

/-- What the recorded lock and valid value always satisfy. -/
structure LockRecord (e : Tendermint crypto) (s : TendermintRoundState) : Prop where
  lockedPair : s.lockedValue.isSome = s.lockedRound.isSome
  validPair : s.validValue.isSome = s.validRound.isSome
  lockedQuorum : ∀ value ∈ s.lockedValue, ∀ round ∈ s.lockedRound,
    QuorumFor e s.votes s.height round .prevote (some value)
  validQuorum : ∀ value ∈ s.validValue, ∀ round ∈ s.validRound,
    QuorumFor e s.votes s.height round .prevote (some value)
  lockedLe : ∀ round ∈ s.lockedRound, round ≤ s.round
  validLe : ∀ round ∈ s.validRound, round ≤ s.round

lemma LockRecord.fresh {height : UInt64} (h : e.newRoundState height = .ok s) : LockRecord e s := by
  obtain ⟨_, rfl⟩ := newRoundState_ok h
  exact ⟨rfl, rfl, by simp, by simp, by simp, by simp⟩

/-- Retaining more votes keeps the record. -/
lemma LockRecord.push (hl : LockRecord e s) (vote : TendermintVote) :
    LockRecord e { s with votes := s.votes ++ [vote] } :=
  have hsub : s.votes ⊆ s.votes ++ [vote] := List.subset_append_left _ _
  ⟨hl.lockedPair, hl.validPair, fun value hv round hr => (hl.lockedQuorum value hv round hr).mono hsub,
    fun value hv round hr => (hl.validQuorum value hv round hr).mono hsub, hl.lockedLe, hl.validLe⟩

/-- No step breaks the record. -/
lemma LockRecord.step (hl : LockRecord e s) (h : RoundStep e s c result s') : LockRecord e s' := by
  cases h with
  | fail | knownProposal | knownVote | prevote | precommitNil => exact hl
  | propose =>
    exact ⟨hl.lockedPair, hl.validPair, hl.lockedQuorum, hl.validQuorum, hl.lockedLe, hl.validLe⟩
  | vote vote => exact hl.push vote
  | prevoteQuorum vote blockHash admitted free step value quorum =>
    have hpush := hl.push vote
    refine ⟨hpush.lockedPair, rfl, hpush.lockedQuorum, ?_, hpush.lockedLe, ?_⟩
    · rintro _ ⟨⟩ _ ⟨⟩
      exact quorum
    · rintro _ ⟨⟩
      exact (admitVote_ok.mp admitted).2.2.1
  | decide vote =>
    obtain ⟨h1, h2, h3, h4, h5, h6⟩ := hl.push vote
    exact ⟨h1, h2, h3, h4, h5, h6⟩
  | lock blockHash live quorum =>
    refine ⟨rfl, rfl, ?_, ?_, ?_, ?_⟩
    · rintro _ ⟨⟩ _ ⟨⟩
      exact quorum
    · rintro _ ⟨⟩ _ ⟨⟩
      exact quorum
    · rintro _ ⟨⟩
      exact UInt32.le_refl _
    · rintro _ ⟨⟩
      exact UInt32.le_refl _
  | advance round live next =>
    have hle : s.round ≤ round := UInt32.le_iff_toNat_le.mpr (by omega)
    exact ⟨hl.lockedPair, hl.validPair, hl.lockedQuorum, hl.validQuorum,
      fun r hr => UInt32.le_trans (hl.lockedLe r hr) hle,
      fun r hr => UInt32.le_trans (hl.validLe r hr) hle⟩

/-- A recorded round is still there, and not lower. -/
def NeverDecreases (before after : Option UInt32) : Prop :=
  ∀ round ∈ before, ∃ round' ∈ after, round ≤ round'

lemma NeverDecreases.refl (round : Option UInt32) : NeverDecreases round round :=
  fun r hr => ⟨r, hr, UInt32.le_refl r⟩

/-- A round that is replaced by the current one does not decrease. -/
lemma NeverDecreases.to_current (h : ∀ round ∈ before, round ≤ current) :
    NeverDecreases before (some current) :=
  fun r hr => ⟨current, rfl, h r hr⟩

/-- The full discipline of one state: the record, and the lock never above the valid round. -/
structure LockDiscipline (e : Tendermint crypto) (s : TendermintRoundState) : Prop
    extends LockRecord e s where
  lockedLeValid : NeverDecreases s.lockedRound s.validRound

/-- The call delivers a new prevote of a round BELOW the recorded valid round, and with it that
    earlier round has a prevote quorum for the block. -/
def LateQuorum (e : Tendermint crypto) (s : TendermintRoundState) : RoundCall → Prop
  | .receiveVote vote =>
    s.admitVote e vote = .ok () ∧ s.existingVote vote = none ∧ vote.step = .prevote ∧
    (∃ blockHash ∈ vote.blockHash,
      QuorumFor e (s.votes ++ [vote]) s.height vote.round .prevote (some blockHash)) ∧
    ∃ validRound ∈ s.validRound, vote.round < validRound
  | _ => False

instance (e : Tendermint crypto) (s : TendermintRoundState) :
    (c : RoundCall) → Decidable (LateQuorum e s c)
  | .receiveVote _ => inferInstanceAs (Decidable (_ ∧ _))
  | .receiveProposal _ => inferInstanceAs (Decidable False)
  | .prevoteValue => inferInstanceAs (Decidable False)
  | .precommitValue => inferInstanceAs (Decidable False)
  | .advanceRound => inferInstanceAs (Decidable False)

/-- A prevote that completes a quorum for a block overwrites the valid value and round. -/
lemma receiveVote_prevoteQuorum (hs : VoteStore e s) (admitted : s.admitVote e vote = .ok ())
    (free : s.existingVote vote = none) (hstep : vote.step = .prevote)
    (hvalue : vote.blockHash = some blockHash)
    (quorum : QuorumFor e (s.votes ++ [vote]) s.height vote.round .prevote (some blockHash)) :
    (RoundCall.after e s (.receiveVote vote)).validRound = some vote.round := by
  obtain ⟨power, hpower⟩ :=
    votePower_of_voteStore (hs.push admitted free) vote.round .prevote (some blockHash)
  have hle : e.quorumPower ≤ power := (quorumFor_iff hpower).mpr quorum
  have hlt : ¬ power < e.quorumPower := UInt64.not_lt.mpr hle
  simp only at hpower
  simp only [RoundCall.after, RoundCall.call, receiveVote, admitted, free, hstep, hvalue, hpower,
    hlt, if_false]

section

variable (h : RoundStep e s c result s')
include h

/-- Locks only move to the current round. -/
lemma RoundStep.lockedRound_mono (hl : LockRecord e s) :
    NeverDecreases s.lockedRound s'.lockedRound := by
  cases h with
  | lock => exact .to_current hl.lockedLe
  | _ => exact .refl _

/-- The valid round moves to the current one, or to the round of a vote that is no late quorum. -/
lemma RoundStep.validRound_mono (hl : LockRecord e s)
    (hlate : ¬ LateQuorum e s c) : NeverDecreases s.validRound s'.validRound := by
  cases h with
  | lock => exact .to_current hl.validLe
  | prevoteQuorum vote blockHash admitted free step value quorum =>
    refine .to_current fun round hround => UInt32.not_lt.mp fun hlt => hlate ?_
    exact ⟨admitted, free, step, ⟨blockHash, value, quorum⟩, round, hround, hlt⟩
  | _ => exact .refl _

/-- A step without a late quorum keeps the discipline. -/
lemma LockDiscipline.step (hl : LockDiscipline e s)
    (hlate : ¬ LateQuorum e s c) : LockDiscipline e s' := by
  refine ⟨hl.toLockRecord.step h, ?_⟩
  have hvalid := h.validRound_mono hl.toLockRecord hlate
  -- the lock is what it was, under a valid round that did not go down; or both are the current one
  have htrans : NeverDecreases s.lockedRound s'.validRound := by
    intro r hr
    obtain ⟨r', hr', hle⟩ := hl.lockedLeValid r hr
    obtain ⟨r'', hr'', hle'⟩ := hvalid r' hr'
    exact ⟨r'', hr'', UInt32.le_trans hle hle'⟩
  cases h with
  | lock => exact .refl _
  | _ => exact htrans

end

/-- **The lock/valid discipline holds along a run exactly when no prevote of the run completes a
    quorum of a round below the recorded valid round.**  The discipline: lock and valid value come
    with their rounds and with a retained prevote quorum, `locked_round ≤ valid_round ≤ round`, and
    neither round ever decreases from one state of the run to the next. -/
theorem lock_discipline_iff {height : UInt64} {fresh : TendermintRoundState}
    (hnew : e.newRoundState height = .ok fresh) (calls : List RoundCall) :
    ((∀ before, before <+: calls → LockDiscipline e (run e fresh before)) ∧
      ∀ before c, before ++ [c] <+: calls →
        NeverDecreases (run e fresh before).lockedRound (run e fresh (before ++ [c])).lockedRound ∧
        NeverDecreases (run e fresh before).validRound (run e fresh (before ++ [c])).validRound) ↔
    ∀ before c, before ++ [c] <+: calls → ¬ LateQuorum e (run e fresh before) c := by
  have hstore : ∀ before, VoteStore e (run e fresh before) := (VoteStore.fresh hnew).run
  constructor
  · rintro ⟨_, hmono⟩ before c hpre hlate
    cases c with
    | receiveVote vote =>
      obtain ⟨admitted, free, hstep, ⟨blockHash, hvalue, quorum⟩, validRound, hrecorded, hlt⟩ :=
        hlate
      have hafter := receiveVote_prevoteQuorum (hstore before) admitted free hstep hvalue quorum
      obtain ⟨round', hround', hle⟩ := (hmono before _ hpre).2 validRound hrecorded
      rw [run_snoc, hafter] at hround'
      obtain rfl : vote.round = round' := Option.some_inj.mp hround'
      exact UInt32.not_le.mpr hlt hle
    | _ => exact hlate
  · intro hlate
    have hdiscipline : ∀ before, before <+: calls → LockDiscipline e (run e fresh before) := by
      intro before
      induction before using List.reverseRecOn with
      | nil =>
        intro _
        have hrecord : LockRecord e fresh := LockRecord.fresh hnew
        obtain ⟨_, rfl⟩ := newRoundState_ok hnew
        exact ⟨hrecord, fun _ hr => absurd hr (by simp [run])⟩
      | append_singleton before c ih =>
        intro hpre
        have hbefore := ih ((List.prefix_append before [c]).trans hpre)
        rw [run_snoc]
        exact hbefore.step (roundStep_of_call (hstore before) c) (hlate before c hpre)
    refine ⟨hdiscipline, fun before c hpre => ?_⟩
    have hrecord := (hdiscipline before ((List.prefix_append before [c]).trans hpre)).toLockRecord
    have hstep := roundStep_of_call (hstore before) c
    rw [run_snoc]
    exact ⟨hstep.lockedRound_mono hrecord, hstep.validRound_mono hrecord (hlate before c hpre)⟩

/-- The run that locks in round 1 has no late quorum, so its end keeps the discipline. -/
theorem lock_discipline_toyCalls :
    toyEngine.newRoundState 8 = .ok toyFresh ∧
    (run toyEngine toyFresh toyCalls).lockedRound = some 1 ∧
    LockDiscipline toyEngine (run toyEngine toyFresh toyCalls) := by
  refine ⟨rfl, by decide, ((lock_discipline_iff (e := toyEngine) rfl toyCalls).mpr ?_).1 _
    (List.prefix_refl _)⟩
  have hall : ∀ part ∈ toyCalls.inits, ∀ c ∈ part.getLast?,
      ¬ LateQuorum toyEngine (run toyEngine toyFresh part.dropLast) c := by decide
  intro before c hpre
  have hlast := hall (before ++ [c]) ((List.mem_inits _ _).mpr hpre) c (by simp)
  rwa [List.dropLast_concat] at hlast

/-- The third prevote of round 0 arrives when round 1 is locked: the valid round falls from 1 to
    0, below the lock. -/
theorem late_prevote_lowers_valid_round :
    toyEngine.newRoundState 8 = .ok toyFresh ∧
    (run toyEngine toyFresh toyCalls).lockedRound = some 1 ∧
    (run toyEngine toyFresh toyCalls).validRound = some 1 ∧
    (run toyEngine toyFresh (toyCalls ++
      [.receiveVote (toyVote "carol" 3 0 .prevote (some (fill 32 7)))])).lockedRound = some 1 ∧
    (run toyEngine toyFresh (toyCalls ++
      [.receiveVote (toyVote "carol" 3 0 .prevote (some (fill 32 7)))])).validRound =
        some 0 :=
  ⟨rfl, by decide, by decide, by decide, by decide⟩

end Myelin.Consensus
