/-
  The Tendermint round state machine of one validator, call by call.

  Every call takes `&mut self` and may fail, and a failing Rust call KEEPS whatever it has already
  written; so a call here returns its result together with the state it leaves behind, whether it
  succeeded or not (`Outcome`).  `receive_vote` does write before its last check: it pushes the
  vote and only then tallies.

  `RoundCall` is any one of the calls, `run` a whole sequence of them.  What a call can do to a
  state is said once, in `RoundStep` (one constructor per effect, with everything the code has
  checked at that point); every invariant of the machine is a case analysis on it.
-/
import Mathlib.Data.List.Destutter
import Myelin.Consensus.Tendermint

namespace Myelin.Consensus

open Lib

/-- The durable round state of one height. -/
structure TendermintRoundState where
  height : UInt64
  round : UInt32
  lockedValue : Option Hash32
  lockedRound : Option UInt32
  validValue : Option Hash32
  validRound : Option UInt32
  proposals : List TendermintProposal
  votes : List TendermintVote
  decision : Option TendermintDecision
  deriving DecidableEq

/-- What an accepted message led to. -/
inductive TendermintProgress where
  | proposalAccepted
  | voteAccepted
  | prevoteQuorum (value : Option Hash32)
  | precommitQuorumNil
  | decided (decision : TendermintDecision)
  deriving DecidableEq

/-- A call's result, and the state it leaves behind. -/
abbrev Outcome (α : Type) := Except ConsensusError α × TendermintRoundState

variable {crypto : Crypto}

/-- A fresh state for a height, once the quorum passes the two-thirds rule. -/
def Tendermint.newRoundState (e : Tendermint crypto) (height : UInt64) :
    Except ConsensusError TendermintRoundState := do
  e.validateTendermintQuorum
  pure {
    height := height, round := 0,
    lockedValue := none, lockedRound := none,
    validValue := none, validRound := none,
    proposals := [], votes := [], decision := none }

variable (e : Tendermint crypto) (s : TendermintRoundState)

namespace TendermintRoundState

/-- No call is accepted after the decision. -/
def ensureLive : Except ConsensusError Unit :=
  ensure (s.decision = none) (.invalidTendermintState "height is already decided")

/-! ## Proposals -/

/-- The checks of `receive_proposal` that look at the proposal alone. -/
def admitProposal (proposal : TendermintProposal) : Except ConsensusError Unit := do
  s.ensureLive
  ensure (proposal.height = s.height) (ConsensusError.wrongHeight s.height proposal.height)
  ensure (proposal.round = s.round) (ConsensusError.wrongRound s.round proposal.round)
  e.verifyProposal proposal

/-- A proposal with a valid round needs a retained prevote quorum of that round. -/
def checkValidRound (proposal : TendermintProposal) : Except ConsensusError Unit :=
  match proposal.validRound with
  | none => .ok ()
  | some validRound => do
      let power ← e.votePower s.votes s.height validRound .prevote (some proposal.blockHash)
      ensure (e.quorumPower ≤ power)
        (.invalidTendermintState "proposal valid_round has no retained prevote quorum")

/-- Accept the proposal of the current round. -/
def receiveProposal (proposal : TendermintProposal) : Outcome TendermintProgress :=
  match s.admitProposal e proposal with
  | .error error => (.error error, s)
  | .ok () =>
    match s.proposals.find? (·.round = proposal.round) with
    | some existing =>
      if existing = proposal then (.ok .proposalAccepted, s)
      else (.error (.equivocation proposal.proposerId proposal.round "proposal"), s)
    | none =>
      match s.checkValidRound e proposal with
      | .error error => (.error error, s)
      | .ok () => (.ok .proposalAccepted, { s with proposals := s.proposals ++ [proposal] })

/-- The value to prevote in the current round: the proposal, unless a lock on another value is not
    released by a prevote quorum at or above the locked round. -/
def prevoteValue : Except ConsensusError (Option Hash32) := do
  s.ensureLive
  match s.proposals.find? (·.round = s.round) with
  | none => .ok none
  | some proposal =>
    match s.lockedValue, s.lockedRound with
    | none, _ => .ok (some proposal.blockHash)
    | some locked, lockedRound =>
      if locked = proposal.blockHash then .ok (some proposal.blockHash)
      else
        match lockedRound with
        | none => .error (.invalidTendermintState "locked value is missing locked round")
        | some lockedRound =>
          match proposal.validRound.filter (lockedRound ≤ ·) with
          | none => .ok none
          | some validRound => do
              let power ← e.votePower s.votes s.height validRound .prevote (some proposal.blockHash)
              pure (if e.quorumPower ≤ power then some proposal.blockHash else none)

/-! ## Votes -/

/-- The checks of `receive_vote` that look at the vote alone. -/
def admitVote (vote : TendermintVote) : Except ConsensusError Unit := do
  s.ensureLive
  ensure (vote.height = s.height) (ConsensusError.wrongHeight s.height vote.height)
  ensure (vote.round ≤ s.round) (ConsensusError.wrongRound s.round vote.round)
  e.verifyVote vote

/-- The retained vote of the same validator, round and step. -/
def existingVote (vote : TendermintVote) : Option TendermintVote :=
  s.votes.find? fun existing => existing.round = vote.round ∧ existing.step = vote.step ∧
    existing.validatorId = vote.validatorId

/-- Retain a vote and act on the quorum it may complete. -/
def receiveVote (vote : TendermintVote) : Outcome TendermintProgress :=
  match s.admitVote e vote with
  | .error error => (.error error, s)
  | .ok () =>
    match s.existingVote vote with
    | some existing =>
      if existing = vote then (.ok .voteAccepted, s)
      else (.error (.equivocation vote.validatorId vote.round vote.step.name), s)
    | none =>
      let pushed := { s with votes := s.votes ++ [vote] }
      match e.votePower pushed.votes s.height vote.round vote.step vote.blockHash with
      | .error error => (.error error, pushed)
      | .ok power =>
        if power < e.quorumPower then (.ok .voteAccepted, pushed)
        else
          match vote.step, vote.blockHash with
          | .prevote, none => (.ok (.prevoteQuorum none), pushed)
          | .prevote, some blockHash =>
            -- the round of the VOTE, which may lie below a valid round already recorded
            (.ok (.prevoteQuorum (some blockHash)),
              { pushed with validValue := some blockHash, validRound := some vote.round })
          | .precommit, none => (.ok .precommitQuorumNil, pushed)
          | .precommit, some blockHash =>
            let decision : TendermintDecision := {
              height := s.height, round := vote.round, blockHash := blockHash,
              precommits := pushed.votes.filter
                (·.isFor s.height vote.round .precommit (some blockHash)) }
            (.ok (.decided decision), { pushed with decision := some decision })

/-! ## Precommit value and round change -/

/-- Rust's order on `Option<Hash32>`: nil below every hash. -/
def nilFirst : Option Hash32 → Option Hash32 → Bool
  | none, _ => true
  | some _, none => false
  | some a, some b => a ≤ b

/-- Values prevoted in the current round, sorted, each once. -/
def candidates : List (Option Hash32) :=
  let values := (s.votes.filter fun vote =>
    vote.height = s.height ∧ vote.round = s.round ∧ vote.step = .prevote).map (·.blockHash)
  (values.insertionSort (nilFirst · ·)).destutter (· ≠ ·)

/-- Try the candidates in order; lock on the first with a prevote quorum, unless it is nil. -/
def precommitLoop : List (Option Hash32) → Outcome (Option Hash32)
  | [] => (.error (.invalidTendermintState "cannot precommit before a prevote quorum"), s)
  | value :: rest =>
    match e.votePower s.votes s.height s.round .prevote value with
    | .error error => (.error error, s)
    | .ok power =>
      if e.quorumPower ≤ power then
        match value with
        | none => (.ok none, s)
        | some blockHash =>
          (.ok (some blockHash),
            { s with
              lockedValue := some blockHash, lockedRound := some s.round,
              validValue := some blockHash, validRound := some s.round })
      else precommitLoop rest

/-- The value to precommit in the current round, locking on it. -/
def precommitValue : Outcome (Option Hash32) :=
  match s.ensureLive with
  | .error error => (.error error, s)
  | .ok () => s.precommitLoop e s.candidates

/-- Move to the next round, keeping lock and valid value. -/
def advanceRound : Outcome UInt32 :=
  match s.ensureLive with
  | .error error => (.error error, s)
  | .ok () =>
    match checkedAdd32 s.round 1 with
    | none => (.error (.invalidTendermintState "round overflow"), s)
    | some round => (.ok round, { s with round := round })

end TendermintRoundState

/-! ## Calls and runs -/

/-- One call on a round state. -/
inductive RoundCall where
  | receiveProposal (proposal : TendermintProposal)
  | receiveVote (vote : TendermintVote)
  | prevoteValue
  | precommitValue
  | advanceRound
  deriving DecidableEq

/-- What a call may return. -/
inductive RoundReturn where
  | progress (progress : TendermintProgress)
  | value (value : Option Hash32)
  | round (round : UInt32)
  deriving DecidableEq

/-- Make a call. -/
def RoundCall.call : RoundCall → Outcome RoundReturn
  | .receiveProposal proposal =>
    let (result, s') := s.receiveProposal e proposal
    (result.map .progress, s')
  | .receiveVote vote =>
    let (result, s') := s.receiveVote e vote
    (result.map .progress, s')
  | .prevoteValue => ((s.prevoteValue e).map .value, s)
  | .precommitValue =>
    let (result, s') := s.precommitValue e
    (result.map .value, s')
  | .advanceRound =>
    let (result, s') := s.advanceRound
    (result.map .round, s')

/-- The state after a call, successful or not. -/
def RoundCall.after (c : RoundCall) : TendermintRoundState := (c.call e s).2

/-- The state after a sequence of calls. -/
def run (calls : List RoundCall) : TendermintRoundState := calls.foldl (RoundCall.after e) s

end Myelin.Consensus
