/-
  The Tendermint engine: its messages, their digests, and the checks on single messages.

  `Tendermint` is the validated engine.  Its set carries `0 < quorum ≤ total`, which is ALL that
  `Tendermint::new` checks about the quorum; the two-thirds rule is a separate check made by
  `new_round_state` (`validateTendermintQuorum`).

  **`votePower_eq_ok`** is the one fact the rest of the consensus development uses about the
  tally: it returns `p` exactly when every matching vote verifies, no validator votes twice among
  them, and `p` is the committee power of their voters.  Its overflow branch is dead, because the
  counted validators are distinct members of a set whose total fits.
-/
import Myelin.Consensus.Validators

namespace Myelin.Consensus

open Lib

variable {crypto : Crypto} {height : UInt64} {round : UInt32} {blockHash : Option Hash32}

/-! ## Messages -/

/-- The two voting steps of a round. -/
inductive TendermintStep where
  | prevote
  | precommit
  deriving DecidableEq, Repr

/-- Byte that stands for the step in a digest. -/
def TendermintStep.tag : TendermintStep → UInt8
  | .prevote => 1
  | .precommit => 2

/-- The step's name in an equivocation error. -/
def TendermintStep.name : TendermintStep → String
  | .prevote => "prevote"
  | .precommit => "precommit"

/-- A signed proposal for one round. -/
structure TendermintProposal where
  height : UInt64
  round : UInt32
  blockHash : Hash32
  /-- Earlier round whose prevote quorum justifies the value. -/
  validRound : Option UInt32
  proposerId : String
  signature : List UInt8
  deriving DecidableEq

/-- A signed prevote or precommit, for a block or for nil. -/
structure TendermintVote where
  height : UInt64
  round : UInt32
  step : TendermintStep
  blockHash : Option Hash32
  validatorId : String
  signature : List UInt8
  deriving DecidableEq

/-- The precommits that decided a height. -/
structure TendermintDecision where
  height : UInt64
  round : UInt32
  blockHash : Hash32
  precommits : List TendermintVote
  deriving DecidableEq

/-! ## Digests -/

/-- Length-prefixed identifier bytes, as every digest ends. -/
def idBytes (id : String) : List UInt8 :=
  le32 (UInt32.ofNat (utf8 id).length) ++ utf8 id

/-- Digest a proposer signs. -/
def proposalDigest (crypto : Crypto) (height : UInt64) (round : UInt32) (blockHash : Hash32)
    (validRound : Option UInt32) (proposerId : String) : Hash32 :=
  crypto.blake3 (utf8 "myelin:tendermint-proposal" ++ le64 height ++ le32 round ++ blockHash.val ++
    (match validRound with
      | some validRound => 1 :: le32 validRound
      | none => [0]) ++ idBytes proposerId)

/-- Digest a voter signs. -/
def voteDigest (crypto : Crypto) (height : UInt64) (round : UInt32) (step : TendermintStep)
    (blockHash : Option Hash32) (validatorId : String) : Hash32 :=
  crypto.blake3 (utf8 "myelin:tendermint-vote" ++ le64 height ++ le32 round ++ [step.tag] ++
    (match blockHash with
      | some blockHash => 1 :: blockHash.val
      | none => [0]) ++ idBytes validatorId)

/-- The 64 signature bytes, or the validator's signature is invalid. -/
def signature64 (signature : List UInt8) (validatorId : String) :
    Except ConsensusError Signature64 :=
  okOr (FixedBytes.ofList? 64 signature) (.invalidSignature validatorId)

/-! ## The engine -/

/-- Tendermint validator set configuration. -/
structure TendermintConfig where
  validators : List CommitteeValidator
  /-- Voting power required for a decision. -/
  quorumPower : UInt64
  deriving DecidableEq

/-- Tendermint finality engine: a validated set whose quorum is the quorum power. -/
structure Tendermint (crypto : Crypto) where
  set : WeightedSet crypto

variable {vote : TendermintVote}

namespace Tendermint

/-- The configured validators. -/
abbrev validators (e : Tendermint crypto) : ValidatorMap crypto := e.set.validators

/-- Voting power required for a decision. -/
abbrev quorumPower (e : Tendermint crypto) : UInt64 := e.set.quorum

/-- Validate and build a Tendermint validator set. -/
def new (crypto : Crypto) (config : TendermintConfig) :
    Except ConsensusError (Tendermint crypto) := do
  let set ← WeightedSet.new crypto {
    quorumZero := "quorum_power must be non-zero"
    totalOverflow := "validator power overflow"
    noValidators := "weighted_precommit validator set must contain at least one validator"
    quorumTooHigh := "quorum_power exceeds total validator power"
  } config.validators config.quorumPower
  pure ⟨set⟩

variable (e : Tendermint crypto)

/-- The validators and quorum as a committee. -/
def committee : Committee String := e.validators.committee e.quorumPower.toNat

@[simp] lemma committee_quorum : e.committee.quorum = e.quorumPower.toNat := rfl

/-- Checked sum of all weights. -/
def totalPower : Except ConsensusError UInt64 :=
  e.validators.validators.foldlM
    (fun total validator =>
      okOr (checkedAdd total validator.weight) (.invalidConfig "validator power overflow")) 0

/-- The total always fits, since the constructor has added the same weights up. -/
lemma totalPower_ok : ∃ total, e.totalPower = .ok total ∧ total.toNat = e.committee.total := by
  have general : ∀ (list : List CommitteeValidator) (start : UInt64),
      start.toNat + (list.map (·.weight.toNat)).sum < 2 ^ 64 →
      ∃ total, list.foldlM (fun total validator => okOr (checkedAdd total validator.weight)
            (ConsensusError.invalidConfig "validator power overflow")) start = .ok total ∧
        total.toNat = start.toNat + (list.map (·.weight.toNat)).sum := by
    intro list
    induction list with
    | nil => intro start _; exact ⟨start, rfl, rfl⟩
    | cons validator rest ih =>
      intro start hfits
      rw [List.map_cons, List.sum_cons] at hfits
      have hstep : (start + validator.weight).toNat = start.toNat + validator.weight.toNat := by
        rw [UInt64.toNat_add]
        omega
      have hadd := checkedAdd_eq_some.mpr hstep
      obtain ⟨total, htotal, hsum⟩ := ih (start + validator.weight) (by omega)
      refine ⟨total, ?_, by rw [List.map_cons, List.sum_cons]; omega⟩
      rw [List.foldlM_cons, hadd]
      exact htotal
  obtain ⟨total, hok, hsum⟩ := general e.validators.validators 0
    (by simpa using e.validators.wellFormed.total_fits)
  refine ⟨total, hok, ?_⟩
  rw [committee, ValidatorMap.total_committee, ValidatorMap.totalWeight]
  simpa using hsum

/-- Target of the weighted rotation, then the first validator whose cumulative weight passes it. -/
def proposerLoop (target : UInt64) : UInt64 → List CommitteeValidator → Except ConsensusError String
  | _, [] => .error (.invalidTendermintState "proposer selection exhausted validator power")
  | cursor, validator :: rest => do
      let cursor ← okOr (checkedAdd cursor validator.weight)
        (.invalidConfig "validator power overflow")
      if target < cursor then .ok validator.id else proposerLoop target cursor rest

/-- Deterministic weighted proposer of a height and round; builds check sums for overflow. -/
def proposerId (height : UInt64) (round : UInt32) : Except ConsensusError String := do
  let totalPower ← e.totalPower
  let sum ← okOr (checkedAdd (height % totalPower) (round.toUInt64 % totalPower))
    (.panicked "attempt to add with overflow")
  proposerLoop (sum % totalPower) 0 (e.validators.validators.insertionSort (fun l r => l.id ≤ r.id))

/-- Proposer, valid-round and signature checks on a proposal. -/
def verifyProposal (proposal : TendermintProposal) : Except ConsensusError Unit := do
  let expected ← e.proposerId proposal.height proposal.round
  ensure (proposal.proposerId = expected)
    (ConsensusError.unexpectedProposer expected proposal.proposerId)
  ensure (proposal.validRound.all (· < proposal.round))
    (.invalidTendermintState "proposal valid_round must be lower than round")
  let validator ← okOr (e.validators.get? proposal.proposerId)
    (.unknownValidator proposal.proposerId)
  let signature ← signature64 proposal.signature proposal.proposerId
  let digest := proposalDigest crypto proposal.height proposal.round proposal.blockHash
    proposal.validRound proposal.proposerId
  ensure (verifySchnorr crypto validator.publicKey digest signature)
    (ConsensusError.invalidSignature proposal.proposerId)

/-- Membership and signature checks on a vote. -/
def verifyVote (vote : TendermintVote) : Except ConsensusError Unit := do
  let validator ← okOr (e.validators.get? vote.validatorId) (.unknownValidator vote.validatorId)
  let signature ← signature64 vote.signature vote.validatorId
  let digest := voteDigest crypto vote.height vote.round vote.step vote.blockHash vote.validatorId
  ensure (verifySchnorr crypto validator.publicKey digest signature)
    (ConsensusError.invalidSignature vote.validatorId)

/-- The quorum must exceed two thirds of the total power. -/
def validateTendermintQuorum : Except ConsensusError Unit := do
  let total ← e.totalPower
  let quorumTimesThree ← okOr (checkedMul e.quorumPower 3) (.invalidConfig "quorum power overflow")
  let totalTimesTwo ← okOr (checkedMul total 2) (.invalidConfig "validator power overflow")
  ensure (totalTimesTwo < quorumTimesThree) (.invalidConfig
    ("Tendermint quorum " ++ toString e.quorumPower ++
      " must be strictly greater than two-thirds of total power " ++ toString total))

variable {e}

/-- What `new_round_state` requires of the quorum. -/
lemma validateTendermintQuorum_ok (h : e.validateTendermintQuorum = .ok ()) :
    2 * e.committee.total < 3 * e.quorumPower.toNat := by
  obtain ⟨total, htotal, hsum⟩ := e.totalPower_ok
  simp only [validateTendermintQuorum, eq_ok, htotal, Except.ok.injEq, exists_eq_left',
    checkedMul_eq_some, UInt64.lt_iff_toNat_lt] at h
  obtain ⟨quorumTimesThree, hthree, totalTimesTwo, htwo, hlt⟩ := h
  have h3 : (3 : UInt64).toNat = 3 := rfl
  have h2 : (2 : UInt64).toNat = 2 := rfl
  rw [h3] at hthree
  rw [h2] at htwo
  omega

/-- A vote that verifies is by a configured validator. -/
lemma get?_of_verifyVote (h : e.verifyVote vote = .ok ()) :
    ∃ validator, e.validators.get? vote.validatorId = some validator := by
  simp only [verifyVote, eq_ok] at h
  obtain ⟨validator, hget, _⟩ := h
  exact ⟨validator, hget⟩

lemma mem_members_of_verifyVote (h : e.verifyVote vote = .ok ()) :
    vote.validatorId ∈ e.committee.members :=
  ValidatorMap.mem_members.mpr (get?_of_verifyVote h)

end Tendermint

/-! ## The tally -/

/-- The filter of the tally: votes of exactly this height, round, step and value. -/
def TendermintVote.isFor (height : UInt64) (round : UInt32) (step : TendermintStep)
    (blockHash : Option Hash32) (vote : TendermintVote) : Bool :=
  vote.height = height ∧ vote.round = round ∧ vote.step = step ∧ vote.blockHash = blockHash

namespace Tendermint

variable (e : Tendermint crypto)

/-- The loop of the tally over the matching votes. -/
def votePowerLoop : List String → UInt64 → List TendermintVote → Except ConsensusError UInt64
  | _, power, [] => .ok power
  | seen, power, vote :: rest => do
      e.verifyVote vote
      ensure (vote.validatorId ∉ seen) ConsensusError.duplicateValidator
      -- `self.validators[&id]`: verification has just looked the same id up
      let validator ← okOr (e.validators.get? vote.validatorId) (.unknownValidator vote.validatorId)
      let power ← okOr (checkedAdd power validator.weight) (.invalidConfig "vote power overflow")
      votePowerLoop (vote.validatorId :: seen) power rest

/-- Power of the votes for one height, round, step and value. -/
def votePower (votes : List TendermintVote) (height : UInt64) (round : UInt32)
    (step : TendermintStep) (blockHash : Option Hash32) : Except ConsensusError UInt64 :=
  e.votePowerLoop [] 0 (votes.filter (·.isFor height round step blockHash))

end Tendermint

/-- The validators that voted for one height, round, step and value. -/
def voters (votes : List TendermintVote) (height : UInt64) (round : UInt32)
    (step : TendermintStep) (blockHash : Option Hash32) : Finset String :=
  ((votes.filter (·.isFor height round step blockHash)).map (·.validatorId)).toFinset

variable {step : TendermintStep}

@[simp] lemma TendermintVote.isFor_iff :
    vote.isFor height round step blockHash = true ↔ vote.height = height ∧ vote.round = round ∧
      vote.step = step ∧ vote.blockHash = blockHash := by
  simp [TendermintVote.isFor]

variable {votes : List TendermintVote}

lemma mem_voters {id : String} :
    id ∈ voters votes height round step blockHash ↔
      ∃ vote ∈ votes, vote.isFor height round step blockHash = true ∧ vote.validatorId = id := by
  simp only [voters, List.mem_toFinset, List.mem_map, List.mem_filter, and_assoc]

/-- Retaining more votes keeps the voters. -/
lemma voters_mono (hsub : votes ⊆ votes') (height : UInt64) (round : UInt32)
    (step : TendermintStep) (blockHash : Option Hash32) :
    voters votes height round step blockHash ⊆ voters votes' height round step blockHash := by
  intro id hid
  obtain ⟨vote, hmem, hfor, rfl⟩ := mem_voters.mp hid
  exact mem_voters.mpr ⟨vote, hsub hmem, hfor, rfl⟩

namespace Tendermint

variable {e : Tendermint crypto}

/-- **The tally**: it succeeds exactly on verified votes of distinct validators, and then counts
    the power of those validators. -/
theorem votePower_eq_ok :
    e.votePower votes height round step blockHash = .ok p ↔
      (∀ vote ∈ votes, vote.isFor height round step blockHash = true → e.verifyVote vote = .ok ()) ∧
      ((votes.filter (·.isFor height round step blockHash)).map (·.validatorId)).Nodup ∧
      p.toNat = e.committee.power (voters votes height round step blockHash) := by
  rw [votePower, ValidatorMap.tally_eq_ok TendermintVote.validatorId
    (fun vote => e.verifyVote vote = .ok ()) e.votePowerLoop (fun _ _ => rfl)
    (fun seen power vote rest p => by
      simp only [votePowerLoop, eq_ok])
    (fun vote hverify => get?_of_verifyVote hverify) e.quorumPower.toNat]
  simp only [List.mem_filter, and_imp, voters, committee]

/-- Verified votes of distinct validators always have a tally: their power fits a word. -/
lemma exists_votePower (hverified : ∀ vote ∈ votes, vote.isFor height round step blockHash = true →
      e.verifyVote vote = .ok ())
    (hnodup : ((votes.filter (·.isFor height round step blockHash)).map (·.validatorId)).Nodup) :
    ∃ power, e.votePower votes height round step blockHash = .ok power := by
  have hfits : e.committee.power (voters votes height round step blockHash) < 2 ^ 64 := by
    refine lt_of_le_of_lt (e.committee.power_mono fun id hid => ?_)
      (e.validators.total_lt e.quorumPower.toNat)
    obtain ⟨vote, hmem, hfor, rfl⟩ := mem_voters.mp hid
    exact mem_members_of_verifyVote (hverified vote hmem hfor)
  exact ⟨_, votePower_eq_ok.mpr ⟨hverified, hnodup, toNat_word hfits⟩⟩

end Tendermint

/-! ## A concrete engine

  Four validators of weight one with quorum three, over a toy signature scheme in which signing is
  repeating the first byte of the key.  It shows that the hypotheses of later theorems can be met,
  and hosts the runs on which a property fails. -/

/-- A toy signature scheme. -/
def toyCrypto : Crypto :=
  { Crypto.accepting headBytes with
    schnorr := fun publicKey _ signature => signature.val.head? == publicKey.val.head?
    recoverPublicKey := fun _ signature => .ok (FixedBytes.fill 33 (signature.val.headD 0)) }

/-- A toy validator of weight one. -/
def toyValidator (id : String) (key : UInt8) : CommitteeValidator := ⟨id, FixedBytes.fill 32 key, 1⟩

lemma toyQuorum_ne_zero : (1 : UInt64) ≠ 0 := by decide

/-- Three of four. -/
def toyConfig : TendermintConfig where
  validators := [toyValidator "alice" 1, toyValidator "bob" 2, toyValidator "carol" 3,
    toyValidator "dave" 4]
  quorumPower := 3

/-- The engine `Tendermint::new` builds from `toyConfig`. -/
def toyEngine : Tendermint toyCrypto :=
  ⟨⟨⟨toyConfig.validators, by decide, by decide, by decide, fun _ _ => rfl, by decide⟩, 3, by decide,
    by decide⟩⟩

/-- A toy validator's vote at height 8. -/
def toyVote (id : String) (key : UInt8) (round : UInt32) (step : TendermintStep)
    (blockHash : Option Hash32) : TendermintVote :=
  ⟨8, round, step, blockHash, id, List.replicate 64 key⟩

example : Tendermint.new toyCrypto toyConfig = .ok toyEngine := rfl

end Myelin.Consensus
