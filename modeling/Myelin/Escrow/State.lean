/-
  The conserved ledger: one balance per participant, in the order of the terms.

  A ledger is stored as the data of one cell (`encode`, `decode`) and moves from epoch to epoch
  through `validateSuccessor`.  **`EscrowState.valid_of_validate`** reads the validator's loop: it
  carries two running sums, and what it accepts has the participants of the terms in their order,
  balances that add up to the deposits, and no participant below deposit minus maximum debit.
-/
import Myelin.Escrow.Terms
import Myelin.Lib.Reader

namespace Myelin.Escrow

open Lib Exec Consensus
open EscrowError (invalidState)

/-- Participant balance. -/
structure ParticipantBalance where
  participantId : Hash32
  balance : U128
  deriving DecidableEq

/-- Conserved state stored as full data of one ledger cell. -/
structure EscrowState where
  sessionId : Hash32
  termsHash : Hash32
  /-- Update number. -/
  epoch : UInt64
  /-- Hash of the previous state, or zero for genesis. -/
  previousStateHash : Hash32
  ledger : List ParticipantBalance
  /-- Application evidence root of this update. -/
  applicationEvidenceRoot : Hash32
  deriving DecidableEq

/-- A payable balance covers its payout cell. -/
def checkBalanceMinimum (asset : AssetDescriptor) (balance : ParticipantBalance)
    (participant : EscrowParticipant) : Except EscrowError Unit :=
  match asset with
  | .typedToken _ => .ok ()
  | .ckbCapacity =>
      if balance.balance = 0 then .ok ()
      else do
        let minimum ← (minimumCkbCapacityShannons participant.payoutLock none 0).mapError
          invalidState
        ensure (minimum.toNat ≤ balance.balance.toNat) (invalidState
          ("participant " ++ debugBytes participant.participantId.val ++
            s!" has a non-zero CKB balance below the {minimum} shannon payout minimum"))

/-- One pass over balances and participants with both running totals. -/
def validateBalances (asset : AssetDescriptor) (initialTotal currentTotal : U128) :
    List (ParticipantBalance × EscrowParticipant) → Except EscrowError (U128 × U128)
  | [] => .ok (initialTotal, currentTotal)
  | (balance, participant) :: rest => do
      ensure (balance.participantId = participant.participantId)
        (invalidState "ledger identities are not in canonical terms order")
      let initialTotal ← okOr (checkedAdd128 initialTotal participant.deposit) .amountOverflow
      let currentTotal ← okOr (checkedAdd128 currentTotal balance.balance) .amountOverflow
      -- `saturating_sub`: a participant above its deposit has lost nothing
      ensure (participant.deposit.toNat - balance.balance.toNat ≤ participant.maxDebit.toNat)
        (invalidState
          ("participant " ++ debugBytes participant.participantId.val ++ " exceeds max debit"))
      checkBalanceMinimum asset balance participant
      validateBalances asset initialTotal currentTotal rest

namespace EscrowState

/-- Validate conservation, identities, ordering and debit caps. -/
def validate (crypto : Crypto) (state : EscrowState) (terms : EscrowTerms) :
    Except EscrowError Unit := do
  terms.validate crypto
  let termsHash ← terms.hash crypto
  ensure (state.sessionId = terms.sessionId ∧ state.termsHash = termsHash)
    (invalidState "state is bound to different terms")
  ensure (state.ledger.length = terms.participants.length)
    (invalidState "ledger participant count mismatch")
  let (initialTotal, currentTotal) ← validateBalances terms.asset 0 0
    (state.ledger.zip terms.participants)
  ensure (initialTotal = currentTotal) (invalidState "ledger does not conserve deposited assets")

/-! ## Encoding -/

def balanceBytes (balance : ParticipantBalance) : List UInt8 :=
  balance.participantId.val ++ le128 balance.balance

/-- State data stored in the ledger cell. -/
def encode (state : EscrowState) : Except EscrowError (List UInt8) := do
  ensure (state.ledger.length < 2 ^ 32) (EscrowError.codec "too many balances")
  pure (utf8 "MESC" ++ le16 1 ++ state.sessionId.val ++ state.termsHash.val ++ le64 state.epoch ++
    state.previousStateHash.val ++ state.applicationEvidenceRoot.val ++
    leBytes 4 state.ledger.length ++ state.ledger.flatMap balanceBytes)

/-- Hash of the encoded state under its domain. -/
def hash (crypto : Crypto) (state : EscrowState) : Except EscrowError Hash32 := do
  let bytes ← state.encode
  pure (crypto.blake3 (utf8 "myelin:session-escrow:state" ++ bytes))

def truncated : EscrowError := .codec "truncated escrow state"

/-- The next 32 bytes. -/
def readHash : Reader EscrowError Hash32 := fun input =>
  if h : input.length < 32 then .error truncated
  else .ok (⟨input.take 32, by rw [List.length_take]; omega⟩, input.drop 32)

def readBalances : Nat → Reader EscrowError (List ParticipantBalance)
  | 0 => pure []
  | count + 1 => do
      let participantId ← readHash
      let balance ← Reader.readLe truncated 16 (BitVec.ofNat 128)
      let rest ← readBalances count
      pure (⟨participantId, balance⟩ :: rest)

def readState : Reader EscrowError EscrowState := do
  let magic ← Reader.take truncated 4
  Reader.lift (ensure (magic = utf8 "MESC") (EscrowError.codec "wrong escrow state magic"))
  let version ← Reader.readLe truncated 2 UInt16.ofNat
  Reader.lift (ensure (version = 1)
    (EscrowError.codec s!"unsupported escrow state version {version}"))
  let sessionId ← readHash
  let termsHash ← readHash
  let epoch ← Reader.readLe truncated 8 UInt64.ofNat
  let previousStateHash ← readHash
  let applicationEvidenceRoot ← readHash
  let count ← Reader.readLe truncated 4 UInt32.ofNat
  Reader.lift (ensure (count ≠ 0 ∧ count.toNat ≤ maxParticipants)
    (EscrowError.codec "invalid escrow ledger count"))
  let ledger ← readBalances count.toNat
  pure ⟨sessionId, termsHash, epoch, previousStateHash, ledger, applicationEvidenceRoot⟩

/-- Decode state data; nothing may follow it. -/
def decode (bytes : List UInt8) : Except EscrowError EscrowState := do
  let (state, remaining) ← readState bytes
  ensure (remaining = []) (EscrowError.codec "trailing escrow state bytes")
  pure state

/-! ## Succession -/

/-- Validate exact successor linkage and terms invariants. -/
def validateSuccessor (crypto : Crypto) (state next : EscrowState) (terms : EscrowTerms) :
    Except EscrowError Unit := do
  state.validate crypto terms
  next.validate crypto terms
  let epoch ← okOr (checkedAdd state.epoch 1) EscrowError.amountOverflow
  ensure (next.epoch = epoch) (invalidState "escrow epoch must increment by one")
  let hash ← state.hash crypto
  ensure (next.previousStateHash = hash)
    (invalidState "escrow successor is not linked to the exact prior state")
  ensure (next.applicationEvidenceRoot ≠ FixedBytes.fill 32 0)
    (invalidState "economic update must carry application evidence")

/-! ## What a valid ledger satisfies -/

/-- Balances against the terms they are held under. -/
structure Valid (crypto : Crypto) (state : EscrowState) (terms : EscrowTerms) : Prop where
  session : state.sessionId = terms.sessionId
  termsHash : terms.hash crypto = .ok state.termsHash
  length : state.ledger.length = terms.participants.length
  identities : state.ledger.map (·.participantId) = terms.participants.map (·.participantId)
  /-- The balances add up to the deposits. -/
  conserved : (state.ledger.map (·.balance.toNat)).sum =
    (terms.participants.map (·.deposit.toNat)).sum
  /-- Nobody has lost more than the maximum debit. -/
  debits : ∀ pair ∈ state.ledger.zip terms.participants,
    pair.2.deposit.toNat ≤ pair.1.balance.toNat + pair.2.maxDebit.toNat

/-- The next state of a ledger. -/
structure Succeeds (crypto : Crypto) (state next : EscrowState) : Prop where
  epoch : next.epoch.toNat = state.epoch.toNat + 1
  linked : state.hash crypto = .ok next.previousStateHash

section Valid

variable {crypto : Crypto} {terms : EscrowTerms} {state next : EscrowState}

lemma validateBalances_ok {pairs : List (ParticipantBalance × EscrowParticipant)}
    (h : validateBalances asset initial current pairs = .ok (initial', current')) :
    (∀ pair ∈ pairs, pair.1.participantId = pair.2.participantId ∧
      pair.2.deposit.toNat ≤ pair.1.balance.toNat + pair.2.maxDebit.toNat) ∧
    initial'.toNat = initial.toNat + (pairs.map (·.2.deposit.toNat)).sum ∧
    current'.toNat = current.toNat + (pairs.map (·.1.balance.toNat)).sum := by
  induction pairs generalizing initial current with
  | nil =>
    obtain ⟨rfl, rfl⟩ := Prod.mk.inj (Except.ok.inj h)
    simp
  | cons pair rest ih =>
    simp only [validateBalances, eq_ok] at h
    obtain ⟨hsame, initialNext, hinitial, currentNext, hcurrent, hdebit, _, hrest⟩ := h
    obtain ⟨hall, hinitial', hcurrent'⟩ := ih hrest
    rw [checkedAdd128_eq_some] at hinitial hcurrent
    refine ⟨List.forall_mem_cons.mpr ⟨⟨hsame, by omega⟩, hall⟩, ?_, ?_⟩
    · rw [hinitial', hinitial, List.map_cons, List.sum_cons, Nat.add_assoc]
    · rw [hcurrent', hcurrent, List.map_cons, List.sum_cons, Nat.add_assoc]

lemma valid_of_validate (h : state.validate crypto terms = .ok ()) : state.Valid crypto terms := by
  simp only [EscrowState.validate, eq_ok, Prod.exists] at h
  obtain ⟨_, termsHash, hhash, ⟨hsession, rfl⟩, hlength, initial, current, hbalances, rfl⟩ := h
  obtain ⟨hall, hinitial, hcurrent⟩ := validateBalances_ok hbalances
  refine ⟨hsession, hhash, hlength, ?_, ?_, fun pair hpair => (hall pair hpair).2⟩
  · exact map_eq_map_of_zip hlength fun pair hpair => (hall pair hpair).1
  · -- both running totals started at zero and ended equal
    have hledger := List.map_fst_zip hlength.le
    have hparticipants := List.map_snd_zip hlength.ge
    calc (state.ledger.map (·.balance.toNat)).sum
        = (((state.ledger.zip terms.participants).map (·.1)).map (·.balance.toNat)).sum := by
          rw [hledger]
      _ = initial.toNat := by rw [List.map_map, hcurrent]; exact (Nat.zero_add _).symm
      _ = (((state.ledger.zip terms.participants).map (·.2)).map (·.deposit.toNat)).sum := by
          rw [List.map_map, hinitial]; exact Nat.zero_add _
      _ = (terms.participants.map (·.deposit.toNat)).sum := by rw [hparticipants]

lemma validateSuccessor_ok (h : state.validateSuccessor crypto next terms = .ok ()) :
    state.validate crypto terms = .ok () ∧ next.validate crypto terms = .ok () ∧
      state.Succeeds crypto next := by
  simp only [validateSuccessor, eq_ok, checkedAdd_eq_some] at h
  obtain ⟨hvalid, hnext, epoch, hepoch, hsame, hash, hhash, hlinked, _⟩ := h
  refine ⟨hvalid, hnext, ?_, hlinked ▸ hhash⟩
  rw [hsame, hepoch]
  rfl

end Valid

end EscrowState

end Myelin.Escrow
