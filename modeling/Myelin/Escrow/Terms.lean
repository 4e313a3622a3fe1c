/-
  Escrow terms: who takes part, what each has deposited and may lose, and where it is paid out.

  `validate` is the source's own list of checks, in its order.  What later files need of it is in
  `EscrowTerms.Valid`: participants strictly ordered, deposits paired with participants and at
  different outpoints, and, for native capacity, deposits that cover the payout cell.
-/
import Myelin.Consensus.Types
import Myelin.Exec.CellTx
import Myelin.Lib.Lists

namespace Myelin.Escrow

open Lib Exec Consensus

/-- Escrow failures.  Finality and CKB failures carry their own layer's text. -/
inductive EscrowError where
  | invalidTerms (message : String)
  | authorization (message : String)
  | invalidState (message : String)
  | invalidTransition (message : String)
  | openEvidence (message : String)
  | invalidExit (message : String)
  | unsupportedAsset (message : String)
  | amountOverflow
  | codec (message : String)
  | consensus (message : String)
  | ckb (message : String)
  deriving DecidableEq

open EscrowError (invalidTerms)

/-- The error's text. -/
def EscrowError.display : EscrowError → String
  | .invalidTerms message => "invalid escrow terms: " ++ message
  | .authorization message => "escrow authorization failed: " ++ message
  | .invalidState message => "invalid escrow state: " ++ message
  | .invalidTransition message => "invalid escrow transition: " ++ message
  | .openEvidence message => "invalid escrow open evidence: " ++ message
  | .invalidExit message => "invalid escrow exit: " ++ message
  | .unsupportedAsset message => "unsupported escrow asset: " ++ message
  | .amountOverflow => "escrow amount overflow"
  | .codec message => "escrow codec failed: " ++ message
  | .consensus message => "Myelin consensus proof failed: " ++ message
  | .ckb message => "CKB evidence failed: " ++ message

/-! ## Occupied capacity -/

def shannonsPerCkb : UInt64 := 100000000

/-- Bytes a cell occupies, computed on `usize`. -/
def occupiedBytes (lock : Script) (typeScript : Option Script) (dataLen : Nat) :
    Except String Nat := do
  let lockBytes ← okOr (checkedAddSize 33 lock.args.length) "CKB lock script size overflow"
  let typeBytes ← match typeScript with
    | none => pure 0
    | some script => okOr (checkedAddSize 33 script.args.length) "CKB type script size overflow"
  okOr (((checkedAddSize 8 lockBytes).bind (checkedAddSize · typeBytes)).bind
    (checkedAddSize · dataLen)) "CKB occupied capacity size overflow"

/-- Shannons a cell must hold. -/
def minimumCkbCapacityShannons (lock : Script) (typeScript : Option Script) (dataLen : Nat) :
    Except String UInt64 := do
  let occupied ← occupiedBytes lock typeScript dataLen
  okOr (checkedMul (UInt64.ofNat occupied) shannonsPerCkb)
    "CKB occupied capacity exceeds u64 shannons"

/-- Shannons of a cell without a type script or data: capacity field, lock and its arguments. -/
lemma minimum_eq_ok :
    minimumCkbCapacityShannons lock none 0 = .ok minimum ↔
      minimum.toNat = (41 + lock.args.length) * 100000000 := by
  simp only [minimumCkbCapacityShannons, occupiedBytes, eq_ok, Option.bind_eq_some_iff,
    checkedAddSize_eq_some, checkedMul_eq_some]
  have hrate : shannonsPerCkb.toNat = 100000000 := rfl
  have hbound := minimum.toNat_lt
  constructor
  · rintro ⟨occupied, ⟨lockBytes, ⟨rfl, _⟩, _, rfl, _, ⟨_, ⟨rfl, _⟩, rfl, _⟩, rfl, hfits⟩, hmul⟩
    rw [hmul, hrate, toNat_word hfits]
    omega
  · intro hminimum
    refine ⟨41 + lock.args.length, ⟨33 + lock.args.length, ⟨rfl, by omega⟩, 0, rfl,
      41 + lock.args.length, ⟨41 + lock.args.length, ⟨by omega, by omega⟩, by omega, by omega⟩,
      by omega, by omega⟩, ?_⟩
    rw [hminimum, hrate, toNat_word (by omega)]

/-! ## Terms -/

/-- Asset held by an escrow. -/
inductive AssetDescriptor where
  /-- Native capacity in shannons. -/
  | ckbCapacity
  /-- A fungible token identified by its type-script hash. -/
  | typedToken (typeScriptHash : Hash32)
  deriving DecidableEq

/-- Participant authorization and bounded exposure. -/
structure EscrowParticipant where
  participantId : Hash32
  authorizationRole : List UInt8
  authorizationKey : Hash32
  payoutLock : Script
  deposit : U128
  /-- Maximum loss relative to the deposit. -/
  maxDebit : U128
  deriving DecidableEq

/-- One escrow output created by the open transaction. -/
structure EscrowDeposit where
  participantId : Hash32
  outpoint : OutPoint
  deriving DecidableEq

/-- Immutable escrow terms. -/
structure EscrowTerms where
  sessionId : Hash32
  participants : List EscrowParticipant
  deposits : List EscrowDeposit
  asset : AssetDescriptor
  sessionStartDeadlineMs : UInt64
  sessionExpiryMs : UInt64
  challengeWindowMs : UInt64
  minConfirmations : UInt64
  escrowLockScriptHash : Hash32
  ledgerTypeScript : Script
  deriving DecidableEq

def maxParticipants : Nat := 4096

def maxRoleBytes : Nat := 4096

/-- Deposits of native capacity cover the payout cell. -/
def checkDepositMinimum (asset : AssetDescriptor) (participant : EscrowParticipant) :
    Except EscrowError Unit :=
  match asset with
  | .typedToken _ => .ok ()
  | .ckbCapacity => do
      let minimum ← (minimumCkbCapacityShannons participant.payoutLock none 0).mapError invalidTerms
      ensure (minimum.toNat ≤ participant.deposit.toNat) (invalidTerms
        ("CKB capacity deposit for participant " ++ debugBytes participant.participantId.val ++
          s!" is below the {minimum} shannon payout minimum"))

/-- One pass over the participants; `previous` and `keys` are what was seen so far. -/
def validateParticipants (crypto : Crypto) (asset : AssetDescriptor) (previous : Option Hash32)
    (keys : List Hash32) : List EscrowParticipant → Except EscrowError Unit
  | [] => .ok ()
  | participant :: rest => do
      ensure (∀ value ∈ previous, value.val < participant.participantId.val)
        (invalidTerms "participants must be strictly ordered")
      ensure (participant.authorizationRole ≠ [] ∧
          participant.authorizationRole.length ≤ maxRoleBytes)
        (invalidTerms "authorization role is empty or too large")
      (crypto.parseXOnlyPublicKey participant.authorizationKey).mapError fun error =>
        invalidTerms ("participant authorization key is invalid: " ++ error)
      ensure (participant.authorizationKey ∉ keys)
        (invalidTerms "participant authorization keys must be unique")
      ensure (participant.deposit ≠ 0 ∧ participant.maxDebit.toNat ≤ participant.deposit.toNat)
        (invalidTerms "deposit must be non-zero and max_debit <= deposit")
      checkDepositMinimum asset participant
      validateParticipants crypto asset (some participant.participantId)
        (participant.authorizationKey :: keys) rest

/-- Deposits follow the participants and use different outpoints. -/
def validateDeposits (outpoints : List OutPoint) :
    List (EscrowParticipant × EscrowDeposit) → Except EscrowError Unit
  | [] => .ok ()
  | pair :: rest => do
      ensure (pair.1.participantId = pair.2.participantId)
        (invalidTerms "deposits must follow participant ordering")
      ensure (pair.2.outpoint ∉ outpoints) (invalidTerms "escrow outpoints must be unique")
      validateDeposits (pair.2.outpoint :: outpoints) rest

namespace EscrowTerms

/-- Validate ordering, keys, bounds and one-to-one deposits. -/
def validate (crypto : Crypto) (terms : EscrowTerms) : Except EscrowError Unit := do
  ensure (terms.sessionId ≠ FixedBytes.fill 32 0) (invalidTerms "session_id must not be zero")
  ensure (terms.participants ≠ [] ∧ terms.participants.length ≤ maxParticipants)
    (invalidTerms "participant count must be 1..=4096")
  ensure (terms.deposits.length = terms.participants.length)
    (invalidTerms "each participant must have exactly one escrow deposit")
  ensure (terms.sessionStartDeadlineMs < terms.sessionExpiryMs)
    (invalidTerms "session expiry must be later than start deadline")
  ensure (terms.challengeWindowMs ≠ 0 ∧ terms.minConfirmations ≠ 0)
    (invalidTerms "challenge window and confirmations must be non-zero")
  ensure (terms.escrowLockScriptHash ≠ FixedBytes.fill 32 0)
    (invalidTerms "escrow lock script hash must not be zero")
  validateParticipants crypto terms.asset none [] terms.participants
  validateDeposits [] (terms.participants.zip terms.deposits)
  ensure (terms.asset ≠ .typedToken (FixedBytes.fill 32 0))
    (invalidTerms "typed-token script hash must not be zero")

/-- A byte string with its length. -/
def lengthPrefixed (bytes : List UInt8) : List UInt8 := leBytes 8 bytes.length ++ bytes

def participantBytes (participant : EscrowParticipant) : List UInt8 :=
  participant.participantId.val ++ lengthPrefixed participant.authorizationRole ++
    participant.authorizationKey.val ++
    lengthPrefixed (serializeScriptMolecule participant.payoutLock) ++
    le128 participant.deposit ++ le128 participant.maxDebit

def depositBytes (deposit : EscrowDeposit) : List UInt8 :=
  deposit.participantId.val ++ deposit.outpoint.txHash.val ++ le32 deposit.outpoint.index

def assetBytes : AssetDescriptor → List UInt8
  | .ckbCapacity => [0]
  | .typedToken typeScriptHash => 1 :: typeScriptHash.val

/-- What the terms commitment hashes. -/
def preimage (terms : EscrowTerms) : List UInt8 :=
  utf8 "myelin:session-escrow:terms" ++ terms.sessionId.val ++
    leBytes 4 terms.participants.length ++ terms.participants.flatMap participantBytes ++
    terms.deposits.flatMap depositBytes ++ assetBytes terms.asset ++
    le64 terms.sessionStartDeadlineMs ++ le64 terms.sessionExpiryMs ++
    le64 terms.challengeWindowMs ++ le64 terms.minConfirmations ++
    terms.escrowLockScriptHash.val ++
    lengthPrefixed (serializeScriptMolecule terms.ledgerTypeScript)

/-- Commitment signed by every participant. -/
def hash (crypto : Crypto) (terms : EscrowTerms) : Except EscrowError Hash32 := do
  terms.validate crypto
  pure (crypto.blake3 terms.preimage)

/-- What valid terms satisfy. -/
structure Valid (terms : EscrowTerms) : Prop where
  length : terms.deposits.length = terms.participants.length
  ordered : (terms.participants.map (·.participantId.val)).Pairwise (· < ·)
  paired : terms.participants.map (·.participantId) = terms.deposits.map (·.participantId)
  outpoints : (terms.deposits.map (·.outpoint)).Nodup
  exposure : ∀ participant ∈ terms.participants,
    participant.deposit ≠ 0 ∧ participant.maxDebit.toNat ≤ participant.deposit.toNat

end EscrowTerms

/-! ## What valid terms satisfy -/

section Valid

variable {crypto : Crypto} {terms : EscrowTerms}

lemma validateParticipants_ok
    (h : validateParticipants crypto asset previous keys participants = .ok ()) :
    (participants.map (·.participantId.val)).Pairwise (· < ·) ∧
    (∀ value ∈ previous, ∀ participant ∈ participants, value.val < participant.participantId.val) ∧
    ∀ participant ∈ participants,
      participant.deposit ≠ 0 ∧ participant.maxDebit.toNat ≤ participant.deposit.toNat := by
  induction participants generalizing previous keys with
  | nil => simp
  | cons participant rest ih =>
    simp only [validateParticipants, eq_ok] at h
    obtain ⟨hprevious, _, _, _, hexposure, _, hrest⟩ := h
    obtain ⟨hordered, hlater, hall⟩ := ih hrest
    have hafter := hlater participant.participantId rfl
    refine ⟨?_, fun value hvalue => ?_, List.forall_mem_cons.mpr ⟨hexposure, hall⟩⟩
    · exact List.pairwise_cons.mpr ⟨List.forall_mem_map.mpr hafter, hordered⟩
    · have hfirst := hprevious value hvalue
      exact List.forall_mem_cons.mpr ⟨hfirst, fun next hnext => hfirst.trans (hafter next hnext)⟩

lemma validateDeposits_ok (h : validateDeposits outpoints pairs = .ok ()) :
    (∀ pair ∈ pairs, pair.1.participantId = pair.2.participantId) ∧
    (pairs.map (·.2.outpoint)).Nodup ∧ ∀ pair ∈ pairs, pair.2.outpoint ∉ outpoints := by
  induction pairs generalizing outpoints with
  | nil => simp
  | cons pair rest ih =>
    simp only [validateDeposits, eq_ok] at h
    obtain ⟨hsame, hnew, hrest⟩ := h
    obtain ⟨hall, hnodup, hseen⟩ := ih hrest
    refine ⟨List.forall_mem_cons.mpr ⟨hsame, hall⟩, List.nodup_cons.mpr ⟨?_, hnodup⟩,
      List.forall_mem_cons.mpr ⟨hnew, fun later hlater hold => ?_⟩⟩
    · intro hmem
      obtain ⟨later, hlater, hpoint⟩ := List.mem_map.mp hmem
      exact hseen later hlater (hpoint ▸ List.mem_cons_self)
    · exact hseen later hlater (List.mem_cons_of_mem _ hold)

lemma EscrowTerms.valid_of_validate (h : terms.validate crypto = .ok ()) : terms.Valid := by
  simp only [EscrowTerms.validate, eq_ok] at h
  obtain ⟨_, _, hlength, _, _, _, hparticipants, hdeposits, _⟩ := h
  obtain ⟨hordered, _, hexposure⟩ := validateParticipants_ok hparticipants
  obtain ⟨hpaired, hnodup, _⟩ := validateDeposits_ok hdeposits
  refine ⟨hlength, hordered, ?_, ?_, hexposure⟩
  · exact map_eq_map_of_zip hlength.symm hpaired
  · rw [← List.map_snd_zip hlength.le, List.map_map]
    exact hnodup

lemma EscrowTerms.hash_eq_ok {hash : Hash32} :
    terms.hash crypto = .ok hash ↔
      terms.validate crypto = .ok () ∧ hash = crypto.blake3 terms.preimage := by
  simp only [EscrowTerms.hash, eq_ok]
  exact and_congr_right fun _ => eq_comm

end Valid

end Myelin.Escrow
