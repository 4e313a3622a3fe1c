/-
  Which journal states are valid, and how they are written down.

  Every update validates the whole next state; reading a record back validates it again.  The two
  differ in one point: an update does not repeat the signature checks of recovery evidence that
  stands unchanged at the same place.  `validate_of_update` says that nothing is lost by it, since
  the state the evidence was in before was itself valid.
-/
import Myelin.Journal.Types

namespace Myelin.Journal

open Lib Consensus Session Myelin.Authority

variable (env : JournalEnv)
variable (state : State)

/-- Head a reservation was built on. -/
def Reservation.baseHead (reservation : Reservation) : Except JournalError SessionHead :=
  (SessionHead.decode env.authority reservation.constructionHead).mapError
    fun error => .invalid error.display

/-- Whether a reservation was built on exactly this head. -/
def Reservation.validateBase (reservation : Reservation) (head : SessionHead) :
    Except JournalError Unit := do
  let base ← reservation.baseHead env
  ensure (base = head) (.conflict "construction head is stale; rebuild the same intent")

/-- The entry of a command. -/
def findEntry (entries : List JournalEntry) (id : Hash32) : Except JournalError JournalEntry :=
  okOr (entries.find? (·.id = id)) (.conflict "unknown command")

/-- The reservation, if it has this token. -/
def findReservation (token : UInt64) : Except JournalError Reservation :=
  okOr (state.reservation.filter (·.token = token)) (.conflict "unknown reservation token")

/-! ## Validation -/

/-- Scope, identity and sizes of an original command. -/
def validateCommand (command : OriginalCommand) : Except JournalError Unit :=
  ensure (command.scope = state.scope ∧ command.identity.id ≠ zeroHash ∧
      command.identity.payloadHash ≠ zeroHash ∧ command.canonicalCommand ≠ [] ∧
      command.canonicalCommand.length ≤ state.limits.maxCommandBytes ∧
      command.authenticationContext.length ≤ state.limits.maxAuthorizationBytes ∧
      command.authorization.length ≤ state.limits.maxAuthorizationBytes)
    (.invalid "command scope/identity or size invalid")

/-- A status against the reservation, or against the receipt it carries. -/
def validateStatus (entry : JournalEntry) : Except JournalError Unit :=
  match entry.status with
  | .reserved token phase => do
      let reservation ← findReservation state token
      ensure (entry.id ∈ reservation.commandIds ∧ reservation.phase = phase)
        (.invalid "reservation/entry mismatch")
  | .committed receipt outcome acknowledged =>
      ensure (receipt.sessionId = state.scope.sessionId ∧
          receipt.command = entry.original.identity ∧ ¬(acknowledged ∧ outcome = none) ∧
          ∀ value ∈ outcome, value.len ≤ state.limits.maxResultBytes)
        (.invalid "committed receipt/result mismatch")
  | .identityConflict receipt =>
      ensure (receipt.sessionId = state.scope.sessionId ∧ receipt.command.id = entry.id ∧
          receipt.command.payloadHash ≠ entry.original.identity.payloadHash)
        (.invalid "identity conflict receipt mismatch")
  | .queued | .stale _ | .rejected _ => .ok ()

/-- Entries are numbered in order, have distinct identities and sound statuses. -/
def validateEntries (state : State) : Nat → List Hash32 → List JournalEntry →
    Except JournalError Unit
  | _, _, [] => .ok ()
  | index, ids, entry :: rest => do
      validateCommand state entry.original
      ensure (entry.sequence = UInt64.ofNat index ∧ entry.id ∉ ids ∧ entry.authorizationDigest =
            entry.original.authorizationDigest env.authority.session)
        (.invalid "journal order, identity or authorization digest invalid")
      validateStatus state entry
      validateEntries state (index + 1) (entry.id :: ids) rest

/-- Whether an entry is held by this reservation. -/
def JournalEntry.HeldBy (entry : JournalEntry) (token : UInt64) : Prop :=
  match entry.status with
  | .reserved t _ => t = token
  | _ => False

instance (entry : JournalEntry) (token : UInt64) : Decidable (entry.HeldBy token) := by
  unfold JournalEntry.HeldBy
  split <;> infer_instance

/-- Whether the canonical chain has answered for a command. -/
def EntryStatus.Answered : EntryStatus → Prop
  | .committed _ _ _ | .identityConflict _ => True
  | _ => False

instance (status : EntryStatus) : Decidable status.Answered := by
  unfold EntryStatus.Answered
  split <;> infer_instance

namespace FencedSubmission

/-- The request is of this journal's policy and covers exactly these commands. -/
def validateStructure (submission : FencedSubmission) (state : State) (ids : List Hash32) :
    Except JournalError Unit := do
  ensure (submission.policy.sessionId = state.scope.sessionId ∧
      state.fencingPolicy = some submission.policy ∧
      submission.policy.genesisCommitment = state.scope.genesisCommitment ∧
      submission.commands.length = ids.length ∧ submission.commands ≠ [] ∧
      submission.commands.length ≤ 256)
    (.invalid "fenced submission scope/command count differs")
  ensure (∀ pair ∈ submission.commands.zip ids, pair.1.id = pair.2 ∧
      ∃ entry ∈ state.entries, entry.original.identity = pair.1)
    (.invalid "fenced request does not cover original journal identities")

/-- Structure and signature of a request. -/
def validate (submission : FencedSubmission) (state : State) (ids : List Hash32) :
    Except JournalError Unit := do
  submission.validateStructure state ids
  (submission.authorization.verifyBinding env.authority submission.policy
    submission.grant).mapError reconciliationFailure

end FencedSubmission

/-- A reservation against the entries it holds. -/
def validateReservation (reservation : Reservation) : Except JournalError Unit := do
  let head ← reservation.baseHead env
  ensure (reservation.token ≠ 0 ∧ reservation.token < state.nextToken ∧
      reservation.commandIds ≠ [] ∧ reservation.commandIds.length = reservation.work.length ∧
      reservation.commandIds.Nodup ∧ head.sessionId = state.scope.sessionId ∧
      head.sealedBySuccessor = none ∧
      (∀ work ∈ reservation.work, work ≠ [] ∧ work.length ≤ state.limits.maxCommandBytes) ∧
      (∀ id ∈ reservation.commandIds, ∃ entry ∈ state.entries, entry.id = id ∧
        (entry.HeldBy reservation.token ∨ entry.status.Answered)) ∧
      ∃ entry ∈ state.entries, entry.HeldBy reservation.token)
    (.invalid "reservation content invalid")
  match reservation.fencedSubmission with
  | none => pure ()
  | some binding => do
      binding.validate env state reservation.commandIds
      ensure (reservation.phase ≠ .held ∧
          binding.authorization.baseHead = reservation.constructionHead)
        (.invalid "fenced submission phase/construction head mismatch")

/-- The signed evidence of one recovery. -/
def FencedRecovery.verifyEvidence (recovery : FencedRecovery) : Except JournalError Unit := do
  (recovery.submission.authorization.verifyBinding env.authority recovery.submission.policy
    recovery.submission.grant).mapError reconciliationFailure
  let _ ← (recovery.certificate.verify env.authority recovery.submission.policy
    recovery.submission.authorization recovery.submission.commands).mapError reconciliationFailure
  pure ()

/-- `previous` is the verified in-memory state held under the journal mutex, never a persisted
    verification flag. -/
def VerifiedUnchanged (previous : Option State) (index : Nat) (recovery : FencedRecovery) : Prop :=
  ∃ old ∈ previous, old.scope = state.scope ∧ old.fencingPolicy = state.fencingPolicy ∧
    old.reconciliations[index]? = some recovery

instance (state : State) (previous : Option State) (index : Nat) (recovery : FencedRecovery) :
    Decidable (VerifiedUnchanged state previous index recovery) := by
  unfold VerifiedUnchanged
  infer_instance

/-- Verify evidence that is not known to have been verified. -/
def checkEvidence (previous : Option State) (index : Nat) (recovery : FencedRecovery) :
    Except JournalError Unit :=
  if VerifiedUnchanged state previous index recovery then .ok () else recovery.verifyEvidence env

/-- One retained recovery, and the submission its reservation is known to have made. -/
def validateRecovery (previous : Option State) (index : Nat) (bindings : UInt64 → Option Hash32)
    (recovery : FencedRecovery) : Except JournalError (UInt64 → Option Hash32) := do
  ensure (recovery.reservationToken ≠ 0 ∧ recovery.reservationToken < state.nextToken)
    (.invalid "invalid recovery reservation token")
  recovery.submission.validateStructure state (recovery.submission.commands.map (·.id))
  checkEvidence env state previous index recovery
  let digest ←
    (recovery.submission.authorization.digest env.authority).mapError reconciliationFailure
  ensure (∀ known ∈ bindings recovery.reservationToken, known = digest)
    (.invalid "reservation has contradictory signed submissions")
  pure (Function.update bindings recovery.reservationToken (some digest))

/-- The retained recoveries, in order. -/
def validateRecoveryList (state : State) (previous : Option State) : Nat →
    (UInt64 → Option Hash32) → List FencedRecovery → Except JournalError Unit
  | _, _, [] => .ok ()
  | index, bindings, recovery :: rest => do
      let bindings ← validateRecovery env state previous index bindings recovery
      validateRecoveryList state previous (index + 1) bindings rest

/-- The pinned policy and the retained recoveries. -/
def validateRecoveries (previous : Option State) : Except JournalError Unit := do
  ensure (∀ policy ∈ state.fencingPolicy, policy.sessionId = state.scope.sessionId ∧
      policy.genesisCommitment = state.scope.genesisCommitment)
    (.invalid "stored fencing policy scope differs")
  ensure (state.reconciliations.length ≤ state.limits.maxEntries)
    (.invalid "recovery evidence count exceeds bound")
  validateRecoveryList env state previous 0 (fun _ => none) state.reconciliations

/-- Everything but the recoveries. -/
def validateBody : Except JournalError Unit := do
  state.limits.validate
  ensure (state.entries.length ≤ state.limits.maxEntries ∧ state.nextToken ≠ 0)
    (.invalid "entry count or reservation counter invalid")
  validateEntries env state 0 [] state.entries
  match state.reservation with
  | none => pure ()
  | some reservation => validateReservation env state reservation

/-- Validation of a next state, given the one it replaces. -/
def validateUpdate (previous : Option State) : Except JournalError Unit := do
  validateBody env state
  validateRecoveries env state previous

/-- Validation from nothing. -/
def validate : Except JournalError Unit := validateUpdate env state none

/-! ## Encoding -/

/-- `MJNL` and the format number. -/
def magic : List UInt8 := utf8 "MJNL" ++ [2]

/-- Bytes `persist` writes. -/
def journalBytes : Except JournalError (List UInt8) := do
  let body ← (env.toVec state).mapError .invalid
  ensure (body.length + (magic.length + 32) ≤ state.limits.maxEncodedBytes)
    (.invalid "journal encoded byte capacity reached")
  pure (magic ++ (env.authority.session.blake3 body).val ++ body)

/-- Read a journal record back. -/
def decode (bytes : List UInt8) : Except JournalError State := do
  ensure (magic.length + 32 ≤ bytes.length ∧ bytes.length ≤ maxBytes ∧
      bytes.take magic.length = magic)
    (.invalid "unsupported journal format or byte bound")
  let body := bytes.drop (magic.length + 32)
  ensure ((bytes.drop magic.length).take 32 = (env.authority.session.blake3 body).val)
    (.invalid "journal checksum mismatch")
  let state ← (env.fromSlice body).mapError .invalid
  ensure (bytes.length ≤ state.limits.maxEncodedBytes)
    (.invalid "stored journal exceeds configured bytes")
  validate env state
  pure state

/-! ## What validation establishes -/

variable {env} {state}

/-- Entry by entry: what a valid journal's entries satisfy. -/
structure EntryValid (env : JournalEnv) (state : State) (index : Nat) (entry : JournalEntry) :
    Prop where
  command : validateCommand state entry.original = .ok ()
  sequence : entry.sequence = UInt64.ofNat index
  digest : entry.authorizationDigest = entry.original.authorizationDigest env.authority.session
  status : validateStatus state entry = .ok ()

variable {index : Nat}

lemma validateEntries_ok (h : validateEntries env state index ids entries = .ok ())
    (hentry : entries[i]? = some entry) : EntryValid env state (index + i) entry := by
  induction entries generalizing index ids i with
  | nil => cases hentry
  | cons first rest ih =>
    simp only [validateEntries, eq_ok] at h
    obtain ⟨hcommand, ⟨hsequence, -, hdigest⟩, hstatus, hrest⟩ := h
    cases i with
    | zero =>
      cases hentry
      exact ⟨hcommand, hsequence, hdigest, hstatus⟩
    | succ i =>
      have hvalid := ih hrest hentry
      rwa [Nat.add_right_comm, Nat.add_assoc] at hvalid

lemma findReservation_eq_ok :
    findReservation state token = .ok reservation ↔
      state.reservation = some reservation ∧ reservation.token = token := by
  simp [findReservation, Option.filter_eq_some_iff]

/-- Nothing is known to be unchanged when there is no previous state. -/
lemma checkEvidence_none :
    checkEvidence env state none index recovery = recovery.verifyEvidence env := by
  rw [checkEvidence, if_neg]
  rintro ⟨_, hnone, -⟩
  cases hnone

variable {previous : State}

/-- What was verified at its place in an earlier list need not be verified again there. -/
lemma checkEvidence_of_verified
    (hold : ∀ old ∈ previous.reconciliations, old.verifyEvidence env = .ok ())
    (h : checkEvidence env state (some previous) index recovery = .ok ()) :
    recovery.verifyEvidence env = .ok () := by
  unfold checkEvidence at h
  split at h
  case isTrue hunchanged =>
    obtain ⟨old, hprevious, -, -, hget⟩ := hunchanged
    cases hprevious
    exact hold recovery (List.mem_of_getElem? hget)
  case isFalse => exact h

variable {bindings : UInt64 → Option Hash32} {recoveries : List FencedRecovery}

lemma verifyEvidence_of_list
    (h : validateRecoveryList env state none index bindings recoveries = .ok ()) :
    ∀ recovery ∈ recoveries, recovery.verifyEvidence env = .ok () := by
  induction recoveries generalizing index bindings with
  | nil => exact nofun
  | cons first rest ih =>
    simp only [validateRecoveryList, validateRecovery, eq_ok, checkEvidence_none] at h
    obtain ⟨_, ⟨-, -, hfirst, -⟩, hrest⟩ := h
    exact List.forall_mem_cons.mpr ⟨hfirst, ih hrest⟩

lemma validateRecoveryList_of_update
    (hold : ∀ old ∈ previous.reconciliations, old.verifyEvidence env = .ok ())
    (h : validateRecoveryList env state (some previous) index bindings recoveries = .ok ()) :
    validateRecoveryList env state none index bindings recoveries = .ok () := by
  induction recoveries generalizing index bindings with
  | nil => rfl
  | cons recovery rest ih =>
    simp only [validateRecoveryList, validateRecovery, eq_ok] at h ⊢
    obtain ⟨next, ⟨htoken, hstructure, hevidence, hdigest⟩, hrest⟩ := h
    have hverified := checkEvidence_of_verified hold hevidence
    exact ⟨next, ⟨htoken, hstructure, checkEvidence_none.trans hverified, hdigest⟩, ih hrest⟩

/-- Validating a next state against a valid one is as good as validating it from nothing. -/
lemma validate_of_update (hprevious : validate env previous = .ok ())
    (h : validateUpdate env state (some previous) = .ok ()) : validate env state = .ok () := by
  simp only [validate, validateUpdate, validateRecoveries, eq_ok] at hprevious h ⊢
  obtain ⟨-, -, -, hold⟩ := hprevious
  obtain ⟨hbody, hpolicy, hcount, hlist⟩ := h
  refine ⟨hbody, hpolicy, hcount, ?_⟩
  exact validateRecoveryList_of_update (verifyEvidence_of_list hold) hlist

/-- What was written is read back: the bytes `persist` makes of a valid state decode to it. -/
lemma decode_journalBytes (hjson : env.RoundTrips) (hbytes : journalBytes env state = .ok bytes)
    (hvalid : validate env state = .ok ()) : decode env bytes = .ok state := by
  simp only [journalBytes, eq_ok] at hbytes
  obtain ⟨body, hbody, hfits, rfl⟩ := hbytes
  have hlimits : state.limits.maxEncodedBytes ≤ maxBytes := by
    simp only [validate, validateUpdate, validateBody, JournalLimits.validate, eq_ok] at hvalid
    exact hvalid.1.1.2.2.2.1
  have hhash : (env.authority.session.blake3 body).val.length = 32 :=
    (env.authority.session.blake3 body).property
  simp only [decode, eq_ok, envelope_body hhash, envelope_checksum hhash, envelope_magic,
    List.length_append, hhash]
  refine ⟨⟨?_, ?_, trivial⟩, trivial, state, hjson state body hbody ?_, ?_, hvalid, rfl⟩
  all_goals omega

end Myelin.Journal
