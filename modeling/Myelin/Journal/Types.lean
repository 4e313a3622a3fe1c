/-
  The command journal: original commands, reservations and their durable record.

  The journal keeps what an application was asked to do until the canonical chain says what became
  of it.  An entry never changes its original command, only its STATUS; at most one RESERVATION
  holds commands that are being built or submitted.

  `serde_json` is not modelled: `JournalEnv` has its two calls on the journal's state.
-/
import Myelin.Authority.Reconciliation
import Myelin.Producer.Machine

namespace Myelin.Journal

open Lib Consensus Session Myelin.Authority

/-- Journal failures. -/
inductive JournalError where
  | invalid (message : String)
  | identityConflict
  | conflict (message : String)
  | storage (message : String)
  | authentication (message : String)
  | reconciliation (message : String)
  deriving DecidableEq, Repr

/-- Kind of an original input. -/
inductive InputKind where
  | userCommand
  | inputTape
  | systemEvent
  deriving DecidableEq, Repr

/-- Byte of an input kind in the authorization digest. -/
def InputKind.byte : InputKind → UInt8
  | .userCommand => 0
  | .inputTape => 1
  | .systemEvent => 2

/-- This scope is part of authentication, not an unsigned routing hint. -/
structure CommandScope where
  sessionId : Hash32
  genesisCommitment : Hash32
  applicationProfile : Hash32
  deriving DecidableEq

/-- Scope of a session's commands. -/
def CommandScope.fromConfig (env : SessionEnv) (config : SessionConfig) : CommandScope where
  sessionId := config.sessionId
  genesisCommitment := config.commitment env
  applicationProfile := config.applicationProfile.commitment env

/-- Original application bytes and authentication material. -/
structure OriginalCommand where
  scope : CommandScope
  identity : CommandIdentity
  kind : InputKind
  canonicalCommand : List UInt8
  authenticationContext : List UInt8
  authorization : List UInt8
  deriving DecidableEq

/-- Digest the caller's verifier binds to the authorization. -/
def OriginalCommand.authorizationDigest (env : SessionEnv) (command : OriginalCommand) : Hash32 :=
  env.blake3 (utf8 "myelin:command-journal-authorization:v1" ++ command.scope.sessionId.val ++
    command.scope.genesisCommitment.val ++ command.scope.applicationProfile.val ++
    command.identity.id.val ++ command.identity.payloadHash.val ++ [command.kind.byte] ++
    [command.canonicalCommand, command.authenticationContext].flatMap fun bytes =>
      le64 (UInt64.ofNat bytes.length) ++ bytes)

/-- Equal but for the authorization. -/
def OriginalCommand.SameIntent (command other : OriginalCommand) : Prop :=
  command.scope = other.scope ∧ command.identity = other.identity ∧ command.kind = other.kind ∧
    command.canonicalCommand = other.canonicalCommand ∧
    command.authenticationContext = other.authenticationContext

instance (command other : OriginalCommand) : Decidable (command.SameIntent other) :=
  inferInstanceAs (Decidable (_ ∧ _))

/-- `CommandAuthenticator::verify`: the application's identity and signature policy. -/
abbrev Authenticator := OriginalCommand → Except String Unit

/-! ## Limits -/

/-- Ceiling on a journal's encoded bytes. -/
def maxBytes : Nat := 32 * 1024 * 1024

/-- Ceiling on a journal's entries. -/
def maxEntries : Nat := 16384

/-- Bounds fixed when a journal is created. -/
structure JournalLimits where
  maxEntries : Nat
  maxEncodedBytes : Nat
  maxCommandBytes : Nat
  maxAuthorizationBytes : Nat
  maxResultBytes : Nat
  deriving DecidableEq, Repr

/-- Bounds of a journal that does not choose its own. -/
def JournalLimits.default : JournalLimits where
  maxEntries := 4096
  maxEncodedBytes := 16 * 1024 * 1024
  maxCommandBytes := 1024 * 1024
  maxAuthorizationBytes := 64 * 1024
  maxResultBytes := 1024 * 1024

/-- Limits within the bounded format. -/
def JournalLimits.validate (limits : JournalLimits) : Except JournalError Unit :=
  ensure (limits.maxEntries ≠ 0 ∧ limits.maxEntries ≤ Journal.maxEntries ∧
      limits.maxEncodedBytes ≠ 0 ∧ limits.maxEncodedBytes ≤ maxBytes ∧
      ∀ n ∈ [limits.maxCommandBytes, limits.maxAuthorizationBytes, limits.maxResultBytes],
        n ≠ 0 ∧ n ≤ limits.maxEncodedBytes)
    (.invalid "journal limits exceed bounded format")

/-! ## Entries -/

/-- How far a reservation has got. -/
inductive ReservationPhase where
  /-- No commit call may start until `begin_commit` is durable. -/
  | held
  /-- A commit may be in progress or finished.  Never release on `missing`. -/
  | submitting
  | unknown
  deriving DecidableEq, Repr

/-- Result of a command, as the application reads the committed block. -/
inductive BusinessOutcome where
  | succeeded (bytes : List UInt8)
  | rejected (bytes : List UInt8)
  deriving DecidableEq

/-- Bytes of a result. -/
def BusinessOutcome.len : BusinessOutcome → Nat
  | .succeeded bytes | .rejected bytes => bytes.length

/-- What is known of a command. -/
inductive EntryStatus where
  | queued
  | stale (reason : String)
  | rejected (reason : String)
  | reserved (token : UInt64) (phase : ReservationPhase)
  /-- Inclusion alone leaves the outcome open. -/
  | committed (receipt : CommandReceipt) (outcome : Option BusinessOutcome) (acknowledged : Bool)
  | identityConflict (receipt : CommandReceipt)
  deriving DecidableEq

/-- One command of the journal. -/
structure JournalEntry where
  sequence : UInt64
  original : OriginalCommand
  authorizationDigest : Hash32
  status : EntryStatus
  deriving DecidableEq

/-- Identity of an entry's command. -/
def JournalEntry.id (entry : JournalEntry) : Hash32 := entry.original.identity.id

/-- The same entry with another status. -/
def JournalEntry.withStatus (entry : JournalEntry) (status : EntryStatus) : JournalEntry :=
  { entry with status }

/-! ## Reservations -/

/-- A signed authority request, persisted before it can be sent. -/
structure FencedSubmission where
  policy : FencingPolicy
  grant : WriterGrant
  authorization : CommitAuthorization
  commands : List CommandIdentity
  deriving DecidableEq

/-- A retained recovery decision and its evidence. -/
structure FencedRecovery where
  reservationToken : UInt64
  submission : FencedSubmission
  certificate : CommandReconciliation
  deriving DecidableEq

/-- Commands held for one candidate, with the work built for them. -/
structure Reservation where
  token : UInt64
  /-- Canonical `SessionHead` record, including state root, cursor and seal. -/
  constructionHead : List UInt8
  commandIds : List Hash32
  /-- Application-built work, in the exact command order. -/
  work : List (List UInt8)
  phase : ReservationPhase
  fencedSubmission : Option FencedSubmission
  deriving DecidableEq

/-- Builder decisions preserve an already valid prefix. -/
inductive BuildDecision where
  | ready (work : List UInt8)
  | stale (reason : String)
  | rejected (reason : String)
  deriving DecidableEq

/-- The durable record of a journal. -/
structure State where
  scope : CommandScope
  limits : JournalLimits
  nextToken : UInt64
  entries : List JournalEntry
  reservation : Option Reservation
  reconciliations : List FencedRecovery
  fencingPolicy : Option FencingPolicy
  deriving DecidableEq

/-- A new journal. -/
def State.initial (scope : CommandScope) (limits : JournalLimits) : State where
  scope := scope
  limits := limits
  nextToken := 1
  entries := []
  reservation := none
  reconciliations := []
  fencingPolicy := none

/-- The library calls of the journal, beside those of the authority. -/
structure JournalEnv where
  authority : AuthorityEnv
  /-- `serde_json::to_vec`. -/
  toVec : State → Except String (List UInt8)
  /-- `serde_json::from_slice`. -/
  fromSlice : List UInt8 → Except String State

/-- `serde_json` reads back what it wrote, as long as it fits a journal.  Longer texts may exceed
    the bounds some fields' decoders impose. -/
def JournalEnv.RoundTrips (env : JournalEnv) : Prop :=
  ∀ state bytes, env.toVec state = .ok bytes → bytes.length ≤ maxBytes →
    env.fromSlice bytes = .ok state

/-- `fencing::reconciliation`: any failure of the authority layer, by its text. -/
def reconciliationFailure (error : AuthorityError) : JournalError := .reconciliation error.display

/-- Any failure of the chain while reconciling, by its text. -/
def chainFailure (error : SessionError) : JournalError := .reconciliation error.display

end Myelin.Journal
