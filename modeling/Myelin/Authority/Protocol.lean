/-
  Writer fencing: policies, grants and signed commit requests.

  A grant numbers a writer's EPOCH and names the canonical head it starts from; a commit request
  is signed for one grant, one head and one candidate block.  Everything a holder of these records
  can check without the authority is checked here.

  Digests are BLAKE3 over a domain and the `postcard` bytes of a tuple; those bytes are fields of
  `AuthorityEnv`, one per tuple the source hashes, as are the texts the signature library reports.
-/
import Myelin.Session.Commands

namespace Myelin.Authority

open Lib Consensus Session

/-- Authority failures. -/
inductive AuthorityError where
  | invalid (message : String)
  | authorization (message : String)
  | fenced (message : String)
  | storage (message : String)
  | session (message : String)
  | uncertain (message : String)
  deriving DecidableEq, Repr

/-- `Display` of an authority error. -/
def AuthorityError.display : AuthorityError → String
  | .invalid message => "invalid fencing data: " ++ message
  | .authorization message => "writer authorization rejected: " ++ message
  | .fenced message => "writer fenced or recovery anchor stale: " ++ message
  | .storage message => "authority storage: " ++ message
  | .session message => "authority session: " ++ message
  | .uncertain message =>
      "authority outcome uncertain; reopen and audit before further operations: " ++ message

/-- `protocol::session`: any failure of the session layer, by its text. -/
def sessionFailure (error : SessionError) : AuthorityError := .session error.display

/-! ## Records -/

/-- Consumers pin this complete policy, not just an ordinary PoA public key. -/
structure FencingPolicy where
  sessionId : Hash32
  genesisCommitment : Hash32
  administrator : Hash32
  certificateKey : Hash32
  /-- One authoritative external economic-effect uniqueness domain. -/
  effectDomain : Hash32
  deriving DecidableEq

/-- An administrator's request to start a new epoch at an exact canonical head. -/
structure GrantRequest where
  policy : Hash32
  expectedEpoch : UInt64
  owner : Hash32
  anchor : List UInt8
  signature : List UInt8
  deriving DecidableEq

/-- One epoch of the ownership history. -/
structure WriterGrant where
  epoch : UInt64
  request : GrantRequest
  deriving DecidableEq

/-- A worker's signed request to commit one candidate at one head. -/
structure CommitAuthorization where
  policy : Hash32
  epoch : UInt64
  owner : Hash32
  baseHead : List UInt8
  requestDigest : Hash32
  signature : List UInt8
  deriving DecidableEq

/-- Canonical status of one command; block indices point into the certificate's blocks. -/
inductive ObservedStatus where
  | missing
  | committed (receipt : CommandReceipt) (blockIndex : UInt32)
  | identityConflict (receipt : CommandReceipt) (blockIndex : UInt32)
  deriving DecidableEq

/-- One command and its canonical status. -/
structure CommandObservation where
  command : CommandIdentity
  status : ObservedStatus
  deriving DecidableEq

/-- The candidate a worker signs: a block request without the worker's clock, and with the
    successor already encoded. -/
structure Candidate where
  transactions : List (List UInt8)
  frameInput : FrameInput
  schedulerCommitment : Hash32
  dataCommitments : List Hash32
  timestampMs : UInt64
  successor : Option (List UInt8)
  handoffs : List HandoffIntent
  consumeHandoffs : List Hash32
  handoffActions : List HandoffAction
  deriving DecidableEq

/-! ## External libraries -/

/-- The library calls of the authority, beside those of the session runtime. -/
structure AuthorityEnv where
  session : SessionEnv
  /-- Body of a `SessionHead` record. -/
  takeSessionHead : List UInt8 → Except SessionError SessionHead
  /-- Policy, expected epoch, owner, anchor. -/
  grantBytes : Hash32 → UInt64 → Hash32 → List UInt8 → List UInt8
  /-- Policy, epoch, owner, base head, request digest. -/
  authorizationBytes : Hash32 → UInt64 → Hash32 → List UInt8 → Hash32 → List UInt8
  candidateBytes : Candidate → List UInt8
  /-- Policy, submission digest, submitted and observed epoch, observed head, observations, blocks. -/
  reconciliationBytes : Hash32 → Hash32 → UInt64 → UInt64 → List UInt8 → List CommandObservation →
    List (List UInt8) → List UInt8
  /-- What the signature library says of bytes that are no signature. -/
  malformedSignature : String
  /-- What the signature library says of a signature that does not verify. -/
  incorrectSignature : String

/-- Most bytes `protocol::hash` takes. -/
def maxHashedBytes : Nat := 64 * 1024 * 1024

variable (env : AuthorityEnv)

/-- `protocol::hash`. -/
def protocolHash (domain : String) (bytes : List UInt8) : Except AuthorityError Hash32 := do
  ensure (bytes.length ≤ maxHashedBytes) (.invalid "The serialize buffer is full")
  pure (env.session.blake3 (utf8 domain ++ bytes))

/-- `protocol::verify`: a Schnorr signature over a digest. -/
def protocolVerify (publicKey digest : Hash32) (signature : List UInt8) :
    Except AuthorityError Unit := do
  let parsed ← okOr (FixedBytes.ofList? 64 signature) (.authorization env.malformedSignature)
  (env.session.crypto.parseXOnlyPublicKey publicKey).mapError .invalid
  ensure (env.session.crypto.schnorr publicKey digest parsed = true)
    (.authorization env.incorrectSignature)

end Myelin.Authority

namespace Myelin.Session.SessionHead

open Lib Myelin.Authority

/-- Encode a checksummed, versioned persistence record. -/
def encode (env : SessionEnv) (head : SessionHead) : Except SessionError (List UInt8) :=
  encodeRecord env (env.postcard.sessionHead head)

/-- Decode a checksummed head. -/
def decode (env : AuthorityEnv) (bytes : List UInt8) : Except SessionError SessionHead := do
  let body ← recordBody env.session bytes
  env.takeSessionHead body

end Myelin.Session.SessionHead

namespace Myelin.Authority

open Lib Consensus Session

variable (env : AuthorityEnv)

/-- A head a record carries in encoded form. -/
def decodeHead (bytes : List UInt8) : Except AuthorityError SessionHead :=
  (SessionHead.decode env bytes).mapError sessionFailure

/-! ## Policies and grants -/

/-- Commitment every signed record of a deployment names. -/
def FencingPolicy.commitment (policy : FencingPolicy) : Hash32 :=
  env.session.blake3 (utf8 "myelin:writer-fencing-policy:v1" ++ policy.sessionId.val ++
    policy.genesisCommitment.val ++ policy.administrator.val ++ policy.certificateKey.val ++
    policy.effectDomain.val)

/-- Digest the administrator signs. -/
def GrantRequest.digest (request : GrantRequest) : Except AuthorityError Hash32 :=
  protocolHash env "myelin:writer-fence-grant:v1"
    (env.grantBytes request.policy request.expectedEpoch request.owner request.anchor)

/-- Head the grant starts from. -/
def GrantRequest.anchorHead (request : GrantRequest) : Except AuthorityError SessionHead :=
  decodeHead env request.anchor

namespace WriterGrant

/-- Worker key of the epoch. -/
def owner (grant : WriterGrant) : Hash32 := grant.request.owner

/-- Whether a grant is the administrator's, for this policy. -/
def verify (grant : WriterGrant) (policy : FencingPolicy) : Except AuthorityError Unit := do
  ensure (grant.request.policy = policy.commitment env ∧ grant.epoch ≠ 0 ∧
      checkedAdd grant.request.expectedEpoch 1 = some grant.epoch)
    (.invalid "writer grant identity/epoch mismatch")
  let anchor ← grant.request.anchorHead env
  ensure (anchor.sessionId = policy.sessionId) (.invalid "writer grant identity/epoch mismatch")
  let digest ← grant.request.digest env
  protocolVerify env policy.administrator digest grant.request.signature

end WriterGrant

/-! ## Commit requests -/

/-- Digest of the candidate; `local_now_ms` is the authority's, never the worker's. -/
def requestDigest (request : BlockRequest) : Except AuthorityError Hash32 := do
  let successor ← match request.successor with
    | some config => ((config.encode env.session).mapError sessionFailure).map some
    | none => .ok none
  protocolHash env "myelin:writer-fence-candidate:v1" (env.candidateBytes
    { request with successor })

namespace CommitAuthorization

/-- Digest the worker signs. -/
def digest (authorization : CommitAuthorization) : Except AuthorityError Hash32 :=
  protocolHash env "myelin:writer-fence-request:v1"
    (env.authorizationBytes authorization.policy authorization.epoch authorization.owner
      authorization.baseHead authorization.requestDigest)

/-- Whether the request was signed by the grant's owner, for this policy. -/
def verifyBinding (authorization : CommitAuthorization) (policy : FencingPolicy)
    (grant : WriterGrant) : Except AuthorityError Unit := do
  grant.verify env policy
  ensure (authorization.policy = policy.commitment env ∧ authorization.epoch = grant.epoch ∧
      authorization.owner = grant.owner)
    (.authorization "signed candidate differs from grant, scope or request")
  let base ← decodeHead env authorization.baseHead
  ensure (base.sessionId = policy.sessionId ∧ authorization.requestDigest ≠ zeroHash)
    (.authorization "signed candidate differs from grant, scope or request")
  let digest ← authorization.digest env
  protocolVerify env authorization.owner digest authorization.signature

/-- Whether the request was signed for exactly this candidate. -/
def verifyCandidate (authorization : CommitAuthorization) (policy : FencingPolicy)
    (grant : WriterGrant) (request : BlockRequest) : Except AuthorityError Unit := do
  authorization.verifyBinding env policy grant
  let digest ← Authority.requestDigest env request
  ensure (authorization.requestDigest = digest) (.authorization "signed candidate bytes changed")

end CommitAuthorization

end Myelin.Authority
