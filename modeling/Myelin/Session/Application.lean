/-
  Genesis-bound application identity, execution frames and commit limits.

  Every commitment is BLAKE3 over the bytes the source feeds its hasher, in the same order.  A
  count the source keeps in a `u64` is a `Nat` here, with the source's own overflow checks; a
  buffer length never reaches `2 ^ 64`.
-/
import Myelin.Session.Types

namespace Myelin.Session

open Lib Consensus

variable (env : SessionEnv)

/-! ## Record envelope -/

/-- Largest record the codec accepts. -/
def maxRecordBytes : Nat := 128 * 1024 * 1024

/-- Longest sequence the codec accepts. -/
def maxSequenceItems : Nat := 65536

/-- Magic, format version, body length and body checksum. -/
def recordHeaderBytes : Nat := 4 + 2 + 8 + 32

/-- `b"MREC"`. -/
def recordMagic : List UInt8 := utf8 "MREC"

/-- Current persistence format. -/
def recordFormatVersion : UInt16 := 13

/-- Current block format. -/
def sessionBlockVersion : UInt32 := 6

/-- `resources::check`. -/
def checkLimit (resource : String) (used limit : Nat) : Except SessionError Unit :=
  ensure (used ≤ limit) (.resourceLimit resource used limit)

/-- `resources::add`: a checked `u64` sum. -/
def addUsage (resource : String) (left right : Nat) : Except SessionError Nat := do
  ensure (left + right < 2 ^ 64) (.blockLimit (resource ++ " total overflow"))
  pure (left + right)

/-- Count encoded bytes; the counter stops one past the cap. -/
def sizeWithLimit (bytes : List UInt8) (resource : String) (limit : Nat) :
    Except SessionError Nat := do
  ensure (bytes.length ≤ limit) (.resourceLimit resource (min (limit + 1) (2 ^ 64 - 1)) limit)
  pure bytes.length

/-- Wrap an encoded body in the checksummed, versioned envelope. -/
def encodeRecord (body : List UInt8) : Except SessionError (List UInt8) := do
  let _ ← sizeWithLimit body "encoded_record_bytes" (maxRecordBytes - recordHeaderBytes)
  pure (recordMagic ++ le16 recordFormatVersion ++ le64 (UInt64.ofNat body.length) ++
    (env.blake3 body).val ++ body)

/-- Open an envelope, checking magic, version, length and checksum. -/
def recordBody (bytes : List UInt8) : Except SessionError (List UInt8) := do
  checkLimit "encoded_record_bytes" bytes.length maxRecordBytes
  ensure (recordMagic <+: bytes) (.codec "record does not use the canonical binary envelope")
  ensure (recordHeaderBytes ≤ bytes.length) (.codec "truncated binary record header")
  let version := ofLeBytes ((bytes.drop 4).take 2)
  ensure (version = recordFormatVersion.toNat)
    (.codec ("unsupported record version " ++ toString version))
  ensure (bytes.length = recordHeaderBytes + ofLeBytes ((bytes.drop 6).take 8))
    (.codec "binary record length mismatch")
  ensure ((env.blake3 (bytes.drop recordHeaderBytes)).val = (bytes.drop 14).take 32)
    (.codec "record checksum mismatch")
  pure (bytes.drop recordHeaderBytes)

/-! ## Application profile -/

namespace ApplicationVmProfile

/-- The capability choice as one committed byte. -/
def commitmentByte (vm : ApplicationVmProfile) : UInt8 := if vm.spawnIpcRequired then 1 else 0

end ApplicationVmProfile

/-- Reject an envelope that would make any operation unbounded or unusable. -/
def ApplicationResourceEnvelope.validate (envelope : ApplicationResourceEnvelope) :
    Except SessionError Unit :=
  ensure (envelope.maxFrameInputs ≠ 0 ∧ envelope.maxFrameInputBytes ≠ 0 ∧
      envelope.maxFrameCycles ≠ 0 ∧ envelope.maxLogicalTimeSpan ≠ 0 ∧
      envelope.maxInspectQueryBytes ≠ 0 ∧ envelope.maxInspectResultBytes ≠ 0)
    (.invalidConfig "application resource-envelope limits must all be non-zero")

namespace ApplicationProfile

/-- Longest application id. -/
def maxApplicationIdBytes : Nat := 256

/-- Validate a complete, fail-closed application identity. -/
def validate (profile : ApplicationProfile) : Except SessionError Unit := do
  ensure (profile.applicationId ≠ "" ∧ (utf8 profile.applicationId).length ≤ maxApplicationIdBytes)
    (.invalidConfig "application_id length must be 1..=256 bytes")
  ensure (zeroHash ∉ [profile.programDigest, profile.inputSchemaHash, profile.stateCodecHash,
      profile.logicalTimePolicyHash, profile.entropyPolicyHash, profile.courtProfileHash,
      profile.handoffPolicyHash])
    (.invalidConfig "application profile artifact and policy hashes must not be zero")
  profile.resources.validate

/-- What the commitment hashes. -/
def preimage (profile : ApplicationProfile) : List UInt8 :=
  utf8 "myelin:application-profile" ++ [if profile.commandIdentityRequired then 1 else 0] ++
    le32 (UInt32.ofNat (utf8 profile.applicationId).length) ++ utf8 profile.applicationId ++
    profile.programDigest.val ++ profile.inputSchemaHash.val ++ profile.stateCodecHash.val ++
    profile.logicalTimePolicyHash.val ++ profile.entropyPolicyHash.val ++
    [profile.vm.commitmentByte] ++ le64 profile.resources.maxFrameInputs ++
    le64 profile.resources.maxFrameInputBytes ++ le64 profile.resources.maxFrameCycles ++
    le64 profile.resources.maxLogicalTimeSpan ++ le64 profile.resources.maxInspectQueryBytes ++
    le64 profile.resources.maxInspectResultBytes ++ profile.courtProfileHash.val ++
    profile.handoffPolicyHash.val

/-- Commitment written into genesis and every session block. -/
def commitment (profile : ApplicationProfile) : Hash32 := env.blake3 profile.preimage

end ApplicationProfile

/-! ## Execution frames -/

namespace FrameInput

/-- Validate ordering and the genesis-bound resource envelope. -/
def validate (input : FrameInput) (profile : ApplicationProfile) : Except SessionError Unit := do
  let inputCount ← okOr (checkedSub input.endPosition input.startPosition)
    (.invalidFrame "input range is reversed")
  ensure (inputCount ≤ profile.resources.maxFrameInputs)
    (.invalidFrame ("frame input count " ++ toString inputCount ++ " exceeds " ++
      toString profile.resources.maxFrameInputs))
  ensure (¬ ((profile.commandIdentityRequired ∨ input.commands ≠ []) ∧
      input.commands.length ≠ inputCount.toNat))
    (.invalidFrame "command count must match input range")
  -- the source stops at the first bad or repeated identity, with one error for both
  ensure ((∀ command ∈ input.commands, command.id ≠ zeroHash ∧ command.payloadHash ≠ zeroHash) ∧
      (input.commands.map (·.id)).Nodup)
    (.invalidFrame "command identities must be nonzero and unique")
  ensure (input.payload.length ≤ profile.resources.maxFrameInputBytes.toNat)
    (.invalidFrame ("frame input bytes " ++ toString input.payload.length ++ " exceed " ++
      toString profile.resources.maxFrameInputBytes))
  let logicalSpan ← okOr (checkedSub input.logicalTimeEnd input.logicalTimeStart)
    (.invalidFrame "logical-time range is reversed")
  ensure (logicalSpan ≤ profile.resources.maxLogicalTimeSpan)
    (.invalidFrame ("logical-time span " ++ toString logicalSpan ++ " exceeds " ++
      toString profile.resources.maxLogicalTimeSpan))
  ensure (¬ (inputCount = 0 ∧ input.payload ≠ []))
    (.invalidFrame "an empty input range must have an empty canonical payload")
  ensure (¬ (inputCount ≠ 0 ∧ input.payload = []))
    (.invalidFrame "a non-empty input range must have a canonical payload")

/-- Root committed by the execution frame. -/
def root (input : FrameInput) : Hash32 :=
  env.blake3 (utf8 "myelin:execution-frame-input" ++ le64 (UInt64.ofNat input.commands.length) ++
    input.commands.flatMap (fun command => command.id.val ++ command.payloadHash.val) ++
    le64 input.startPosition ++ le64 input.endPosition ++ le64 input.logicalTimeStart ++
    le64 input.logicalTimeEnd ++ le64 (UInt64.ofNat input.payload.length) ++ input.payload)

end FrameInput

namespace ExecutionFrame

/-- Validate all derived fields against the retained input and the immutable profile. -/
def validate (frame : ExecutionFrame) (profile : ApplicationProfile) (input : FrameInput) :
    Except SessionError Unit := do
  input.validate profile
  ensure (frame.sessionId ≠ zeroHash ∧ frame.applicationProfileCommitment = profile.commitment env ∧
      frame.inputRoot = input.root env ∧ frame.inputStart = input.startPosition ∧
      frame.inputEnd = input.endPosition ∧ frame.logicalTimeStart = input.logicalTimeStart ∧
      frame.logicalTimeEnd = input.logicalTimeEnd ∧ frame.stateRootBefore ≠ zeroHash ∧
      frame.stateRootAfter ≠ zeroHash)
    (.invalidFrame "execution frame does not match its session profile, input, or state roots")
  ensure (frame.resources.inputBytes.toNat = input.payload.length)
    (.invalidFrame "execution frame input byte count does not match retained input")
  ensure (frame.resources.cycles ≤ profile.resources.maxFrameCycles)
    (.invalidFrame ("execution cycles " ++ toString frame.resources.cycles ++ " exceed " ++
      toString profile.resources.maxFrameCycles))

/-- Frame commitment included directly in the block. -/
def commitment (frame : ExecutionFrame) : Hash32 :=
  env.blake3 (utf8 "myelin:execution-frame" ++ frame.sessionId.val ++ le64 frame.height ++
    frame.applicationProfileCommitment.val ++ le64 frame.inputStart ++ le64 frame.inputEnd ++
    frame.inputRoot.val ++ le64 frame.logicalTimeStart ++ le64 frame.logicalTimeEnd ++
    frame.stateRootBefore.val ++ frame.stateRootAfter.val ++
    encodeHashVec frame.orderedCellTxCommitments ++ le64 frame.resources.cycles ++
    le64 frame.resources.transactionBytes ++ le64 frame.resources.inputBytes)

end ExecutionFrame

/-! ## Commit limits -/

namespace CommitResourceLimits

variable (limits : CommitResourceLimits)

/-- Limits used when a session does not choose its own. -/
def «default» : CommitResourceLimits where
  version := 1
  maxFrameBytes := 16 * 1024 * 1024
  maxIssuedHandoffs := 64
  maxConsumedHandoffs := 64
  maxHandoffPayloadBytes := 16 * 1024 * 1024
  maxAuthorizationBytes := 256 * 1024
  maxDataCommitments := 4096
  maxOutboxMessages := 1024
  maxOutboxBytes := 16 * 1024 * 1024
  maxSnapshotBytes := 64 * 1024 * 1024
  maxRecordBytes := 128 * 1024 * 1024

/-- Reject limits the codec could not honour. -/
def validate : Except SessionError Unit := do
  ensure (limits.version = 1 ∧ limits.maxFrameBytes ≠ 0 ∧ limits.maxSnapshotBytes ≠ 0 ∧
      limits.maxRecordBytes ≠ 0)
    (.invalidConfig "resource limits require version 1 and nonzero frame/snapshot/record bounds")
  ensure ([limits.maxIssuedHandoffs, limits.maxConsumedHandoffs,
      limits.maxDataCommitments, limits.maxOutboxMessages].all (·.toNat ≤ maxSequenceItems))
    (.invalidConfig "resource count limit exceeds the supported decoder ceiling")
  ensure ([limits.maxFrameBytes, limits.maxHandoffPayloadBytes,
      limits.maxAuthorizationBytes, limits.maxOutboxBytes, limits.maxSnapshotBytes,
      limits.maxRecordBytes].all (·.toNat ≤ Session.maxRecordBytes))
    (.invalidConfig "resource byte limit exceeds the supported decoder ceiling")

/-- What the commitment hashes. -/
def preimage : List UInt8 :=
  utf8 "myelin:commit-resource-limits:v1" ++ le16 limits.version ++
    [limits.maxFrameBytes, limits.maxIssuedHandoffs, limits.maxConsumedHandoffs,
      limits.maxHandoffPayloadBytes, limits.maxAuthorizationBytes, limits.maxDataCommitments,
      limits.maxOutboxMessages, limits.maxOutboxBytes, limits.maxSnapshotBytes,
      limits.maxRecordBytes].flatMap le64

/-- Commitment bound by genesis. -/
def commitment : Hash32 := env.blake3 limits.preimage

/-- Bound one frame input. -/
def frame (input : FrameInput) : Except SessionError Unit := do
  checkLimit "frame_commands" input.commands.length maxSequenceItems
  let _ ← sizeWithLimit (env.postcard.frameInput input) "frame_bytes" limits.maxFrameBytes.toNat

/-- Bound one snapshot. -/
def snapshot (bytes : List UInt8) : Except SessionError Unit :=
  checkLimit "snapshot_bytes" bytes.length limits.maxSnapshotBytes.toNat

end CommitResourceLimits

/-- Commitment to the limits and the original snapshot length. -/
def snapshotCommitment (limits : CommitResourceLimits) (bytes : UInt64) : Hash32 :=
  env.blake3 (utf8 "myelin:commit-resource-usage:v1" ++ (limits.commitment env).val ++ le64 bytes)

/-- Checked accumulator of handoff payload and authorization bytes. -/
structure HandoffUsage where
  payload : Nat
  authorization : Nat
  deriving DecidableEq

/-- Count one handoff against the limits. -/
def HandoffUsage.add (usage : HandoffUsage) (limits : CommitResourceLimits)
    (payload authorization : Nat) : Except SessionError HandoffUsage := do
  let payload ← addUsage "handoff_payload_bytes" usage.payload payload
  checkLimit "handoff_payload_bytes" payload limits.maxHandoffPayloadBytes.toNat
  let authorization ← addUsage "authorization_bytes" usage.authorization authorization
  checkLimit "authorization_bytes" authorization limits.maxAuthorizationBytes.toNat
  pure ⟨payload, authorization⟩

/-- Count a list of handoffs from zero. -/
def CommitResourceLimits.handoffs (limits : CommitResourceLimits) (handoffs : List SessionHandoff) :
    Except SessionError HandoffUsage :=
  handoffs.foldlM (fun usage handoff =>
    usage.add limits handoff.payload.length handoff.authorization.length) ⟨0, 0⟩

end Myelin.Session
