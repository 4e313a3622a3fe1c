/-
  Transfer payloads, their authorization, and the policy a session is bound to.

  A transfer is identified by the digest its owner signs, which leaves the signature out: another
  signature over the same intent is the same transfer (`verifyIntent`).
-/
import Mathlib.Data.Prod.Lex
import Myelin.Lib.SortedList
import Myelin.Session.Lineage
import Myelin.Transfer.Codec

namespace Myelin.Transfer

open Lib Consensus Session

variable (env : TransferEnv) (policy : TransferPolicy)

/-- Longest component blob. -/
def maxComponentBytes : Nat := 65536

/-- Largest encoded transfer payload. -/
def maxTransferBytes : Nat := 128 * 1024

/-- Largest encoded command list. -/
def maxCommandBytes : Nat := 16 * 1024 * 1024

/-- A session failure reported as a policy failure. -/
def policyError (error : SessionError) : TransferError := .policy error.display

/-- A session failure reported as a failed source lookup. -/
def sourceError (error : SessionError) : TransferError := .source error.display

/-! ## Identities -/

/-- Schema a payload of this kind is taken in under. -/
def TransferKind.intakeSchema (env : SessionEnv) (kind : TransferKind) : Hash32 :=
  env.blake3 (utf8 (match kind with
    | .scarce => "myelin:reference-scarce-payload:v1"
    | .copyableReceipt => "myelin:reference-copyable-payload:v1"))

/-- Object an authorization is about. -/
def AssetId.commitment (env : SessionEnv) (asset : AssetId) : Hash32 :=
  env.blake3 (utf8 "myelin:reference-transfer-object:v1" ++ asset.namespace.val ++ asset.object.val)

/-- Neither half of an asset id is zero. -/
def AssetId.validate (asset : AssetId) : Except TransferError Unit :=
  ensure (asset.namespace ≠ zeroHash ∧ asset.object ≠ zeroHash)
    (.policy "zero asset namespace/object")

/-- The policy hash of an application-verified session. -/
def applicationPolicy : ProtocolEffectsPolicy → Except TransferError Hash32
  | .application policyHash => .ok policyHash
  | _ => .error (.policy "reference transfer requires an application-verified policy")

/-- Anchor of a session, from its genesis config. -/
def SourceIdentity.fromConfig (env : SessionEnv) (config : SessionConfig) :
    Except TransferError SourceIdentity := do
  config.validate.mapError policyError
  let policyHash ← applicationPolicy config.protocolEffects
  pure {
    sessionId := config.sessionId
    genesisCommitment := config.commitment env
    applicationProfileCommitment := config.applicationProfile.commitment env
    consensusModuleCommitment := config.consensusModuleCommitment
    effectsPolicyHash := policyHash }

/-- No part of an anchor is zero. -/
def SourceIdentity.validate (source : SourceIdentity) : Except TransferError Unit :=
  ensure (zeroHash ∉ [source.sessionId, source.genesisCommitment,
      source.applicationProfileCommitment, source.consensusModuleCommitment,
      source.effectsPolicyHash])
    (.policy "zero source trust anchor")

/-- The target as the runtime sees it. -/
def TransferTarget.outer : TransferTarget → HandoffTarget
  | .session sessionId _ => .session sessionId
  | .sharedStorePolicy policyCommitment => .policy policyCommitment

/-- No part of a target is zero. -/
def TransferTarget.validate (target : TransferTarget) : Except TransferError Unit :=
  match target with
  | .session sessionId genesisCommitment =>
      ensure (sessionId ≠ zeroHash ∧ genesisCommitment ≠ zeroHash) (.policy "zero target binding")
  | .sharedStorePolicy policyCommitment =>
      ensure (policyCommitment ≠ zeroHash) (.policy "zero target binding")

/-! ## Payloads -/

/-- Everything a payload must satisfy on its own. -/
def TransferPayload.validate (env : SessionEnv) (payload : TransferPayload) :
    Except TransferError Unit := do
  payload.source.validate
  payload.asset.validate
  payload.target.validate
  ensure (zeroHash ∉ [payload.deploymentId, payload.uniquenessDomain, payload.owner,
      payload.recipient, payload.nonce] ∧ payload.amount ≠ 0 ∧
      payload.intakeSchema = payload.kind.intakeSchema env)
    (.policy "invalid transfer identity, amount or intake schema")
  ensure (¬ (payload.kind = .copyableReceipt ∧ payload.amount ≠ 1))
    (.policy "copyable receipts require amount one")
  (env.crypto.parseXOnlyPublicKey payload.owner).mapError fun _ =>
    .authorization "owner is not a Schnorr public key"
  (env.crypto.parseXOnlyPublicKey payload.recipient).mapError fun _ =>
    .authorization "recipient is not a Schnorr public key"
  ensure (payload.components.length ≤ maxComponentBytes) (.bounds "components")

/-- Read a payload and check it. -/
def TransferPayload.decode (bytes : List UInt8) : Except TransferError TransferPayload := do
  let payload ← Codec.decode env.session "MTRP" env.postcard.payload env.postcard.takePayload bytes
    maxTransferBytes
  payload.validate env.session
  pure payload

/-- What the owner authorizes. -/
def TransferPayload.scope (env : SessionEnv) (payload : TransferPayload) :
    EffectAuthorizationScope where
  actor := payload.owner
  object := payload.asset.commitment env
  objectVersion := payload.sourceVersion
  nonce := payload.nonce

/-- Verify an owner's signature over a digest. -/
def verifyOwner (env : SessionEnv) (owner digest : Hash32) (signature : List UInt8)
    (message : String) : Except TransferError Unit := do
  (env.crypto.parseXOnlyPublicKey owner).mapError .authorization
  let signature ← okOr (FixedBytes.ofList? 64 signature) (.authorization "malformed signature")
  ensure (env.crypto.schnorr owner digest signature) (.authorization message)

/-- Signature-independent identity: an alternative signature cannot produce a new transferable
    right or defeat the source nonce / target nullifier checks. -/
def verifyIntent (intent : HandoffIntent) : Except TransferError (Hash32 × TransferPayload) := do
  intent.validate.mapError policyError
  let payload ← TransferPayload.decode env intent.payload
  ensure (payload.target.outer = intent.target) (.authorization "inner/outer target mismatch")
  let auth ← Codec.decode env.session "MTRA" env.postcard.authorization env.postcard.takeAuthorization
    intent.authorization 512
  ensure (auth.scope = payload.scope env.session)
    (.authorization "authorization scope does not match payload")
  let digest ← (auth.scope.handoffDigest env.session payload.source.genesisCommitment intent).mapError
    fun error => .authorization error.display
  verifyOwner env.session payload.owner digest auth.signature "owner signature is invalid"
  pure (digest, payload)

/-- The intent a committed handoff came from. -/
def verifyHandoff (handoff : SessionHandoff) : Except TransferError (Hash32 × TransferPayload) :=
  verifyIntent env (intentFromHandoff handoff)

/-! ## Policies -/

/-- A usable policy. -/
def TransferPolicy.validate : Except TransferError Unit := do
  ensure (policy.deploymentId ≠ zeroHash ∧ policy.uniquenessDomain ≠ zeroHash)
    (.policy "zero deployment/uniqueness domain")
  ensure ([policy.limits.maxAccounts, policy.limits.maxPending, policy.limits.maxReceipts,
      policy.limits.maxNonces].all fun value => value ≠ 0 ∧ value.toNat ≤ maxSequenceItems)
    (.bounds "policy count ceiling")
  ensure (policy.limits.maxComponentsBytes.toNat ≤ maxComponentBytes ∧
      policy.acceptedSources.length ≤ 1024)
    (.bounds "policy bytes/sources")
  forResult SourceIdentity.validate policy.acceptedSources
  ensure (Ascending SourceIdentity.sessionId policy.acceptedSources)
    (.policy "source allowlist must be sorted and unique by session")

/-- Commitment fixed at genesis. -/
def TransferPolicy.commitment : Except TransferError Hash32 := do
  policy.validate
  Codec.hash env.session "myelin:reference-transfer-policy:v1" (env.postcard.policy policy)

/-- The effect policy of a session under this policy. -/
def TransferPolicy.effectPolicy : Except TransferError ProtocolEffectsPolicy := do
  let policyHash ← policy.commitment env
  pure (.application policyHash)

/-- The intake policy of a session under this policy. -/
def TransferPolicy.intakePolicy : Except TransferError Hash32 := do
  let commitment ← policy.commitment env
  Codec.hash env.session "myelin:reference-transfer-intake:v1" commitment.val

/-- A payload is one of this policy's. -/
def TransferPolicy.matchesPayload (payload : TransferPayload) : Except TransferError Unit :=
  ensure (policy.kind = payload.kind ∧ policy.deploymentId = payload.deploymentId ∧
      policy.uniquenessDomain = payload.uniquenessDomain ∧
      payload.components.length ≤ policy.limits.maxComponentsBytes.toNat)
    (.policy "transfer kind, deployment, store domain or components do not match policy")

/-- Schema of the command frames. -/
def inputSchema (env : SessionEnv) : Hash32 := env.blake3 (utf8 "myelin:reference-transfer-commands:v3")

/-- Codec of the state. -/
def stateCodec (env : SessionEnv) : Hash32 := env.blake3 (utf8 "myelin:reference-transfer-state:v1")

/-! ## Sources -/

namespace SourceBindings

/-- Resolve immutable source records through a read-only catalog. -/
def fromGenesis (genesis : Hash32 → Except TransferError SessionGenesis) :
    Except TransferError SourceBindings := do
  policy.validate
  forResult (fun anchor => do
    let actual ← genesis anchor.sessionId
    let identity ← SourceIdentity.fromConfig env.session actual.config
    ensure (identity = anchor) (.source "source genesis differs from pinned allowlist"))
    policy.acceptedSources
  let policyCommitment ← policy.commitment env
  pure ⟨policyCommitment, none⟩

/-- Resolve the sources in the store itself. -/
def fromStore (store : SessionStore) : Except TransferError SourceBindings :=
  fromGenesis env policy fun id => (store.loadGenesis id).mapError fun error => .source error.display

/-- One pass over the pending locks: how far back the session is that issued this one. -/
def lockDepth (config : SessionConfig) (store : SessionStore) (depths : SortedMap Hash32 Nat)
    (lock : PendingLock) : Except TransferError (SortedMap Hash32 Nat) :=
  if lock.source.sessionId = config.sessionId then do
    let identity ← SourceIdentity.fromConfig env.session config
    ensure (lock.source = identity) (.source "lock differs from its current genesis")
    pure depths
  else do
    let origin ← (store.loadGenesis lock.source.sessionId).mapError fun error => .source error.display
    let identity ← SourceIdentity.fromConfig env.session origin.config
    ensure (identity = lock.source) (.source "inherited lock differs from its original genesis")
    if (depths.get? lock.source.sessionId).isSome then pure depths
    else do
      let lineage ← (continuationLineage env.session store config lock.source.sessionId).mapError
        sourceError
      pure (depths.insert lock.source.sessionId lineage.length)

/-- Bindings for a state of a session, with the lineage of every inherited lock. -/
def forState (config : SessionConfig) (state : TransferState) (store : SessionStore) :
    Except TransferError SourceBindings := do
  let bindings ← fromStore env state.policy store
  let depths ← state.pending.foldlM (lockDepth env config store) SortedMap.empty
  pure { bindings with inheritance := some (config.commitment env.session, depths) }

end SourceBindings

/-! ## Commands -/

/-- Identity of a command in its session.  Every cancellation of one handoff has the same id, whatever
    its signature. -/
def TransferCommand.identity (command : TransferCommand) (sessionGenesis : Hash32) :
    Except TransferError CommandIdentity := do
  let id ← Codec.hash env.session "myelin:reference-transfer-command-id:v2" (match command with
    | .cancel handoffId _ => sessionGenesis.val ++ [2] ++ handoffId.val
    | _ => sessionGenesis.val ++ env.postcard.command command)
  let payloadHash ← Codec.hash env.session "myelin:reference-transfer-command-payload:v2"
    (env.postcard.command command)
  pure ⟨id, payloadHash⟩

/-- What an owner signs to cancel. -/
def cancellationDigest (env : SessionEnv) (genesis transferId handoffId owner : Hash32) :
    Except TransferError Hash32 :=
  Codec.hash env "myelin:reference-transfer-cancel:v1"
    (genesis.val ++ transferId.val ++ handoffId.val ++ owner.val)

/-- What an owner signs to continue a session. -/
def continuationDigest (env : SessionEnv) (source state target : Hash32) :
    Except TransferError Hash32 :=
  Codec.hash env "myelin:reference-transfer-continuation:v1" (source.val ++ state.val ++ target.val)

end Myelin.Transfer
