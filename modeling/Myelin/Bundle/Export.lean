/-
  `export_inner`: stream a catalog of sessions into a new bundle directory.

  The source store is read record by record while others go on writing to it.  `Environment.store` is
  its content at every moment; each read sees the content at the moment of its step.  Nothing is
  visible under the final name before the manifest is linked, which is the last thing that can fail to
  publish.

  Copying artifact files, checking the artifact graph, and indexing and auditing the staged bundle are
  given as `Outside`: they read local files and the staged blobs, never the source store.
-/
import Mathlib.Data.Prod.Lex
import Myelin.Bundle.Work
import Myelin.Session.Evidence
import Myelin.Session.Lineage
import Myelin.Lib.SortedMap

namespace Myelin.Bundle

open Lib Consensus Session

/-! ## Bundles -/

/-- BLAKE3 digest of a blob, also its file name. -/
abbrev BlobId := Hash32

/-- What a blob is for. -/
inductive BlobKind where
  | genesis
  | head
  | checkpoint
  | block
  | handoff
  | evidence
  | consensus
  | program
  | replayer
  | rules
  | buildInputs
  | toolchain
  | runtimeDependency
  deriving DecidableEq, Repr

/-- Session records carry an envelope. -/
def BlobKind.isRecord : BlobKind → Bool
  | .genesis | .head | .checkpoint | .block | .handoff | .evidence => true
  | _ => false

/-- Operational import budgets. -/
structure BundleLimits where
  manifestBytes : Nat
  blobBytes : Nat
  totalBytes : Nat
  nodes : Nat
  edges : Nat
  /-- Longest blob dependency path. -/
  dependencyDepth : Nat
  sessions : Nat
  blocks : Nat
  deriving DecidableEq, Repr

/-- Default budgets. -/
def BundleLimits.default : BundleLimits :=
  ⟨8 * 1024 * 1024, 256 * 1024 * 1024, 8 * 1024 * 1024 * 1024, 65536, 262144, 1024, 256, 60000⟩

/-- No budget is zero or beyond its ceiling. -/
def BundleLimits.validate (limits : BundleLimits) : Except BundleError Unit :=
  ensure (limits.manifestBytes ≠ 0 ∧ limits.manifestBytes ≤ 32 * 1024 * 1024 ∧
      limits.blobBytes ≠ 0 ∧ limits.blobBytes ≤ 512 * 1024 * 1024 ∧
      limits.totalBytes ≠ 0 ∧ limits.totalBytes ≤ 64 * 1024 * 1024 * 1024 ∧
      limits.nodes ≠ 0 ∧ limits.nodes ≤ 262144 ∧
      limits.edges ≠ 0 ∧ limits.edges ≤ 1048576 ∧
      limits.dependencyDepth ≠ 0 ∧ limits.dependencyDepth ≤ 262144 ∧
      limits.sessions ≠ 0 ∧ limits.sessions ≤ 4096 ∧
      limits.blocks ≠ 0 ∧ limits.blocks ≤ limits.nodes)
    ⟨.limit, "invalid or excessive bundle import limits"⟩

/-- Inventory entry of a blob. -/
structure Blob where
  id : BlobId
  bytes : Nat
  /-- One content blob can have several roles. -/
  roles : List BlobKind
  dependencies : List BlobId
  deriving DecidableEq

/-- Programs and files a session's replay needs. -/
structure ExecutionArtifacts where
  program : BlobId
  replayer : BlobId
  rules : BlobId
  buildInputs : BlobId
  toolchain : BlobId
  runtimeDependencies : List BlobId
  deriving DecidableEq

/-- What a bundle holds of one session. -/
structure SessionInventory where
  network : Hash32
  sessionId : Hash32
  genesisCommitment : Hash32
  profile : ApplicationProfile
  genesis : BlobId
  consensus : BlobId
  head : BlobId
  checkpoint : BlobId
  /-- Ascending block height, from genesis. -/
  blocks : List BlobId
  handoffs : List BlobId
  evidence : List BlobId
  execution : ExecutionArtifacts
  deriving DecidableEq

/-- The file that makes a directory a bundle. -/
structure BundleManifest where
  format : String
  myelinVersion : String
  recordVersions : List Nat
  roots : List Hash32
  blobs : List Blob
  sessions : List SessionInventory
  deriving DecidableEq

/-- A local file to copy. -/
structure ArtifactSource where
  id : BlobId
  path : String
  dependencies : List BlobId
  deriving DecidableEq

/-- One session to export. -/
structure ExportSession where
  sessionId : Hash32
  network : Hash32
  consensusToml : List UInt8
  execution : ExecutionArtifacts
  deriving DecidableEq

/-- Complete catalog of an export. -/
structure ExportPlan where
  roots : List Hash32
  sessions : List ExportSession
  artifacts : List ArtifactSource
  limits : BundleLimits
  deriving DecidableEq

/-! ## The staged bundle -/

/-- Blobs staged so far. -/
structure Writer where
  blobs : SortedMap BlobId Blob
  /-- Envelope versions seen. -/
  versions : SortedMap Nat Unit
  total : Nat
  deriving DecidableEq

/-- Nothing staged. -/
def Writer.empty : Writer := ⟨.empty, .empty, 0⟩

/-- A part of the export task. -/
abbrev Export (α : Type) := Work BundleManifest α

/-- What the exporter does without the source store. -/
structure Outside where
  /-- `validate_artifacts`. -/
  validateArtifacts : Export Unit
  /-- `Writer::artifact`: copy a file and everything it depends on. -/
  artifact : Writer → BlobId → BlobKind → Export Writer
  /-- Stage a preliminary manifest, index it and derive the causal edges of its blobs. -/
  index : BundleManifest → Export (List (BlobId × List BlobId))
  /-- Stage the manifest and audit the bundle under its own proposed anchors. -/
  audit : BundleManifest → Export Unit
  validateArtifacts_quiet : Quiet validateArtifacts
  artifact_quiet : ∀ writer id role, Quiet (artifact writer id role)
  index_quiet : ∀ manifest, Quiet (index manifest)
  audit_quiet : ∀ manifest, Quiet (audit manifest)

/-! ## The source store -/

/-- Content of the source store at one moment. -/
structure Source where
  genesis : Hash32 → Option SessionGenesis
  head : Hash32 → Option SessionHead
  checkpoint : Hash32 → Option StateCheckpoint
  block : Hash32 × UInt64 → Option FinalisedBlockRecord
  handoff : Hash32 → Option StoredHandoff
  evidence : Hash32 × Hash32 → Option EvidenceRecord

namespace Source

variable (source : Source)

/-- `load_genesis`. -/
def loadGenesis (id : Hash32) : Except StoreError SessionGenesis :=
  okOr (source.genesis id) (.notFound "session genesis")

/-- `load_head`. -/
def loadHead (id : Hash32) : Except StoreError SessionHead :=
  okOr (source.head id) (.notFound "session head")

/-- `load_checkpoint`. -/
def loadCheckpoint (id : Hash32) : Except StoreError StateCheckpoint :=
  okOr (source.checkpoint id) (.notFound "latest session checkpoint")

/-- `load_block`. -/
def loadBlock (id : Hash32) (height : UInt64) : Except StoreError FinalisedBlockRecord :=
  okOr (source.block (id, height)) (.notFound ("session block " ++ toString height))

/-- `load_handoff`. -/
def loadHandoff (id : Hash32) : Except StoreError (Option StoredHandoff) := .ok (source.handoff id)

/-- `load_evidence`. -/
def loadEvidence (id message : Hash32) : Except StoreError (Option EvidenceRecord) :=
  .ok (source.evidence (id, message))

end Source

/-- What an export runs with. -/
structure Environment where
  session : SessionEnv
  schedule : Schedule
  /-- The source store at every moment. -/
  store : Nat → Source
  outside : Outside

namespace Environment

variable (env : Environment)

/-- The source as a step finds it. -/
def sourceAt (tick : Nat) : Source := env.store (env.schedule.moment tick)

/-- One store read; `map_err(integrity)`. -/
def read {α : Type} (load : Source → Except StoreError α) : Export α := do
  let fault ← Proc.get (env.schedule.fault ·.tick)
  let source ← Proc.get (env.sourceAt ·.tick)
  Proc.modify Worker.next
  match fault with
  | some message => Proc.fail (.failed (integrity message))
  | none => check ((load source).mapError fun error => integrity error.display)

/-- `record.encode().map_err(integrity)`. -/
def encoded (bytes : Except SessionError (List UInt8)) : Export (List UInt8) :=
  check (bytes.mapError fun error => integrity error.display)

/-- `SessionHead::encode`. -/
def encodeHead (head : SessionHead) : Except SessionError (List UInt8) :=
  encodeRecord env.session (env.session.postcard.sessionHead head)

/-- `EvidenceRecord::encode`. -/
def encodeEvidence (record : EvidenceRecord) : Except SessionError (List UInt8) :=
  encodeRecord env.session (env.session.postcard.evidenceRecord record)

/-- `BlobId::of`. -/
def blobOf (bytes : List UInt8) : BlobId := env.session.blake3 bytes

end Environment

open Environment (encoded)

/-! ## Writing blobs -/

/-- Pieces a copy moves at a time: 64 KiB, and what is left. -/
def pieces (length : Nat) : List Nat :=
  List.replicate (length / 65536) 65536 ++
    if length % 65536 = 0 then [] else [length % 65536]

namespace Writer

variable (env : Environment) (limits : BundleLimits) (writer : Writer)

/-- `Writer::copy` from memory: a known blob only gets the role. -/
def copy (id : BlobId) (length : Nat) (role : BlobKind) : Export Writer := do
  checkpoint env.schedule 0
  match writer.blobs.get? id with
  | some existing => do
      check (ensure (existing.bytes = length)
        (integrity "inconsistent content length for a repeated digest"))
      let roles := if role ∈ existing.roles then existing.roles else existing.roles ++ [role]
      pure { writer with blobs := writer.blobs.insert id { existing with roles } }
  | none => do
      check (ensure (length ≠ 0 ∧ length ≤ limits.blobBytes ∧ writer.blobs.len < limits.nodes ∧
          length ≤ limits.totalBytes - writer.total)
        ⟨.limit, "export blob/node/expanded-size budget exceeded"⟩)
      fileOperation env.schedule
      (pieces length).foldlM (fun _ piece => do
        chargeIo env.schedule (piece * 2)
        fileOperation env.schedule) ()
      chargeIo env.schedule 1
      -- Synced, linked under its digest, and the temporary name removed.
      fileOperation env.schedule
      fileOperation env.schedule
      fileOperation env.schedule
      pure { writer with
        blobs := writer.blobs.insert id ⟨id, length, [role], []⟩, total := writer.total + length }

/-- A record must show its envelope; its version is noted. -/
def note (bytes : List UInt8) (role : BlobKind) : Except BundleError Writer :=
  if role.isRecord then do
    ensure (6 ≤ bytes.length ∧ bytes.take 4 = recordMagic)
      (integrity "exported record has no supported envelope")
    pure { writer with versions := writer.versions.insert (ofLeBytes ((bytes.drop 4).take 2)) () }
  else pure writer

/-- `Writer::add`: stage a blob under its digest. -/
def add (bytes : List UInt8) (role : BlobKind) : Export (BlobId × Writer) := do
  let id := env.blobOf bytes
  let noted ← check (writer.note bytes role)
  let stored ← noted.copy env limits id bytes.length role
  pure (id, stored)

end Writer

/-- Sorted, each once. -/
def sortedUnique (ids : List Hash32) : List Hash32 :=
  ids.dedup.mergeSort fun a b => decide (a ≤ b)

/-- Add content prerequisites of a blob. -/
def Blob.require (blob : Blob) (ids : List BlobId) : Blob :=
  { blob with dependencies := sortedUnique (blob.dependencies ++ ids) }

/-- Add content prerequisites of a staged blob. -/
def Writer.require (writer : Writer) (id : BlobId) (ids : List BlobId) : Writer :=
  match writer.blobs.get? id with
  | some blob => { writer with blobs := writer.blobs.insert id (blob.require ids) }
  | none => writer

/-! ## Capture -/

/-- Programs a successor's transition depends on. -/
def artifactDependencies (transition : SuccessorTransition) : List Hash32 :=
  match transition.state with
  | .continue => []
  | .compatible _ declarationHash vectorsHash => [declarationHash, vectorsHash]
  | .migrate artifact _ _ _ => [artifact.programDigest]

/-- Handoffs a block issues, consumes or acts on. -/
def handoffIds (env : SessionEnv) (record : FinalisedBlockRecord) : List Hash32 :=
  record.issuedHandoffs.map (·.id env) ++ record.consumedHandoffIds ++
    record.handoffActions.map (·.action.handoffId)

/-- What was captured of all sessions so far. -/
structure Capture where
  writer : Writer
  /-- Head and checkpoint blob of every session. -/
  captured : SortedMap Hash32 (SessionHead × BlobId)
  handoffs : SortedMap Hash32 BlobId
  evidence : SortedMap (Hash32 ×ₗ Hash32) BlobId
  sessions : List SessionInventory
  totalBlocks : Nat

/-- Nothing captured. -/
def Capture.empty : Capture := ⟨.empty, .empty, .empty, .empty, [], 0⟩

/-- What was captured of the session at hand, beside everything so far. -/
structure Shelf where
  capture : Capture
  blocks : List BlobId
  handoffs : SortedMap BlobId Unit
  evidence : SortedMap BlobId Unit

section Capture

variable (env : Environment) (limits : BundleLimits)

/-- Capture a handoff a block refers to; a second reading must agree with the first. -/
def exportHandoff (shelf : Shelf) (id : Hash32) : Export Shelf := do
  recordRead env.schedule
  let found ← env.read (·.loadHandoff id)
  let stored ← check (okOr found (missing "source handoff index absent"))
  let bytes ← encoded (stored.encode env.session)
  let (blob, writer) ← shelf.capture.writer.add env limits bytes .handoff
  check (ensure (∀ old ∈ shelf.capture.handoffs.get? id, old = blob)
    ⟨.sourceChanged, "handoff changed during export"⟩)
  pure { shelf with
    capture := { shelf.capture with writer, handoffs := shelf.capture.handoffs.insert id blob }
    handoffs := shelf.handoffs.insert blob () }

/-- Capture the evidence of a message, if it has any. -/
def exportEvidence (sessionId : Hash32) (shelf : Shelf) (message : OutboxMessage) :
    Export Shelf := do
  recordRead env.schedule
  let found ← env.read (·.loadEvidence sessionId message.id)
  match found with
  | none => pure shelf
  | some stored => do
      let bytes ← encoded (env.encodeEvidence stored)
      let (blob, writer) ← shelf.capture.writer.add env limits bytes .evidence
      pure { shelf with
        capture := { shelf.capture with
          writer, evidence := shelf.capture.evidence.insert (toLex (sessionId, message.id)) blob }
        evidence := shelf.evidence.insert blob () }

/-- Capture a block with the handoffs and evidence it refers to. -/
def exportBlock (sessionId : Hash32) (shelf : Shelf) (height : UInt64) : Export Shelf := do
  checkpoint env.schedule 0
  recordRead env.schedule
  let record ← env.read (·.loadBlock sessionId height)
  let artifacts := record.successor.elim [] fun successor =>
    artifactDependencies successor.transition
  let copied ← artifacts.foldlM
    (fun writer artifact => env.outside.artifact writer artifact .runtimeDependency)
    shelf.capture.writer
  let bytes ← encoded (record.encode env.session)
  let (block, writer) ← copied.add env limits bytes .block
  let staged : Shelf := { shelf with
    capture := { shelf.capture with writer := writer.require block artifacts }
    blocks := shelf.blocks ++ [block] }
  let referenced ← (handoffIds env.session record).foldlM (exportHandoff env limits) staged
  record.outbox.foldlM (exportEvidence env limits sessionId) referenced

/-- Largest consensus configuration. -/
def maxConsensusToml : Nat := 1024 * 1024

/-- Blobs of a session's programs and files, with their roles. -/
def ExecutionArtifacts.roles (execution : ExecutionArtifacts) : List (BlobId × BlobKind) :=
  [(execution.program, .program), (execution.replayer, .replayer), (execution.rules, .rules),
    (execution.buildInputs, .buildInputs), (execution.toolchain, .toolchain)] ++
  execution.runtimeDependencies.map fun id => (id, .runtimeDependency)

/-- Genesis, head and checkpoint of a session, and the number of its blocks. -/
structure Opening where
  genesis : SessionGenesis
  head : SessionHead
  latest : StateCheckpoint
  count : UInt64

/-- Read what a session stands at. -/
def readSession (id : Hash32) (totalBlocks : Nat) : Export Opening := do
  checkpoint env.schedule 0
  recordRead env.schedule
  let genesis ← env.read (·.loadGenesis id)
  recordRead env.schedule
  let head ← env.read (·.loadHead id)
  recordRead env.schedule
  let latest ← env.read (·.loadCheckpoint id)
  check (ensure (genesis.config.sessionId = id ∧ latest.sessionId = id ∧ head.sessionId = id ∧
      latest.finalisedHeight = head.finalisedHeight ∧ latest.stateRoot = head.stateRoot)
    ⟨.sourceChanged, "source head/checkpoint do not form one capture"⟩)
  let count ← check (head.nextHeight.mapError fun error => integrity error.display)
  check (ensure (totalBlocks + count.toNat ≤ u64Max) (integrity "export block count overflow"))
  check (ensure (totalBlocks + count.toNat ≤ limits.blocks)
    ⟨.limit, "export block budget exceeded"⟩)
  pure ⟨genesis, head, latest, count⟩

/-- Blobs of a session beside its blocks. -/
structure Staged where
  genesis : BlobId
  head : BlobId
  checkpoint : BlobId
  consensus : BlobId
  writer : Writer

/-- Stage a session's files, genesis, head, checkpoint and consensus configuration. -/
def stageSession (entry : ExportSession) (opening : Opening) (writer : Writer) : Export Staged := do
  let copied ← entry.execution.roles.foldlM
    (fun writer artifact => env.outside.artifact writer artifact.1 artifact.2) writer
  check (ensure (entry.consensusToml.length ≤ maxConsensusToml)
    ⟨.limit, "consensus config exceeds 1 MiB"⟩)
  let genesisBytes ← encoded (opening.genesis.encode env.session)
  let (genesis, writer) ← copied.add env limits genesisBytes .genesis
  let headBytes ← encoded (env.encodeHead opening.head)
  let (head, writer) ← writer.add env limits headBytes .head
  let checkpointBytes ← encoded (opening.latest.encode env.session)
  let (latest, writer) ← writer.add env limits checkpointBytes .checkpoint
  let (consensus, writer) ← writer.add env limits entry.consensusToml .consensus
  pure ⟨genesis, head, latest, consensus, writer⟩

/-- The empty shelf of a session whose head and checkpoint are captured. -/
def openShelf (capture : Capture) (id : Hash32) (opening : Opening) (staged : Staged) : Shelf where
  capture := { capture with
    writer := staged.writer
    captured := capture.captured.insert id (opening.head, staged.checkpoint)
    totalBlocks := capture.totalBlocks + opening.count.toNat }
  blocks := []
  handoffs := .empty
  evidence := .empty

/-- What the bundle holds of a session. -/
def inventory (entry : ExportSession) (id : Hash32) (opening : Opening) (staged : Staged)
    (shelf : Shelf) : SessionInventory where
  network := entry.network
  sessionId := id
  genesisCommitment := opening.genesis.config.commitment env.session
  profile := opening.genesis.config.applicationProfile
  genesis := staged.genesis
  consensus := staged.consensus
  head := staged.head
  checkpoint := staged.checkpoint
  blocks := shelf.blocks
  handoffs := shelf.handoffs.entries.map (·.1)
  evidence := shelf.evidence.entries.map (·.1)
  execution := entry.execution

/-- Capture one session. -/
def exportSession (capture : Capture) (member : Hash32 × ExportSession) : Export Capture := do
  let (id, entry) := member
  let opening ← readSession env limits id capture.totalBlocks
  let staged ← stageSession env limits entry opening capture.writer
  let shelf ← ((List.range opening.count.toNat).map UInt64.ofNat).foldlM (exportBlock env limits id)
    (openShelf capture id opening staged)
  pure { shelf.capture with
    sessions := shelf.capture.sessions ++ [inventory env entry id opening staged shelf] }

end Capture

/-! ## Publication -/

section Publish

variable (env : Environment) (capture : Capture)

/-- The check of what was captured goes item by item while the grant lasts. -/
def whileActive {α : Type} (item : α → Export Bool) : List α → Export Bool
  | [] => pure true
  | a :: rest => do
      let active ← publicationCheckActive env.schedule
      if active then do
        let more ← item a
        if more then whileActive item rest else pure false
      else pure false

/-- The source has moved on. -/
def advanced : BundleError :=
  ⟨.sourceChanged, "source advanced during export; retry from a quiescent capture"⟩

/-- Read a session's head and checkpoint again. -/
def checkHead (entry : Hash32 × SessionHead × BlobId) : Export Bool := do
  let head ← env.read (·.loadHead entry.1)
  let active ← publicationCheckActive env.schedule
  if active then do
    check (ensure (head = entry.2.1) advanced)
    let latest ← env.read (·.loadCheckpoint entry.1)
    let bytes ← encoded (latest.encode env.session)
    check (ensure (env.blobOf bytes = entry.2.2) advanced)
    pure true
  else pure false

/-- Read a record again, which must still be there and become the same blob. -/
def checkRecord {α : Type} (load : Source → Except StoreError (Option α))
    (encode : α → Except SessionError (List UInt8)) (removed changed : String) (blob : BlobId) :
    Export Bool := do
  let found ← env.read load
  let stored ← check (okOr found (missing removed))
  let bytes ← encoded (encode stored)
  check (ensure (env.blobOf bytes = blob) ⟨.sourceChanged, changed⟩)
  pure true

/-- Read a handoff again. -/
def checkHandoff (entry : Hash32 × BlobId) : Export Bool :=
  checkRecord env (·.loadHandoff entry.1) (·.encode env.session) "handoff removed during export"
    "handoff terminal state changed" entry.2

/-- Read the evidence of a message again. -/
def checkEvidence (entry : (Hash32 ×ₗ Hash32) × BlobId) : Export Bool :=
  checkRecord env (·.loadEvidence (ofLex entry.1).1 (ofLex entry.1).2) env.encodeEvidence
    "evidence removed during export" "evidence stage changed" entry.2

/-- `check_source`: read everything captured again.  `false` when the grant ran out on the way. -/
def checkSource : Export Bool := do
  let heads ← whileActive env (checkHead env) capture.captured.entries
  if heads then do
    let handoffs ← whileActive env (checkHandoff env) capture.handoffs.entries
    if handoffs then whileActive env (checkEvidence env) capture.evidence.entries else pure false
  else pure false

/-- Number of reads of one check. -/
def Capture.publicationReads : Nat :=
  capture.captured.len * 2 + capture.handoffs.len + capture.evidence.len

/-- One pass of the publication loop: whether a complete check lies within one grant. -/
def publicationPass : Export Bool := do
  reservePublicationReads env.schedule capture.publicationReads
  let before ← generation
  let complete ← checkSource env capture
  beforePublish env.schedule
  let after ← generation
  pure (complete && before == after)

/-- Passes until one is complete.  Each other pass uses up an answer of the owner, so that one more
    pass than there are answers is enough (`confirmSource_enough`). -/
def confirmSource : Nat → Export Unit
  | 0 => Proc.fail .parked
  | passes + 1 => do
      let confirmed ← publicationPass env capture
      if confirmed then pure () else confirmSource passes

end Publish

/-- The manifest becomes visible under its final name. -/
def linkManifest (env : Environment) (manifest : BundleManifest) : Export Unit := do
  fileOperation env.schedule
  Proc.modify fun w => { w with manifestJson := some manifest }

/-- Add derived edges to their blobs. -/
def addEdges (blobs : List Blob) (edges : List (BlobId × List BlobId)) :
    Except BundleError (List Blob) :=
  edges.foldlM (fun blobs edge => do
    ensure (∃ blob ∈ blobs, blob.id = edge.1) (missing "derived edge owner absent")
    pure (blobs.map fun blob => if blob.id = edge.1 then blob.require edge.2 else blob)) blobs

/-- `FORMAT`. -/
def bundleFormat : String := "myelin-session-bundle-v2"

/-- Preliminary manifest of a capture. -/
def Capture.manifest (capture : Capture) (version : String) (plan : ExportPlan) : BundleManifest where
  format := bundleFormat
  myelinVersion := version
  recordVersions := capture.writer.versions.entries.map (·.1)
  roots := sortedUnique plan.roots
  blobs := capture.writer.blobs.entries.map (·.2)
  sessions := capture.sessions

section Inner

variable (env : Environment) (version : String) (plan : ExportPlan)

/-- The catalog by session id. -/
def ExportPlan.catalog : SortedMap Hash32 ExportSession :=
  SortedMap.empty.insertAll (plan.sessions.map fun entry => (entry.sessionId, entry))

/-- The artifacts by digest. -/
def ExportPlan.sources : SortedMap BlobId ArtifactSource :=
  SortedMap.empty.insertAll (plan.artifacts.map fun entry => (entry.id, entry))

/-- What is checked before anything is created. -/
def ExportPlan.validate : Except BundleError Unit := do
  plan.limits.validate
  ensure (plan.sessions ≠ [] ∧ plan.sessions.length ≤ plan.limits.sessions ∧
      plan.artifacts.length ≤ plan.limits.nodes)
    ⟨.limit, "invalid export catalog size"⟩
  ensure (plan.catalog.len = plan.sessions.length ∧ plan.sources.len = plan.artifacts.length ∧
      plan.roots ≠ [] ∧ ∀ id ∈ plan.roots, (plan.catalog.get? id).isSome)
    ⟨.format, "duplicate catalog/artifact or absent root session"⟩

/-- Read all sessions of the catalog, in the order of their ids. -/
def capture : Export Capture := do
  check plan.validate
  env.outside.validateArtifacts
  fileOperation env.schedule
  fileOperation env.schedule
  plan.catalog.entries.foldlM (exportSession env plan.limits) .empty

/-- Complete and audit the staged bundle. -/
def stage (captured : Capture) : Export BundleManifest := do
  check (ensure (captured.publicationReads ≤ u64Max) ⟨.limit, "publication record count overflow"⟩)
  let preliminary := captured.manifest version plan
  let edges ← env.outside.index preliminary
  let blobs ← check (addEdges preliminary.blobs edges)
  let manifest := { preliminary with blobs }
  env.outside.audit manifest
  fileOperation env.schedule
  fileOperation env.schedule
  checkpoint env.schedule 0
  pure manifest

/-- Everything before the manifest is linked. -/
def prepare : Export BundleManifest := do
  let captured ← capture env plan
  let manifest ← stage env version plan captured
  let answers ← Proc.get (·.answers)
  confirmSource env captured (answers.length + 1)
  pure manifest

/-- `export_inner`. -/
def exportInner : Export BundleManifest := do
  let manifest ← prepare env version plan
  linkManifest env manifest
  markPublished
  fileOperation env.schedule
  fileOperation env.schedule
  pure manifest

end Inner

end Myelin.Bundle
