/-
  Ordered, locally verified evidence receipt chains for durable outbox work.
-/
import Myelin.Session.Record

namespace Myelin.Session

open Lib Consensus

variable (env : SessionEnv) (descriptor : EvidencePipelineDescriptor)

/-- Longest pipeline or stage name. -/
def maxEvidenceNameBytes : Nat := 128

/-- Most stages of a pipeline. -/
def maxEvidenceStages : Nat := 64

/-- Longest evidence of one stage. -/
def maxEvidenceBytes : Nat := 16 * 1024 * 1024

/-- A `u32` byte count followed by the text. -/
def putString (value : String) : List UInt8 :=
  le32 (UInt32.ofNat (utf8 value).length) ++ utf8 value

namespace EvidencePipelineDescriptor

/-- Stages are bounded, named uniquely and have a verifier. -/
def checkStages : List String → List EvidenceStage → Except SessionError Unit
  | _, [] => .ok ()
  | names, stage :: rest => do
      ensure (stage.name ≠ "" ∧ (utf8 stage.name).length ≤ maxEvidenceNameBytes ∧
          stage.name ∉ names)
        (.evidence "evidence stage names must be bounded, non-empty, and unique")
      ensure (stage.verifierCommitment ≠ zeroHash)
        (.evidence "evidence verifier commitment must not be zero")
      checkStages (stage.name :: names) rest

/-- Validate names, topic and stages. -/
def validate : Except SessionError Unit := do
  ensure (descriptor.pipelineName ≠ "" ∧
      (utf8 descriptor.pipelineName).length ≤ maxEvidenceNameBytes)
    (.evidence "pipeline name length must be 1..=128 bytes")
  ensure (descriptor.topic ≠ "" ∧
      (utf8 descriptor.topic).length ≤ OutboxMessage.maxOutboxTopicBytes)
    (.evidence "pipeline topic is empty or too long")
  ensure (descriptor.stages ≠ [] ∧ descriptor.stages.length ≤ maxEvidenceStages)
    (.evidence "evidence stage count must be 1..=64")
  checkStages [] descriptor.stages

/-- Commitment a handoff's evidence requirement names. -/
def commitment : Hash32 :=
  env.blake3 (utf8 "myelin:evidence-pipeline" ++ putString descriptor.pipelineName ++
    putString descriptor.topic ++ le32 (UInt32.ofNat descriptor.stages.length) ++
    descriptor.stages.flatMap (fun stage => putString stage.name ++ stage.verifierCommitment.val))

end EvidencePipelineDescriptor

/-- A receipt for one stage of a pipeline. -/
def EvidenceReceipt.new (stageIndex : Nat) (previousReceiptCommitment : Hash32)
    (evidence : List UInt8) : Except SessionError EvidenceReceipt := do
  descriptor.validate
  let stage ← okOr descriptor.stages[stageIndex]?
    (.evidence "evidence stage index is outside the pipeline")
  ensure (evidence ≠ [] ∧ evidence.length ≤ maxEvidenceBytes)
    (.evidence ("evidence bytes must be 1..=" ++ toString maxEvidenceBytes))
  ensure (stageIndex < 2 ^ 16) (.evidence "stage index overflow")
  pure ⟨UInt16.ofNat stageIndex, stage.name, stage.verifierCommitment, previousReceiptCommitment,
    evidence⟩

/-- Commitment the next receipt links to. -/
def EvidenceReceipt.commitment (receipt : EvidenceReceipt)
    (pipelineCommitment messageCommitment : Hash32) : Hash32 :=
  env.blake3 (utf8 "myelin:evidence-receipt" ++ pipelineCommitment.val ++ messageCommitment.val ++
    le16 receipt.stageIndex ++ putString receipt.stageName ++ receipt.verifierCommitment.val ++
    receipt.previousReceiptCommitment.val ++ le64 (UInt64.ofNat receipt.evidence.length) ++
    receipt.evidence)

/-- A receipt is for the next stage and links to the one before it. -/
def validateReceipt (receipt : EvidenceReceipt) (expectedIndex : Nat) (expectedPrevious : Hash32) :
    Except SessionError Unit := do
  let stage ← okOr descriptor.stages[expectedIndex]?
    (.evidence "cannot append beyond the terminal evidence stage")
  ensure (receipt.stageIndex.toNat = expectedIndex ∧ receipt.stageName = stage.name ∧
      receipt.verifierCommitment = stage.verifierCommitment ∧
      receipt.previousReceiptCommitment = expectedPrevious ∧ receipt.evidence ≠ [] ∧
      receipt.evidence.length ≤ maxEvidenceBytes)
    (.evidence "evidence receipt skipped a stage or does not match its verifier/linkage")

namespace EvidenceRecord

variable (record : EvidenceRecord)

/-- Receipts from `index` on form a linked chain. -/
def checkReceipts (env : SessionEnv) (record : EvidenceRecord) :
    Nat → Hash32 → List EvidenceReceipt → Except SessionError Unit
  | _, _, [] => .ok ()
  | index, previous, receipt :: rest => do
      validateReceipt record.descriptor receipt index previous
      checkReceipts env record (index + 1)
        (receipt.commitment env (record.descriptor.commitment env) record.messageCommitment) rest

/-- Checks that need neither session nor message. -/
def validateIntrinsic : Except SessionError Unit := do
  record.descriptor.validate
  ensure (record.sessionId ≠ zeroHash ∧ record.messageId ≠ zeroHash ∧
      record.messageCommitment ≠ zeroHash ∧ record.receipts ≠ [] ∧
      record.receipts.length ≤ record.descriptor.stages.length ∧
      record.revision.toNat = record.receipts.length - 1)
    (.evidence "evidence record identity, receipt count, or revision is invalid")
  record.checkReceipts env 0 zeroHash record.receipts

/-- Checks against the message the evidence is for. -/
def validateFor (sessionId : Hash32) (message : OutboxMessage)
    (descriptor : EvidencePipelineDescriptor) : Except SessionError Unit := do
  record.validateIntrinsic env
  ensure (record.sessionId = sessionId ∧ record.messageId = message.id ∧
      record.messageCommitment = message.commitment env ∧ record.descriptor = descriptor)
    (.evidence "evidence record identity, descriptor, or revision mismatch")

/-- Last accepted receipt. -/
def latestReceipt : Option EvidenceReceipt := record.receipts.getLast?

/-- Every stage has its receipt. -/
def isComplete : Bool :=
  record.receipts.length = record.descriptor.stages.length

/-- Receipts and revision an append goes on from. -/
def goOn (current : Option EvidenceRecord) (sessionId : Hash32) (message : OutboxMessage)
    (descriptor : EvidencePipelineDescriptor) :
    Except SessionError (List EvidenceReceipt × UInt64) :=
  match current with
  | none => .ok ([], 0)
  | some record => do
      record.validateFor env sessionId message descriptor
      let revision ← okOr (checkedAdd record.revision 1) (.evidence "evidence revision overflow")
      pure (record.receipts, revision)

/-- The record with one more receipt. -/
def append (current : Option EvidenceRecord) (sessionId : Hash32) (message : OutboxMessage)
    (descriptor : EvidencePipelineDescriptor) (receipt : EvidenceReceipt) :
    Except SessionError EvidenceRecord := do
  descriptor.validate
  message.validate
  ensure (message.topic = descriptor.topic)
    (.evidence "outbox topic does not match evidence pipeline")
  let (receipts, revision) ← goOn env current sessionId message descriptor
  let expectedPrevious := (receipts.getLast?.map fun previous =>
    previous.commitment env (descriptor.commitment env) (message.commitment env)).getD zeroHash
  validateReceipt descriptor receipt receipts.length expectedPrevious
  let record : EvidenceRecord :=
    ⟨sessionId, message.id, message.commitment env, descriptor, receipts ++ [receipt], revision⟩
  record.validateFor env sessionId message descriptor
  pure record

/-- `new` has the pipeline of `old`, and its receipts first. -/
def Extends (old new : EvidenceRecord) : Prop :=
  new.descriptor = old.descriptor ∧ old.receipts <+: new.receipts

/-- `new` has the pipeline of `old`, and its receipts with one more. -/
def Appends (old new : EvidenceRecord) : Prop :=
  new.descriptor = old.descriptor ∧ ∃ receipt, new.receipts = old.receipts ++ [receipt]

lemma Extends.refl : record.Extends record :=
  ⟨rfl, List.prefix_rfl⟩

lemma Extends.trans {first second : EvidenceRecord} (h₁ : first.Extends second)
    (h₂ : second.Extends third) : first.Extends third :=
  ⟨h₂.1.trans h₁.1, h₁.2.trans h₂.2⟩

section Appends

variable {env : SessionEnv} {old new : EvidenceRecord}

lemma Appends.extends (h : old.Appends new) : old.Extends new := by
  obtain ⟨hdescriptor, receipt, hreceipts⟩ := h
  exact ⟨hdescriptor, hreceipts ▸ List.prefix_append _ _⟩

/-- Between valid records of successive revisions, to extend is to append one receipt: a revision
    counts the receipts after the first. -/
lemma Extends.appends (h : old.Extends new) (hold : old.validateIntrinsic env = .ok ())
    (hnew : new.validateIntrinsic env = .ok ())
    (hrevision : new.revision.toNat = old.revision.toNat + 1) : old.Appends new := by
  obtain ⟨hdescriptor, more, hmore⟩ := h
  simp only [validateIntrinsic, eq_ok] at hold hnew
  obtain ⟨-, ⟨-, -, -, hsome, -, hcount⟩, -⟩ := hold
  obtain ⟨-, ⟨-, -, -, -, -, hnewCount⟩, -⟩ := hnew
  have hpositive : 0 < old.receipts.length := List.length_pos_of_ne_nil hsome
  have hlength : more.length = 1 := by
    rw [← hmore, List.length_append] at hnewCount
    omega
  obtain ⟨receipt, rfl⟩ := List.length_eq_one_iff.mp hlength
  exact ⟨hdescriptor, receipt, hmore.symm⟩

end Appends

/-- What is appended goes on from the record it was made from. -/
lemma append_ok {env : SessionEnv} {current : Option EvidenceRecord} {sessionId : Hash32}
    {message : OutboxMessage} {descriptor : EvidencePipelineDescriptor} {receipt : EvidenceReceipt}
    {record : EvidenceRecord}
    (h : append env current sessionId message descriptor receipt = .ok record) :
    record.messageId = message.id ∧ ∀ old ∈ current, old.Appends record := by
  simp only [append, eq_ok] at h
  obtain ⟨-, -, -, ⟨receipts, revision⟩, hgo, -, -, rfl⟩ := h
  refine ⟨rfl, fun old hold => ?_⟩
  obtain rfl := Option.mem_def.mp hold
  simp only [goOn, validateFor, eq_ok, Prod.mk.injEq] at hgo
  obtain ⟨⟨-, -, -, -, hdescriptor⟩, _, -, rfl, rfl⟩ := hgo
  exact ⟨hdescriptor.symm, receipt, rfl⟩

end EvidenceRecord

end Myelin.Session
