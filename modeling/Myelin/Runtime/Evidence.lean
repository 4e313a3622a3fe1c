/-
  The evidence worker.

  A worker loads a record, waits for an external service, and writes the record with one more receipt.
  In between, any other call may take effect, so its write may be based on an OLD record.  That is
  exactly what an appending history allows (`Store.Appending`): what a worker writes adds one receipt
  to what it loaded (`advanceDelivery_ok`), under the revision it loaded.  So histories in which only
  workers write evidence are append-only, however the workers interleave (`workers_append_only`).
-/
import Myelin.Store.Evidence

namespace Myelin.Runtime

open Lib Consensus Session Store

/-- Errors of the worker. -/
inductive EvidenceRuntimeError where
  | session (error : SessionError)
  | store (error : StoreError)
  | adapter (message : String)
  | registration (message : String)

/-- External evidence producer paired with a local verifier. -/
structure EvidenceAdapter where
  descriptor : EvidencePipelineDescriptor
  collectEvidence : OutboxMessage → EvidenceStage → Option EvidenceReceipt → Except String (List UInt8)
  verifyEvidence : OutboxMessage → EvidenceStage → Option EvidenceReceipt → List UInt8 →
    Except String Unit

/-- `load_evidence`. -/
def loadEvidence (env : SessionEnv) (store : RocksSessionStore) (sessionId messageId : Hash32) :
    Except StoreError (Option EvidenceRecord) :=
  match store.evidence (sessionId, messageId) with
  | none => .ok none
  | some record => do
      (record.validateIntrinsic env).mapError corrupt
      ensure (record.sessionId = sessionId ∧ record.messageId = messageId)
        (.corrupt "evidence key/record identity mismatch")
      pure (some record)

/-- The receipt of the next stage, collected and verified, on top of what is there. -/
def advanceStage (env : SessionEnv) (adapter : EvidenceAdapter) (sessionId : Hash32)
    (message : OutboxMessage) (current : Option EvidenceRecord) :
    Except EvidenceRuntimeError EvidenceRecord := do
  let stageIndex := (current.map (·.receipts.length)).getD 0
  let stage ← okOr adapter.descriptor.stages[stageIndex]? (.registration "pipeline has no next stage")
  let previous := current.bind (·.latestReceipt)
  let evidence ← (adapter.collectEvidence message stage previous).mapError .adapter
  (adapter.verifyEvidence message stage previous evidence).mapError .adapter
  let previousCommitment := (previous.map fun receipt =>
    receipt.commitment env (adapter.descriptor.commitment env) (message.commitment env)).getD zeroHash
  let receipt ← (EvidenceReceipt.new adapter.descriptor stageIndex previousCommitment
    evidence).mapError .session
  (EvidenceRecord.append env current sessionId message adapter.descriptor receipt).mapError .session

/-- `advance_delivery` up to its write: the record to write, or nothing when all stages are done. -/
def advanceDelivery (env : SessionEnv) (adapters : String → Option EvidenceAdapter)
    (sessionId : Hash32) (message : OutboxMessage) (current : Option EvidenceRecord) :
    Except EvidenceRuntimeError (Option EvidenceRecord) := do
  let adapter ← okOr (adapters message.topic)
    (.registration ("no evidence adapter for topic " ++ message.topic))
  adapter.descriptor.validate.mapError .session
  ensure (adapter.descriptor.topic = message.topic)
    (.registration "adapter descriptor changed its registered topic")
  forResult (fun record => (record.validateFor env sessionId message adapter.descriptor).mapError
    .session) current.toList
  if current.any (·.isComplete) then pure none
  else (advanceStage env adapter sessionId message current).map some

/-- The writes of the history are those of workers, each based on some record it had loaded. -/
def Workers (env : SessionEnv) (world : World) (submissions : List Submission) : Prop :=
  ∀ earlier submission rest, submissions = earlier ++ submission :: rest →
    ∀ expectedRevision record, submission.call = .compareAndSetEvidence expectedRevision record →
      ∃ seen between adapters message current, earlier = seen ++ between ∧
        loadEvidence env (world.after env seen).store record.sessionId message.id = .ok current ∧
        advanceDelivery env adapters record.sessionId message current = .ok (some record) ∧
        expectedRevision = current.map (·.revision)

variable {env : SessionEnv} {current : Option EvidenceRecord}

lemma loadEvidence_ok (h : loadEvidence env store sessionId messageId = .ok current) :
    store.evidence (sessionId, messageId) = current := by
  unfold loadEvidence at h
  split at h
  case h_1 hnone =>
    cases h
    exact hnone
  case h_2 record hrecord =>
    simp only [eq_ok] at h
    obtain ⟨-, -, rfl⟩ := h
    exact hrecord

/-- What a worker writes adds one receipt to what it loaded. -/
lemma advanceDelivery_ok
    (h : advanceDelivery env adapters sessionId message current = .ok (some record)) :
    record.messageId = message.id ∧ ∀ old ∈ current, old.Appends record := by
  simp only [advanceDelivery, eq_ok] at h
  obtain ⟨adapter, -, -, -, -, h⟩ := h
  split at h
  case isTrue => cases h
  case isFalse =>
    rw [map_eq_ok] at h
    obtain ⟨_, hstage, hsome⟩ := h
    cases hsome
    simp only [advanceStage, eq_ok] at hstage
    obtain ⟨_, -, _, -, -, _, -, happend⟩ := hstage
    exact EvidenceRecord.append_ok happend

variable {world : World}

variable {submissions : List Submission}

/-- Workers write on top of what they had loaded. -/
lemma Workers.appending (h : Workers env world submissions) : Appending env world submissions := by
  intro earlier submission rest hsplit expectedRevision record next hcall _
  obtain ⟨seen, between, adapters, message, current, hearlier, hload, hadvance, hexpected⟩ :=
    h earlier submission rest hsplit expectedRevision record hcall
  obtain ⟨hmessage, happends⟩ := advanceDelivery_ok hadvance
  exact ⟨seen, between, current, hearlier, hmessage ▸ loadEvidence_ok hload, hexpected, happends⟩

/-- However workers interleave, evidence only grows. -/
theorem workers_append_only (h : Workers env world submissions) :
    AppendOnly env world submissions := by
  intro earlier later rest hsplit key old hold
  obtain ⟨new, hnew, hextends, -⟩ := h.appending.later hsplit hold
  exact ⟨new, hnew, hextends⟩

/-- A worker for the pipeline that is published first. -/
def tailAdapter : EvidenceAdapter :=
  ⟨tailPipeline "expected" 5, fun _ _ _ => .ok [7], fun _ _ _ _ => .ok ()⟩

/-- Three workers.  The first two both load nothing; the first one publishes stage 0.  The third
    loads that and goes on to stage 1, but before it writes, the second one tries its stage 0. -/
def tailWorkers : List Submission :=
  [tailWrite none tailPublished, tailWrite none tailPublished,
    tailWrite (some 0) (tailComplete "expected" 5)]

/-- The late write is refused, and the evidence of both stages is there in the end. -/
theorem workers_append_only_tail :
    AppendOnly tailEnv ⟨tailStore, []⟩ tailWorkers ∧
      (World.after tailEnv ⟨tailStore, []⟩ tailWorkers).store.evidence
        (FixedBytes.fill 32 8, tailMessage.id) = some (tailComplete "expected" 5) := by
  refine ⟨workers_append_only fun earlier submission rest hsplit expectedRevision record hcall => ?_,
    rfl⟩
  -- which write it is decides what its worker had loaded, and when
  rcases earlier with _ | ⟨first, _ | ⟨second, _ | ⟨third, more⟩⟩⟩
  · cases hsplit
    cases hcall
    exact ⟨[], [], fun _ => some tailAdapter, tailMessage, none, rfl, rfl, rfl, rfl⟩
  · cases hsplit
    cases hcall
    exact ⟨[], _, fun _ => some tailAdapter, tailMessage, none, rfl, rfl, rfl, rfl⟩
  · cases hsplit
    cases hcall
    exact ⟨[_], _, fun _ => some tailAdapter, tailMessage, some tailPublished, rfl, rfl, rfl, rfl⟩
  · simp [tailWorkers] at hsplit

end Myelin.Runtime
