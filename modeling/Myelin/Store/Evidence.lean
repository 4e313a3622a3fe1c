/-
  Evidence records over whole histories.

  `compareAndSetEvidence` compares REVISIONS and validates the new record by itself.  It never looks
  at the receipts or the pipeline of the record it replaces, so revisions count up by one
  (`evidence_cas_ok`) while the contents may be anything of the next length
  (`evidence_replaced`).

  Whether a history is append-only therefore depends on its WRITERS.  A writer knows only what it
  has read, and other calls may take effect before its own does; so the condition is about what it
  has read: each write that takes effect offers a record the writer had found at some EARLIER point,
  with one more receipt, under the revision of that record (`Appending`).

    - It is enough: revisions are never used twice (`World.revision_later`), so a write that passes
      the comparison was made from the very record it replaces (`Appending.extends`).

    - It is needed: in an append-only history a write that takes effect extends the record it
      replaces; both are valid, and a valid record's revision counts its receipts, so exactly one is
      new (`AppendOnly.appending`).  Nothing is asked of a refused write, which changes nothing.
-/
import Myelin.Store.Calls

namespace Myelin.Store

open Lib Consensus Session Function
open FixedBytes (fill)

/-- A history from any world. -/
def World.after (env : SessionEnv) (world : World) (submissions : List Submission) : World :=
  submissions.foldl (World.submit env) world

/-- Whatever is stored at some point is extended by what is stored later. -/
def AppendOnly (env : SessionEnv) (world : World) (submissions : List Submission) : Prop :=
  ∀ earlier later rest, submissions = earlier ++ later ++ rest →
    ∀ key old, (world.after env earlier).store.evidence key = some old →
      ∃ new, (world.after env (earlier ++ later)).store.evidence key = some new ∧ old.Extends new

/-- Every evidence write that takes effect was made from what its writer had found at some earlier
    point: the record found there, with one more receipt, under its revision. -/
def Appending (env : SessionEnv) (world : World) (submissions : List Submission) : Prop :=
  ∀ earlier submission rest, submissions = earlier ++ submission :: rest →
    ∀ expectedRevision record next,
      submission.call = .compareAndSetEvidence expectedRevision record →
      submission.result env (world.after env earlier).store = .ok next →
      ∃ seen between found, earlier = seen ++ between ∧
        (world.after env seen).store.evidence (record.sessionId, record.messageId) = found ∧
        expectedRevision = found.map (·.revision) ∧ ∀ old ∈ found, old.Appends record

section Writes

variable {env : StoreEnv} {store next : RocksSessionStore}

/-- What a successful write did. -/
lemma evidence_cas_ok (h : compareAndSetEvidence env expectedRevision record store = .ok next) :
    next = { store with
      evidence := update store.evidence (record.sessionId, record.messageId) (some record) } ∧
    record.validateIntrinsic env.session = .ok () ∧
    (∀ old ∈ store.evidence (record.sessionId, record.messageId),
      old.validateIntrinsic env.session = .ok ()) ∧
    (store.evidence (record.sessionId, record.messageId)).map (·.revision) = expectedRevision ∧
    record.revision.toNat = (expectedRevision.map (·.toNat + 1)).getD 0 := by
  simp only [compareAndSetEvidence, EvidenceRecord.validateFor, eq_ok] at h
  obtain ⟨_, -, _, -, -, ⟨hintrinsic, -⟩, hstored, hcurrent, required, hrequired, hrevision, _, -, rfl⟩ :=
    h
  refine ⟨rfl, hintrinsic, fun old hold => ?_, hcurrent, ?_⟩
  · exact mapError_eq_ok.mp (forResult_eq_ok.mp hstored old (Option.mem_toList.mpr hold))
  rw [hrevision]
  unfold requiredRevision at hrequired
  split at hrequired
  · cases hrequired
    rfl
  · split at hrequired
    case isTrue revision hbound =>
      cases hrequired
      rw [Option.map_some, Option.getD_some, UInt64.toNat_add]
      exact Nat.mod_eq_of_lt hbound
    case isFalse => cases hrequired

/-- Every other call leaves evidence alone. -/
lemma StoreCall.exec_evidence {call : StoreCall} (h : call.exec env store = .ok next) :
    (∃ expectedRevision record, call = .compareAndSetEvidence expectedRevision record ∧
      Store.compareAndSetEvidence env expectedRevision record store = .ok next) ∨
    ((∀ expectedRevision record, call ≠ .compareAndSetEvidence expectedRevision record) ∧
      next.evidence = store.evidence) := by
  cases wrote h with
  | attested hattest => exact .inl ⟨_, _, rfl, hattest⟩
  | created | logged | acknowledged => exact .inr ⟨nofun, rfl⟩
  | committed hcommit =>
    obtain ⟨_, _, _, work, _, _, _, _, -, -, -, -, hwork, -, -, rfl⟩ := commitBlock_ok hcommit
    refine .inr ⟨nofun, ?_⟩
    rcases putSuccessor_ok hwork with ⟨-, rfl⟩ | ⟨_, _, -, -, -, rfl⟩ <;> rfl
  | offloaded hoffload =>
    refine .inr ⟨nofun, ?_⟩
    rcases hoffload with rfl | ⟨-, _, _, -, rfl⟩ <;> rfl

end Writes

section History

variable {env : SessionEnv} {world : World}

lemma World.after_append (earlier later : List Submission) :
    world.after env (earlier ++ later) = (world.after env earlier).after env later :=
  List.foldl_append

/-- One call either leaves a record, or writes one that replaces it. -/
lemma World.submit_evidence (submission : Submission) (hold : world.store.evidence key = some old) :
    (world.submit env submission).store.evidence key = some old ∨
      ∃ expectedRevision record next,
        submission.call = .compareAndSetEvidence expectedRevision record ∧
        submission.result env world.store = .ok next ∧ key = (record.sessionId, record.messageId) ∧
        (world.submit env submission).store.evidence key = some record ∧
        record.validateIntrinsic env = .ok () := by
  unfold World.submit
  split
  case h_2 => exact .inl hold
  case h_1 next hresult =>
    rcases StoreCall.exec_evidence (Submission.exec_of_result hresult) with
      ⟨expectedRevision, record, hcall, hcas⟩ | ⟨-, hsame⟩
    · obtain ⟨rfl, hvalid, -⟩ := evidence_cas_ok hcas
      by_cases hkey : key = (record.sessionId, record.messageId)
      · refine .inr ⟨expectedRevision, record, _, hcall, hresult, hkey, ?_, hvalid⟩
        rw [hkey]
        exact update_self ..
      · exact .inl ((update_of_ne hkey _ _).trans hold)
    · exact .inl ((congrFun hsame key).trans hold)

/-- A record is kept, or replaced under a greater revision. -/
lemma World.revision_later (later : List Submission) (hold : world.store.evidence key = some old) :
    ∃ new, (world.after env later).store.evidence key = some new ∧
      (new = old ∨ old.revision.toNat < new.revision.toNat) := by
  induction later generalizing world old with
  | nil => exact ⟨old, hold, .inl rfl⟩
  | cons submission rest ih =>
    rcases World.submit_evidence submission hold with
      hsame | ⟨expectedRevision, record, next, hcall, hresult, rfl, hnew, -⟩
    · exact ih hsame
    · obtain ⟨new, hlast, hcase⟩ := ih hnew
      have hexec := Submission.exec_of_result hresult
      rw [hcall] at hexec
      obtain ⟨-, -, -, hcurrent, hrevision⟩ := evidence_cas_ok hexec
      rw [hold, Option.map_some] at hcurrent
      rw [← hcurrent, Option.map_some, Option.getD_some] at hrevision
      refine ⟨new, hlast, .inr ?_⟩
      rcases hcase with rfl | hlater
      · omega
      · omega

variable {submissions : List Submission}

/-- A write that passes the comparison of revisions was made from the record it replaces. -/
lemma Appending.extends (h : Appending env world submissions)
    (hsplit : submissions = earlier ++ submission :: rest)
    (hcall : submission.call = .compareAndSetEvidence expectedRevision record)
    (hresult : submission.result env (world.after env earlier).store = .ok next)
    (hold : (world.after env earlier).store.evidence (record.sessionId, record.messageId) =
      some old) : old.Extends record := by
  obtain ⟨seen, between, found, rfl, hfound, hexpected, hrecord⟩ :=
    h earlier submission rest hsplit expectedRevision record next hcall hresult
  -- what was found has the revision of what is replaced
  have hexec := Submission.exec_of_result hresult
  rw [hcall] at hexec
  obtain ⟨-, -, -, hcurrent, -⟩ := evidence_cas_ok hexec
  rw [hold, hexpected, Option.map_some] at hcurrent
  obtain ⟨first, rfl, hrevision⟩ := Option.map_eq_some_iff.mp hcurrent.symm
  obtain ⟨new, hnew, hcase⟩ := World.revision_later between hfound
  rw [← World.after_append, hold, Option.some_inj] at hnew
  subst hnew
  rcases hcase with rfl | hlater
  · exact (hrecord _ rfl).extends
  · rw [hrevision] at hlater
    exact absurd hlater (Nat.lt_irrefl _)

/-- In a history of appending writes, what is stored is extended at every later point, and stays
    valid. -/
lemma Appending.later (h : Appending env world submissions) {earlier later rest : List Submission}
    (hsplit : submissions = earlier ++ later ++ rest) {key : Hash32 × Hash32} {old : EvidenceRecord}
    (hold : (world.after env earlier).store.evidence key = some old) :
    ∃ new, (world.after env (earlier ++ later)).store.evidence key = some new ∧ old.Extends new ∧
      (old.validateIntrinsic env = .ok () → new.validateIntrinsic env = .ok ()) := by
  -- the last call of `later` comes on top of what the others did
  induction later using List.reverseRecOn generalizing rest with
  | nil => exact ⟨old, by simpa using hold, .refl old, id⟩
  | append_singleton later submission ih =>
    have hbefore : submissions = earlier ++ later ++ submission :: rest := by simpa using hsplit
    obtain ⟨middle, hmiddle, hextends, hvalid⟩ := ih hbefore
    have hlast : world.after env (earlier ++ (later ++ [submission])) =
        (world.after env (earlier ++ later)).submit env submission := by
      rw [← List.append_assoc, World.after_append]
      rfl
    rw [hlast]
    rcases World.submit_evidence submission hmiddle with
      hsame | ⟨expectedRevision, record, next, hcall, hresult, rfl, hnew, hnewValid⟩
    · exact ⟨middle, hsame, hextends, hvalid⟩
    · have hstep : middle.Extends record := h.extends hbefore hcall hresult hmiddle
      exact ⟨record, hnew, hextends.trans hstep, fun _ => hnewValid⟩

/-- In an append-only history, the record a write replaces is one the writer could have started
    from. -/
lemma AppendOnly.appending (h : AppendOnly env world submissions) :
    Appending env world submissions := by
  intro earlier submission rest hsplit expectedRevision record next hcall hresult
  have hexec := Submission.exec_of_result hresult
  rw [hcall] at hexec
  obtain ⟨hnext, hvalid, hstored, hcurrent, hrevision⟩ := evidence_cas_ok hexec
  refine ⟨earlier, [], _, (List.append_nil _).symm, rfl, hcurrent.symm, fun old hold => ?_⟩
  obtain ⟨new, hnew, hextends⟩ := h earlier [submission] rest (by simpa using hsplit) _ old hold
  have hlast : (world.after env (earlier ++ [submission])).store = next := by
    have hsubmit : (world.after env earlier).submit env submission =
        ⟨next, (world.after env earlier).committed ++ submission.call.records⟩ := by
      unfold World.submit
      rw [hresult]
    rw [World.after_append]
    exact congrArg World.store hsubmit
  have hwritten : next.evidence (record.sessionId, record.messageId) = some record := by
    rw [hnext]
    exact update_self ..
  rw [hlast, hwritten, Option.some_inj] at hnew
  rw [Option.mem_def.mp hold, Option.map_some] at hcurrent
  rw [← hcurrent, Option.map_some, Option.getD_some] at hrevision
  exact (hnew ▸ hextends).appends (hstored old hold) hvalid hrevision

end History

section Requirement

variable {env : StoreEnv} {work : RocksSessionStore}

lemma checkEvidence_eq_ok : checkEvidence env work handoff = .ok () ↔
    ∀ requirement ∈ handoff.evidenceRequirement, ∃ evidence,
      work.evidence (handoff.sourceSessionId, requirement.messageId) = some evidence ∧
      evidence.validateIntrinsic env.session = .ok () ∧
      evidence.descriptor.commitment env.session = requirement.pipelineCommitment ∧
      requirement.minimumStageIndex.toNat < evidence.receipts.length := by
  unfold checkEvidence
  cases handoff.evidenceRequirement with
  | none => simp
  | some requirement =>
    simp only [eq_ok, Option.mem_def, Option.some_inj, forall_eq']

end Requirement

/-- Every evidence write takes the next revision, whatever it writes.  A history is append-only
    exactly when each of its writes adds one receipt to a record its writer had found before, and
    then a requirement that was once met is met ever after. -/
theorem evidence_append_only_iff (env : StoreEnv) (world : World) (submissions : List Submission) :
    (∀ earlier submission rest, submissions = earlier ++ submission :: rest →
      ∀ expectedRevision record next,
        submission.call = .compareAndSetEvidence expectedRevision record →
        submission.result env.session (world.after env.session earlier).store = .ok next →
        next.evidence (record.sessionId, record.messageId) = some record ∧
          ((world.after env.session earlier).store.evidence
            (record.sessionId, record.messageId)).map (·.revision) = expectedRevision ∧
          record.revision.toNat = (expectedRevision.map (·.toNat + 1)).getD 0) ∧
    (AppendOnly env.session world submissions ↔ Appending env.session world submissions) ∧
    (Appending env.session world submissions → ∀ earlier later rest,
      submissions = earlier ++ later ++ rest → ∀ handoff,
        checkEvidence env (world.after env.session earlier).store handoff = .ok () →
        checkEvidence env (world.after env.session (earlier ++ later)).store handoff = .ok ()) := by
  refine ⟨?_, ⟨AppendOnly.appending, fun h => ?_⟩, fun h => ?_⟩
  · intro earlier submission rest _ expectedRevision record next hcall hresult
    have hexec := Submission.exec_of_result hresult
    rw [hcall] at hexec
    obtain ⟨rfl, -, -, hcurrent, hrevision⟩ := evidence_cas_ok hexec
    exact ⟨update_self .., hcurrent, hrevision⟩
  · intro earlier later rest hsplit key old hold
    obtain ⟨new, hnew, hextends, -⟩ := h.later hsplit hold
    exact ⟨new, hnew, hextends⟩
  · intro earlier later rest hsplit handoff hmet
    rw [checkEvidence_eq_ok] at hmet ⊢
    intro requirement hrequirement
    obtain ⟨old, hold, hvalid, hcommitment, hstage⟩ := hmet requirement hrequirement
    obtain ⟨new, hnew, ⟨hdescriptor, hprefix⟩, hnewValid⟩ := h.later hsplit hold
    refine ⟨new, hnew, hnewValid hvalid, by rwa [hdescriptor], ?_⟩
    exact Nat.lt_of_lt_of_le hstage hprefix.length_le

/-! One writer publishes a record of the pipeline a handoff asks for; another replaces it. -/

/-- Hashes are the last 32 bytes. -/
def tailEnv : SessionEnv := ⟨.accepting tailBytes, .blank⟩

def tailMessage : OutboxMessage := ⟨fill 32 1, fill 32 2, "da", [3]⟩

/-- A store with one undelivered message. -/
def tailStore : RocksSessionStore :=
  { RocksSessionStore.empty with
    outbox := update (fun _ => none) (fill 32 8, 0, tailMessage.id) (some tailMessage)
    outboxIndex := update (fun _ => none) (fill 32 8, tailMessage.id) (some 0) }

/-- Two stages under one verifier. -/
def tailPipeline (name : String) (verifier : UInt8) : EvidencePipelineDescriptor :=
  ⟨name, "da", [⟨"posted", fill 32 verifier⟩, ⟨"sampled", fill 32 verifier⟩]⟩

/-- A receipt of one stage. -/
def tailReceipt (index : UInt16) (stage : String) (verifier : UInt8) (previous : Hash32) :
    EvidenceReceipt := ⟨index, stage, fill 32 verifier, previous, [7]⟩

def tailRecord (descriptor : EvidencePipelineDescriptor) (receipts : List EvidenceReceipt)
    (revision : UInt64) : EvidenceRecord :=
  ⟨fill 32 8, tailMessage.id, tailMessage.commitment tailEnv, descriptor, receipts, revision⟩

/-- The first receipt under `verifier`. -/
def tailFirst (verifier : UInt8) : EvidenceReceipt := tailReceipt 0 "posted" verifier zeroHash

def tailPublished : EvidenceRecord := tailRecord (tailPipeline "expected" 5) [tailFirst 5] 0

/-- Both stages of a pipeline. -/
def tailComplete (name : String) (verifier : UInt8) : EvidenceRecord :=
  tailRecord (tailPipeline name verifier) [tailFirst verifier, tailReceipt 1 "sampled" verifier
    ((tailFirst verifier).commitment tailEnv ((tailPipeline name verifier).commitment tailEnv)
      (tailMessage.commitment tailEnv))] 1

/-- A write of evidence. -/
def tailWrite (expectedRevision : Option UInt64) (record : EvidenceRecord) : Submission :=
  ⟨.compareAndSetEvidence expectedRevision record, none, 1, none⟩

def tailReplacement : EvidenceRecord := tailComplete "another" 6

def tailHistory : List Submission :=
  [tailWrite none tailPublished, tailWrite (some 0) tailReplacement]

/-- A handoff that waits for the first stage of the published pipeline. -/
def tailHandoff : SessionHandoff :=
  ⟨fill 32 8, 0, fill 32 2, fill 32 2, fill 32 2, .session (fill 32 9), 100, [], [],
    some ⟨tailMessage.id, (tailPipeline "expected" 5).commitment tailEnv, 0⟩⟩

/-- The second write succeeds, and the requirement is no longer met. -/
theorem evidence_replaced :
    let published := World.after tailEnv ⟨tailStore, []⟩ (tailHistory.take 1)
    let replaced := World.after tailEnv ⟨tailStore, []⟩ tailHistory
    published.store.evidence (fill 32 8, tailMessage.id) = some tailPublished ∧
      replaced.store.evidence (fill 32 8, tailMessage.id) = some tailReplacement ∧
      tailReplacement.descriptor ≠ tailPublished.descriptor ∧
      ¬ tailPublished.receipts <+: tailReplacement.receipts ∧
      checkEvidence ⟨tailEnv, none, 1⟩ published.store tailHandoff = .ok () ∧
      checkEvidence ⟨tailEnv, none, 1⟩ replaced.store tailHandoff =
        .error (.conflict "required handoff evidence stage has not been reached") := by
  refine ⟨rfl, rfl, by decide, by decide, rfl, rfl⟩

end Myelin.Store
