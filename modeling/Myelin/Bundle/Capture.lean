/-
  What a finished capture has read.

  The exporter's maps and inventories are built up over many reads.  Here they are related to the
  source: every blob that was noted is the digest of a record that some step of the capture found
  (`Backed`), and a session's inventory names exactly the records its blocks lead to (`Taken`).
  Loops are followed by what they have processed: the handoffs referred to and the messages seen.
-/
import Myelin.Bundle.Export

namespace Myelin.Bundle

open Lib Consensus Session
open Environment (encoded)
open Proc (keeps_pure keeps_foldlM foldlM_eq_ok)

variable {env : Environment} {blob : BlobId} {limits : BundleLimits} {α : Type}
  {load : Source → Except StoreError α} {last first : Nat} {shelf shelf' : Shelf} {id : Hash32}
  {message : OutboxMessage} {m : SortedMap BlobId Unit} {blocks : List FinalisedBlockRecord}

/-! ## Records and their digests -/

/-- A record of the source, by its key. -/
inductive Part where
  | genesis (session : Hash32)
  | head (session : Hash32)
  | checkpoint (session : Hash32)
  | block (session : Hash32) (height : UInt64)
  | handoff (id : Hash32)
  | evidence (session message : Hash32)
  deriving DecidableEq

/-- The kind of blob a record becomes. -/
def Part.kind : Part → BlobKind
  | .genesis _ => .genesis
  | .head _ => .head
  | .checkpoint _ => .checkpoint
  | .block _ _ => .block
  | .handoff _ => .handoff
  | .evidence _ _ => .evidence

/-- Content of a record. -/
inductive Record where
  | genesis (record : SessionGenesis)
  | head (record : SessionHead)
  | checkpoint (record : StateCheckpoint)
  | block (record : FinalisedBlockRecord)
  | handoff (record : StoredHandoff)
  | evidence (record : EvidenceRecord)

/-- The record under a key. -/
def Source.record (source : Source) : Part → Option Record
  | .genesis session => (source.genesis session).map .genesis
  | .head session => (source.head session).map .head
  | .checkpoint session => (source.checkpoint session).map .checkpoint
  | .block session height => (source.block (session, height)).map .block
  | .handoff id => (source.handoff id).map .handoff
  | .evidence session message => (source.evidence (session, message)).map .evidence

/-- Bytes of a record. -/
def Environment.encode (env : Environment) : Record → Except SessionError (List UInt8)
  | .genesis record => record.encode env.session
  | .head record => env.encodeHead record
  | .checkpoint record => record.encode env.session
  | .block record => record.encode env.session
  | .handoff record => record.encode env.session
  | .evidence record => env.encodeEvidence record

/-- The blob a record becomes, if it can be encoded. -/
def Environment.blob? (env : Environment) (record : Record) : Option BlobId :=
  (env.encode record).toOption.map env.blobOf

/-- The blob the record under a key becomes. -/
def Environment.digest (env : Environment) (source : Source) (part : Part) : Option BlobId :=
  (source.record part).bind env.blob?

lemma blob?_eq_some :
    env.blob? record = some blob ↔ ∃ bytes, env.encode record = .ok bytes ∧ env.blobOf bytes = blob := by
  unfold Environment.blob?
  cases env.encode record <;> simp [Except.toOption]

lemma digest_eq_some :
    env.digest source part = some blob ↔
      ∃ record, source.record part = some record ∧ env.blob? record = some blob :=
  Option.bind_eq_some_iff

/-! ## The parts of the export publish nothing -/

section Quiet

lemma read_eq_ok (h : env.read load w = (.ok a, w')) :
    load (env.sourceAt w.tick) = .ok a ∧ w' = w.next := by
  simp only [Environment.read, Proc.bind_eq_ok, Proc.get_eq_ok, Proc.modify_eq_ok] at h
  obtain ⟨fault, _, ⟨-, rfl⟩, _, _, ⟨rfl, rfl⟩, _, _, rfl, h⟩ := h
  cases fault with
  | some message => simp at h
  | none =>
    simp only [check, Proc.lift_eq_ok, mapError_eq_ok] at h
    exact ⟨h.1, h.2.symm⟩

lemma quiet_read (load : Source → Except StoreError α) : Quiet (env.read load) := by
  refine (Proc.keeps_get _).bind fun fault => (Proc.keeps_get _).bind fun source =>
    quiet_next.bind fun _ => ?_
  cases fault with
  | some message => exact Proc.keeps_fail _
  | none => exact quiet_check _

lemma quiet_encoded (bytes : Except SessionError (List UInt8)) :
    Quiet (encoded bytes) := quiet_check _

lemma quiet_copy (writer : Writer) (id : BlobId) (length : Nat) (role : BlobKind) :
    Quiet (writer.copy env limits id length role) := by
  refine quiet_charge.bind fun _ => ?_
  cases writer.blobs.get? id with
  | some existing => exact (quiet_check _).bind fun _ => keeps_pure _
  | none =>
    refine (quiet_check _).bind fun _ => quiet_fileOperation.bind fun _ => ?_
    refine (keeps_foldlM (fun _ _ => quiet_charge.bind fun _ => quiet_fileOperation) _ _).bind
      fun _ => quiet_charge.bind fun _ => ?_
    exact quiet_fileOperation.bind fun _ => quiet_fileOperation.bind fun _ =>
      quiet_fileOperation.bind fun _ => keeps_pure _

lemma quiet_add (writer : Writer) (bytes : List UInt8) (role : BlobKind) :
    Quiet (writer.add env limits bytes role) :=
  (quiet_check _).bind fun noted => (quiet_copy noted _ _ _).bind fun _ => keeps_pure _

/-- A staged blob is named by its digest. -/
lemma add_eq_ok {writer : Writer}
    (h : writer.add env limits bytes role w = (.ok (blob, stored), w')) :
    blob = env.blobOf bytes := by
  simp only [Writer.add, Proc.bind_eq_ok, Proc.pure_eq_ok] at h
  obtain ⟨_, _, -, _, _, -, hpair, -⟩ := h
  exact (Prod.mk.inj hpair).1.symm

lemma quiet_exportHandoff (shelf : Shelf) (id : Hash32) :
    Quiet (exportHandoff env limits shelf id) := by
  refine quiet_recordRead.bind fun _ => (quiet_read _).bind fun found =>
    (quiet_check _).bind fun stored => (quiet_encoded _).bind fun bytes => ?_
  exact (quiet_add _ _ _).bind fun _ => (quiet_check _).bind fun _ => keeps_pure _

lemma quiet_exportEvidence (sessionId : Hash32) (shelf : Shelf) (message : OutboxMessage) :
    Quiet (exportEvidence env limits sessionId shelf message) := by
  refine quiet_recordRead.bind fun _ => (quiet_read _).bind fun found => ?_
  cases found with
  | none => exact keeps_pure _
  | some stored =>
    exact (quiet_encoded _).bind fun bytes => (quiet_add _ _ _).bind fun _ => keeps_pure _

lemma quiet_exportBlock (sessionId : Hash32) (shelf : Shelf) (height : UInt64) :
    Quiet (exportBlock env limits sessionId shelf height) := by
  refine quiet_charge.bind fun _ => quiet_recordRead.bind fun _ => (quiet_read _).bind fun record => ?_
  refine (keeps_foldlM (fun _ _ => env.outside.artifact_quiet _ _ _) _ _).bind fun copied =>
    (quiet_encoded _).bind fun bytes => (quiet_add _ _ _).bind fun _ => ?_
  exact (keeps_foldlM quiet_exportHandoff _ _).bind fun referenced =>
    keeps_foldlM (quiet_exportEvidence sessionId) _ _

lemma quiet_readSession (id : Hash32) (totalBlocks : Nat) :
    Quiet (readSession env limits id totalBlocks) := by
  refine quiet_charge.bind fun _ => quiet_recordRead.bind fun _ => (quiet_read _).bind fun genesis =>
    quiet_recordRead.bind fun _ => (quiet_read _).bind fun head =>
    quiet_recordRead.bind fun _ => (quiet_read _).bind fun latest => ?_
  exact (quiet_check _).bind fun _ => (quiet_check _).bind fun count => (quiet_check _).bind fun _ =>
    (quiet_check _).bind fun _ => keeps_pure _

lemma quiet_stageSession (entry : ExportSession) (opening : Opening) (writer : Writer) :
    Quiet (stageSession env limits entry opening writer) := by
  refine (keeps_foldlM (fun _ _ => env.outside.artifact_quiet _ _ _) _ _).bind fun copied =>
    (quiet_check _).bind fun _ => (quiet_encoded _).bind fun _ => (quiet_add _ _ _).bind fun _ => ?_
  exact (quiet_encoded _).bind fun _ => (quiet_add _ _ _).bind fun _ => (quiet_encoded _).bind fun _ =>
    (quiet_add _ _ _).bind fun _ => (quiet_add _ _ _).bind fun _ => keeps_pure _

lemma quiet_exportSession (capture : Capture) (member : Hash32 × ExportSession) :
    Quiet (exportSession env limits capture member) := by
  refine (quiet_readSession _ _).bind fun opening => (quiet_stageSession _ _ _).bind fun staged => ?_
  exact (keeps_foldlM (quiet_exportBlock _) _ _).bind fun _ => keeps_pure _

lemma quiet_capture (plan : ExportPlan) : Quiet (capture env plan) := by
  refine (quiet_check _).bind fun _ => env.outside.validateArtifacts_quiet.bind fun _ =>
    quiet_fileOperation.bind fun _ => quiet_fileOperation.bind fun _ => ?_
  exact keeps_foldlM quiet_exportSession _ _

end Quiet

/-! ## What the steps of a capture found -/

section Found

variable {w w' : Worker BundleManifest}

/-- Some step from `first` up to `last` found the source so. -/
def Found (env : Environment) (first last : Nat) (fact : Source → Prop) : Prop :=
  ∃ tick, first ≤ tick ∧ tick < last ∧ fact (env.sourceAt tick)

variable {fact : Source → Prop}

lemma Found.later {later : Nat} (h : Found env first last fact) (hle : last ≤ later) :
    Found env first later fact := by
  obtain ⟨tick, hfirst, hlast, hfact⟩ := h
  exact ⟨tick, hfirst, hlast.trans_le hle, hfact⟩

lemma Found.earlier {earlier : Nat} (h : Found env first last fact) (hle : earlier ≤ first) :
    Found env earlier last fact := by
  obtain ⟨tick, hfirst, hlast, hfact⟩ := h
  exact ⟨tick, hle.trans hfirst, hlast, hfact⟩

/-- A read finds what it returns. -/
lemma found_of_read (h : env.read load w = (.ok a, w')) :
    Found env w.tick w'.tick (load · = .ok a) := by
  obtain ⟨hload, rfl⟩ := read_eq_ok h
  exact ⟨w.tick, le_rfl, Nat.lt_succ_self _, hload⟩

/-- A record that was found and encoded backs the blob it became. -/
lemma found_digest (part : Part) (h : Found env first last fact)
    (hrecord : ∀ source, fact source → source.record part = some record)
    (hbytes : env.encode record = .ok bytes) :
    Found env first last fun source => env.digest source part = some (env.blobOf bytes) := by
  obtain ⟨tick, hfirst, hlast, hfact⟩ := h
  exact ⟨tick, hfirst, hlast,
    digest_eq_some.mpr ⟨record, hrecord _ hfact, blob?_eq_some.mpr ⟨bytes, hbytes, rfl⟩⟩⟩

/-- What capturing a handoff comes to. -/
lemma exportHandoff_eq_ok (h : exportHandoff env limits shelf id w = (.ok shelf', w')) :
    ∃ blob writer,
      Found env w.tick w'.tick (fun source => env.digest source (.handoff id) = some blob) ∧
      (∀ old, shelf.capture.handoffs.get? id = some old → old = blob) ∧
      shelf' = { shelf with
        capture := { shelf.capture with
          writer, handoffs := shelf.capture.handoffs.insert id blob }
        handoffs := shelf.handoffs.insert blob () } := by
  simp only [exportHandoff, Proc.bind_eq_ok, check, Proc.lift_eq_ok, encoded,
    mapError_eq_ok, okOr_eq_ok, ensure_eq_ok, Proc.pure_eq_ok, Prod.exists] at h
  obtain ⟨_, m, hcharge, found, m₁, hread, stored, _, ⟨rfl, rfl⟩, bytes, _, ⟨hbytes, rfl⟩, blob, writer,
    _, hadd, _, _, ⟨hsame, rfl⟩, rfl, rfl⟩ := h
  obtain rfl := add_eq_ok hadd
  have hfound := found_digest (.handoff id) (found_of_read hread)
    (fun _ hload => congrArg (Option.map Record.handoff) (Except.ok.inj hload)) hbytes
  exact ⟨_, writer, (hfound.earlier (quiet_recordRead.ok hcharge).tick).later
    ((quiet_add _ _ _).ok hadd).tick, hsame, rfl⟩

/-- What looking for evidence comes to. -/
lemma exportEvidence_eq_ok
    (h : exportEvidence env limits sessionId shelf message w = (.ok shelf', w')) :
    (Found env w.tick w'.tick (fun source => source.evidence (sessionId, message.id) = none) ∧
      shelf' = shelf) ∨
    ∃ blob writer, Found env w.tick w'.tick
        (fun source => env.digest source (.evidence sessionId message.id) = some blob) ∧
      shelf' = { shelf with
        capture := { shelf.capture with
          writer, evidence := shelf.capture.evidence.insert (toLex (sessionId, message.id)) blob }
        evidence := shelf.evidence.insert blob () } := by
  simp only [exportEvidence, Proc.bind_eq_ok] at h
  obtain ⟨_, m, hcharge, found, m₁, hread, h⟩ := h
  have hstart := (quiet_recordRead.ok hcharge).tick
  have hfound := (found_of_read hread).earlier hstart
  cases found with
  | none =>
    obtain ⟨rfl, rfl⟩ := Proc.pure_eq_ok.mp h
    obtain ⟨tick, hfirst, hlast, hload⟩ := hfound
    exact .inl ⟨⟨tick, hfirst, hlast, Except.ok.inj hload⟩, rfl⟩
  | some stored =>
    simp only [Proc.bind_eq_ok, check, Proc.lift_eq_ok, encoded, mapError_eq_ok,
      Proc.pure_eq_ok, Prod.exists] at h
    obtain ⟨bytes, _, ⟨hbytes, rfl⟩, blob, writer, _, hadd, rfl, rfl⟩ := h
    obtain rfl := add_eq_ok hadd
    have hdigest := found_digest (.evidence sessionId message.id) hfound
      (fun _ hload => congrArg (Option.map Record.evidence) (Except.ok.inj hload)) hbytes
    exact .inr ⟨_, writer, hdigest.later ((quiet_add _ _ _).ok hadd).tick, rfl⟩

/-- Every blob noted so far is the digest of a record that some step found. -/
structure Backed (env : Environment) (first last : Nat) (capture : Capture) : Prop where
  head : ∀ id entry, capture.captured.get? id = some entry →
    Found env first last (fun source => source.head id = some entry.1) ∧
      Found env first last (fun source => env.digest source (.checkpoint id) = some entry.2)
  handoff : ∀ id blob, capture.handoffs.get? id = some blob →
    Found env first last (fun source => env.digest source (.handoff id) = some blob)
  evidence : ∀ session message blob, capture.evidence.get? (toLex (session, message)) = some blob →
    Found env first last (fun source => env.digest source (.evidence session message) = some blob)

lemma Backed.later {later : Nat} {capture : Capture} (h : Backed env first last capture)
    (hle : last ≤ later) : Backed env first later capture where
  head id entry hentry := ⟨(h.head id entry hentry).1.later hle, (h.head id entry hentry).2.later hle⟩
  handoff id blob hblob := (h.handoff id blob hblob).later hle
  evidence session message blob hblob := (h.evidence session message blob hblob).later hle

/-- The shelf of a session once its blocks have led to the handoffs `refs` and the messages `seen`.
    What is said about evidence takes the messages to be different ones: of a message met twice, the
    map keeps the later reading and the inventory both. -/
structure Shelved (env : Environment) (first last : Nat) (id : Hash32) (base : Capture)
    (refs seen : List Hash32) (shelf : Shelf) : Prop where
  backed : Backed env first last shelf.capture
  captured : shelf.capture.captured = base.captured
  sessions : shelf.capture.sessions = base.sessions
  grown : ∀ h blob, base.handoffs.get? h = some blob → shelf.capture.handoffs.get? h = some blob
  others : ∀ session message, session ≠ id →
    shelf.capture.evidence.get? (toLex (session, message)) =
      base.evidence.get? (toLex (session, message))
  handoffs : ∀ h ∈ refs, ∃ blob, shelf.capture.handoffs.get? h = some blob
  handoffBlobs : ∀ blob, shelf.handoffs.get? blob = some () ↔
    ∃ h ∈ refs, shelf.capture.handoffs.get? h = some blob
  unseen : ∀ message, message ∉ seen → shelf.capture.evidence.get? (toLex (id, message)) = none
  absent : seen.Nodup → ∀ message ∈ seen, shelf.capture.evidence.get? (toLex (id, message)) = none →
    Found env first last (fun source => source.evidence (id, message) = none)
  evidenceBlobs : seen.Nodup → ∀ blob, shelf.evidence.get? blob = some () ↔
    ∃ message ∈ seen, shelf.capture.evidence.get? (toLex (id, message)) = some blob

section Shelved

variable {base : Capture} {refs seen : List Hash32}

lemma Shelved.later {later : Nat} (h : Shelved env first last id base refs seen shelf)
    (hle : last ≤ later) : Shelved env first later id base refs seen shelf :=
  { h with
    backed := h.backed.later hle
    absent := fun hnodup message hmem hnone => (h.absent hnodup message hmem hnone).later hle }

lemma get?_unit_insert : (m.insert a ()).get? b = some () ↔ b = a ∨ m.get? b = some () := by
  rw [SortedMap.get?_insert]
  split <;> simp_all

/-- A list of blobs that follows what a map has for some keys, when a key comes with its blob. -/
lemma listed_insert {keys : List Hash32} {key : Hash32} {map map' : Hash32 → Option BlobId}
    {listed : SortedMap BlobId Unit} (h : ∀ b, listed.get? b = some () ↔ ∃ k ∈ keys, map k = some b)
    (hold : ∀ k ∈ keys, map' k = map k) (hnew : map' key = some blob) (b : BlobId) :
    (listed.insert blob ()).get? b = some () ↔ ∃ k ∈ keys ++ [key], map' k = some b := by
  have hkeys : (∃ k ∈ keys, map' k = some b) ↔ ∃ k ∈ keys, map k = some b :=
    exists_congr fun k => and_congr_right fun hmem => by rw [hold k hmem]
  simp only [List.mem_append, List.mem_singleton, or_and_right, exists_or, exists_eq_left, hnew,
    hkeys, get?_unit_insert, h, Option.some.injEq]
  rw [or_comm, eq_comm]

section

variable (h : Shelved env first w.tick id base refs seen shelf) (hfirst : first ≤ w.tick)
include h hfirst

/-- Capturing a handoff. -/
lemma Shelved.handoff_step {handoff : Hash32}
    (hstep : exportHandoff env limits shelf handoff w = (.ok shelf', w')) :
    Shelved env first w'.tick id base (refs ++ [handoff]) seen shelf' ∧
      shelf'.blocks = shelf.blocks := by
  have hle := ((quiet_exportHandoff shelf handoff).ok hstep).tick
  obtain ⟨blob, writer, hfound, hsame, rfl⟩ := exportHandoff_eq_ok hstep
  -- A handoff known before has the blob it had.
  have hkeep : ∀ other old, shelf.capture.handoffs.get? other = some old →
      (shelf.capture.handoffs.insert handoff blob).get? other = some old := by
    intro other old hold
    rw [SortedMap.get?_insert]
    split
    case isTrue heq => rw [hsame old (heq ▸ hold)]
    case isFalse => exact hold
  have hlater := h.later hle
  refine ⟨{ hlater with
    backed := { hlater.backed with handoff := ?_ }, grown := ?_, handoffs := ?_,
    handoffBlobs := ?_ }, rfl⟩
  · intro other b hb
    rw [SortedMap.get?_insert] at hb
    split at hb
    case isTrue heq => exact heq ▸ Option.some.inj hb ▸ hfound.earlier hfirst
    case isFalse => exact hlater.backed.handoff other b hb
  · intro other b hb
    exact hkeep other b (h.grown other b hb)
  · intro other hother
    rcases List.mem_append.mp hother with hmem | hmem
    · obtain ⟨b, hb⟩ := h.handoffs other hmem
      exact ⟨b, hkeep other b hb⟩
    · obtain rfl := List.mem_singleton.mp hmem
      exact ⟨blob, SortedMap.get?_insert_self⟩
  · refine listed_insert h.handoffBlobs (fun other hmem => ?_) SortedMap.get?_insert_self
    obtain ⟨b, hb⟩ := h.handoffs other hmem
    exact (hkeep other b hb).trans hb.symm

/-- Looking for the evidence of a message. -/
lemma Shelved.evidence_step
    (hstep : exportEvidence env limits id shelf message w = (.ok shelf', w')) :
    Shelved env first w'.tick id base refs (seen ++ [message.id]) shelf' ∧
      shelf'.blocks = shelf.blocks := by
  have hlater := h.later ((quiet_exportEvidence id shelf message).ok hstep).tick
  have hmem : ∀ other, other ∈ seen ++ [message.id] ↔ other ∈ seen ∨ other = message.id := by
    intro other
    rw [List.mem_append, List.mem_singleton]
  have hfresh : (seen ++ [message.id]).Nodup → seen.Nodup ∧ message.id ∉ seen := by
    intro hnodup
    obtain ⟨hseen, -, hdisjoint⟩ := List.nodup_append.mp hnodup
    exact ⟨hseen, fun hold => hdisjoint _ hold _ (List.mem_singleton_self _) rfl⟩
  obtain ⟨hfound, rfl⟩ | ⟨blob, writer, hfound, rfl⟩ := exportEvidence_eq_ok hstep
  · refine ⟨{ hlater with unseen := ?_, absent := ?_, evidenceBlobs := ?_ }, rfl⟩
    · intro other hother
      exact h.unseen other fun hold => hother ((hmem other).mpr (.inl hold))
    · intro hnodup other hother hnone
      rcases (hmem other).mp hother with hold | rfl
      · exact hlater.absent (hfresh hnodup).1 other hold hnone
      · exact hfound.earlier hfirst
    · intro hnodup b
      obtain ⟨hseen, hnew⟩ := hfresh hnodup
      simp only [hmem, or_and_right, exists_or, exists_eq_left, h.unseen _ hnew, reduceCtorEq,
        or_false, h.evidenceBlobs hseen b]
  · -- The one key written is that of the message.
    have hself : (shelf.capture.evidence.insert (toLex (id, message.id)) blob).get?
        (toLex (id, message.id)) = some blob := SortedMap.get?_insert_self
    have hother : ∀ session other, (session, other) ≠ (id, message.id) →
        (shelf.capture.evidence.insert (toLex (id, message.id)) blob).get? (toLex (session, other)) =
          shelf.capture.evidence.get? (toLex (session, other)) := by
      intro session other hne
      exact SortedMap.get?_insert_ne fun heq => hne (toLex_inj.mp heq)
    have hrest : ∀ other, other ≠ message.id →
        (shelf.capture.evidence.insert (toLex (id, message.id)) blob).get? (toLex (id, other)) =
          shelf.capture.evidence.get? (toLex (id, other)) :=
      fun other hne => hother id other fun heq => hne (Prod.mk.inj heq).2
    refine ⟨{ hlater with
      backed := { hlater.backed with evidence := ?_ }, others := ?_, unseen := ?_, absent := ?_,
      evidenceBlobs := ?_ }, rfl⟩
    · intro session other b hb
      by_cases heq : (session, other) = (id, message.id)
      · obtain ⟨rfl, rfl⟩ := Prod.mk.inj heq
        obtain rfl := Option.some.inj (hself.symm.trans hb)
        exact hfound.earlier hfirst
      · exact hlater.backed.evidence session other b ((hother session other heq).symm.trans hb)
    · intro session other hne
      exact (hother session other fun heq => hne (Prod.mk.inj heq).1).trans (h.others session other hne)
    · intro other hnot
      rw [hmem, not_or] at hnot
      exact (hrest other hnot.2).trans (h.unseen other hnot.1)
    · intro hnodup other hin hnone
      rcases (hmem other).mp hin with hold | rfl
      · have hne : other ≠ message.id := fun heq => (hfresh hnodup).2 (heq ▸ hold)
        exact hlater.absent (hfresh hnodup).1 other hold ((hrest other hne).symm.trans hnone)
      · cases hself.symm.trans hnone
    · intro hnodup
      obtain ⟨hseen, hnew⟩ := hfresh hnodup
      exact listed_insert (h.evidenceBlobs hseen)
        (fun other hold => hrest other fun heq => hnew (heq ▸ hold)) hself

/-- The handoffs of a block. -/
lemma Shelved.handoff_loop
    (hloop : list.foldlM (exportHandoff env limits) shelf w = (.ok shelf', w')) :
    Shelved env first w'.tick id base (refs ++ list) seen shelf' ∧ shelf'.blocks = shelf.blocks ∧
      first ≤ w'.tick := by
  refine foldlM_eq_ok (I := fun done s m =>
    Shelved env first m.tick id base (refs ++ done) seen s ∧ s.blocks = shelf.blocks ∧
      first ≤ m.tick) ?_ ⟨(List.append_nil refs).symm ▸ h, rfl, hfirst⟩ hloop
  rintro done handoff s m s' m' ⟨hs, hblocks, hm⟩ hpass
  obtain ⟨hs', hblocks'⟩ := hs.handoff_step hm hpass
  rw [List.append_assoc] at hs'
  exact ⟨hs', hblocks'.trans hblocks, hm.trans ((quiet_exportHandoff s handoff).ok hpass).tick⟩

/-- The messages of a block. -/
lemma Shelved.evidence_loop {list : List OutboxMessage}
    (hloop : list.foldlM (exportEvidence env limits id) shelf w = (.ok shelf', w')) :
    Shelved env first w'.tick id base refs (seen ++ list.map (·.id)) shelf' ∧
      shelf'.blocks = shelf.blocks ∧ first ≤ w'.tick := by
  refine foldlM_eq_ok (I := fun done s m =>
    Shelved env first m.tick id base refs (seen ++ done.map (·.id)) s ∧ s.blocks = shelf.blocks ∧
      first ≤ m.tick) ?_ ⟨(List.append_nil seen).symm ▸ h, rfl, hfirst⟩ hloop
  rintro done message s m s' m' ⟨hs, hblocks, hm⟩ hpass
  obtain ⟨hs', hblocks'⟩ := hs.evidence_step hm hpass
  rw [List.append_assoc, ← List.map_singleton, ← List.map_append] at hs'
  exact ⟨hs', hblocks'.trans hblocks, hm.trans ((quiet_exportEvidence id s message).ok hpass).tick⟩

end

end Shelved

/-! ## Blocks and sessions -/

/-- Handoffs the blocks of a session refer to. -/
def references (env : Environment) (blocks : List FinalisedBlockRecord) : List Hash32 :=
  blocks.flatMap (handoffIds env.session)

/-- Messages the blocks of a session send. -/
def messages (blocks : List FinalisedBlockRecord) : List Hash32 :=
  blocks.flatMap fun record => record.outbox.map (·.id)

/-- The shelf of a session once these blocks were captured, the ones at the heights `done`. -/
structure Blocked (env : Environment) (first last : Nat) (id : Hash32) (base : Capture)
    (done : List UInt64) (blocks : List FinalisedBlockRecord) (shelf : Shelf) : Prop where
  found : List.Forall₂ (fun height record => Found env first last fun source =>
    source.block (id, height) = some record) done blocks
  blobs : List.Forall₂ (fun record blob => env.blob? (.block record) = some blob) blocks shelf.blocks
  shelved : Shelved env first last id base (references env blocks) (messages blocks) shelf

section Blocked

variable {base : Capture} {done : List UInt64}

/-- Capturing a block. -/
lemma Blocked.step (h : Blocked env first w.tick id base done blocks shelf)
    (hfirst : first ≤ w.tick) {height : UInt64}
    (hstep : exportBlock env limits id shelf height w = (.ok shelf', w')) :
    ∃ record, Blocked env first w'.tick id base (done ++ [height]) (blocks ++ [record]) shelf' ∧
      first ≤ w'.tick := by
  simp only [exportBlock, Proc.bind_eq_ok, check, Proc.lift_eq_ok, encoded,
    mapError_eq_ok, Prod.exists] at hstep
  obtain ⟨_, m₁, hcharge, _, m₂, hrecordRead, record, m₃, hread, copied, m₄, hcopied, bytes, _,
    ⟨hbytes, rfl⟩, blob, writer, m₅, hadd, referenced, m₆, hhandoffs, hevidence⟩ := hstep
  obtain rfl := add_eq_ok hadd
  have hstart : w.tick ≤ m₂.tick :=
    (quiet_charge.ok hcharge).tick.trans (quiet_recordRead.ok hrecordRead).tick
  have hread' : m₂.tick ≤ m₃.tick := ((quiet_read _).ok hread).tick
  have hcopied' : m₃.tick ≤ m₅.tick :=
    ((keeps_foldlM (fun _ _ => env.outside.artifact_quiet _ _ _) _ _).ok hcopied).tick.trans
      ((quiet_add _ _ _).ok hadd).tick
  -- Staging the block changes nothing the invariant speaks of.
  have hbase := h.shelved.later (hstart.trans (hread'.trans hcopied'))
  have hstaged (writer : Writer) (ids : List BlobId) : Shelved env first m₅.tick id base
      (references env blocks) (messages blocks)
      { shelf with capture := { shelf.capture with writer }, blocks := ids } :=
    { hbase with backed := { hbase.backed with } }
  obtain ⟨hreferenced, hblocks, hm₆⟩ := (hstaged _ _).handoff_loop
    (hfirst.trans (hstart.trans (hread'.trans hcopied'))) hhandoffs
  obtain ⟨hseen, hblocks', hlast⟩ := hreferenced.evidence_loop hm₆ hevidence
  have hend : m₃.tick ≤ w'.tick := hcopied'.trans
    (((keeps_foldlM quiet_exportHandoff _ _).ok hhandoffs).tick.trans
      ((keeps_foldlM (quiet_exportEvidence id) _ _).ok hevidence).tick)
  have hfound : Found env first w'.tick fun source => source.block (id, height) = some record := by
    obtain ⟨tick, hle, hlt, hload⟩ := found_of_read hread
    exact ⟨tick, hfirst.trans (hstart.trans hle), hlt.trans_le hend, okOr_eq_ok.mp hload⟩
  refine ⟨record, ⟨?_, ?_, ?_⟩, hlast⟩
  · refine List.rel_append (h.found.imp fun _ _ hold => hold.later ?_) (.cons hfound .nil)
    exact (hstart.trans hread').trans hend
  · rw [hblocks', hblocks]
    exact List.rel_append h.blobs (.cons (blob?_eq_some.mpr ⟨bytes, hbytes, rfl⟩) .nil)
  · simpa only [references, messages, List.flatMap_append, List.flatMap_singleton] using hseen

/-- Capturing the blocks of a session. -/
lemma Blocked.loop (h : Blocked env first w.tick id base [] [] shelf) (hfirst : first ≤ w.tick)
    (hloop : heights.foldlM (exportBlock env limits id) shelf w = (.ok shelf', w')) :
    ∃ blocks, Blocked env first w'.tick id base heights blocks shelf' ∧ first ≤ w'.tick := by
  refine foldlM_eq_ok (I := fun done s m =>
    ∃ blocks, Blocked env first m.tick id base done blocks s ∧ first ≤ m.tick) ?_
    ⟨[], h, hfirst⟩ hloop
  rintro done height s m s' m' ⟨blocks, hs, hm⟩ hpass
  obtain ⟨record, hs', hm'⟩ := hs.step hm hpass
  exact ⟨blocks ++ [record], hs', hm'⟩

end Blocked

/-- What an inventory stands for: the head, and the blocks below it, that were read. -/
structure Taken (env : Environment) (first last : Nat) (capture : Capture)
    (inventory : SessionInventory) (head : SessionHead) (blocks : List FinalisedBlockRecord) :
    Prop where
  captured : capture.captured.get? inventory.sessionId = some (head, inventory.checkpoint)
  genesis : Found env first last fun source =>
    env.digest source (.genesis inventory.sessionId) = some inventory.genesis
  headBlob : env.blob? (.head head) = some inventory.head
  found : ∃ count : UInt64, head.nextHeight = .ok count ∧
    List.Forall₂ (fun height record => Found env first last fun source =>
      source.block (inventory.sessionId, height) = some record)
      ((List.range count.toNat).map UInt64.ofNat) blocks
  blobs : List.Forall₂ (fun record blob => env.blob? (.block record) = some blob) blocks
    inventory.blocks
  handoffs : ∀ h ∈ references env blocks, ∃ blob, capture.handoffs.get? h = some blob
  handoffBlobs : ∀ blob, blob ∈ inventory.handoffs ↔
    ∃ h ∈ references env blocks, capture.handoffs.get? h = some blob
  absent : (messages blocks).Nodup → ∀ message ∈ messages blocks,
    capture.evidence.get? (toLex (inventory.sessionId, message)) = none →
    Found env first last fun source => source.evidence (inventory.sessionId, message) = none
  evidenceBlobs : (messages blocks).Nodup → ∀ blob, blob ∈ inventory.evidence ↔
    ∃ message ∈ messages blocks,
      capture.evidence.get? (toLex (inventory.sessionId, message)) = some blob

/-- What the capture of the sessions `done` has come to. -/
structure Captured (env : Environment) (first last : Nat) (done : List Hash32) (capture : Capture) :
    Prop where
  backed : Backed env first last capture
  taken : ∀ inventory ∈ capture.sessions, ∃ head blocks,
    Taken env first last capture inventory head blocks
  ids : capture.sessions.map (·.sessionId) = done
  unseen : ∀ session message, session ∉ done →
    capture.evidence.get? (toLex (session, message)) = none

section Captured

variable {done : List Hash32} {before after : Capture}

lemma captured_empty (env : Environment) (first last : Nat) :
    Captured env first last [] Capture.empty where
  backed := ⟨nofun, nofun, nofun⟩
  taken := nofun
  ids := rfl
  unseen _ _ _ := rfl

/-- What was taken of a session stays so while others are captured. -/
lemma Taken.extend {later : Nat} {inventory : SessionInventory} {head : SessionHead}
    (h : Taken env first last before inventory head blocks) (hle : last ≤ later)
    (hcaptured : after.captured.get? inventory.sessionId = before.captured.get? inventory.sessionId)
    (hhandoffs : ∀ id blob, before.handoffs.get? id = some blob → after.handoffs.get? id = some blob)
    (hevidence : ∀ message, after.evidence.get? (toLex (inventory.sessionId, message)) =
      before.evidence.get? (toLex (inventory.sessionId, message))) :
    Taken env first later after inventory head blocks where
  captured := hcaptured.trans h.captured
  genesis := h.genesis.later hle
  headBlob := h.headBlob
  found := by
    obtain ⟨count, hcount, hfound⟩ := h.found
    exact ⟨count, hcount, hfound.imp fun _ _ hold => hold.later hle⟩
  blobs := h.blobs
  handoffs id hid := by
    obtain ⟨blob, hblob⟩ := h.handoffs id hid
    exact ⟨blob, hhandoffs id blob hblob⟩
  handoffBlobs blob := by
    rw [h.handoffBlobs]
    refine exists_congr fun id => and_congr_right fun hid => ⟨hhandoffs id blob, fun hafter => ?_⟩
    obtain ⟨old, hold⟩ := h.handoffs id hid
    rwa [Option.some.inj ((hhandoffs id old hold).symm.trans hafter)] at hold
  absent hnodup message hmem hnone :=
    (h.absent hnodup message hmem ((hevidence message).symm.trans hnone)).later hle
  evidenceBlobs hnodup blob := by
    simp only [h.evidenceBlobs hnodup, hevidence]

variable {opening : Opening}

/-- What the opening reads of a session found. -/
lemma readSession_eq_ok (h : readSession env limits id totalBlocks w = (.ok opening, w')) :
    Found env w.tick w'.tick (fun source => source.genesis id = some opening.genesis) ∧
      Found env w.tick w'.tick (fun source => source.head id = some opening.head) ∧
      Found env w.tick w'.tick (fun source => source.checkpoint id = some opening.latest) ∧
      opening.head.nextHeight = .ok opening.count := by
  simp only [readSession, Proc.bind_eq_ok, check, Proc.lift_eq_ok, mapError_eq_ok, ensure_eq_ok,
    Proc.pure_eq_ok] at h
  obtain ⟨_, m₁, hcharge, _, m₂, hcharge₁, genesis, m₃, hgenesis, _, m₄, hcharge₂, head, m₅, hhead, _,
    m₆, hcharge₃, latest, m₇, hlatest, _, _, ⟨-, rfl⟩, count, _, ⟨hcount, rfl⟩, _, _, ⟨-, rfl⟩, _, _,
    ⟨-, rfl⟩, rfl, rfl⟩ := h
  have h₂ : w.tick ≤ m₂.tick :=
    (quiet_charge.ok hcharge).tick.trans (quiet_recordRead.ok hcharge₁).tick
  have h₄ : m₃.tick ≤ m₄.tick := (quiet_recordRead.ok hcharge₂).tick
  have h₆ : m₅.tick ≤ m₆.tick := (quiet_recordRead.ok hcharge₃).tick
  obtain ⟨hfirst, rfl⟩ := read_eq_ok hgenesis
  obtain ⟨hsecond, rfl⟩ := read_eq_ok hhead
  obtain ⟨hthird, rfl⟩ := read_eq_ok hlatest
  simp only [Worker.next] at h₄ h₆ ⊢
  exact ⟨⟨m₂.tick, h₂, by omega, okOr_eq_ok.mp hfirst⟩,
    ⟨m₄.tick, by omega, by omega, okOr_eq_ok.mp hsecond⟩,
    ⟨m₆.tick, by omega, by omega, okOr_eq_ok.mp hthird⟩, hcount⟩

/-- The staged blobs are those of the records read. -/
lemma stageSession_eq_ok {staged : Staged}
    (h : stageSession env limits entry opening writer w = (.ok staged, w')) :
    env.blob? (.genesis opening.genesis) = some staged.genesis ∧
      env.blob? (.head opening.head) = some staged.head ∧
      env.blob? (.checkpoint opening.latest) = some staged.checkpoint := by
  simp only [stageSession, Proc.bind_eq_ok, check, Proc.lift_eq_ok, encoded,
    mapError_eq_ok, ensure_eq_ok, Proc.pure_eq_ok, Prod.exists] at h
  obtain ⟨copied, _, -, _, _, ⟨-, rfl⟩, genesisBytes, _, ⟨hgenesis, rfl⟩, _, _, _, hadd₁, headBytes, _,
    ⟨hhead, rfl⟩, _, _, _, hadd₂, checkpointBytes, _, ⟨hlatest, rfl⟩, _, _, _, hadd₃, _, _, _, -, rfl,
    rfl⟩ := h
  obtain rfl := add_eq_ok hadd₁
  obtain rfl := add_eq_ok hadd₂
  obtain rfl := add_eq_ok hadd₃
  exact ⟨blob?_eq_some.mpr ⟨_, hgenesis, rfl⟩, blob?_eq_some.mpr ⟨_, hhead, rfl⟩,
    blob?_eq_some.mpr ⟨_, hlatest, rfl⟩⟩

/-- A session whose head and checkpoint were just captured has an empty shelf. -/
lemma Captured.openShelf (h : Captured env first w.tick done before) (hfirst : first ≤ w.tick)
    (hnew : id ∉ done) (hlast : w.tick ≤ last)
    (hhead : Found env w.tick last fun source => source.head id = some opening.head)
    (hlatest : Found env w.tick last fun source => source.checkpoint id = some opening.latest)
    (hblob : env.blob? (.checkpoint opening.latest) = some staged.checkpoint) :
    Blocked env first last id (openShelf before id opening staged).capture [] []
      (openShelf before id opening staged) := by
  have hbacked := h.backed.later hlast
  refine ⟨.nil, .nil, ⟨{ hbacked with head := ?_ }, rfl, rfl, fun _ _ hold => hold, fun _ _ _ => rfl,
    nofun, ?_, fun message _ => h.unseen id message hnew, nofun, ?_⟩⟩
  · intro session entry hentry
    rw [Bundle.openShelf, SortedMap.get?_insert] at hentry
    split at hentry
    case isTrue heq =>
      obtain rfl := heq
      obtain rfl := Option.some.inj hentry
      obtain ⟨tick, hle, hlt, hfact⟩ := hlatest.earlier hfirst
      refine ⟨hhead.earlier hfirst, tick, hle, hlt, digest_eq_some.mpr ⟨_, ?_, hblob⟩⟩
      exact congrArg (Option.map Record.checkpoint) hfact
    case isFalse => exact hbacked.head session entry hentry
  · exact fun blob => ⟨nofun, nofun⟩
  · exact fun _ blob => ⟨nofun, nofun⟩

lemma mem_keys_iff : blob ∈ m.entries.map (·.1) ↔ m.get? blob = some () := by
  rw [SortedMap.get?_eq_some, List.mem_map]
  constructor
  · rintro ⟨⟨_, ⟨⟩⟩, hmem, rfl⟩
    exact hmem
  · exact fun hmem => ⟨_, hmem, rfl⟩

/-- Capturing a session that was not captured yet. -/
lemma Captured.step (h : Captured env first w.tick done before) (hfirst : first ≤ w.tick)
    (hnew : member.1 ∉ done) (hstep : exportSession env limits before member w = (.ok after, w')) :
    Captured env first w'.tick (done ++ [member.1]) after := by
  have hend := ((quiet_exportSession before member).ok hstep).tick
  obtain ⟨id, entry⟩ := member
  simp only [exportSession, Proc.bind_eq_ok, Proc.pure_eq_ok] at hstep
  obtain ⟨opening, m₁, hread, staged, m₂, hstage, shelf, m₃, hblocks, rfl, rfl⟩ := hstep
  have h₁ : w.tick ≤ m₁.tick := ((quiet_readSession _ _).ok hread).tick
  have h₂ : m₁.tick ≤ m₂.tick := ((quiet_stageSession _ _ _).ok hstage).tick
  have h₃ : m₂.tick ≤ m₃.tick := ((keeps_foldlM (quiet_exportBlock id) _ _).ok hblocks).tick
  obtain ⟨hgenesis, hhead, hlatest, hcount⟩ := readSession_eq_ok hread
  obtain ⟨hgenesisBlob, hheadBlob, hlatestBlob⟩ := stageSession_eq_ok hstage
  have hopen := h.openShelf hfirst hnew (h₁.trans h₂) (hhead.later h₂) (hlatest.later h₂) hlatestBlob
  obtain ⟨blocks, hblocked, -⟩ := hopen.loop (hfirst.trans (h₁.trans h₂)) hblocks
  have hshelved := hblocked.shelved
  have hcaptured : shelf.capture.captured =
      before.captured.insert id (opening.head, staged.checkpoint) := hshelved.captured
  refine ⟨{ hshelved.backed with }, ?_, ?_, ?_⟩
  · intro other hother
    rw [hshelved.sessions, List.mem_append, List.mem_singleton] at hother
    rcases hother with hold | rfl
    · -- Sessions captured before keep what they had: their keys are not written again.
      obtain ⟨head, others, htaken⟩ := h.taken other hold
      have hne : other.sessionId ≠ id := by
        intro heq
        exact hnew (h.ids ▸ heq ▸ List.mem_map_of_mem hold)
      refine ⟨head, others, htaken.extend hend ?_ hshelved.grown fun message =>
        hshelved.others other.sessionId message hne⟩
      rw [hcaptured]
      exact SortedMap.get?_insert_ne hne
    · refine ⟨opening.head, blocks, ⟨?_, ?_, hheadBlob, ⟨opening.count, hcount, hblocked.found⟩,
        hblocked.blobs, hshelved.handoffs, ?_, hshelved.absent, ?_⟩⟩
      · rw [hcaptured]
        exact SortedMap.get?_insert_self
      · obtain ⟨tick, hle, hlt, hfact⟩ := (hgenesis.earlier hfirst).later (h₂.trans h₃)
        exact ⟨tick, hle, hlt, digest_eq_some.mpr
          ⟨_, congrArg (Option.map Record.genesis) hfact, hgenesisBlob⟩⟩
      · exact fun blob => mem_keys_iff.trans (hshelved.handoffBlobs blob)
      · exact fun hnodup blob => mem_keys_iff.trans (hshelved.evidenceBlobs hnodup blob)
  · rw [hshelved.sessions, List.map_append]
    exact congrArg (· ++ [id]) h.ids
  · intro session message hnot
    rw [List.mem_append, List.mem_singleton, not_or] at hnot
    exact (hshelved.others session message hnot.2).trans (h.unseen session message hnot.1)

/-- What a finished capture has read. -/
lemma capture_eq_ok (h : capture env plan w = (.ok captured, w')) :
    Captured env w.tick w'.tick (plan.catalog.entries.map (·.1)) captured := by
  simp only [capture, Proc.bind_eq_ok] at h
  obtain ⟨_, m₁, hplan, _, m₂, hvalidate, _, m₃, hfile₁, _, m₄, hfile₂, hloop⟩ := h
  have hstart : w.tick ≤ m₄.tick :=
    ((quiet_check _).ok hplan).tick.trans ((env.outside.validateArtifacts_quiet.ok hvalidate).tick.trans
      ((quiet_fileOperation.ok hfile₁).tick.trans (quiet_fileOperation.ok hfile₂).tick))
  -- The catalog has every session once, so each pass captures a new one.
  refine (foldlM_eq_ok (I := fun done before m => (done.map (·.1)).Nodup →
    w.tick ≤ m.tick ∧ Captured env w.tick m.tick (done.map (·.1)) before) ?_
    (fun _ => ⟨hstart, captured_empty env _ _⟩) hloop plan.catalog.nodup_keys).2
  intro done member before m after m' hI hpass hnodup
  rw [List.map_append, List.map_singleton] at hnodup ⊢
  obtain ⟨hdone, -, hdisjoint⟩ := List.nodup_append.mp hnodup
  obtain ⟨hm, hbefore⟩ := hI hdone
  have hnew : member.1 ∉ done.map (·.1) :=
    fun hmem => hdisjoint _ hmem _ (List.mem_singleton_self _) rfl
  exact ⟨hm.trans ((quiet_exportSession before member).ok hpass).tick, hbefore.step hm hnew hpass⟩

end Captured

end Found

end Myelin.Bundle
