/-
  How far a published bundle is one consistent cut.

  The source moves on during an export, but only forward: `Progressive` says what that means for its
  records.  A bundle is a CUT at a moment if everything in it is what the source held then, and the
  source held nothing else that belongs in it.

  The source is documented to be quiescent during an export, and the export's own check catches most
  of what happens otherwise.  Three things are read in the course of a run:

  1. heads, checkpoints, handoffs and evidence that were captured are read AGAIN before publication.
     A record that never comes back to what it has left and is found the same twice was the same in
     between (`Forward.between`), so all of them stood together when that check began;

  2. a genesis and the blocks below a head are read once, but they never change, and they are there
     whenever the head is (`Progressive.blocksBelow`, `Progressive.genesis_digest`);

  3. evidence that was ABSENT when it was looked for is not looked for again.  All that is known of
     it is that it was absent at some earlier moment of the run (`TogetherAt`).

  The first two give the single moment at which everything in the bundle stood
  (`export_captured_together`).  The third is why that moment need not be a cut: evidence can appear
  after it was looked for and before something else is captured (`export_mixes_moments`).  In a
  source that gains no evidence during the run, the moment is a cut.
-/
import Myelin.Bundle.Publish
import Myelin.Lib.Transitions

namespace Myelin.Bundle

open Lib Consensus Session

variable {blocks : List FinalisedBlockRecord} {manifest : BundleManifest} {env : Environment}
  {t final : Nat} {inventory : SessionInventory} {head : SessionHead} {part : Part}

/-! ## A source that only moves forward -/

/-- Heights below a head. -/
def heights (count : UInt64) : List UInt64 := (List.range count.toNat).map UInt64.ofNat

/-- The blocks below a session's head. -/
def Source.BlocksBelow (source : Source) (session : Hash32) (head : SessionHead)
    (blocks : List FinalisedBlockRecord) : Prop :=
  ∃ count, head.nextHeight = .ok count ∧
    List.Forall₂ (fun height record => source.block (session, height) = some record)
      (heights count) blocks

/-- Other writers only move the source forward. -/
structure Progressive (env : Environment) : Prop where
  /-- No record comes back to what it has left: heads and checkpoints advance, handoffs and evidence
      move to later stages. -/
  forward : ∀ part, Forward fun t => (env.store t).record part
  /-- A genesis and a committed block never change. -/
  fixed : ∀ part record a b, part.kind = .genesis ∨ part.kind = .block → a ≤ b →
    (env.store a).record part = some record → (env.store b).record part = some record
  /-- A head comes with its genesis and its blocks. -/
  committed : ∀ t session head count, (env.store t).head session = some head →
    head.nextHeight = .ok count → (env.store t).genesis session ≠ none ∧
      ∀ height ∈ heights count, (env.store t).block (session, height) ≠ none

/-- No two messages of a session have the same identity, which is derived from where the message was
    sent. -/
def SentOnce (env : Environment) : Prop :=
  ∀ t session head blocks, (env.store t).head session = some head →
    (env.store t).BlocksBelow session head blocks → (messages blocks).Nodup

/-- The digest of what stands under one key tells what stands there: the digest has no collision
    among the records the source holds in the course of time. -/
def DigestsTell (env : Environment) : Prop :=
  ∀ a b part blob, env.digest (env.store a) part = some blob →
    env.digest (env.store b) part = some blob → (env.store a).record part = (env.store b).record part

/-! ## Cuts -/

section Cuts

variable (env : Environment) (source : Source) (inventory : SessionInventory)

/-- Everything an inventory names is in the source, and it names everything the blocks below the
    head refer to, evidence apart. -/
structure Holds (head : SessionHead) (blocks : List FinalisedBlockRecord) : Prop where
  genesis : env.digest source (.genesis inventory.sessionId) = some inventory.genesis
  headAt : source.head inventory.sessionId = some head
  headBlob : env.blob? (.head head) = some inventory.head
  checkpoint : env.digest source (.checkpoint inventory.sessionId) = some inventory.checkpoint
  below : source.BlocksBelow inventory.sessionId head blocks
  blockBlobs : List.Forall₂ (fun record blob => env.blob? (.block record) = some blob) blocks
    inventory.blocks
  /-- Every handoff the blocks refer to is in the bundle as it is in the source, … -/
  handoffs : ∀ id ∈ references env blocks, ∃ blob ∈ inventory.handoffs,
    env.digest source (.handoff id) = some blob
  /-- … and no other. -/
  handoffBlobs : ∀ blob ∈ inventory.handoffs, ∃ id ∈ references env blocks,
    env.digest source (.handoff id) = some blob
  evidenceBlobs : ∀ blob ∈ inventory.evidence, ∃ message ∈ messages blocks,
    env.digest source (.evidence inventory.sessionId message) = some blob

/-- The evidence of a message is in the bundle as it is in the source. -/
def Attested (message : Hash32) : Prop :=
  ∃ blob ∈ inventory.evidence, env.digest source (.evidence inventory.sessionId message) = some blob

/-- The source holds exactly what a bundle names: a message of its blocks without evidence in the
    bundle has none in the source either. -/
def Cut (manifest : BundleManifest) : Prop :=
  ∀ inventory ∈ manifest.sessions, ∃ head blocks, Holds env source inventory head blocks ∧
    ∀ message ∈ messages blocks, Attested env source inventory message ∨
      source.evidence (inventory.sessionId, message) = none

/-- At the moment `t` the source holds everything a bundle names; a message without evidence in the
    bundle had none at some moment between `first` and `t`. -/
def TogetherAt (first t : Nat) (manifest : BundleManifest) : Prop :=
  ∀ inventory ∈ manifest.sessions, ∃ head blocks, Holds env (env.store t) inventory head blocks ∧
    ∀ message ∈ messages blocks, Attested env (env.store t) inventory message ∨
      ∃ s, first ≤ s ∧ s ≤ t ∧ (env.store s).evidence (inventory.sessionId, message) = none

/-- No evidence appears between two moments. -/
def NoneAppears (first last : Nat) : Prop :=
  ∀ s key, first ≤ s → s ≤ last → (env.store s).evidence key = none →
    (env.store last).evidence key = none

end Cuts

/-- Where no evidence has appeared since the start of the run, what stands together is a cut. -/
lemma TogetherAt.cut {first : Nat} (h : TogetherAt env first t manifest)
    (hnone : NoneAppears env first t) : Cut env (env.store t) manifest := by
  intro inventory hinventory
  obtain ⟨head, blocks, hholds, hevidence⟩ := h inventory hinventory
  refine ⟨head, blocks, hholds, fun message hmessage => ?_⟩
  rcases hevidence message hmessage with hattested | ⟨s, hfirst, hlast, habsent⟩
  · exact .inl hattested
  · exact .inr (hnone s _ hfirst hlast habsent)

/-! ## What the laws give -/

section Laws

variable (hlaws : Progressive env)

include hlaws

/-- A record seen twice with one digest had that digest in between. -/
lemma Progressive.digest_between (hdigests : DigestsTell env) (hab : a ≤ b) (hbc : b ≤ c)
    (ha : env.digest (env.store a) part = some blob)
    (hc : env.digest (env.store c) part = some blob) :
    env.digest (env.store b) part = some blob := by
  have hbetween : (env.store b).record part = (env.store a).record part :=
    hlaws.forward part hab hbc (hdigests a c part blob ha hc)
  rwa [Environment.digest, hbetween]

/-- A genesis or a block is the same whenever it is seen. -/
lemma Progressive.fixed_eq (hkind : part.kind = .genesis ∨ part.kind = .block)
    (ha : (env.store a).record part = some old) (hb : (env.store b).record part = some new) :
    old = new := by
  rcases Nat.le_total a b with hle | hle
  · exact Option.some.inj ((hlaws.fixed part old a b hkind hle ha).symm.trans hb)
  · exact Option.some.inj (ha.symm.trans (hlaws.fixed part new b a hkind hle hb))

/-- Blocks read at any time are those below the head, whenever the head is that head. -/
lemma Progressive.blocksBelow (hhead : (env.store t).head session = some head)
    (hfound : ∃ count : UInt64, head.nextHeight = .ok count ∧
      List.Forall₂ (fun height record => Found env first last fun source =>
        source.block (session, height) = some record)
        ((List.range count.toNat).map UInt64.ofNat) blocks) :
    (env.store t).BlocksBelow session head blocks := by
  obtain ⟨count, hcount, hblocks⟩ := hfound
  refine ⟨count, hcount, ?_⟩
  obtain ⟨-, hpresent⟩ := hlaws.committed t session head count hhead hcount
  refine ((List.forall₂_and_left _ _).mpr ⟨hpresent, hblocks⟩).imp ?_
  rintro height record ⟨hsome, tick, -, -, hread⟩
  obtain ⟨present, hnow⟩ := Option.ne_none_iff_exists'.mp hsome
  have hbefore : (env.sourceAt tick).record (.block session height) = some (.block record) :=
    congrArg (Option.map Record.block) hread
  have heq := hlaws.fixed_eq (.inr rfl) hbefore (congrArg (Option.map Record.block) hnow)
  rw [hnow, Record.block.inj heq]

/-- A genesis read at any time is there whenever the session has a head. -/
lemma Progressive.genesis_digest (hhead : (env.store t).head session = some head)
    (hcount : head.nextHeight = .ok count)
    (hfound : Found env first last fun source => env.digest source (.genesis session) = some blob) :
    env.digest (env.store t) (.genesis session) = some blob := by
  obtain ⟨hsome, -⟩ := hlaws.committed t session head count hhead hcount
  obtain ⟨present, hnow⟩ := Option.ne_none_iff_exists'.mp hsome
  obtain ⟨tick, -, -, hdigest⟩ := hfound
  obtain ⟨record, hread, hblob⟩ := digest_eq_some.mp hdigest
  have hrecord : (env.store t).record (.genesis session) = some (.genesis present) :=
    congrArg (Option.map Record.genesis) hnow
  have heq := hlaws.fixed_eq (.inl rfl) hread hrecord
  exact digest_eq_some.mpr ⟨record, heq ▸ hrecord, hblob⟩

end Laws

section Published

variable {start finish confirm last : Nat} {ids : List Hash32} {captured : Capture}

/-- An export as its source saw it: a capture, and a confirmation that began when it was over. -/
structure Confirmed (env : Environment) (start finish confirm last : Nat) (ids : List Hash32)
    (captured : Capture) : Prop where
  laws : Progressive env
  sent : SentOnce env
  digests : DigestsTell env
  first : Captured env start finish ids captured
  second : Backed env confirm last captured
  later : finish ≤ confirm

namespace Confirmed

variable {blob : BlobId}

section

variable (h : Confirmed env start finish confirm last ids captured)
include h

/-- A digest found in the capture and again in the confirmation stood when that began. -/
lemma digest_stood
    (hfirst : Found env start finish fun source => env.digest source part = some blob)
    (hsecond : Found env confirm last fun source => env.digest source part = some blob) :
    env.digest (env.sourceAt confirm) part = some blob := by
  obtain ⟨a, -, ha, hbefore⟩ := hfirst
  obtain ⟨b, hb, -, hafter⟩ := hsecond
  have hlater := h.later
  exact h.laws.digest_between h.digests (env.schedule.moment_mono (by omega))
    (env.schedule.moment_mono hb) hbefore hafter

/-- A captured handoff stood when the confirmation began. -/
lemma handoff_stood (hget : captured.handoffs.get? key = some blob) :
    env.digest (env.sourceAt confirm) (.handoff key) = some blob :=
  h.digest_stood (h.first.backed.handoff _ _ hget) (h.second.handoff _ _ hget)

/-- Captured evidence stood when the confirmation began. -/
lemma evidence_stood (hget : captured.evidence.get? (toLex (session, message)) = some blob) :
    env.digest (env.sourceAt confirm) (.evidence session message) = some blob :=
  h.digest_stood (h.first.backed.evidence _ _ _ hget) (h.second.evidence _ _ _ hget)

variable (htaken : Taken env start finish captured inventory head blocks)
include htaken

/-- The captured head stood when the confirmation began. -/
lemma head_stood : (env.sourceAt confirm).head inventory.sessionId = some head := by
  obtain ⟨⟨a, -, ha, hbefore⟩, -⟩ := h.first.backed.head _ _ htaken.captured
  obtain ⟨⟨b, hb, -, hafter⟩, -⟩ := h.second.head _ _ htaken.captured
  have hlater := h.later
  have hbetween := (h.laws.forward (.head inventory.sessionId)).between
    (env.schedule.moment_mono (show a ≤ confirm by omega)) (env.schedule.moment_mono hb)
    (congrArg (Option.map Record.head) hbefore) (congrArg (Option.map Record.head) hafter)
  obtain ⟨present, hnow, heq⟩ := Option.map_eq_some_iff.mp hbetween
  rw [Environment.sourceAt, hnow, Record.head.inj heq]

/-- The messages of the captured blocks are different ones, as the source held these blocks. -/
lemma nodup_messages : (messages blocks).Nodup :=
  h.sent _ _ _ _ (h.head_stood htaken) (h.laws.blocksBelow (h.head_stood htaken) htaken.found)

/-- Everything an inventory names stood when the confirmation began. -/
lemma holds : Holds env (env.sourceAt confirm) inventory head blocks := by
  have hhead := h.head_stood htaken
  obtain ⟨count, hcount, -⟩ := htaken.found
  refine {
    genesis := h.laws.genesis_digest hhead hcount htaken.genesis
    headAt := hhead
    headBlob := htaken.headBlob
    checkpoint := h.digest_stood (h.first.backed.head _ _ htaken.captured).2
      (h.second.head _ _ htaken.captured).2
    below := h.laws.blocksBelow hhead htaken.found
    blockBlobs := htaken.blobs
    handoffs := ?_
    handoffBlobs := ?_
    evidenceBlobs := ?_ }
  · intro id hid
    obtain ⟨blob, hget⟩ := htaken.handoffs id hid
    exact ⟨blob, (htaken.handoffBlobs blob).mpr ⟨id, hid, hget⟩, h.handoff_stood hget⟩
  · intro blob hblob
    obtain ⟨id, hid, hget⟩ := (htaken.handoffBlobs blob).mp hblob
    exact ⟨id, hid, h.handoff_stood hget⟩
  · intro blob hblob
    obtain ⟨message, hmessage, hget⟩ :=
      (htaken.evidenceBlobs (h.nodup_messages htaken) blob).mp hblob
    exact ⟨message, hmessage, h.evidence_stood hget⟩

end

/-- Everything captured stood together when the confirmation began; what was not captured was absent
    when it was looked for, which was before. -/
lemma together (h : Confirmed env start finish confirm last ids captured)
    (hsessions : manifest.sessions = captured.sessions) :
    TogetherAt env (env.schedule.moment start) (env.schedule.moment confirm) manifest := by
  intro inventory hinventory
  obtain ⟨head, blocks, htaken⟩ := h.first.taken inventory (hsessions ▸ hinventory)
  refine ⟨head, blocks, h.holds htaken, fun message hmessage => ?_⟩
  have hnodup := h.nodup_messages htaken
  cases hget : captured.evidence.get? (toLex (inventory.sessionId, message)) with
  | some blob =>
    have hmem := (htaken.evidenceBlobs hnodup blob).mpr ⟨message, hmessage, hget⟩
    exact .inl ⟨blob, hmem, h.evidence_stood hget⟩
  | none =>
    obtain ⟨tick, hstart, hfinish, habsent⟩ := htaken.absent hnodup message hmessage hget
    have hlater := h.later
    exact .inr ⟨env.schedule.moment tick, env.schedule.moment_mono hstart,
      env.schedule.moment_mono (by omega), habsent⟩

end Confirmed

end Published

/-! ## The published bundle -/

section Inner

variable {version : String} {plan : ExportPlan} {w : Worker BundleManifest}

/-- The steps after the link leave the manifest where it is. -/
lemma quiet_finish (manifest : BundleManifest) : Quiet (do
    markPublished
    fileOperation env.schedule
    fileOperation env.schedule
    pure manifest : Export BundleManifest) := by
  have hmark : Quiet (markPublished : Export Unit) := fun w => ⟨le_rfl, rfl, List.suffix_rfl⟩
  exact hmark.bind fun _ => quiet_fileOperation.bind fun _ => quiet_fileOperation.bind fun _ =>
    Proc.keeps_pure manifest

/-- An export fails and leaves no manifest, or it leaves the one it has prepared, even if something
    fails afterwards. -/
lemma exportInner_cases (hclean : w.manifestJson = none) :
    ((exportInner env version plan w).2.manifestJson = none ∧
      ∃ stop, (exportInner env version plan w).1 = .error stop) ∨
    ∃ manifest m, prepare env version plan w = (.ok manifest, m) ∧
      (exportInner env version plan w).2.manifestJson = some manifest ∧
      m.tick ≤ (exportInner env version plan w).2.tick := by
  unfold exportInner
  have hprepare := @quiet_prepare env version plan w
  rcases hrun : prepare env version plan w with ⟨_ | manifest, m⟩
  · rename_i stop
    rw [Proc.bind_of_error hrun]
    rw [hrun] at hprepare
    exact .inl ⟨hprepare.manifest.trans hclean, stop, rfl⟩
  rw [Proc.bind_of_ok hrun]
  rw [hrun] at hprepare
  have hfile := @quiet_fileOperation BundleManifest env.schedule m
  rcases hlink : fileOperation env.schedule m with ⟨_ | _, n⟩
  · rename_i stop
    have hunlinked : linkManifest env manifest m = (.error stop, n) := Proc.bind_of_error hlink
    rw [Proc.bind_of_error hunlinked]
    rw [hlink] at hfile
    exact .inl ⟨hfile.manifest.trans (hprepare.manifest.trans hclean), stop, rfl⟩
  · rw [hlink] at hfile
    have hlinked : linkManifest env manifest m = (.ok (), { n with manifestJson := some manifest }) :=
      Proc.bind_of_ok hlink
    rw [Proc.bind_of_ok hlinked]
    have hfinish := @quiet_finish env manifest { n with manifestJson := some manifest }
    exact .inr ⟨manifest, m, rfl, hfinish.manifest, hfile.tick.trans hfinish.tick⟩

/-- From any worker that has published nothing, over a source that only moves forward: a manifest
    that appears names what the source held at one single moment of the run, evidence that it lacks
    being absent at some moment before, so that it is a cut if none appears meanwhile; and if no
    manifest appears, the export has failed. -/
theorem export_captured_together (env : Environment) (version : String) (plan : ExportPlan)
    (w : Worker BundleManifest) (hclean : w.manifestJson = none) (hlaws : Progressive env)
    (hsent : SentOnce env) (hdigests : DigestsTell env) :
    (∀ manifest, (exportInner env version plan w).2.manifestJson = some manifest →
      ∃ t, env.schedule.moment w.tick ≤ t ∧
        t ≤ env.schedule.moment (exportInner env version plan w).2.tick ∧
        TogetherAt env (env.schedule.moment w.tick) t manifest ∧
        (NoneAppears env (env.schedule.moment w.tick) t → Cut env (env.store t) manifest)) ∧
    ((exportInner env version plan w).2.manifestJson = none →
      ∃ stop, (exportInner env version plan w).1 = .error stop) := by
  rcases @exportInner_cases env version plan w hclean with ⟨hnone, hfailed⟩ |
    ⟨published, m, hprepare, hsome, htick⟩
  · refine ⟨fun manifest hmanifest => ?_, fun _ => hfailed⟩
    rw [hnone] at hmanifest
    cases hmanifest
  · refine ⟨fun manifest hmanifest => ?_, fun hnone => ?_⟩
    · obtain rfl := Option.some.inj (hsome.symm.trans hmanifest)
      obtain ⟨captured, finish, confirm, last, hcaptured, hbacked, hstart, hfinish, hlast, hsessions⟩ :=
        prepare_eq_ok hprepare
      have hrun : Confirmed env w.tick finish confirm last _ captured :=
        ⟨hlaws, hsent, hdigests, hcaptured, hbacked, hfinish⟩
      have htogether := hrun.together hsessions
      exact ⟨env.schedule.moment confirm, env.schedule.moment_mono hstart,
        env.schedule.moment_mono (hlast.trans htick), htogether, htogether.cut⟩
    · rw [hsome] at hnone
      cases hnone

end Inner

/-! ## Two messages of one block -/

/-- Each record is its tag, evidence is its message; hashes are the last 32 bytes. -/
def sampleSession : SessionEnv where
  crypto := .accepting tailBytes
  postcard := { Postcard.blank with
    sessionGenesis _ := [1]
    sessionHead _ := [2]
    stateCheckpoint _ := [3]
    record _ _ := [4]
    evidenceRecord record := record.messageId.val }

def sampleId : Hash32 := FixedBytes.fill 32 1

def sampleGenesis : SessionGenesis := ⟨.uniform sampleId sampleId .disabled, [1]⟩

def sampleHead : SessionHead := ⟨sampleId, some 0, sampleId, sampleId, 0, 0, 0, none⟩

def sampleCheckpoint : StateCheckpoint := ⟨sampleId, some 0, sampleId, [1]⟩

def sampleMessage (n : UInt8) : OutboxMessage := ⟨FixedBytes.fill 32 n, sampleId, "da", [n]⟩

/-- The session's only block sends messages 5 and 6. -/
def sampleBlock : FinalisedBlockRecord :=
  { FinalisedBlockRecord.uniform sampleId sampleId 0 [1] with
    outbox := [sampleMessage 5, sampleMessage 6] }

def sampleEvidence (n : UInt8) : EvidenceRecord :=
  ⟨sampleId, FixedBytes.fill 32 n, sampleId, ⟨"pipeline", "da", [⟨"posted", sampleId⟩]⟩,
    [⟨0, "posted", sampleId, zeroHash, [7]⟩], 0⟩

/-- Evidence of message 5 appears at moment 1, that of message 6 at moment 2. -/
def sampleStore (t : Nat) : Source where
  genesis id := if id = sampleId then some sampleGenesis else none
  head id := if id = sampleId then some sampleHead else none
  checkpoint id := if id = sampleId then some sampleCheckpoint else none
  block key := if key = (sampleId, 0) then some sampleBlock else none
  handoff _ := none
  evidence key :=
    if key = (sampleId, (sampleMessage 5).id) ∧ 1 ≤ t then some (sampleEvidence 5)
    else if key = (sampleId, (sampleMessage 6).id) ∧ 2 ≤ t then some (sampleEvidence 6)
    else none

/-- The exporter's first `early` steps happen at moment 0, the others at moment 2. -/
def sampleSchedule (early : Nat) : Schedule where
  moment tick := if tick < early then 0 else 2
  moment_mono a b hab := by
    dsimp only
    split_ifs <;> omega
  clock _ := 0
  clock_mono := monotone_const
  fault _ := none

def sampleOutside : Outside where
  validateArtifacts := pure ()
  artifact writer _ _ := pure writer
  index _ := pure []
  audit _ := pure ()
  validateArtifacts_quiet := Proc.keeps_pure ()
  artifact_quiet writer _ _ := Proc.keeps_pure writer
  index_quiet _ := Proc.keeps_pure []
  audit_quiet _ := Proc.keeps_pure ()

def sampleEnv (early : Nat) : Environment :=
  ⟨sampleSession, sampleSchedule early, sampleStore, sampleOutside⟩

def samplePlan : ExportPlan where
  roots := [sampleId]
  sessions := [⟨sampleId, sampleId, [9], ⟨sampleId, sampleId, sampleId, sampleId, sampleId, []⟩⟩]
  artifacts := []
  limits := BundleLimits.default

/-- An unpublished task and an owner who grants the default budget once. -/
def sampleWorker : Worker BundleManifest := ⟨0, .new, [.resume .default none], none⟩

/-- Every record of the history, under its key and with the moment it appears. -/
def sampleTable : List (Nat × Part × Record) :=
  [(0, .genesis sampleId, .genesis sampleGenesis), (0, .head sampleId, .head sampleHead),
    (0, .checkpoint sampleId, .checkpoint sampleCheckpoint), (0, .block sampleId 0, .block sampleBlock),
    (1, .evidence sampleId (sampleMessage 5).id, .evidence (sampleEvidence 5)),
    (2, .evidence sampleId (sampleMessage 6).id, .evidence (sampleEvidence 6))]

lemma sample_record_eq_some :
    (sampleStore t).record part = some record ↔
      ∃ entry ∈ sampleTable, entry.1 ≤ t ∧ entry.2 = (part, record) := by
  have hne : (sampleMessage 5).id ≠ (sampleMessage 6).id := by decide
  cases part with
  | handoff id => simp [Source.record, sampleStore, sampleTable]
  | evidence session message =>
    simp only [Source.record, sampleStore, sampleTable, List.exists_mem_cons_iff]
    split_ifs <;> grind
  | _ =>
    simp only [Source.record, sampleStore, sampleTable, List.exists_mem_cons_iff]
    split_ifs <;> grind

lemma sample_record_kept (hab : a ≤ b) (h : (sampleStore a).record part = some record) :
    (sampleStore b).record part = some record := by
  obtain ⟨entry, hmem, hsince, heq⟩ := sample_record_eq_some.mp h
  exact sample_record_eq_some.mpr ⟨entry, hmem, hsince.trans hab, heq⟩

/-- Digests tell the records of one kind apart. -/
lemma sample_distinct (early : Nat) : (sampleTable.map fun entry =>
    (entry.2.1.kind, (sampleEnv early).blob? entry.2.2)).Nodup := by
  have h : (sampleTable.map fun entry =>
    (entry.2.1.kind, (sampleEnv 0).blob? entry.2.2)).Nodup := by decide +kernel
  exact h

lemma sample_head (h : (sampleStore t).head session = some head) :
    session = sampleId ∧ head = sampleHead := by
  simp only [sampleStore] at h
  split_ifs at h with heq
  exact ⟨heq, (Option.some.inj h).symm⟩

lemma sample_heights (h : sampleHead.nextHeight = .ok count) : heights count = [0] := by
  obtain rfl : 1 = count := Except.ok.inj h
  rfl

lemma sample_below (h : (sampleStore t).BlocksBelow sampleId sampleHead blocks) :
    blocks = [sampleBlock] := by
  obtain ⟨count, hcount, hall⟩ := h
  rw [sample_heights hcount, List.forall₂_cons_left_iff] at hall
  obtain ⟨record, rest, hrecord, hrest, rfl⟩ := hall
  obtain rfl := List.forall₂_nil_left_iff.mp hrest
  obtain rfl : sampleBlock = record := Option.some.inj hrecord
  rfl

lemma sample_progressive (early : Nat) : Progressive (sampleEnv early) where
  forward part a b c hab hbc hac := by
    show (sampleStore b).record part = (sampleStore a).record part
    cases ha : (sampleStore a).record part with
    | some record => exact sample_record_kept hab ha
    | none =>
      have hc : (sampleStore c).record part = none := Eq.trans (Eq.symm hac) ha
      refine Option.eq_none_iff_forall_ne_some.mpr fun record hb => ?_
      rw [sample_record_kept hbc hb] at hc
      cases hc
  fixed part record a b _ hab ha := sample_record_kept hab ha
  committed t session head count hhead hcount := by
    obtain ⟨rfl, rfl⟩ := sample_head hhead
    rw [sample_heights hcount]
    exact ⟨Option.some_ne_none _, by simp [sampleEnv, sampleStore]⟩

lemma sample_sentOnce (early : Nat) : SentOnce (sampleEnv early) := by
  intro t session head blocks hhead hblocks
  obtain ⟨rfl, rfl⟩ := sample_head hhead
  rw [sample_below hblocks]
  decide

/-- No record of the history is ever replaced. -/
lemma sample_digestsTell (early : Nat) : DigestsTell (sampleEnv early) := by
  intro a b part blob ha hb
  obtain ⟨old, hold, -⟩ := digest_eq_some.mp ha
  obtain ⟨new, hnew, -⟩ := digest_eq_some.mp hb
  rcases Nat.le_total a b with hab | hba
  · exact hold.trans (sample_record_kept hab hold).symm
  · exact (sample_record_kept hba hnew).trans hnew.symm

/-- Evidence of message 6 is not there before moment 2. -/
lemma sample_late (h : (sampleEnv early).digest (sampleStore t) (.evidence session message) =
      some (sampleMessage 6).id) : 2 ≤ t ∧ message = (sampleMessage 6).id := by
  obtain ⟨record, hrecord, hblob⟩ := digest_eq_some.mp h
  obtain ⟨p, hp, hsince, hpeq⟩ := sample_record_eq_some.mp hrecord
  have hsame : p = (2, .evidence sampleId (sampleMessage 6).id, .evidence (sampleEvidence 6)) := by
    refine List.inj_on_of_nodup_map (sample_distinct early) hp (by simp [sampleTable]) (Prod.ext ?_ ?_)
    · simp only [hpeq, Part.kind]
    · simp only [hpeq]
      exact hblob
  subst hsame
  simp only [Prod.mk.injEq, Part.evidence.injEq] at hpeq
  exact ⟨hsince, hpeq.1.2.symm⟩

/-- What the export publishes when evidence of both messages appears between the reading of message
    5 and that of message 6. -/
lemma sample_published : ∃ manifest,
    (exportInner (sampleEnv 55) "0" samplePlan sampleWorker).2.manifestJson = some manifest ∧
    manifest.sessions.map (fun inventory => (inventory.sessionId, inventory.evidence)) =
      [(sampleId, [(sampleMessage 6).id])] := by
  have hrun : (exportInner (sampleEnv 55) "0" samplePlan sampleWorker).2.manifestJson.map
      (fun manifest => manifest.sessions.map fun inventory => (inventory.sessionId, inventory.evidence)) =
      some [(sampleId, [(sampleMessage 6).id])] := by decide +kernel
  exact Option.map_eq_some_iff.mp hrun

/-- Everything in that bundle stood together at moment 2 … -/
theorem export_captured_together_sample : ∃ manifest,
    (exportInner (sampleEnv 55) "0" samplePlan sampleWorker).2.manifestJson = some manifest ∧
      ∃ t ≤ 2, TogetherAt (sampleEnv 55) 0 t manifest := by
  obtain ⟨manifest, hmanifest, -⟩ := sample_published
  obtain ⟨t, -, hlast, htogether, -⟩ := (export_captured_together (sampleEnv 55) "0" samplePlan
    sampleWorker rfl (sample_progressive 55) (sample_sentOnce 55) (sample_digestsTell 55)).1 manifest
    hmanifest
  refine ⟨manifest, hmanifest, t, hlast.trans ?_, htogether⟩
  dsimp only [sampleEnv, sampleSchedule]
  split_ifs <;> omega

/-- … but it is no cut: it has the later evidence and not the earlier, as the source never had. -/
theorem export_mixes_moments : Progressive (sampleEnv 55) ∧ ∃ manifest,
    (exportInner (sampleEnv 55) "0" samplePlan sampleWorker).2.manifestJson = some manifest ∧
      ∀ t, ¬Cut (sampleEnv 55) (sampleStore t) manifest := by
  refine ⟨sample_progressive 55, ?_⟩
  obtain ⟨manifest, hmanifest, hsessions⟩ := sample_published
  refine ⟨manifest, hmanifest, fun t hcut => ?_⟩
  obtain ⟨inventory, hinventory, heq⟩ := List.mem_map.mp (hsessions ▸ List.mem_singleton_self _)
  obtain ⟨hid, hevidence⟩ := Prod.mk.inj heq
  obtain ⟨head, blocks, hholds, hattested⟩ := hcut inventory hinventory
  obtain ⟨-, rfl⟩ := sample_head hholds.headAt
  have hblocks : blocks = [sampleBlock] := sample_below (hid ▸ hholds.below)
  -- Evidence of message 6 stands only from moment 2 on, when that of message 5 stands as well.
  obtain ⟨message, -, hsix⟩ := hholds.evidenceBlobs _ (hevidence ▸ List.mem_singleton_self _)
  have hlate : 2 ≤ t := (sample_late hsix).1
  rcases hattested (sampleMessage 5).id (hblocks ▸ by decide) with ⟨blob, hblob, hfive⟩ | habsent
  · rw [hevidence, List.mem_singleton] at hblob
    exact absurd (sample_late (hblob ▸ hfive)).2 (by decide)
  · have hpresent : (sampleStore t).evidence (sampleId, (sampleMessage 5).id) = some (sampleEvidence 5) :=
      if_pos ⟨rfl, by omega⟩
    rw [hid] at habsent
    cases hpresent.symm.trans habsent

end Myelin.Bundle
