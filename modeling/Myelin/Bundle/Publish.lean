/-
  The publication check, and what a published manifest rests on.

  Before the manifest is linked, everything captured is read again within one grant.  A check that
  completes backs the capture a SECOND time (`checkSource_eq_true`), at steps that all come after the
  first.  A pass that does not complete has cost the owner an answer, so the loop ends
  (`confirmSource_enough`).
-/
import Myelin.Bundle.Capture

namespace Myelin.Bundle

open Lib Consensus Session
open Proc (keeps_pure keeps_get keeps_fail)

variable {env : Environment} {w w' : Worker BundleManifest}
variable {α : Type} {captured : Capture} {manifest : BundleManifest}

/-! ## The check neither publishes nor parks -/

/-- Time passes and the worker keeps its grant. -/
structure Worker.Idle (earlier later : Worker BundleManifest) : Prop where
  tick : earlier.tick ≤ later.tick
  manifest : later.manifestJson = earlier.manifestJson
  answers : later.answers = earlier.answers
  control : later.control = earlier.control

instance : Std.Refl Worker.Idle := ⟨fun _ => ⟨le_rfl, rfl, rfl, rfl⟩⟩

instance : IsTrans (Worker BundleManifest) Worker.Idle :=
  ⟨fun _ _ _ h k => ⟨h.tick.trans k.tick, k.manifest.trans h.manifest, k.answers.trans h.answers,
    k.control.trans h.control⟩⟩

lemma Worker.Idle.before {earlier : Worker BundleManifest} (h : earlier.Idle later) :
    earlier.Before later :=
  ⟨h.tick, h.manifest, h.answers ▸ List.suffix_rfl⟩

/-- A part of the check. -/
abbrev Idle {α : Type} (x : Export α) : Prop := Proc.Keeps Worker.Idle x

lemma idle_next : Idle (Proc.modify Worker.next) := fun w => ⟨Nat.le_succ w.tick, rfl, rfl, rfl⟩

lemma idle_check (x : Except BundleError α) : Idle (check x) := Proc.keeps_lift _

lemma idle_read (load : Source → Except StoreError α) : Idle (env.read load) := by
  refine (keeps_get _).bind fun fault => (keeps_get _).bind fun source =>
    idle_next.bind fun _ => ?_
  cases fault with
  | some message => exact keeps_fail _
  | none => exact idle_check _

lemma idle_publicationCheckActive : Idle (publicationCheckActive env.schedule) := by
  refine (keeps_get _).bind fun now => (keeps_get _).bind fun control =>
    idle_next.bind fun _ => ?_
  split
  · exact keeps_fail _
  · cases control.grant with
    | none => exact keeps_fail _
    | some grant => exact keeps_pure _

section WhileActive

variable {item : α → Export Bool} {list : List α}

lemma idle_whileActive (h : ∀ a, Idle (item a)) : Idle (whileActive env item list) := by
  induction list with
  | nil => exact keeps_pure true
  | cons a rest ih =>
    refine idle_publicationCheckActive.bind fun active => ?_
    split
    · refine (h a).bind fun more => ?_
      split
      · exact ih
      · exact keeps_pure false
    · exact keeps_pure false

/-- A check that went through has been through every item. -/
lemma whileActive_eq_true (hidle : ∀ a, Idle (item a))
    (h : whileActive env item list w = (.ok true, w')) : ∀ a ∈ list, ∃ m m',
      w.tick ≤ m.tick ∧ m'.tick ≤ w'.tick ∧ item a m = (.ok true, m') := by
  induction list generalizing w with
  | nil => exact nofun
  | cons a rest ih =>
    simp only [whileActive, Proc.bind_eq_ok] at h
    obtain ⟨active, m₁, hactive, h⟩ := h
    have h₁ := (idle_publicationCheckActive.ok hactive).tick
    cases active with
    | false => simp at h
    | true =>
      obtain ⟨more, m₂, hitem, h⟩ := Proc.bind_eq_ok.mp h
      have h₂ := ((hidle a).ok hitem).tick
      cases more with
      | false => simp at h
      | true =>
        have h₃ := ((idle_whileActive hidle).ok h).tick
        refine List.forall_mem_cons.mpr ⟨⟨m₁, m₂, h₁, h₃, hitem⟩, fun b hb => ?_⟩
        obtain ⟨m, m', hm, hm', hb⟩ := ih h b hb
        exact ⟨m, m', (h₁.trans h₂).trans hm, hm', hb⟩

end WhileActive

/-! ## What a complete check has found -/

lemma idle_checkHead (entry : Hash32 × SessionHead × BlobId) : Idle (checkHead env entry) := by
  refine (idle_read _).bind fun head => idle_publicationCheckActive.bind fun active => ?_
  split
  · exact (idle_check _).bind fun _ => (idle_read _).bind fun latest => (idle_check _).bind fun bytes =>
      (idle_check _).bind fun _ => keeps_pure true
  · exact keeps_pure false

lemma idle_checkRecord : Idle (checkRecord env load encode removed changed blob) :=
  (idle_read _).bind fun _ => (idle_check _).bind fun _ => (idle_check _).bind fun _ =>
    (idle_check _).bind fun _ => keeps_pure true

variable {complete : Bool}

lemma checkHead_eq_ok (h : checkHead env entry w = (.ok true, w')) :
    Found env w.tick w'.tick (fun source => source.head entry.1 = some entry.2.1) ∧
      Found env w.tick w'.tick
        (fun source => env.digest source (.checkpoint entry.1) = some entry.2.2) := by
  simp only [checkHead, Proc.bind_eq_ok] at h
  obtain ⟨head, m₁, hhead, active, m₂, hactive, h⟩ := h
  have h₁ := ((idle_read _).ok hhead).tick
  have h₂ := (idle_publicationCheckActive.ok hactive).tick
  cases active with
  | false => cases h
  | true =>
    simp only [reduceIte, Proc.bind_eq_ok, check, Proc.lift_eq_ok, Environment.encoded, mapError_eq_ok,
      ensure_eq_ok, Proc.pure_eq_ok] at h
    obtain ⟨_, _, ⟨rfl, rfl⟩, latest, m₃, hlatest, bytes, _, ⟨hbytes, rfl⟩, _, _, ⟨hblob, rfl⟩, -,
      rfl⟩ := h
    have h₃ := ((idle_read _).ok hlatest).tick
    constructor
    · obtain ⟨tick, hle, hlt, hload⟩ := found_of_read hhead
      exact ⟨tick, hle, hlt.trans_le (h₂.trans h₃), okOr_eq_ok.mp hload⟩
    · rw [← hblob]
      exact (found_digest (.checkpoint entry.1) (found_of_read hlatest)
        (fun _ hload => congrArg (Option.map Record.checkpoint) (okOr_eq_ok.mp hload)) hbytes).earlier
          (h₁.trans h₂)

/-- A record that was read again backs its blob. -/
lemma checkRecord_eq_ok (part : Part) (wrap : α → Record)
    (h : checkRecord env load encode removed changed blob w = (.ok complete, w'))
    (hload : ∀ source stored, load source = .ok (some stored) →
      source.record part = some (wrap stored))
    (hencode : ∀ stored, env.encode (wrap stored) = encode stored) :
    Found env w.tick w'.tick (fun source => env.digest source part = some blob) := by
  simp only [checkRecord, Proc.bind_eq_ok, check, Proc.lift_eq_ok, Environment.encoded, mapError_eq_ok,
    okOr_eq_ok, ensure_eq_ok, Proc.pure_eq_ok] at h
  obtain ⟨_, m₁, hread, stored, _, ⟨rfl, rfl⟩, bytes, _, ⟨hbytes, rfl⟩, _, _, ⟨hblob, rfl⟩, rfl, rfl⟩ := h
  rw [← hblob]
  exact found_digest part (found_of_read hread) (fun source => hload source stored)
    ((hencode stored).trans hbytes)

lemma idle_checkSource (captured : Capture) : Idle (checkSource env captured) := by
  refine (idle_whileActive idle_checkHead).bind fun heads => ?_
  split
  · refine (idle_whileActive fun _ => idle_checkRecord).bind fun handoffs => ?_
    split
    · exact idle_whileActive fun _ => idle_checkRecord
    · exact keeps_pure false
  · exact keeps_pure false

/-- A complete check finds everything captured once more. -/
lemma checkSource_eq_true (h : checkSource env captured w = (.ok true, w')) :
    Backed env w.tick w'.tick captured := by
  simp only [checkSource, Proc.bind_eq_ok] at h
  obtain ⟨heads, m₁, hheads, h⟩ := h
  have h₁ := ((idle_whileActive idle_checkHead).ok hheads).tick
  cases heads with
  | false => simp at h
  | true =>
  obtain ⟨handoffs, m₂, hhandoffs, h⟩ := Proc.bind_eq_ok.mp h
  have h₂ := ((idle_whileActive fun _ => idle_checkRecord).ok hhandoffs).tick
  cases handoffs with
  | false => simp at h
  | true =>
  have h₃ := ((idle_whileActive fun _ => idle_checkRecord).ok h).tick
  refine ⟨?_, ?_, ?_⟩
  · intro id entry hentry
    obtain ⟨m, m', hm, hm', hitem⟩ :=
      whileActive_eq_true idle_checkHead hheads _ (SortedMap.get?_eq_some.mp hentry)
    obtain ⟨hhead, hlatest⟩ := checkHead_eq_ok hitem
    have hend := hm'.trans (h₂.trans h₃)
    exact ⟨(hhead.earlier hm).later hend, (hlatest.earlier hm).later hend⟩
  · intro id blob hblob
    obtain ⟨m, m', hm, hm', hitem⟩ :=
      whileActive_eq_true (fun _ => idle_checkRecord) hhandoffs _ (SortedMap.get?_eq_some.mp hblob)
    have hfound := checkRecord_eq_ok (.handoff id) .handoff hitem
      (fun _ _ hload => congrArg (Option.map Record.handoff) (Except.ok.inj hload)) fun _ => rfl
    exact (hfound.earlier (h₁.trans hm)).later (hm'.trans h₃)
  · intro session message blob hblob
    obtain ⟨m, m', hm, hm', hitem⟩ :=
      whileActive_eq_true (fun _ => idle_checkRecord) h _ (SortedMap.get?_eq_some.mp hblob)
    have hfound := checkRecord_eq_ok (.evidence session message) .evidence hitem
      (fun _ _ hload => congrArg (Option.map Record.evidence) (Except.ok.inj hload)) fun _ => rfl
    exact (hfound.earlier ((h₁.trans h₂).trans hm)).later hm'

/-! ## The publication loop -/

section Loop

lemma quiet_reservePublicationReads (records : Nat) :
    Quiet (reservePublicationReads env.schedule records : Export Unit) :=
  (quiet_check _).bind fun _ => quiet_charge

lemma quiet_checkSource (captured : Capture) : Quiet (checkSource env captured) :=
  (idle_checkSource captured).mono fun _ _ h => h.before

lemma quiet_publicationPass : Quiet (publicationPass env captured) :=
  (quiet_reservePublicationReads _).bind fun _ => (keeps_get _).bind fun _ =>
    (quiet_checkSource captured).bind fun _ => quiet_charge.bind fun _ =>
    (keeps_get _).bind fun _ => keeps_pure _

/-- A pass that confirms the capture has found all of it once more. -/
lemma publicationPass_eq_ok (h : publicationPass env captured w = (.ok true, w')) :
    ∃ start finish, w.tick ≤ start ∧ start ≤ finish ∧ finish ≤ w'.tick ∧
      Backed env start finish captured := by
  simp only [publicationPass, Proc.bind_eq_ok, generation, Proc.get_eq_ok, Proc.pure_eq_ok] at h
  obtain ⟨_, m₁, hreserve, _, _, ⟨rfl, rfl⟩, complete, m₂, hcheck, _, m₃, hpublish, _, _, ⟨rfl, rfl⟩,
    hconfirmed, rfl⟩ := h
  obtain rfl : complete = true := (Bool.and_eq_true_iff.mp hconfirmed).1
  exact ⟨m₁.tick, m₂.tick, ((quiet_reservePublicationReads _).ok hreserve).tick,
    ((idle_checkSource captured).ok hcheck).tick, (quiet_charge.ok hpublish).tick,
    checkSource_eq_true hcheck⟩

lemma quiet_confirmSource : ∀ passes, Quiet (confirmSource env captured passes)
  | 0 => keeps_fail _
  | passes + 1 => by
    refine quiet_publicationPass.bind fun confirmed => ?_
    split
    · exact keeps_pure ()
    · exact quiet_confirmSource passes

/-- A loop that returns has confirmed the capture. -/
lemma confirmSource_eq_ok (h : confirmSource env captured passes w = (.ok u, w')) :
    ∃ start finish,
      w.tick ≤ start ∧ start ≤ finish ∧ finish ≤ w'.tick ∧ Backed env start finish captured := by
  induction passes generalizing w with
  | zero => simp [confirmSource] at h
  | succ passes ih =>
    obtain ⟨confirmed, m, hpass, h⟩ := Proc.bind_eq_ok.mp h
    cases confirmed with
    | true =>
      obtain ⟨-, rfl⟩ := Proc.pure_eq_ok.mp h
      exact publicationPass_eq_ok hpass
    | false =>
      obtain ⟨start, finish, hstart, hrest⟩ := ih h
      exact ⟨start, finish, (quiet_publicationPass.ok hpass).tick.trans hstart, hrest⟩

end Loop

/-! ## The whole export -/

section Inner

variable {version : String} {plan : ExportPlan}

lemma quiet_stage (captured : Capture) : Quiet (stage env version plan captured) :=
  (quiet_check _).bind fun _ => (env.outside.index_quiet _).bind fun _ => (quiet_check _).bind fun _ =>
    (env.outside.audit_quiet _).bind fun _ => quiet_fileOperation.bind fun _ =>
    quiet_fileOperation.bind fun _ => quiet_charge.bind fun _ => keeps_pure _

lemma quiet_prepare : Quiet (prepare env version plan) :=
  (quiet_capture plan).bind fun _ => (quiet_stage _).bind fun _ => (keeps_get _).bind fun _ =>
    (quiet_confirmSource _).bind fun _ => keeps_pure _

/-- A staged manifest lists the captured sessions. -/
lemma stage_eq_ok (h : stage env version plan captured w = (.ok manifest, w')) :
    manifest.sessions = captured.sessions := by
  simp only [stage, Proc.bind_eq_ok, Proc.pure_eq_ok] at h
  obtain ⟨_, _, -, _, _, -, _, _, -, _, _, -, _, _, -, _, _, -, _, _, -, rfl, rfl⟩ := h
  rfl

/-- What is published was captured, and then found once more. -/
lemma prepare_eq_ok (h : prepare env version plan w = (.ok manifest, w')) :
    ∃ captured finish start last,
      Captured env w.tick finish (plan.catalog.entries.map (·.1)) captured ∧
      Backed env start last captured ∧ w.tick ≤ start ∧ finish ≤ start ∧ start ≤ w'.tick ∧
      manifest.sessions = captured.sessions := by
  simp only [prepare, Proc.bind_eq_ok, Proc.get_eq_ok, Proc.pure_eq_ok] at h
  obtain ⟨captured, m₁, hcapture, _, m₂, hstage, _, _, ⟨rfl, rfl⟩, _, m₃, hconfirm, rfl, rfl⟩ := h
  obtain ⟨start, last, hstart, hle, hlast, hbacked⟩ := confirmSource_eq_ok hconfirm
  have h₁ := ((quiet_capture plan).ok hcapture).tick
  have h₂ := ((quiet_stage captured).ok hstage).tick
  exact ⟨captured, m₁.tick, start, last, capture_eq_ok hcapture, hbacked,
    h₁.trans (h₂.trans hstart), h₂.trans hstart, hle.trans hlast, stage_eq_ok hstage⟩

end Inner

end Myelin.Bundle
