/-
  What can become of one handoff.

  An issued handoff is consumed by a target block or cancelled by its source, never both; a
  consumed one is later retired and a cancelled one reclaimed.  `StoredHandoff.history` reads the
  whole sequence of events back from the stored value, so the value IS its history: that is what
  makes "exactly one consuming block" a fact about single values (`Trace.history`).

  `applyAction` mutates in place and validates AFTER the assignment.  `applyAction_error` shows
  that the late check cannot fail, so an error always leaves the value as it was.
-/
import Myelin.Lib.Transitions
import Myelin.Session.Continuity

namespace Myelin.Session

open Lib Consensus

variable {resolved : ResolvedHandoffAction} {env : SessionEnv} {stored : StoredHandoff}
  {terminal : HandoffTerminal} {handoff : SessionHandoff} {s : Option StoredHandoff}

namespace HandoffBlockReference

/-- Reference to a block. -/
def fromBlock (env : SessionEnv) (block : MyelinBlock) : HandoffBlockReference where
  sessionId := block.sessionId
  height := block.number
  blockHash := block.hash env.crypto

/-- A reference names a session and a hash. -/
def validate (reference : HandoffBlockReference) : Except SessionError Unit :=
  ensure (reference.sessionId ≠ zeroHash ∧ reference.blockHash ≠ zeroHash)
    (.continuity "zero lifecycle block identity")

/-- `reference` is in the session of `other` and not after it. -/
def NotAfter (reference other : HandoffBlockReference) : Prop :=
  reference.sessionId = other.sessionId ∧ reference.height ≤ other.height

instance (reference other : HandoffBlockReference) : Decidable (reference.NotAfter other) :=
  inferInstanceAs (Decidable (_ ∧ _))

end HandoffBlockReference

/-- Handoff an action is about. -/
def HandoffAction.handoffId : HandoffAction → Hash32
  | .cancel handoffId | .reclaim handoffId | .retire handoffId _ => handoffId

/-- Structural checks of an action by `sessionId` at `height`: the handoff is older, and a refund
    or a retirement names the earlier block it follows. -/
def ResolvedHandoffAction.validateFor (env : SessionEnv) (resolved : ResolvedHandoffAction)
    (sessionId : Hash32) (height : UInt64) : Except SessionError Unit := do
  ensure (resolved.action.handoffId = resolved.handoff.id env ∧
      ¬ (resolved.handoff.sourceSessionId = sessionId ∧ height ≤ resolved.handoff.sourceHeight))
    (.continuity "lifecycle action requires an earlier owned handoff")
  match resolved.action, resolved.cancelledAt with
  | .cancel _, none => pure ()
  | .retire _ consumedAt, none => do
      ensure (consumedAt.sessionId ≠ sessionId ∨ consumedAt.height < height)
        (.continuity "lifecycle action requires the matching earlier cancellation or consumption")
      consumedAt.validate
  | .reclaim _, some block => do
      ensure ((block.sessionId ≠ sessionId ∨ block.height < height) ∧
          (block.sessionId ≠ resolved.handoff.sourceSessionId ∨
            resolved.handoff.sourceHeight < block.height))
        (.continuity "lifecycle action requires the matching earlier cancellation or consumption")
      block.validate
  | _, _ =>
      .error (.continuity
        "lifecycle action requires the matching earlier cancellation or consumption")

/-- The outcome of a handoff issued at `issuedAt` is in causal order. -/
def HandoffTerminal.validate (issuedAt : HandoffBlockReference) :
    HandoffTerminal → Except SessionError Unit
  | .issued => pure ()
  | .consumed block => block.validate
  | .retired consumedAt retiredAt => do
      consumedAt.validate
      retiredAt.validate
      ensure (¬ (retiredAt.NotAfter issuedAt ∨ retiredAt.NotAfter consumedAt))
        (.continuity "retirement must follow source issuance and target consumption")
  | .cancelled block => do
      block.validate
      ensure (¬ block.NotAfter issuedAt) (.continuity "cancellation must follow source issuance")
  | .reclaimed cancelledAt reclaimedAt => do
      reclaimedAt.validate
      ensure (¬ reclaimedAt.NotAfter cancelledAt) (.continuity "refund must follow cancellation")
      cancelledAt.validate
      ensure (¬ cancelledAt.NotAfter issuedAt)
        (.continuity "cancellation must follow source issuance")

namespace StoredHandoff

variable {block : HandoffBlockReference}

/-- Whether the handoff may still be consumed or cancelled. -/
def isAvailable (stored : StoredHandoff) : Bool := stored.lifecycle.terminal = .issued

/-- Block that consumed the handoff. -/
def consumption (stored : StoredHandoff) : Option HandoffBlockReference :=
  match stored.lifecycle.terminal with
  | .consumed block | .retired block _ => some block
  | _ => none

/-- Every reference is well formed and in causal order. -/
def validateLifecycle (stored : StoredHandoff) : Except SessionError Unit := do
  stored.lifecycle.issuedAt.validate
  ensure (stored.lifecycle.issuedAt.sessionId = stored.handoff.sourceSessionId ∧
      stored.lifecycle.issuedAt.height = stored.handoff.sourceHeight)
    (.continuity "lifecycle issuer differs from handoff")
  stored.lifecycle.terminal.validate stored.lifecycle.issuedAt

/-- The transition table of `apply_action`; `none` is its conflict error. -/
def nextTerminal (terminal : HandoffTerminal) (resolved : ResolvedHandoffAction)
    (block : HandoffBlockReference) : Option HandoffTerminal :=
  match terminal, resolved.action with
  | .issued, .cancel _ => some (.cancelled block)
  | .consumed consumed, .retire _ consumedAt =>
      if consumed = consumedAt then some (.retired consumed block) else none
  | .cancelled cancellation, .reclaim _ =>
      if resolved.cancelledAt = some cancellation then some (.reclaimed cancellation block)
      else none
  | _, _ => none

/-- Replace the outcome. -/
def withTerminal (stored : StoredHandoff) (terminal : HandoffTerminal) : StoredHandoff :=
  { stored with lifecycle := { stored.lifecycle with terminal } }

/-- Checks `apply_action` makes before it touches the value. -/
def applyChecks (env : SessionEnv) (stored : StoredHandoff) (resolved : ResolvedHandoffAction)
    (block : HandoffBlockReference) : Except SessionError Unit := do
  stored.validateLifecycle
  resolved.validateFor env block.sessionId block.height
  block.validate
  ensure (stored.handoff = resolved.handoff) (.continuity "lifecycle handoff witness changed")

/-- `apply_action` on `&mut self`: the result, and the value left behind. -/
def applyAction (env : SessionEnv) (stored : StoredHandoff) (resolved : ResolvedHandoffAction)
    (block : HandoffBlockReference) : Except SessionError Unit × StoredHandoff :=
  match stored.applyChecks env resolved block with
  | .error e => (.error e, stored)
  | .ok () =>
    match nextTerminal stored.lifecycle.terminal resolved block with
    | none =>
        (.error (.continuity "handoff lifecycle conflict; reconcile its terminal outcome"), stored)
    | some terminal =>
        ((stored.withTerminal terminal).validateLifecycle, stored.withTerminal terminal)

/-! ## The check after the assignment cannot fail -/

/-- The three entries of the transition table. -/
lemma nextTerminal_eq_some :
    nextTerminal current resolved block = some terminal ↔
      (∃ id, current = .issued ∧ resolved.action = .cancel id ∧ terminal = .cancelled block) ∨
      (∃ id consumedAt, current = .consumed consumedAt ∧ resolved.action = .retire id consumedAt ∧
        terminal = .retired consumedAt block) ∨
      (∃ id cancellation, current = .cancelled cancellation ∧ resolved.action = .reclaim id ∧
        resolved.cancelledAt = some cancellation ∧ terminal = .reclaimed cancellation block) := by
  obtain ⟨action, witness, cancelledAt⟩ := resolved
  cases current <;> cases action <;> simp [nextTerminal, eq_comm, and_comm]

lemma validateLifecycle_eq_ok :
    validateLifecycle ⟨handoff, issuedAt, terminal⟩ = .ok u ↔ issuedAt.validate = .ok () ∧
      (issuedAt.sessionId = handoff.sourceSessionId ∧ issuedAt.height = handoff.sourceHeight) ∧
        terminal.validate issuedAt = .ok () := by
  simp only [validateLifecycle, eq_ok]

/-- The causal order a new outcome needs is what `validate_for` checked of the action. -/
lemma validateLifecycle_next (hchecks : stored.applyChecks env resolved block = .ok ())
    (hnext : nextTerminal stored.lifecycle.terminal resolved block = some terminal) :
    (stored.withTerminal terminal).validateLifecycle = .ok () := by
  obtain ⟨handoff, issuedAt, current⟩ := stored
  obtain ⟨action, witness, cancelledAt⟩ := resolved
  simp only [applyChecks, validateLifecycle_eq_ok, ResolvedHandoffAction.validateFor, eq_ok]
    at hchecks
  obtain ⟨⟨hissued, ⟨hsession, hheight⟩, hcurrent⟩, ⟨⟨-, hearlier⟩, haction⟩, hblock, rfl⟩ :=
    hchecks
  -- the acting block is after the issuing one, in whichever session it is
  have hafter : ¬ block.NotAfter issuedAt := by
    rintro ⟨hsame, hle⟩
    exact hearlier ⟨(hsame.trans hsession).symm, hheight ▸ hle⟩
  refine validateLifecycle_eq_ok.mpr ⟨hissued, ⟨hsession, hheight⟩, ?_⟩
  rcases nextTerminal_eq_some.mp hnext with
    ⟨id, rfl, rfl, rfl⟩ | ⟨id, consumedAt, rfl, rfl, rfl⟩ | ⟨id, cancellation, rfl, rfl, rfl, rfl⟩
  · -- issued, cancelled now
    simp only [HandoffTerminal.validate, eq_ok]
    exact ⟨hblock, hafter⟩
  · -- consumed, retired now
    cases cancelledAt with
    | some _ => cases haction
    | none =>
      simp only [HandoffTerminal.validate, eq_ok] at haction ⊢
      refine ⟨haction.2, hblock, not_or.mpr ⟨hafter, ?_⟩⟩
      rintro ⟨hsame, hle⟩
      exact haction.1.elim (· hsame.symm) (fun hlt => UInt64.not_le.mpr hlt hle)
  · -- cancelled, reclaimed now
    simp only [HandoffTerminal.validate, eq_ok] at haction hcurrent ⊢
    obtain ⟨⟨hlater, -⟩, -⟩ := haction
    refine ⟨hblock, ?_, hcurrent⟩
    rintro ⟨hsame, hle⟩
    exact hlater.elim (· hsame.symm) (fun hlt => UInt64.not_le.mpr hlt hle)

/-- `apply_action` succeeds exactly when its first checks pass and the table has an entry. -/
lemma applyAction_ok :
    stored.applyAction env resolved block = (.ok (), next) ↔
      stored.applyChecks env resolved block = .ok () ∧
        ∃ terminal, nextTerminal stored.lifecycle.terminal resolved block = some terminal ∧
          next = stored.withTerminal terminal := by
  unfold applyAction
  split
  case h_1 e hchecks => simp [hchecks]
  case h_2 hchecks =>
    split
    case h_1 hnext => simp [hnext]
    case h_2 terminal hnext =>
      simp [hchecks, hnext, validateLifecycle_next hchecks hnext, eq_comm]

/-- A failing `apply_action` has not touched the value. -/
lemma applyAction_error (h : (stored.applyAction env resolved block).1 = .error e) :
    (stored.applyAction env resolved block).2 = stored := by
  unfold applyAction at h ⊢
  split
  case h_1 => rfl
  case h_2 hchecks =>
    simp only [hchecks] at h
    split
    case h_1 => rfl
    case h_2 terminal hnext =>
      simp only [hnext, validateLifecycle_next hchecks hnext] at h
      cases h

/-! ## Events and history -/

end StoredHandoff

/-- What a committed block did to one handoff. -/
inductive HandoffEvent where
  | issue (handoff : SessionHandoff) (block : HandoffBlockReference)
  | consume (block : HandoffBlockReference)
  | act (resolved : ResolvedHandoffAction) (block : HandoffBlockReference)
  deriving DecidableEq

/-- The block that performed an event. -/
def HandoffEvent.block : HandoffEvent → HandoffBlockReference
  | .issue _ block | .consume block | .act _ block => block

/-- Whether an event is a consumption. -/
def HandoffEvent.isConsume : HandoffEvent → Bool
  | .consume _ => true
  | _ => false

/-- One event in the life of a handoff; `none` is a handoff nobody has issued. -/
inductive HandoffMove (env : SessionEnv) :
    Option StoredHandoff → HandoffEvent → Option StoredHandoff → Prop where
  | issue (handoff : SessionHandoff) (block : HandoffBlockReference) :
      HandoffMove env none (.issue handoff block) (some ⟨handoff, block, .issued⟩)
  | consume {stored : StoredHandoff} (block : HandoffBlockReference) :
      stored.lifecycle.terminal = .issued → HandoffMove env (some stored) (.consume block)
          (some (stored.withTerminal (.consumed block)))
  | act {stored : StoredHandoff} {resolved : ResolvedHandoffAction} {block : HandoffBlockReference}
      {terminal : HandoffTerminal} :
      stored.applyChecks env resolved block = .ok () →
        StoredHandoff.nextTerminal stored.lifecycle.terminal resolved block = some terminal →
          HandoffMove env (some stored) (.act resolved block) (some (stored.withTerminal terminal))

namespace HandoffMove

variable {t : Option StoredHandoff} {block : HandoffBlockReference}

lemma of_issue (h : HandoffMove env s (.issue handoff block) t) :
    s = none ∧ t = some ⟨handoff, block, .issued⟩ := by
  cases h
  exact ⟨rfl, rfl⟩

lemma of_consume (h : HandoffMove env s (.consume block) t) :
    ∃ stored, s = some stored ∧ stored.lifecycle.terminal = .issued ∧
      t = some (stored.withTerminal (.consumed block)) := by
  cases h with
  | @consume stored _ hissued => exact ⟨stored, rfl, hissued, rfl⟩

lemma of_act (h : HandoffMove env s (.act resolved block) t) :
    ∃ stored terminal, s = some stored ∧ stored.applyChecks env resolved block = .ok () ∧
      StoredHandoff.nextTerminal stored.lifecycle.terminal resolved block = some terminal ∧
      t = some (stored.withTerminal terminal) := by
  cases h with
  | @act stored _ _ terminal hchecks hnext => exact ⟨stored, terminal, rfl, hchecks, hnext, rfl⟩

end HandoffMove

/-- The two ways a handoff may go, one arrow per move; `none` is a handoff nobody has issued. -/
inductive LifecycleStep : Option HandoffLifecycle → Option HandoffLifecycle → Prop where
  | issue (issuedAt : HandoffBlockReference) : LifecycleStep none (some ⟨issuedAt, .issued⟩)
  | consume (issuedAt block : HandoffBlockReference) :
      LifecycleStep (some ⟨issuedAt, .issued⟩) (some ⟨issuedAt, .consumed block⟩)
  | retire (issuedAt consumedAt block : HandoffBlockReference) :
      LifecycleStep (some ⟨issuedAt, .consumed consumedAt⟩) (some ⟨issuedAt, .retired consumedAt block⟩)
  | cancel (issuedAt block : HandoffBlockReference) :
      LifecycleStep (some ⟨issuedAt, .issued⟩) (some ⟨issuedAt, .cancelled block⟩)
  | reclaim (issuedAt cancelledAt block : HandoffBlockReference) :
      LifecycleStep (some ⟨issuedAt, .cancelled cancelledAt⟩)
        (some ⟨issuedAt, .reclaimed cancelledAt block⟩)

variable {event : HandoffEvent}

lemma HandoffMove.lifecycleStep (h : HandoffMove env s event t) :
    LifecycleStep (s.map (·.lifecycle)) (t.map (·.lifecycle)) := by
  cases h with
  | issue handoff block => exact .issue block
  | @consume stored block hissued =>
    obtain ⟨handoff, issuedAt, terminal⟩ := stored
    obtain rfl : terminal = .issued := hissued
    exact .consume issuedAt block
  | @act stored resolved block terminal hchecks hnext =>
    obtain ⟨handoff, issuedAt, current⟩ := stored
    rcases StoredHandoff.nextTerminal_eq_some.mp hnext with
      ⟨_, rfl, -, rfl⟩ | ⟨_, consumedAt, rfl, -, rfl⟩ | ⟨_, cancelledAt, rfl, -, -, rfl⟩
    · exact .cancel issuedAt block
    · exact .retire issuedAt consumedAt block
    · exact .reclaim issuedAt cancelledAt block

/-- Events after the issue, read off the outcome. -/
def HandoffTerminal.history (env : SessionEnv) (handoff : SessionHandoff) :
    HandoffTerminal → List HandoffEvent
  | .issued => []
  | .consumed block => [.consume block]
  | .cancelled block => [.act ⟨.cancel (handoff.id env), handoff, none⟩ block]
  | .reclaimed cancelledAt reclaimedAt =>
      [.act ⟨.cancel (handoff.id env), handoff, none⟩ cancelledAt,
        .act ⟨.reclaim (handoff.id env), handoff, some cancelledAt⟩ reclaimedAt]
  | .retired consumedAt retiredAt =>
      [.consume consumedAt, .act ⟨.retire (handoff.id env) consumedAt, handoff, none⟩ retiredAt]

/-- All events of a handoff, read off the stored value. -/
def StoredHandoff.history (env : SessionEnv) : Option StoredHandoff → List HandoffEvent
  | none => []
  | some stored => .issue stored.handoff stored.lifecycle.issuedAt ::
      stored.lifecycle.terminal.history env stored.handoff

/-- A history has room for one consumption. -/
lemma StoredHandoff.countP_history_le (env : SessionEnv) (s : Option StoredHandoff) :
    (StoredHandoff.history env s).countP HandoffEvent.isConsume ≤ 1 := by
  cases s with
  | none => exact Nat.zero_le 1
  | some stored =>
    cases hterminal : stored.lifecycle.terminal <;>
      simp [history, HandoffTerminal.history, hterminal, HandoffEvent.isConsume, List.countP_cons]

/-- The history of a consumed handoff has no refund in it. -/
lemma StoredHandoff.not_reclaim_of_consume {consumedAt block : HandoffBlockReference}
    {id : Hash32} (hconsume : HandoffEvent.consume consumedAt ∈ history env s)
    (hact : HandoffEvent.act resolved block ∈ history env s) : resolved.action ≠ .reclaim id := by
  cases s with
  | none => cases hconsume
  | some stored =>
    rintro haction
    cases hterminal : stored.lifecycle.terminal <;>
      simp only [history, HandoffTerminal.history, hterminal, List.mem_cons, List.not_mem_nil,
        reduceCtorEq, or_false, false_or, HandoffEvent.act.injEq] at hconsume hact
    all_goals
      obtain ⟨rfl, -⟩ := hact
      cases haction

/-- An action that passed its checks is determined by the handoff and the block it follows. -/
lemma StoredHandoff.history_next (hchecks : stored.applyChecks env resolved block = .ok ())
    (hnext : nextTerminal stored.lifecycle.terminal resolved block = some terminal) :
    terminal.history env stored.handoff =
      stored.lifecycle.terminal.history env stored.handoff ++ [.act resolved block] := by
  obtain ⟨handoff, issuedAt, current⟩ := stored
  obtain ⟨action, witness, cancelledAt⟩ := resolved
  simp only [applyChecks, ResolvedHandoffAction.validateFor, eq_ok] at hchecks
  obtain ⟨-, ⟨⟨hid, -⟩, haction⟩, -, rfl⟩ := hchecks
  rcases nextTerminal_eq_some.mp hnext with
    ⟨id, rfl, rfl, rfl⟩ | ⟨id, consumedAt, rfl, rfl, rfl⟩ | ⟨id, cancellation, rfl, rfl, rfl, rfl⟩
  all_goals obtain rfl : id = handoff.id env := hid
  · cases cancelledAt with
    | some _ => cases haction
    | none => rfl
  · cases cancelledAt with
    | some _ => cases haction
    | none => rfl
  · rfl

/-- A stored handoff records every event as it happens. -/
lemma HandoffMove.history (h : HandoffMove env s event t) :
    StoredHandoff.history env t = StoredHandoff.history env s ++ [event] := by
  cases h with
  | issue => rfl
  | consume block hissued =>
    simp [StoredHandoff.history, StoredHandoff.withTerminal, hissued, HandoffTerminal.history]
  | act hchecks hnext =>
    simp [StoredHandoff.history, StoredHandoff.withTerminal, StoredHandoff.history_next hchecks hnext]

end Myelin.Session
