/-
  Cooperative archive work: a worker that charges for what it is about to do, and parks when its
  grant does not cover it.

  The worker runs beside everybody else.  A `Schedule` says at which moment of the world each of its
  steps happens and what the clock shows then; a `Worker` counts the steps.  Between two steps any
  number of moments may pass, a parked worker's included, so an arbitrary schedule stands for arbitrary
  interleavings, pauses and resumptions.

  The owner of the task is a list of answers: what it will do each time the worker is parked.  When
  the answers run out, the worker stays parked.
-/
import Myelin.Lib.Proc
import Myelin.Session.Application

namespace Myelin.Bundle

open Lib Session

/-! ## Errors -/

/-- Failure categories of archive work. -/
inductive ErrorCode where
  | format
  | limit
  | missingArtifact
  | missingDependency
  | integrity
  | unknownTrustAnchor
  | dependencyCycle
  | unsafePath
  | unsupportedPlatform
  | io
  | invalidHistory
  | sourceChanged
  | sandbox
  | deadline
  | cpuLimit
  | cancelled
  | outputLimit
  | replayMismatch
  | paused
  deriving DecidableEq, Repr

/-- A failure of archive work. -/
structure BundleError where
  code : ErrorCode
  message : String
  deriving DecidableEq, Repr

/-- `io`: a failed file operation. -/
def ioError (message : String) : BundleError := ⟨.io, message⟩

/-- `integrity`: an unreadable source record. -/
def integrity (message : String) : BundleError := ⟨.invalidHistory, message⟩

/-- `missing`: an absent record. -/
def missing (message : String) : BundleError := ⟨.missingDependency, message⟩

/-- A worker's `abort` flag was found set. -/
def dropped : BundleError := ⟨.cancelled, "archive task dropped"⟩

/-! ## Grants -/

/-- What one step of a task may use. -/
structure ArchiveBudget where
  maxSteps : Nat
  /-- Known lengths, or reservations for opaque record reads. -/
  maxIoBytes : Nat
  maxElapsedMs : Nat
  deriving DecidableEq, Repr

/-- Default budget of a step. -/
def ArchiveBudget.default : ArchiveBudget := ⟨100000, 8 * 1024 * 1024 * 1024, 30000⟩

/-- Why a task parked. -/
inductive ArchivePauseReason where
  | steps
  | bytes
  | deadline
  | cancelled
  deriving DecidableEq, Repr

/-- What was used. -/
structure ArchiveUsage where
  steps : Nat
  ioBytes : Nat
  elapsedMs : Nat
  deriving DecidableEq, Repr

/-- Nothing used. -/
def ArchiveUsage.zero : ArchiveUsage := ⟨0, 0, 0⟩

/-- Largest `u64`. -/
def u64Max : Nat := 2 ^ 64 - 1

/-- A checked sum, field by field. -/
def ArchiveUsage.add (left right : ArchiveUsage) : Except BundleError ArchiveUsage := do
  ensure (left.steps + right.steps ≤ u64Max) ⟨.limit, "archive usage overflow"⟩
  ensure (left.ioBytes + right.ioBytes ≤ u64Max) ⟨.limit, "archive usage overflow"⟩
  ensure (left.elapsedMs + right.elapsedMs ≤ u64Max) ⟨.limit, "archive usage overflow"⟩
  pure ⟨left.steps + right.steps, left.ioBytes + right.ioBytes, left.elapsedMs + right.elapsedMs⟩

/-- A budget in use: its cancellation token (when it is set, if ever) and when it started. -/
structure Grant where
  budget : ArchiveBudget
  cancelledAt : Option Nat
  start : Nat
  usage : ArchiveUsage
  deriving DecidableEq, Repr

namespace Grant

/-- `cancellation.is_cancelled()`. -/
def isCancelled (grant : Grant) (now : Nat) : Bool := grant.cancelledAt.any (· ≤ now)

/-- Neither cancelled nor past its deadline. -/
def active (grant : Grant) (now : Nat) : Bool :=
  !grant.isCancelled now && now - grant.start < grant.budget.maxElapsedMs

/-- Why a grant does not cover a charge, if it does not. -/
def refuses (grant : Grant) (now units bytes : Nat) : Option ArchivePauseReason :=
  if grant.isCancelled now then some .cancelled
  else if grant.budget.maxElapsedMs ≤ now - grant.start then some .deadline
  else if grant.budget.maxSteps - grant.usage.steps < units then some .steps
  else if grant.budget.maxIoBytes - grant.usage.ioBytes < bytes then some .bytes
  else none

/-- Count a charge. -/
def charged (grant : Grant) (units bytes : Nat) : Grant :=
  { grant with usage := { grant.usage with
      steps := grant.usage.steps + units, ioBytes := grant.usage.ioBytes + bytes } }

/-- Usage of a grant, with the time it has taken. -/
def spent (grant : Grant) (now : Nat) : ArchiveUsage :=
  { grant.usage with elapsedMs := min (now - grant.start) u64Max }

end Grant

/-- What the owner of a parked task does: resume it under a new budget and token, or drop it. -/
inductive Answer where
  | resume (budget : ArchiveBudget) (cancelledAt : Option Nat)
  | drop
  deriving DecidableEq, Repr

/-- The state the worker shares with its owner. -/
structure Control where
  grant : Option Grant
  aborted : Bool
  published : Bool
  /-- Number of pauses so far. -/
  generation : Nat
  total : ArchiveUsage
  deriving DecidableEq, Repr

/-- A new task has no grant. -/
def Control.new : Control := ⟨none, false, false, 0, .zero⟩

/-! ## The worker -/

/-- When the worker's steps happen, what the clock shows, and which of its reads and file operations
    fail on their own account. -/
structure Schedule where
  /-- The moment of a step. -/
  moment : Nat → Nat
  moment_mono : Monotone moment
  /-- Milliseconds shown at a moment. -/
  clock : Nat → Nat
  clock_mono : Monotone clock
  fault : Nat → Option String

/-- Time of a step. -/
def Schedule.now (schedule : Schedule) (tick : Nat) : Nat := schedule.clock (schedule.moment tick)

/-- State of a worker whose task publishes a `μ`. -/
structure Worker (μ : Type) where
  /-- Steps taken. -/
  tick : Nat
  control : Control
  /-- What the owner will still answer. -/
  answers : List Answer
  /-- The file that publishes the result. -/
  manifestJson : Option μ

/-- A task ends with an error, or stays parked. -/
inductive Stop where
  | failed (error : BundleError)
  | parked
  deriving DecidableEq, Repr

/-- A part of a task. -/
abbrev Work (μ α : Type) := Proc (Worker μ) Stop α

variable {μ α : Type}

/-- A check that may end the task. -/
def check (x : Except BundleError α) : Work μ α := Proc.lift (x.mapError .failed)

/-- Let a step pass. -/
def Worker.next (worker : Worker μ) : Worker μ := { worker with tick := worker.tick + 1 }

section Charge

variable (schedule : Schedule) (units bytes : Nat)

/-- Charge a grant, or park: the refused charge is not counted, and the grant is given up. -/
def attempt (grant : Grant) : Work μ Bool := do
  let now ← Proc.get (schedule.now ·.tick)
  let control ← Proc.get (·.control)
  match grant.refuses now units bytes with
  | none => do
      Proc.modify fun w => { w.next with
        control := { control with grant := some (grant.charged units bytes) } }
      pure true
  | some _ => do
      let total ← check (control.total.add (grant.spent now))
      check (ensure (control.generation < u64Max) ⟨.limit, "archive generation overflow"⟩)
      Proc.modify fun w => { w.next with
        control := { control with grant := none, total, generation := control.generation + 1 } }
      pure false

/-- Wait for the owner, and charge what it grants; a refusal waits again. -/
def awaitGrant : List Answer → Work μ Unit
  | [] => Proc.fail .parked
  | .drop :: rest => do
      Proc.modify fun w => { w.next with
        answers := rest, control := { w.control with aborted := true } }
      Proc.fail (.failed dropped)
  | .resume budget cancelledAt :: rest => do
      let start ← Proc.get (schedule.now ·.tick)
      Proc.modify fun w => { w.next with answers := rest }
      let covered ← attempt schedule units bytes ⟨budget, cancelledAt, start, .zero⟩
      if covered then pure () else awaitGrant rest

/-- `Control::charge`: returns once some grant covers the charge. -/
def charge : Work μ Unit := do
  let control ← Proc.get (·.control)
  let answers ← Proc.get (·.answers)
  if control.aborted then Proc.fail (.failed dropped)
  else match control.grant with
    | none => awaitGrant schedule units bytes answers
    | some grant => do
        let covered ← attempt schedule units bytes grant
        if covered then pure () else awaitGrant schedule units bytes answers

end Charge

variable (schedule : Schedule)

/-- `work::checkpoint`; the stage and position it also notes are for progress reports. -/
def checkpoint (bytes : Nat) : Work μ Unit := charge schedule 1 bytes

/-- `work::io`. -/
def chargeIo (bytes : Nat) : Work μ Unit := charge schedule 1 bytes

/-- `work::record_read`: the reservation for one opaque store read. -/
def recordRead : Work μ Unit := chargeIo schedule maxRecordBytes

/-- Reserve a complete publication check before reading any part of it. -/
def reservePublicationReads (records : Nat) : Work μ Unit := do
  check (ensure (maxRecordBytes * records ≤ u64Max)
    ⟨.limit, "publication read reservation overflow"⟩)
  charge schedule records (maxRecordBytes * records)

/-- Whether the prepaid check may go on; it never parks inside the check. -/
def publicationCheckActive : Work μ Bool := do
  let now ← Proc.get (schedule.now ·.tick)
  let control ← Proc.get (·.control)
  Proc.modify Worker.next
  if control.aborted then Proc.fail (.failed dropped)
  else match control.grant with
    | none => Proc.fail (.failed (ioError "archive worker panicked"))
    | some grant => pure (grant.active now)

/-- `work::generation`. -/
def generation : Work μ Nat := Proc.get (·.control.generation)

/-- The final cancellation and deadline boundary before publication. -/
def beforePublish : Work μ Unit := charge schedule 0 0

/-- `work::published`: no later pause can claim that publication is still pending. -/
def markPublished : Work μ Unit :=
  Proc.modify fun w => { w with control := { w.control with published := true } }

/-- One file operation. -/
def fileOperation : Work μ Unit := do
  let fault ← Proc.get (schedule.fault ·.tick)
  Proc.modify Worker.next
  match fault with
  | some message => Proc.fail (.failed (ioError message))
  | none => pure ()

/-! ## What the worker's own steps leave alone -/

/-- Time passes, answers are used up, and nothing is published. -/
structure Worker.Before (earlier later : Worker μ) : Prop where
  tick : earlier.tick ≤ later.tick
  manifest : later.manifestJson = earlier.manifestJson
  answers : later.answers <:+ earlier.answers

instance : Std.Refl (Worker.Before (μ := μ)) := ⟨fun _ => ⟨le_rfl, rfl, List.suffix_rfl⟩⟩

instance : IsTrans (Worker μ) Worker.Before :=
  ⟨fun _ _ _ h k => ⟨h.tick.trans k.tick, k.manifest.trans h.manifest, k.answers.trans h.answers⟩⟩

/-- A part of a task that publishes nothing. -/
abbrev Quiet (x : Work μ α) : Prop := Proc.Keeps Worker.Before x

/-- Time passes, and nothing but the grant changes. -/
structure Worker.Steady (earlier later : Worker μ) : Prop where
  tick : earlier.tick ≤ later.tick
  manifest : later.manifestJson = earlier.manifestJson
  answers : later.answers = earlier.answers

instance : Std.Refl (Worker.Steady (μ := μ)) := ⟨fun _ => ⟨le_rfl, rfl, rfl⟩⟩

instance : IsTrans (Worker μ) Worker.Steady :=
  ⟨fun _ _ _ h k => ⟨h.tick.trans k.tick, k.manifest.trans h.manifest, k.answers.trans h.answers⟩⟩

lemma Worker.Steady.before {earlier : Worker μ} (h : earlier.Steady later) :
    earlier.Before later :=
  ⟨h.tick, h.manifest, h.answers ▸ List.suffix_rfl⟩

lemma quiet_check (x : Except BundleError α) : Quiet (check x : Work μ α) := Proc.keeps_lift _

lemma quiet_next : Quiet (Proc.modify Worker.next : Work μ Unit) :=
  fun w => ⟨Nat.le_succ w.tick, rfl, List.suffix_rfl⟩

section Charge

variable {schedule} {units bytes : Nat} {w w' : Worker μ}

/-- An attempt takes no answer of the host. -/
lemma attempt_answers (h : attempt schedule units bytes grant w = (.ok covered, w')) :
    w'.answers = w.answers := by
  simp only [attempt, Proc.bind_eq_ok, Proc.get_eq_ok] at h
  obtain ⟨_, _, ⟨rfl, rfl⟩, _, _, ⟨rfl, rfl⟩, h⟩ := h
  cases hrefuses : grant.refuses (schedule.now w.tick) units bytes with
  | none =>
    simp only [hrefuses, Proc.bind_eq_ok, Proc.modify_eq_ok, Proc.pure_eq_ok] at h
    obtain ⟨_, _, rfl, rfl, rfl⟩ := h
    rfl
  | some reason =>
    rw [hrefuses] at h
    simp only [Proc.bind_eq_ok, Proc.modify_eq_ok, Proc.pure_eq_ok, check, Proc.lift_eq_ok] at h
    obtain ⟨_, _, ⟨-, rfl⟩, _, _, ⟨-, rfl⟩, _, _, rfl, rfl, rfl⟩ := h
    rfl

lemma steady_attempt (grant : Grant) :
    Proc.Keeps Worker.Steady (attempt schedule units bytes grant : Work μ Bool) := by
  unfold attempt
  refine (Proc.keeps_get _).bind fun now => (Proc.keeps_get _).bind fun control => ?_
  have hstep : ∀ control : Control, Proc.Keeps Worker.Steady
      (Proc.modify fun w => { w.next with control := control } : Work μ Unit) :=
    fun _ w => ⟨Nat.le_succ w.tick, rfl, rfl⟩
  split
  · exact (hstep _).bind fun _ => Proc.keeps_pure true
  · refine (Proc.keeps_lift _).bind fun total => (Proc.keeps_lift _).bind fun _ => ?_
    exact (hstep _).bind fun _ => Proc.keeps_pure false

/-- Waiting takes the answers from the front. -/
lemma quiet_awaitGrant : ∀ (answers : List Answer) (w : Worker μ), answers <:+ w.answers →
    w.Before (awaitGrant schedule units bytes answers w).2
  | [], w, _ => refl_of _ w
  | .drop :: rest, w, h => ⟨Nat.le_succ w.tick, rfl, (List.suffix_cons _ rest).trans h⟩
  | .resume budget cancelledAt :: rest, w, h => by
    have hwoken : w.Before { w.next with answers := rest } :=
      ⟨Nat.le_succ w.tick, rfl, (List.suffix_cons _ rest).trans h⟩
    refine trans_of _ hwoken (Proc.bind_along (steady_attempt _ _).before ?_)
    intro covered m hm
    have hanswers := attempt_answers hm
    cases covered with
    | true => exact refl_of _ m
    | false => exact quiet_awaitGrant rest m (hanswers ▸ List.suffix_rfl)

/-- A charge by cases: dropped, waiting, or under a grant. -/
lemma charge_cases (w : Worker μ) : charge schedule units bytes w =
    if w.control.aborted then (.error (.failed dropped), w)
    else match w.control.grant with
      | none => awaitGrant schedule units bytes w.answers w
      | some grant => (do
          let covered ← attempt schedule units bytes grant
          if covered then pure () else awaitGrant schedule units bytes w.answers : Work μ Unit) w := by
  change (if w.control.aborted then _ else _ : Work μ Unit) w = _
  split
  · rfl
  · cases w.control.grant <;> rfl

lemma quiet_charge : Quiet (charge schedule units bytes : Work μ Unit) := by
  intro w
  rw [charge_cases]
  split
  · exact refl_of _ w
  split
  · exact quiet_awaitGrant w.answers w List.suffix_rfl
  · refine Proc.bind_along (steady_attempt _ w).before fun covered m hm => ?_
    have hanswers := attempt_answers hm
    cases covered with
    | true => exact refl_of _ m
    | false => exact quiet_awaitGrant w.answers m (hanswers ▸ List.suffix_rfl)

end Charge

/-! ## The other primitives -/

section Primitives

variable {schedule}

lemma quiet_recordRead : Quiet (recordRead schedule : Work μ Unit) := quiet_charge

lemma quiet_fileOperation : Quiet (fileOperation schedule : Work μ Unit) := by
  refine (Proc.keeps_get _).bind fun fault => quiet_next.bind fun _ => ?_
  cases fault with
  | none => exact Proc.keeps_pure ()
  | some message => exact Proc.keeps_fail _

end Primitives

end Myelin.Bundle
