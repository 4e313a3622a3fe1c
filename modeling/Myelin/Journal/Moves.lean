/-
  What one operation may do to a journal.

  `StatusMove` lists every way one status can follow another; `Change` says the same of the whole
  state, and `Operation.change` proves it of every operation.  What a journal keeps over a run is
  read off these lists and never off the operations again.

  A status can only become `queued` again in four ways: a stale entry is retried, a reservation that
  was never submitted is released, the committer answered that the candidate is stale, or the
  canonical authority observed the command missing (`Cause` tells the last two apart).
-/
import Myelin.Journal.Operations

namespace Myelin.Journal

open Lib Consensus Session Myelin.Authority Producer

variable {entry : JournalEntry} {status : EntryStatus} {id : Hash32} {token : UInt64}
  {phase : ReservationPhase} {auth : Authenticator} {after : List JournalEntry}

/-- What a change is due to. -/
inductive Cause where
  /-- The journal's own rules. -/
  | call
  /-- The committer's answer that the candidate of this reservation is stale. -/
  | staleAnswer (token : UInt64)
  /-- A signed observation for this reservation. -/
  | observation (token : UInt64)
  deriving DecidableEq, Repr

/-- Whether a status carries an outcome. -/
def EntryStatus.HasOutcome : EntryStatus → Prop
  | .committed _ (some _) _ => True
  | _ => False

/-- How one status may follow another. -/
inductive StatusMove : Cause → EntryStatus → EntryStatus → Prop where
  | keep (cause : Cause) (status : EntryStatus) : StatusMove cause status status
  | stale (reason : String) : StatusMove .call .queued (.stale reason)
  | refuse (reason : String) : StatusMove .call .queued (.rejected reason)
  | reserve (token : UInt64) : StatusMove .call .queued (.reserved token .held)
  | retry (reason : String) : StatusMove .call (.stale reason) .queued
  | release (token : UInt64) : StatusMove .call (.reserved token .held) .queued
  | rephase (token : UInt64) (old new : ReservationPhase) (h : new ≠ .held) :
      StatusMove .call (.reserved token old) (.reserved token new)
  | reject (token : UInt64) (phase : ReservationPhase) (reason : String) :
      StatusMove .call (.reserved token phase) (.rejected reason)
  | commit (cause : Cause) (old : EntryStatus) (receipt : CommandReceipt)
      (outcome : Option BusinessOutcome) (h : ¬old.HasOutcome) :
      StatusMove cause old (.committed receipt outcome false)
  | conflict (cause : Cause) (old : EntryStatus) (receipt : CommandReceipt) (h : ¬old.HasOutcome) :
      StatusMove cause old (.identityConflict receipt)
  | acknowledge (receipt : CommandReceipt) (outcome : BusinessOutcome) (acknowledged : Bool) :
      StatusMove .call (.committed receipt (some outcome) acknowledged)
        (.committed receipt (some outcome) true)
  | requeue (token : UInt64) (phase : ReservationPhase) :
      StatusMove (.staleAnswer token) (.reserved token phase) .queued
  | revoke (token : UInt64) (phase : ReservationPhase) :
      StatusMove (.observation token) (.reserved token phase) .queued

/-- An entry keeps its command and moves its status. -/
def EntryMove (cause : Cause) (entry next : JournalEntry) : Prop :=
  ∃ status, next = entry.withStatus status ∧ StatusMove cause entry.status status

/-- Entries keep their places; new ones are queued at the end. -/
def Evolves (cause : Cause) (entries next : List JournalEntry) : Prop :=
  ∃ kept added, next = kept ++ added ∧ List.Forall₂ (EntryMove cause) entries kept ∧
    ∀ entry ∈ added, entry.status = .queued

/-- The same commands, head and work under the same token. -/
def Reservation.SameWork (next reservation : Reservation) : Prop :=
  next.token = reservation.token ∧ next.constructionHead = reservation.constructionHead ∧
    next.commandIds = reservation.commandIds ∧ next.work = reservation.work

/-- Whether a command waits until it is retried. -/
def EntryStatus.IsStale : EntryStatus → Prop
  | .stale _ => True
  | _ => False

instance (status : EntryStatus) : Decidable status.IsStale := by
  unfold EntryStatus.IsStale
  split <;> infer_instance

/-- The queued entries, up to the first stale one. -/
def candidates (entries : List JournalEntry) : List JournalEntry :=
  (entries.takeWhile fun entry => ¬entry.status.IsStale).filter (·.status = .queued)

/-- The reservation ends, goes on, or is a new one with the next token, for the first commands of
    the queue. -/
def ReservationMove (state next : State) : Prop :=
  next.reservation = none ∨
    (∃ old new, state.reservation = some old ∧ next.reservation = some new ∧ new.SameWork old) ∨
    (state.reservation = none ∧ ∃ new, next.reservation = some new ∧ new.token = state.nextToken ∧
      new.commandIds <+: (candidates state.entries).map JournalEntry.id)

/-- What one operation may do to a state. -/
structure Change (cause : Cause) (state next : State) : Prop where
  scope : next.scope = state.scope
  limits : next.limits = state.limits
  policy : next.fencingPolicy = state.fencingPolicy
  entries : Evolves cause state.entries next.entries
  tokens : state.nextToken ≤ next.nextToken
  reservation : ReservationMove state next

/-! ## Entries one by one -/

section Entries

variable {cause : Cause} {entries next : List JournalEntry}

lemma EntryMove.keep (cause : Cause) (entry : JournalEntry) : EntryMove cause entry entry :=
  ⟨entry.status, rfl, .keep cause entry.status⟩

lemma EntryMove.of_status (h : StatusMove cause entry.status status) :
    EntryMove cause entry (entry.withStatus status) :=
  ⟨status, rfl, h⟩

lemma Evolves.of_forall₂ (h : List.Forall₂ (EntryMove cause) entries next) :
    Evolves cause entries next :=
  ⟨next, [], (List.append_nil next).symm, h, nofun⟩

lemma Evolves.keep (cause : Cause) (entries : List JournalEntry) :
    Evolves cause entries entries :=
  .of_forall₂ (List.forall₂_same.mpr fun entry _ => .keep cause entry)

lemma Evolves.of_map (h : ∀ entry ∈ entries, EntryMove cause entry (f entry)) :
    Evolves cause entries (entries.map f) :=
  .of_forall₂ (List.forall₂_map_right_iff.mpr (List.forall₂_same.mpr h))

/-- The entry a lookup finds is the one `setStatus` changes. -/
lemma forall₂_setStatus (hfind : entries.find? (·.id = id) = some entry)
    (h : StatusMove cause entry.status status) :
    List.Forall₂ (EntryMove cause) entries (setStatus id status entries) := by
  induction entries with
  | nil => cases hfind
  | cons first rest ih =>
    rw [setStatus]
    by_cases hid : first.id = id
    · rw [List.find?_cons_of_pos (by exact decide_eq_true hid), Option.some.injEq] at hfind
      subst hfind
      rw [if_pos hid]
      exact .cons (.of_status h) (List.forall₂_same.mpr fun entry _ => .keep cause entry)
    · rw [List.find?_cons_of_neg (by simpa using hid)] at hfind
      rw [if_neg hid]
      exact .cons (.keep cause first) (ih hfind)

lemma findEntry_eq_ok :
    findEntry entries id = .ok entry ↔ entries.find? (·.id = id) = some entry :=
  okOr_eq_ok

lemma Evolves.setStatus (hfind : findEntry entries id = .ok entry)
    (h : StatusMove cause entry.status status) :
    Evolves cause entries (Journal.setStatus id status entries) :=
  .of_forall₂ (forall₂_setStatus (findEntry_eq_ok.mp hfind) h)

lemma JournalEntry.heldBy_iff :
    entry.HeldBy token ↔ ∃ phase, entry.status = .reserved token phase := by
  unfold JournalEntry.HeldBy
  cases entry.status <;> simp

/-- Releasing a reservation moves its own entries only. -/
lemma Evolves.release (h : ∀ entry ∈ entries, ∀ phase, entry.status = .reserved token phase →
      StatusMove cause (.reserved token phase) status) :
    Evolves cause entries (releaseEntries token status entries) := by
  refine Evolves.of_map fun entry hentry => ?_
  by_cases hheld : entry.HeldBy token
  · obtain ⟨phase, hphase⟩ := JournalEntry.heldBy_iff.mp hheld
    rw [if_pos hheld]
    exact .of_status (hphase ▸ h entry hentry phase hphase)
  · rw [if_neg hheld]
    exact .keep cause entry

lemma Evolves.rephase (hphase : phase ≠ .held) :
    Evolves .call entries (entries.map (·.rephase phase)) := by
  refine Evolves.of_map fun entry _ => ?_
  unfold JournalEntry.rephase
  split
  · next token old hold => exact .of_status (hold ▸ .rephase token old phase hphase)
  · exact .keep .call entry

lemma EntryStatus.not_hasOutcome_of_not_settled (h : ¬status.Settled) : ¬status.HasOutcome := by
  intro houtcome
  apply h
  cases status with
  | committed receipt outcome acknowledged =>
    cases outcome with
    | none => exact houtcome
    | some => trivial
  | _ => exact houtcome.elim

end Entries

/-! ## Queueing and reserving -/

section Operations

variable {env : JournalEnv} {state next : State}

/-- A reservation that ends, or is not touched. -/
lemma ReservationMove.of_kept (h : next.reservation = none ∨ next.reservation = state.reservation) :
    ReservationMove state next := by
  rcases h with hnone | hsame
  · exact .inl hnone
  · cases hreservation : state.reservation with
    | none => exact .inl (hsame.trans hreservation)
    | some old =>
      exact .inr (.inl ⟨old, old, hreservation, hsame.trans hreservation, rfl, rfl, rfl, rfl⟩)

variable {entries : List JournalEntry}

/-- The parts of a change that most operations leave alone. -/
lemma Change.of_entries (h : Evolves cause state.entries entries) :
    Change cause state { state with entries } :=
  ⟨rfl, rfl, rfl, h, UInt64.le_refl _, .of_kept (.inr rfl)⟩

lemma enqueue_change (h : enqueue env command auth state = .ok (entry, next)) :
    Change .call state next := by
  simp only [enqueue, eq_ok] at h
  obtain ⟨-, -, h⟩ := h
  split at h
  · simp only [eq_ok, Prod.mk.injEq] at h
    obtain ⟨-, -, rfl⟩ := h
    exact .of_entries (.keep .call state.entries)
  · simp only [eq_ok, Prod.mk.injEq] at h
    obtain ⟨-, rfl, rfl⟩ := h
    refine .of_entries ⟨state.entries, _, rfl, ?_, List.forall_mem_singleton.mpr rfl⟩
    exact List.forall₂_same.mpr fun entry _ => .keep .call entry

lemma retryStale_change (h : retryStale id state = .ok ((), next)) : Change .call state next := by
  simp only [retryStale, bind_eq_ok] at h
  obtain ⟨entry, hfind, h⟩ := h
  split at h
  · next reason hstatus =>
    simp only [pure_eq_ok, Prod.mk.injEq, true_and] at h
    subst h
    exact .of_entries (.setStatus hfind (hstatus ▸ .retry reason))
  · cases h

section Reserve

variable {build : Builder} {head : SessionHead} {limits : JournalLimits}
  {maxCommands maxWorkBytes : Nat}

/-- What the walk of `reserve` does: it passes over an entry, picks it, settles it for now or for good,
    or ends anywhere. -/
inductive Walk (limits : JournalLimits) (token : UInt64) :
    Selection → List JournalEntry → List JournalEntry × Selection → Prop where
  | stop (selection : Selection) (entries : List JournalEntry) :
      Walk limits token selection entries (entries, selection)
  | settle {entry : JournalEntry} {status : EntryStatus} (selection : Selection)
      (rest : List JournalEntry) (reason : String) : entry.status = .queued →
      status = .stale reason ∨ status = .rejected reason →
      Walk limits token selection (entry :: rest) (entry.withStatus status :: rest, selection)
  | pass {entry : JournalEntry} {after : List JournalEntry × Selection} :
      entry.status ≠ .queued → ¬entry.status.IsStale →
      Walk limits token selection rest after →
      Walk limits token selection (entry :: rest) (entry :: after.1, after.2)
  | pick {entry : JournalEntry} {after : List JournalEntry × Selection} {work : List UInt8} :
      entry.status = .queued →
      work ≠ [] → work.length ≤ limits.maxCommandBytes →
      Walk limits token ⟨total, selection.commandIds ++ [entry.id], selection.work ++ [work]⟩ rest
        after →
      Walk limits token selection (entry :: rest)
        (entry.withStatus (.reserved token .held) :: after.1, after.2)

/-- The loop of `reserve` is such a walk. -/
lemma reserveEntries_walk (selection : Selection) (entries : List JournalEntry) :
    Walk limits token selection entries
      (reserveEntries auth build head limits token maxCommands maxWorkBytes selection entries) := by
  induction entries generalizing selection with
  | nil => exact .stop _ _
  | cons entry rest ih =>
    rw [reserveEntries]
    split
    · exact .stop _ _
    · next hqueued =>
      split
      · exact .settle _ _ _ hqueued (.inl rfl)
      · exact .settle _ _ _ hqueued (.inr rfl)
      · split
        · exact .settle _ _ _ hqueued (.inr rfl)
        · next hwork =>
          obtain ⟨hsome, hsize⟩ := not_or.mp hwork
          split
          · exact .stop _ _
          · dsimp only
            split
            · exact .pick hqueued hsome (Nat.not_lt.mp hsize) (.stop _ _)
            · exact .pick hqueued hsome (Nat.not_lt.mp hsize) (ih _)
    all_goals
      next hstatus => exact .pass (by rw [hstatus]; nofun) (by rw [hstatus]; exact id) (ih selection)

namespace Walk

variable {selection : Selection} {entries : List JournalEntry} {after : List JournalEntry × Selection}
  (h : Walk limits token selection entries after)
include h

/-- Only queued entries move. -/
lemma forall₂ : List.Forall₂ (EntryMove .call) entries after.1 := by
  have hkeep : ∀ rest : List JournalEntry, List.Forall₂ (EntryMove .call) rest rest :=
    fun rest => List.forall₂_same.mpr fun entry _ => .keep .call entry
  induction h with
  | stop => exact hkeep _
  | settle _ rest reason hqueued hstatus =>
    rcases hstatus with rfl | rfl
    · exact .cons (.of_status (hqueued ▸ .stale reason)) (hkeep rest)
    · exact .cons (.of_status (hqueued ▸ .refuse reason)) (hkeep rest)
  | pass _ _ _ ih => exact .cons (.keep .call _) ih
  | pick hqueued _ _ _ ih => exact .cons (.of_status (hqueued ▸ .reserve token)) ih

/-- The first candidates are picked, in order. -/
lemma commandIds :
    ∃ picked, after.2.commandIds = selection.commandIds ++ picked ∧
      picked <+: (candidates entries).map JournalEntry.id := by
  induction h with
  | stop | settle => exact ⟨[], (List.append_nil _).symm, List.nil_prefix⟩
  | @pass _ rest entry _ hstatus hfresh _ ih =>
    have hother : candidates (entry :: rest) = candidates rest := by simp [candidates, hfresh, hstatus]
    rwa [hother]
  | @pick _ rest _ entry _ _ hqueued _ _ _ ih =>
    have hfirst : candidates (entry :: rest) = entry :: candidates rest := by
      simp [candidates, hqueued, EntryStatus.IsStale]
    obtain ⟨picked, hpicked, hprefix⟩ := ih
    rw [hfirst, List.map_cons]
    exact ⟨entry.id :: picked, by simpa using hpicked, (List.prefix_cons_inj entry.id).mpr hprefix⟩

lemma subset : selection.commandIds ⊆ after.2.commandIds := by
  obtain ⟨picked, hpicked, -⟩ := h.commandIds
  exact hpicked ▸ List.subset_append_left _ _

/-- What is picked is held. -/
lemma held (hid : id ∈ after.2.commandIds) :
    id ∈ selection.commandIds ∨
      ∃ entry ∈ after.1, entry.id = id ∧ entry.status = .reserved token .held := by
  induction h with
  | stop | settle => exact .inl hid
  | pass _ _ _ ih =>
    exact (ih hid).imp_right fun ⟨entry, hmem, hentry⟩ => ⟨entry, List.mem_cons_of_mem _ hmem, hentry⟩
  | pick _ _ _ _ ih =>
    rcases ih hid with hold | ⟨entry, hmem, hentry⟩
    · rcases List.mem_append.mp hold with hold | hnew
      · exact .inl hold
      · exact .inr ⟨_, List.mem_cons_self, (List.mem_singleton.mp hnew).symm, rfl⟩
    · exact .inr ⟨entry, List.mem_cons_of_mem _ hmem, hentry⟩

/-- What becomes held is picked. -/
lemma moved (hentry : entry ∈ after.1) :
    entry ∈ entries ∨ (∃ reason, entry.status = .stale reason ∨ entry.status = .rejected reason) ∨
      entry.status = .reserved token .held ∧ entry.id ∈ after.2.commandIds := by
  induction h with
  | stop => exact .inl hentry
  | settle _ _ reason _ hstatus =>
    rcases List.mem_cons.mp hentry with rfl | hrest
    · exact .inr (.inl ⟨reason, hstatus⟩)
    · exact .inl (List.mem_cons_of_mem _ hrest)
  | pass _ _ _ ih =>
    rcases List.mem_cons.mp hentry with rfl | hrest
    · exact .inl List.mem_cons_self
    · exact (ih hrest).imp_left (List.mem_cons_of_mem _)
  | pick _ _ _ hwalk ih =>
    rcases List.mem_cons.mp hentry with rfl | hrest
    · exact .inr (.inr ⟨rfl, hwalk.subset (List.mem_append_right _ List.mem_cons_self)⟩)
    · exact (ih hrest).imp_left (List.mem_cons_of_mem _)

/-- Each pick has its work, within the bounds. -/
lemma work (hlength : selection.commandIds.length = selection.work.length)
    (hbounds : ∀ work ∈ selection.work, work ≠ [] ∧ work.length ≤ limits.maxCommandBytes) :
    after.2.commandIds.length = after.2.work.length ∧
      ∀ work ∈ after.2.work, work ≠ [] ∧ work.length ≤ limits.maxCommandBytes := by
  induction h with
  | stop | settle => exact ⟨hlength, hbounds⟩
  | pass _ _ _ ih => exact ih hlength hbounds
  | pick _ hsome hsize _ ih =>
    refine ih (by simp [hlength]) fun work hwork => ?_
    rcases List.mem_append.mp hwork with hold | hnew
    · exact hbounds work hold
    · exact List.mem_singleton.mp hnew ▸ ⟨hsome, hsize⟩

end Walk

lemma reserve_change
    (h : reserve env auth build head maxCommands maxWorkBytes state = .ok (reservation, next)) :
    Change .call state next := by
  simp only [reserve, eq_ok] at h
  obtain ⟨-, hfree, constructionHead, -, h⟩ := h
  split at h
  · simp only [pure_eq_ok, Prod.mk.injEq] at h
    obtain ⟨-, rfl⟩ := h
    exact .of_entries (.of_forall₂ (reserveEntries_walk _ _).forall₂)
  · simp only [eq_ok, Prod.mk.injEq] at h
    obtain ⟨nextToken, htoken, -, rfl⟩ := h
    refine ⟨rfl, rfl, rfl, .of_forall₂ (reserveEntries_walk _ _).forall₂, ?_, ?_⟩
    · have hnext : nextToken.toNat = state.nextToken.toNat + 1 := checkedAdd_eq_some.mp htoken
      exact UInt64.le_iff_toNat_le.mpr (show _ ≤ nextToken.toNat by omega)
    · obtain ⟨picked, hpicked, hfirst⟩ := (reserveEntries_walk ⟨0, [], []⟩ state.entries).commandIds
      exact .inr (.inr ⟨hfree, _, rfl, rfl, hpicked ▸ hfirst⟩)

end Reserve

/-! ## Submitting -/

lemma setPhase_change (state : State) (hphase : phase ≠ .held) :
    Change .call state (setPhase state phase) := by
  unfold setPhase
  split
  · exact .of_entries (.keep .call state.entries)
  · next reservation hreservation =>
    refine ⟨rfl, rfl, rfl, .rephase hphase, UInt64.le_refl _, .inr (.inl ?_)⟩
    exact ⟨reservation, _, hreservation, rfl, rfl, rfl, rfl, rfl⟩

lemma beginCommit_change (h : beginCommit env token current state = .ok ((), next)) :
    Change .call state next := by
  simp only [beginCommit, eq_ok, Prod.mk.injEq, true_and] at h
  obtain ⟨-, reservation, -, -, -, rfl⟩ := h
  exact setPhase_change state (by decide)

lemma markUnknown_change (h : markUnknown token state = .ok ((), next)) :
    Change .call state next := by
  simp only [markUnknown, eq_ok, Prod.mk.injEq, true_and] at h
  obtain ⟨reservation, -, -, rfl⟩ := h
  exact setPhase_change state (by decide)

/-- What the committer's answer is the cause of. -/
def answerCause (token : UInt64) : CommitError → Cause
  | .staleCandidate => .staleAnswer token
  | .rejected _ | .outcomeUnknown _ => .call

/-- A reservation that is over, with its entries released. -/
lemma release_change (h : ∀ entry ∈ state.entries, ∀ phase, entry.status = .reserved token phase →
      StatusMove cause (.reserved token phase) status) :
    Change cause state { state with
      entries := releaseEntries token status state.entries, reservation := none } :=
  ⟨rfl, rfl, rfl, .release h, UInt64.le_refl _, .of_kept (.inl rfl)⟩

/-- Each answer moves the held entries its own way. -/
lemma answerCommit_change (h : answerCommit token error state = .ok (submission, next)) :
    Change (answerCause token error) state next := by
  cases error with
  | staleCandidate =>
    simp only [answerCommit, eq_ok, Prod.mk.injEq] at h
    obtain ⟨_, -, -, rfl⟩ := h
    exact release_change fun _ _ phase _ => .requeue token phase
  | rejected reason =>
    simp only [answerCommit, eq_ok, Prod.mk.injEq] at h
    obtain ⟨_, -, -, rfl⟩ := h
    exact release_change fun _ _ phase _ => .reject token phase reason
  | outcomeUnknown message =>
    simp only [answerCommit, bind_eq_ok, pure_eq_ok, Prod.mk.injEq, Prod.exists] at h
    obtain ⟨_, _, hmark, -, rfl⟩ := h
    exact markUnknown_change hmark

/-- In a valid journal an entry is reserved exactly as the reservation says. -/
lemma reserved_of_valid (hvalid : validate env state = .ok ()) (hentry : entry ∈ state.entries)
    (hstatus : entry.status = .reserved token phase) :
    ∃ reservation, state.reservation = some reservation ∧ reservation.token = token ∧
      reservation.phase = phase ∧ entry.id ∈ reservation.commandIds := by
  simp only [validate, validateUpdate, validateBody, eq_ok] at hvalid
  obtain ⟨⟨-, -, hentries, -⟩, -⟩ := hvalid
  obtain ⟨index, hindex⟩ := List.getElem?_of_mem hentry
  have hone := (validateEntries_ok hentries hindex).status
  simp only [validateStatus, hstatus, eq_ok, findReservation_eq_ok] at hone
  obtain ⟨reservation, ⟨hsome, htoken⟩, hmem, hphase⟩ := hone
  exact ⟨reservation, hsome, htoken, hphase, hmem⟩

lemma releaseUnsubmitted_change (hvalid : validate env state = .ok ())
    (h : releaseUnsubmitted token state = .ok ((), next)) : Change .call state next := by
  simp only [releaseUnsubmitted, eq_ok, findReservation_eq_ok, Prod.mk.injEq, true_and] at h
  obtain ⟨reservation, ⟨hsome, -⟩, hheld, rfl⟩ := h
  refine release_change fun entry hentry phase hstatus => ?_
  obtain ⟨found, hfound, -, hphase, -⟩ := reserved_of_valid hvalid hentry hstatus
  rw [hsome, Option.some.injEq] at hfound
  have hphase : phase = .held := by rw [← hphase, ← hfound, hheld]
  exact hphase ▸ .release token

/-! ## Reconciling -/

variable {limit : Nat} {interpret : Interpreter}

lemma interpretReceipt_eq_ok (h : interpretReceipt limit interpret record receipt = .ok status) :
    ∃ outcome, status = .committed receipt outcome false := by
  simp only [interpretReceipt, eq_ok] at h
  obtain ⟨outcome, -, -, rfl⟩ := h
  exact ⟨outcome, rfl⟩

lemma reconcileEntry_move (h : reconcileEntry env chain interpret limit entry = .ok result) :
    EntryMove .call entry result.1 := by
  unfold reconcileEntry at h
  split at h
  · cases h
    exact .keep .call entry
  · next hopen =>
    have hopen := EntryStatus.not_hasOutcome_of_not_settled hopen
    simp only [resolveEntry, bind_eq_ok] at h
    obtain ⟨status, -, h⟩ := h
    cases status with
    | missing =>
      cases h
      exact .keep .call entry
    | identityConflict receipt =>
      cases h
      exact .of_status (.conflict .call entry.status receipt hopen)
    | committed receipt =>
      simp only [eq_ok] at h
      obtain ⟨_, -, record, -, status, hstatus, rfl⟩ := h
      obtain ⟨outcome, rfl⟩ := interpretReceipt_eq_ok hstatus
      exact .of_status (.commit .call entry.status receipt outcome hopen)

lemma reconcile_change (h : reconcile env chain interpret state = .ok (changed, next)) :
    Change .call state next := by
  simp only [reconcile, eq_ok, Prod.mk.injEq] at h
  obtain ⟨-, -, results, hresults, -, rfl⟩ := h
  refine ⟨rfl, rfl, rfl, .of_forall₂ ?_, UInt64.le_refl _, .of_kept ?_⟩
  · have hmoves := (mapResult_eq_ok.mp hresults).imp fun entry result => reconcileEntry_move
    exact List.forall₂_map_right_iff.mpr hmoves
  · dsimp only
    split
    · exact .inr rfl
    · exact .inl rfl

lemma acknowledge_change (h : acknowledge id state = .ok (outcome, next)) :
    Change .call state next := by
  simp only [acknowledge, bind_eq_ok] at h
  obtain ⟨entry, hfind, h⟩ := h
  split at h
  · next receipt found acknowledged hstatus =>
    simp only [pure_eq_ok, Prod.mk.injEq] at h
    obtain ⟨-, rfl⟩ := h
    exact .of_entries (.setStatus hfind (hstatus ▸ .acknowledge receipt found acknowledged))
  · cases h

/-! ## Fenced submission -/

lemma beginFencedCommit_change
    (h : beginFencedCommit env token policy grant authorization request state =
      .ok (binding, next)) : Change .call state next := by
  simp only [beginFencedCommit, eq_ok, Prod.mk.injEq] at h
  obtain ⟨reservation, -, -, -, -, -, rfl⟩ := h
  have hphase := setPhase_change state (show ReservationPhase.submitting ≠ .held by decide)
  refine ⟨hphase.scope, hphase.limits, hphase.policy, hphase.entries, hphase.tokens, ?_⟩
  rcases hphase.reservation with hnone | ⟨old, new, hold, hnew, hsame⟩ | ⟨hfree, new, hnew, htoken⟩
  · exact .inl (by rw [hnone, Option.map_none])
  · exact .inr (.inl ⟨old, _, hold, Option.map_eq_some_iff.mpr ⟨new, hnew, rfl⟩, hsame⟩)
  · exact .inr (.inr ⟨hfree, _, Option.map_eq_some_iff.mpr ⟨new, hnew, rfl⟩, htoken⟩)

variable {canRequeue : Bool} {observed : VerifiedObservation}

/-- An observation gives an entry its canonical status, or releases it. -/
lemma observedStatus_move
    (h : observedStatus token canRequeue limit interpret old observed = .ok (some status)) :
    StatusMove (.observation token) old status := by
  have hinterpret : ∀ {record receipt}, ¬old.HasOutcome →
      (interpretReceipt limit interpret record receipt).map some = .ok (some status) →
        StatusMove (.observation token) old status := by
    intro record receipt hopen hmap
    obtain ⟨found, hfound, hsome⟩ := map_eq_ok.mp hmap
    cases hsome
    obtain ⟨outcome, rfl⟩ := interpretReceipt_eq_ok hfound
    exact .commit _ old receipt outcome hopen
  cases observed with
  | missing command =>
    cases old with
    | reserved t phase =>
      simp only [observedStatus, Except.ok.injEq, Option.ite_none_right_eq_some,
        Option.some.injEq] at h
      obtain ⟨⟨-, rfl⟩, rfl⟩ := h
      exact .revoke t phase
    | _ => cases h
  | committed receipt record =>
    cases old with
    | identityConflict => cases h
    | committed previous outcome acknowledged =>
      cases outcome with
      | some =>
        simp only [observedStatus, eq_ok, reduceCtorEq, and_false, exists_false] at h
      | none =>
        simp only [observedStatus, eq_ok] at h
        exact hinterpret id h.2
    | queued | stale | rejected | reserved => exact hinterpret id h
  | identityConflict receipt =>
    cases old with
    | committed => cases h
    | _ =>
      cases h
      exact .conflict _ _ receipt id

/-- Successive observations for one reservation amount to one. -/
lemma StatusMove.observation_trans (h₁ : StatusMove (.observation token) first second)
    (h₂ : StatusMove (.observation token) second third) :
    StatusMove (.observation token) first third := by
  have hopen : ¬second.HasOutcome → ¬first.HasOutcome := by
    intro hsecond
    cases h₁ with
    | keep => exact hsecond
    | commit _ _ _ _ h | conflict _ _ _ h => exact h
    | revoke => exact id
  cases h₂ with
  | keep => exact h₁
  | commit _ _ receipt outcome h => exact .commit _ first receipt outcome (hopen h)
  | conflict _ _ receipt h => exact .conflict _ first receipt (hopen h)
  | revoke _ phase =>
    cases h₁ with
    | keep => exact .revoke token phase

lemma EntryMove.observation_trans (h₁ : EntryMove (.observation token) first second)
    (h₂ : EntryMove (.observation token) second third) :
    EntryMove (.observation token) first third := by
  obtain ⟨status, rfl, hfirst⟩ := h₁
  obtain ⟨last, rfl, hsecond⟩ := h₂
  exact ⟨last, rfl, hfirst.observation_trans hsecond⟩

lemma applyObservation_forall₂
    (h : applyObservation token canRequeue profile limit interpret entries observed = .ok after) :
    List.Forall₂ (EntryMove (.observation token)) entries after := by
  simp only [applyObservation, eq_ok] at h
  obtain ⟨-, entry, hfind, status, hstatus, rfl⟩ := h
  cases status with
  | none => exact List.forall₂_same.mpr fun entry _ => .keep _ entry
  | some status =>
    exact forall₂_setStatus (findEntry_eq_ok.mp hfind) (observedStatus_move hstatus)

/-- Observations of one certificate compose. -/
lemma foldlM_applyObservation {verified : List VerifiedObservation}
    (h : verified.foldlM (applyObservation token canRequeue profile limit interpret) entries =
      .ok after) : List.Forall₂ (EntryMove (.observation token)) entries after := by
  induction verified generalizing entries with
  | nil =>
    rw [List.foldlM_nil, pure_eq_ok] at h
    exact h ▸ List.forall₂_same.mpr fun entry _ => .keep _ entry
  | cons observed rest ih =>
    rw [List.foldlM_cons, bind_eq_ok] at h
    obtain ⟨middle, hfirst, hrest⟩ := h
    refine forall₂_comp ?_ (applyObservation_forall₂ hfirst) (ih hrest)
    exact fun _ _ _ => EntryMove.observation_trans

lemma reconcileFenced_change
    (h : reconcileFenced env token certificate interpret state = .ok (listed, next)) :
    Change (.observation token) state next := by
  simp only [reconcileFenced, eq_ok, Prod.mk.injEq] at h
  obtain ⟨binding, -, verified, -, entries, hentries, digest, -, recoveries, -, -, rfl⟩ := h
  refine ⟨rfl, rfl, rfl, .of_forall₂ (foldlM_applyObservation hentries), UInt64.le_refl _,
    .of_kept ?_⟩
  dsimp only
  split
  · exact .inr rfl
  · exact .inl rfl

/-! ## All of them -/

/-- What an operation is the cause of. -/
def Operation.cause : Operation → Cause
  | .reconcileFenced token _ _ => .observation token
  | _ => .call

/-- Every operation on a valid state is a change. -/
lemma Operation.change {operation : Operation} (hvalid : validate env state = .ok ())
    (h : operation.apply env state = .ok next) : Change operation.cause state next := by
  cases operation <;> simp only [Operation.apply, map_eq_ok, Prod.exists] at h <;>
    obtain ⟨_, _, h, rfl⟩ := h
  case enqueue => exact enqueue_change h
  case retryStale => exact retryStale_change h
  case reserve => exact reserve_change h
  case beginCommit => exact beginCommit_change h
  case markUnknown => exact markUnknown_change h
  case releaseUnsubmitted => exact releaseUnsubmitted_change hvalid h
  case reconcile => exact reconcile_change h
  case acknowledge => exact acknowledge_change h
  case beginFencedCommit => exact beginFencedCommit_change h
  case reconcileFenced => exact reconcileFenced_change h

/-- What a request is the cause of. -/
def Request.cause : Request → Cause
  | .call operation => operation.cause
  | .answer token error => answerCause token error

/-- One request makes one change. -/
lemma Request.change {request : Request} (hvalid : validate env state = .ok ())
    (h : request.apply env state = .ok next) : Change request.cause state next := by
  cases request with
  | call operation => exact Operation.change hvalid h
  | answer token error =>
    simp only [Request.apply, map_eq_ok, Prod.exists] at h
    obtain ⟨_, _, h, rfl⟩ := h
    exact answerCommit_change h

end Operations

end Myelin.Journal
