/-
  Where every submitted transaction is.

  `Books` is the invariant of the queue and the ledger while a producer holds some reservations:
  each transaction is acknowledged, reserved or waiting (`balance`, up to order and counted), and
  what the producer holds, followed by what waits, is in submission order (`fifo`).  Every queue
  operation keeps the books; `Accounted` adds what the producer's own variables say about the
  reservations it holds, and a step keeps that.

  The run may start from a queue in which an earlier run left reservations behind (their outcome
  was unknown): they are in its `origin`, and stay.
-/
import Myelin.Producer.Machine

namespace Myelin.Producer

open Lib Session QueuedTransactionSource

variable {τ : Type} {len : τ → UInt64} {config : ProducerConfig}
  {origin source next : QueuedTransactionSource τ} {held : List Nat}
  {ledger : Ledger τ}

/-! ## The books -/

/-- The transactions a producer holds, then those that wait. -/
def QueuedTransactionSource.line (source : QueuedTransactionSource τ) (held : List Nat) :
    List (SessionHead × τ) :=
  source.state.reserved.under held ++ source.state.available

/-- The invariant of the queue and the ledger while the producer holds reservations. -/
structure Books (origin source : QueuedTransactionSource τ) (held : List Nat)
    (ledger : Ledger τ) : Prop where
  capacity : source.maxTransactions = origin.maxTransactions ∧
    source.maxTransactionBytes = origin.maxTransactionBytes
  distinct : held.Nodup
  present : ∀ r ∈ held, (source.state.reserved.get? r).isSome
  balance : (origin.state.reserved.contents ++ ledger.submitted).Perm
    (ledger.acknowledged ++ (source.state.reserved.contents ++ source.state.available))
  fifo : (source.line held).Sublist ledger.submitted

namespace Books

section

variable (h : Books origin source held ledger)
include h

lemma submit (hnext : source.submit len baseHead tx = .ok next) :
    Books origin next held { ledger with submitted := ledger.submitted ++ [(baseHead, tx)] } := by
  obtain ⟨_, _, rfl⟩ := submit_eq_ok.mp hnext
  refine ⟨h.capacity, h.distinct, h.present, ?_, ?_⟩
  · have hbalance := h.balance.append_right [(baseHead, tx)]
    simpa only [List.append_assoc] using hbalance
  · have hfifo := h.fifo.append (List.Sublist.refl [(baseHead, tx)])
    simpa only [line, List.append_assoc] using hfifo

/-- The front of the queue goes under the next id, at the end of what is held. -/
lemma take (hfront : source.state.available = entries ++ source.state.available.drop count)
    (hnext : next = { source with state := source.state.take count entries }) :
    Books origin next (held ++ [source.state.nextReservation]) ledger ∧
      next.state.reserved.under (held ++ [source.state.nextReservation]) =
        source.state.reserved.under held ++ entries ∧
      next.line (held ++ [source.state.nextReservation]) = source.line held := by
  subst hnext
  have hnew : source.state.nextReservation ∉ held := fun hmem => by
    have hsome := h.present _ hmem
    rw [source.state.get?_next] at hsome
    exact absurd hsome Bool.false_ne_true
  have hsame : ∀ r ∈ held, (source.state.take count entries).reserved.get? r =
      source.state.reserved.get? r :=
    fun r hr => SortedMap.get?_insert_ne fun heq => hnew (heq ▸ hr)
  have hlast : (source.state.take count entries).reserved.get? source.state.nextReservation =
      some entries := SortedMap.get?_insert_self
  have hunder : (source.state.take count entries).reserved.under
      (held ++ [source.state.nextReservation]) = source.state.reserved.under held ++ entries := by
    rw [← SortedMap.under_congr hsame, SortedMap.under, List.flatMap_append, List.flatMap_singleton,
      hlast]
    rfl
  have hline : line { source with state := source.state.take count entries }
      (held ++ [source.state.nextReservation]) = source.line held := by
    rw [line, line, hunder, List.append_assoc, hfront]
    simp only [QueueState.take, ← hfront]
  refine ⟨⟨h.capacity, ?_, ?_, ?_, hline ▸ h.fifo⟩, hunder, hline⟩
  · exact List.nodup_append.mpr ⟨h.distinct, List.nodup_singleton _, fun a ha b hb heq =>
      hnew (List.mem_singleton.mp hb ▸ heq ▸ ha)⟩
  · intro r hr
    rcases List.mem_append.mp hr with hr | hr
    · rw [hsame r hr]
      exact h.present r hr
    · rw [List.mem_singleton.mp hr, hlast]
      rfl
  · have hcontents := SortedMap.contents_insert_perm entries source.state.get?_next
    have hmoved : (source.state.reserved.contents ++ source.state.available).Perm
        ((source.state.take count entries).reserved.contents ++ source.state.available.drop count) := by
      nth_rewrite 1 [hfront]
      rw [← List.append_assoc]
      exact (List.perm_append_comm.trans hcontents.symm).append_right _
    exact h.balance.trans (hmoved.append_left _)

/-- What is held can be given back: it comes first, in the order it was taken. -/
lemma release :
    ∃ next, source.release held = .ok next ∧ Books origin next [] ledger ∧
      next.state.available = source.line held ∧
      next.state.reserved = source.state.reserved.eraseAll held := by
  refine ⟨_, release_held h.distinct h.present, ⟨h.capacity, List.nodup_nil, nofun, ?_, h.fifo⟩, rfl,
    rfl⟩
  · have hcontents := SortedMap.contents_perm_eraseAll h.distinct h.present
    have hback : (source.state.reserved.contents ++ source.state.available).Perm
        ((source.state.reserved.eraseAll held).contents ++
          (source.state.reserved.under held ++ source.state.available)) := by
      rw [← List.append_assoc]
      exact (hcontents.trans List.perm_append_comm).append_right _
    exact h.balance.trans (hback.append_left _)

/-- What is held can be forgotten, which acknowledges it. -/
lemma acknowledge :
    ∃ next, source.acknowledge held = .ok next ∧ Books origin next []
        { ledger with
          acknowledged := ledger.acknowledged ++ source.state.reserved.under held } := by
  refine ⟨_, acknowledge_held h.distinct h.present, ⟨h.capacity, List.nodup_nil, nofun, ?_, ?_⟩⟩
  · have hcontents := SortedMap.contents_perm_eraseAll h.distinct h.present
    rw [List.append_assoc, ← List.append_assoc (source.state.reserved.under held)]
    exact h.balance.trans ((hcontents.append_right _).append_left _)
  · exact (List.sublist_append_right _ _).trans h.fifo

/-- A producer that stops keeping track of its reservations leaves them in the queue. -/
lemma abandon : Books origin source [] ledger :=
  ⟨h.capacity, List.nodup_nil, nofun, h.balance, (List.sublist_append_right _ _).trans h.fifo⟩

lemma relog : Books origin source held { ledger with committed } :=
  ⟨h.capacity, h.distinct, h.present, h.balance, h.fifo⟩

/-- One reservation of the producer: nothing new, or the front of the queue at the end of what is
    held.  A selection that fails its check is given back. -/
lemma reserving (hreserve : reserve len limits head source = (result, next)) :
    match result with
    | .error _ => Books origin next held ledger ∧ next.line held = source.line held ∧
        next.state.reserved.under held = source.state.reserved.under held
    | .ok selection =>
        Books origin next (held ++ selection.reservation.toList) ledger ∧
        next.line (held ++ selection.reservation.toList) = source.line held ∧
        next.state.reserved.under (held ++ selection.reservation.toList) =
          source.state.reserved.under held ++
            (selection.transactions.map fun tx => (selection.baseHead, tx)) ∧
        (selection.transactions = [] ↔ selection.reservation = none) ∧
        Within len limits selection.transactions := by
  cases head with
  | error error =>
    cases hreserve
    exact ⟨h, rfl, rfl⟩
  | ok baseHead =>
    rw [Producer.reserve] at hreserve
    cases hmiddle : source.reserve len baseHead limits with
    | error error =>
      rw [hmiddle] at hreserve
      cases hreserve
      exact ⟨h, rfl, rfl⟩
    | ok found =>
      obtain ⟨selection, middle⟩ := found
      obtain ⟨hhead, hfound⟩ := reserve_ok hmiddle
      simp only [hmiddle, hhead, ne_eq, not_true_eq_false, if_false] at hreserve
      cases hvalid : validateSelection len selection limits with
      | ok _ =>
        rw [hvalid] at hreserve
        cases hreserve
        obtain ⟨hboth, hwithin⟩ := validateSelection_eq_ok.mp hvalid
        rcases hfound with ⟨hempty, hnone, rfl⟩ | ⟨_, hsome, hfront, hnext⟩
        · simp only [hempty, hnone, Option.toList_none, List.append_nil, List.map_nil]
          exact ⟨h, trivial, trivial, by simp, hempty ▸ hwithin⟩
        · obtain ⟨hbooks, hunder, hline⟩ := h.take hfront hnext
          simp only [hsome, Option.toList_some, hhead]
          exact ⟨hbooks, hline, hunder, hsome ▸ hboth, hwithin⟩
      | error error =>
        -- the selection fails its check and goes straight back
        obtain ⟨back, hback, havailable, hreserved, hcount, hbytes⟩ :=
          release_reserved hmiddle
        simp only [hvalid, hback] at hreserve
        cases hreserve
        have hline : next.line held = source.line held := by
          rw [line, line, havailable, hreserved]
        refine ⟨⟨⟨hcount.trans h.capacity.1, hbytes.trans h.capacity.2⟩, h.distinct,
          hreserved ▸ h.present, ?_, hline ▸ h.fifo⟩, hline, by rw [hreserved]⟩
        rw [havailable, hreserved]
        exact h.balance

end

end Books

/-! ## The producer's variables -/

/-- The transactions of a batch, with the head they were built on. -/
def Batch.entries (batch : Batch τ) : List (SessionHead × τ) :=
  batch.transactions.map fun tx => (batch.baseHead, tx)

/-- The producer's own work is a reservation only where the trigger asks for one. -/
def Task.Fits (trigger : ProductionTrigger) : Task → Prop
  | .automatic => trigger ≠ .never
  | .manual _ => True

/-- What a control state knows of the reservations it holds.  Only a manual batch holds none. -/
def Control.Holds (len : τ → UInt64) (config : ProducerConfig)
    (source : QueuedTransactionSource τ) : Control τ → Prop
  | .extending batch totalBytes | .lingering batch totalBytes =>
      batch.reservations ≠ [] ∧ source.state.reserved.under batch.reservations = batch.entries ∧
      totalBytes.toNat = totalLen len batch.transactions ∧
      Within len config.limits batch.transactions
  | .committing batch _ _ =>
      (batch.reservations ≠ [] → source.state.reserved.under batch.reservations = batch.entries) ∧
      Within len config.limits batch.transactions
  | .reserving task => task.Fits config.trigger
  | .waiting | .stopped _ => True

/-- Control states that hold nothing. -/
def Control.Free (trigger : ProductionTrigger) : Control τ → Prop
  | .reserving task => task.Fits trigger
  | .waiting | .stopped _ => True
  | .extending _ _ | .lingering _ _ | .committing _ _ _ => False

/-- What a resumption of the producer leaves behind. -/
structure Kept (len : τ → UInt64) (config : ProducerConfig) (origin : QueuedTransactionSource τ)
    (ledger : Ledger τ) (line : List (SessionHead × τ))
    (next : QueuedTransactionSource τ × Control τ) : Prop where
  books : Books origin next.1 next.2.reservations ledger
  holds : next.2.Holds len config next.1
  line_eq : next.1.line next.2.reservations = line

variable {control : Control τ} {line : List (SessionHead × τ)} {batch : Batch τ}
  {totalBytes : UInt64} {cause : ProductionCause} {task : Task}

lemma Books.free (h : Books origin source [] ledger) (control : Control τ)
    (hfree : control.Free config.trigger) :
    Kept len config origin ledger source.state.available (source, control) := by
  cases control with
  | reserving _ | waiting | stopped _ => exact ⟨h, hfree, rfl⟩
  | extending _ _ | lingering _ _ | committing _ _ _ => exact hfree.elim

lemma ProductionTrigger.resume_free (trigger : ProductionTrigger) :
    (trigger.resume : Control τ).Free trigger := by
  cases trigger with
  | instant | openFor _ => exact nofun
  | interval _ _ | never => trivial

lemma Control.after_free : (Control.after config task : Control τ).Free config.trigger := by
  cases task with
  | automatic => exact config.trigger.resume_free
  | manual more =>
    cases more with
    | zero => exact config.trigger.resume_free
    | succ more => trivial

lemma Control.failed_free : (Control.failed config task error : Control τ).Free config.trigger := by
  cases task with
  | automatic => trivial
  | manual more =>
    rw [Control.failed]
    split
    · trivial
    · exact config.trigger.resume_free

/-- A batch within the limits goes to the committer. -/
lemma commitReserved_within (batch : Batch τ) (h : Within len config.limits batch.transactions) :
    commitReserved len config batch cause task = .committing batch cause task := by
  rw [commitReserved, validateTransactions_eq_ok (u := ()) |>.mpr h]

/-- A window within the limits goes to the committer once it is full, and is extended before. -/
lemma extendWindow_within (batch : Batch τ) (h : Within len config.limits batch.transactions)
    (hbytes : totalBytes.toNat = totalLen len batch.transactions) :
    ∃ remaining, remainingLimits config.limits batch.transactions.length totalBytes =
        .ok remaining ∧
      extendWindow len config batch totalBytes =
        if remaining.maxTransactions = 0 ∨ remaining.maxBytes = 0 then
          .committing batch .openWindow .automatic
        else .extending batch totalBytes := by
  have hroom : config.limits.maxBytes.toNat - totalBytes.toNat < 2 ^ 64 := by
    have := config.limits.maxBytes.toNat_lt
    omega
  obtain ⟨hcount, htotal⟩ := h
  have hok : remainingLimits config.limits batch.transactions.length totalBytes = .ok {
      maxTransactions := config.limits.maxTransactions - batch.transactions.length
      maxBytes := UInt64.ofNat (config.limits.maxBytes.toNat - totalBytes.toNat) } :=
    remainingLimits_eq_ok.mpr ⟨by simp only; omega, by simp only [toNat_word hroom]; omega⟩
  refine ⟨_, hok, ?_⟩
  rw [extendWindow, hok]
  simp only [commitReserved_within batch ⟨hcount, htotal⟩]

lemma transactionBytes_within (h : Within len limits transactions) :
    ∃ bytes, transactionBytes len transactions = .ok bytes ∧
      bytes.toNat = totalLen len transactions := by
  have hfits : totalLen len transactions < 2 ^ 64 := h.2.trans_lt limits.maxBytes.toNat_lt
  exact ⟨_, transactionBytes_eq_ok.mpr (toNat_word hfits), toNat_word hfits⟩

/-! ## One resumption -/

lemma extendWindow_kept (batch : Batch τ) (hbooks : Books origin source batch.reservations ledger)
    (hsome : batch.reservations ≠ [])
    (hunder : source.state.reserved.under batch.reservations = batch.entries)
    (hbytes : totalBytes.toNat = totalLen len batch.transactions)
    (hwithin : Within len config.limits batch.transactions) :
    Kept len config origin ledger (source.line batch.reservations)
      (source, extendWindow len config batch totalBytes) := by
  obtain ⟨_, _, hextend⟩ := extendWindow_within batch hwithin hbytes
  rw [hextend]
  split
  · exact ⟨hbooks, ⟨fun _ => hunder, hwithin⟩, rfl⟩
  · exact ⟨hbooks, ⟨hsome, hunder, hbytes, hwithin⟩, rfl⟩

variable {result : Except ProducerError Unit}

lemma releaseAndStop_kept (hbooks : Books origin source held ledger) :
    Kept len config origin ledger (source.line held) (releaseAndStop source held result) := by
  obtain ⟨next, hnext, hreleased, hline, _⟩ := hbooks.release
  rw [releaseAndStop, hnext, ← hline]
  exact hreleased.free (.stopped result) trivial

lemma useSelection_kept (hbooks : Books origin source selection.reservation.toList ledger)
    (hunder : source.state.reserved.under selection.reservation.toList = selection.batch.entries)
    (hboth : selection.transactions = [] ↔ selection.reservation = none)
    (hwithin : Within len config.limits selection.transactions) (hfits : task.Fits config.trigger) :
    Kept len config origin ledger (source.line selection.reservation.toList)
      (source, useSelection len config selection task) := by
  have hcommit : ∀ cause task, Kept len config origin ledger
      (source.line selection.reservation.toList)
      (source, commitReserved len config selection.batch cause task) := fun cause task => by
    rw [commitReserved_within selection.batch hwithin]
    exact ⟨hbooks, ⟨fun _ => hunder, hwithin⟩, rfl⟩
  have hwait : selection.transactions = [] → Kept len config origin ledger
      (source.line selection.reservation.toList) (source, .waiting) := fun hempty => by
    have hnone := hboth.mp hempty
    rw [hnone, Option.toList_none] at hbooks ⊢
    exact hbooks.free .waiting trivial
  cases task with
  | manual more => exact hcommit .manual (.manual more)
  | automatic =>
    rw [useSelection]
    split
    · -- instant
      split
      · rename_i hempty
        exact hwait hempty
      · exact hcommit _ _
    · -- interval
      split
      · exact hcommit _ _
      · rename_i hnot
        exact hwait (by simpa using (not_or.mp hnot).2)
    · -- open window
      split
      · rename_i hempty
        exact hwait hempty
      · rename_i hsome
        obtain ⟨bytes, hok, hbytes⟩ := transactionBytes_within hwithin
        rw [openWindow, hok]
        refine extendWindow_kept selection.batch hbooks ?_ hunder hbytes hwithin
        intro hnone
        exact hsome (hboth.mpr (Option.toList_eq_nil_iff.mp hnone))
    · -- never
      rename_i hnever
      exact absurd hnever hfits

lemma handleCommand_kept (hbooks : Books origin source [] ledger) :
    Kept len config origin ledger source.state.available
      (source, handleCommand len config command) := by
  rw [handleCommand.eq_def]
  split
  · exact hbooks.free (.stopped (.ok ())) trivial
  · exact hbooks.free (.stopped (.ok ())) trivial
  · exact hbooks.free _ config.trigger.resume_free
  · rename_i more
    exact hbooks.free (.reserving (.manual more)) trivial
  · rename_i baseHead transactions
    split
    · exact hbooks.free _ Control.failed_free
    · rename_i hvalid
      have hwithin := validateTransactions_eq_ok.mp hvalid
      rw [commitReserved_within ⟨baseHead, transactions, []⟩ hwithin]
      exact ⟨hbooks, ⟨fun hsome => absurd rfl hsome, hwithin⟩, rfl⟩

variable {event : Event τ}

lemma wake_kept (hbooks : Books origin source [] ledger) :
    Kept len config origin ledger source.state.available (source, wake len config event) := by
  have hwait : Kept len config origin ledger _ (source, .waiting) := hbooks.free .waiting trivial
  have hstop (result) : Kept len config origin ledger _ (source, .stopped result) :=
    hbooks.free (.stopped result) trivial
  have hreserve (hnever : config.trigger ≠ .never) :
      Kept len config origin ledger _ (source, .reserving .automatic) :=
    hbooks.free (.reserving .automatic) hnever
  cases event with
  | submit _ _ | head _ | answer _ _ => exact hwait
  | changed =>
    rw [wake]
    split
    · exact hreserve (by simp [*])
    · exact hreserve (by simp [*])
    all_goals exact hwait
  | closed =>
    rw [wake]
    split
    · exact hstop _
    · exact hstop _
    all_goals exact hwait
  | elapsed =>
    rw [wake]
    split
    · exact hreserve (by simp [*])
    all_goals exact hwait
  | command command =>
    cases htrigger : config.trigger with
    | instant | interval _ _ | never =>
      simp only [wake, htrigger]
      exact handleCommand_kept hbooks
    | openFor period =>
      rcases command with _ | _ | _ | _ <;> simp only [wake, htrigger]
      · exact hstop _
      · exact hreserve (htrigger ▸ nofun)
      · exact hreserve (htrigger ▸ nofun)
      · exact hstop _

/-- A window takes in a selection that fits what was left of its limits. -/
lemma grow_within (hbytes : totalBytes.toNat = totalLen len batch.transactions)
    (hremaining : remainingLimits config.limits batch.transactions.length totalBytes =
      .ok remaining) (hfit : Within len remaining more) :
    ∃ total, (do
        let bytes ← transactionBytes len more
        okOr (checkedAdd totalBytes bytes) (.batchLimit "transaction bytes overflow")) =
          Except.ok total ∧
      total.toNat = totalLen len (batch.transactions ++ more) ∧
      Within len config.limits (batch.transactions ++ more) := by
  obtain ⟨hcount, hroom⟩ := remainingLimits_eq_ok.mp hremaining
  obtain ⟨hlength, hsize⟩ := hfit
  obtain ⟨bytes, hok, hnew⟩ := transactionBytes_within ⟨hlength, hsize⟩
  have hmax := config.limits.maxBytes.toNat_lt
  have hadd : checkedAdd totalBytes bytes = some (totalBytes + bytes) := if_pos (by omega)
  have hsum := checkedAdd_eq_some.mp hadd
  refine ⟨totalBytes + bytes, ?_, ?_, ?_, ?_⟩
  · rw [hok]
    simp only [bind, Except.bind, hadd, okOr]
  · rw [totalLen_append]
    omega
  · rw [List.length_append]
    omega
  · rw [totalLen_append]
    omega

section

variable (hbooks : Books origin source batch.reservations ledger)
include hbooks

lemma growWindow_kept (hholds : (Control.extending batch totalBytes).Holds len config source) :
    Kept len config origin ledger (source.line batch.reservations)
      (growWindow len config source batch totalBytes head) := by
  obtain ⟨hsome, hunder, hbytes, hwithin⟩ := hholds
  obtain ⟨remaining, hremaining, _⟩ := extendWindow_within batch hwithin hbytes
  simp only [growWindow, hremaining]
  rcases hreserve : reserve len remaining head source with ⟨result, next⟩
  have hgrown := hbooks.reserving hreserve
  cases result with
  | error error =>
    obtain ⟨hkept, hline, _⟩ := hgrown
    exact hline ▸ releaseAndStop_kept hkept
  | ok selection =>
    obtain ⟨hkept, hline, hmore, hboth, hfit⟩ := hgrown
    simp only
    split
    · exact hline ▸ releaseAndStop_kept hkept
    · rename_i hhead
      split
      · rename_i hempty
        rw [hboth.mp hempty] at hkept hline hmore ⊢
        rw [hempty, List.map_nil, List.append_nil, hunder] at hmore
        simp only [Option.toList_none, List.append_nil] at hkept hline hmore ⊢
        exact ⟨hkept, ⟨hsome, hmore, hbytes, hwithin⟩, hline⟩
      · obtain ⟨total, hgrown, htotal, hgrownWithin⟩ := grow_within hbytes hremaining hfit
        rw [hgrown, ← hline]
        refine extendWindow_kept ⟨batch.baseHead, _, _⟩ hkept ?_ ?_ htotal hgrownWithin
        · exact fun hnone => hsome (List.append_eq_nil_iff.mp hnone).1
        · rw [hmore, hunder, Batch.entries, Batch.entries, List.map_append, not_not.mp hhead]

lemma linger_kept (hholds : (Control.lingering batch totalBytes).Holds len config source) :
    Kept len config origin ledger (source.line batch.reservations)
      (linger len config source batch totalBytes event) := by
  obtain ⟨hsome, hunder, hbytes, hwithin⟩ := hholds
  have hextend := extendWindow_kept batch hbooks hsome hunder hbytes hwithin
  rw [linger.eq_def]
  split
  · rw [commitReserved_within batch hwithin]
    exact ⟨hbooks, ⟨fun _ => hunder, hwithin⟩, rfl⟩
  · exact hextend
  · exact releaseAndStop_kept hbooks
  · exact releaseAndStop_kept hbooks
  · exact releaseAndStop_kept hbooks
  · exact hextend
  · exact hextend
  all_goals exact ⟨hbooks, ⟨hsome, hunder, hbytes, hwithin⟩, rfl⟩

/-- A failed commit gives the reservations back. -/
lemma settle_failed_kept (hknown : ∀ message, error ≠ .outcomeUnknown message) :
    Kept len config origin ledger (source.line batch.reservations)
      (settle config source batch task (.error error)) := by
  obtain ⟨next, hnext, hreleased, hline, _⟩ := hbooks.release
  cases error with
  | outcomeUnknown message => exact absurd rfl (hknown message)
  | staleCandidate | rejected message =>
    simp only [settle, hnext, ← hline]
    exact hreleased.free _ Control.failed_free

end

/-- Not a submission, a commit or a commit of unknown outcome. -/
structure Event.Ordinary (event : Event τ) : Prop where
  unsubmitted : ∀ baseHead tx, event ≠ .submit baseHead tx
  uncommitted : ∀ now receipt, event ≠ .answer now (.ok receipt)
  known : ∀ now message, event ≠ .answer now (.error (.outcomeUnknown message))

/-- What is held and waits stays in line. -/
lemma resume_kept (hbooks : Books origin source control.reservations ledger)
    (hholds : control.Holds len config source) (hevent : event.Ordinary) :
    Kept len config origin ledger (source.line control.reservations)
      (resume len config source control event) := by
  cases control with
  | stopped result => exact ⟨hbooks, trivial, rfl⟩
  | waiting => exact wake_kept hbooks
  | lingering batch totalBytes => exact linger_kept hbooks hholds
  | reserving task =>
    cases event with
    | head answer =>
      simp only [resume]
      rcases hreserve : reserve len config.limits answer source with ⟨result, next⟩
      have hreserved := hbooks.reserving hreserve
      cases result with
      | error error =>
        obtain ⟨hkept, hline, _⟩ := hreserved
        exact hline ▸ hkept.free _ Control.failed_free
      | ok selection =>
        obtain ⟨hkept, hline, hunder, hboth, hwithin⟩ := hreserved
        exact hline ▸ useSelection_kept hkept hunder hboth hwithin hholds
    | submit _ _ | answer _ _ | elapsed | changed | closed | command _ =>
      exact ⟨hbooks, hholds, rfl⟩
  | extending batch totalBytes =>
    cases event with
    | head answer => exact growWindow_kept hbooks hholds
    | submit _ _ | answer _ _ | elapsed | changed | closed | command _ =>
      exact ⟨hbooks, hholds, rfl⟩
  | committing batch cause task =>
    cases event with
    | answer now result =>
      cases result with
      | ok receipt => exact absurd rfl (hevent.uncommitted now receipt)
      | error error =>
        exact settle_failed_kept hbooks fun message heq => hevent.known now message (heq ▸ rfl)
    | submit _ _ | head _ | elapsed | changed | closed | command _ =>
      exact ⟨hbooks, hholds, rfl⟩

/-! ## Runs -/

/-- The source's transactions in a committed candidate: all of them, unless it was made by hand. -/
def claimed (entry : ProductionCandidate τ × List Nat) : List (SessionHead × τ) :=
  if entry.2 = [] then [] else entry.1.transactions.map fun tx => (entry.1.baseHead, tx)

/-- The invariant of a producer over its queue. -/
structure Accounted (len : τ → UInt64) (config : ProducerConfig) (origin : QueuedTransactionSource τ)
    (machine : Machine τ) : Prop where
  books : Books origin machine.source machine.control.reservations machine.ledger
  holds : machine.control.Holds len config machine.source
  paid : machine.ledger.acknowledged = machine.ledger.committed.flatMap claimed

variable {machine : Machine τ}

lemma Control.Holds.congr (h : control.Holds len config source)
    (heq : next.state.reserved = source.state.reserved) : control.Holds len config next := by
  cases control with
  | extending _ _ | lingering _ _ | committing _ _ _ => simpa only [Control.Holds, heq] using h
  | reserving _ | waiting | stopped _ => exact h

/-- A commit acknowledges exactly the batch. -/
lemma settle_committed
    (h : Accounted len config origin ⟨source, .committing batch cause task, ledger⟩) :
    Accounted len config origin
      ((Machine.mk source (.committing batch cause task) ledger).step len config
        (.answer now (.ok receipt))) := by
  obtain ⟨hbooks, ⟨hunder, hwithin⟩, hpaid⟩ := h
  obtain ⟨next, hnext, hacknowledged⟩ := hbooks.acknowledge
  have hkept : Kept len config origin _ next.state.available (next, .after config task) :=
    hacknowledged.free _ Control.after_free
  have hnext : source.acknowledge batch.reservations = .ok next := hnext
  have hforgot : succeeds (source.acknowledge batch.reservations) = true :=
    succeeds_iff.mpr ⟨next, hnext⟩
  simp only [Machine.step, resume, settle, Ledger.record, hforgot, if_true]
  simp only [hnext]
  refine ⟨hkept.books.relog, hkept.holds, ?_⟩
  simp only [List.flatMap_append, List.flatMap_singleton]
  rw [← hpaid]
  refine congrArg _ ?_
  rw [claimed]
  split_ifs with hnone
  · simp only at hnone
    rw [hnone]
    rfl
  · exact hunder hnone

/-- The ledger and the line are left alone. -/
lemma Accounted.step_kept (h : Accounted len config origin machine) (hevent : event.Ordinary) :
    Accounted len config origin (machine.step len config event) ∧
      (machine.step len config event).source.line
          (machine.step len config event).control.reservations =
        machine.source.line machine.control.reservations ∧
      (machine.step len config event).ledger = machine.ledger := by
  have hkept : Kept len config origin machine.ledger _
      (resume len config machine.source machine.control event) :=
    resume_kept h.books h.holds hevent
  have hledger : machine.ledger.record machine.source machine.control event = machine.ledger := by
    rw [Ledger.record.eq_def]
    split
    · exact absurd rfl (hevent.uncommitted _ _)
    · rfl
  cases event with
  | submit baseHead tx => exact absurd rfl (hevent.unsubmitted baseHead tx)
  | head _ | answer _ _ | elapsed | changed | closed | command _ =>
    rw [Machine.step, hledger]
    · exact ⟨⟨hkept.books, hkept.holds, h.paid⟩, hkept.line_eq, rfl⟩
    · exact nofun

lemma Accounted.step (h : Accounted len config origin machine) (event : Event τ) :
    Accounted len config origin (machine.step len config event) := by
  have hrest : event.Ordinary → Accounted len config origin (machine.step len config event) :=
    fun hevent => (h.step_kept hevent).1
  cases event with
  | submit baseHead tx =>
    rw [Machine.step]
    split
    · rename_i source hsource
      obtain ⟨_, _, hstate⟩ := submit_eq_ok.mp hsource
      exact ⟨h.books.submit hsource, h.holds.congr (by rw [← hstate]), h.paid⟩
    · exact h
  | head _ | elapsed | changed | closed | command _ => exact hrest ⟨nofun, nofun, nofun⟩
  | answer now result =>
    obtain ⟨source, control, ledger⟩ := machine
    -- a control state that waits for something else stays where it is
    by_cases hcommitting : ∃ batch cause task, control = .committing batch cause task
    · obtain ⟨batch, cause, task, rfl⟩ := hcommitting
      cases result with
      | ok receipt => exact settle_committed h
      | error error =>
        cases error with
        | outcomeUnknown message =>
          -- the queue is left alone, with the batch still reserved in it
          have hkept : Kept len config origin ledger source.state.available
              (source, .failed config task (.outcomeUnknown message)) :=
            h.books.abandon.free _ Control.failed_free
          exact ⟨hkept.books, hkept.holds, h.paid⟩
        | staleCandidate | rejected _ => exact hrest ⟨nofun, nofun, nofun⟩
    · cases control with
      | committing batch cause task => exact absurd ⟨batch, cause, task, rfl⟩ hcommitting
      | reserving _ | waiting | extending _ _ | lingering _ _ | stopped _ => exact h

lemma Accounted.run (h : Accounted len config origin machine) (events : List (Event τ)) :
    Accounted len config origin (machine.run len config events) :=
  List.foldlRecOn events _ h fun _ h event _ => h.step event

lemma Accounted.start (source : QueuedTransactionSource τ) :
    Accounted len config source (Machine.start config source) := by
  have hbooks : Books source source [] (Machine.start config source).ledger :=
    ⟨⟨rfl, rfl⟩, List.nodup_nil, nofun, .refl _, .refl _⟩
  have hkept : Kept len config source (Machine.start config source).ledger
      source.state.available (source, config.trigger.resume) :=
    hbooks.free _ config.trigger.resume_free
  exact ⟨hkept.books, hkept.holds, rfl⟩

/-! ## Giving back -/

/-- A producer that stops has given back all it held. -/
lemma Accounted.stopped_line (h : Accounted len config origin machine) (hevent : event.Ordinary)
    (hstopped : (machine.step len config event).control = .stopped result) :
    (machine.step len config event).source.state.available =
      machine.source.line machine.control.reservations := by
  have hline := (h.step_kept hevent).2.1
  rw [hstopped] at hline
  exact hline

/-- A refused candidate stops the producer. -/
lemma settle_refused (config : ProducerConfig) (source : QueuedTransactionSource τ)
    (batch : Batch τ) (task : Task) (hknown : ∀ message, error ≠ .outcomeUnknown message) :
    ∃ result, (settle config source batch task (.error error)).2 = .stopped result := by
  have hstop : ∀ error : ProducerError, error.isFatal →
      ∃ result, (Control.failed config task error : Control τ) = .stopped result := by
    intro error hfatal
    cases task with
    | automatic => exact ⟨_, rfl⟩
    | manual more => exact ⟨_, if_pos hfatal⟩
  cases error with
  | outcomeUnknown message => exact absurd rfl (hknown message)
  | staleCandidate | rejected _ =>
    rw [settle]
    split <;> exact hstop _ rfl

/-- **Reservation accounting.**  After any run of a producer over a queue:
    every transaction (those of reservations an earlier run left behind included) is acknowledged,
    under one reservation or waiting; what is acknowledged are the source's transactions of the
    committed candidates; what the producer holds, followed by what waits, is in submission order;
    a refused candidate, a shutdown and every other way to stop put what was held back in front of
    the queue; an unknown outcome leaves the queue as it is; and what goes to the committer is
    within the limits. -/
theorem reservations_accounted (len : τ → UInt64) (config : ProducerConfig)
    (source : QueuedTransactionSource τ) (events : List (Event τ)) :
    let machine := (Machine.start config source).run len config events
    (source.state.reserved.contents ++ machine.ledger.submitted).Perm
      (machine.ledger.acknowledged ++
        (machine.source.state.reserved.contents ++ machine.source.state.available)) ∧
    machine.ledger.acknowledged = machine.ledger.committed.flatMap claimed ∧
    (machine.source.line machine.control.reservations).Sublist machine.ledger.submitted ∧
    (∀ batch cause task now error, machine.control = .committing batch cause task →
      (∀ message, error ≠ .outcomeUnknown message) →
      let next := machine.step len config (.answer now (.error error))
      (∃ result, next.control = .stopped result) ∧
        next.source.state.available = machine.source.line batch.reservations) ∧
    (machine.control = .waiting ∨ (∃ batch totalBytes, machine.control =
        .lingering batch totalBytes) →
      let next := machine.step len config (.command (some .shutdown))
      next.control = .stopped (.ok ()) ∧
        next.source.state.available = machine.source.line machine.control.reservations) ∧
    (∀ event result, (machine.step len config event).control = .stopped result →
      (∀ baseHead tx, event ≠ .submit baseHead tx) →
      (∀ now receipt, event ≠ .answer now (.ok receipt)) →
      (∀ now message, event ≠ .answer now (.error (.outcomeUnknown message))) →
      (machine.step len config event).source.state.available =
        machine.source.line machine.control.reservations) ∧
    (∀ now message, (machine.step len config
      (.answer now (.error (.outcomeUnknown message)))).source = machine.source) ∧
    (∀ batch cause task, machine.control = .committing batch cause task →
      Within len config.limits batch.transactions) := by
  intro machine
  have h : Accounted len config source machine := (Accounted.start source).run events
  refine ⟨h.books.balance, h.paid, h.books.fifo, ?_, ?_, ?_, ?_, ?_⟩
  · intro batch cause task now error hcommitting hknown next
    obtain ⟨result, hresult⟩ := settle_refused config machine.source batch task hknown
    have hstopped : next.control = .stopped result := by
      simp only [next, Machine.step, resume, hcommitting]
      exact hresult
    have hline : next.source.state.available = machine.source.line machine.control.reservations := by
      refine h.stopped_line ⟨nofun, nofun, ?_⟩ hstopped
      intro now message heq
      cases heq
      exact hknown message rfl
    rw [hcommitting] at hline
    exact ⟨⟨result, hstopped⟩, hline⟩
  · intro hready next
    have hstopped : next.control = .stopped (.ok ()) := by
      rcases hready with hwaiting | ⟨batch, totalBytes, hlingering⟩
      · simp only [next, Machine.step, resume, hwaiting, wake, handleCommand]
        split <;> rfl
      · obtain ⟨released, hreleased, _⟩ := h.books.release
        rw [hlingering] at hreleased
        have hreleased : machine.source.release batch.reservations = .ok released := hreleased
        simp only [next, Machine.step, resume, hlingering, linger, releaseAndStop, hreleased]
    exact ⟨hstopped, h.stopped_line ⟨nofun, nofun, nofun⟩ hstopped⟩
  · intro event result hstopped hsubmit hcommitted hknown
    exact h.stopped_line ⟨hsubmit, hcommitted, hknown⟩ hstopped
  · intro now message
    cases hcontrol : machine.control <;> simp only [Machine.step, resume, hcontrol] <;> rfl
  · intro batch cause task hcommitting
    have hholds := h.holds
    rw [hcommitting] at hholds
    exact hholds.2

end Myelin.Producer
