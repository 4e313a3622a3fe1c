/-
  Open production windows.

  An open window reserves again and again under what is left of the limits, until they are used up
  or its period is over.  `reserve` refuses a front transaction that is larger than the bytes it is
  offered, which for the second reservation are only the bytes LEFT: a transaction that would have
  fitted an empty batch then fails the whole window.

  `Crowded` says when this can happen: some prefix of the queue leaves both a place and bytes, and
  the transaction after it needs more bytes than that.  The exact statement is per content and per
  order of arrival (`open_window_commits_iff`): if the queue with its arrivals is not crowded, every
  timing of them commits; if it is, some timing stops.

  The crux is `Underway`, the invariant of a window that nobody disturbs: the batch and the queue
  behind it are, in order, everything that was ever submitted.  A front that does not fit what is
  left then IS a crowded queue (`Underway.grow`), so without one each reservation takes something or
  leaves the window waiting for its deadline, and the window closes by induction on what waits
  (`Underway.closes`).  What a run admits depends on its submissions only (`Accounted.run_submitted`),
  which is what lets two timings be compared.
-/
import Myelin.Producer.Accounting

namespace Myelin.Producer

open Lib Session QueuedTransactionSource

variable {τ : Type} {len : τ → UInt64} {config : ProducerConfig} {limits : BatchLimits}
  {head : SessionHead} {origin source next : QueuedTransactionSource τ} {machine : Machine τ}
  {batch : Batch τ} {totalBytes : UInt64}

/-! ## What the scan takes -/

/-- Transactions that were built on one head. -/
def onHead (head : SessionHead) (transactions : List τ) : List (SessionHead × τ) :=
  transactions.map fun tx => (head, tx)

lemma onHead_of_forall {entries : List (SessionHead × τ)} (h : ∀ e ∈ entries, e.1 = head) :
    entries = onHead head (entries.map (·.2)) := by
  rw [onHead, List.map_map]
  refine (List.map_id' entries).symm.trans (List.map_congr_left fun e he => ?_)
  exact Prod.ext (h e he) rfl

/-- One transaction of the queue: the scan stops in front of it, or takes it. -/
lemma takeBatch_cons (hmemory : bytes.toNat + (len tx).toNat < 2 ^ 64)
    (hfront : first = true → (len tx).toNat ≤ maxBytes.toNat) :
    takeBatch len head maxBytes (count + 1) bytes first (onHead head (tx :: rest)) =
      if maxBytes.toNat < bytes.toNat + (len tx).toNat then .ok []
      else (takeBatch len head maxBytes count (bytes + len tx) false (onHead head rest)).map
        (tx :: ·) := by
  have hfits : ¬(maxBytes < len tx ∧ first = true) := by
    rintro ⟨hlarge, hfirst⟩
    exact Nat.not_lt.mpr (hfront hfirst) (UInt64.lt_iff_toNat_lt.mp hlarge)
  have hmin : min (bytes.toNat + (len tx).toNat) (2 ^ 64 - 1) =
      bytes.toNat + (len tx).toNat := by omega
  simp only [onHead, List.map_cons, takeBatch, ne_eq, not_true_eq_false, if_false, hfits, hmin]

/-- The scan over a queue whose front fits stays within its limits and, the first time, takes
    something. -/
lemma takeBatch_room (head : SessionHead) (count : Nat) (bytes : UInt64) (first : Bool) (txs : List τ)
    (hmemory : bytes.toNat + totalLen len txs < 2 ^ 64) (hbytes : bytes.toNat ≤ maxBytes.toNat)
    (hfront : first = true → ∀ tx ∈ txs.head?, (len tx).toNat ≤ maxBytes.toNat) :
    ∃ taken, takeBatch len head maxBytes count bytes first (onHead head txs) = .ok taken ∧
      taken.length ≤ count ∧ bytes.toNat + totalLen len taken ≤ maxBytes.toNat ∧
      (first = true → bytes = 0 → count ≠ 0 → txs ≠ [] → taken ≠ []) := by
  induction txs generalizing count bytes first with
  | nil => exact ⟨[], by simp [onHead, takeBatch], by simp, hbytes, by simp⟩
  | cons tx rest ih =>
    cases count with
    | zero => exact ⟨[], by simp [onHead, takeBatch], by simp, hbytes, by simp⟩
    | succ count =>
      rw [totalLen_cons] at hmemory
      rw [takeBatch_cons (by omega) fun hfirst => hfront hfirst tx rfl]
      split_ifs with hfull
      · refine ⟨[], rfl, by simp, hbytes, ?_⟩
        rintro hfirst rfl
        have hle := hfront hfirst tx rfl
        simp only [UInt64.toNat_zero, Nat.zero_add] at hfull
        omega
      · have hsum : (bytes + len tx).toNat = bytes.toNat + (len tx).toNat := by
          rw [UInt64.toNat_add, Nat.mod_eq_of_lt (by omega)]
        obtain ⟨taken, htaken, hcount, htotal, _⟩ :=
          ih count (bytes + len tx) false (by omega) (by omega) (by simp)
        refine ⟨tx :: taken, by rw [htaken]; rfl, by simpa using hcount, ?_, by simp⟩
        rw [totalLen_cons]
        omega

/-- The scan stops in front of a transaction that does not fit any more. -/
lemma takeBatch_stops (head : SessionHead) (count : Nat) (bytes : UInt64) (first : Bool)
    (hmemory : bytes.toNat + totalLen len (taken ++ tx :: rest) < 2 ^ 64)
    (hroom : bytes.toNat + totalLen len taken ≤ maxBytes.toNat)
    (hover : maxBytes.toNat < bytes.toNat + totalLen len taken + (len tx).toNat)
    (hcount : taken.length < count) (hsome : first = true → taken ≠ []) :
    takeBatch len head maxBytes count bytes first (onHead head (taken ++ tx :: rest)) =
      .ok taken := by
  induction taken generalizing count bytes first with
  | nil =>
    obtain ⟨count, rfl⟩ := Nat.exists_eq_succ_of_ne_zero (Nat.ne_of_gt hcount)
    rw [List.nil_append, totalLen_cons] at hmemory
    rw [totalLen_nil] at hover
    rw [List.nil_append, takeBatch_cons (by omega) fun hfirst => absurd rfl (hsome hfirst),
      if_pos (by omega)]
  | cons front taken ih =>
    obtain ⟨count, rfl⟩ := Nat.exists_eq_succ_of_ne_zero (Nat.ne_of_gt (Nat.zero_lt_of_lt hcount))
    simp only [List.cons_append, totalLen_cons, List.length_cons] at hmemory hroom hover hcount
    have hsum : (bytes + len front).toNat = bytes.toNat + (len front).toNat := by
      rw [UInt64.toNat_add, Nat.mod_eq_of_lt (by omega)]
    rw [List.cons_append, takeBatch_cons (by omega) fun _ => by omega, if_neg (by omega),
      ih count (bytes + len front) false (by omega) (by omega) (by omega) (by omega) (by simp)]
    rfl

/-! ## One reservation in a quiet window -/

/-- The producer's reservation is what the scan takes. -/
lemma reserve_of_takeBatch (htaken : takeBatch len head limits.maxBytes limits.maxTransactions 0
      true source.state.available = .ok taken) (hsome : taken ≠ [])
    (hid : source.state.nextReservation + 1 < 2 ^ 64) (hwithin : Within len limits taken) :
    reserve len limits (.ok head) source = (.ok ⟨head, taken, some source.state.nextReservation⟩,
        { source with state := source.state.take taken.length (onHead head taken) }) := by
  have hselect : source.reserve len head limits =
      .ok (⟨head, taken, some source.state.nextReservation⟩,
        { source with state := source.state.take taken.length (onHead head taken) }) := by
    rw [QueuedTransactionSource.reserve, htaken]
    refine (if_neg hsome).trans ?_
    rw [ensure, if_pos hid]
    rfl
  have hvalid : validateSelection len ⟨head, taken, some source.state.nextReservation⟩ limits =
      .ok () := validateSelection_eq_ok.mpr ⟨by simp [hsome], hwithin⟩
  simp only [Producer.reserve, hselect, ne_eq, not_true_eq_false, if_false, hvalid]

/-- A producer's reservation from a queue on the committer's head, whose front fits. -/
lemma reserve_fits (hheads : ∀ e ∈ source.state.available, e.1 = head)
    (hmemory : totalLen len (source.state.available.map (·.2)) < 2 ^ 64)
    (hids : source.state.nextReservation + source.state.available.length < 2 ^ 64)
    (hcount : limits.maxTransactions ≠ 0)
    (hfront : ∀ e ∈ source.state.available.head?, len e.2 ≤ limits.maxBytes) :
    ∃ selection next, reserve len limits (.ok head) source = (.ok selection, next) ∧
      selection.baseHead = head ∧
      next.state.nextReservation + next.state.available.length ≤
        source.state.nextReservation + source.state.available.length ∧
      (selection.transactions = [] → source.state.available = []) ∧
      (selection.transactions ≠ [] →
        next.state.available.length < source.state.available.length) := by
  have hqueue := onHead_of_forall hheads
  have hfirst : ∀ tx ∈ (source.state.available.map (·.2)).head?, len tx ≤ limits.maxBytes := by
    intro tx htx
    rw [List.head?_map] at htx
    obtain ⟨e, he, rfl⟩ := Option.map_eq_some_iff.mp htx
    exact hfront e he
  have htake := takeBatch_room head limits.maxTransactions 0 true (source.state.available.map (·.2))
    (by simpa using hmemory) UInt64.zero_le fun _ => hfirst
  obtain ⟨taken, htaken, hlength, htotal, hsome⟩ := htake
  rw [← hqueue] at htaken
  have hprefix := takeBatch_ok htaken
  have hwithin : Within len limits taken := ⟨hlength, by simpa using htotal⟩
  by_cases hempty : taken = []
  · have hnone : source.state.available = [] := by
      by_contra hqueued
      exact hsome rfl rfl hcount (by simpa using hqueued) hempty
    have hselect : source.reserve len head limits = .ok (⟨head, taken, none⟩, source) := by
      rw [QueuedTransactionSource.reserve, htaken]
      exact if_pos hempty
    have hvalid : validateSelection len ⟨head, taken, none⟩ limits = .ok () :=
      validateSelection_eq_ok.mpr ⟨by simp [hempty], hwithin⟩
    refine ⟨⟨head, taken, none⟩, source, ?_, rfl, Nat.le_refl _, fun _ => hnone,
      fun hsome => absurd hempty hsome⟩
    simp only [Producer.reserve, hselect, ne_eq, not_true_eq_false, if_false, hvalid]
  · have hfewer : taken.length + (source.state.available.drop taken.length).length =
        source.state.available.length := by
      have hlengths := congrArg List.length hprefix
      rw [List.length_append, List.length_map] at hlengths
      exact hlengths.symm
    have htakes : 0 < taken.length := List.length_pos_of_ne_nil hempty
    refine ⟨⟨head, taken, some source.state.nextReservation⟩,
      { source with state := source.state.take taken.length (onHead head taken) },
      reserve_of_takeBatch htaken hempty (by omega) hwithin, rfl, ?_,
      fun hnone => absurd hnone hempty, ?_⟩
    · simp only [QueueState.take]
      omega
    · intro _
      simp only [QueueState.take]
      omega

/-! ## Quiet runs -/

/-- Events of a window that nobody disturbs: transactions arrive that are built on the committer's
    head and fit a batch, the head stays, time passes.  Manual requests are refused in windows. -/
def Quiet (len : τ → UInt64) (limits : BatchLimits) (head : SessionHead) : Event τ → Prop
  | .submit baseHead tx => baseHead = head ∧ len tx ≤ limits.maxBytes
  | .head answer => answer = .ok head
  | .elapsed | .changed => True
  | .command (some (.produceFromSource _)) | .command (some (.produceTransactions _ _)) => True
  | .command (some .shutdown) | .command none | .closed | .answer _ _ => False

/-- Everything that was ever in the queue, in order. -/
def Machine.sent (machine : Machine τ) : List τ := machine.ledger.submitted.map (·.2)

/-- The bytes queued fit in memory, and there are reservation ids for them. -/
def Ample (len : τ → UInt64) (origin : QueuedTransactionSource τ) (sent : List τ) : Prop :=
  totalLen len sent < 2 ^ 64 ∧ origin.state.nextReservation + sent.length < 2 ^ 64

/-- Some first transactions leave a place and bytes, and the next one needs more bytes. -/
def Crowded (len : τ → UInt64) (limits : BatchLimits) (sent : List τ) : Prop :=
  ∃ taken tx rest, sent = taken ++ tx :: rest ∧ taken ≠ [] ∧
    taken.length < limits.maxTransactions ∧ totalLen len taken < limits.maxBytes.toNat ∧
    limits.maxBytes.toNat < totalLen len taken + (len tx).toNat

/-- Room for everything sent, without a crowd. -/
def Roomy (len : τ → UInt64) (config : ProducerConfig) (origin : QueuedTransactionSource τ)
    (sent : List τ) : Prop :=
  Ample len origin sent ∧ ¬Crowded len config.limits sent

lemma Roomy.mono (hsent : sent <+: all) (h : Roomy len config origin all) :
    Roomy len config origin sent := by
  obtain ⟨more, rfl⟩ := hsent
  obtain ⟨⟨hmemory, hids⟩, hcrowded⟩ := h
  rw [totalLen_append] at hmemory
  rw [List.length_append] at hids
  refine ⟨⟨by omega, by omega⟩, ?_⟩
  rintro ⟨taken, tx, rest, rfl, h⟩
  exact hcrowded ⟨taken, tx, rest ++ more, by simp, h⟩

/-- What a control state of a window knows beside its reservations. -/
def Control.Window (limits : BatchLimits) (head : SessionHead) : Control τ → Prop
  | .reserving task => task = .automatic
  | .waiting => True
  | .extending batch totalBytes => batch.baseHead = head ∧ batch.transactions ≠ [] ∧
      batch.transactions.length < limits.maxTransactions ∧
      totalBytes.toNat < limits.maxBytes.toNat
  | .lingering batch _ => batch.baseHead = head ∧ batch.transactions ≠ []
  | .committing batch cause task => batch.baseHead = head ∧ batch.transactions ≠ [] ∧
      batch.reservations ≠ [] ∧ cause = .openWindow ∧ task = .automatic
  | .stopped _ => False

/-- The invariant of a quiet window that never gets crowded. -/
structure Underway (len : τ → UInt64) (config : ProducerConfig) (head : SessionHead)
    (origin : QueuedTransactionSource τ) (machine : Machine τ) : Prop where
  trigger : ∃ period, config.trigger = .openFor period
  places : config.limits.maxTransactions ≠ 0
  accounted : Accounted len config origin machine
  line : machine.source.line machine.control.reservations = machine.ledger.submitted
  heads : ∀ e ∈ machine.ledger.submitted, e.1 = head ∧ len e.2 ≤ config.limits.maxBytes
  ids : machine.source.state.nextReservation + machine.source.state.available.length ≤
    origin.state.nextReservation + machine.ledger.submitted.length
  window : machine.control.Window config.limits head

lemma extendWindow_window (hwithin : Within len config.limits batch.transactions)
    (hbytes : totalBytes.toNat = totalLen len batch.transactions) (hhead : batch.baseHead = head)
    (hsome : batch.transactions ≠ []) (hheld : batch.reservations ≠ []) :
    (extendWindow len config batch totalBytes).Window config.limits head := by
  obtain ⟨remaining, hremaining, hextend⟩ := extendWindow_within batch hwithin hbytes
  obtain ⟨hcount, hroom⟩ := remainingLimits_eq_ok.mp hremaining
  rw [hextend]
  split
  · exact ⟨hhead, hsome, hheld, rfl, rfl⟩
  · rename_i hleft
    obtain ⟨hplaces, hbytesLeft⟩ := not_or.mp hleft
    have hpositive : remaining.maxBytes.toNat ≠ 0 := fun hzero =>
      hbytesLeft (UInt64.toNat_inj.mp hzero)
    exact ⟨hhead, hsome, by omega, by omega⟩

section

variable (h : Underway len config head origin machine)
include h

lemma Underway.available_mem :
    ∀ e ∈ machine.source.state.available, e.1 = head ∧ len e.2 ≤ config.limits.maxBytes :=
  fun e he => h.heads e (h.line ▸ List.mem_append_right _ he)

lemma Underway.available_room (hample : Ample len origin machine.sent) :
    totalLen len (machine.source.state.available.map (·.2)) < 2 ^ 64 ∧
      machine.source.state.nextReservation + machine.source.state.available.length < 2 ^ 64 := by
  obtain ⟨hmemory, hids⟩ := hample
  rw [Machine.sent, ← h.line, QueuedTransactionSource.line, List.map_append,
    totalLen_append] at hmemory
  rw [Machine.sent, List.length_map] at hids
  exact ⟨by omega, h.ids.trans_lt hids⟩

/-- A window's transactions come first in the queue. -/
lemma Underway.sent_eq
    (hunder : machine.source.state.reserved.under machine.control.reservations = batch.entries) :
    machine.sent = batch.transactions ++ machine.source.state.available.map (·.2) := by
  have hentries : batch.entries.map (·.2) = batch.transactions := by
    rw [Batch.entries, List.map_map]
    exact List.map_id' _
  rw [Machine.sent, ← h.line, QueuedTransactionSource.line, hunder, List.map_append, hentries]

end

variable {event : Event τ}

/-- A step that neither submits nor commits keeps the queue's order; ids and control are left. -/
lemma Underway.advance (h : Underway len config head origin machine) (hevent : event.Ordinary)
    (hids : (machine.step len config event).source.state.nextReservation +
        (machine.step len config event).source.state.available.length ≤
      machine.source.state.nextReservation + machine.source.state.available.length)
    (hwindow : (machine.step len config event).control.Window config.limits head) :
    Underway len config head origin (machine.step len config event) := by
  obtain ⟨haccounted, hline, hledger⟩ := h.accounted.step_kept hevent
  refine ⟨h.trigger, h.places, haccounted, ?_, ?_, ?_, hwindow⟩
  · rw [hline, hledger, h.line]
  · rw [hledger]
    exact h.heads
  · rw [hledger]
    exact hids.trans h.ids

lemma Underway.submit (h : Underway len config head origin machine)
    (hquiet : Quiet len config.limits head (.submit baseHead tx)) :
    Underway len config head origin (machine.step len config (.submit baseHead tx)) := by
  have haccounted := h.accounted.step (.submit baseHead tx)
  rw [Machine.step] at haccounted ⊢
  split at haccounted
  · rename_i source hsource
    obtain ⟨_, _, rfl⟩ := submit_eq_ok.mp hsource
    refine ⟨h.trigger, h.places, haccounted, ?_, ?_, ?_, h.window⟩
    · rw [← h.line]
      simp only [QueuedTransactionSource.line, List.append_assoc]
    · intro e he
      rcases List.mem_append.mp he with hold | hnew
      · exact h.heads e hold
      · rw [List.mem_singleton.mp hnew]
        exact hquiet
    · have := h.ids
      simp only [List.length_append, List.length_singleton]
      omega
  · exact h

lemma ordinary_head : (.head answer : Event τ).Ordinary := ⟨nofun, nofun, nofun⟩

/-- An answer of the head leaves a window that is closed, waits, or has taken something. -/
def Machine.Advanced (machine next : Machine τ) : Prop :=
  match next.control with
  | .committing _ _ _ | .lingering _ _ => True
  | .extending _ _ => next.source.state.available.length < machine.source.state.available.length
  | .reserving _ | .waiting | .stopped _ => False

section

variable (h : Underway len config head origin machine)
include h

/-- The first reservation of a window. -/
lemma Underway.reserve (hample : Ample len origin machine.sent)
    (hcontrol : machine.control = .reserving .automatic) :
    Underway len config head origin (machine.step len config (.head (.ok head))) ∧
      (machine.source.state.available ≠ [] →
        machine.Advanced (machine.step len config (.head (.ok head)))) := by
  obtain ⟨period, htrigger⟩ := h.trigger
  obtain ⟨hmemory, hids⟩ := h.available_room hample
  obtain ⟨selection, next, hreserve, hbase, hfewer, hnone, htakes⟩ :=
    reserve_fits (fun e he => (h.available_mem e he).1) hmemory hids h.places fun e he =>
      (h.available_mem e (List.mem_of_mem_head? he)).2
  have hbooks := h.accounted.books
  rw [hcontrol] at hbooks
  obtain ⟨_, _, _, hboth, hwithin⟩ := hbooks.reserving hreserve
  have hstep : machine.step len config (.head (.ok head)) =
      { source := next, control := useSelection len config selection .automatic,
        ledger := machine.ledger } := by
    simp only [Machine.step, resume, hcontrol, hreserve, Ledger.record]
  have hopen : selection.transactions ≠ [] → ∃ total, useSelection len config selection .automatic =
        extendWindow len config selection.batch total ∧
        total.toNat = totalLen len selection.transactions := by
    intro hsome
    obtain ⟨total, hok, htotal⟩ := transactionBytes_within hwithin
    refine ⟨total, ?_, htotal⟩
    simp only [useSelection, htrigger, hsome, if_false, openWindow, hok]
  refine ⟨h.advance ordinary_head (by rw [hstep]; exact hfewer) ?_, ?_⟩
  · rw [hstep]
    by_cases hempty : selection.transactions = []
    · simp only [useSelection, htrigger, hempty, if_true]
      trivial
    · obtain ⟨total, hextend, htotal⟩ := hopen hempty
      simp only [hextend]
      refine extendWindow_window hwithin htotal hbase hempty fun hheld => hempty (hboth.mpr ?_)
      exact Option.toList_eq_nil_iff.mp hheld
  · intro hqueued
    have hsome : selection.transactions ≠ [] := fun hempty => hqueued (hnone hempty)
    obtain ⟨total, hextend, htotal⟩ := hopen hsome
    obtain ⟨_, _, heq⟩ := extendWindow_within selection.batch hwithin htotal
    simp only [Machine.Advanced, hstep, hextend, heq]
    split_ifs
    · trivial
    · exact htakes hsome

/-- A further reservation of a window: with the queue not crowded it gets what there is. -/
lemma Underway.grow (hroomy : Roomy len config origin machine.sent)
    (hcontrol : machine.control = .extending batch totalBytes) :
    Underway len config head origin (machine.step len config (.head (.ok head))) ∧
      machine.Advanced (machine.step len config (.head (.ok head))) := by
  obtain ⟨hmemory, hids⟩ := h.available_room hroomy.1
  have hbooks := h.accounted.books
  have hholds := h.accounted.holds
  have hwindow := h.window
  have hsent : machine.source.state.reserved.under machine.control.reservations = batch.entries →
      machine.sent = batch.transactions ++ machine.source.state.available.map (·.2) := h.sent_eq
  rw [hcontrol] at hbooks hholds hwindow hsent
  obtain ⟨hheld, hunder, hbytes, hwithin⟩ := hholds
  obtain ⟨hhead, hsome, hplaces, hroom⟩ := hwindow
  obtain ⟨remaining, hremaining, _⟩ := extendWindow_within batch hwithin hbytes
  obtain ⟨hcount, hleft⟩ := remainingLimits_eq_ok.mp hremaining
  -- a front that does not fit what is left would crowd the queue
  have hfront : ∀ e ∈ machine.source.state.available.head?, len e.2 ≤ remaining.maxBytes := by
    intro e he
    rw [UInt64.le_iff_toNat_le]
    by_contra hlarge
    obtain ⟨rest, hrest⟩ : ∃ rest, machine.source.state.available = e :: rest :=
      List.head?_eq_some_iff.mp he
    refine hroomy.2 ⟨batch.transactions, e.2, rest.map (·.2), ?_, hsome, hplaces, ?_, ?_⟩
    · rw [hsent hunder, hrest]
      rfl
    · omega
    · omega
  obtain ⟨selection, next, hreserve, hbase, hfewer, _, htakes⟩ :=
    reserve_fits (fun e he => (h.available_mem e he).1) hmemory hids (by omega) hfront
  obtain ⟨_, _, _, hboth, hfit⟩ := hbooks.reserving hreserve
  have hstep : ∀ control, growWindow len config machine.source batch totalBytes (.ok head) =
      (next, control) → machine.step len config (.head (.ok head)) =
        { source := next, control, ledger := machine.ledger } := by
    intro control hgrow
    simp only [Machine.step, resume, hcontrol, hgrow, Ledger.record]
  by_cases hempty : selection.transactions = []
  · have hgrow : growWindow len config machine.source batch totalBytes (.ok head) =
        (next, .lingering ⟨batch.baseHead, batch.transactions,
          batch.reservations ++ selection.reservation.toList⟩ totalBytes) := by
      simp only [growWindow, hremaining, hreserve, hbase, hhead, ne_eq, not_true_eq_false,
        if_false, hempty, if_true]
    have hnext := hstep _ hgrow
    refine ⟨h.advance ordinary_head (by rw [hnext]; exact hfewer) ?_, by rw [hnext]; trivial⟩
    rw [hnext]
    exact ⟨hhead, hsome⟩
  · obtain ⟨total, hgrown, htotal, hgrownWithin⟩ := grow_within hbytes hremaining hfit
    let grown : Batch τ := ⟨batch.baseHead, batch.transactions ++ selection.transactions,
      batch.reservations ++ selection.reservation.toList⟩
    have hgrow : growWindow len config machine.source batch totalBytes (.ok head) =
        (next, extendWindow len config grown total) := by
      simp only [growWindow, hremaining, hreserve, hbase, hhead, ne_eq, not_true_eq_false,
        if_false, hempty, hgrown, grown]
    have hnext := hstep _ hgrow
    refine ⟨h.advance ordinary_head (by rw [hnext]; exact hfewer) ?_, ?_⟩
    · rw [hnext]
      refine extendWindow_window hgrownWithin htotal hhead ?_ ?_
      · exact fun hnil => hsome (List.append_eq_nil_iff.mp hnil).1
      · exact fun hnil => hheld (List.append_eq_nil_iff.mp hnil).1
    · obtain ⟨_, _, heq⟩ := extendWindow_within grown hgrownWithin htotal
      simp only [Machine.Advanced, hnext, heq]
      split_ifs
      · trivial
      · exact htakes hempty

/-- Only a producer that waits or lingers reacts to the clock and to the queue. -/
lemma Underway.react (hevent : event = .elapsed ∨ event = .changed) :
    Underway len config head origin (machine.step len config event) := by
  obtain ⟨period, htrigger⟩ := h.trigger
  obtain ⟨source, control, ledger⟩ := machine
  have hwindow := h.window
  have hholds := h.accounted.holds
  rcases hevent with rfl | rfl
  all_goals
    refine h.advance ⟨nofun, nofun, nofun⟩ (by cases control <;> exact Nat.le_refl _) ?_
    cases control
    case reserving | extending | committing | stopped => exact hwindow
  · simp only [Machine.step, resume, wake, htrigger]
    trivial
  · obtain ⟨hheld, _, _, hwithin⟩ := hholds
    simp only [Machine.step, resume, linger, commitReserved_within _ hwithin]
    exact ⟨hwindow.1, hwindow.2, hheld, rfl, rfl⟩
  · simp only [Machine.step, resume, wake, htrigger]
    rfl
  · obtain ⟨hheld, _, hbytes, hwithin⟩ := hholds
    exact extendWindow_window hwithin hbytes hwindow.1 hwindow.2 hheld

/-- One event of a quiet window that is not crowded. -/
lemma Underway.step (hquiet : Quiet len config.limits head event)
    (hroomy : Roomy len config origin machine.sent) :
    Underway len config head origin (machine.step len config event) := by
  obtain ⟨period, htrigger⟩ := h.trigger
  -- everything but a submission and a reservation leaves the queue alone
  cases event with
  | submit baseHead tx => exact h.submit hquiet
  | closed | answer now result => exact hquiet.elim
  | head answer =>
    obtain rfl : answer = .ok head := hquiet
    obtain ⟨source, control, ledger⟩ := machine
    have hwindow := h.window
    cases control with
    | reserving task =>
      obtain rfl : task = .automatic := hwindow
      exact (h.reserve hroomy.1 rfl).1
    | extending batch totalBytes => exact (h.grow hroomy rfl).1
    | waiting | lingering _ _ | committing _ _ _ =>
      exact h.advance ordinary_head (Nat.le_refl _) hwindow
    | stopped result => exact hwindow.elim
  | elapsed => exact h.react (.inl rfl)
  | changed => exact h.react (.inr rfl)
  | command command =>
    cases command with
    | none => exact hquiet.elim
    | some command =>
      cases command with
      | shutdown => exact hquiet.elim
      | produceFromSource _ | produceTransactions _ _ =>
        -- refused, after which the loop looks at the queue again
        convert h.react (.inr rfl) using 1
        obtain ⟨source, control, ledger⟩ := machine
        cases control <;> simp only [Machine.step, resume, wake, linger, htrigger] <;> rfl

end

lemma record_submitted (ledger : Ledger τ) (source : QueuedTransactionSource τ)
    (control : Control τ) (event : Event τ) :
    (ledger.record source control event).submitted = ledger.submitted := by
  rw [Ledger.record.eq_def]
  split <;> rfl

/-- The queue's history only grows. -/
lemma Machine.sent_step (len : τ → UInt64) (config : ProducerConfig) (machine : Machine τ)
    (event : Event τ) : machine.sent <+: (machine.step len config event).sent := by
  cases event with
  | submit baseHead tx =>
    rw [Machine.step]
    split
    · exact ⟨[tx], by simp [Machine.sent]⟩
    · exact List.prefix_rfl
  | head _ | answer _ _ | elapsed | changed | closed | command _ =>
    rw [Machine.sent, Machine.sent, Machine.step, record_submitted]
    rintro _ _ ⟨⟩

lemma Machine.sent_run (len : τ → UInt64) (config : ProducerConfig) (machine : Machine τ)
    (events : List (Event τ)) : machine.sent <+: (machine.run len config events).sent := by
  induction events generalizing machine with
  | nil => exact List.prefix_rfl
  | cons event rest ih => exact (machine.sent_step len config event).trans (ih _)

/-- A quiet window that is not crowded stays underway. -/
lemma Underway.run (events : List (Event τ)) (h : Underway len config head origin machine)
    (hquiet : ∀ event ∈ events, Quiet len config.limits head event)
    (hroomy : Roomy len config origin (machine.run len config events).sent) :
    Underway len config head origin (machine.run len config events) := by
  induction events generalizing machine with
  | nil => exact h
  | cons event rest ih =>
    obtain ⟨hfirst, hrest⟩ := List.forall_mem_cons.mp hquiet
    exact ih (h.step hfirst (hroomy.mono (machine.sent_run len config (event :: rest)))) hrest hroomy

lemma Underway.start {period : Nat} (htrigger : config.trigger = .openFor period)
    (hplaces : config.limits.maxTransactions ≠ 0)
    (hcontent : ∀ e ∈ source.state.available, e.1 = head ∧ len e.2 ≤ config.limits.maxBytes) :
    Underway len config head source (Machine.start config source) := by
  refine ⟨⟨period, htrigger⟩, hplaces, Accounted.start source, ?_, hcontent, ?_, ?_⟩
  · simp only [Machine.start, htrigger]
    rfl
  · exact Nat.le_refl _
  · simp only [Machine.start, htrigger]
    rfl

/-! ## Closing a window -/

/-- The producer has a window open, or is about to open one. -/
def Machine.Opening (machine : Machine τ) : Prop :=
  match machine.control with
  | .reserving _ => machine.source.state.available ≠ []
  | .waiting | .stopped _ => False
  | .extending _ _ | .lingering _ _ | .committing _ _ _ => True

/-- The head answered so many times, then the deadline. -/
def closing (head : SessionHead) (answers : Nat) : List (Event τ) :=
  List.replicate answers (.head (.ok head)) ++ [.elapsed]

/-- Some answers of the head and the deadline bring it to the committer. -/
def Machine.Closes (len : τ → UInt64) (config : ProducerConfig) (head : SessionHead)
    (machine : Machine τ) : Prop :=
  ∃ answers batch, (machine.run len config (closing head answers)).control =
    .committing batch .openWindow .automatic

section

variable (h : Underway len config head origin machine)
include h

lemma Underway.closes_at_deadline
    (hready : (∃ batch totalBytes, machine.control = .lingering batch totalBytes) ∨ ∃ batch cause
      task, machine.control = .committing batch cause task) : machine.Closes len config head := by
  refine ⟨0, ?_⟩
  change ∃ batch, (machine.step len config .elapsed).control = _
  rcases hready with ⟨batch, totalBytes, hcontrol⟩ | ⟨batch, cause, task, hcontrol⟩
  · obtain ⟨_, _, _, hwithin⟩ : (Control.lingering batch totalBytes).Holds len config
      machine.source := hcontrol ▸ h.accounted.holds
    simp only [Machine.step, resume, hcontrol, linger, commitReserved_within batch hwithin]
    exact ⟨batch, rfl⟩
  · obtain ⟨_, _, _, rfl, rfl⟩ : (Control.committing batch cause task).Window config.limits
      head := hcontrol ▸ h.window
    simp only [Machine.step, resume, hcontrol]
    exact ⟨batch, rfl⟩

/-- A window that is not crowded closes with a commit: each answer of the head takes something, or
    leaves the window waiting for its deadline. -/
lemma Underway.closes (hroomy : Roomy len config origin machine.sent) (hopening : machine.Opening) :
    machine.Closes len config head := by
  -- the induction is on the number of transactions that wait
  induction hwaiting : machine.source.state.available.length using Nat.strong_induction_on
    generalizing machine with
  | _ waiting ih =>
    have hanswered : Underway len config head origin (machine.step len config (.head (.ok head))) ∧
        machine.Advanced (machine.step len config (.head (.ok head))) →
        machine.Closes len config head := by
      rintro ⟨hnext, hadvanced⟩
      have hsent : (machine.step len config (.head (.ok head))).sent = machine.sent := by
        rw [Machine.sent, Machine.step, record_submitted, Machine.sent]
        rintro _ _ ⟨⟩
      have hlater : (machine.step len config (.head (.ok head))).Closes len config head := by
        rw [Machine.Advanced] at hadvanced
        cases hcontrol : (machine.step len config (.head (.ok head))).control with
        | committing _ _ _ => exact hnext.closes_at_deadline (.inr ⟨_, _, _, hcontrol⟩)
        | lingering _ _ => exact hnext.closes_at_deadline (.inl ⟨_, _, hcontrol⟩)
        | extending _ _ =>
          rw [hcontrol] at hadvanced
          exact ih _ (hwaiting ▸ hadvanced) hnext (hsent ▸ hroomy)
            (by rw [Machine.Opening, hcontrol]; trivial) rfl
        | reserving _ | waiting | stopped _ =>
          rw [hcontrol] at hadvanced
          exact hadvanced.elim
      obtain ⟨answers, batch, hclosed⟩ := hlater
      exact ⟨answers + 1, batch, hclosed⟩
    rw [Machine.Opening] at hopening
    cases hcontrol : machine.control with
    | committing _ _ _ => exact h.closes_at_deadline (.inr ⟨_, _, _, hcontrol⟩)
    | lingering _ _ => exact h.closes_at_deadline (.inl ⟨_, _, hcontrol⟩)
    | extending _ _ => exact hanswered (h.grow hroomy hcontrol)
    | reserving task =>
      rw [hcontrol] at hopening
      obtain rfl : task = .automatic := (hcontrol ▸ h.window : (Control.reserving task).Window _ head)
      obtain ⟨hnext, hadvanced⟩ := h.reserve hroomy.1 hcontrol
      exact hanswered ⟨hnext, hadvanced hopening⟩
    | waiting | stopped _ =>
      rw [hcontrol] at hopening
      exact hopening.elim

/-! ## A crowded window -/

/-- A crowded queue: the first reservation leaves bytes, the second fails, everything is given back
    and the producer stops. -/
lemma Underway.crowded_stops (hample : Ample len origin machine.sent)
    (hcontrol : machine.control = .reserving .automatic)
    (hcrowded : Crowded len config.limits machine.sent) :
    ∃ message, (machine.run len config [.head (.ok head), .head (.ok head)]).control =
      .stopped (.error (.source message)) := by
  obtain ⟨period, htrigger⟩ := h.trigger
  obtain ⟨hmemory, hids⟩ := h.available_room hample
  have havailable : machine.source.state.available = onHead head machine.sent := by
    have hline := h.line
    rw [hcontrol] at hline
    rw [Machine.sent, ← onHead_of_forall fun e he => (h.heads e he).1]
    exact hline
  obtain ⟨taken, tx, rest, hsent, hsome, hplaces, hroom, hover⟩ := hcrowded
  rw [hsent] at havailable
  have htotal : (UInt64.toNat 0) + totalLen len (taken ++ tx :: rest) < 2 ^ 64 := by
    have := hample.1
    rw [hsent] at this
    simpa using this
  have htaken : takeBatch len head config.limits.maxBytes
      config.limits.maxTransactions 0 true machine.source.state.available = .ok taken := by
    rw [havailable]
    exact takeBatch_stops head _ 0 true htotal (by simpa using hroom.le) (by simpa using hover)
      hplaces fun _ => hsome
  have hwithin : Within len config.limits taken := ⟨hplaces.le, hroom.le⟩
  have hid : machine.source.state.nextReservation + 1 < 2 ^ 64 := by
    rw [havailable, onHead, List.length_map, List.length_append, List.length_cons] at hids
    omega
  have hreserve := reserve_of_takeBatch htaken hsome hid hwithin
  obtain ⟨total, hbytes, hsum⟩ := transactionBytes_within hwithin
  obtain ⟨remaining, hremaining, hextend⟩ :=
    extendWindow_within ⟨head, taken, [machine.source.state.nextReservation]⟩ hwithin hsum
  obtain ⟨hcount, hleft⟩ := remainingLimits_eq_ok.mp hremaining
  simp only at hcount
  -- the window stays open: a place and bytes are left
  have hopen : ¬(remaining.maxTransactions = 0 ∨ remaining.maxBytes = 0) := by
    rintro (hnone | hnone)
    · omega
    · rw [hnone, UInt64.toNat_zero] at hleft
      omega
  rw [if_neg hopen] at hextend
  obtain ⟨next, hnext⟩ : ∃ next : QueuedTransactionSource τ, next = { machine.source with
    state := machine.source.state.take taken.length (onHead head taken) } := ⟨_, rfl⟩
  rw [← hnext] at hreserve
  have hfirst : machine.step len config (.head (.ok head)) =
      { source := next
        control := .extending ⟨head, taken, [machine.source.state.nextReservation]⟩ total
        ledger := machine.ledger } := by
    simp only [Machine.step, resume, hcontrol, hreserve, Ledger.record, useSelection, htrigger,
      hsome, if_false, openWindow, hbytes, TransactionSelection.batch, Option.toList_some, hextend]
  -- the front is too large for what is left
  have hlarge : remaining.maxBytes < len tx := by
    rw [UInt64.lt_iff_toNat_lt]
    omega
  have hrest : next.state.available = onHead head (tx :: rest) := by
    rw [hnext, QueueState.take, havailable, onHead, onHead, List.map_append]
    exact List.drop_left' (List.length_map ..)
  obtain ⟨places, hplace⟩ := Nat.exists_eq_succ_of_ne_zero fun hzero => hopen (.inl hzero)
  have hrefused : next.reserve len head remaining = .error
      ⟨s!"front transaction bytes {len tx} exceed batch capacity {remaining.maxBytes}"⟩ := by
    rw [QueuedTransactionSource.reserve, hrest, hplace]
    simp only [onHead, List.map_cons, takeBatch, ne_eq, not_true_eq_false,
      if_false, hlarge, and_self, if_true]
    rfl
  rw [Machine.run, List.foldl_cons, List.foldl_cons, List.foldl_nil, hfirst]
  simp only [Machine.step, resume, growWindow, hremaining, Producer.reserve, hrefused,
    releaseAndStop]
  split <;> exact ⟨_, rfl⟩

end

/-! ## What the queue admits -/

/-- The submission an event makes. -/
def Event.submission : Event τ → Option (SessionHead × τ)
  | .submit baseHead tx => some (baseHead, tx)
  | .head _ | .answer _ _ | .elapsed | .changed | .closed | .command _ => none

lemma Event.eq_submit (h : event.submission = some entry) : event = .submit entry.1 entry.2 := by
  cases event with
  | submit _ _ =>
    cases h
    rfl
  | head _ | answer _ _ | elapsed | changed | closed | command _ => cases h

/-- What a queue of the origin's capacity holds after one more submission, nothing acknowledged. -/
def accept (len : τ → UInt64) (origin : QueuedTransactionSource τ)
    (submitted : List (SessionHead × τ)) (entry : SessionHead × τ) : List (SessionHead × τ) :=
  if len entry.2 ≤ origin.maxTransactionBytes ∧
      submitted.length + origin.state.reserved.contents.length < origin.maxTransactions then
    submitted ++ [entry]
  else submitted

lemma Accounted.submitted_accept (h : Accounted len config origin machine)
    (hnone : machine.ledger.acknowledged = []) :
    (machine.step len config (.submit baseHead tx)).ledger.submitted =
      accept len origin machine.ledger.submitted (baseHead, tx) := by
  have hqueued : machine.source.queued =
      machine.ledger.submitted.length + origin.state.reserved.contents.length := by
    have hlength := h.books.balance.length_eq
    rw [hnone, List.nil_append, List.length_append, List.length_append] at hlength
    rw [QueuedTransactionSource.queued, ← List.length_flatMap, ← SortedMap.contents]
    omega
  obtain ⟨hcount, hbytes⟩ := h.books.capacity
  rw [Machine.step, accept, ← hqueued, ← hcount, ← hbytes]
  split
  · rename_i source hsource
    obtain ⟨hlen, hroom, _⟩ := submit_eq_ok.mp hsource
    rw [if_pos ⟨hlen, hroom⟩]
  · rename_i error hsource
    rw [if_neg]
    rintro ⟨hlen, hroom⟩
    obtain ⟨next, hok⟩ : ∃ next, machine.source.submit len baseHead tx = .ok next :=
      ⟨_, submit_eq_ok.mpr ⟨hlen, hroom, rfl⟩⟩
    rw [hsource] at hok
    cases hok

/-- Only submissions and answers are recorded. -/
lemma Machine.ledger_step (hsubmission : event.submission = none)
    (hanswer : ∀ now result, event ≠ .answer now result) :
    (machine.step len config event).ledger = machine.ledger := by
  cases event with
  | submit baseHead tx => exact nomatch hsubmission
  | answer now result => exact absurd rfl (hanswer now result)
  | head _ | elapsed | changed | closed | command _ =>
    cases hcontrol : machine.control <;> simp only [Machine.step, Ledger.record, hcontrol]

/-- What a run admits depends on its submissions only, as long as nothing is answered. -/
lemma Accounted.run_submitted (h : Accounted len config origin machine)
    (hnone : machine.ledger.acknowledged = [])
    (hquiet : ∀ event ∈ events, Quiet len limits head event) :
    (machine.run len config events).ledger.submitted =
      (events.filterMap Event.submission).foldl (accept len origin) machine.ledger.submitted := by
  induction events generalizing machine with
  | nil => rfl
  | cons event rest ih =>
    obtain ⟨hfirst, hrest⟩ := List.forall_mem_cons.mp hquiet
    have hnext := h.step event
    rw [Machine.run, List.foldl_cons, ← Machine.run]
    cases hsubmission : event.submission with
    | none =>
      have hledger : (machine.step len config event).ledger = machine.ledger := by
        refine Machine.ledger_step hsubmission fun now result heq => ?_
        rw [heq] at hfirst
        exact hfirst
      rw [ih hnext (hledger ▸ hnone) hrest, hledger, List.filterMap_cons_none hsubmission]
    | some entry =>
      obtain rfl := Event.eq_submit hsubmission
      have hstill : (machine.step len config (.submit entry.1 entry.2)).ledger.acknowledged = [] := by
        rw [Machine.step]
        split <;> exact hnone
      rw [ih hnext hstill hrest, h.submitted_accept hnone, List.filterMap_cons_some hsubmission,
        List.foldl_cons]

/-- Arrivals alone leave the producer where it is. -/
lemma Underway.arrive (h : Underway len config head origin machine) {arrivals : List τ}
    (hfit : ∀ tx ∈ arrivals, len tx ≤ config.limits.maxBytes) :
    Underway len config head origin (machine.run len config (arrivals.map (.submit head))) ∧
      (machine.run len config (arrivals.map (.submit head))).control = machine.control := by
  induction arrivals generalizing machine with
  | nil => exact ⟨h, rfl⟩
  | cons tx rest ih =>
    obtain ⟨hfirst, hrest⟩ := List.forall_mem_cons.mp hfit
    obtain ⟨hlater, hcontrol⟩ := ih (h.submit ⟨rfl, hfirst⟩) hrest
    refine ⟨hlater, hcontrol.trans ?_⟩
    rw [Machine.step]
    split <;> rfl

/-! ## The open window -/

/-- What a quiet run has come to: the producer has not stopped, what goes to the committer is a
    non-empty prefix of the queue within the limits, and an open window is closed with a commit by
    its deadline. -/
def OpenWindowCommits (len : τ → UInt64) (config : ProducerConfig) (head : SessionHead)
    (machine : Machine τ) : Prop :=
  (∀ result, machine.control ≠ .stopped result) ∧
  (∀ batch cause task, machine.control = .committing batch cause task →
    batch.transactions ≠ [] ∧ batch.transactions <+: machine.sent ∧
      Within len config.limits batch.transactions) ∧
  (machine.Opening → machine.Closes len config head)

/-- A window that is underway and not crowded commits. -/
lemma Underway.commits (h : Underway len config head origin machine)
    (hroomy : Roomy len config origin machine.sent) : OpenWindowCommits len config head machine := by
  refine ⟨?_, ?_, h.closes hroomy⟩
  · intro result hstopped
    exact (hstopped ▸ h.window : (Control.stopped result).Window _ head)
  · intro batch cause task hcommitting
    obtain ⟨_, hsome, hheld, _, _⟩ : (Control.committing batch cause task).Window _ head :=
      hcommitting ▸ h.window
    obtain ⟨hunder, hwithin⟩ : (Control.committing batch cause task).Holds len config _ :=
      hcommitting ▸ h.accounted.holds
    have hreservations : machine.control.reservations = batch.reservations := by
      rw [hcommitting]
      rfl
    have hsent : machine.sent = _ := h.sent_eq (hreservations ▸ hunder hheld)
    exact ⟨hsome, ⟨_, hsent.symm⟩, hwithin⟩

/-- Quiet runs in which the same transactions arrive in the same order have sent the same. -/
lemma sent_of_submissions (config : ProducerConfig) (source : QueuedTransactionSource τ)
    (hquiet : ∀ event ∈ events, Quiet len limits head event)
    (hother : ∀ event ∈ other, Quiet len limits head event)
    (hsame : other.filterMap Event.submission = events.filterMap Event.submission) :
    ((Machine.start config source).run len config other).sent =
      ((Machine.start config source).run len config events).sent := by
  have hstart : Accounted len config source (Machine.start config source) := Accounted.start source
  rw [Machine.sent, Machine.sent, hstart.run_submitted rfl hquiet, hstart.run_submitted rfl hother,
    hsame]

/-- What arrives in a quiet run was built on the committer's head and fits a batch. -/
lemma exists_arrivals {events : List (Event τ)}
    (hquiet : ∀ event ∈ events, Quiet len limits head event) :
    ∃ arrivals : List τ, (∀ tx ∈ arrivals, len tx ≤ limits.maxBytes) ∧
      events.filterMap Event.submission = onHead head arrivals := by
  have hfit : ∀ e ∈ events.filterMap Event.submission, e.1 = head ∧ len e.2 ≤ limits.maxBytes := by
    intro e he
    obtain ⟨event, hevent, hsubmission⟩ := List.mem_filterMap.mp he
    obtain rfl := Event.eq_submit hsubmission
    exact hquiet _ hevent
  refine ⟨_, fun tx htx => ?_, onHead_of_forall fun e he => (hfit e he).1⟩
  obtain ⟨e, he, rfl⟩ := List.mem_map.mp htx
  exact (hfit e he).2

/-- **Open windows.**  From a queue of transactions that were built on the committer's head and
    each fit a batch, with arrivals of the same kind: every timing of these arrivals commits exactly
    when the queue with them is not crowded. -/
theorem open_window_commits_iff {period : Nat} (config : ProducerConfig) (head : SessionHead)
    (source : QueuedTransactionSource τ) (htrigger : config.trigger = .openFor period)
    (hvalid : config.validate = .ok config)
    (hcontent : ∀ e ∈ source.state.available, e.1 = head ∧ len e.2 ≤ config.limits.maxBytes)
    (events : List (Event τ)) (hquiet : ∀ event ∈ events, Quiet len config.limits head event)
    (hample : Ample len source ((Machine.start config source).run len config events).sent) :
    (∀ timing, (∀ event ∈ timing, Quiet len config.limits head event) →
      timing.filterMap Event.submission = events.filterMap Event.submission →
      OpenWindowCommits len config head ((Machine.start config source).run len config timing)) ↔
    ¬Crowded len config.limits ((Machine.start config source).run len config events).sent := by
  have hlimits : config.limits.maxTransactions ≠ 0 := by
    simp only [ProducerConfig.validate, BatchLimits.validate, eq_ok] at hvalid
    obtain ⟨_, ⟨hcount, _⟩, _⟩ := hvalid
    exact hcount
  have hstart := Underway.start htrigger hlimits hcontent
  constructor
  · intro hcommits hcrowded
    -- everything arrives before the window opens, which then reserves twice
    obtain ⟨arrivals, hfit, harrivals⟩ := exists_arrivals hquiet
    let answers : List (Event τ) := [.head (.ok head), .head (.ok head)]
    have hsubmits : ∀ event ∈ arrivals.map (.submit head), Quiet len config.limits head event := by
      intro event hevent
      obtain ⟨tx, htx, rfl⟩ := List.mem_map.mp hevent
      exact ⟨rfl, hfit tx htx⟩
    have hall : ∀ event ∈ arrivals.map (.submit head) ++ answers,
        Quiet len config.limits head event := by
      intro event hevent
      rcases List.mem_append.mp hevent with hsubmit | hhead
      · exact hsubmits event hsubmit
      · obtain rfl : event = .head (.ok head) := by simpa [answers] using hhead
        rfl
    have hlisted : (arrivals.map (Event.submit head)).filterMap Event.submission =
        events.filterMap Event.submission := by
      rw [harrivals, List.filterMap_map]
      exact congrFun (List.filterMap_eq_map (f := fun tx => (head, tx))) _
    have hsame : (arrivals.map (Event.submit head) ++ answers).filterMap Event.submission =
        events.filterMap Event.submission := by
      rw [List.filterMap_append, hlisted]
      exact List.append_nil _
    have hsent := sent_of_submissions config source hquiet hsubmits hlisted
    obtain ⟨h, hcontrol⟩ := hstart.arrive hfit
    rw [← hsent] at hample hcrowded
    have hreserving : ((Machine.start config source).run len config
        (arrivals.map (.submit head))).control = .reserving .automatic := by
      refine hcontrol.trans ?_
      rw [Machine.start, htrigger]
      rfl
    obtain ⟨message, hstopped⟩ := h.crowded_stops hample hreserving hcrowded
    have hrun : (Machine.start config source).run len config (arrivals.map (.submit head) ++ answers) =
        ((Machine.start config source).run len config (arrivals.map (.submit head))).run len config
          answers := List.foldl_append
    have hsafe := (hcommits _ hall hsame).1
    rw [hrun] at hsafe
    exact hsafe _ hstopped
  · intro hcrowded timing htiming hsame
    rw [← sent_of_submissions config source hquiet htiming hsame] at hample hcrowded
    exact (hstart.run timing htiming ⟨hample, hcrowded⟩).commits ⟨hample, hcrowded⟩

/-- A session that has no block yet. -/
def pairHead : SessionHead :=
  ⟨FixedBytes.fill 32 7, none, FixedBytes.fill 32 0, FixedBytes.fill 32 0, 0, 0, 0, none⟩

/-- Three transactions and eight bytes a batch. -/
def pairConfig : ProducerConfig where
  trigger := .openFor 1
  limits := { maxTransactions := 3, maxBytes := 8 }

/-- An empty queue for two transactions of up to eight bytes. -/
def pairQueue : QueuedTransactionSource (List UInt8) :=
  { state := .initial, maxTransactions := 2, maxTransactionBytes := 8 }

/-- `transaction.len() as u64`. -/
def bytesLen (transaction : List UInt8) : UInt64 := UInt64.ofNat transaction.length

/-- A transaction of five bytes, and one of three that arrives when the window is open. -/
def pairEvents : List (Event (List UInt8)) :=
  [.submit pairHead [1, 1, 1, 1, 1], .head (.ok pairHead), .submit pairHead [2, 2, 2],
    .head (.ok pairHead)]

/-- The two of them fill a batch, and every window they arrive in commits. -/
theorem open_window_commits_iff_pair :
    ((Machine.start pairConfig pairQueue).run bytesLen pairConfig pairEvents).control =
      .committing ⟨pairHead, [[1, 1, 1, 1, 1], [2, 2, 2]], [0, 1]⟩ .openWindow .automatic ∧
    ∀ timing, (∀ event ∈ timing, Quiet bytesLen pairConfig.limits pairHead event) →
      timing.filterMap Event.submission = pairEvents.filterMap Event.submission →
      OpenWindowCommits bytesLen pairConfig pairHead
        ((Machine.start pairConfig pairQueue).run bytesLen pairConfig timing) := by
  have hquiet : ∀ event ∈ pairEvents, Quiet bytesLen pairConfig.limits pairHead event := by
    rintro event (_ | ⟨_, _ | ⟨_, _ | ⟨_, _ | ⟨_, ⟨⟩⟩⟩⟩⟩)
    · exact ⟨rfl, by decide⟩
    · rfl
    · exact ⟨rfl, by decide⟩
    · rfl
  have hample : Ample bytesLen pairQueue
      ((Machine.start pairConfig pairQueue).run bytesLen pairConfig pairEvents).sent :=
    ⟨by decide, by decide⟩
  refine ⟨rfl, (open_window_commits_iff pairConfig pairHead pairQueue rfl rfl nofun pairEvents hquiet
    hample).mpr ?_⟩
  · rintro ⟨taken, tx, rest, hsent, hsome, -, -, hover⟩
    have hpair : [[1, 1, 1, 1, 1], [2, 2, 2]] = taken ++ tx :: rest := hsent
    cases taken with
    | nil => exact hsome rfl
    | cons first more =>
      obtain ⟨rfl, hmore⟩ := List.cons.inj hpair
      cases more with
      | nil =>
        obtain ⟨rfl, -⟩ := List.cons.inj hmore
        exact absurd hover (by decide)
      | cons second more => simp at hmore

/-- Two transactions of five bytes both fit a batch.  The window takes the first, and then stops:
    the second does not fit the three bytes left. -/
theorem open_window_stops :
    let machine := (Machine.start pairConfig pairQueue).run bytesLen pairConfig
      [.submit pairHead [1, 1, 1, 1, 1], .submit pairHead [2, 2, 2, 2, 2], .head (.ok pairHead),
        .head (.ok pairHead)]
    QueuedTransactionSource.new 2 8 = .ok pairQueue ∧
    machine.control = .stopped (.error (.source
      "front transaction bytes 5 exceed batch capacity 3")) ∧
    machine.source.state.available = [(pairHead, [1, 1, 1, 1, 1]), (pairHead, [2, 2, 2, 2, 2])] ∧
    machine.source.state.reserved = .empty :=
  ⟨rfl, rfl, rfl, rfl⟩

end Myelin.Producer
