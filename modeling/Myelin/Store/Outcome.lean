/-
  Every handoff has one outcome, over any interleaving of store calls.

  `Recorded` is the invariant: the store represents a ledger whose entries hold exactly the events
  the committed blocks performed, in order.  An entry has room for ONE history, and both arms of
  `HandoffTerminal.history` are short, so "consumed at most once" and "never consumed and
  reclaimed" are facts about that list.

  `Held` ties the log of committed records, which is not stored, to the database: hot or cold, the
  store keeps the digest of every record in it.

  Who may act on a handoff is settled by `unique_handoff_owner`.
-/
import Myelin.Store.Calls
import Myelin.Store.Handoffs

namespace Myelin.Store

open Lib Consensus Session Function
open FixedBytes (fill)

variable {env : StoreEnv} {next store : RocksSessionStore} {call : StoreCall}
  {expected new : SessionHead} {record : FinalisedBlockRecord} {ledger : HandoffTable}

/-- Key a record is stored under. -/
def recordKey (record : FinalisedBlockRecord) : Hash32 × UInt64 :=
  (record.block.sessionId, record.block.number)

/-- The store keeps the exact bytes of a record (without its snapshot, off checkpoints), or their
    digest and length once they are archived. -/
def RocksSessionStore.Held (env : SessionEnv) (store : RocksSessionStore)
    (record : FinalisedBlockRecord) : Prop :=
  ∃ stored bytes, (stored = record ∨ stored = { record with stateSnapshot := [] }) ∧
    stored.encode env = .ok bytes ∧
      ((store.block (recordKey record) = some bytes ∧ store.coldBlock (recordKey record) = none) ∨
        (store.block (recordKey record) = none ∧ ∃ cold,
          store.coldBlock (recordKey record) = some cold ∧ cold.blob = env.blake3 bytes ∧
            cold.bytes.toNat = bytes.length))

/-- Lifecycle of a handoff, whichever way it is stored. -/
def RocksSessionStore.lifecycle (store : RocksSessionStore) (id : Hash32) : Option HandoffLifecycle :=
  match store.handoff id with
  | some stored => some stored.lifecycle
  | none => store.compactHandoff id

/-- What the committed blocks did, handoff by handoff. -/
def World.labels (env : SessionEnv) (world : World) : List (Hash32 × HandoffEvent) :=
  world.committed.flatMap (handoffLabels env)

/-- The invariant of every run. -/
structure Recorded (env : SessionEnv) (world : World) : Prop where
  ledger : ∃ ledger, Represents world.store.handoff world.store.compactHandoff ledger ∧
    ∀ id, StoredHandoff.history env (ledger id) = eventsOf id (world.labels env)
  nodup : ∀ record ∈ world.committed, ((handoffLabels env record).map Prod.fst).Nodup
  held : ∀ record ∈ world.committed, world.store.Held env record

/-! ## Frames -/

section Frames

/-- The families handoffs and their blocks live in. -/
def RocksSessionStore.SameHandoffs (store next : RocksSessionStore) : Prop :=
  next.handoff = store.handoff ∧ next.compactHandoff = store.compactHandoff ∧
    next.block = store.block ∧ next.coldBlock = store.coldBlock

/-- Only commits and offloads touch handoffs and blocks. -/
lemma StoreCall.exec_cases (h : call.exec env store = .ok next) :
    (∃ expected new record, call = .commitBlock expected new record ∧
        Store.commitBlock env expected new record store = .ok next) ∨
      call.records = [] ∧ ((∃ request, Offloads env request store next) ∨ store.SameHandoffs next) := by
  cases wrote h with
  | committed hcommit => exact .inl ⟨_, _, _, rfl, hcommit⟩
  | offloaded hoffload => exact .inr ⟨rfl, .inl ⟨_, hoffload⟩⟩
  | created | logged | acknowledged | attested => exact .inr ⟨rfl, .inr ⟨rfl, rfl, rfl, rfl⟩⟩

/-- A commit adds its block and leaves every other one. -/
lemma commitBlock_block (h : commitBlock env expected new record store = .ok next) :
    store.block (recordKey record) = none ∧ store.coldBlock (recordKey record) = none ∧
      next.coldBlock = store.coldBlock ∧ ∃ bytes,
        (storedRecord env record).encode env.session = .ok bytes ∧
          next.block = update store.block (recordKey record) (some bytes) := by
  obtain ⟨_, bytes, _, work, _, _, _, _, -, ⟨-, hcommit, hencode⟩, -, ⟨hhot, hcold⟩, hwork, -, -, rfl⟩ :=
    commitBlock_ok h
  obtain ⟨-, hsession, -⟩ := validateCommit_ok hcommit
  have hkey : recordKey record = (expected.sessionId, record.block.number) := by
    rw [recordKey, hsession]
  obtain ⟨hblock, hcoldBlock⟩ : work.block = store.block ∧ work.coldBlock = store.coldBlock := by
    rcases putSuccessor_ok hwork with ⟨-, rfl⟩ | ⟨_, _, -, -, -, rfl⟩ <;> exact ⟨rfl, rfl⟩
  refine ⟨hkey ▸ hhot, hkey ▸ hcold, hcoldBlock, bytes, hencode, ?_⟩
  rw [← hblock]
  rfl

end Frames

/-! ## Committed records stay in the store -/

section Held

/-- Being held depends on one key of two families. -/
lemma RocksSessionStore.Held.congr (h : store.Held env.session record)
    (hblock : next.block (recordKey record) = store.block (recordKey record))
    (hcold : next.coldBlock (recordKey record) = store.coldBlock (recordKey record)) :
    next.Held env.session record := by
  unfold RocksSessionStore.Held
  rw [hblock, hcold]
  exact h

lemma commitBlock_holds (h : commitBlock env expected new record store = .ok next) :
    next.Held env.session record := by
  obtain ⟨-, hcold, hcoldBlock, bytes, hencode, hblock⟩ := commitBlock_block h
  refine ⟨storedRecord env record, bytes, ?_, hencode, .inl ⟨?_, ?_⟩⟩
  · unfold storedRecord
    split
    · exact .inl rfl
    · exact .inr rfl
  · rw [hblock, update_self]
  · rw [hcoldBlock, hcold]

lemma commitBlock_keeps (hold : store.Held env.session old)
    (h : commitBlock env expected new record store = .ok next) : next.Held env.session old := by
  obtain ⟨hhot, hcold, hcoldBlock, bytes, -, hblock⟩ := commitBlock_block h
  -- the key was free, and the old record occupies its own
  have hne : recordKey old ≠ recordKey record := by
    intro heq
    obtain ⟨_, _, -, -, ⟨hsome, -⟩ | ⟨-, _, hsome, -⟩⟩ := hold
    · exact absurd ((heq ▸ hsome).symm.trans hhot) nofun
    · exact absurd ((heq ▸ hsome).symm.trans hcold) nofun
  exact hold.congr (by rw [hblock, update_of_ne hne]) (by rw [hcoldBlock])

/-- Relocation keeps the digest of the block it moves and leaves every other one. -/
lemma Offloads.keeps (hold : store.Held env.session record)
    (h : Offloads env request store next) : next.Held env.session record := by
  rcases h with rfl | ⟨hpinned, _, tables, -, rfl⟩
  · exact hold
  by_cases hkey : recordKey record = request.key
  · obtain ⟨stored, bytes, hstored, hencode, hplace⟩ := hold
    refine ⟨stored, bytes, hstored, hencode, .inr ⟨?_, request.reference, ?_, ?_⟩⟩
    · simp [RocksSessionStore.offloaded, hkey]
    · simp [RocksSessionStore.offloaded, hkey]
    rw [hkey] at hplace
    rcases hpinned with ⟨hhot, old, hold, hblob, hbytes⟩ | ⟨moved, hhot, -, hblob, hbytes⟩
    · rcases hplace with ⟨hsome, -⟩ | ⟨-, cold, hcold, hdigest⟩
      · cases hsome.symm.trans hhot
      · obtain rfl := Option.some_inj.mp (hcold.symm.trans hold)
        exact hblob ▸ hbytes ▸ hdigest
    · rcases hplace with ⟨hsome, -⟩ | ⟨hnone, -⟩
      · obtain rfl := Option.some_inj.mp (hsome.symm.trans hhot)
        exact ⟨hblob, hbytes⟩
      · cases hhot.symm.trans hnone
  · exact hold.congr (by simp [RocksSessionStore.offloaded, update_of_ne hkey])
      (by simp [RocksSessionStore.offloaded, update_of_ne hkey])

end Held

/-! ## Runs of the ledger -/

section Ledger

section

variable (hrepresents : Represents store.handoff store.compactHandoff ledger)
include hrepresents

lemma commitBlock_ledger (h : commitBlock env expected new record store = .ok next) :
    ∃ ledger', Trace (LedgerMove env.session) ledger (handoffLabels env.session record) ledger' ∧
      Represents next.handoff next.compactHandoff ledger' := by
  obtain ⟨_, _, _, work, _, handoffs, _, _, -, -, -, -, hwork, -, hhandoffs, rfl⟩ := commitBlock_ok h
  have hwork' : Represents work.handoff work.compactHandoff ledger := by
    rcases putSuccessor_ok hwork with ⟨-, rfl⟩ | ⟨_, _, -, -, -, rfl⟩ <;> exact hrepresents
  obtain ⟨ledger', htrace, hrepresents'⟩ := commitHandoffs_trace hwork' hhandoffs
  exact ⟨ledger', htrace, hrepresents'⟩

/-- A committed block makes one move of every handoff it names, and leaves the others alone. -/
lemma commitBlock_moves (h : commitBlock env expected new record store = .ok next) :
    ∃ ledger', Represents next.handoff next.compactHandoff ledger' ∧
      (∀ label ∈ handoffLabels env.session record,
        HandoffMove env.session (ledger label.1) label.2 (ledger' label.1)) ∧
      ∀ id, id ∉ (handoffLabels env.session record).map Prod.fst → ledger' id = ledger id := by
  obtain ⟨ledger', htrace, hrepresents'⟩ := commitBlock_ledger hrepresents h
  refine ⟨ledger', hrepresents', fun label hlabel => ?_, fun id hid => ?_⟩
  · have hentry := trace_entry htrace label.1
    rw [eventsOf_eq_singleton (handoffLabels_nodup h) hlabel] at hentry
    exact hentry.of_singleton
  · have hnone : eventsOf id (handoffLabels env.session record) = [] := by
      refine List.eq_nil_iff_forall_not_mem.mpr fun event hevent => hid ?_
      exact List.mem_map.mpr ⟨_, mem_eventsOf.mp hevent, rfl⟩
    have hentry := trace_entry htrace id
    rw [hnone] at hentry
    exact hentry.of_nil

/-- Every call is a run of the ledger over what it commits. -/
lemma StoreCall.exec_ledger (h : call.exec env store = .ok next) :
    ∃ ledger', Trace (LedgerMove env.session) ledger
        (call.records.flatMap (handoffLabels env.session)) ledger' ∧
      Represents next.handoff next.compactHandoff ledger' := by
  rcases exec_cases h with ⟨expected, new, record, rfl, hcommit⟩ | ⟨hrecords, hrest⟩
  · simpa [records] using commitBlock_ledger hrepresents hcommit
  rw [hrecords]
  refine ⟨ledger, .nil _, ?_⟩
  rcases hrest with ⟨request, rfl | ⟨-, record, tables, htables, rfl⟩⟩ | ⟨hfull, hcompact, -⟩
  · exact hrepresents
  · exact compactIssuedHandoffs_represents hrepresents htables
  · rw [hfull, hcompact]
    exact hrepresents

end

variable (h : call.exec env store = .ok next)
include h

/-- The records of a call were committed by it. -/
lemma StoreCall.exec_committed : ∀ record ∈ call.records, ∃ expected new,
    Store.commitBlock env expected new record store = .ok next := by
  rcases exec_cases h with ⟨expected, new, record, rfl, hcommit⟩ | ⟨hrecords, -⟩
  · intro other hother
    obtain rfl := List.mem_singleton.mp hother
    exact ⟨expected, new, hcommit⟩
  · rw [hrecords]
    exact fun _ hmem => absurd hmem List.not_mem_nil

lemma StoreCall.exec_keeps
    (hold : store.Held env.session record) : next.Held env.session record := by
  rcases exec_cases h with ⟨_, _, _, -, hcommit⟩ | ⟨-, ⟨request, hoffload⟩ | ⟨-, -, hblock, hcold⟩⟩
  · exact commitBlock_keeps hold hcommit
  · exact hoffload.keeps hold
  · exact hold.congr (by rw [hblock]) (by rw [hcold])

end Ledger

section Run

variable {env : SessionEnv} {world : World}

lemma recorded_empty : Recorded env .empty where
  ledger := ⟨fun _ => none, fun _ => .inl ⟨rfl, rfl⟩, fun _ => rfl⟩
  nodup := fun _ hmem => absurd hmem List.not_mem_nil
  held := fun _ hmem => absurd hmem List.not_mem_nil

lemma Recorded.step {env : StoreEnv} (h : Recorded env.session world)
    (hexec : call.exec env world.store = .ok next) :
    Recorded env.session ⟨next, world.committed ++ call.records⟩ where
  ledger := by
    obtain ⟨ledger, hrepresents, hhistory⟩ := h.ledger
    obtain ⟨ledger', htrace, hrepresents'⟩ := StoreCall.exec_ledger hrepresents hexec
    refine ⟨ledger', hrepresents', fun id => ?_⟩
    rw [trace_history htrace id, hhistory id, World.labels, World.labels, List.flatMap_append,
      eventsOf_append]
  nodup := by
    intro record hmem
    rcases List.mem_append.mp hmem with hold | hnew
    · exact h.nodup record hold
    · obtain ⟨_, _, hcommit⟩ := StoreCall.exec_committed hexec record hnew
      exact handoffLabels_nodup hcommit
  held := by
    intro record hmem
    rcases List.mem_append.mp hmem with hold | hnew
    · exact StoreCall.exec_keeps hexec (h.held record hold)
    · obtain ⟨_, _, hcommit⟩ := StoreCall.exec_committed hexec record hnew
      exact commitBlock_holds hcommit

lemma recorded_run (env : SessionEnv) (submissions : List Submission) :
    Recorded env (World.run env submissions) := by
  refine World.run_invariant recorded_empty (fun world submission next h hexec => ?_) submissions
  have hstep : (submission.env env).session = env := rfl
  rw [← hstep] at h ⊢
  exact h.step hexec

/-! ## One outcome -/

lemma Represents.lifecycle (h : Represents store.handoff store.compactHandoff ledger)
    (id : Hash32) : store.lifecycle id = (ledger id).map (·.lifecycle) := by
  rcases h id with ⟨hfull, hcompact⟩ | ⟨hnone, stored, hledger, hcompact, -⟩
  · unfold RocksSessionStore.lifecycle
    rw [← hfull]
    cases store.handoff id with
    | none => exact hcompact
    | some stored => rfl
  · simp [RocksSessionStore.lifecycle, hnone, hcompact, hledger]

/-- A call moves a handoff at most one step. -/
lemma StoreCall.exec_lifecycle {env : StoreEnv}
    (hrepresents : Represents store.handoff store.compactHandoff ledger)
    (h : call.exec env store = .ok next) (id : Hash32) :
    next.lifecycle id = store.lifecycle id ∨
      LifecycleStep (store.lifecycle id) (next.lifecycle id) := by
  obtain ⟨ledger', htrace, hrepresents'⟩ := exec_ledger hrepresents h
  rw [hrepresents.lifecycle, hrepresents'.lifecycle]
  have hlength : (eventsOf id (call.records.flatMap (handoffLabels env.session))).length ≤ 1 := by
    rcases exec_cases h with ⟨_, _, record, rfl, hcommit⟩ | ⟨hrecords, -⟩
    · rw [records, List.flatMap_singleton]
      cases hevents : eventsOf id (handoffLabels env.session record) with
      | nil => exact Nat.zero_le 1
      | cons event rest =>
        have hmem : (id, event) ∈ handoffLabels env.session record :=
          mem_eventsOf.mp (hevents ▸ List.mem_cons_self)
        rw [← hevents, eventsOf_eq_singleton (handoffLabels_nodup hcommit) hmem]
        exact Nat.le_refl 1
    · rw [hrecords]
      exact Nat.zero_le 1
  rcases (trace_entry htrace id).eq_or_step hlength with hsame | ⟨event, hmove⟩
  · exact .inl (by rw [hsame])
  · exact .inr hmove.lifecycleStep

/-- Everything there is to say about one handoff in a reachable store. -/
structure SingleOutcome (env : SessionEnv) (world : World) (id : Hash32) : Prop where
  /-- The next call moves it along one arrow, or not at all. -/
  moves : ∀ submission,
    (world.submit env submission).store.lifecycle id = world.store.lifecycle id ∨
      LifecycleStep (world.store.lifecycle id) ((world.submit env submission).store.lifecycle id)
  /-- Over all sessions, at most one block has consumed it. -/
  consumed_once : (world.committed.map (·.consumedHandoffIds.count id)).sum ≤ 1
  not_both : ¬ ((∃ record ∈ world.committed, id ∈ record.consumedHandoffIds) ∧
    ∃ record ∈ world.committed, ∃ action ∈ record.handoffActions, action.action = .reclaim id)
  /-- Every reference in the lifecycle names a committed block, and the matching event is the only
      thing that block does to the handoff. -/
  referenced : ∀ lifecycle, world.store.lifecycle id = some lifecycle →
    ∃ handoff, handoff.id env = id ∧
      ∀ event ∈ StoredHandoff.history env (some ⟨handoff, lifecycle⟩), ∃ record ∈ world.committed,
        world.store.Held env record ∧ event.block = reference env record ∧
          eventsOf id (handoffLabels env record) = [event]
  failure_keeps : ∀ submission e, submission.result env world.store = .error e →
    world.submit env submission = world

namespace Recorded

variable {id : Hash32}

variable (h : Recorded env world)
include h

lemma moves (submission : Submission) :
    (world.submit env submission).store.lifecycle id = world.store.lifecycle id ∨
      LifecycleStep (world.store.lifecycle id) ((world.submit env submission).store.lifecycle id) := by
  obtain ⟨ledger, hrepresents, -⟩ := h.ledger
  unfold World.submit
  split
  · next next hresult =>
      exact StoreCall.exec_lifecycle hrepresents (Submission.exec_of_result hresult) id
  · exact .inl rfl

lemma consumed_once : (world.committed.map (·.consumedHandoffIds.count id)).sum ≤ 1 := by
  obtain ⟨ledger, -, hhistory⟩ := h.ledger
  have hcount : (world.committed.map (·.consumedHandoffIds.count id)).sum =
      (eventsOf id (world.labels env)).countP HandoffEvent.isConsume := by
    rw [World.labels, eventsOf, List.flatMap_assoc, List.countP_flatMap]
    refine congrArg List.sum (List.map_congr_left fun record _ => ?_)
    exact (countP_handoffLabels env record id).symm
  rw [hcount, ← hhistory id]
  exact StoredHandoff.countP_history_le env (ledger id)

lemma not_both :
    ¬ ((∃ record ∈ world.committed, id ∈ record.consumedHandoffIds) ∧
      ∃ record ∈ world.committed, ∃ action ∈ record.handoffActions, action.action = .reclaim id) := by
  rintro ⟨⟨consumer, hconsumer, hid⟩, reclaimer, hreclaimer, action, haction, hreclaim⟩
  obtain ⟨ledger, -, hhistory⟩ := h.ledger
  have hconsume : .consume (reference env consumer) ∈ StoredHandoff.history env (ledger id) := by
    rw [hhistory id, mem_eventsOf]
    refine List.mem_flatMap.mpr ⟨consumer, hconsumer, ?_⟩
    simp [handoffLabels, hid]
  have hact : .act action (reference env reclaimer) ∈ StoredHandoff.history env (ledger id) := by
    rw [hhistory id, mem_eventsOf]
    refine List.mem_flatMap.mpr ⟨reclaimer, hreclaimer, List.mem_append_right _ ?_⟩
    exact List.mem_map.mpr ⟨action, haction, by rw [hreclaim, HandoffAction.handoffId]⟩
  exact StoredHandoff.not_reclaim_of_consume hconsume hact hreclaim

lemma referenced (hlifecycle : world.store.lifecycle id = some lifecycle) :
    ∃ handoff, handoff.id env = id ∧
      ∀ event ∈ StoredHandoff.history env (some ⟨handoff, lifecycle⟩), ∃ record ∈ world.committed,
        world.store.Held env record ∧ event.block = reference env record ∧
          eventsOf id (handoffLabels env record) = [event] := by
  obtain ⟨ledger, hrepresents, hhistory⟩ := h.ledger
  rw [hrepresents.lifecycle, Option.map_eq_some_iff] at hlifecycle
  obtain ⟨⟨handoff, _⟩, hledger, rfl⟩ := hlifecycle
  have hperformed : ∀ event ∈ StoredHandoff.history env (ledger id), ∃ record ∈ world.committed,
      (id, event) ∈ handoffLabels env record := by
    intro event hevent
    rw [hhistory id, mem_eventsOf] at hevent
    exact List.mem_flatMap.mp hevent
  rw [hledger] at hperformed
  refine ⟨handoff, ?_, fun event hevent => ?_⟩
  · obtain ⟨record, -, hlabel⟩ := hperformed _ List.mem_cons_self
    exact (mem_handoffLabels hlabel).2 _ _ rfl
  · obtain ⟨record, hrecord, hlabel⟩ := hperformed event hevent
    exact ⟨record, hrecord, h.held record hrecord, (mem_handoffLabels hlabel).1,
      eventsOf_eq_singleton (h.nodup record hrecord) hlabel⟩

end Recorded

end Run

/-- **Handoff single outcome**: after any interleaving of store calls by any number of sessions,
    every handoff has one outcome, and a failing call or `apply_action` changes nothing. -/
theorem handoff_single_outcome (env : SessionEnv) (submissions : List Submission) :
    (∀ id, SingleOutcome env (World.run env submissions) id) ∧
      ∀ (stored : StoredHandoff) resolved block e,
        (stored.applyAction env resolved block).1 = .error e →
          (stored.applyAction env resolved block).2 = stored := by
  have hrecorded := recorded_run env submissions
  refine ⟨fun id => ?_, fun _ _ _ _ => StoredHandoff.applyAction_error⟩
  exact {
    moves := hrecorded.moves
    consumed_once := hrecorded.consumed_once
    not_both := hrecorded.not_both
    referenced := fun _ => hrecorded.referenced
    failure_keeps := fun submission e hfailed => by
      rw [World.submit, hfailed] }

/-! ### A crossing

Session 1 issues a handoff to session 2, which consumes it, and session 1 retires it.  The texts are
records of the transfer application, which the store does not read. -/

def crossHash : Hash32 := fill 32 7

def crossText (magic : String) (body : List UInt8) : List UInt8 :=
  utf8 magic ++ le16 1 ++ le64 (UInt64.ofNat body.length) ++ crossHash.val ++ body

def crossConfig (sessionId : Hash32) : SessionConfig :=
  .uniform sessionId crossHash (.application crossHash)

def crossIntent : HandoffIntent :=
  ⟨.session (fill 32 2), 9, crossText "MTRP" [], crossText "MTRA" [], none⟩

def crossHandoff : SessionHandoff :=
  ⟨fill 32 1, 0, crossHash, crossHash, crossHash, .session (fill 32 2), 9, crossText "MTRP" [],
    crossText "MTRA" [], none⟩

/-- A block of one command, after which the state is the one numbered `state`. -/
def crossRecord (sessionId : Hash32) (number : UInt64) (command : Hash32) (order state : UInt8) :
    FinalisedBlockRecord :=
  let record := FinalisedBlockRecord.uniform sessionId crossHash number (crossText "MTRS" [state])
  { record with
    block := { record.block with dataCommitments := List.replicate 3 crossHash }
    frame := { record.frame with
      inputStart := number
      inputEnd := number + 1
      logicalTimeStart := number
      logicalTimeEnd := number + 1
      resources := ⟨0, 0, 47⟩ }
    frameInput :=
      ⟨[⟨command, command⟩], number, number + 1, number, number + 1, crossText "MTRD" [order]⟩ }

def issuing : FinalisedBlockRecord :=
  { crossRecord (fill 32 1) 0 crossHash 0 1 with issuedHandoffs := [crossHandoff] }

def taking (last : UInt8) : FinalisedBlockRecord :=
  { crossRecord (fill 32 2) 0 crossHash 1 last with consumedHandoffIds := [crossHash] }

def retiring : FinalisedBlockRecord :=
  { crossRecord (fill 32 1) 1 (fill 32 8) 2 2 with
    handoffActions := [⟨.retire crossHash ⟨fill 32 2, 0, crossHash⟩, crossHandoff, none⟩] }

def crossRecords : List FinalisedBlockRecord := [issuing, taking 4, taking 6, retiring]

/-- One hash, and a codec that knows the records by their place. -/
def crossEnv : SessionEnv where
  crypto := .accepting fun _ => crossHash
  postcard := { Postcard.blank with
    record := fun record _ => [UInt8.ofNat (crossRecords.idxOf record)]
    takeRecord := fun bytes => okOr crossRecords[(bytes.headD 0).toNat]? (.codec "no such record") }

/-- Head of a session after `n` blocks. -/
def crossHead (sessionId : Hash32) (n : UInt64) : SessionHead :=
  if n = 0 then successorHead (crossConfig sessionId)
  else ⟨sessionId, some (n - 1), crossHash, crossHash, 0, n, n, none⟩

def creating (sessionId : Hash32) (state : UInt8) : Submission :=
  ⟨.createSession ⟨crossConfig sessionId, crossText "MTRS" [state]⟩ (crossHead sessionId 0), none, 1,
    none⟩

def committing (record : FinalisedBlockRecord) : Submission :=
  ⟨.commitBlock (crossHead record.block.sessionId record.block.number)
    (crossHead record.block.sessionId (record.block.number + 1)) record, none, 1, none⟩

/-- Session 2 starts in one state, and takes the handoff in by moving to another. -/
def crossing (first last : UInt8) : List Submission :=
  [creating (fill 32 1) 0, creating (fill 32 2) first, committing issuing, committing (taking last),
    committing retiring]

theorem handoff_single_outcome_crossing :
    SessionHandoff.fromIntent (fill 32 1) 0 crossHash crossHash crossHash 0 crossIntent =
        .ok crossHandoff ∧
      (World.run crossEnv (crossing 3 4)).store.handoff crossHash =
        some ⟨crossHandoff, ⟨fill 32 1, 0, crossHash⟩,
          .retired ⟨fill 32 2, 0, crossHash⟩ ⟨fill 32 1, 1, crossHash⟩⟩ ∧
      SingleOutcome crossEnv (World.run crossEnv (crossing 3 4)) crossHash :=
  ⟨by decide +kernel, by decide +kernel, (handoff_single_outcome crossEnv _).1 _⟩

/-! ## One owner -/

/-- **Unique handoff owner**: in any store at all, and so in every store a run can reach,
    `continuation_lineage` goes back at most `maxHandoffOwnerDepth` times (its last pass returns or
    fails), and at most one unsealed session passes as the owner of a handoff. -/
theorem unique_handoff_owner (env : StoreEnv) (store : RocksSessionStore) :
    (∀ owner origin,
      loop (lineageBody env.session (store.view env) origin) (maxHandoffOwnerDepth + 1)
          (.start owner) = some (continuationLineage env.session (store.view env) owner origin) ∧
        ∀ lineage, continuationLineage env.session (store.view env) owner origin = .ok lineage →
          lineage.length ≤ maxHandoffOwnerDepth) ∧
      ∀ handoff first second,
        (store.view env).Unsealed first → AcceptedOwner env.session (store.view env) handoff first →
        (store.view env).Unsealed second → AcceptedOwner env.session (store.view env) handoff second →
          first = second := by
  refine ⟨fun owner origin => ⟨loop_continuationLineage _ _ _ _, fun _ => continuationLineage_length⟩, ?_⟩
  intro handoff first second hunsealed₁ haccepted₁ hunsealed₂ haccepted₂
  exact unsealed_owner_unique haccepted₁.seals haccepted₂.seals hunsealed₁ hunsealed₂

/-- Session 1 may retire the consumed handoff, and nobody else may. -/
theorem unique_handoff_owner_crossing :
    let store := (World.run crossEnv ((crossing 3 4).take 4)).store.view ⟨crossEnv, none, 1⟩
    ∀ other, store.Unsealed other → AcceptedOwner crossEnv store crossHandoff other →
      other = crossConfig (fill 32 1) := by
  intro store other hunsealed haccepted
  have hgenesis : store.loadGenesis (fill 32 1) =
      .ok ⟨crossConfig (fill 32 1), crossText "MTRS" [0]⟩ := by decide +kernel
  have hhead : store.loadHead (fill 32 1) = .ok (crossHead (fill 32 1) 1) := by decide +kernel
  have howner : handoffOwnerLineage crossEnv store (crossConfig (fill 32 1)) crossHandoff = .ok [] := by
    decide +kernel
  exact (unique_handoff_owner ⟨crossEnv, none, 1⟩ _).2 crossHandoff other (crossConfig (fill 32 1))
    hunsealed haccepted ⟨⟨_, hgenesis, rfl⟩, _, hhead, rfl⟩ (.inl ⟨_, howner⟩)

end Myelin.Store
