/-
  What a call of the store does to handoffs.

  The abstract store is a `ledger`: one entry per handoff ever issued, changed only by
  `HandoffMove`s.  A committed block is a run of ledger moves, one per handoff it names
  (`commitHandoffs_trace`, `handoffLabels_nodup`); compaction only changes how an entry is stored
  (`Represents`, `compactIssuedHandoffs_represents`).
-/
import Myelin.Store.Archive

namespace Myelin.Store

open Lib Consensus Session Function

variable {record : FinalisedBlockRecord} {ledger : HandoffTable}
  {compact : Hash32 → Option HandoffLifecycle} {env : StoreEnv} {handoff : SessionHandoff}

/-! ## The abstract ledger -/

/-- One event of one handoff. -/
def LedgerMove (env : SessionEnv) (ledger : HandoffTable) (label : Hash32 × HandoffEvent)
    (next : HandoffTable) : Prop :=
  ∃ entry, next = update ledger label.1 entry ∧ HandoffMove env (ledger label.1) label.2 entry

/-- The events of one handoff among those of many. -/
def eventsOf (id : Hash32) (labels : List (Hash32 × HandoffEvent)) : List HandoffEvent :=
  labels.flatMap fun label => if label.1 = id then [label.2] else []

/-- What one record does to handoffs, in the order `commit_block` applies it. -/
def handoffLabels (env : SessionEnv) (record : FinalisedBlockRecord) :
    List (Hash32 × HandoffEvent) :=
  record.issuedHandoffs.map (fun handoff => (handoff.id env, .issue handoff (reference env record))) ++
    record.consumedHandoffIds.map (fun id => (id, .consume (reference env record))) ++
    record.handoffActions.map (fun action =>
      (action.action.handoffId, .act action (reference env record)))

variable {id : Hash32} {labels : List (Hash32 × HandoffEvent)} {event : HandoffEvent}

@[simp] lemma mem_eventsOf : event ∈ eventsOf id labels ↔ (id, event) ∈ labels := by
  simp only [eventsOf, List.mem_flatMap, Prod.exists]
  constructor
  · rintro ⟨key, other, hmem, hevent⟩
    split at hevent
    case isTrue hkey =>
      obtain rfl := List.mem_singleton.mp hevent
      exact hkey ▸ hmem
    case isFalse => cases hevent
  · intro hmem
    exact ⟨id, event, hmem, by simp⟩

/-- When every handoff is named at most once, one event is the only one. -/
lemma eventsOf_eq_singleton (hnodup : (labels.map Prod.fst).Nodup) (h : (id, event) ∈ labels) :
    eventsOf id labels = [event] := by
  induction labels with
  | nil => cases h
  | cons label rest ih =>
    obtain ⟨hfresh, hrest⟩ := List.nodup_cons.mp hnodup
    rcases List.mem_cons.mp h with rfl | hmem
    · have hnone : eventsOf id rest = [] := by
        refine List.eq_nil_iff_forall_not_mem.mpr fun other hother => hfresh ?_
        exact List.mem_map.mpr ⟨_, mem_eventsOf.mp hother, rfl⟩
      have hcons : eventsOf id ((id, event) :: rest) = event :: eventsOf id rest := by simp [eventsOf]
      rw [hcons, hnone]
    · have hne : label.1 ≠ id := fun heq => hfresh (heq ▸ List.mem_map.mpr ⟨_, hmem, rfl⟩)
      have hskip : eventsOf id (label :: rest) = eventsOf id rest := by simp [eventsOf, hne]
      rw [hskip, ih hrest hmem]

lemma eventsOf_append (id : Hash32) (first second : List (Hash32 × HandoffEvent)) :
    eventsOf id (first ++ second) = eventsOf id first ++ eventsOf id second :=
  List.flatMap_append

/-- The consumptions of a handoff in a record are its consumption events. -/
lemma countP_handoffLabels (env : SessionEnv) (record : FinalisedBlockRecord) (id : Hash32) :
    (eventsOf id (handoffLabels env record)).countP HandoffEvent.isConsume =
      record.consumedHandoffIds.count id := by
  have hnone : ∀ {α : Type} (list : List α) (label : α → Hash32 × HandoffEvent),
      (∀ a, (label a).2.isConsume = false) →
        (eventsOf id (list.map label)).countP HandoffEvent.isConsume = 0 := by
    intro α list label hlabel
    refine List.countP_eq_zero.mpr fun event hevent => ?_
    obtain ⟨a, -, ha⟩ := List.mem_map.mp (mem_eventsOf.mp hevent)
    have hevent' : (label a).2 = event := congrArg Prod.snd ha
    simp [← hevent', hlabel a]
  have hconsume : ∀ ids : List Hash32,
      (eventsOf id (ids.map fun key => (key, HandoffEvent.consume (reference env record)))).countP
        HandoffEvent.isConsume = ids.count id := by
    intro ids
    induction ids with
    | nil => rfl
    | cons key rest ih =>
      rw [List.map_cons, ← List.singleton_append, eventsOf_append, List.countP_append, ih,
        List.count_cons, Nat.add_comm]
      by_cases hkey : key = id
      · simp [eventsOf, hkey, HandoffEvent.isConsume]
      · have hval : key.val ≠ id.val := fun h => hkey (Subtype.ext h)
        simp [eventsOf, hkey, hval]
  rw [handoffLabels, eventsOf_append, eventsOf_append, List.countP_append, List.countP_append,
    hnone _ _ (fun _ => rfl), hconsume, hnone _ _ (fun _ => rfl), Nat.zero_add, Nat.add_zero]

/-- Every event of a record is performed by its block, and issues are keyed by their handoff. -/
lemma mem_handoffLabels {env : SessionEnv} (h : (id, event) ∈ handoffLabels env record) :
    event.block = reference env record ∧
      ∀ handoff block, event = .issue handoff block → handoff.id env = id := by
  simp only [handoffLabels, List.mem_append, List.mem_map, Prod.mk.injEq] at h
  rcases h with (⟨handoff, -, hid, rfl⟩ | ⟨_, -, -, rfl⟩) | ⟨_, -, -, rfl⟩
  · refine ⟨rfl, fun other block hissue => ?_⟩
    cases hissue
    exact hid
  · exact ⟨rfl, nofun⟩
  · exact ⟨rfl, nofun⟩

/-- A run of the ledger, seen at one handoff. -/
lemma trace_entry {env : SessionEnv} {next : HandoffTable}
    (h : Trace (LedgerMove env) ledger labels next) (id : Hash32) :
    Trace (HandoffMove env) (ledger id) (eventsOf id labels) (next id) := by
  refine h.project (fun ledger => ledger id) ?_
  rintro ledger ⟨key, event⟩ next ⟨entry, rfl, hmove⟩
  by_cases hkey : key = id
  · subst hkey
    simpa using Trace.single hmove
  · simpa [hkey, update_of_ne (Ne.symm hkey)] using Trace.nil _

/-- What a run did to a handoff is appended to the history of its entry. -/
lemma trace_history {env : SessionEnv} {next : HandoffTable}
    (h : Trace (LedgerMove env) ledger labels next) (id : Hash32) :
    StoredHandoff.history env (next id) =
      StoredHandoff.history env (ledger id) ++ eventsOf id labels :=
  (trace_entry h id).history fun _ _ _ hmove => hmove.history

/-- How full and compact entries represent a ledger. -/
def Represents (full : HandoffTable) (compact : Hash32 → Option HandoffLifecycle)
    (ledger : HandoffTable) : Prop :=
  ∀ id, (full id = ledger id ∧ compact id = none) ∨
    (full id = none ∧ ∃ stored, ledger id = some stored ∧ compact id = some stored.lifecycle ∧
      isTerminal stored.lifecycle)

lemma Represents.update (h : Represents full compact ledger) (hcompact : compact id = none)
    (entry : Option StoredHandoff) :
    Represents (update full id entry) compact (update ledger id entry) := by
  intro other
  by_cases hother : other = id
  · subst hother
    simp [hcompact]
  · simpa [update_of_ne hother] using h other

variable {check : UInt64 → Except StoreError Unit}

/-- Compaction only moves entries: the ledger stays. -/
lemma compactHandoff_represents (hrepresents : Represents tables.full tables.compact ledger)
    (h : compactHandoff env check record tables handoff = .ok next) :
    Represents next.full next.compact ledger := by
  simp only [compactHandoff, eq_ok] at h
  obtain ⟨-, h⟩ := h
  split at h
  case h_1 stored hfull hcompact =>
    simp only [eq_ok] at h
    obtain ⟨-, -, h⟩ := h
    split at h
    case isTrue hterminal =>
      simp only [eq_ok] at h
      obtain ⟨_, -, _, -, -, rfl⟩ := h
      intro id
      by_cases hid : id = handoff.id env.session
      · -- the entry that is compacted
        subst hid
        rcases hrepresents (handoff.id env.session) with ⟨hentry, -⟩ | ⟨hnone, -⟩
        · exact .inr ⟨by simp, stored, hentry ▸ hfull, by simp, hterminal⟩
        · cases hfull.symm.trans hnone
      · simpa [update_of_ne hid] using hrepresents id
    case isFalse =>
      cases h
      exact hrepresents
  case h_2 =>
    simp only [eq_ok] at h
    obtain ⟨_, -, -, -, -, rfl⟩ := h
    exact hrepresents
  case h_3 => cases h
  case h_4 => cases h

lemma compactIssuedHandoffs_represents
    (hrepresents : Represents store.handoff store.compactHandoff ledger)
    (h : compactIssuedHandoffs env check record store expected window = .ok tables) :
    Represents tables.full tables.compact ledger := by
  simp only [compactIssuedHandoffs] at h
  split at h
  · cases h
    exact hrepresents
  simp only [bind_eq_ok] at h
  obtain ⟨pending, -, h⟩ := h
  split at h
  · cases h
    exact hrepresents
  · exact (foldlM_invariant (I := fun tables => Represents tables.full tables.compact ledger)
      (Q := fun _ => True) (fun _ _ _ hrep hstep => ⟨compactHandoff_represents hrep hstep, trivial⟩)
      hrepresents h).1

/-! ## What the loops of a commit do -/

section Commit

variable {base work : RocksSessionStore} {config : SessionConfig} {handoffs next : HandoffTable}

lemma issueHandoff_ok (h : issueHandoff env work record handoffs handoff = .ok next) :
    handoffs (handoff.id env.session) = none ∧ work.compactHandoff (handoff.id env.session) = none ∧
      next = update handoffs (handoff.id env.session)
        (some ⟨handoff, reference env.session record, .issued⟩) := by
  simp only [issueHandoff, eq_ok] at h
  obtain ⟨⟨hfull, hcompact⟩, _, -, rfl⟩ := h
  exact ⟨hfull, hcompact, rfl⟩

variable {state after : HandoffUsage × HandoffTable} {id : Hash32}

lemma consumeHandoff_ok (h : consumeHandoff env base work config record state id = .ok after) :
    ∃ stored source sourceRecord, state.2 id = some stored ∧ work.compactHandoff id = none ∧
      stored.handoff.id env.session = id ∧ stored.lifecycle.terminal = .issued ∧
        base.readBlock env source stored.handoff.sourceSessionId stored.handoff.sourceHeight =
          .ok sourceRecord ∧
        after.2 = update state.2 id
          (some (stored.withTerminal (.consumed (reference env.session record)))) := by
  simp only [consumeHandoff, eq_ok] at h
  obtain ⟨_, hfound, stored, rfl, _, -, ⟨hid, havailable⟩, -, source, -, -, -, sourceRecord, hread,
    -, -, -, _, -, rfl⟩ := h
  have hissued : stored.lifecycle.terminal = .issued := of_decide_eq_true havailable
  obtain ⟨-, ⟨hfull, hcompact⟩ | ⟨-, -, hterminal⟩⟩ := transactionHandoff_eq_some hfound
  · exact ⟨stored, source.config, sourceRecord, hfull, hcompact, hid, hissued, hread, rfl⟩
  · -- a compact entry is terminal, so it is not available
    simp [isTerminal, hissued] at hterminal

variable {action : ResolvedHandoffAction}

lemma applyHandoffAction_ok
    (h : applyHandoffAction env base work config record handoffs action = .ok next) :
    ∃ stored lineage terminal, handoffs action.action.handoffId = some stored ∧
      work.compactHandoff action.action.handoffId = none ∧ stored.handoff = action.handoff ∧
        validateHandoffAction env.session (base.view env) config record.block.number action =
          .ok lineage ∧
        stored.applyChecks env.session action (reference env.session record) = .ok () ∧
        StoredHandoff.nextTerminal stored.lifecycle.terminal action (reference env.session record) =
          some terminal ∧
        next = update handoffs action.action.handoffId (some (stored.withTerminal terminal)) := by
  simp only [applyHandoffAction, eq_ok] at h
  obtain ⟨lineage, hlineage, _, hfound, stored, rfl, hhandoff, source, -, _, -, -, -, -, -, -,
    happlied, _, -, rfl⟩ := h
  obtain ⟨hchecks, terminal, hnext, hafter⟩ :=
    StoredHandoff.applyAction_ok.mp (Prod.ext happlied rfl :
      stored.applyAction env.session action (reference env.session record) = (.ok (), _))
  obtain ⟨-, ⟨hfull, hcompact⟩ | ⟨-, -, hterminal⟩⟩ := transactionHandoff_eq_some hfound
  · exact ⟨stored, lineage, terminal, hfull, hcompact, hhandoff, hlineage, hchecks, hnext,
      congrArg (fun entry => update handoffs action.action.handoffId (some entry)) hafter⟩
  · -- a compact entry is terminal, and the transition table has nothing for it
    rcases StoredHandoff.nextTerminal_eq_some.mp hnext with
      ⟨_, hcurrent, -⟩ | ⟨_, _, hcurrent, -⟩ | ⟨_, _, hcurrent, -⟩ <;>
      simp [isTerminal, hcurrent] at hterminal

lemma issueHandoff_move (hrepresents : Represents handoffs work.compactHandoff ledger)
    (h : issueHandoff env work record handoffs handoff = .ok next) :
    ∃ ledger', LedgerMove env.session ledger
        (handoff.id env.session, .issue handoff (reference env.session record)) ledger' ∧
      Represents next work.compactHandoff ledger' := by
  obtain ⟨hfull, hcompact, rfl⟩ := issueHandoff_ok h
  refine ⟨_, ⟨_, rfl, ?_⟩, hrepresents.update hcompact _⟩
  rcases hrepresents (handoff.id env.session) with ⟨hentry, -⟩ | ⟨-, _, -, hsome, -⟩
  · rw [← hentry, hfull]
    exact .issue handoff _
  · exact absurd (hsome.symm.trans hcompact) nofun

/-- An entry that is not compact is the ledger's own. -/
lemma Represents.entry (h : Represents handoffs compact ledger)
    (hfull : handoffs id = some stored) : ledger id = some stored := by
  rcases h id with ⟨hentry, -⟩ | ⟨hnone, -⟩
  · exact hentry ▸ hfull
  · exact absurd (hfull.symm.trans hnone) nofun

lemma consumeHandoff_move (hrepresents : Represents state.2 work.compactHandoff ledger)
    (h : consumeHandoff env base work config record state id = .ok after) :
    ∃ ledger', LedgerMove env.session ledger (id, .consume (reference env.session record)) ledger' ∧
      Represents after.2 work.compactHandoff ledger' := by
  obtain ⟨stored, _, _, hfull, hcompact, -, hissued, -, hafter⟩ := consumeHandoff_ok h
  rw [hafter]
  refine ⟨_, ⟨_, rfl, ?_⟩, hrepresents.update hcompact _⟩
  rw [hrepresents.entry hfull]
  exact .consume _ hissued

lemma applyHandoffAction_move (hrepresents : Represents handoffs work.compactHandoff ledger)
    (h : applyHandoffAction env base work config record handoffs action = .ok next) :
    ∃ ledger', LedgerMove env.session ledger
        (action.action.handoffId, .act action (reference env.session record)) ledger' ∧
      Represents next work.compactHandoff ledger' := by
  obtain ⟨stored, _, terminal, hfull, hcompact, -, -, hchecks, hnext, rfl⟩ := applyHandoffAction_ok h
  refine ⟨_, ⟨_, rfl, ?_⟩, hrepresents.update hcompact _⟩
  rw [hrepresents.entry hfull]
  exact .act hchecks hnext

/-- The handoff loops of a commit are a run of the ledger over the record's labels. -/
lemma commitHandoffs_trace (hrepresents : Represents work.handoff work.compactHandoff ledger)
    (h : commitHandoffs env base work config record usage = .ok next) :
    ∃ ledger', Trace (LedgerMove env.session) ledger (handoffLabels env.session record) ledger' ∧
      Represents next work.compactHandoff ledger' := by
  simp only [commitHandoffs, bind_eq_ok] at h
  obtain ⟨issued, hissue, consumed, hconsume, hact⟩ := h
  obtain ⟨ledger₁, htrace₁, hrepresents₁⟩ := Trace.of_foldlM (LedgerMove env.session)
    (fun table ledger => Represents table work.compactHandoff ledger) _
    (fun _ _ _ _ hrep hstep => issueHandoff_move hrep hstep) hrepresents hissue
  obtain ⟨ledger₂, htrace₂, hrepresents₂⟩ := Trace.of_foldlM (LedgerMove env.session)
    (fun state ledger => Represents state.2 work.compactHandoff ledger) _
    (fun _ _ _ _ hrep hstep => consumeHandoff_move hrep hstep) hrepresents₁ hconsume
  obtain ⟨ledger₃, htrace₃, hrepresents₃⟩ := Trace.of_foldlM (LedgerMove env.session)
    (fun table ledger => Represents table work.compactHandoff ledger) _
    (fun _ _ _ _ hrep hstep => applyHandoffAction_move hrep hstep) hrepresents₂ hact
  exact ⟨ledger₃, (htrace₁.append htrace₂).append htrace₃, hrepresents₃⟩

/-! ## A block names each handoff at most once -/

/-- The issue loop enters exactly the record's handoffs. -/
lemma issueHandoffs_ok {list : List SessionHandoff}
    (h : list.foldlM (issueHandoff env work record) handoffs = .ok next) (id : Hash32) :
    (∃ handoff ∈ list, handoff.id env.session = id ∧
        next id = some ⟨handoff, reference env.session record, .issued⟩) ∨
      (id ∉ list.map (·.id env.session) ∧ next id = handoffs id) := by
  induction list generalizing handoffs with
  | nil =>
    rw [List.foldlM_nil, pure_eq_ok] at h
    exact .inr ⟨List.not_mem_nil, h ▸ rfl⟩
  | cons handoff rest ih =>
    rw [List.foldlM_cons, bind_eq_ok] at h
    obtain ⟨table, hstep, hrest⟩ := h
    obtain ⟨-, -, rfl⟩ := issueHandoff_ok hstep
    rcases ih hrest with ⟨other, hmem, hid, hentry⟩ | ⟨hfresh, hentry⟩
    · exact .inl ⟨other, List.mem_cons_of_mem _ hmem, hid, hentry⟩
    · by_cases hid : handoff.id env.session = id
      · subst hid
        exact .inl ⟨handoff, List.mem_cons_self, rfl, by rw [hentry, update_self]⟩
      · refine .inr ⟨?_, by rw [hentry, update_of_ne (Ne.symm hid)]⟩
        rw [List.map_cons, List.mem_cons]
        exact not_or.mpr ⟨Ne.symm hid, hfresh⟩

/-- A block that is neither hot nor cold cannot be read. -/
lemma readBlock_absent (hhot : base.block (sessionId, height) = none)
    (hcold : base.coldBlock (sessionId, height) = none) :
    base.readBlock env config sessionId height ≠ .ok source := by
  intro h
  simp [RocksSessionStore.readBlock, RocksSessionStore.blockBytes, resolveBlockBytes, hhot, hcold] at h

/-- Entries under the record's own ids are the record's own handoffs. -/
def OwnIssues (env : StoreEnv) (record : FinalisedBlockRecord) (handoffs : HandoffTable) : Prop :=
  ∀ id ∈ record.issuedHandoffs.map (·.id env.session), ∀ stored, handoffs id = some stored →
    stored.handoff ∈ record.issuedHandoffs

lemma OwnIssues.update (h : OwnIssues env record handoffs)
    (hid : id ∉ record.issuedHandoffs.map (·.id env.session)) (entry : Option StoredHandoff) :
    OwnIssues env record (update handoffs id entry) := by
  intro other hother stored hstored
  have hne : other ≠ id := fun heq => hid (heq ▸ hother)
  rw [update_of_ne hne] at hstored
  exact h other hother stored hstored

/-- A handoff issued by the block cannot also be consumed by it: consuming reads the issuing block,
    which is not there yet. -/
lemma consumeHandoff_notIssued (hown : OwnIssues env record state.2)
    (hsource : ∀ handoff ∈ record.issuedHandoffs, base.block
      (handoff.sourceSessionId, handoff.sourceHeight) = none ∧
        base.coldBlock (handoff.sourceSessionId, handoff.sourceHeight) = none)
    (h : consumeHandoff env base work config record state id = .ok after) :
    OwnIssues env record after.2 ∧ id ∉ record.issuedHandoffs.map (·.id env.session) := by
  obtain ⟨stored, _, _, hfull, -, -, -, hread, hafter⟩ := consumeHandoff_ok h
  have hid : id ∉ record.issuedHandoffs.map (·.id env.session) := by
    intro hmem
    obtain ⟨hhot, hcold⟩ := hsource _ (hown id hmem stored hfull)
    exact readBlock_absent hhot hcold hread
  exact ⟨hafter ▸ hown.update hid _, hid⟩

/-- Nor can it be acted on by the block: an action is about an earlier height. -/
lemma applyHandoffAction_notIssued (hown : OwnIssues env record handoffs)
    (hsource : ∀ handoff ∈ record.issuedHandoffs, handoff.sourceSessionId = config.sessionId ∧
      handoff.sourceHeight = record.block.number)
    (h : applyHandoffAction env base work config record handoffs action = .ok next) :
    OwnIssues env record next ∧
      action.action.handoffId ∉ record.issuedHandoffs.map (·.id env.session) := by
  obtain ⟨stored, lineage, _, hfull, -, hhandoff, hlineage, -, -, rfl⟩ := applyHandoffAction_ok h
  have hid : action.action.handoffId ∉ record.issuedHandoffs.map (·.id env.session) := by
    intro hmem
    obtain ⟨hsession, hheight⟩ := hsource _ (hown _ hmem stored hfull)
    simp only [validateHandoffAction, ResolvedHandoffAction.validateFor, eq_ok] at hlineage
    obtain ⟨⟨⟨-, hearlier⟩, -⟩, -⟩ := hlineage
    rw [hhandoff] at hsession hheight
    exact hearlier ⟨hsession, hheight ▸ UInt64.le_refl _⟩
  exact ⟨hown.update hid _, hid⟩

end Commit

/-- The handoffs a committed block issues, consumes and acts on are all different. -/
lemma handoffLabels_nodup (h : commitBlock env expected new record store = .ok next) :
    ((handoffLabels env.session record).map Prod.fst).Nodup := by
  obtain ⟨genesis, _, _, work, _, handoffs, _, _, hgenesis, ⟨hresources, hcommit, -⟩, -, ⟨hhot, hcold⟩,
    -, -, hhandoffs, -⟩ := commitBlock_ok h
  obtain ⟨-, hblock, -, -, hissued, hids, hconsumed⟩ := validateCommit_ok hcommit
  obtain ⟨hactions, hactionIds⟩ := validateResources_actions hresources
  simp only [commitHandoffs, bind_eq_ok] at hhandoffs
  obtain ⟨issued, hissue, consumed, hconsume, hact⟩ := hhandoffs
  have hown : OwnIssues env record issued := by
    intro id hmem stored hstored
    rcases issueHandoffs_ok hissue id with ⟨handoff, hhandoff, -, hentry⟩ | ⟨hfresh, -⟩
    · rw [hentry, Option.some_inj] at hstored
      exact hstored ▸ hhandoff
    · exact absurd hmem hfresh
  obtain ⟨hown', hconsumedNew⟩ := foldlM_invariant (I := fun state => OwnIssues env record state.2)
    (fun state id after hI hstep => consumeHandoff_notIssued hI (fun handoff hmem => by
      obtain ⟨hsession, hheight⟩ := hissued handoff hmem
      rw [hsession, hheight]
      exact ⟨hhot, hcold⟩) hstep) hown hconsume
  obtain ⟨-, hactionNew⟩ := foldlM_invariant (I := OwnIssues env record)
    (fun table action after hI hstep => applyHandoffAction_notIssued hI (fun handoff hmem => by
      rw [loadGenesis_sessionId hgenesis]
      exact hissued handoff hmem) hstep) hown' hact
  simp only [handoffLabels, List.map_append, List.map_map, comp_def]
  rw [List.map_id']
  refine (hids.append hconsumed ?_).append hactionIds ?_
  · intro id hid hmem
    exact hconsumedNew id hmem hid
  · intro id hid hmem
    obtain ⟨action, haction, rfl⟩ := List.mem_map.mp hmem
    rcases List.mem_append.mp hid with hold | hold
    · exact hactionNew action haction hold
    · exact (hactions action haction).2 hold

end Myelin.Store
