/-
  One block of the transfer application.

  The executor changes its state command by command; the store changes the ledger once.  `midway` is
  the ledger as the commands so far account for it: a command takes ONE handoff off the agenda of
  the block, and `midway` changes at that handoff alone.  So a block is a run of escrow moves, and
  what the escrow invariant says of each holds of the whole (`block_sound`).
-/
import Myelin.Transfer.Refinement

namespace Myelin.Transfer

open Lib Consensus Session Store Function

/-- Handoffs a block has still to deal with. -/
structure Agenda where
  issued : List SessionHandoff
  consumed : List Hash32
  actions : List ResolvedHandoffAction

/-- What the block will have done to them. -/
def Agenda.labels (env : SessionEnv) (block : HandoffBlockReference) (agenda : Agenda) :
    List (Hash32 × HandoffEvent) :=
  agenda.issued.map (fun handoff => (handoff.id env, .issue handoff block)) ++
    agenda.consumed.map (fun id => (id, .consume block)) ++
    agenda.actions.map (fun action => (action.action.handoffId, .act action block))

/-- The ledger part way through a block. -/
def midway (left : List (Hash32 × HandoffEvent)) (before after : HandoffTable) : HandoffTable :=
  fun id => if id ∈ left.map Prod.fst then before id else after id

/-- The events that lead from one ledger to another, one for each handoff. -/
structure Due (env : SessionEnv) (before after : HandoffTable)
    (left : List (Hash32 × HandoffEvent)) : Prop where
  nodup : (left.map Prod.fst).Nodup
  moves : ∀ label ∈ left, HandoffMove env (before label.1) label.2 (after label.1)

/-- One event happens. -/
lemma Due.take {env : SessionEnv} {before after : HandoffTable}
    {left rest : List (Hash32 × HandoffEvent)} {id : Hash32} {event : HandoffEvent}
    (h : Due env before after left) (hperm : left.Perm ((id, event) :: rest)) :
    Due env before after rest ∧ HandoffMove env (midway left before after id) event (after id) ∧
      midway rest before after = update (midway left before after) id (after id) := by
  have hids : (left.map Prod.fst).Perm (id :: rest.map Prod.fst) := hperm.map Prod.fst
  obtain ⟨hfresh, hnodup⟩ := List.nodup_cons.mp (hids.nodup_iff.mp h.nodup)
  have hmem : (id, event) ∈ left := hperm.mem_iff.mpr List.mem_cons_self
  refine ⟨⟨hnodup, fun label hlabel => ?_⟩, ?_, ?_⟩
  · exact h.moves label (hperm.mem_iff.mpr (List.mem_cons_of_mem _ hlabel))
  · rw [midway, if_pos (hids.mem_iff.mpr List.mem_cons_self)]
    exact h.moves (id, event) hmem
  · funext other
    by_cases hother : other = id
    · subst hother
      rw [update_self, midway, if_neg hfresh]
    · rw [update_of_ne hother]
      simp only [midway, hids.mem_iff, List.mem_cons, hother, false_or]

/-- The queues of the executor hold exactly what is on the agenda. -/
structure Scheduled (ledger : HandoffTable) (sessionId : Hash32) (agenda : Agenda)
    (cursor : TransferExecutor.Cursor) : Prop where
  issued : cursor.issued = agenda.issued.map intentFromHandoff
  incoming : List.Forall₂ (fun id handoff => ∃ stored, ledger id = some stored ∧
    stored.handoff = handoff) agenda.consumed cursor.incoming
  lifecycle : cursor.lifecycle = agenda.actions
  own : ∀ handoff ∈ agenda.issued, handoff.sourceSessionId = sessionId

/-- Where a block stands after some of its commands. -/
structure Underway (env : TransferEnv) (heads : Hash32 → Option SessionHead)
    (states : Hash32 → Option TransferState) (before after : HandoffTable) (sessionId : Hash32)
    (block : HandoffBlockReference) (agenda : Agenda) (cursor : TransferExecutor.Cursor) : Prop where
  due : Due env.session before after (agenda.labels env.session block)
  scheduled : Scheduled before sessionId agenda cursor
  sound : Sound env heads (update states sessionId (some cursor.state))
    (midway (agenda.labels env.session block) before after)

section Step

variable {env : TransferEnv} {heads : Hash32 → Option SessionHead}
  {states : Hash32 → Option TransferState} {before after : HandoffTable} {sessionId : Hash32}
  {block : HandoffBlockReference} {agenda : Agenda} {cursor next : TransferExecutor.Cursor}
  {executor : TransferExecutor}

/-- What all sessions hold together, with a block half done. -/
noncomputable def worth (env : TransferEnv) (asset : AssetId) (states : Hash32 → Option TransferState)
    (ledger : HandoffTable) : Nat :=
  (escrow asset states ledger).value (PendingLock.Backs env) (PendingLock.held asset)

lemma worth_eq (h : Sound env heads states ledger)
    (hmove : TransferMove env asset (escrow asset states ledger) (escrow asset states' ledger')) :
    worth env asset states' ledger' = worth env asset states ledger :=
  hmove.value_eq (h.backed asset)

variable (env heads states before after sessionId block agenda cursor) in
/-- A block has come further, and all sessions hold the same together. -/
def Carried (agenda' : Agenda) (next : TransferExecutor.Cursor) : Prop :=
  Underway env heads states before after sessionId block agenda' next ∧
    ∀ asset, worth env asset (update states sessionId (some next.state))
        (midway (agenda'.labels env.session block) before after) =
      worth env asset (update states sessionId (some cursor.state))
        (midway (agenda.labels env.session block) before after)

/-- A command has dealt with one handoff. -/
lemma Underway.take (h : Underway env heads states before after sessionId block agenda cursor)
    {id : Hash32} {event : HandoffEvent} {stored : StoredHandoff} {agenda' : Agenda}
    (hperm : (agenda.labels env.session block).Perm ((id, event) :: agenda'.labels env.session block))
    (hscheduled : Scheduled before sessionId agenda' next) (hstored : after id = some stored)
    (hstep : Moved env heads (update states sessionId (some cursor.state))
      (midway (agenda.labels env.session block) before after)
      (update (update states sessionId (some cursor.state)) sessionId (some next.state))
      (update (midway (agenda.labels env.session block) before after) id (some stored))) :
    Carried env heads states before after sessionId block agenda cursor agenda' next := by
  obtain ⟨hdue, -, hmidway⟩ := h.due.take hperm
  rw [← hstored, ← hmidway, update_idem] at hstep
  exact ⟨⟨hdue, hscheduled, hstep.sound⟩, fun asset => worth_eq h.sound (hstep.move asset)⟩

/-- One command. -/
lemma Underway.advance (h : Underway env heads states before after sessionId block agenda cursor)
    (hbinding : executor.binding.sessionId = sessionId)
    (hadvance : TransferExecutor.Advances env executor cursor next) (hvalid : next.state.Valid) :
    ∃ agenda', Carried env heads states before after sessionId block agenda cursor agenda' next ∧
      Evolves cursor.state.accounts next.state.accounts := by
  obtain ⟨hissued, hincoming, hlifecycle, hown⟩ := h.scheduled
  obtain ⟨issued, consumed, actions⟩ := agenda
  have hstate : update states sessionId (some cursor.state) sessionId = some cursor.state :=
    update_self ..
  obtain ⟨hold, hkind, -⟩ := h.sound.valid hstate
  cases hadvance with
  | issue hqueue hincoming' hlifecycle' hissue =>
    rw [hqueue] at hissued
    obtain ⟨handoff, rest, hlist, rfl, hrest⟩ := List.map_eq_cons_iff.mp hissued.symm
    obtain rfl : issued = handoff :: rest := hlist
    have hperm : ((⟨handoff :: rest, consumed, actions⟩ : Agenda).labels env.session block).Perm
        ((handoff.id env.session, .issue handoff block) ::
          (⟨rest, consumed, actions⟩ : Agenda).labels env.session block) := .refl _
    obtain ⟨hnone, hsome⟩ := (h.due.take hperm).2.1.of_issue
    have hsource := hown handoff List.mem_cons_self
    have hstep := issue_sound h.sound hstate block hbinding hsource rfl hnone hvalid hissue
    obtain ⟨_, _, -, -, -, -, -, -, -, -, -, hevolves⟩ := TransferState.issue_ok hold hkind hissue
    refine ⟨_, h.take hperm ⟨hrest.symm, ?_, ?_, fun other hother => ?_⟩ hsome hstep, hevolves⟩
    · rwa [hincoming']
    · exact hlifecycle'.trans hlifecycle
    · exact hown other (List.mem_cons_of_mem _ hother)
  | intake hqueue hissued' hlifecycle' hintake =>
    rw [hqueue] at hincoming
    obtain ⟨id, ids, ⟨stored, hstored, rfl⟩, hrest, rfl⟩ := List.forall₂_cons_right_iff.mp hincoming
    have hperm : ((⟨issued, id :: ids, actions⟩ : Agenda).labels env.session block).Perm
        ((id, .consume block) :: (⟨issued, ids, actions⟩ : Agenda).labels env.session block) := by
      simp only [Agenda.labels, List.map_cons, List.append_assoc, List.cons_append]
      exact List.perm_middle
    obtain ⟨found, hfound, hterminal, hsome⟩ := (h.due.take hperm).2.1.of_consume
    -- what the store had before the block is what it has half way through
    obtain rfl : found = stored := by
      have hmem : id ∈ ((⟨issued, id :: ids, actions⟩ : Agenda).labels env.session block).map
          Prod.fst := (hperm.map Prod.fst).mem_iff.mpr List.mem_cons_self
      rw [midway, if_pos hmem, hstored, Option.some_inj] at hfound
      exact hfound.symm
    have hstep := intake_sound h.sound hstate block hfound hterminal hvalid hintake
    obtain ⟨_, _, -, -, -, -, -, -, hevolves⟩ := TransferState.intake_ok hold hkind hintake
    refine ⟨_, h.take hperm ⟨?_, hrest, ?_, hown⟩ hsome hstep, hevolves⟩
    · exact hissued'.trans hissued
    · exact hlifecycle'.trans hlifecycle
  | @lifecycle action _ _ hqueue hissued' hincoming' hlifecycleStep =>
    obtain rfl : actions = action :: next.lifecycle := hlifecycle.symm.trans hqueue
    have hperm :
        ((⟨issued, consumed, action :: next.lifecycle⟩ : Agenda).labels env.session block).Perm
        ((action.action.handoffId, .act action block) ::
          (⟨issued, consumed, next.lifecycle⟩ : Agenda).labels env.session block) := by
      simp only [Agenda.labels, List.map_cons]
      exact List.perm_middle
    obtain ⟨stored, terminal, hfound, hchecks, hterminal, hsome⟩ := (h.due.take hperm).2.1.of_act
    simp only [StoredHandoff.applyChecks, eq_ok] at hchecks
    obtain ⟨-, -, -, hhandoff⟩ := hchecks
    have hstep := lifecycle_sound h.sound hstate hfound hhandoff hterminal hvalid hlifecycleStep
    obtain ⟨_, _, -, -, -, -, -, -, -, hevolves⟩ := TransferState.lifecycle_ok hold hlifecycleStep
    refine ⟨_, h.take hperm ⟨?_, ?_, rfl, hown⟩ hsome hstep, hevolves⟩
    · exact hissued'.trans hissued
    · rwa [hincoming']
  | continued hsame hissued' hincoming' hlifecycle' =>
    refine ⟨⟨issued, consumed, actions⟩, ⟨⟨h.due, ⟨hissued'.trans hissued, ?_,
      hlifecycle'.trans hlifecycle, hown⟩, hsame ▸ h.sound⟩, fun asset => by rw [hsame]⟩, ?_⟩
    · rwa [hincoming']
    · rw [hsame]
      exact .refl _

variable {context : ProtocolEffectsContext} {successor : Option SessionConfig}
  {commands : List TransferCommand}

/-- All commands. -/
lemma Underway.run (h : Underway env heads states before after sessionId block agenda cursor)
    (hbinding : executor.binding.sessionId = sessionId)
    (hrun : commands.foldlM (executor.executeCommand env context successor) cursor = .ok next) :
    ∃ agenda', Carried env heads states before after sessionId block agenda cursor agenda' next ∧
      Evolves cursor.state.accounts next.state.accounts := by
  induction commands generalizing cursor agenda with
  | nil =>
    rw [List.foldlM_nil, pure_eq_ok] at hrun
    subst hrun
    exact ⟨agenda, ⟨h, fun _ => rfl⟩, .refl _⟩
  | cons command rest ih =>
    rw [List.foldlM_cons, bind_eq_ok] at hrun
    obtain ⟨middle, hstep, hrest⟩ := hrun
    obtain ⟨hadvance, hvalid⟩ := TransferExecutor.executeCommand_ok hstep
    obtain ⟨agenda₁, ⟨hmiddle, hworth₁⟩, hevolves₁⟩ := h.advance hbinding hadvance hvalid
    obtain ⟨agenda₂, ⟨hlast, hworth₂⟩, hevolves₂⟩ := ih hmiddle hrest
    exact ⟨agenda₂, ⟨hlast, fun asset => (hworth₂ asset).trans (hworth₁ asset)⟩,
      hevolves₁.trans hevolves₂⟩

/-- A block that leaves nothing on its agenda. -/
lemma block_sound (h : Sound env heads states before)
    (hstate : states sessionId = some cursor.state)
    (hbinding : executor.binding.sessionId = sessionId)
    (hdue : Due env.session before after (agenda.labels env.session block))
    (hrest : ∀ id, id ∉ (agenda.labels env.session block).map Prod.fst → after id = before id)
    (hscheduled : Scheduled before sessionId agenda cursor)
    (hrun : commands.foldlM (executor.executeCommand env context successor) cursor = .ok next)
    (hempty : next.issued = [] ∧ next.incoming = [] ∧ next.lifecycle = []) :
    Sound env heads (update states sessionId (some next.state)) after ∧
      (∀ asset, worth env asset (update states sessionId (some next.state)) after =
        worth env asset states before) ∧
      Evolves cursor.state.accounts next.state.accounts := by
  have hself : update states sessionId (some cursor.state) = states := by
    rw [← hstate, update_eq_self]
  have hstart : midway (agenda.labels env.session block) before after = before := by
    funext id
    unfold midway
    split
    · rfl
    · exact hrest id ‹_›
  have hunderway : Underway env heads states before after sessionId block agenda cursor :=
    ⟨hdue, hscheduled, by rwa [hself, hstart]⟩
  obtain ⟨agenda', ⟨hlast, hworth⟩, hevolves⟩ := hunderway.run hbinding hrun
  -- every queue is empty, so nothing is left on the agenda
  obtain ⟨hissued, hincoming, hlifecycle⟩ := hempty
  have hdone : agenda'.labels env.session block = [] := by
    obtain ⟨hissued', hincoming', hlifecycle', -⟩ := hlast.scheduled
    rw [hissued, eq_comm, List.map_eq_nil_iff] at hissued'
    rw [hincoming, List.forall₂_nil_right_iff] at hincoming'
    rw [hlifecycle] at hlifecycle'
    simp [Agenda.labels, hissued', hincoming', ← hlifecycle']
  have hend : midway (agenda'.labels env.session block) before after = after := by
    rw [hdone]
    rfl
  have hsound := hlast.sound
  rw [hend] at hsound hworth
  rw [hself, hstart] at hworth
  exact ⟨hsound, hworth, hevolves⟩

end Step

end Myelin.Transfer
