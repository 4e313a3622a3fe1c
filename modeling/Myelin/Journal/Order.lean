/-
  The order a journal keeps, over any sequence of calls, answers, failed writes and restarts.

  What counts is the state ON DISK (`Host.state`): it is what a healthy journal has in memory, and
  what the next process starts from.  `Host.Stepped.advance` says how one event can move it, whatever
  the write did; every property of a whole history is then an induction over the events.

  A command that has crossed `begin_commit` comes back to the queue in one way only: the `submit`
  call that crossed it is still in flight and its committer says that the candidate was stale.
-/
import Myelin.Journal.Durability

namespace Myelin.Journal

open Lib Consensus Session Myelin.Authority Producer

variable {next : State} {journal : CommandJournal} {policy : FencingPolicy} {token : UInt64}
  {n : Nat} {entry : JournalEntry}

/-! ## The state on disk -/

section Advance

variable {env : JournalEnv} {config : SessionConfig} {limits : JournalLimits}

/-- The state that reopening the database would give. -/
def Database.state (env : JournalEnv) (db : Database) : Option State :=
  db.record.value.bind fun bytes => (decode env bytes).toOption

/-- The state on disk, whether or not the journal is open. -/
def Host.state (env : JournalEnv) (host : Host) : Option State := host.db.state env

/-- How an event moves the state on disk. -/
inductive Advance (env : JournalEnv) (calls : List UInt64) (event : Event) :
    Option State → Option State → Prop where
  | keep (state : Option State) : Advance env calls event state state
  /-- The journal is created. -/
  | create {next : State} (hempty : next.entries = []) (hfree : next.reservation = none) :
      Advance env calls event none (some next)
  /-- The policy of a journal without entries is pinned. -/
  | pin {state next : State} (hempty : state.entries = []) (hentries : next.entries = [])
      (hfree : next.reservation = none) (htoken : next.nextToken = state.nextToken) :
      Advance env calls event (some state) (some next)
  | change {state next : State} {request : Request} (hasks : event.Asks calls request)
      (hvalid : validate env state = .ok ()) (happly : request.apply env state = .ok next) :
      Advance env calls event (some state) (some next)

variable {db : Database}

lemma Database.state_of_value (hjson : env.RoundTrips) {bytes : List UInt8} {state : State}
    (hvalue : db.record.value = some bytes) (haccepted : Accepted env config limits bytes state) :
    db.state env = some state := by
  simp [Database.state, hvalue, decode_journalBytes hjson haccepted.encoded haccepted.valid,
    Except.toOption]

/-- A write, failed or not, leaves the new state or the old one. -/
lemma Database.state_persist (hjson : env.RoundTrips) (db : Database) (write : WriteOutcome)
    (haccepted : Accepted env config limits bytes next) :
    (db.persist write bytes).state env = some next ∨
      (db.persist write bytes).state env = db.state env := by
  rcases db.record.put_value write bytes with hnew | hold
  · exact .inl (Database.state_of_value hjson hnew haccepted)
  · refine .inr ?_
    rw [Database.state, Database.state, ← hold]
    rfl

/-- An update leaves the state on disk alone, or replaces it by what `f` made of it. -/
lemma CommandJournal.Updated.state {α : Type} {f : State → Except JournalError (α × State)}
    {result : Except JournalError α × CommandJournal} (h : Updated env f journal write result)
    (hjson : env.RoundTrips) (hjournal : journal.Sound env config limits) (hf : Keeps env f) :
    result.2.db.state env = journal.db.state env ∨
      ∃ a next, journal.db.state env = some journal.state ∧
        validate env journal.state = .ok () ∧ f journal.state = .ok (a, next) ∧
        result.2.db.state env = some next := by
  -- Both kinds of write end in the same two ways.
  have hwritten : ∀ {a next bytes}, journal.Healthy → f journal.state = .ok (a, next) →
      encodeUpdate env journal.state next = .ok bytes → ∀ write,
      (journal.db.persist write bytes).state env = journal.db.state env ∨
        ∃ a next, journal.db.state env = some journal.state ∧
          validate env journal.state = .ok () ∧ f journal.state = .ok (a, next) ∧
          (journal.db.persist write bytes).state env = some next := by
    intro a next bytes hhealthy hnext hbytes write
    obtain ⟨old, hvalue, hold⟩ := hjournal.synced hhealthy.1
    have hnew := hold.next hbytes (hf _ _ _ hold.valid hnext)
    rcases Database.state_persist hjson journal.db write hnew with hstate | hstate
    · exact .inr ⟨a, next, Database.state_of_value hjson hvalue hold, hold.valid, hnext, hstate⟩
    · exact .inl hstate
  cases h with
  | blocked | refused | unchanged => exact .inl rfl
  | stored hhealthy hnext hbytes => exact hwritten hhealthy hnext hbytes .done
  | uncertain hhealthy hnext hbytes => exact hwritten hhealthy hnext hbytes _

variable {result : Except JournalError CommandJournal × Database}

/-- Opening changes nothing on disk unless there is no journal yet. -/
lemma Opened.state (h : Opened env config limits db result) (hjson : env.RoundTrips) :
    result.2.state env = db.state env ∨ db.state env = none ∧ result.2.state env =
      some (.initial (.fromConfig env.authority.session config) limits) := by
  have hnone : db.record.value = none → db.state env = none :=
    fun hempty => by rw [Database.state, hempty]; rfl
  cases h with
  | refused | found => exact .inl rfl
  | created hempty hnew => exact .inr ⟨hnone hempty, Database.state_of_value hjson rfl hnew⟩
  | uncertain hempty hnew =>
    rcases Database.state_persist hjson db (.failed _ _) hnew with hstate | hstate
    · exact .inr ⟨hnone hempty, hstate⟩
    · exact .inl hstate

lemma pinPolicy_ok (h : pinPolicy policy state = .ok ((), next)) :
    next = state ∨ state.entries = [] ∧ state.reservation = none ∧
      next = { state with fencingPolicy := some policy } := by
  unfold pinPolicy at h
  split at h <;> simp only [eq_ok, Prod.mk.injEq, true_and] at h
  · exact .inl h.2.symm
  · exact .inr ⟨h.1.1, h.1.2.1, h.2.symm⟩

variable (hjson : env.RoundTrips)
include hjson

lemma Opened.advance (h : Opened env config limits db result)
    (calls : List UInt64) (event : Event) :
    Advance env calls event (db.state env) (result.2.state env) := by
  rcases h.state hjson with hsame | ⟨hnone, hnew⟩
  · exact hsame ▸ .keep _
  · rw [hnone, hnew]
    exact .create rfl rfl

/-- Pinning comes after opening, and may be the second write of one event. -/
lemma Opened.pinned_advance {result : Except JournalError Unit × CommandJournal}
    (h : Opened env config limits db (.ok journal, journal.db))
    (hdb : db.Sound env config limits)
    (hpin : CommandJournal.Updated env (pinPolicy policy) journal pin result) (calls : List UInt64)
    (event : Event) : Advance env calls event (db.state env) (result.2.db.state env) := by
  rcases hpin.state hjson (h.sound hjson hdb) (keeps_pinPolicy policy) with
    hsame | ⟨_, next, hstate, -, hpolicy, hnew⟩
  · exact hsame ▸ h.advance hjson calls event
  · rw [hnew]
    rcases h.state hjson with hsame | ⟨hnone, hcreated⟩
    · rw [hsame.symm.trans hstate]
      rcases pinPolicy_ok hpolicy with rfl | ⟨hempty, hfree, rfl⟩
      · exact .keep _
      · exact .pin hempty hempty hfree rfl
    · rw [hnone]
      have hinitial := Option.some.inj (hstate.symm.trans hcreated)
      rw [hinitial] at hpolicy
      rcases pinPolicy_ok hpolicy with rfl | ⟨-, -, rfl⟩ <;> exact .create rfl rfl

/-- What one event does to the state on disk. -/
lemma Host.Stepped.advance {host : Host} {result : Except JournalError Unit × Host}
    (hcases : Host.Stepped env config limits event host result)
    (h : host.Sound env config limits) :
    Advance env host.calls event (host.state env) (result.2.state env) := by
  cases hcases with
  | started _ _ hstarted =>
    cases hstarted with
    | refused hopened | opened hopened => exact hopened.advance hjson _ event
    | unpinned hopened hpin | pinned hopened hpin =>
      exact hopened.pinned_advance hjson h hpin _ event
  | down | closed | panicked | kept => exact .keep _
  | @asked journal calls _ request _ _ hasks hupdated =>
    rcases hupdated.state hjson h (keeps_request request) with
      hsame | ⟨_, next, hold, hvalid, happly, hnew⟩
    · exact (show Host.state env (.running _ _) = journal.db.state env from hsame) ▸ .keep _
    · obtain ⟨_, happly, hpair⟩ := map_eq_ok.mp happly
      cases hpair
      rw [Host.state, Host.state, Host.db, Host.db, hold, hnew]
      exact .change hasks hvalid happly

end Advance

/-! ## What one event keeps -/

section Keeps

variable {env : JournalEnv} {calls : List UInt64} {event : Event}

/-- Whether a call is one of the fenced ones. -/
def Operation.IsFenced : Operation → Prop
  | .beginFencedCommit _ _ _ _ _ | .reconcileFenced _ _ _ => True
  | _ => False

/-- Whether an event is a fenced call. -/
def Event.IsFenced : Event → Prop
  | .operate operation _ => operation.IsFenced
  | _ => False

/-- A receipt and an outcome, once known, stay. -/
def EntryStatus.KeepsOutcome (old new : EntryStatus) : Prop :=
  ∀ receipt outcome acknowledged, old = .committed receipt (some outcome) acknowledged →
    ∃ acknowledged', new = .committed receipt (some outcome) acknowledged'

/-- The statuses of a command that has crossed `begin_commit` under a token and was not released. -/
def EntryStatus.Crossed (token : UInt64) : EntryStatus → Prop
  | .reserved found phase => found = token ∧ phase ≠ .held
  | .rejected _ | .committed _ _ _ | .identityConflict _ => True
  | .queued | .stale _ => False

variable {cause : Cause}

lemma StatusMove.keepsOutcome (h : StatusMove cause old new) : old.KeepsOutcome new := by
  rintro receipt outcome acknowledged rfl
  cases h with
  | keep => exact ⟨acknowledged, rfl⟩
  | acknowledge => exact ⟨true, rfl⟩
  | commit _ _ _ _ hopen | conflict _ _ _ hopen => exact absurd trivial hopen

/-- Only a stale answer for its own token takes a crossed command back. -/
lemma StatusMove.crossed (h : StatusMove cause old new)
    (hcause : ∀ found, cause ≠ .observation found) (hold : old.Crossed token) :
    new.Crossed token ∨ cause = .staleAnswer token := by
  cases h with
  | keep => exact .inl hold
  | stale | refuse | reserve | retry => exact hold.elim
  | release => exact absurd rfl hold.2
  | rephase _ _ _ hphase => exact .inl ⟨hold.1, hphase⟩
  | reject | commit | conflict | acknowledge => exact .inl trivial
  | requeue found => exact .inr (hold.1 ▸ rfl)
  | revoke found => exact absurd rfl (hcause found)

lemma EntryStatus.KeepsOutcome.refl (status : EntryStatus) : status.KeepsOutcome status :=
  fun _ _ acknowledged h => ⟨acknowledged, h⟩

lemma EntryStatus.KeepsOutcome.trans {first second : EntryStatus} (h₁ : first.KeepsOutcome second)
    (h₂ : second.KeepsOutcome third) : first.KeepsOutcome third := by
  intro receipt outcome acknowledged hfirst
  obtain ⟨_, hsecond⟩ := h₁ receipt outcome acknowledged hfirst
  exact h₂ receipt outcome _ hsecond

/-- What holds between a state and any later one. -/
structure State.Precedes (state next : State) : Prop where
  tokens : state.nextToken ≤ next.nextToken
  entries : ∀ (n : Nat) (entry : JournalEntry), state.entries[n]? = some entry →
    ∃ later : JournalEntry, next.entries[n]? = some later ∧ later.original = entry.original ∧
      entry.status.KeepsOutcome later.status

lemma State.Precedes.refl (state : State) : state.Precedes state :=
  ⟨UInt64.le_refl _, fun _ entry h => ⟨entry, h, rfl, .refl _⟩⟩

lemma State.Precedes.trans {first second : State} (h₁ : first.Precedes second)
    (h₂ : second.Precedes third) : first.Precedes third := by
  refine ⟨UInt64.le_trans h₁.tokens h₂.tokens, ?_⟩
  intro n entry hentry
  obtain ⟨middle, hmiddle, hsame, hkept⟩ := h₁.entries n entry hentry
  obtain ⟨later, hlater, hsame', hkept'⟩ := h₂.entries n middle hmiddle
  exact ⟨later, hlater, hsame'.trans hsame, hkept.trans hkept'⟩

/-- Every entry is still at its place. -/
lemma Evolves.getElem? {entries next : List JournalEntry} (h : Evolves cause entries next)
    (hentry : entries[n]? = some entry) :
    ∃ later, next[n]? = some later ∧ EntryMove cause entry later := by
  obtain ⟨kept, added, rfl, hmoves, -⟩ := h
  obtain ⟨later, hlater, hmove⟩ := forall₂_getElem? hmoves hentry
  exact ⟨later, (List.getElem?_append_left (List.getElem?_eq_some_iff.mp hlater).1).trans hlater, hmove⟩

variable {state : State}

lemma Change.precedes (h : Change cause state next) : state.Precedes next := by
  refine ⟨h.tokens, ?_⟩
  intro n entry hentry
  obtain ⟨_, hlater, status, rfl, hmove⟩ := h.entries.getElem? hentry
  exact ⟨_, hlater, rfl, hmove.keepsOutcome⟩

/-- A state on disk is followed by one it precedes. -/
lemma Advance.precedes (h : Advance env calls event (some state) after) :
    ∃ next, after = some next ∧ state.Precedes next := by
  cases h with
  | keep => exact ⟨state, rfl, .refl state⟩
  | pin hempty _ _ htoken =>
    refine ⟨_, rfl, UInt64.le_of_eq htoken.symm, ?_⟩
    intro n entry hentry
    rw [hempty] at hentry
    cases hentry
  | change _ hvalid happly => exact ⟨_, rfl, (Request.change hvalid happly).precedes⟩

/-- Only the answer of the call in flight takes a crossed command back. -/
lemma Advance.crossed (h : Advance env calls event (some state) (some next))
    (hunfenced : ¬event.IsFenced) (hentry : state.entries[n]? = some entry)
    (hcrossed : entry.status.Crossed token) (hlater : next.entries[n]? = some later) :
    later.status.Crossed token ∨ token ∈ calls ∧
      ∃ write, event = .answer token (.error .staleCandidate) write := by
  cases h with
  | keep =>
    rw [hentry, Option.some.injEq] at hlater
    exact .inl (hlater ▸ hcrossed)
  | pin hempty =>
    rw [hempty] at hentry
    cases hentry
  | @change _ _ request hasks hvalid happly =>
    obtain ⟨_, hfound, status, rfl, hmove⟩ :=
      (Request.change hvalid happly).entries.getElem? hentry
    rw [hlater, Option.some.injEq] at hfound
    subst hfound
    cases hasks with
    | operate operation write =>
      have hcause : operation.cause = .call := by
        cases operation with
        | reconcileFenced => exact absurd trivial hunfenced
        | _ => rfl
      rw [Request.cause, hcause] at hmove
      rcases hmove.crossed nofun hcrossed with hstill | hstale
      · exact .inl hstill
      · cases hstale
    | submit =>
      rcases hmove.crossed nofun hcrossed with hstill | hstale
      · exact .inl hstill
      · cases hstale
    | answer found error write hflight =>
      cases error with
      | staleCandidate =>
        rcases hmove.crossed nofun hcrossed with hstill | hstale
        · exact .inl hstill
        · cases hstale
          exact .inr ⟨hflight, write, rfl⟩
      | rejected | outcomeUnknown =>
        rcases hmove.crossed nofun hcrossed with hstill | hstale
        · exact .inl hstill
        · cases hstale

/-- A reservation goes on, or is made for the first commands of the queue with the next token. -/
lemma Advance.reservation (h : Advance env calls event before (some next))
    (hnew : next.reservation = some new) :
    ∃ state, before = some state ∧ ((∃ old, state.reservation = some old ∧ new.SameWork old) ∨
      state.reservation = none ∧ new.token = state.nextToken ∧
        new.commandIds <+: (candidates state.entries).map JournalEntry.id) := by
  cases h with
  | keep => exact ⟨next, rfl, .inl ⟨new, hnew, rfl, rfl, rfl, rfl⟩⟩
  | create _ hfree | pin _ _ hfree =>
    rw [hfree] at hnew
    cases hnew
  | @change state _ _ _ hvalid happly =>
    refine ⟨state, rfl, ?_⟩
    rcases (Request.change hvalid happly).reservation with
      hnone | ⟨old, found, hold, hfound, hsame⟩ | ⟨hfree, found, hfound, htoken, hfirst⟩
    · rw [hnone] at hnew
      cases hnew
    · rw [hnew, Option.some.injEq] at hfound
      exact .inl ⟨old, hold, hfound ▸ hsame⟩
    · rw [hnew, Option.some.injEq] at hfound
      exact .inr ⟨hfree, hfound ▸ htoken, hfound ▸ hfirst⟩

end Keeps

/-! ## Histories -/

section History

variable (env : JournalEnv) (config : SessionConfig) (limits : JournalLimits) (otherKeys : Bool)
  (events : List Event)

/-- The host after so many of the events, from a directory without a journal. -/
def Host.after (k : Nat) : Host :=
  Host.run env config limits (events.take k) (.closed ⟨.empty, otherKeys⟩)

/-- The state on disk after so many of the events. -/
def Host.stateAfter (k : Nat) : Option State :=
  (Host.after env config limits otherKeys events k).state env

open Host (stateAfter)

variable {env config limits otherKeys events}

lemma Host.after_sound (hjson : env.RoundTrips) (k : Nat) :
    (Host.after env config limits otherKeys events k).Sound env config limits := by
  have hfresh : Host.Sound env config limits (.closed ⟨.empty, otherKeys⟩) :=
    Database.sound_fresh otherKeys
  exact Host.run_sound hjson hfresh _

lemma Host.stateAfter_succ (hjson : env.RoundTrips) (k : Nat) :
    stateAfter env config limits otherKeys events (k + 1) =
        stateAfter env config limits otherKeys events k ∨
      ∃ event, events[k]? = some event ∧
        Advance env (Host.after env config limits otherKeys events k).calls event
          (stateAfter env config limits otherKeys events k)
          (stateAfter env config limits otherKeys events (k + 1)) := by
  unfold stateAfter
  cases hevent : events[k]? with
  | none =>
    refine .inl ?_
    rw [Host.after, Host.after, List.take_add_one, hevent, Option.toList_none, List.append_nil]
  | some event =>
    refine .inr ⟨event, rfl, ?_⟩
    have hstep : Host.after env config limits otherKeys events (k + 1) =
        ((Host.after env config limits otherKeys events k).step env config limits event).2 := by
      rw [Host.after, Host.after, List.take_add_one, hevent, Host.run_append]
      rfl
    rw [hstep]
    exact (Host.stepped event _).advance hjson (Host.after_sound hjson k)

variable {state : State}

lemma Host.stateAfter_valid (hjson : env.RoundTrips)
    (h : stateAfter env config limits otherKeys events k = some state) :
    validate env state = .ok () := by
  have hsound : (Host.after env config limits otherKeys events k).Sound env config limits :=
    Host.after_sound hjson k
  obtain ⟨hsourced, hwritten⟩ := Host.Sound.database hsound
  obtain ⟨bytes, hvalue, -⟩ := Option.bind_eq_some_iff.mp h
  obtain ⟨found, haccepted⟩ := hwritten bytes (hsourced bytes hvalue)
  have hfound := Database.state_of_value hjson hvalue haccepted
  exact Option.some.inj (h.symm.trans hfound) ▸ haccepted.valid

lemma Host.stateAfter_precedes (hjson : env.RoundTrips) (hij : i ≤ j)
    (h : stateAfter env config limits otherKeys events i = some state) :
    ∃ next, stateAfter env config limits otherKeys events j = some next ∧ state.Precedes next := by
  induction j, hij using Nat.le_induction with
  | base => exact ⟨state, h, .refl state⟩
  | succ j _ ih =>
    obtain ⟨middle, hmiddle, hfirst⟩ := ih
    rcases Host.stateAfter_succ hjson j with hsame | ⟨event, -, hadvance⟩
    · exact ⟨middle, hsame.trans hmiddle, hfirst⟩
    · rw [hmiddle] at hadvance
      obtain ⟨next, hnext, hsecond⟩ := hadvance.precedes
      exact ⟨next, hnext, hfirst.trans hsecond⟩

/-- As long as no call in flight was told that its candidate is stale, a crossed command stays. -/
lemma Host.stateAfter_crossed (hjson : env.RoundTrips)
    (hunfenced : ∀ event ∈ events, ¬event.IsFenced) (hij : i ≤ j)
    (h : stateAfter env config limits otherKeys events i = some state)
    (hnext : stateAfter env config limits otherKeys events j = some next)
    (hentry : state.entries[n]? = some entry) (hcrossed : entry.status.Crossed token)
    (hlater : next.entries[n]? = some later) :
    later.status.Crossed token ∨ ∃ k write, i ≤ k ∧ k < j ∧
      token ∈ (Host.after env config limits otherKeys events k).calls ∧
      events[k]? = some (.answer token (.error .staleCandidate) write) := by
  induction j, hij using Nat.le_induction generalizing next later with
  | base =>
    cases h.symm.trans hnext
    cases hentry.symm.trans hlater
    exact .inl hcrossed
  | succ j hj ih =>
    obtain ⟨middle, hmiddle, hprecedes⟩ := Host.stateAfter_precedes hjson hj h
    obtain ⟨between, hbetween, -⟩ := hprecedes.entries n entry hentry
    rcases ih hmiddle hbetween with hstill | ⟨k, write, hik, hkj, hcall, hanswer⟩
    · rcases Host.stateAfter_succ hjson j with hsame | ⟨event, hevent, hadvance⟩
      · cases hmiddle.symm.trans (hsame.symm.trans hnext)
        cases hbetween.symm.trans hlater
        exact .inl hstill
      · rw [hmiddle, hnext] at hadvance
        have hplain := hunfenced event (List.mem_of_getElem? hevent)
        rcases hadvance.crossed hplain hbetween hstill hlater with
          hstill | ⟨hcall, write, rfl⟩
        · exact .inl hstill
        · exact .inr ⟨j, write, hj, Nat.lt_succ_self j, hcall, hevent⟩
    · exact .inr ⟨k, write, hik, Nat.lt_succ_of_lt hkj, hcall, hanswer⟩

lemma token_lt_of_valid (hvalid : validate env state = .ok ())
    (h : state.reservation = some reservation) : reservation.token < state.nextToken := by
  simp only [validate, validateUpdate, validateBody, validateReservation, h, eq_ok] at hvalid
  obtain ⟨⟨-, -, -, _, -, ⟨-, hlt, -⟩, -⟩, -⟩ := hvalid
  exact hlt

/-- Entries are numbered by their places. -/
lemma sequence_of_valid (hvalid : validate env state = .ok ())
    (h : state.entries[n]? = some entry) : entry.sequence.toNat = n := by
  simp only [validate, validateUpdate, validateBody, JournalLimits.validate, eq_ok] at hvalid
  obtain ⟨⟨⟨-, hmax, -⟩, ⟨hlength, -⟩, hentries, -⟩, -⟩ := hvalid
  have hsequence := (validateEntries_ok hentries h).sequence
  have hn : n < state.entries.length := (List.getElem?_eq_some_iff.mp h).1
  have hbound : maxEntries < 2 ^ 64 := by decide
  rw [hsequence, Nat.zero_add, UInt64.toNat_ofNat']
  exact Nat.mod_eq_of_lt (by omega)

/-- Journal order and single submission, in every history without fenced calls: entries are
    numbered in order and reserved exactly as the one reservation says; a reservation goes on or is
    made for the first commands of the queue, with a token above all earlier ones; originals never
    change; an outcome never changes; and a command that crossed `begin_commit` is queued again only
    if that call, in flight, was told that its candidate is stale. -/
theorem journal_order (env : JournalEnv) (hjson : env.RoundTrips) (config : SessionConfig)
    (limits : JournalLimits) (otherKeys : Bool) (events : List Event)
    (hunfenced : ∀ event ∈ events, ¬event.IsFenced) :
    let at' := stateAfter env config limits otherKeys events
    (∀ k, ∀ state ∈ at' k, (∀ (n : Nat) (entry : JournalEntry), state.entries[n]? = some entry →
        entry.sequence.toNat = n) ∧
      ∀ entry ∈ state.entries, ∀ token phase, entry.status = .reserved token phase →
        ∃ reservation, state.reservation = some reservation ∧ reservation.token = token ∧
          reservation.phase = phase ∧ entry.id ∈ reservation.commandIds) ∧
    (∀ k, ∀ next ∈ at' (k + 1), ∀ new ∈ next.reservation, ∃ state ∈ at' k,
      (∃ old ∈ state.reservation, new.SameWork old) ∨
      state.reservation = none ∧ new.commandIds <+: (candidates state.entries).map JournalEntry.id ∧
        ∀ i ≤ k, ∀ earlier ∈ at' i, ∀ old ∈ earlier.reservation, old.token < new.token) ∧
    (∀ i j, i ≤ j → ∀ state ∈ at' i, ∃ next ∈ at' j,
      ∀ (n : Nat) (entry : JournalEntry), state.entries[n]? = some entry →
        ∃ later : JournalEntry, next.entries[n]? = some later ∧ later.original = entry.original ∧
          (∀ receipt outcome acknowledged,
            entry.status = .committed receipt (some outcome) acknowledged →
              ∃ acknowledged', later.status = .committed receipt (some outcome) acknowledged') ∧
          ∀ token phase, entry.status = .reserved token phase → phase ≠ .held →
            later.status = .queued →
            ∃ k write, i ≤ k ∧ k < j ∧
              token ∈ (Host.after env config limits otherKeys events k).calls ∧
              events[k]? = some (.answer token (.error .staleCandidate) write)) := by
  intro at'
  refine ⟨?_, ?_, ?_⟩
  · intro k state hstate
    have hvalid := Host.stateAfter_valid hjson hstate
    refine ⟨fun n entry => sequence_of_valid hvalid, ?_⟩
    intro entry hentry token phase hstatus
    exact reserved_of_valid hvalid hentry hstatus
  · intro k next hnext new hnew
    have hadvance : ∃ state, at' k = some state ∧
        ((∃ old, state.reservation = some old ∧ new.SameWork old) ∨
          state.reservation = none ∧ new.token = state.nextToken ∧
            new.commandIds <+: (candidates state.entries).map JournalEntry.id) := by
      rcases Host.stateAfter_succ hjson k with hsame | ⟨event, -, hadvance⟩
      · exact ⟨next, hsame.symm.trans hnext, .inl ⟨new, hnew, rfl, rfl, rfl, rfl⟩⟩
      · rw [show stateAfter env config limits otherKeys events (k + 1) = some next from hnext]
          at hadvance
        exact hadvance.reservation hnew
    obtain ⟨state, hstate, hsame | ⟨hfree, htoken, hfirst⟩⟩ := hadvance
    · exact ⟨state, hstate, .inl hsame⟩
    · refine ⟨state, hstate, .inr ⟨hfree, hfirst, ?_⟩⟩
      intro i hik earlier hearlier old hold
      obtain ⟨found, hfound, hprecedes⟩ := Host.stateAfter_precedes hjson hik hearlier
      cases hfound.symm.trans hstate
      have hlt := token_lt_of_valid (Host.stateAfter_valid hjson hearlier) hold
      exact htoken ▸ UInt64.lt_of_lt_of_le hlt hprecedes.tokens
  · intro i j hij state hstate
    obtain ⟨next, hnext, hprecedes⟩ := Host.stateAfter_precedes hjson hij hstate
    refine ⟨next, hnext, ?_⟩
    intro n entry hentry
    obtain ⟨later, hlater, horiginal, hkept⟩ := hprecedes.entries n entry hentry
    refine ⟨later, hlater, horiginal, hkept, ?_⟩
    intro token phase hstatus hphase hqueued
    have hcrossed : entry.status.Crossed token := by
      rw [hstatus]
      exact ⟨rfl, hphase⟩
    rcases Host.stateAfter_crossed hjson hunfenced hij hstate hnext hentry hcrossed hlater with
      hstill | hanswer
    · rw [hqueued] at hstill
      exact hstill.elim
    · exact hanswer

end History

/-! One command is submitted on a head that has moved. -/

/-- The one reservation of the example. -/
def sampleReservation (phase : ReservationPhase) : Reservation :=
  ⟨1, (sampleHead.encode sampleAuthority.session).toOption.getD [], [sampleHash], [[9]], phase, none⟩

def sampleReserved (phase : ReservationPhase) : State :=
  { sampleFresh with
    nextToken := 2
    entries := [sampleEntry (.reserved 1 phase)]
    reservation := some (sampleReservation phase) }

def sampleReleased : State := { sampleQueued with nextToken := 2 }

def sampleSubmitEnv : JournalEnv :=
  tableEnv [sampleFresh, sampleQueued, sampleReserved .held, sampleReserved .submitting,
    sampleReleased]

def sampleSubmission : List Event :=
  [.open none .done .done, .operate (.enqueue sampleCommand fun _ => .ok ()) .done,
    .operate (.reserve sampleHead 1 1 (fun _ => .ok ()) fun _ _ => .ready [9]) .done,
    .submit 1 sampleHead .done,
    .answer 1 (.error .staleCandidate) .done]

/-- The command crossed, is queued again, and the history shows the answer. -/
theorem journal_order_sample :
    Host.stateAfter sampleSubmitEnv sampleConfig .default false sampleSubmission 4 =
      some (sampleReserved .submitting) ∧
    Host.stateAfter sampleSubmitEnv sampleConfig .default false sampleSubmission 5 =
      some sampleReleased ∧
    ∃ k write, 4 ≤ k ∧ k < 5 ∧
      1 ∈ (Host.after sampleSubmitEnv sampleConfig .default false sampleSubmission k).calls ∧
      sampleSubmission[k]? = some (.answer 1 (.error .staleCandidate) write) := by
  have hsubmitted : Host.stateAfter sampleSubmitEnv sampleConfig .default false sampleSubmission 4 =
      some (sampleReserved .submitting) := rfl
  have hreleased : Host.stateAfter sampleSubmitEnv sampleConfig .default false sampleSubmission 5 =
      some sampleReleased := rfl
  have hunfenced : ∀ event ∈ sampleSubmission, ¬event.IsFenced := by
    simp [sampleSubmission, Event.IsFenced, Operation.IsFenced]
  obtain ⟨-, -, hlater⟩ := journal_order sampleSubmitEnv (tableEnv_roundTrips _) sampleConfig
    .default false sampleSubmission hunfenced
  obtain ⟨next, hnext, hentries⟩ := hlater 4 5 (by decide) _ hsubmitted
  cases hreleased.symm.trans hnext
  obtain ⟨later, hentry, -, -, hcrossed⟩ :=
    hentries 0 (sampleEntry (.reserved 1 .submitting)) rfl
  cases hentry
  exact ⟨hsubmitted, hreleased, hcrossed 1 .submitting rfl (by decide) rfl⟩

end Myelin.Journal
