/-
  Reserving the commands themselves: `reserve_commands`, whose work for a command is its encoding.

  Admission bounds the three byte fields of a command one by one (`validate_command`).  A
  reservation bounds the WORK built for it by `max_command_bytes`, the bound of the first field.
  Here the work is the whole command, so five hashes, the kind, three length prefixes and the two
  other fields count against it as well.
-/
import Myelin.Journal.Order

namespace Myelin.Journal

open Lib Consensus Session Myelin.Authority Producer

/-! ## The encoded command -/

/-- A `postcard` varint: seven bits a byte, low bits first, in at most so many bytes. -/
def varint : Nat → Nat → List UInt8
  | 0, _ => []
  | bytes + 1, n =>
      if n < 128 then [UInt8.ofNat n] else UInt8.ofNat (n % 128 + 128) :: varint bytes (n / 128)

/-- A `postcard` byte string.  A length takes at most ten bytes. -/
def varintBytes (bytes : List UInt8) : List UInt8 := varint 10 bytes.length ++ bytes

/-- A command as `postcard::to_allocvec` writes it. -/
def OriginalCommand.postcard (command : OriginalCommand) : List UInt8 :=
  command.scope.sessionId.val ++ command.scope.genesisCommitment.val ++
    command.scope.applicationProfile.val ++ command.identity.id.val ++
    command.identity.payloadHash.val ++ [command.kind.byte] ++
    varintBytes command.canonicalCommand ++ varintBytes command.authenticationContext ++
    varintBytes command.authorization

/-- `application::encode` of a command. -/
def encodeCommand (command : OriginalCommand) : Except String (List UInt8) := do
  let _ ← (sizeWithLimit command.postcard "command_application_bytes" maxRecordBytes).mapError
    (·.display)
  pure command.postcard

/-- The work `reserve_commands` builds. -/
def buildCommand : Builder := fun original _ =>
  match encodeCommand original with
  | .ok bytes => .ready bytes
  | .error error => .rejected error

/-- Commands of one application frame. -/
def maxFrameCommands : Nat := 256

/-- Reserve queued commands as they are. -/
def CommandJournal.reserveCommands (env : JournalEnv) (write : WriteOutcome) (head : SessionHead)
    (maxCommands maxBytes : Nat) (auth : Authenticator) (journal : CommandJournal) :
    Except JournalError (Option Reservation) × CommandJournal :=
  journal.update env write
    (reserve env auth buildCommand head (min maxCommands maxFrameCommands) maxBytes)

/-- The state a reservation of commands leaves.  A picked command is in it twice: in its entry, and
    as the work of the reservation. -/
def State.reserving (state : State) (head : SessionHead) (maxCommands maxBytes : Nat)
    (auth : Authenticator) (constructionHead : List UInt8) : State :=
  let walk := reserveEntries auth buildCommand head state.limits state.nextToken
    (min maxCommands maxFrameCommands) maxBytes ⟨0, [], []⟩ state.entries
  { state with
    entries := walk.1
    nextToken := state.nextToken + 1
    reservation := some ⟨state.nextToken, constructionHead, walk.2.commandIds, walk.2.work, .held, none⟩ }

/-! ## The walk -/

section Walk

variable {env : JournalEnv} {auth : Authenticator} {build : Builder} {head : SessionHead}
  {limits : JournalLimits} {maxCommands maxWorkBytes : Nat} {selection : Selection}
  {work : List UInt8} {rest : List JournalEntry}

/-- Entries that are neither queued nor stale are passed over. -/
lemma reserveEntries_append
    (hearlier : ∀ other ∈ earlier, other.status ≠ .queued ∧ ¬other.status.IsStale) :
    reserveEntries auth build head limits token maxCommands maxWorkBytes selection
        (earlier ++ rest) =
      (reserveEntries auth build head limits token maxCommands maxWorkBytes selection rest).map
        (earlier ++ ·) id := by
  induction earlier with
  | nil => rfl
  | cons other earlier ih =>
    obtain ⟨⟨hqueued, hstale⟩, hearlier⟩ := List.forall_mem_cons.mp hearlier
    rw [List.cons_append, reserveEntries]
    split
    · next hstatus => exact absurd (hstatus ▸ trivial) hstale
    · next hstatus => exact absurd hstatus hqueued
    all_goals
      rw [ih hearlier]
      rfl

/-- Work that is refused, or is over the bound of a command, refuses the command. -/
lemma reserveEntries_refuse (hqueued : entry.status = .queued)
    (hbuild : (∃ reason, buildEntry auth build head entry = .rejected reason) ∨
      buildEntry auth build head entry = .ready work ∧ limits.maxCommandBytes < work.length) :
    ∃ reason, reserveEntries auth build head limits token maxCommands maxWorkBytes selection
      (entry :: rest) = (entry.withStatus (.rejected reason) :: rest, selection) := by
  rw [reserveEntries, hqueued]
  obtain ⟨reason, hbuild⟩ | ⟨hbuild, hlarge⟩ := hbuild
  · exact ⟨reason, by simp only [hbuild]⟩
  · simp only [hbuild]
    exact ⟨_, if_pos (.inr hlarge)⟩

/-- Work within the bounds is picked. -/
lemma mem_reserveEntries (hqueued : entry.status = .queued)
    (hbuild : buildEntry auth build head entry = .ready work) (hwork : work ≠ [])
    (hcommand : work.length ≤ limits.maxCommandBytes)
    (hsize : selection.bytes + work.length < 2 ^ 64)
    (hroom : selection.bytes + work.length ≤ maxWorkBytes) :
    entry.id ∈ (reserveEntries auth build head limits token maxCommands maxWorkBytes selection
      (entry :: rest)).2.commandIds := by
  rw [reserveEntries, hqueued]
  simp only [hbuild, hwork, Nat.not_lt.mpr hcommand, or_self, if_false,
    checkedAddSize_eq_some.mpr ⟨rfl, hsize⟩, Option.filter_some, hroom, decide_true, if_true]
  split
  · simp
  · exact (reserveEntries_walk _ rest).subset (List.mem_append_right _ (List.mem_singleton_self _))

end Walk

/-! ## The state it leaves -/

section Valid

variable {env : JournalEnv} {state next : State} {cause : Cause} {entries moved : List JournalEntry}

/-- Entries that keep their commands stay in order. -/
lemma validateEntries_moved (h : validateEntries env state place ids entries = .ok ())
    (hmoves : List.Forall₂ (EntryMove cause) entries moved)
    (hscope : next.scope = state.scope) (hlimits : next.limits = state.limits)
    (hstatus : ∀ entry ∈ moved, validateStatus next entry = .ok ()) :
    validateEntries env next place ids moved = .ok () := by
  induction hmoves generalizing place ids with
  | nil => rfl
  | cons hmove _ ih =>
    obtain ⟨status, rfl, -⟩ := hmove
    obtain ⟨hfirst, hlater⟩ := List.forall_mem_cons.mp hstatus
    simp only [validateEntries, validateCommand, eq_ok, hscope, hlimits] at h ⊢
    exact ⟨h.1, h.2.1, hfirst, ih h.2.2.2 hlater⟩

/-- Recoveries stay valid while no command goes and no token is given back. -/
lemma validateRecoveryList_moved
    (h : validateRecoveryList env state none place bindings recoveries = .ok ())
    (hmoves : List.Forall₂ (EntryMove cause) state.entries next.entries)
    (hscope : next.scope = state.scope) (hpolicy : next.fencingPolicy = state.fencingPolicy)
    (htokens : state.nextToken ≤ next.nextToken) :
    validateRecoveryList env next (some state) place bindings recoveries = .ok () := by
  induction recoveries generalizing place bindings with
  | nil => rfl
  | cons recovery rest ih =>
    simp only [validateRecoveryList, validateRecovery, FencedSubmission.validateStructure, eq_ok,
      checkEvidence_none] at h ⊢
    obtain ⟨bound, ⟨⟨hzero, hlt⟩, ⟨hsubmission, hcommands⟩, hevidence, hdigest⟩, hrest⟩ := h
    refine ⟨bound, ⟨⟨hzero, UInt64.lt_of_lt_of_le hlt htokens⟩,
      ⟨by rwa [hscope, hpolicy], fun pair hpair => ?_⟩, ?_, hdigest⟩, ih hrest⟩
    · obtain ⟨hid, entry, hentry, hidentity⟩ := hcommands pair hpair
      obtain ⟨_, hmem, _, rfl, -⟩ := forall₂_mem_left hmoves hentry
      exact ⟨hid, _, hmem, hidentity⟩
    · unfold checkEvidence
      split
      · rfl
      · exact hevidence

lemma validateEntries_nodup (h : validateEntries env state place ids entries = .ok ()) :
    (entries.map (·.id)).Nodup ∧ ∀ entry ∈ entries, entry.id ∉ ids := by
  induction entries generalizing place ids with
  | nil => exact ⟨.nil, nofun⟩
  | cons entry rest ih =>
    simp only [validateEntries, eq_ok] at h
    obtain ⟨-, ⟨-, hnew, -⟩, -, hrest⟩ := h
    obtain ⟨hnodup, hlater⟩ := ih hrest
    refine ⟨List.nodup_cons.mpr ⟨fun hmem => ?_, hnodup⟩, List.forall_mem_cons.mpr ⟨hnew, fun other
      hother hmem => hlater other hother (List.mem_cons_of_mem _ hmem)⟩⟩
    obtain ⟨other, hother, heq⟩ := List.mem_map.mp hmem
    exact hlater other hother (heq ▸ List.mem_cons_self)

/-- The state a reservation leaves is valid. -/
lemma reserve_valid (hvalid : validate env state = .ok ())
    (hhead : SessionHead.decode env.authority constructionHead = .ok head)
    (hscope : head.sessionId = state.scope.sessionId) (hunsealed : head.sealedBySuccessor = none)
    (hfree : state.reservation = none) (htoken : state.nextToken.toNat + 1 < 2 ^ 64)
    (hwalk : Walk state.limits state.nextToken ⟨0, [], []⟩ state.entries after)
    (hsome : after.2.commandIds ≠ []) :
    validateUpdate env { state with
      entries := after.1
      nextToken := state.nextToken + 1
      reservation := some ⟨state.nextToken, constructionHead, after.2.commandIds, after.2.work, .held,
        none⟩ } (some state) = .ok () := by
  have hnext : state.nextToken < state.nextToken + 1 := by
    rw [UInt64.lt_iff_toNat_lt, UInt64.toNat_add]
    exact (Nat.lt_succ_self _).trans_eq (Nat.mod_eq_of_lt htoken).symm
  have hnone : ∀ entry ∈ state.entries, ∀ token phase, entry.status ≠ .reserved token phase := by
    intro entry hentry token phase hstatus
    obtain ⟨_, hsome, -⟩ := reserved_of_valid hvalid hentry hstatus
    cases hfree.symm.trans hsome
  obtain ⟨picked, hpicked, hprefix⟩ := hwalk.commandIds
  obtain ⟨hworks, hbounds⟩ := hwalk.work rfl nofun
  have hheld : ∀ id ∈ after.2.commandIds, ∃ entry ∈ after.1, entry.id = id ∧
      entry.status = .reserved state.nextToken .held :=
    fun id hid => (hwalk.held hid).resolve_left List.not_mem_nil
  obtain ⟨id, hid⟩ := List.exists_mem_of_ne_nil _ hsome
  simp only [validate, validateUpdate, validateBody, validateRecoveries, eq_ok] at hvalid ⊢
  obtain ⟨⟨hlimits, ⟨hcount, hzero⟩, hentries, -⟩, hpolicy, hmany, hlist⟩ := hvalid
  refine ⟨⟨hlimits, ⟨hwalk.forall₂.length_eq ▸ hcount, ?_⟩,
    validateEntries_moved hentries hwalk.forall₂ rfl rfl fun entry hentry => ?_, ?_⟩, hpolicy, hmany,
    validateRecoveryList_moved hlist hwalk.forall₂ rfl rfl (UInt64.le_of_lt hnext)⟩
  · intro hwrapped
    rw [hwrapped] at hnext
    exact UInt64.not_lt_zero hnext
  · rcases hwalk.moved hentry with hold | ⟨reason, hstatus | hstatus⟩ | ⟨hstatus, hmem⟩
    · obtain ⟨place, hplace⟩ := List.getElem?_of_mem hold
      have hstatus := (validateEntries_ok hentries hplace).status
      cases hcase : entry.status with
      | reserved token phase => exact absurd hcase (hnone entry hold token phase)
      | queued | stale _ | rejected _ => simp only [validateStatus, hcase]
      | committed _ _ _ | identityConflict _ => simpa only [validateStatus, hcase] using hstatus
    · simp only [validateStatus, hstatus]
    · simp only [validateStatus, hstatus]
    · simp only [validateStatus, hstatus, eq_ok, findReservation_eq_ok]
      exact ⟨_, ⟨rfl, rfl⟩, hmem, rfl⟩
  · simp only [validateReservation, Reservation.baseHead, mapError_eq_ok, eq_ok]
    refine ⟨head, hhead, ⟨hzero, hnext, hsome, hworks, ?_, hscope, hunsealed, hbounds, ?_, ?_⟩, trivial⟩
    · have hids : (candidates state.entries).Sublist state.entries :=
        List.filter_sublist.trans (List.takeWhile_sublist _)
      exact hpicked ▸ (validateEntries_nodup hentries).1.sublist ( hprefix.sublist.trans (hids.map _))
    · intro id hid
      obtain ⟨entry, hmem, hentry, hstatus⟩ := hheld id hid
      exact ⟨entry, hmem, hentry, .inl (JournalEntry.heldBy_iff.mpr ⟨_, hstatus⟩)⟩
    · obtain ⟨entry, hmem, -, hstatus⟩ := hheld id hid
      exact ⟨entry, hmem, JournalEntry.heldBy_iff.mpr ⟨_, hstatus⟩⟩

end Valid

/-! ## The call -/

lemma CommandJournal.Updated.answered {α : Type} {f : State → Except JournalError (α × State)}
    {answer : α} {result : Except JournalError α × CommandJournal}
    (h : Updated env f journal write result) (hanswer : result.1 = .ok answer) :
    f journal.state = .ok (answer, result.2.state) := by
  cases h with
  | blocked | refused | uncertain => cases hanswer
  | unchanged _ hf | stored _ hf _ =>
    cases hanswer
    exact hf

/-- A call is answered exactly if it is made on a healthy journal and what it changes is written. -/
lemma CommandJournal.update_eq_ok {α : Type} {f : State → Except JournalError (α × State)}
    {journal : CommandJournal} {answer : α} :
    (journal.update env write f).1 = .ok answer ↔ journal.Healthy ∧ ∃ next,
      f journal.state = .ok (answer, next) ∧ (next = journal.state ∨ write = .done ∧ ∃ bytes,
        encodeUpdate env journal.state next = .ok bytes) := by
  constructor
  · intro hanswer
    have h := updated env write f journal
    generalize journal.update env write f = result at h hanswer
    cases h with
    | blocked | refused | uncertain => cases hanswer
    | unchanged hhealthy hf =>
      cases hanswer
      exact ⟨hhealthy, _, hf, .inl rfl⟩
    | stored hhealthy hf hbytes =>
      cases hanswer
      exact ⟨hhealthy, _, hf, .inr ⟨rfl, _, hbytes⟩⟩
  · rintro ⟨⟨hwrite, hpoison⟩, next, hf, hnext⟩
    have hlocked : journal.locked = .ok journal.state := by
      simp [locked, hwrite, hpoison, ensure]
    rw [update, hlocked]
    simp only [bind, Except.bind, hf]
    split_ifs with hsame
    · rfl
    · obtain ⟨rfl, bytes, hbytes⟩ := hnext.resolve_left hsame
      simp only [hbytes]

section Call

variable {state : State} {auth : Authenticator} {maxBytes : Nat} {earlier later : List JournalEntry}

/-- What is built for an authenticated command is the command, unless no record could hold it. -/
lemma buildEntry_command (head : SessionHead) (hauth : auth entry.original = .ok ()) :
    (∃ reason, buildEntry auth buildCommand head entry = .rejected reason) ∧
        maxRecordBytes < entry.original.postcard.length ∨
      buildEntry auth buildCommand head entry = .ready entry.original.postcard := by
  simp only [buildEntry, hauth, buildCommand, encodeCommand, sizeWithLimit, ensure]
  by_cases hfits : entry.original.postcard.length ≤ maxRecordBytes
  · rw [if_pos hfits]
    exact .inr rfl
  · rw [if_neg hfits]
    exact .inl ⟨⟨_, rfl⟩, Nat.not_le.mp hfits⟩

lemma OriginalCommand.postcard_ne_nil (command : OriginalCommand) : command.postcard ≠ [] := by
  simp [postcard]

/-- What the walk makes of the first command in the queue. -/
lemma walk_first (head : SessionHead) (maxCommands : Nat) (hlimits : state.limits.validate = .ok ())
    (hentries : state.entries = earlier ++ entry :: later)
    (hearlier : ∀ other ∈ earlier, other.status ≠ .queued ∧ ¬other.status.IsStale)
    (hqueued : entry.status = .queued) (hauth : auth entry.original = .ok ())
    (hroom : entry.original.postcard.length ≤ maxBytes) :
    let walk := reserveEntries auth buildCommand head state.limits state.nextToken maxCommands maxBytes
      ⟨0, [], []⟩ state.entries
    if entry.original.postcard.length ≤ state.limits.maxCommandBytes then
      entry.id ∈ walk.2.commandIds
    else walk.2.commandIds = [] ∧ ∃ reason,
      walk.1 = earlier ++ entry.withStatus (.rejected reason) :: later := by
  have hbound : state.limits.maxCommandBytes ≤ maxRecordBytes := by
    simp only [JournalLimits.validate, ensure_eq_ok, List.forall_mem_cons] at hlimits
    obtain ⟨-, -, -, htotal, ⟨-, hcommand⟩, -⟩ := hlimits
    exact hcommand.trans (htotal.trans (by decide))
  have hbuild := buildEntry_command head hauth
  simp only [hentries, reserveEntries_append hearlier, Prod.map_fst, Prod.map_snd, id_eq]
  split_ifs with hfits
  · have hsmall : entry.original.postcard.length < 2 ^ 64 :=
      (hfits.trans hbound).trans_lt (by decide)
    refine mem_reserveEntries hqueued (hbuild.resolve_left fun hlarge => ?_)
      entry.original.postcard_ne_nil hfits (by simpa using hsmall) (by simpa using hroom)
    omega
  · obtain ⟨reason, hwalk⟩ : ∃ reason, reserveEntries auth buildCommand head state.limits
        state.nextToken maxCommands maxBytes ⟨0, [], []⟩ (entry :: later) =
          (entry.withStatus (.rejected reason) :: later, ⟨0, [], []⟩) :=
      reserveEntries_refuse hqueued (hbuild.imp And.left fun hready =>
        ⟨hready, Nat.not_le.mp hfits⟩)
    rw [hwalk]
    exact ⟨rfl, reason, rfl⟩

/-- The first command of the queue is reserved exactly if the WHOLE command, encoded, is within the
    bound of its first field, the head is an unsealed one of this session, nothing is reserved, and the
    state with the reservation fits the journal and is written.  A command over that bound is refused
    for good by every call that is answered. -/
theorem queued_command_reserved_iff (env : JournalEnv) (write : WriteOutcome) (head : SessionHead)
    (maxCommands maxBytes : Nat) (auth : Authenticator) (journal : CommandJournal)
    (hvalid : validate env journal.state = .ok ())
    (hcodec : ∀ bytes, head.encode env.authority.session = .ok bytes →
      SessionHead.decode env.authority bytes = .ok head)
    (hentries : journal.state.entries = earlier ++ entry :: later)
    (hearlier : ∀ other ∈ earlier, other.status ≠ .queued ∧ ¬other.status.IsStale)
    (hqueued : entry.status = .queued) (hauth : auth entry.original = .ok ())
    (hroom : entry.original.postcard.length ≤ maxBytes) (hplaces : maxCommands ≠ 0) :
    ((∃ reservation, (journal.reserveCommands env write head maxCommands maxBytes auth).1 =
        .ok (some reservation) ∧ entry.id ∈ reservation.commandIds) ↔
      entry.original.postcard.length ≤ journal.state.limits.maxCommandBytes ∧ journal.Healthy ∧
        head.sessionId = journal.state.scope.sessionId ∧ head.sealedBySuccessor = none ∧
        journal.state.reservation = none ∧ journal.state.nextToken.toNat + 1 < 2 ^ 64 ∧ write = .done ∧
        ∃ constructionHead body, head.encode env.authority.session = .ok constructionHead ∧
          env.toVec (journal.state.reserving head maxCommands maxBytes auth constructionHead) =
            .ok body ∧
          body.length + (magic.length + 32) ≤ journal.state.limits.maxEncodedBytes) ∧
    (journal.state.limits.maxCommandBytes < entry.original.postcard.length → ∀ answer,
      (journal.reserveCommands env write head maxCommands maxBytes auth).1 = .ok answer →
        answer = none ∧ ∃ reason,
          (journal.reserveCommands env write head maxCommands maxBytes auth).2.state.entries =
            earlier ++ entry.withStatus (.rejected reason) :: later) := by
  have hlimits : journal.state.limits.validate = .ok () := by
    simp only [validate, validateUpdate, validateBody, eq_ok] at hvalid
    exact hvalid.1.1
  have hwalk := walk_first head (min maxCommands maxFrameCommands) hlimits hentries hearlier hqueued
    hauth hroom
  refine ⟨⟨?_, ?_⟩, ?_⟩
  · rintro ⟨reservation, hanswer, -⟩
    obtain ⟨hhealthy, next, hreserve, hstored⟩ := CommandJournal.update_eq_ok.mp hanswer
    simp only [reserve, eq_ok] at hreserve
    obtain ⟨⟨hscope, hunsealed, -⟩, hfree, constructionHead, hencode, hreserve⟩ := hreserve
    split_ifs at hreserve with hnone
    · cases hreserve
    · simp only [eq_ok, Prod.mk.injEq] at hreserve
      obtain ⟨nextToken, htoken, -, rfl⟩ := hreserve
      have hadd := checkedAdd_eq_some.mp htoken
      have hlt : journal.state.nextToken.toNat + 1 < 2 ^ 64 := hadd ▸ nextToken.toNat_lt
      obtain rfl : nextToken = journal.state.nextToken + 1 := by
        rw [← UInt64.toNat_inj, hadd, UInt64.toNat_add]
        exact (Nat.mod_eq_of_lt hlt).symm
      obtain ⟨rfl, bytes, hbytes⟩ := hstored.resolve_left fun hsame =>
        nomatch hfree.symm.trans (congrArg State.reservation hsame).symm
      simp only [CommandJournal.encodeUpdate, journalBytes, eq_ok] at hbytes
      obtain ⟨-, body, hbody, hsize, -⟩ := hbytes
      refine ⟨?_, hhealthy, hscope, hunsealed, hfree, hlt, rfl, constructionHead, body, hencode, hbody,
        hsize⟩
      by_contra hlarge
      rw [if_neg hlarge] at hwalk
      exact hnone hwalk.1
  · rintro ⟨hfits, hhealthy, hscope, hunsealed, hfree, htoken, rfl, constructionHead, body, hencode, hbody,
      hsize⟩
    rw [if_pos hfits] at hwalk
    have hsome := List.ne_nil_of_mem hwalk
    have hbytes : maxBytes ≠ 0 := fun hzero => entry.original.postcard_ne_nil
      (List.eq_nil_of_length_eq_zero (Nat.le_zero.mp (hzero ▸ hroom)))
    obtain ⟨reservation, hreserve, hmem⟩ : ∃ reservation, reserve env auth buildCommand head
        (min maxCommands maxFrameCommands) maxBytes journal.state = .ok (some reservation,
          journal.state.reserving head maxCommands maxBytes auth constructionHead) ∧
        entry.id ∈ reservation.commandIds := by
      simp only [reserve, eq_ok, if_neg hsome]
      exact ⟨_, ⟨⟨hscope, hunsealed, by simp [hplaces, maxFrameCommands], hbytes⟩, hfree,
        constructionHead, hencode, _, if_pos htoken, rfl⟩, hwalk⟩
    have hstored : ∃ bytes, CommandJournal.encodeUpdate env journal.state
        (journal.state.reserving head maxCommands maxBytes auth constructionHead) = .ok bytes := by
      simp only [CommandJournal.encodeUpdate, journalBytes, eq_ok]
      exact ⟨_, reserve_valid hvalid (hcodec _ hencode) hscope hunsealed hfree htoken
        (reserveEntries_walk _ _) hsome, body, hbody, hsize, rfl⟩
    exact ⟨reservation, CommandJournal.update_eq_ok.mpr ⟨hhealthy, _, hreserve, .inr ⟨rfl, hstored⟩⟩,
      hmem⟩
  · intro hlarge answer hanswer
    rw [if_neg (Nat.not_le.mpr hlarge)] at hwalk
    have hreserve := (CommandJournal.updated env write _ journal).answered hanswer
    simp only [reserve, eq_ok, hwalk.1, if_true] at hreserve
    obtain ⟨-, -, _, -, hreserve⟩ := hreserve
    obtain ⟨rfl, hstate⟩ := Prod.mk.inj hreserve
    exact ⟨rfl, hwalk.2.imp fun reason hentries => (congrArg State.entries hstate).symm.trans hentries⟩

/-- The journal that holds a command with the command as its work. -/
def wholeReserved : State :=
  { sampleReserved .held with
    reservation := some { sampleReservation .held with work := [sampleCommand.postcard] } }

def sampleJournal : CommandJournal := ⟨⟨.empty, false⟩, sampleQueued, false, false⟩

set_option maxRecDepth 4096 in
/-- A small command is reserved. -/
theorem queued_command_reserved_sample :
    ∃ reservation, (sampleJournal.reserveCommands (tableEnv [wholeReserved]) .done sampleHead 256
      1024 fun _ => .ok ()).1 = .ok (some reservation) ∧ sampleHash ∈ reservation.commandIds := by
  have hsize : sampleCommand.postcard.length ≤ 1024 := by decide
  have hcodec : ∀ bytes, sampleHead.encode sampleAuthority.session = .ok bytes →
      SessionHead.decode sampleAuthority bytes = .ok sampleHead := by
    rintro _ ⟨⟩
    rfl
  obtain ⟨hreserved, -⟩ := queued_command_reserved_iff (tableEnv [wholeReserved]) .done sampleHead
    256 1024 (fun _ => .ok ()) sampleJournal rfl hcodec
    (show _ = [] ++ sampleEntry .queued :: [] from rfl) (List.forall_mem_nil _) rfl rfl hsize (by decide)
  exact hreserved.mpr ⟨hsize.trans (by decide), ⟨rfl, rfl⟩, rfl, rfl, rfl, by decide, rfl, _, _, rfl, rfl,
    by decide⟩

/-! A command of one byte, in a journal that takes commands of up to 164 bytes: encoded, the command
has 165. -/

def narrowLimits : JournalLimits := { JournalLimits.default with maxCommandBytes := 164 }

def narrowState (entries : List JournalEntry) : State :=
  { State.initial sampleScope narrowLimits with entries }

def narrowEnv : JournalEnv :=
  tableEnv [narrowState [sampleEntry (.rejected "empty or oversized reconstructed work")]]

set_option maxRecDepth 4096 in
/-- The command is accepted, and then refused for its size. -/
theorem admitted_command_refused :
    enqueue narrowEnv sampleCommand (fun _ => .ok ()) (narrowState []) =
        .ok (sampleEntry .queued, narrowState [sampleEntry .queued]) ∧
      let call := CommandJournal.reserveCommands narrowEnv .done sampleHead 256 (2 ^ 64 - 1)
        (fun _ => .ok ()) ⟨⟨.empty, false⟩, narrowState [sampleEntry .queued], false, false⟩
      call.1 = .ok none ∧ call.2.state.entries =
        [sampleEntry (.rejected "empty or oversized reconstructed work")] :=
  ⟨rfl, rfl, rfl⟩

end Call

end Myelin.Journal
