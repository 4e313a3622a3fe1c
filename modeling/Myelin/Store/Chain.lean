/-
  The history of a session.

  `Extends`: a committed block names everything in the head before it and alone determines the head
  after it.  The blocks of a session therefore form ONE chain from its genesis, whatever the calls
  of other sessions do in between, and head, checkpoint and heights are read off that chain
  (`session_chain`).  The command index follows the same log: it holds one receipt for every
  committed command and nothing else (`command_once`).
-/
import Myelin.Store.Sessions

namespace Myelin.Store

open Lib Consensus Session Function

/-! ## One chain per session -/

/-- The head a record leads to. -/
def headAfter (env : SessionEnv) (record : FinalisedBlockRecord) : SessionHead where
  sessionId := record.block.sessionId
  finalisedHeight := some record.block.number
  blockHash := record.block.hash env.crypto
  stateRoot := record.block.stateRootAfter
  timestampMs := record.block.timestampMs
  inputPosition := record.frame.inputEnd
  logicalTime := record.frame.logicalTimeEnd
  sealedBySuccessor := record.successor.map (·.targetConfig.sessionId)

/-- A record continues `head`. -/
structure Extends (env : SessionEnv) (head : SessionHead) (record : FinalisedBlockRecord)
    (next : SessionHead) : Prop where
  session : record.block.sessionId = head.sessionId
  height : head.nextHeight = .ok record.block.number
  parent : record.block.parentHash = head.blockHash
  root : record.block.stateRootBefore = head.stateRoot
  input : record.frame.inputStart = head.inputPosition
  time : record.frame.logicalTimeStart = head.logicalTime
  unsealed : head.sealedBySuccessor = none
  next : next = headAfter env record

/-- Blocks of one session, oldest first. -/
def blocksOf (sessionId : Hash32) (log : List FinalisedBlockRecord) : List FinalisedBlockRecord :=
  log.filter (·.block.sessionId = sessionId)

/-- What the store says of a session. -/
abbrev SessionEntry := Option SessionGenesis × Option SessionHead × Option StateCheckpoint

def RocksSessionStore.session (store : RocksSessionStore) (sessionId : Hash32) : SessionEntry :=
  (store.genesis sessionId, store.head sessionId, store.checkpoint sessionId)

/-- The entry of a session with these committed blocks. -/
inductive Chained (env : SessionEnv) (sessionId : Hash32) :
    List FinalisedBlockRecord → SessionEntry → Prop where
  | unused : Chained env sessionId [] (none, none, none)
  | used {genesis : SessionGenesis} {head : SessionHead} {blocks : List FinalisedBlockRecord} :
      genesis.config.sessionId = sessionId →
      Trace (Extends env) (successorHead genesis.config) blocks head →
      Chained env sessionId blocks (some genesis, some head,
        some (blocks.getLast?.elim (genesisCheckpoint genesis) blockCheckpoint))

section Chain

variable {env : StoreEnv} {store next : RocksSessionStore} {expected new : SessionHead}
  {record : FinalisedBlockRecord} {log : List FinalisedBlockRecord} {call : StoreCall}

/-- Blocks a session has once it reached `head`. -/
def blockCount (head : SessionHead) : Nat :=
  head.finalisedHeight.elim 0 (·.toNat + 1)

lemma Extends.counts {env : SessionEnv} {head : SessionHead} (h : Extends env head record new) :
    record.block.number.toNat = blockCount head ∧ blockCount new = blockCount head + 1 := by
  have hnumber : record.block.number.toNat = blockCount head := by
    have hheight := h.height
    unfold SessionHead.nextHeight at hheight
    unfold blockCount
    split at hheight
    · next height hsome =>
      rw [okOr_eq_ok, checkedAdd_eq_some] at hheight
      rw [hsome]
      exact hheight
    · next hnone =>
      rw [hnone, ← Except.ok.inj hheight]
      rfl
  refine ⟨hnumber, ?_⟩
  rw [h.next, ← hnumber]
  rfl

/-- Heights count up by one. -/
lemma heights_of_trace {env : SessionEnv} {head last : SessionHead}
    (h : Trace (Extends env) head log last) :
    log.map (·.block.number.toNat) = List.range' (blockCount head) log.length := by
  induction h with
  | nil => rfl
  | cons hfirst _ ih =>
    obtain ⟨hnumber, hcount⟩ := hfirst.counts
    rw [List.map_cons, ih, hcount, hnumber]
    rfl

lemma validateCommit_extends (h : validateCommit env expected new record = .ok ()) :
    Extends env.session expected record new := by
  simp only [validateCommit, eq_ok] at h
  obtain ⟨⟨hsession, hparent, hunsealed, hblock, hroot⟩, height, hheight, hlink, -⟩ := h
  obtain ⟨rfl, hfinalised, hhash, hafter, htimestamp, -, -, -, -, -, -, -, -, hinput, htime, hposition,
    hlogical, hsealed⟩ := hlink
  refine ⟨hblock, hheight, hparent, hroot, hinput, htime, hunsealed, ?_⟩
  cases new
  simp_all [headAfter]

/-- A new session starts with no blocks. -/
lemma Chained.start {env : SessionEnv} {genesis : SessionGenesis}
    (h : Chained env genesis.config.sessionId log (none, none, none)) :
    Chained env genesis.config.sessionId log
      (some genesis, some (successorHead genesis.config), some (genesisCheckpoint genesis)) := by
  cases h
  exact .used rfl (.nil _)

/-- A record that extends the head makes the chain longer. -/
lemma Chained.extend {env : SessionEnv} (hextends : Extends env expected record new)
    (h : Chained env sessionId log (genesis, some expected, checkpoint)) :
    Chained env sessionId (log ++ [record]) (genesis, some new, some (blockCheckpoint record)) := by
  cases h with
  | used hgenesis hlinks =>
    have hused := Chained.used hgenesis (hlinks.append (.single hextends))
    simpa using hused

/-- The invariant: every session is chained. -/
def Chains (env : SessionEnv) (store : RocksSessionStore) (log : List FinalisedBlockRecord) : Prop :=
  ∀ sessionId, Chained env sessionId (blocksOf sessionId log) (store.session sessionId)

/-- Creating an unused session leaves all chains. -/
lemma Chains.put {env : SessionEnv} {genesis : SessionGenesis} (h : Chains env store log)
    (hunused : store.Unused genesis.config.sessionId) :
    Chains env (store.putSession genesis (successorHead genesis.config)) log := by
  intro sessionId
  by_cases hid : sessionId = genesis.config.sessionId
  · subst hid
    obtain ⟨hgenesis, hhead, hcheckpoint⟩ := hunused
    have hchained := h genesis.config.sessionId
    rw [RocksSessionStore.session, hgenesis, hhead, hcheckpoint] at hchained
    simpa [RocksSessionStore.session, RocksSessionStore.putSession] using hchained.start
  · simpa [RocksSessionStore.session, RocksSessionStore.putSession, hid] using h sessionId

lemma Chains.commit (h : Chains env.session store log)
    (hhead : store.head expected.sessionId = some expected)
    (hextends : Extends env.session expected record new) :
    Chains env.session (commitWrite env new record store bytes commands handoffs outbox wal)
      (log ++ [record]) := by
  intro sessionId
  have hchained := h sessionId
  by_cases hid : sessionId = expected.sessionId
  · subst hid
    rw [RocksSessionStore.session, hhead] at hchained
    simpa [RocksSessionStore.session, commitWrite, blocksOf, hextends.session]
      using hchained.extend hextends
  · simpa [RocksSessionStore.session, commitWrite, blocksOf, hextends.session, hid, Ne.symm hid]
      using hchained

/-- A created session was unused. -/
lemma createSession_put {genesis : SessionGenesis} {head : SessionHead}
    (h : createSession env genesis head store = .ok next) :
    store.Unused genesis.config.sessionId ∧
      next = store.putSession genesis (successorHead genesis.config) := by
  simp only [createSession, validateGenesis, eq_ok] at h
  obtain ⟨-, -, ⟨-, hstart, -⟩, _, -, _, -, _, -, hunused, rfl⟩ := h
  have hhead : head = successorHead genesis.config := by
    cases head
    simp_all [successorHead]
  exact ⟨hunused, by rw [hhead]⟩

lemma commitBlock_chains (h : Chains env.session store log)
    (hcommit : commitBlock env expected new record store = .ok next) :
    Chains env.session next (log ++ [record]) := by
  obtain ⟨_, _, _, _, _, _, _, _, -, ⟨-, hvalid, -⟩, hhead, -, hwork, -, -, rfl⟩ :=
    commitBlock_ok hcommit
  have hextends := validateCommit_extends hvalid
  rcases putSuccessor_ok hwork with ⟨-, rfl⟩ | ⟨successor, snapshot, -, -, hunused, rfl⟩
  · exact h.commit hhead hextends
  · -- the successor's id was unused, so it is not the session that ends
    have hne : expected.sessionId ≠ successor.targetConfig.sessionId := by
      intro heq
      cases hunused.2.1.symm.trans (heq ▸ hhead)
    exact (h.put hunused).commit ((update_of_ne hne _ _).trans hhead) hextends

/-! ## The command index -/

/-- `receipt` is the one of a committed command. -/
def Executed (env : SessionEnv) (log : List FinalisedBlockRecord) (receipt : CommandReceipt) : Prop :=
  ∃ record ∈ log, ∃ index, CommandReceipt.forRecord env record index = .ok receipt

/-- Every indexed receipt is one of a committed command, and the index misses none. -/
def Indexed (env : SessionEnv) (commands : Hash32 × Hash32 → Option CommandReceipt)
    (log : List FinalisedBlockRecord) : Prop :=
  ∀ key receipt, commands key = some receipt ↔
    key = (receipt.sessionId, receipt.command.id) ∧ Executed env log receipt

/-- What is new in the table are receipts of the record. -/
lemma putCommands_iff (h : putCommands env record start rest commands = .ok table)
    (hrest : record.frameInput.commands.drop start = rest) (key : Hash32 × Hash32)
    (receipt : CommandReceipt) :
    table key = some receipt ↔ commands key = some receipt ∨
      key = (receipt.sessionId, receipt.command.id) ∧
        ∃ i ≥ start, CommandReceipt.forRecord env.session record i = .ok receipt := by
  -- `rest` are the commands from `start` on, so that the positions match
  induction rest generalizing start commands with
  | nil =>
    cases h
    refine ⟨.inl, fun hor => hor.elim id ?_⟩
    rintro ⟨-, i, hle, hreceipt⟩
    simp only [CommandReceipt.forRecord, eq_ok] at hreceipt
    obtain ⟨_, hget, -⟩ := hreceipt
    have hlength := List.drop_eq_nil_iff.mp hrest
    have hlt := (List.getElem?_eq_some_iff.mp hget).1
    omega
  | cons command rest ih =>
    simp only [putCommands, eq_ok] at h
    obtain ⟨hfree, first, hfirst, _, -, hput⟩ := h
    have htail : record.frameInput.commands.drop (start + 1) = rest := by
      rw [← List.tail_drop, hrest]
      rfl
    have hkey : (record.block.sessionId, command.id) = (first.sessionId, first.command.id) := by
      have hreceipt := hfirst
      have hhead := congrArg List.head? hrest
      simp only [CommandReceipt.forRecord, eq_ok] at hreceipt
      obtain ⟨_, hget, _, -, rfl⟩ := hreceipt
      rw [List.head?_drop, hget] at hhead
      cases hhead
      rfl
    rw [hkey] at hfree hput
    rw [ih hput htail]
    constructor
    · rintro (hnew | ⟨hid, i, hle, hi⟩)
      · by_cases heq : key = (first.sessionId, first.command.id)
        · rw [heq, update_self] at hnew
          cases hnew
          exact .inr ⟨heq, start, Nat.le_refl _, hfirst⟩
        · exact .inl (by rwa [update_of_ne heq] at hnew)
      · exact .inr ⟨hid, i, Nat.le_of_succ_le hle, hi⟩
    · rintro (hold | ⟨hid, i, hle, hi⟩)
      · have hne : key ≠ (first.sessionId, first.command.id) := by
          rintro rfl
          cases hfree.symm.trans hold
        exact .inl (by rwa [update_of_ne hne])
      · rcases Nat.eq_or_lt_of_le hle with rfl | hlt
        · cases hfirst.symm.trans hi
          exact .inl (by rw [hid, update_self])
        · exact .inr ⟨hid, i, hlt, hi⟩

lemma commitBlock_indexed (h : Indexed env.session store.command log)
    (hcommit : commitBlock env expected new record store = .ok next) :
    Indexed env.session next.command (log ++ [record]) := by
  obtain ⟨_, _, _, work, commands, _, _, _, -, -, -, -, hwork, hcommands, -, rfl⟩ :=
    commitBlock_ok hcommit
  have hsame : work.command = store.command := by
    rcases putSuccessor_ok hwork with ⟨-, rfl⟩ | ⟨_, _, -, -, -, rfl⟩ <;> rfl
  intro key receipt
  show commands key = some receipt ↔ _
  rw [putCommands_iff hcommands rfl, hsame, h key receipt, ← and_or_left]
  simp [Executed, or_and_right, exists_or]

/-! ## Runs -/

/-- The invariant of every run. -/
structure Logged (env : SessionEnv) (store : RocksSessionStore) (log : List FinalisedBlockRecord) :
    Prop where
  chains : Chains env store log
  commands : Indexed env store.command log

lemma StoreCall.exec_logged (h : Logged env.session store log)
    (hexec : call.exec env store = .ok next) : Logged env.session next (log ++ call.records) := by
  cases wrote hexec with
  | created hcreate =>
    obtain ⟨hunused, hput⟩ := createSession_put hcreate
    show Logged _ _ (log ++ [])
    rw [hput, List.append_nil]
    exact ⟨h.chains.put hunused, h.commands⟩
  | committed hcommit =>
    exact ⟨commitBlock_chains h.chains hcommit, commitBlock_indexed h.commands hcommit⟩
  | logged | acknowledged | attested =>
    show Logged _ _ (log ++ [])
    rw [List.append_nil]
    exact ⟨h.chains, h.commands⟩
  | offloaded hoffload =>
    show Logged _ _ (log ++ [])
    rw [List.append_nil]
    rcases hoffload with rfl | ⟨-, _, _, -, rfl⟩ <;> exact ⟨h.chains, h.commands⟩

end Chain

section Run

variable (env : SessionEnv) (submissions : List Submission)

/-- What each call keeps, a run keeps. -/
lemma logged_run :
    Logged env (World.run env submissions).store (World.run env submissions).committed :=
  World.run_invariant (I := fun world => Logged env world.store world.committed)
    ⟨fun _ => .unused, fun _ _ => by simp [World.empty, RocksSessionStore.empty, Executed]⟩
    (fun _ _ _ h hexec => StoreCall.exec_logged h hexec) submissions

/-- Whatever calls of other sessions run in between, the committed blocks of a session are one
    chain from its genesis to its stored head, with heights `0, 1, …`, and all of them are held. -/
theorem session_chain (sessionId : Hash32) :
    let world := World.run env submissions
    let blocks := blocksOf sessionId world.committed
    Chained env sessionId blocks (world.store.session sessionId) ∧
      blocks.map (·.block.number.toNat) = List.range blocks.length ∧
      ∀ record ∈ blocks, world.store.Held env record := by
  intro world blocks
  have hchained : Chained env sessionId blocks (world.store.session sessionId) :=
    (logged_run env submissions).chains sessionId
  refine ⟨hchained, ?_, fun record hmem =>
    (recorded_run env submissions).held record (List.mem_of_mem_filter hmem)⟩
  generalize world.store.session sessionId = entry, blocks = blocks at hchained
  cases hchained with
  | unused => rfl
  | used _ hlinks =>
    rw [heights_of_trace hlinks, List.range_eq_range']
    rfl

/-- The index answers with exactly the receipts of the committed commands, and an id of a session is
    committed at one place only. -/
theorem command_once :
    Indexed env (World.run env submissions).store.command (World.run env submissions).committed ∧
      ∀ receipt again, Executed env (World.run env submissions).committed receipt →
        Executed env (World.run env submissions).committed again →
        receipt.sessionId = again.sessionId → receipt.command.id = again.command.id →
          receipt = again := by
  have hindexed := (logged_run env submissions).commands
  refine ⟨hindexed, fun receipt again hreceipt hagain hsession hid => ?_⟩
  have hfirst := (hindexed _ receipt).mpr ⟨rfl, hreceipt⟩
  have hsecond := (hindexed _ again).mpr ⟨rfl, hagain⟩
  rw [← hsession, ← hid] at hsecond
  exact Option.some_inj.mp (hfirst.symm.trans hsecond)

end Run

end Myelin.Store
