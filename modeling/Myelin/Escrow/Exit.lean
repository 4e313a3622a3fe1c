/-
  Leaving the escrow: the settlement transaction of a finalised ledger.

  `attach` binds terms to the finalised open transaction that created the deposits; a prepared exit
  reads the ledger out of the snapshot of a finalised block and pays it out.  The transaction it
  builds is exact (**`capacity_exit_correct_iff`**): the deposits and the optional funding cell come
  in, every non-zero balance goes to its owner's payout lock, the change goes back, and the
  difference is the configured fee.

  What is NOT checked is whose block it is.  The ledger state names the session of the terms, the
  block it was found in may belong to another session of the same engine
  (`foreign_block_settles`).

  The receipt chain of the open transaction is a parameter here (`ProjectionPort`).
-/
import Myelin.Escrow.Ledger
import Myelin.Session.Record
import Myelin.Session.Snapshot

namespace Myelin.Escrow

open Lib Exec Consensus State Session
open FixedBytes (fill)
open EscrowError (invalidExit)

variable {crypto : Crypto} {rawTxHash : Hash32}

/-! ## Attaching -/

/-- One participant's signature over the terms commitment. -/
structure EscrowAuthorization where
  participantId : Hash32
  signature : List UInt8
  deriving DecidableEq

/-- What a participant signs. -/
def authorizationDigest (crypto : Crypto) (termsHash participantId : Hash32) : Hash32 :=
  crypto.blake3 (utf8 "myelin:session-escrow:authorization" ++ termsHash.val ++ participantId.val)

/-- Each authorization is from another participant and signs the terms. -/
def checkAuthorizations (crypto : Crypto) (terms : EscrowTerms) (termsHash : Hash32)
    (seen : List Hash32) : List EscrowAuthorization → Except EscrowError Unit
  | [] => .ok ()
  | authorization :: rest => do
      ensure (authorization.participantId ∉ seen)
        (EscrowError.authorization "duplicate participant authorization")
      let participant ← okOr
        (terms.participants.find? fun p => p.participantId = authorization.participantId)
        (EscrowError.authorization "authorization is from an unknown participant")
      let signature ← okOr (FixedBytes.ofList? 64 authorization.signature)
        (EscrowError.authorization "authorization signature must be exactly 64 bytes")
      (crypto.parseXOnlyPublicKey participant.authorizationKey).mapError EscrowError.authorization
      ensure (crypto.schnorr participant.authorizationKey
          (authorizationDigest crypto termsHash participant.participantId) signature = true)
        (EscrowError.authorization "invalid terms authorization signature")
      checkAuthorizations crypto terms termsHash (authorization.participantId :: seen) rest

/-- Every participant signed the exact terms. -/
def EscrowTerms.verifyAuthorizations (crypto : Crypto) (terms : EscrowTerms)
    (authorizations : List EscrowAuthorization) : Except EscrowError Unit := do
  let termsHash ← terms.hash crypto
  ensure (authorizations.length = terms.participants.length)
    (EscrowError.authorization "all participants must authorize terms exactly once")
  checkAuthorizations crypto terms termsHash [] authorizations

/-- Highest supported stage of a projection. -/
inductive ProjectionStage where
  | rejected
  | wireEncoded
  | contextResolved
  | consensusValidated
  | scriptsVerified
  | nodeAccepted
  | committed
  | finalized
  deriving DecidableEq

/-- Confirmation depth and the tip it was observed under. -/
structure FinalizedReceipt where
  confirmations : UInt64
  tipTimestamp : UInt64
  deriving DecidableEq

/-- What is read of a receipt chain, and its verification against a transaction. -/
structure ProjectionPort (Projection : Type) where
  verifyProjection : CellTx → Projection → Except String Unit
  stage : Projection → ProjectionStage
  rawTxHash : Projection → Hash32
  finalized : Projection → Option FinalizedReceipt

/-- Verified funding attachment. -/
structure EscrowAttachment (Projection : Type) where
  terms : EscrowTerms
  authorizations : List EscrowAuthorization
  openEvidence : Projection

/-- The open evidence is refused with this text. -/
abbrev badEvidence (message : String) : Fault EscrowError := .error (.openEvidence message)

/-- Token amount: exactly one little-endian `u128`. -/
def decodeU128Token (data : List UInt8) : Except (Fault EscrowError) U128 := do
  ensure (data.length = 16)
    (badEvidence "typed-token amount must be exactly one little-endian u128")
  pure (BitVec.ofNat 128 (ofLeBytes data))

/-- An escrow output holds its participant's deposit. -/
def checkDepositAmount (crypto : Crypto) (asset : AssetDescriptor) (output : CellOutput)
    (data : List UInt8) (deposit : U128) : Except (Fault EscrowError) Unit :=
  match asset with
  | .ckbCapacity =>
      ensure (output.type_ = none ∧ data = [] ∧ output.capacity.toNat = deposit.toNat)
        (badEvidence "CKB capacity escrow output does not match its deposit")
  | .typedToken typeScriptHash => do
      let typeScript ← okOr output.type_ (badEvidence "typed-token deposit has no type script")
      ensure (crypto.ckbBlake2b256 (serializeScriptMolecule typeScript) = typeScriptHash)
        (badEvidence "typed-token escrow output does not match its deposit")
      let amount ← decodeU128Token data
      ensure (amount = deposit) (badEvidence "typed-token escrow output does not match its deposit")

/-- One deposit is an output of the open transaction under the escrow lock. -/
def checkDeposit (crypto : Crypto) (terms : EscrowTerms) (openTx : CellTx) (rawTxHash : Hash32)
    (pair : EscrowParticipant × EscrowDeposit) : Except (Fault EscrowError) Unit := do
  ensure (pair.2.outpoint.txHash = rawTxHash)
    (badEvidence "escrow outpoint does not belong to the finalized open transaction")
  let output ← okOr (openTx.outputs[pair.2.outpoint.index.toNat]?)
    (badEvidence "escrow outpoint index is out of bounds")
  -- the data are indexed without a check: with less data than outputs the call panics
  let data ← index openTx.outputsData pair.2.outpoint.index.toNat
  ensure (crypto.ckbBlake2b256 (serializeScriptMolecule output.lock) = terms.escrowLockScriptHash)
    (badEvidence "escrow output uses an unpinned lock script")
  checkDepositAmount crypto terms.asset output data pair.1.deposit

/-- Verify authorizations, finalised depth, outpoints, scripts and amounts. -/
def attach {Projection : Type} (crypto : Crypto) (port : ProjectionPort Projection)
    (terms : EscrowTerms) (authorizations : List EscrowAuthorization) (openTx : CellTx)
    (openEvidence : Projection) : Except (Fault EscrowError) (EscrowAttachment Projection) := do
  (terms.verifyAuthorizations crypto authorizations).mapError .error
  (port.verifyProjection openTx openEvidence).mapError fun text => .error (.ckb text)
  ensure (port.stage openEvidence = .finalized)
    (badEvidence "escrow open transaction is not finalized")
  let finalized ← okOr (port.finalized openEvidence) (badEvidence "finalized receipt is missing")
  ensure (terms.minConfirmations ≤ finalized.confirmations)
    (badEvidence "open transaction has insufficient confirmation depth")
  ensure (finalized.tipTimestamp ≤ terms.sessionStartDeadlineMs) (badEvidence
    "escrow funding did not reach required finality before the session start deadline")
  forResult (checkDeposit crypto terms openTx (port.rawTxHash openEvidence))
    (terms.participants.zip terms.deposits)
  pure ⟨terms, authorizations, openEvidence⟩

/-! ## Preparing an exit -/

/-- External capacity that pays the fee. -/
structure FeeFunding where
  outpoint : OutPoint
  capacity : UInt64
  changeLock : Script
  deriving DecidableEq

structure CapacityExitConfig where
  cellDeps : List CellDep
  feeFunding : Option FeeFunding
  fee : UInt64
  deriving DecidableEq

/-- Proof payload for the settlement lock. -/
structure ExitEvidence where
  sessionId : Hash32
  termsHash : Hash32
  blockHash : Hash32
  blockNumber : UInt64
  stateRoot : Hash32
  escrowStateHash : Hash32
  finalisedBlockRecord : List UInt8
  deriving DecidableEq

/-- Unsigned transaction with its proof payload. -/
structure PreparedCapacityExit where
  unsignedTx : CellTx
  rawTxHash : Hash32
  state : EscrowState
  evidence : ExitEvidence
  deriving DecidableEq

/-- An output's capacity covers what it occupies on CKB. -/
def verifyCkbCapacity (output : CellOutput) (dataLen : Nat) : Except String Unit := do
  let minimum ← minimumCkbCapacityShannons output.lock output.type_ dataLen
  ensure (minimum ≤ output.capacity)
    (s!"CKB output capacity {output.capacity} is below the {minimum} shannon " ++
      "occupied-capacity minimum")

/-- The output that pays a balance. -/
def payout (pair : EscrowParticipant × ParticipantBalance) : CellOutput :=
  ⟨pair.1.payoutLock, none, UInt64.ofNat pair.2.balance.toNat⟩

/-- One output per non-zero balance. -/
def payouts : List (EscrowParticipant × ParticipantBalance) → Except EscrowError (List CellOutput)
  | [] => .ok []
  | pair :: rest =>
      if pair.2.balance = 0 then payouts rest
      else do
        ensure (pair.2.balance.toNat < 2 ^ 64) (invalidExit "CKB capacity balance exceeds u64")
        (verifyCkbCapacity (payout pair) 0).mapError invalidExit
        let outputs ← payouts rest
        pure (payout pair :: outputs)

/-- The funding cell's input and its change. -/
def fundFee (terms : EscrowTerms) (config : CapacityExitConfig) :
    Except EscrowError (List CellInput × List CellOutput) :=
  match config.feeFunding with
  | none => do
      ensure (config.fee = 0) (invalidExit "non-zero fee requires an external funding input")
      pure ([], [])
  | some funding => do
      ensure (∀ deposit ∈ terms.deposits, deposit.outpoint ≠ funding.outpoint)
        (invalidExit "fee input duplicates an escrow input")
      ensure (config.fee ≤ funding.capacity)
        (invalidExit "fee funding capacity is below the requested fee")
      let change : CellOutput := ⟨funding.changeLock, none, funding.capacity - config.fee⟩
      if change.capacity = 0 then pure ([⟨funding.outpoint, 0⟩], [])
      else do
        (verifyCkbCapacity change 0).mapError invalidExit
        pure ([⟨funding.outpoint, 0⟩], [change])

variable {F : Type} [CommGroup F]

/-- The one ledger cell of a snapshot. -/
def onlyLedgerCell {hashes : CellHashes F} (terms : EscrowTerms) (tree : CellStateTree hashes) :
    Except EscrowError (OutPoint × CellEntry) :=
  match tree.cells.entries.filter (isLedger terms) with
  | [cell] => .ok cell
  | _ => .error (.invalidExit "finalized snapshot must contain exactly one escrow ledger Cell")

/-- The valid ledger of a finalised block's snapshot. -/
def settledLedger (crypto : Crypto) (hashes : CellHashes F) (terms : EscrowTerms)
    (latest : FinalisedBlockRecord) : Except EscrowError EscrowState := do
  let tree ← (decodeCellSnapshot hashes latest.stateSnapshot).mapError fun error =>
    invalidExit error.display
  ensure (tree.root.1 = latest.block.stateRootAfter)
    (invalidExit "persisted snapshot does not match finalized state root")
  let cell ← onlyLedgerCell terms tree
  let data ← okOr cell.2.data (invalidExit "ledger Cell is missing full data")
  let state ← EscrowState.decode data
  state.validate crypto terms
  pure state

/-- Build the cooperative exit from a finalised block. -/
def prepareCapacityExit {Projection : Type} (env : SessionEnv) (hashes : CellHashes F)
    (ckbRawTransactionHash : CellTx → Except String Hash32)
    (attachment : EscrowAttachment Projection) (consensus : SelectedConsensus env.crypto)
    (latest : FinalisedBlockRecord) (config : CapacityExitConfig) :
    Except EscrowError PreparedCapacityExit := do
  ensure (attachment.terms.asset = .ckbCapacity)
    (EscrowError.unsupportedAsset "capacity exit builder cannot settle typed tokens")
  let _ ← (consensus.finaliseWithProof latest.block latest.proof).mapError fun error =>
    EscrowError.consensus error.display
  ensure (latest.block.consensusKind = consensus.kind)
    (invalidExit "finalized block uses a different consensus engine")
  let state ← settledLedger env.crypto hashes attachment.terms latest
  let paid ← payouts (attachment.terms.participants.zip state.ledger)
  let (funding, change) ← fundFee attachment.terms config
  let outputs := paid ++ change
  let unsignedTx ← (CellTx.new
    (attachment.terms.deposits.map (fun deposit => ⟨deposit.outpoint, 0⟩) ++ funding)
    config.cellDeps outputs (List.replicate outputs.length []) []).mapError invalidExit
  let rawTxHash ← (ckbRawTransactionHash unsignedTx).mapError EscrowError.codec
  let termsHash ← attachment.terms.hash env.crypto
  let stateHash ← state.hash env.crypto
  let record ← (latest.encode env).mapError fun error => invalidExit error.display
  pure {
    unsignedTx, rawTxHash, state
    evidence := {
      sessionId := attachment.terms.sessionId
      termsHash
      blockHash := latest.block.hash env.crypto
      blockNumber := latest.block.number
      stateRoot := latest.block.stateRootAfter
      escrowStateHash := stateHash
      finalisedBlockRecord := record } }

/-! ## What a correct exit is -/

/-- Capacity an input brings: the funding cell's, or that of an output of the open transaction. -/
def inputCapacity (openTx : CellTx) (rawTxHash : Hash32) (config : CapacityExitConfig)
    (input : CellInput) : Nat :=
  match config.feeFunding.filter (fun funding => funding.outpoint = input.previousOutput) with
  | some funding => funding.capacity.toNat
  | none =>
      if input.previousOutput.txHash = rawTxHash then
        ((openTx.outputs[input.previousOutput.index.toNat]?).map (·.capacity.toNat)).getD 0
      else 0

/-- What is left of the funding cell. -/
def changeOutputs (config : CapacityExitConfig) : List CellOutput :=
  (config.feeFunding.toList.map fun funding =>
    (⟨funding.changeLock, none, funding.capacity - config.fee⟩ : CellOutput)).filter
      fun output => output.capacity ≠ 0

/-- The settlement transaction against ledger, deposits and fee. -/
structure Settles (terms : EscrowTerms) (openTx : CellTx) (rawTxHash : Hash32)
    (config : CapacityExitConfig) (exit : PreparedCapacityExit) : Prop where
  /-- All deposits and the funding cell, and nothing else. -/
  inputs : exit.unsignedTx.inputs.map (·.previousOutput) =
    terms.deposits.map (·.outpoint) ++ config.feeFunding.toList.map (·.outpoint)
  distinct : (exit.unsignedTx.inputs.map (·.previousOutput)).Nodup
  /-- Non-zero balances at their payout locks, then the change. -/
  outputs : exit.unsignedTx.outputs =
    ((terms.participants.zip exit.state.ledger).filter fun pair => pair.2.balance ≠ 0).map payout ++
      changeOutputs config
  exact : ∀ pair ∈ terms.participants.zip exit.state.ledger,
    (payout pair).capacity.toNat = pair.2.balance.toNat
  noData : exit.unsignedTx.outputsData = List.replicate exit.unsignedTx.outputs.length []
  fee : (exit.unsignedTx.inputs.map (inputCapacity openTx rawTxHash config)).sum =
    (exit.unsignedTx.outputs.map (·.capacity.toNat)).sum + config.fee.toNat
  minimum : ∀ output ∈ exit.unsignedTx.outputs, output.type_ = none ∧
    (41 + output.lock.args.length) * 100000000 ≤ output.capacity.toNat

/-- The ledger an exit pays was read from the finalised block's snapshot. -/
structure Rests (crypto : Crypto) (hashes : CellHashes F) (terms : EscrowTerms)
    (latest : FinalisedBlockRecord) (exit : PreparedCapacityExit) : Prop where
  session : latest.block.sessionId = terms.sessionId
  ledger : ∃ tree cell, decodeCellSnapshot hashes latest.stateSnapshot = .ok tree ∧
    tree.root.1 = latest.block.stateRootAfter ∧ LedgerAt crypto terms tree cell exit.state

/-! ## Reading the calls back -/

section Calls

variable {Projection : Type} {port : ProjectionPort Projection} {terms : EscrowTerms}
  {openTx : CellTx} {openEvidence : Projection} {authorizations : List EscrowAuthorization}
  {attachment : EscrowAttachment Projection} {config : CapacityExitConfig}

lemma attach_ok (h : attach crypto port terms authorizations openTx openEvidence = .ok attachment) :
    attachment.terms = terms ∧ attachment.openEvidence = openEvidence ∧ terms.Valid ∧
    ∀ pair ∈ terms.participants.zip terms.deposits,
      checkDeposit crypto terms openTx (port.rawTxHash openEvidence) pair = .ok () := by
  simp only [attach, EscrowTerms.verifyAuthorizations, eq_ok, forResult_eq_ok,
    EscrowTerms.hash_eq_ok] at h
  obtain ⟨⟨_, ⟨hvalid, _⟩, _, _⟩, _, _, _, _, _, _, hdeposits, rfl⟩ := h
  exact ⟨rfl, rfl, EscrowTerms.valid_of_validate hvalid, hdeposits⟩

/-- A checked capacity deposit is an output of the open transaction with that capacity. -/
lemma checkDeposit_ok (hasset : terms.asset = .ckbCapacity)
    (h : checkDeposit crypto terms openTx rawTxHash pair = .ok ()) :
    pair.2.outpoint.txHash = rawTxHash ∧
      (openTx.outputs[pair.2.outpoint.index.toNat]?).map (·.capacity.toNat) =
        some pair.1.deposit.toNat := by
  simp only [checkDeposit, checkDepositAmount, hasset, eq_ok] at h
  obtain ⟨hpoint, output, houtput, _, _, _, _, _, hcapacity⟩ := h
  exact ⟨hpoint, by rw [houtput, Option.map_some, hcapacity]⟩

lemma verifyCkbCapacity_ok (htype : output.type_ = none) (h : verifyCkbCapacity output 0 = .ok ()) :
    (41 + output.lock.args.length) * 100000000 ≤ output.capacity.toNat := by
  simp only [verifyCkbCapacity, htype, eq_ok, minimum_eq_ok] at h
  obtain ⟨minimum, hminimum, hle⟩ := h
  rw [UInt64.le_iff_toNat_le] at hle
  omega

lemma payouts_ok {pairs : List (EscrowParticipant × ParticipantBalance)}
    (h : payouts pairs = .ok outputs) :
    outputs = (pairs.filter fun pair => pair.2.balance ≠ 0).map payout ∧
    (∀ pair ∈ pairs, (payout pair).capacity.toNat = pair.2.balance.toNat) ∧
    ∀ output ∈ outputs, output.type_ = none ∧
      (41 + output.lock.args.length) * 100000000 ≤ output.capacity.toNat := by
  induction pairs generalizing outputs with
  | nil =>
    obtain rfl := Except.ok.inj h
    simp
  | cons pair rest ih =>
    unfold payouts at h
    by_cases hzero : pair.2.balance = 0
    · rw [if_pos hzero] at h
      obtain ⟨houtputs, hexact, hminimum⟩ := ih h
      refine ⟨?_, List.forall_mem_cons.mpr ⟨?_, hexact⟩, hminimum⟩
      · rw [List.filter_cons_of_neg (by simpa using hzero), houtputs]
      · rw [payout, hzero]
        rfl
    · rw [if_neg hzero] at h
      simp only [eq_ok] at h
      obtain ⟨hfits, hcapacity, later, hlater, rfl⟩ := h
      obtain ⟨houtputs, hexact, hminimum⟩ := ih hlater
      refine ⟨?_, List.forall_mem_cons.mpr ⟨toNat_word hfits, hexact⟩,
        List.forall_mem_cons.mpr ⟨⟨rfl, verifyCkbCapacity_ok rfl hcapacity⟩, hminimum⟩⟩
      rw [List.filter_cons_of_pos (by simpa using hzero), List.map_cons, houtputs]

/-- The fee comes from the funding cell, which is not a deposit. -/
lemma fundFee_ok (h : fundFee terms config = .ok (funding, change)) :
    funding = config.feeFunding.toList.map (fun funding => ⟨funding.outpoint, 0⟩) ∧
    change = changeOutputs config ∧
    (∀ f ∈ config.feeFunding, ∀ deposit ∈ terms.deposits, deposit.outpoint ≠ f.outpoint) ∧
    (config.feeFunding.toList.map (·.capacity.toNat)).sum =
      (change.map (·.capacity.toNat)).sum + config.fee.toNat ∧
    ∀ output ∈ change, output.type_ = none ∧
      (41 + output.lock.args.length) * 100000000 ≤ output.capacity.toNat := by
  unfold fundFee at h
  cases hfunding : config.feeFunding with
  | none =>
    simp only [hfunding, eq_ok, Prod.mk.injEq] at h
    obtain ⟨hfee, rfl, rfl⟩ := h
    simp [changeOutputs, hfunding, hfee]
  | some f =>
    simp only [hfunding, eq_ok] at h
    obtain ⟨hdeposits, hfee, h⟩ := h
    have hleft : (f.capacity - config.fee).toNat + config.fee.toNat = f.capacity.toNat := by
      rw [UInt64.toNat_sub_of_le _ _ hfee]
      have := UInt64.le_iff_toNat_le.mp hfee
      omega
    have hother : ∀ g ∈ some f, ∀ deposit ∈ terms.deposits, deposit.outpoint ≠ g.outpoint := by
      rintro g ⟨⟩
      exact hdeposits
    by_cases hzero : f.capacity - config.fee = 0
    · simp only [hzero, if_true, pure_eq_ok, Prod.mk.injEq] at h
      obtain ⟨rfl, rfl⟩ := h
      rw [hzero] at hleft
      refine ⟨rfl, by simp [changeOutputs, hfunding, hzero], hother, ?_, by simp⟩
      simpa using hleft.symm
    · simp only [hzero, if_false, eq_ok, Prod.mk.injEq] at h
      obtain ⟨hcapacity, rfl, rfl⟩ := h
      refine ⟨rfl, by simp [changeOutputs, hfunding, hzero], hother, ?_, ?_⟩
      · simpa using hleft.symm
      · exact List.forall_mem_singleton.mpr ⟨rfl, verifyCkbCapacity_ok rfl hcapacity⟩

variable {hashes : CellHashes F} {latest : FinalisedBlockRecord} {state : EscrowState}

lemma settledLedger_ok (h : settledLedger crypto hashes terms latest = .ok state) :
    ∃ tree cell, decodeCellSnapshot hashes latest.stateSnapshot = .ok tree ∧
      tree.root.1 = latest.block.stateRootAfter ∧ LedgerAt crypto terms tree cell state := by
  simp only [settledLedger, eq_ok] at h
  obtain ⟨tree, htree, hroot, cell, honly, bytes, hbytes, decoded, hdecoded, hvalid, rfl⟩ := h
  refine ⟨tree, cell, htree, hroot, ?_, ⟨bytes, hbytes, hdecoded⟩, hvalid⟩
  unfold onlyLedgerCell at honly
  split at honly
  · rename_i only hone
    rw [hone, Except.ok.inj honly]
  · cases honly

end Calls

/-! ## Exactness -/

section Exact

variable {Projection : Type} {port : ProjectionPort Projection} {env : SessionEnv}
  {hashes : CellHashes F} {rawHash : CellTx → Except String Hash32} {terms : EscrowTerms}
  {openTx : CellTx} {openEvidence : Projection} {authorizations : List EscrowAuthorization}
  {attachment : EscrowAttachment Projection} {consensus : SelectedConsensus env.crypto}
  {latest : FinalisedBlockRecord} {config : CapacityExitConfig} {exit : PreparedCapacityExit}

/-- Deposits bring in what the participants deposited. -/
lemma sum_deposit_capacity (hvalid : terms.Valid) (hasset : terms.asset = .ckbCapacity)
    (hdeposits : ∀ pair ∈ terms.participants.zip terms.deposits,
      checkDeposit crypto terms openTx rawTxHash pair = .ok ())
    (hother : ∀ f ∈ config.feeFunding, ∀ deposit ∈ terms.deposits, deposit.outpoint ≠ f.outpoint) :
    (terms.deposits.map fun deposit =>
      inputCapacity openTx rawTxHash config ⟨deposit.outpoint, 0⟩).sum =
        (terms.participants.map (·.deposit.toNat)).sum := by
  have hpair : ∀ pair ∈ terms.participants.zip terms.deposits,
      inputCapacity openTx rawTxHash config ⟨pair.2.outpoint, 0⟩ = pair.1.deposit.toNat := by
    intro pair hpair
    obtain ⟨hpoint, hcapacity⟩ := checkDeposit_ok hasset (hdeposits pair hpair)
    have hdeposit : pair.2 ∈ terms.deposits := (List.of_mem_zip hpair).2
    have hnone : config.feeFunding.filter (fun f => f.outpoint = pair.2.outpoint) = none := by
      refine Option.filter_eq_none_iff.mpr fun f hf hsame => ?_
      exact hother f hf pair.2 hdeposit (of_decide_eq_true hsame).symm
    simp only [inputCapacity, hnone, if_pos hpoint, hcapacity, Option.getD_some]
  have hsame : terms.participants.map (·.deposit.toNat) = terms.deposits.map fun deposit =>
      inputCapacity openTx rawTxHash config ⟨deposit.outpoint, 0⟩ :=
    map_eq_map_of_zip hvalid.length.symm fun pair h => (hpair pair h).symm
  rw [hsame]

/-- The funding cell brings in its own capacity. -/
lemma sum_funding_capacity :
    (config.feeFunding.toList.map fun f =>
      inputCapacity openTx rawTxHash config ⟨f.outpoint, 0⟩).sum =
        (config.feeFunding.toList.map (·.capacity.toNat)).sum := by
  cases hfunding : config.feeFunding with
  | none => rfl
  | some f => simp [inputCapacity, hfunding, Option.filter]

/-- Payouts are worth the balances, and so the deposits. -/
lemma sum_payout_capacity {state : EscrowState} (hvalid : state.Valid crypto terms)
    (hexact : ∀ pair ∈ terms.participants.zip state.ledger,
      (payout pair).capacity.toNat = pair.2.balance.toNat) :
    ((((terms.participants.zip state.ledger).filter fun pair => pair.2.balance ≠ 0).map payout).map
      (·.capacity.toNat)).sum = (terms.participants.map (·.deposit.toNat)).sum := by
  have hzero : ∀ pair ∈ terms.participants.zip state.ledger,
      decide (pair.2.balance ≠ 0) = false → (payout pair).capacity.toNat = 0 := by
    intro pair hpair hno
    have hbalance : pair.2.balance = 0 := by simpa using hno
    rw [hexact pair hpair, hbalance]
    rfl
  calc ((((terms.participants.zip state.ledger).filter fun pair =>
          pair.2.balance ≠ 0).map payout).map (·.capacity.toNat)).sum
      = ((terms.participants.zip state.ledger).map fun pair =>
          (payout pair).capacity.toNat).sum := by
        rw [List.map_map]
        exact sum_map_filter hzero
    _ = (((terms.participants.zip state.ledger).map (·.2)).map (·.balance.toNat)).sum := by
        rw [List.map_map]
        exact congrArg List.sum (List.map_congr_left hexact)
    _ = (state.ledger.map (·.balance.toNat)).sum := by rw [List.map_snd_zip hvalid.length.le]
    _ = (terms.participants.map (·.deposit.toNat)).sum := hvalid.conserved

variable (hattach : attach env.crypto port terms authorizations openTx openEvidence = .ok attachment)
  (hprepare : prepareCapacityExit env hashes rawHash attachment consensus latest config = .ok exit)
include hattach hprepare

/-- The prepared transaction settles the ledger it carries. -/
lemma settles_of_prepare :
    Settles terms openTx (port.rawTxHash openEvidence) config exit ∧
      ∃ tree cell, decodeCellSnapshot hashes latest.stateSnapshot = .ok tree ∧
        tree.root.1 = latest.block.stateRootAfter ∧
        LedgerAt env.crypto terms tree cell exit.state := by
  obtain ⟨rfl, _, hvalid, hdeposits⟩ := attach_ok hattach
  simp only [prepareCapacityExit, CellTx.new, CellTx.newWithHeaderDeps, eq_ok, Prod.exists]
    at hprepare
  obtain ⟨hasset, _, _, _, state, hstate, paid, hpaid, funding, change, hfund, tx, ⟨_, rfl⟩, _, _,
    _, _, _, _, _, _, rfl⟩ := hprepare
  have hledger := settledLedger_ok hstate
  refine ⟨?_, hledger⟩
  obtain ⟨tree, cell, _, _, hat⟩ := hledger
  have hstateValid := EscrowState.valid_of_validate hat.valid
  obtain ⟨rfl, hexact, hpaidMinimum⟩ := payouts_ok hpaid
  obtain ⟨rfl, hchange, hother, hfee, hchangeMinimum⟩ := fundFee_ok hfund
  have hinputs : List.map (·.previousOutput)
      (attachment.terms.deposits.map (fun deposit => CellInput.mk deposit.outpoint 0) ++
        config.feeFunding.toList.map (fun f => CellInput.mk f.outpoint 0)) =
      attachment.terms.deposits.map (·.outpoint) ++ config.feeFunding.toList.map (·.outpoint) := by
    rw [List.map_append, List.map_map, List.map_map]
    rfl
  refine ⟨hinputs, ?_, hchange ▸ rfl, hexact, rfl, ?_, ?_⟩
  · -- the deposits are distinct and the funding cell is none of them
    show (List.map _ _).Nodup
    rw [hinputs, List.nodup_append]
    refine ⟨hvalid.outpoints, ?_, ?_⟩
    · cases config.feeFunding <;> simp
    · rintro point hpoint other hfunding rfl
      obtain ⟨deposit, hdeposit, rfl⟩ := List.mem_map.mp hpoint
      obtain ⟨f, hf, hsame⟩ := List.mem_map.mp hfunding
      exact hother f (Option.mem_toList.mp hf) deposit hdeposit hsame.symm
  · show (List.map _ _).sum = (List.map _ (_ ++ _)).sum + _
    have hin := sum_deposit_capacity hvalid hasset hdeposits hother
    have hfunding : (config.feeFunding.toList.map fun f =>
        inputCapacity openTx (port.rawTxHash openEvidence) config ⟨f.outpoint, 0⟩).sum = _ :=
      sum_funding_capacity
    have hout := sum_payout_capacity hstateValid hexact
    rw [List.map_append, List.map_append, List.sum_append, List.sum_append, hout, List.map_map,
      List.map_map]
    simp only [Function.comp_def]
    rw [hin, hfunding, hfee, Nat.add_assoc]
  · intro output houtput
    rcases List.mem_append.mp houtput with hpay | hchanged
    · exact hpaidMinimum output hpay
    · exact hchangeMinimum output hchanged

/-- **When a prepared exit is correct.**  Everything about the transaction holds of every prepared
    exit; what remains is that the finalised block belongs to the session of the terms. -/
theorem capacity_exit_correct_iff :
    (Settles terms openTx (port.rawTxHash openEvidence) config exit ∧
      Rests env.crypto hashes terms latest exit) ↔ latest.block.sessionId = terms.sessionId := by
  obtain ⟨hsettles, hledger⟩ := settles_of_prepare hattach hprepare
  constructor
  · rintro ⟨_, hrests⟩
    exact hrests.session
  · intro hsession
    exact ⟨hsettles, hsession, hledger⟩

end Exact

/-! Settling the two participants' ledger from a block of some session. -/

def settlingEnv : SessionEnv := ⟨tailCrypto, .blank⟩

def settlingEngine : SelectedConsensus tailCrypto :=
  .staticClosedCommittee ⟨⟨⟨[toyValidator "alice" 1], by decide, by decide, by decide, fun _ _ => rfl,
    by decide⟩, 1, toyQuorum_ne_zero, by decide⟩⟩

/-- Both deposits under the escrow lock. -/
def openingTx : CellTx :=
  ⟨0, [], [], [], [⟨ledgerLock, none, 10000000000⟩, ⟨ledgerLock, none, 10000000000⟩], [[], []], []⟩

/-- A receipt chain that is final as soon as it is looked at. -/
def finalPort : ProjectionPort Unit where
  verifyProjection _ _ := .ok ()
  stage _ := .finalized
  rawTxHash _ := fill 32 7
  finalized _ := some ⟨6, 5⟩

def pairAuthorizations : List EscrowAuthorization :=
  [⟨fill 32 1, List.replicate 64 1⟩, ⟨fill 32 2, List.replicate 64 1⟩]

def pairAttachment : EscrowAttachment Unit := ⟨pairTerms, pairAuthorizations, ()⟩

/-- The tree after the update, as a snapshot. -/
def settledSnapshot : List UInt8 :=
  (encodeCellSnapshot ((CellStateTree.new : CellStateTree tailCellHashes).insert ledgerCell.1
    (CellEntry.fromOutput tailCellHashes ledgerOutput (stateData pairUpdated) 1
      false))).toOption.getD []

def settledRecord (sessionId : Hash32) : FinalisedBlockRecord :=
  let record := FinalisedBlockRecord.uniform sessionId (fill 32 0) 1 settledSnapshot
  { record with proof := .staticClosedCommittee ⟨record.block.hash tailCrypto, [⟨"alice", fill 64 1⟩]⟩ }

/-- A funding cell that pays a fee of one CKB and gets the rest back. -/
def fundedConfig : CapacityExitConfig :=
  ⟨[], some ⟨⟨fill 32 3, 0⟩, 5000000000, ledgerLock⟩, 100000000⟩

def settle (sessionId : Hash32) : Except EscrowError PreparedCapacityExit :=
  prepareCapacityExit settlingEnv tailCellHashes (fun _ => .ok (fill 32 1))
    pairAttachment settlingEngine (settledRecord sessionId) fundedConfig

set_option maxRecDepth 8000 in
/-- A block of the escrow's own session. -/
theorem capacity_exit_correct_pair :
    attach tailCrypto finalPort pairTerms pairAuthorizations openingTx () = .ok pairAttachment ∧
    ∃ exit, settle pairTerms.sessionId = .ok exit ∧
      Settles pairTerms openingTx (fill 32 7) fundedConfig exit ∧
      Rests tailCrypto tailCellHashes pairTerms (settledRecord pairTerms.sessionId) exit := by
  have hattach : attach settlingEnv.crypto finalPort pairTerms pairAuthorizations openingTx () =
      .ok pairAttachment := rfl
  obtain ⟨exit, hexit⟩ : ∃ exit, settle pairTerms.sessionId = .ok exit := ⟨_, rfl⟩
  exact ⟨hattach, exit, hexit, (capacity_exit_correct_iff hattach hexit).mpr rfl⟩

set_option maxRecDepth 8000 in
/-- A finalised block of another session, whose snapshot holds a ledger of these terms, is settled
    all the same, and the evidence names the escrow's session beside that block. -/
theorem foreign_block_settles :
    attach tailCrypto finalPort pairTerms pairAuthorizations openingTx () = .ok pairAttachment ∧
    (settledRecord (fill 32 8)).block.sessionId ≠ pairTerms.sessionId ∧
    ∃ exit, settle (fill 32 8) = .ok exit ∧ exit.evidence.sessionId = pairTerms.sessionId ∧
      exit.evidence.blockHash = (settledRecord (fill 32 8)).block.hash tailCrypto := by
  exact ⟨rfl, by decide, _, rfl, rfl, rfl⟩

end Myelin.Escrow
