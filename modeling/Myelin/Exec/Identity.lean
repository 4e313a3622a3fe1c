/-
  What a transaction id commits to.

  A transaction is hashed as one long concatenation.  Each part says where it ends: words and hashes
  have a fixed width, arguments and data follow their length, inputs, dependencies and outputs follow
  their count.  The DATA of the outputs has no count of its own and is followed directly by the
  witnesses; it is told apart because there are as many entries as outputs, and these were counted.
-/
import Myelin.Exec.CellTx
import Myelin.Lib.Delimited

namespace Myelin.Exec

open Lib

/-! ## Parts -/

lemma delimited_outPoint : Delimited OutPoint.toKey fun _ => True ∧ True :=
  (delimited_fixedBytes 32).append (f := OutPoint.txHash) (g := OutPoint.index) delimited_le32
    fun a b htx hindex => by
      cases a
      cases b
      simp_all

/-- Bytes after a 32-bit length. -/
lemma delimited_var :
    Delimited (fun bytes : List UInt8 => leBytes 4 bytes.length ++ bytes) (·.length < 2 ^ 32) :=
  (delimited_leBytes 4).sized

lemma delimited_input : Delimited
    (fun input : CellInput => input.previousOutput.toKey ++ le64 input.since)
    fun _ => (True ∧ True) ∧ True :=
  delimited_outPoint.append delimited_le64 fun a b houtput hsince => by
    cases a
    cases b
    simp_all

lemma delimited_depType : Delimited (fun depType : DepType => [depType.toByte]) fun _ => True :=
  delimited_of_length (fun _ _ => rfl) fun a b _ _ h => by
    cases a <;> cases b <;> simp_all [DepType.toByte]

lemma delimited_dep : Delimited
    (fun dep : CellDep => dep.outPoint.toKey ++ [dep.depType.toByte]) fun _ => (True ∧ True) ∧ True :=
  delimited_outPoint.append (f := CellDep.outPoint) (g := CellDep.depType) delimited_depType
    fun a b houtPoint hdepType => by
      cases a
      cases b
      simp_all

lemma delimited_script : Delimited scriptBody fun script => script.args.length < 2 ^ 32 := by
  refine ⟨fun {a b rest rest'} ha hb heq => ?_⟩
  simp only [scriptBody, List.append_assoc] at heq
  obtain ⟨hcode, heq⟩ := val_append_inj.mp heq
  obtain ⟨htype, heq⟩ := delimited_byte.read trivial trivial heq
  rw [← List.append_assoc, ← List.append_assoc _ b.args] at heq
  obtain ⟨hargs, hrest⟩ := delimited_var.read ha hb heq
  cases a
  cases b
  simp_all

/-- The scripts of an output have countable arguments. -/
def CellOutput.Fits (output : CellOutput) : Prop :=
  output.lock.args.length < 2 ^ 32 ∧ ∀ script ∈ output.type_, script.args.length < 2 ^ 32

/-- The flag says whether a type script follows. -/
lemma delimited_type : Delimited (fun type_ : Option Script =>
      match type_ with
      | some typeScript => 1 :: scriptBody typeScript
      | none => [0])
    fun type_ => ∀ script ∈ type_, script.args.length < 2 ^ 32 := by
  refine ⟨fun {a b rest rest'} ha hb heq => ?_⟩
  cases a with
  | none =>
    cases b with
    | none => exact ⟨rfl, List.append_cancel_left heq⟩
    | some script => simp at heq
  | some script =>
    cases b with
    | none => simp at heq
    | some other =>
      obtain ⟨rfl, hrest⟩ := delimited_script.read (ha script rfl) (hb other rfl) (List.cons.inj heq).2
      exact ⟨rfl, hrest⟩

lemma delimited_output : Delimited outputBody CellOutput.Fits := by
  refine ⟨fun {a b rest rest'} ha hb heq => ?_⟩
  simp only [outputBody, List.append_assoc] at heq
  obtain ⟨hlock, heq⟩ := delimited_script.read ha.1 hb.1 heq
  obtain ⟨htype, heq⟩ := delimited_type.read ha.2 hb.2 heq
  obtain ⟨hcapacity, hrest⟩ := le64_append_inj.mp heq
  cases a
  cases b
  simp_all

/-! ## Transactions -/

/-- Data for every output, and nothing too long for a 32-bit length. -/
structure CellTx.WellFormed (tx : CellTx) : Prop where
  paired : tx.outputs.length = tx.outputsData.length
  inputs : tx.inputs.length < 2 ^ 32
  cellDeps : tx.cellDeps.length < 2 ^ 32
  headerDeps : tx.headerDeps.length < 2 ^ 32
  outputs : tx.outputs.length < 2 ^ 32
  scripts : ∀ output ∈ tx.outputs, output.Fits
  data : ∀ data ∈ tx.outputsData, data.length < 2 ^ 32
  witnesses : tx.witnesses.length < 2 ^ 32
  witnessBytes : ∀ witness ∈ tx.witnesses, witness.length < 2 ^ 32

/-- Everything but the witnesses is read back from the body, whatever follows it. -/
lemma transactionBody_read {tx tx' : CellTx} (h : tx.WellFormed) (h' : tx'.WellFormed)
    {rest rest' : List UInt8} (heq : transactionBody tx ++ rest = transactionBody tx' ++ rest') :
    { tx with witnesses := [] } = { tx' with witnesses := [] } ∧ rest = rest' := by
  have hcount := delimited_leBytes 4
  simp only [transactionBody, List.append_assoc] at heq
  obtain ⟨hversion, heq⟩ := le32_append_inj.mp heq
  obtain ⟨hlength, heq⟩ := hcount.read h.inputs h'.inputs heq
  obtain ⟨hinputs, heq⟩ := delimited_input.flatMap hlength (by simp) (by simp) heq
  obtain ⟨hlength, heq⟩ := hcount.read h.cellDeps h'.cellDeps heq
  obtain ⟨hdeps, heq⟩ := delimited_dep.flatMap hlength (by simp) (by simp) heq
  obtain ⟨hlength, heq⟩ := hcount.read h.headerDeps h'.headerDeps heq
  obtain ⟨hheaders, heq⟩ := (delimited_fixedBytes 32).flatMap hlength (by simp) (by simp) heq
  obtain ⟨hlength, heq⟩ := hcount.read h.outputs h'.outputs heq
  obtain ⟨houtputs, heq⟩ := delimited_output.flatMap hlength h.scripts h'.scripts heq
  -- the data entries are as many as the outputs
  rw [h.paired, h'.paired] at hlength
  obtain ⟨hdata, hrest⟩ := delimited_var.flatMap hlength h.data h'.data heq
  exact ⟨by simp only [hversion, hinputs, hdeps, hheaders, houtputs, hdata], hrest⟩

/-- **Transaction identity**: the bytes hashed for the id of a well-formed transaction determine
    everything but its witnesses, and those hashed for the witness id determine the witnesses too. -/
theorem identity_preimages (tx tx' : CellTx) (h : tx.WellFormed) (h' : tx'.WellFormed) :
    (∀ blake3, computeTxid blake3 tx = blake3 (txidPreimage tx) ∧
      computeWtxid blake3 tx = blake3 (wtxidPreimage tx)) ∧
    (txidPreimage tx = txidPreimage tx' ↔
      { tx with witnesses := [] } = { tx' with witnesses := [] }) ∧
    (wtxidPreimage tx = wtxidPreimage tx' ↔ tx = tx') := by
  refine ⟨fun _ => ⟨rfl, rfl⟩, ⟨fun heq => ?_, fun hsame => ?_⟩, fun heq => ?_, fun hsame => hsame ▸ rfl⟩
  · have hbody := List.append_cancel_left heq
    exact (@transactionBody_read tx tx' h h' [] [] (by rw [hbody])).1
  · -- the body does not look at the witnesses
    have hbytes := congrArg txidPreimage hsame
    exact hbytes
  · simp only [wtxidPreimage, List.append_assoc, List.append_cancel_left_eq] at heq
    obtain ⟨hbody, heq⟩ := transactionBody_read h h' heq
    have hwitnesses := ((delimited_leBytes 4).counted delimited_var).injective
      ⟨h.witnesses, h.witnessBytes⟩ ⟨h'.witnesses, h'.witnessBytes⟩ heq
    cases tx
    cases tx'
    simp_all

/-- Transactions that differ in a witness. -/
def identityTx (witness : UInt8) : CellTx :=
  ⟨cellTxVersion, [], [], [FixedBytes.fill 32 1], [⟨⟨FixedBytes.fill 32 2, 0, [3]⟩, none, 4⟩], [[5]],
    [[witness]]⟩

lemma identityTx_wellFormed (witness : UInt8) : (identityTx witness).WellFormed := by
  constructor <;> simp [identityTx, CellOutput.Fits]

theorem identity_preimages_witness :
    (identityTx 0).WellFormed ∧ (identityTx 1).WellFormed ∧
      txidPreimage (identityTx 0) = txidPreimage (identityTx 1) ∧
      wtxidPreimage (identityTx 0) ≠ wtxidPreimage (identityTx 1) := by
  have hfirst := identityTx_wellFormed 0
  have hsecond := identityTx_wellFormed 1
  obtain ⟨-, hid, hwitnessId⟩ := identity_preimages _ _ hfirst hsecond
  exact ⟨hfirst, hsecond, hid.mpr rfl, fun heq => absurd (hwitnessId.mp heq) (by decide)⟩

end Myelin.Exec
