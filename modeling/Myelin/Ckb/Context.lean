/-
  Context receipts: which cells and headers a transaction was resolved to.

  A receipt lists one evidence entry per declared cell, under a key of role, position, outpoint and
  group (`EvidenceKey`).  `verify` finds every DECLARED key exactly once; `contextProvider` then
  files ALL entries under their outpoint alone, in list order, and the strict script verifier reads
  cells by outpoint.  Two keys can share an outpoint (an input that is also a dependency, a cell in
  two groups), and nothing limits the entries to the declared keys, so what the verifier reads
  under an outpoint is the last entry filed there, declared or not.

  **`receipt_fixes_cells_iff`** says what is missing.

    - An accepted receipt fixes the resolved cells exactly if it has as many entries as there are
      declared keys, and entries of one outpoint carry the same output and data (`Settled`).

    - It fixes the verdict as well exactly if, besides, the entries of an outpoint that is read
      leave it one creating block (`OneOrigin`).  That this is needed is shown by other accepted
      receipts with the same declared entries: one that lists an entry last (`refiled`), whose
      block is then the one filed, and under a repeated header dependency one with another header
      in the spare place (`exists_headers`).

  The hashes over CKB's own encodings are parameters (`ContextHashes`), and so is the virtual
  machine: its verdict is an arbitrary function of the transaction and of what it can read.
-/
import Myelin.Exec.Codec
import Myelin.Lib.Lists

namespace Myelin.Ckb

open Lib Exec Function
open FixedBytes (fill)

/-! ## Evidence -/

/-- Role of one resolved cell in the transaction context. -/
inductive ResolvedCellRole where
  | input
  | cellDep
  /-- Member expanded from a dependency group. -/
  | depGroupMember
  deriving DecidableEq

/-- What `verify` identifies an entry by. -/
structure EvidenceKey where
  role : ResolvedCellRole
  /-- Index in the declared vector, or member index in a group. -/
  index : Nat
  outPoint : OutPoint
  /-- Declared group when this is an expanded member. -/
  expandedFrom : Option OutPoint
  deriving DecidableEq

/-- One fully resolved cell and its data. -/
structure ResolvedCellEvidence where
  role : ResolvedCellRole
  index : Nat
  outPoint : OutPoint
  expandedFrom : Option OutPoint
  output : CellOutput
  data : List UInt8
  dataHash : FixedBytes 32
  /-- Creating block when the referenced transaction is committed. -/
  creationBlockHash : Option (FixedBytes 32)
  deriving DecidableEq

def ResolvedCellEvidence.key (cell : ResolvedCellEvidence) : EvidenceKey :=
  ⟨cell.role, cell.index, cell.outPoint, cell.expandedFrom⟩

/-- Raw header fields. -/
structure CkbRawHeader where
  version : UInt32
  compactTarget : UInt32
  timestamp : UInt64
  number : UInt64
  epoch : UInt64
  parentHash : FixedBytes 32
  transactionsRoot : FixedBytes 32
  proposalsHash : FixedBytes 32
  extraHash : FixedBytes 32
  dao : FixedBytes 32
  deriving DecidableEq

/-- Header as the virtual machine sees it. -/
structure CkbHeader where
  raw : CkbRawHeader
  nonce : BitVec 128
  deriving DecidableEq

/-- Header fields together with the hash they are listed under. -/
structure CkbHeaderEvidence extends CkbRawHeader where
  hash : FixedBytes 32
  nonce : BitVec 128
  deriving DecidableEq

def CkbHeaderEvidence.packed (header : CkbHeaderEvidence) : CkbHeader :=
  ⟨header.toCkbRawHeader, header.nonce⟩

/-- What the receipt's commitment covers: every field but the commitment itself. -/
structure ContextBody where
  schema : String
  chain : String
  nodeVersion : String
  genesisHash : FixedBytes 32
  consensusRulesHash : FixedBytes 32
  rawTxHash : FixedBytes 32
  transactionJsonHash : FixedBytes 32
  tip : CkbHeaderEvidence
  cells : List ResolvedCellEvidence
  headers : List CkbHeaderEvidence
  deriving DecidableEq

/-- Hash-bound context resolution receipt. -/
structure ContextResolvedReceipt extends ContextBody where
  contextCommitment : FixedBytes 32
  deriving DecidableEq

inductive CkbAdapterError where
  | encoding (message : String)
  | depGroup (message : String)
  | evidenceMismatch (message : String)
  | localVm (message : String)
  deriving DecidableEq

/-- Hashes over CKB's encodings; encoding a transaction or a header can fail. -/
structure ContextHashes where
  ckbRawTransactionHashMolecule : CellTx → Except String (FixedBytes 32)
  /-- `canonical_json_hash` of the transaction's JSON form. -/
  transactionJsonHash : CellTx → Except CkbAdapterError (FixedBytes 32)
  ckbCellDataHash : List UInt8 → FixedBytes 32
  ckbHeaderHashMolecule : CkbHeader → Except String (FixedBytes 32)
  contextCommitment : ContextBody → FixedBytes 32

/-! ## Verification -/

variable (hashes : ContextHashes) (context : ContextResolvedReceipt)

def contextSchema : String := "myelin-ckb-context-resolved"

/-- The header's fields hash to the hash it is listed under. -/
def CkbHeaderEvidence.verifyHash (header : CkbHeaderEvidence) : Except CkbAdapterError Unit := do
  let actual ← (hashes.ckbHeaderHashMolecule header.packed).mapError .encoding
  ensure (actual = header.hash)
    (.evidenceMismatch "CKB header hash does not match its canonical fields")

/-- The only entry under a key. -/
def requireCell (key : EvidenceKey) : Except CkbAdapterError ResolvedCellEvidence :=
  match context.cells.filter (fun cell => cell.key = key) with
  | [] => .error (.evidenceMismatch ("missing resolved Cell " ++ key.outPoint.display))
  | [cell] => .ok cell
  | _ :: _ :: _ => .error (.evidenceMismatch ("duplicate resolved Cell " ++ key.outPoint.display))

/-- Every entry's data has its hash and no key is listed twice; `seen` are the keys so far. -/
def verifyCells (seen : List EvidenceKey) : List ResolvedCellEvidence → Except CkbAdapterError Unit
  | [] => .ok ()
  | cell :: rest => do
      ensure (hashes.ckbCellDataHash cell.data = cell.dataHash)
        (.evidenceMismatch ("Cell data hash mismatch at " ++ cell.outPoint.display))
      ensure (cell.key ∉ seen) (.evidenceMismatch "duplicate resolved Cell evidence")
      verifyCells (cell.key :: seen) rest

def inputKey (input : CellInput × Nat) : EvidenceKey :=
  ⟨.input, input.2, input.1.previousOutput, none⟩

def cellDepKey (dep : CellDep × Nat) : EvidenceKey := ⟨.cellDep, dep.2, dep.1.outPoint, none⟩

def memberKey (root : OutPoint) (member : OutPoint × Nat) : EvidenceKey :=
  ⟨.depGroupMember, member.2, member.1, some root⟩

/-- A dependency is present, and so are the members of a group. -/
def requireDep (dep : CellDep × Nat) : Except CkbAdapterError Unit := do
  let root ← requireCell context (cellDepKey dep)
  match dep.1.depType with
  | .code => pure ()
  | .depGroup => do
      let members ← (parseCkbDepGroupData root.data).mapError .depGroup
      forResult (fun member =>
        (requireCell context (memberKey dep.1.outPoint member)).map fun _ => ()) members.zipIdx

/-- The header a map from hashes holds: the last one listed under the hash. -/
def headerByHash (hash : FixedBytes 32) : Option CkbHeaderEvidence :=
  context.headers.reverse.find? fun header => header.hash = hash

/-- Exactly the declared header dependencies are there, each with its hash. -/
def verifyHeaders (tx : CellTx) : Except CkbAdapterError Unit := do
  let mapLen := (context.headers.map (·.hash)).dedup.length
  ensure (mapLen = context.headers.length ∧ mapLen = tx.headerDeps.length)
    (.evidenceMismatch "header dependency cardinality mismatch")
  forResult (fun hash => do
    let header ← okOr (headerByHash context hash) (.evidenceMismatch "missing header dependency")
    header.verifyHash hashes) tx.headerDeps

/-- The receipt is about this very transaction; the JSON form is made only if the raw hash
    matches. -/
def verifyTransaction (tx : CellTx) : Except CkbAdapterError Unit := do
  let rawTxHash ← (hashes.ckbRawTransactionHashMolecule tx).mapError .encoding
  ensure (rawTxHash = context.rawTxHash)
    (.evidenceMismatch "context receipt is bound to a different transaction")
  let jsonHash ← hashes.transactionJsonHash tx
  ensure (jsonHash = context.transactionJsonHash)
    (.evidenceMismatch "context receipt is bound to a different transaction")

/-- Recompute the structural, hash and receipt commitments. -/
def ContextResolvedReceipt.verify (tx : CellTx) : Except CkbAdapterError Unit := do
  ensure (context.schema = contextSchema) (.evidenceMismatch "unsupported context receipt schema")
  verifyTransaction hashes context tx
  context.tip.verifyHash hashes
  ensure (context.genesisHash ≠ fill 32 0 ∧ context.consensusRulesHash ≠ fill 32 0 ∧
      context.chain ≠ "" ∧ context.nodeVersion ≠ "")
    (.evidenceMismatch "context chain identity is incomplete")
  verifyCells hashes [] context.cells
  forResult (fun input => (requireCell context (inputKey input)).map fun _ => ()) tx.inputs.zipIdx
  forResult (requireDep context) tx.cellDeps.zipIdx
  verifyHeaders hashes context tx
  ensure (hashes.contextCommitment context.toContextBody = context.contextCommitment)
    (.evidenceMismatch "context receipt commitment mismatch")

/-! ## The provider and what the strict verifier reads from it -/

/-- Cell as the script verifier loads it. -/
structure ResolvedCell where
  cellOutput : CellOutput
  data : Option (List UInt8)
  deriving DecidableEq

/-- In-memory cells and headers. -/
structure SimpleDataProvider where
  cells : OutPoint → Option ResolvedCell
  ckbHeaders : FixedBytes 32 → Option CkbHeader
  /-- Header hash a cell was created under. -/
  cellHeaders : OutPoint → Option (FixedBytes 32)

variable (provider : SimpleDataProvider)

namespace SimpleDataProvider

def new : SimpleDataProvider := ⟨fun _ => none, fun _ => none, fun _ => none⟩

def addCkbHeader (hash : FixedBytes 32) (header : CkbHeader) : SimpleDataProvider :=
  { provider with ckbHeaders := update provider.ckbHeaders hash (some header) }

def addCell (outPoint : OutPoint) (cell : ResolvedCell) : SimpleDataProvider :=
  { provider with cells := update provider.cells outPoint (some cell) }

def addCellWithHeader (outPoint : OutPoint) (cell : ResolvedCell) (headerHash : FixedBytes 32) :
    SimpleDataProvider :=
  { provider with
    cells := update provider.cells outPoint (some cell)
    cellHeaders := update provider.cellHeaders outPoint (some headerHash) }

end SimpleDataProvider

/-- The cell an entry stands for. -/
def ResolvedCellEvidence.resolved (cell : ResolvedCellEvidence) : ResolvedCell :=
  ⟨cell.output, some cell.data⟩

/-- The creating block of a cell, when its header is in the receipt. -/
def ContextResolvedReceipt.creationHeader (cell : ResolvedCellEvidence) : Option (FixedBytes 32) :=
  cell.creationBlockHash.filter fun hash => hash ∈ context.headers.map (·.hash)

/-- File one entry under its outpoint. -/
def addEvidence (provider : SimpleDataProvider)
    (cell : ResolvedCellEvidence) : SimpleDataProvider :=
  match context.creationHeader cell with
  | some headerHash => provider.addCellWithHeader cell.outPoint cell.resolved headerHash
  | none => provider.addCell cell.outPoint cell.resolved

/-- All headers and all entries of a receipt. -/
def contextProvider : SimpleDataProvider :=
  context.cells.foldl (addEvidence context)
    (context.headers.foldl (fun provider header => provider.addCkbHeader header.hash header.packed)
      .new)

inductive VmError where
  | itemMissing (message : String)
  | invalidData (message : String)
  deriving DecidableEq

/-- The outpoints a dependency stands for. -/
def expandDep (dep : CellDep) : Except VmError (List OutPoint) :=
  match dep.depType with
  | .code => .ok [dep.outPoint]
  | .depGroup => do
      let groupCell ← okOr (provider.cells dep.outPoint)
        (.itemMissing ("missing dep-group cell " ++ dep.outPoint.display))
      (parseCkbDepGroupData (groupCell.data.getD [])).mapError fun error =>
        .invalidData ("invalid CKB dep-group " ++ dep.outPoint.display ++ ": " ++ error)

variable (tx : CellTx) (outPoint : OutPoint)

/-- Code dependencies with groups expanded. -/
def expandedCodeDepOutpoints : Except VmError (List OutPoint) :=
  (mapResult (expandDep provider) tx.cellDeps).map List.flatten

/-- The header of a cell's creating block, if the transaction declares it. -/
def ckbHeaderByOutpoint : Option CkbHeader :=
  ((provider.cellHeaders outPoint).filter fun hash => hash ∈ tx.headerDeps).bind provider.ckbHeaders

/-- One cell as a script can see it. -/
structure CellView where
  cell : Option ResolvedCell
  header : Option CkbHeader
  deriving DecidableEq

def cellView : CellView :=
  ⟨provider.cells outPoint, ckbHeaderByOutpoint provider tx outPoint⟩

/-- Everything the strict verifier can read besides the transaction. -/
structure StrictView where
  inputs : List CellView
  cellDeps : Except VmError (List (OutPoint × CellView))
  headerDeps : List (Option CkbHeader)

def strictView (tx : CellTx) (provider : SimpleDataProvider) : StrictView where
  inputs := tx.inputs.map fun input => cellView provider tx input.previousOutput
  cellDeps := (expandedCodeDepOutpoints provider tx).map fun outPoints =>
    outPoints.map fun outPoint => (outPoint, cellView provider tx outPoint)
  headerDeps := tx.headerDeps.map provider.ckbHeaders

/-- The outpoints whose cells the strict verifier reads. -/
def Reads (tx : CellTx) (provider : SimpleDataProvider) (point : OutPoint) : Prop :=
  point ∈ tx.inputs.map (·.previousOutput) ∨
    ∃ points, expandedCodeDepOutpoints provider tx = .ok points ∧ point ∈ points

/-- The script verifier's cycles or its error. -/
abbrev ScriptVerifier := CellTx → StrictView → UInt64 → Except String UInt64

/-- The local verdict over a receipt. -/
def localVmCycles (vm : ScriptVerifier) (tx : CellTx) (context : ContextResolvedReceipt)
    (maxCycles : UInt64) : Except CkbAdapterError UInt64 :=
  (vm tx (strictView tx (contextProvider context)) maxCycles).mapError .localVm

/-! ## The keys a transaction declares -/

namespace ContextResolvedReceipt

/-- The first entry under a key. -/
def evidenceAt (key : EvidenceKey) : Option ResolvedCellEvidence :=
  context.cells.find? fun cell => cell.key = key

/-- Members of a group, from the data of the group's own entry. -/
def members (dep : CellDep × Nat) : List OutPoint :=
  match context.evidenceAt (cellDepKey dep) with
  | some root => (parseCkbDepGroupData root.data).toOption.getD []
  | none => []

/-- A dependency's key and those of its members. -/
def depKeys (dep : CellDep × Nat) : List EvidenceKey :=
  match dep.1.depType with
  | .code => [cellDepKey dep]
  | .depGroup => cellDepKey dep :: (context.members dep).zipIdx.map (memberKey dep.1.outPoint)

/-- Inputs, dependencies and members of groups. -/
def declared (tx : CellTx) : List EvidenceKey :=
  tx.inputs.zipIdx.map inputKey ++ tx.cellDeps.zipIdx.flatMap context.depKeys

/-- Every entry is one of the declared cells. -/
def NothingExtra (tx : CellTx) : Prop :=
  ∀ cell ∈ context.cells, cell.key ∈ context.declared tx

/-- Every declared outpoint resolves to the output and data of its key's only entry. -/
def ResolvesOwn (tx : CellTx) : Prop :=
  ∀ key ∈ context.declared tx, ∃ cell, context.cells.filter (fun c => c.key = key) = [cell] ∧
    (contextProvider context).cells key.outPoint = some cell.resolved

/-- As many entries as declared keys, and one content per outpoint. -/
structure Settled (context : ContextResolvedReceipt) (tx : CellTx) : Prop where
  count : context.cells.length = (context.declared tx).dedup.length
  content : ∀ a ∈ context.cells, ∀ b ∈ context.cells, a.outPoint = b.outPoint →
    a.output = b.output ∧ a.data = b.data

/-- Entries of one outpoint that is read name at most one declared header, and no other header
    besides it where a repeated header dependency leaves a place for one. -/
def OneOrigin (tx : CellTx) : Prop :=
  ∀ a ∈ context.cells, ∀ b ∈ context.cells, a.outPoint = b.outPoint →
    Reads tx (contextProvider context) a.outPoint →
    ∀ origin other, a.creationBlockHash = some origin → b.creationBlockHash = some other →
      origin ∈ tx.headerDeps → (other ∈ tx.headerDeps ∨ ¬tx.headerDeps.Nodup) → other = origin

/-- Two receipts have the same entries under the declared keys of the first. -/
def Agrees (context other : ContextResolvedReceipt) (tx : CellTx) : Prop :=
  ∀ key ∈ context.declared tx, context.evidenceAt key = other.evidenceAt key

/-- Headers that both receipts list under one hash, and that have it, are the same. -/
def NoHeaderCollision (hashes : ContextHashes) (context other : ContextResolvedReceipt) : Prop :=
  ∀ a ∈ context.headers, ∀ b ∈ other.headers, a.hash = b.hash →
    hashes.ckbHeaderHashMolecule a.packed = .ok a.hash →
      hashes.ckbHeaderHashMolecule b.packed = .ok b.hash → a.packed = b.packed

/-- All settled accepted receipts with the declared entries of this one get its verdict. -/
def FixesVerdict (tx : CellTx) : Prop :=
  ∀ other : ContextResolvedReceipt, other.verify hashes tx = .ok () → other.Settled tx →
    NoHeaderCollision hashes context other → context.Agrees other tx →
    ∀ (vm : ScriptVerifier) (maxCycles : UInt64),
      localVmCycles vm tx context maxCycles = localVmCycles vm tx other maxCycles

end ContextResolvedReceipt

/-! ## What an accepted receipt satisfies -/

section Accepted

open ContextResolvedReceipt

variable {hashes context} {other : ContextResolvedReceipt} {tx : CellTx} {key : EvidenceKey}
  {cell : ResolvedCellEvidence} {hash : FixedBytes 32}

lemma requireCell_eq_ok :
    requireCell context key = .ok cell ↔ context.cells.filter (fun c => c.key = key) = [cell] := by
  unfold requireCell
  split
  · rename_i hnone
    rw [hnone]
    exact iff_of_false nofun nofun
  · rename_i only hone
    rw [hone, Except.ok.injEq, List.cons.injEq, eq_self [], and_true]
  · rename_i first second rest hmany
    rw [hmany]
    exact iff_of_false nofun nofun

lemma verifyCells_eq_ok :
    verifyCells hashes seen cells = .ok u ↔
      (∀ c ∈ cells, hashes.ckbCellDataHash c.data = c.dataHash) ∧
      (cells.map ResolvedCellEvidence.key).Nodup ∧ ∀ c ∈ cells, c.key ∉ seen := by
  induction cells generalizing seen with
  | nil => simp [verifyCells]
  | cons first rest ih =>
    simp only [verifyCells, eq_ok, ih, List.forall_mem_cons, List.map_cons, List.nodup_cons,
      List.mem_map, not_exists, not_and]
    constructor
    · rintro ⟨hhash, hnew, hhashes, hnodup, hseen⟩
      refine ⟨⟨hhash, hhashes⟩, ⟨fun c hc hkey => ?_, hnodup⟩, hnew, fun c hc hold => ?_⟩
      · exact hseen c hc (hkey ▸ List.mem_cons_self)
      · exact hseen c hc (List.mem_cons_of_mem _ hold)
    · rintro ⟨⟨hhash, hhashes⟩, ⟨hfirst, hnodup⟩, hnew, hseen⟩
      refine ⟨hhash, hnew, hhashes, hnodup, fun c hc hold => ?_⟩
      rcases List.mem_cons.mp hold with hkey | hold
      · exact hfirst c hc hkey
      · exact hseen c hc hold

section

variable (h : context.cells.filter (fun c => c.key = key) = [cell])
include h

lemma evidenceAt_of_filter : context.evidenceAt key = some cell := by
  rw [evidenceAt, ← List.head?_filter, h, List.head?_cons]

lemma mem_of_filter : cell ∈ context.cells ∧ cell.key = key := by
  have hmem : cell ∈ context.cells.filter (fun c => c.key = key) := h ▸ List.mem_singleton_self cell
  simpa using hmem

end

/-- A dependency that is accepted has an entry under each of its keys. -/
lemma requireDep_present (h : requireDep context dep = .ok ()) (hkey : key ∈ context.depKeys dep) :
    ∃ c, context.cells.filter (fun c => c.key = key) = [c] := by
  obtain ⟨root, hroot, hrest⟩ := bind_eq_ok.mp h
  have hfilter := requireCell_eq_ok.mp hroot
  unfold depKeys at hkey
  cases hdep : dep.1.depType with
  | code =>
    simp only [hdep, List.mem_singleton] at hkey
    exact ⟨root, hkey ▸ hfilter⟩
  | depGroup =>
    simp only [hdep, eq_ok, forResult_eq_ok, map_eq_ok, and_true] at hrest
    simp only [hdep, List.mem_cons, List.mem_map] at hkey
    obtain ⟨parsed, hparsed, hall⟩ := hrest
    rcases hkey with rfl | ⟨member, hmember, rfl⟩
    · exact ⟨root, hfilter⟩
    · simp only [ContextResolvedReceipt.members, evidenceAt_of_filter hfilter, hparsed, Except.toOption,
        Option.getD_some] at hmember
      obtain ⟨c, hc⟩ := hall member hmember
      exact ⟨c, requireCell_eq_ok.mp hc⟩

/-- What `verify` establishes about headers. -/
structure Listed (hashes : ContextHashes) (headers : List CkbHeaderEvidence) (tx : CellTx) : Prop where
  distinct : (headers.map (·.hash)).Nodup
  count : headers.length = tx.headerDeps.length
  bound : ∀ hash ∈ tx.headerDeps, ∃ header ∈ headers, header.hash = hash ∧
    hashes.ckbHeaderHashMolecule header.packed = .ok hash

/-- What `verify` establishes about entries and headers. -/
structure Accepted (hashes : ContextHashes) (context : ContextResolvedReceipt) (tx : CellTx) : Prop
    extends Listed hashes context.headers tx where
  nodup : (context.cells.map ResolvedCellEvidence.key).Nodup
  present : ∀ key ∈ context.declared tx, ∃ c, context.cells.filter (fun c => c.key = key) = [c]

lemma verifyHeaders_eq_ok :
    verifyHeaders hashes context tx = .ok () ↔ Listed hashes context.headers tx := by
  simp only [verifyHeaders, eq_ok, forResult_eq_ok, CkbHeaderEvidence.verifyHash]
  constructor
  · rintro ⟨⟨hlength, hcount⟩, hall⟩
    refine ⟨?_, hlength.symm.trans hcount, fun hash hhash => ?_⟩
    · rw [← List.dedup_eq_self]
      exact (List.dedup_sublist _).eq_of_length (hlength.trans (List.length_map _).symm)
    · obtain ⟨header, hfind, _, hactual, rfl⟩ := hall hash hhash
      obtain ⟨hmem, hlisted⟩ := mem_of_find?_key hfind
      exact ⟨header, List.mem_reverse.mp hmem, hlisted, hlisted ▸ hactual⟩
  · intro h
    have hlength : (context.headers.map (·.hash)).dedup.length = context.headers.length := by
      rw [h.distinct.dedup, List.length_map]
    refine ⟨⟨hlength, hlength.trans h.count⟩, fun hash hhash => ?_⟩
    obtain ⟨header, hmem, rfl, hactual⟩ := h.bound hash hhash
    refine ⟨header, find?_key_of_mem ?_ (List.mem_reverse.mpr hmem), _, hactual, rfl⟩
    rw [List.map_reverse, List.nodup_reverse]
    exact h.distinct

/-- All declared hashes are listed. -/
lemma Listed.subset (h : Listed hashes headers tx) : tx.headerDeps ⊆ headers.map (·.hash) := by
  intro hash hhash
  obtain ⟨header, hmem, rfl, -⟩ := h.bound hash hhash
  exact List.mem_map_of_mem hmem

/-- Without repeated dependencies, nothing else is listed. -/
lemma Listed.hashes_perm (h : Listed hashes headers tx) (hdeps : tx.headerDeps.Nodup) :
    tx.headerDeps.Perm (headers.map (·.hash)) :=
  (List.subperm_of_subset hdeps h.subset).perm_of_length_le (by rw [List.length_map, h.count])

/-- A hash that a receipt for the transaction can list can be listed in these headers' place. -/
lemma Listed.exists_headers (h : Listed hashes headers tx)
    (hroom : hash ∈ tx.headerDeps ∨ ¬tx.headerDeps.Nodup) :
    ∃ headers', Listed hashes headers' tx ∧ hash ∈ headers'.map (·.hash) ∧
      ∀ a ∈ headers, ∀ b ∈ headers', a.hash = b.hash → a = b := by
  by_cases hlisted : hash ∈ headers.map (·.hash)
  · exact ⟨headers, h, hlisted, fun a ha b hb => List.inj_on_of_nodup_map h.distinct ha hb⟩
  -- some header is not declared; it makes room
  obtain ⟨spare, hspare, hundeclared⟩ : ∃ spare ∈ headers, spare.hash ∉ tx.headerDeps := by
    by_contra! hall
    refine hroom.resolve_left (fun hhash => hlisted (h.subset hhash)) ?_
    refine (((List.subperm_of_subset h.distinct ?_).perm_of_length_le ?_).nodup_iff).mp h.distinct
    · exact List.forall_mem_map.mpr hall
    · rw [List.length_map, h.count]
  have hrest : (headers.erase spare).map (·.hash) ⊆ headers.map (·.hash) :=
    (List.erase_sublist.map _).subset
  refine ⟨{ spare with hash } :: headers.erase spare, ⟨?_, ?_, fun declared hdeclared => ?_⟩,
    List.mem_cons_self, ?_⟩
  · exact List.nodup_cons.mpr ⟨fun hmem => hlisted (hrest hmem),
      h.distinct.sublist (List.erase_sublist.map _)⟩
  · rw [List.length_cons, List.length_erase_add_one hspare, h.count]
  · obtain ⟨header, hmem, rfl, hbound⟩ := h.bound declared hdeclared
    have hother : header ≠ spare := fun heq => hundeclared (heq ▸ hdeclared)
    exact ⟨header, List.mem_cons_of_mem _ ((List.mem_erase_of_ne hother).mpr hmem), rfl, hbound⟩
  · rintro a ha b (_ | ⟨_, hb⟩) heq
    · exact absurd (List.mem_map.mpr ⟨a, ha, heq⟩) hlisted
    · exact List.inj_on_of_nodup_map h.distinct ha (List.mem_of_mem_erase hb) heq

lemma Accepted.of_verify (h : context.verify hashes tx = .ok ()) : Accepted hashes context tx := by
  simp only [ContextResolvedReceipt.verify, eq_ok, forResult_eq_ok, verifyCells_eq_ok, map_eq_ok,
    and_true] at h
  obtain ⟨_, _, _, _, ⟨_, hnodup, _⟩, hinputs, hdeps, hheaders, _⟩ := h
  refine ⟨verifyHeaders_eq_ok.mp hheaders, hnodup, fun key hkey => ?_⟩
  rcases List.mem_append.mp hkey with hmem | hmem
  · obtain ⟨input, hinput, rfl⟩ := List.mem_map.mp hmem
    obtain ⟨c, hc⟩ := hinputs input hinput
    exact ⟨c, requireCell_eq_ok.mp hc⟩
  · obtain ⟨dep, hdep, hkey⟩ := List.mem_flatMap.mp hmem
    exact requireDep_present (hdeps dep hdep) hkey

section

variable (h : Accepted hashes context tx)
include h

/-- Keys are distinct, so an entry is the one found under its key. -/
lemma Accepted.evidenceAt_eq (hcell : cell ∈ context.cells) :
    context.evidenceAt cell.key = some cell :=
  find?_key_of_mem h.nodup hcell

/-- With distinct keys, counting finds extra entries. -/
lemma Accepted.nothingExtra_iff :
    context.NothingExtra tx ↔ context.cells.length = (context.declared tx).dedup.length := by
  have hdeclared : context.declared tx ⊆ context.cells.map ResolvedCellEvidence.key := by
    intro key hkey
    obtain ⟨c, hc⟩ := h.present key hkey
    exact List.mem_map.mpr ⟨c, mem_of_filter hc⟩
  rw [← List.length_map ResolvedCellEvidence.key, ← subset_iff_length_dedup h.nodup hdeclared]
  exact List.forall_mem_map.symm

end

/-! ## What the provider holds -/

/-- Entries go to the map of cells, and those with a known header to the map of creation headers. -/
lemma foldl_addEvidence (cells : List ResolvedCellEvidence) :
    cells.foldl (addEvidence context) provider =
      { provider with
        cells := lastWrite (·.outPoint) (fun c => some c.resolved) cells provider.cells
        cellHeaders := lastWrite (·.outPoint) context.creationHeader cells provider.cellHeaders } := by
  induction cells generalizing provider with
  | nil => rfl
  | cons first rest ih =>
    rw [List.foldl_cons, ih, lastWrite_cons, lastWrite_cons]
    unfold addEvidence writeOne
    cases context.creationHeader first <;> rfl

/-- Headers go to their own map. -/
lemma foldl_addCkbHeader (headers : List CkbHeaderEvidence) :
    headers.foldl (fun provider header => provider.addCkbHeader header.hash header.packed) provider =
      { provider with
        ckbHeaders :=
          lastWrite (·.hash) (fun header => some header.packed) headers provider.ckbHeaders } := by
  induction headers generalizing provider with
  | nil => rfl
  | cons first rest ih =>
    rw [List.foldl_cons, ih]
    rfl

lemma contextProvider_eq : contextProvider context =
    ⟨lastWrite (·.outPoint) (fun c => some c.resolved) context.cells (fun _ => none),
      lastWrite (·.hash) (fun header => some header.packed) context.headers (fun _ => none),
      lastWrite (·.outPoint) context.creationHeader context.cells (fun _ => none)⟩ := by
  rw [contextProvider, foldl_addEvidence, foldl_addCkbHeader]
  rfl

/-- With one content per outpoint, the provider holds what any entry of the outpoint says. -/
lemma Settled.cells_eq_some (h : context.Settled tx) {outPoint : OutPoint}
    {resolved : ResolvedCell} :
    (contextProvider context).cells outPoint = some resolved ↔
      ∃ c ∈ context.cells, c.outPoint = outPoint ∧ some c.resolved = some resolved := by
  rw [contextProvider_eq]
  refine lastWrite_eq_some fun a ha b hb hkeyA hkeyB => ?_
  obtain ⟨houtput, hdata⟩ := h.content a ha b hb (hkeyA.trans hkeyB.symm)
  rw [ResolvedCellEvidence.resolved, ResolvedCellEvidence.resolved, houtput, hdata]

lemma Accepted.fixes_iff (h : Accepted hashes context tx) :
    (context.NothingExtra tx ∧ context.ResolvesOwn tx) ↔ context.Settled tx := by
  constructor
  · rintro ⟨hextra, hown⟩
    refine ⟨h.nothingExtra_iff.mp hextra, fun a ha b hb hsame => ?_⟩
    -- both keys are declared, so the one outpoint resolves to either entry
    have resolves : ∀ c ∈ context.cells,
        (contextProvider context).cells c.outPoint = some c.resolved := by
      intro c hc
      obtain ⟨own, hfilter, hresolved⟩ := hown c.key (hextra c hc)
      have hfound := evidenceAt_of_filter hfilter
      rw [h.evidenceAt_eq hc, Option.some_inj] at hfound
      exact hfound ▸ hresolved
    have hboth := (resolves a ha).symm.trans (hsame ▸ resolves b hb)
    simp only [ResolvedCellEvidence.resolved, Option.some_inj, ResolvedCell.mk.injEq] at hboth
    exact hboth
  · intro hsettled
    refine ⟨h.nothingExtra_iff.mpr hsettled.count, fun key hkey => ?_⟩
    obtain ⟨c, hc⟩ := h.present key hkey
    obtain ⟨hmem, rfl⟩ := mem_of_filter hc
    exact ⟨c, hc, (Settled.cells_eq_some hsettled).mpr ⟨c, hmem, rfl, rfl⟩⟩

/-! ## Two receipts -/

/-- Agreement covers the groups' own entries, so both receipts declare the same keys. -/
lemma declared_eq_of_agrees (h : context.Agrees other tx) :
    other.declared tx = context.declared tx := by
  unfold declared
  congr 1
  refine List.flatMap_congr fun dep hdep => ?_
  have hself : cellDepKey dep ∈ context.depKeys dep := by
    unfold depKeys
    split
    · exact List.mem_singleton_self _
    · exact List.mem_cons_self
  have hroot : context.evidenceAt (cellDepKey dep) = other.evidenceAt (cellDepKey dep) :=
    h _ (List.mem_append_right _ (List.mem_flatMap.mpr ⟨dep, hdep, hself⟩))
  unfold depKeys members
  rw [hroot]

section

variable (h : Accepted hashes context tx)
include h

/-- Entries are carried over from one receipt without extras to another that agrees. -/
lemma mem_of_agrees (hextra : context.NothingExtra tx)
    (hagrees : ∀ key ∈ context.declared tx, context.evidenceAt key = other.evidenceAt key)
    (hcell : cell ∈ context.cells) : cell ∈ other.cells := by
  have hentry := hagrees cell.key (hextra cell hcell)
  rw [h.evidenceAt_eq hcell] at hentry
  exact List.mem_of_find?_eq_some hentry.symm

/-- A declared header is read as the receipt has it. -/
lemma Accepted.ckbHeaders_eq
    (hhash : hash ∈ tx.headerDeps) : ∃ header ∈ context.headers, header.hash = hash ∧
      hashes.ckbHeaderHashMolecule header.packed = .ok hash ∧
      (contextProvider context).ckbHeaders hash = some header.packed := by
  obtain ⟨header, hmem, rfl, hhashes⟩ := h.bound hash hhash
  refine ⟨header, hmem, rfl, hhashes, ?_⟩
  rw [contextProvider_eq]
  refine (lastWrite_eq_some fun a ha b hb hkeyA hkeyB => ?_).mpr ⟨header, hmem, rfl, rfl⟩
  rw [List.inj_on_of_nodup_map h.distinct ha hb (hkeyA.trans hkeyB.symm)]

/-- The declared creating block of an outpoint that is read: the one its entries name. -/
lemma Accepted.origin_eq_some (horigin : context.OneOrigin tx)
    {outPoint : OutPoint} (hread : Reads tx (contextProvider context) outPoint) :
    ((contextProvider context).cellHeaders outPoint).filter (fun hash => hash ∈ tx.headerDeps) =
        some hash ↔
      hash ∈ tx.headerDeps ∧
        ∃ c ∈ context.cells, c.outPoint = outPoint ∧ c.creationBlockHash = some hash := by
  rw [Option.filter_eq_some_iff, decide_eq_true_iff, and_comm]
  refine and_congr_right fun hdeclared => ?_
  rw [show contextProvider context = _ from contextProvider_eq]
  constructor
  · intro hwritten
    obtain ⟨c, hc, hpoint, hheader⟩ := lastWrite_mem hwritten
    exact ⟨c, hc, hpoint, (Option.filter_eq_some_iff.mp hheader).1⟩
  · rintro ⟨c, hc, rfl, hnamed⟩
    have hfiled : context.creationHeader c = some hash :=
      Option.filter_eq_some_iff.mpr ⟨hnamed, decide_eq_true (h.subset hdeclared)⟩
    -- whoever has written last names the same block
    obtain ⟨last, hlast, writer, hwriter, hpoint, hheader'⟩ :=
      exists_lastWrite ResolvedCellEvidence.outPoint hc hfiled
    obtain ⟨hnamed', hlisted'⟩ := Option.filter_eq_some_iff.mp hheader'
    have hroom : last ∈ tx.headerDeps ∨ ¬tx.headerDeps.Nodup := by
      by_cases hdeps : tx.headerDeps.Nodup
      · exact .inl (h.hashes_perm hdeps |>.mem_iff.mpr (of_decide_eq_true hlisted'))
      · exact .inr hdeps
    rw [← horigin c hc writer hwriter hpoint.symm hread hash last hnamed hnamed' hdeclared hroom]
    exact hlast

end

/-- Settled accepted receipts with the same declared entries. -/
structure Alike (hashes : ContextHashes) (context other : ContextResolvedReceipt) (tx : CellTx) :
    Prop where
  accepted : Accepted hashes context tx
  accepted' : Accepted hashes other tx
  settled : context.Settled tx
  settled' : other.Settled tx
  collision : NoHeaderCollision hashes context other
  agrees : context.Agrees other tx

namespace Alike

variable (h : Alike hashes context other tx)
include h

lemma mem_cells (c : ResolvedCellEvidence) : c ∈ context.cells ↔ c ∈ other.cells := by
  have hextra := h.accepted.nothingExtra_iff.mpr h.settled.count
  have hextra' := h.accepted'.nothingExtra_iff.mpr h.settled'.count
  refine ⟨mem_of_agrees h.accepted hextra h.agrees, mem_of_agrees h.accepted' hextra' fun key hkey => ?_⟩
  rw [declared_eq_of_agrees h.agrees] at hkey
  exact (h.agrees key hkey).symm

lemma cells_eq : (contextProvider context).cells = (contextProvider other).cells := by
  funext outPoint
  refine Option.ext fun resolved => ?_
  rw [Settled.cells_eq_some h.settled, Settled.cells_eq_some h.settled']
  simp only [h.mem_cells]

/-- They are read at the same outpoints. -/
lemma reads_eq : Reads tx (contextProvider context) = Reads tx (contextProvider other) := by
  unfold Reads expandedCodeDepOutpoints expandDep
  rw [h.cells_eq]

lemma ckbHeaders_eq (hhash : hash ∈ tx.headerDeps) :
    (contextProvider context).ckbHeaders hash = (contextProvider other).ckbHeaders hash := by
  obtain ⟨a, ha, rfl, hashA, hloadA⟩ := h.accepted.ckbHeaders_eq hhash
  obtain ⟨b, hb, hsame, hashB, hloadB⟩ := h.accepted'.ckbHeaders_eq hhash
  rw [hloadA, hloadB, h.collision a ha b hb hsame.symm hashA (hsame ▸ hashB)]

/-- Their views differ at most in the creating blocks. -/
lemma strictView_eq_iff :
    strictView tx (contextProvider context) = strictView tx (contextProvider other) ↔
      ∀ point, Reads tx (contextProvider context) point →
        ckbHeaderByOutpoint (contextProvider context) tx point =
          ckbHeaderByOutpoint (contextProvider other) tx point := by
  unfold strictView cellView Reads expandedCodeDepOutpoints expandDep
  rw [StrictView.mk.injEq, List.map_congr_left fun _ => h.ckbHeaders_eq, h.cells_eq]
  generalize (mapResult _ tx.cellDeps).map List.flatten = points
  cases points with
  | error e => simp [Except.map]
  | ok points => simp [Except.map, or_imp, forall_and]

/-- The same entries and hash-bound headers give the strict verifier the same view. -/
lemma strictView_eq (horigin : context.OneOrigin tx) :
    strictView tx (contextProvider context) = strictView tx (contextProvider other) := by
  have horigin' : other.OneOrigin tx := by
    simpa only [OneOrigin, h.mem_cells, h.reads_eq] using horigin
  refine h.strictView_eq_iff.mpr fun point hread => ?_
  have hfilter :
      ((contextProvider context).cellHeaders point).filter (fun hash => hash ∈ tx.headerDeps) =
        ((contextProvider other).cellHeaders point).filter (fun hash => hash ∈ tx.headerDeps) := by
    refine Option.ext fun hash => ?_
    rw [h.accepted.origin_eq_some horigin hread,
      h.accepted'.origin_eq_some horigin' (h.reads_eq ▸ hread)]
    simp only [h.mem_cells]
  unfold ckbHeaderByOutpoint
  rw [← hfilter]
  refine Option.bind_congr fun hash hhash => ?_
  exact h.ckbHeaders_eq ((h.accepted.origin_eq_some horigin hread).mp hhash).1

end Alike

/-! ## The same entries, filed otherwise -/

/-- The receipt with an entry filed last and with other headers, committed to as it is then. -/
def ContextResolvedReceipt.refiled (hashes : ContextHashes) (context : ContextResolvedReceipt)
    (cell : ResolvedCellEvidence) (headers : List CkbHeaderEvidence) : ContextResolvedReceipt :=
  let body := { context.toContextBody with cells := context.cells.erase cell ++ [cell], headers }
  ⟨body, hashes.contextCommitment body⟩

/-- The order of the entries does not matter to `require_cell`. -/
lemma requireCell_perm (hperm : other.cells.Perm context.cells) :
    requireCell other = requireCell context := by
  funext key
  have hfilter := hperm.filter (·.key = key)
  unfold requireCell
  -- its answer depends on whether there are none, one or more
  generalize other.cells.filter (·.key = key) = found, context.cells.filter (·.key = key) = found'
    at hfilter ⊢
  rcases found with _ | ⟨_, _ | _⟩ <;> rcases found' with _ | ⟨_, _ | _⟩ <;> simp_all

/-- It is accepted if the headers are. -/
lemma verify_refiled (h : context.verify hashes tx = .ok ()) (hlisted : Listed hashes headers tx)
    (hperm : (context.refiled hashes cell headers).cells.Perm context.cells) :
    (context.refiled hashes cell headers).verify hashes tx = .ok () := by
  have hrequire := requireCell_perm hperm
  have hdep : requireDep (context.refiled hashes cell headers) = requireDep context := by
    unfold requireDep
    rw [hrequire]
  simp only [ContextResolvedReceipt.verify, eq_ok, verifyCells_eq_ok, hrequire, hdep,
    verifyHeaders_eq_ok] at h ⊢
  obtain ⟨hschema, htx, htip, hchain, ⟨hdata, hnodup, -⟩, hinputs, hdeps, -, -⟩ := h
  exact ⟨hschema, htx, htip, hchain, ⟨fun c hc => hdata c (hperm.mem_iff.mp hc),
    (hperm.map _).nodup_iff.mpr hnodup, fun _ _ => List.not_mem_nil⟩, hinputs, hdeps, hlisted, rfl⟩

/-- A settled receipt and itself filed otherwise, with the headers both list the same, are alike. -/
lemma Alike.refiled (h : context.verify hashes tx = .ok ()) (hsettled : context.Settled tx)
    (hcell : cell ∈ context.cells) (hlisted : Listed hashes headers tx)
    (hinj : ∀ a ∈ context.headers, ∀ b ∈ headers, a.hash = b.hash → a = b) :
    (context.refiled hashes cell headers).verify hashes tx = .ok () ∧
      Alike hashes context (context.refiled hashes cell headers) tx := by
  have haccepted := Accepted.of_verify h
  have hperm : (context.refiled hashes cell headers).cells.Perm context.cells :=
    (List.perm_append_singleton _ _).trans (List.perm_cons_erase hcell).symm
  have hverify := verify_refiled h hlisted hperm
  have hagrees : context.Agrees (context.refiled hashes cell headers) tx := by
    intro key hkey
    obtain ⟨found, hfound⟩ := haccepted.present key hkey
    have hlater := (congrFun (requireCell_perm hperm) key).trans (requireCell_eq_ok.mpr hfound)
    rw [evidenceAt_of_filter hfound, evidenceAt_of_filter (requireCell_eq_ok.mp hlater)]
  refine ⟨hverify, haccepted, .of_verify hverify, hsettled, ⟨?_, fun x hx y hy => ?_⟩,
    fun x hx y hy heq _ _ => congrArg _ (hinj x hx y hy heq), hagrees⟩
  · rw [declared_eq_of_agrees hagrees, hperm.length_eq, hsettled.count]
  · exact hsettled.content x (hperm.mem_iff.mp hx) y (hperm.mem_iff.mp hy)

/-- A verdict that does not depend on how the entries are filed leaves an outpoint one block. -/
lemma Accepted.oneOrigin (h : context.verify hashes tx = .ok ()) (hsettled : context.Settled tx)
    (hfixes : context.FixesVerdict hashes tx) : context.OneOrigin tx := by
  intro a ha b hb hpoint hread origin other hnamed hnamed' hdeclared hroom
  -- the header read is that of the block any of the entries names, if this is declared
  have hblock : ∀ c ∈ context.cells, c.outPoint = a.outPoint → ∀ hash,
      c.creationBlockHash = some hash → (hash ∈ tx.headerDeps ∨ ¬tx.headerDeps.Nodup) →
      (ckbHeaderByOutpoint (contextProvider context) tx a.outPoint).map
        hashes.ckbHeaderHashMolecule = if hash ∈ tx.headerDeps then some (.ok hash) else none := by
    intro c hc hsame hash hnamed hroom
    obtain ⟨headers, hlisted, hmem, hinj⟩ := (Accepted.of_verify h).exists_headers hroom
    obtain ⟨hverify, halike⟩ := Alike.refiled h hsettled hc hlisted hinj
    have hview : strictView tx (contextProvider context) =
        strictView tx (contextProvider (context.refiled hashes c headers)) := by
      classical
      have hverdict := hfixes _ hverify halike.settled' halike.collision halike.agrees
        (fun _ view _ => .ok (if view = strictView tx (contextProvider context) then 1 else 0)) 0
      by_contra hne
      simp [localVmCycles, Ne.symm hne, Except.mapError] at hverdict
    have hlast : (contextProvider (context.refiled hashes c headers)).cellHeaders a.outPoint =
        some hash := by
      have hfiled : (context.refiled hashes c headers).creationHeader c = some hash :=
        Option.filter_eq_some_iff.mpr ⟨hnamed, decide_eq_true hmem⟩
      rw [contextProvider_eq, ← hsame]
      exact lastWrite_concat hfiled _
    rw [halike.strictView_eq_iff.mp hview _ hread, ckbHeaderByOutpoint, hlast]
    by_cases hhash : hash ∈ tx.headerDeps
    · obtain ⟨header, -, -, hheader, hload⟩ := halike.accepted'.ckbHeaders_eq hhash
      rw [if_pos hhash, Option.filter_some, if_pos (decide_eq_true hhash), Option.bind_some, hload,
        Option.map_some, hheader]
    · simp [hhash]
  have hone := (hblock a ha rfl origin hnamed (.inl hdeclared)).symm.trans
    (hblock b hb hpoint.symm other hnamed' hroom)
  rw [if_pos hdeclared] at hone
  split_ifs at hone
  exact (Except.ok.inj (Option.some.inj hone)).symm

/-- **Which accepted receipts fix the resolved cells.**  The first condition is exact for the cells:
    nothing extra, and every declared outpoint resolves to its own entry.  Both together are exact for
    the cells and the verdict, whatever the virtual machine does with what it reads. -/
theorem receipt_fixes_cells_iff (h : context.verify hashes tx = .ok ()) :
    ((context.NothingExtra tx ∧ context.ResolvesOwn tx) ↔ context.Settled tx) ∧
    (context.NothingExtra tx ∧ context.ResolvesOwn tx ∧ context.FixesVerdict hashes tx ↔
      context.Settled tx ∧ context.OneOrigin tx) := by
  have haccepted := Accepted.of_verify h
  have hfixes := haccepted.fixes_iff
  refine ⟨hfixes, ?_⟩
  rw [← and_assoc, hfixes]
  refine and_congr_right fun hsettled => ⟨Accepted.oneOrigin h hsettled, ?_⟩
  intro horigin other hverify hsettled' hcollision hagrees vm maxCycles
  have halike : Alike hashes context other tx :=
    ⟨haccepted, .of_verify hverify, hsettled, hsettled', hcollision, hagrees⟩
  rw [localVmCycles, localVmCycles, halike.strictView_eq horigin]

end Accepted

/-! One input and one header dependency, resolved once as it is and once with a second entry for
    the input's outpoint. -/

/-- A header hashes to its parent's hash. -/
def parentHashes : ContextHashes where
  ckbRawTransactionHashMolecule _ := .ok (fill 32 1)
  transactionJsonHash _ := .ok (fill 32 1)
  ckbCellDataHash _ := fill 32 1
  ckbHeaderHashMolecule header := .ok header.raw.parentHash
  contextCommitment _ := fill 32 1

def spentPoint : OutPoint := ⟨fill 32 5, 0⟩

def spendingTx : CellTx := ⟨0, [⟨spentPoint, 0⟩], [], [fill 32 6], [], [], []⟩

/-- Block 9. -/
def declaredHeader : CkbHeaderEvidence :=
  ⟨⟨0, 0, 0, 9, 0, fill 32 6, fill 32 0, fill 32 0, fill 32 0, fill 32 0⟩, fill 32 6, 0⟩

/-- An entry for the spent outpoint at some position. -/
def spentEntry (index : Nat) (capacity : UInt64) : ResolvedCellEvidence :=
  ⟨.input, index, spentPoint, none, ⟨⟨fill 32 7, 0, []⟩, none, capacity⟩, [], fill 32 1,
    some (fill 32 6)⟩

def spendingReceipt (nodeVersion : String) (cells : List ResolvedCellEvidence) :
    ContextResolvedReceipt :=
  ⟨⟨contextSchema, "ckb", nodeVersion, fill 32 1, fill 32 1, fill 32 1, fill 32 1, declaredHeader, cells,
    [declaredHeader]⟩, fill 32 1⟩

/-- Two nodes resolve the same cell. -/
theorem receipt_fixes_cells_two_nodes :
    let receipt := fun node => spendingReceipt node [spentEntry 0 100]
    (receipt "a").verify parentHashes spendingTx = .ok () ∧ (receipt "a").NothingExtra spendingTx ∧
      (receipt "a").ResolvesOwn spendingTx ∧ ∀ (vm : ScriptVerifier) (maxCycles : UInt64),
        localVmCycles vm spendingTx (receipt "a") maxCycles =
          localVmCycles vm spendingTx (receipt "b") maxCycles := by
  intro receipt
  have haccepted : (receipt "a").verify parentHashes spendingTx = .ok () := rfl
  have hsettled : ∀ node, (receipt node).Settled spendingTx :=
    fun node => ⟨rfl, by simp [receipt, spendingReceipt]⟩
  have horigin : (receipt "a").OneOrigin spendingTx := by
    intro a ha b hb _ _ origin other hnamed hnamed' _ _
    rw [List.mem_singleton.mp ha] at hnamed
    rw [List.mem_singleton.mp hb] at hnamed'
    exact Option.some.inj (hnamed'.symm.trans hnamed)
  obtain ⟨hextra, hown, hfixes⟩ :=
    (receipt_fixes_cells_iff haccepted).2.mpr ⟨hsettled "a", horigin⟩
  refine ⟨haccepted, hextra, hown, hfixes _ rfl (hsettled "b") ?_ fun _ _ => rfl⟩
  simp [ContextResolvedReceipt.NoHeaderCollision, receipt, spendingReceipt]

/-- Cycles are the input's capacity. -/
def capacityVm : ScriptVerifier := fun _ view _ =>
  match view.inputs with
  | [⟨some cell, _⟩] => .ok cell.cellOutput.capacity
  | _ => .error "no input"

/-- A second entry for the input's outpoint, at a position the transaction does not have, is
    accepted, is what the provider resolves the input to, and changes the verdict. -/
theorem undeclared_entry_resolves :
    let honest := spendingReceipt "a" [spentEntry 0 100]
    let padded := spendingReceipt "a" [spentEntry 0 100, spentEntry 7 999]
    honest.verify parentHashes spendingTx = .ok () ∧
      padded.verify parentHashes spendingTx = .ok () ∧
      (∀ key ∈ honest.declared spendingTx, honest.evidenceAt key = padded.evidenceAt key) ∧
      (spentEntry 7 999).key ∉ padded.declared spendingTx ∧
      (contextProvider padded).cells spentPoint = some (spentEntry 7 999).resolved ∧
      (spentEntry 7 999).resolved ≠ (spentEntry 0 100).resolved ∧
      localVmCycles capacityVm spendingTx honest 1000 = .ok 100 ∧
      localVmCycles capacityVm spendingTx padded 1000 = .ok 999 := by
  refine ⟨rfl, rfl, by decide, by decide, rfl, by decide, rfl, rfl⟩

end Myelin.Ckb
