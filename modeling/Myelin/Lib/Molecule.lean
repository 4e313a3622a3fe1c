/-
  Molecule tables: total size, field offsets, fields.

  `encodeTable` writes a table.  A reader takes the offsets as numbers (`readNumbers`), appends the
  total size and cuts the bytes at them (`slices`).  Both directions of the round trip are here:

    - the offsets of given fields cut their table back into these fields (`slices_offsetsFrom`);
    - any monotone offsets within the bytes cut them into fields that have these offsets and that
      are the bytes again when put together (`tableOffsets_slices`, `flatten_slices`), so a table
      that a reader accepts is the one `encodeTable` writes.
-/
import Mathlib.Data.List.Chain
import Myelin.Lib.Bytes

namespace Myelin.Lib

/-! ## Writing -/

/-- The offsets of a table: each field starts where the one before it ends. -/
def tableOffsets : Nat → List (List UInt8) → List UInt8
  | _, [] => []
  | offset, field :: fields => leBytes 4 offset ++ tableOffsets (offset + field.length) fields

/-- Total size, offsets, fields. -/
def encodeTable (fields : List (List UInt8)) : List UInt8 :=
  let headerSize := 4 + fields.length * 4
  let totalSize := headerSize + (fields.map List.length).sum
  leBytes 4 totalSize ++ tableOffsets headerSize fields ++ fields.flatten

@[simp] lemma tableOffsets_length (offset : Nat) (fields : List (List UInt8)) :
    (tableOffsets offset fields).length = 4 * fields.length := by
  induction fields generalizing offset with
  | nil => rfl
  | cons field fields ih =>
    rw [tableOffsets, List.length_append, leBytes_length, ih, List.length_cons]
    omega

lemma encodeTable_length (fields : List (List UInt8)) :
    (encodeTable fields).length = 4 + fields.length * 4 + (fields.map List.length).sum := by
  simp only [encodeTable, List.length_append, leBytes_length, tableOffsets_length,
    List.length_flatten]
  omega

/-! ## Reading -/

/-- The first `count` four-byte numbers. -/
def readNumbers : Nat → List UInt8 → List Nat
  | 0, _ => []
  | count + 1, bytes => ofLeBytes (bytes.take 4) :: readNumbers count (bytes.drop 4)

/-- `bytes[start..stop]`. -/
def slice (bytes : List UInt8) (start stop : Nat) : List UInt8 := (bytes.take stop).drop start

/-- The bytes between neighbouring offsets. -/
def slices (bytes : List UInt8) : List Nat → List (List UInt8)
  | start :: stop :: rest => slice bytes start stop :: slices bytes (stop :: rest)
  | _ => []

@[simp] lemma readNumbers_length (count : Nat) (bytes : List UInt8) :
    (readNumbers count bytes).length = count := by
  induction count generalizing bytes with
  | zero => rfl
  | succ count ih => rw [readNumbers, List.length_cons, ih]

/-- Numbers that fit are read back. -/
lemma readNumbers_flatMap (h : ∀ n ∈ numbers, n < 2 ^ 32) (rest : List UInt8) :
    readNumbers numbers.length (numbers.flatMap (leBytes 4) ++ rest) = numbers := by
  induction numbers with
  | nil => rfl
  | cons n numbers ih =>
    obtain ⟨hn, hnumbers⟩ := List.forall_mem_cons.mp h
    rw [List.length_cons, List.flatMap_cons, List.append_assoc, readNumbers,
      List.take_left' (leBytes_length 4 n), List.drop_left' (leBytes_length 4 n),
      ofLeBytes_leBytes 4 n (by omega), ih hnumbers]

variable {bytes : List UInt8}

/-- The numbers read are written back. -/
lemma flatMap_readNumbers (h : 4 * count ≤ bytes.length) :
    (readNumbers count bytes).flatMap (leBytes 4) = bytes.take (4 * count) := by
  induction count generalizing bytes with
  | zero => rfl
  | succ count ih =>
    have hfour : (bytes.take 4).length = 4 := by rw [List.length_take]; omega
    have hrest : 4 * count ≤ (bytes.drop 4).length := by rw [List.length_drop]; omega
    have hwrite : leBytes 4 (ofLeBytes (bytes.take 4)) = bytes.take 4 := by
      have := leBytes_ofLeBytes (bytes.take 4)
      rwa [hfour] at this
    rw [readNumbers, List.flatMap_cons, hwrite, ih hrest, show 4 * (count + 1) = 4 + 4 * count by omega,
      List.take_add]

lemma slice_length (h : stop ≤ bytes.length) : (slice bytes start stop).length = stop - start := by
  rw [slice, List.length_drop, List.length_take]
  omega

lemma slice_append (hstart : start ≤ middle) (hstop : middle ≤ stop) :
    slice bytes start middle ++ slice bytes middle stop = slice bytes start stop := by
  obtain ⟨d, rfl⟩ := Nat.exists_eq_add_of_le hstart
  obtain ⟨d', rfl⟩ := Nat.exists_eq_add_of_le hstop
  have hwidth : start + d + d' - start = d + d' := by omega
  simp only [slice, List.drop_take, Nat.add_sub_cancel_left, hwidth]
  rw [List.take_add, List.drop_drop]

lemma slices_length (bytes : List UInt8) (first : Nat) (rest : List Nat) :
    (slices bytes (first :: rest)).length = rest.length := by
  induction rest generalizing first with
  | nil => rfl
  | cons next rest ih => rw [slices, List.length_cons, ih, List.length_cons]

/-- Cut at monotone offsets, the pieces are the bytes between the first and the last one. -/
lemma flatten_slices (hchain : (first :: rest).IsChain (· ≤ ·)) :
    (slices bytes (first :: rest)).flatten =
        slice bytes first ((first :: rest).getLast (List.cons_ne_nil _ _)) ∧
      first ≤ (first :: rest).getLast (List.cons_ne_nil _ _) := by
  induction rest generalizing first with
  | nil => simp [slices, slice]
  | cons next rest ih =>
    obtain ⟨hle, hchain⟩ := List.isChain_cons_cons.mp hchain
    obtain ⟨hflatten, hlast⟩ := ih hchain
    rw [slices, List.flatten_cons, hflatten, List.getLast_cons (List.cons_ne_nil _ _)]
    exact ⟨slice_append hle hlast, hle.trans hlast⟩

/-- The pieces have the offsets they were cut at. -/
lemma tableOffsets_slices (hchain : (first :: rest).IsChain (· ≤ ·))
    (hbound : ∀ offset ∈ rest, offset ≤ bytes.length) :
    tableOffsets first (slices bytes (first :: rest)) =
      (first :: rest).dropLast.flatMap (leBytes 4) := by
  induction rest generalizing first with
  | nil => rfl
  | cons next rest ih =>
    obtain ⟨hle, hchain⟩ := List.isChain_cons_cons.mp hchain
    obtain ⟨hnext, hrest⟩ := List.forall_mem_cons.mp hbound
    rw [slices, tableOffsets, slice_length hnext, show first + (next - first) = next by omega,
      ih hchain hrest, List.dropLast_cons_cons, List.flatMap_cons]

/-! ## The offsets of given fields -/

/-- Where the fields start, and where the last one ends. -/
def offsetsFrom : Nat → List (List UInt8) → List Nat
  | offset, [] => [offset]
  | offset, field :: fields => offset :: offsetsFrom (offset + field.length) fields

/-- The first offset, and the others behind it. -/
lemma offsetsFrom_eq_cons (offset : Nat) (fields : List (List UInt8)) :
    ∃ rest, offsetsFrom offset fields = offset :: rest := by
  cases fields <;> exact ⟨_, rfl⟩

/-- All but the last are what a table writes. -/
lemma tableOffsets_eq (offset : Nat) (fields : List (List UInt8)) :
    ∃ numbers, numbers.length = fields.length ∧
      offsetsFrom offset fields = numbers ++ [offset + (fields.map List.length).sum] ∧
      tableOffsets offset fields = numbers.flatMap (leBytes 4) := by
  induction fields generalizing offset with
  | nil => exact ⟨[], rfl, rfl, rfl⟩
  | cons field fields ih =>
    obtain ⟨numbers, hlength, hoffsets, htable⟩ := ih (offset + field.length)
    refine ⟨offset :: numbers, by simp [hlength], ?_, ?_⟩
    · rw [offsetsFrom, hoffsets, List.map_cons, List.sum_cons, Nat.add_assoc]
      rfl
    · rw [tableOffsets, htable, List.flatMap_cons]

lemma offsetsFrom_isChain (offset : Nat) (fields : List (List UInt8)) :
    (offsetsFrom offset fields).IsChain (· ≤ ·) := by
  induction fields generalizing offset with
  | nil => exact List.IsChain.singleton _
  | cons field fields ih =>
    obtain ⟨rest, hrest⟩ := offsetsFrom_eq_cons (offset + field.length) fields
    have := ih (offset + field.length)
    rw [offsetsFrom, hrest] at *
    exact List.isChain_cons_cons.mpr ⟨Nat.le_add_right _ _, this⟩

variable {fields : List (List UInt8)}

lemma offsetsFrom_bounds (hmem : bound ∈ offsetsFrom offset fields) :
    offset ≤ bound ∧ bound ≤ offset + (fields.map List.length).sum := by
  induction fields generalizing offset with
  | nil => simp_all [offsetsFrom]
  | cons field fields ih =>
    rw [List.map_cons, List.sum_cons]
    rcases List.mem_cons.mp hmem with rfl | hmem
    · omega
    · have := ih hmem
      omega

/-- Behind a header of the right size, the fields are what lies between their offsets. -/
lemma slices_offsetsFrom (header : List UInt8) (fields : List (List UInt8)) :
    slices (header ++ fields.flatten) (offsetsFrom header.length fields) = fields := by
  induction fields generalizing header with
  | nil => rfl
  | cons field fields ih =>
    obtain ⟨rest, hrest⟩ := offsetsFrom_eq_cons (header.length + field.length) fields
    have hstep := ih (header ++ field)
    rw [List.length_append, hrest, List.append_assoc] at hstep
    rw [offsetsFrom, hrest, slices, List.flatten_cons, hstep]
    congr 1
    rw [slice, ← List.append_assoc, ← List.length_append, List.take_left, List.drop_left]

/-! ## Whole tables -/

/-- Bytes that state their own length and whose offsets are monotone and start right behind the
    header are the table of the fields cut out of them. -/
lemma encodeTable_slices (htotal : ofLeBytes (bytes.take 4) = bytes.length)
    (hnumbers : readNumbers (others.length + 1) (bytes.drop 4) = first :: others)
    (hfirst : first = 4 + (others.length + 1) * 4) (hhigh : first ≤ bytes.length)
    (hchain : (first :: (others ++ [bytes.length])).IsChain (· ≤ ·))
    (hbounds : ∀ offset ∈ others ++ [bytes.length], offset ≤ bytes.length) :
    encodeTable (slices bytes (first :: (others ++ [bytes.length]))) = bytes := by
  have hcount : (slices bytes (first :: (others ++ [bytes.length]))).length = others.length + 1 := by
    rw [slices_length, List.length_append, List.length_singleton]
  have hflatten : (slices bytes (first :: (others ++ [bytes.length]))).flatten = bytes.drop first := by
    rw [(flatten_slices hchain).1, slice, List.getLast_cons (by simp), List.getLast_append_singleton,
      List.take_length]
  have hsum : ((slices bytes (first :: (others ++ [bytes.length]))).map List.length).sum =
      bytes.length - first := by
    rw [← List.length_flatten, hflatten, List.length_drop]
  have hdrop : (first :: (others ++ [bytes.length])).dropLast = first :: others := by
    rw [← List.cons_append, List.dropLast_concat]
  have hoffsets := tableOffsets_slices hchain hbounds
  rw [hdrop, ← hnumbers, flatMap_readNumbers (by rw [List.length_drop]; omega)] at hoffsets
  have hwrite : leBytes 4 bytes.length = bytes.take 4 := by
    have := leBytes_ofLeBytes (bytes.take 4)
    rwa [htotal, show (bytes.take 4).length = 4 by rw [List.length_take]; omega] at this
  simp only [encodeTable, hcount, hsum, hflatten, ← hfirst, hoffsets]
  rw [show first + (bytes.length - first) = bytes.length by omega, hwrite, ← List.take_add,
    show 4 + 4 * (others.length + 1) = first by omega, List.take_append_drop]

/-- The header of a table that fits: its size, and the offsets of its fields. -/
lemma encodeTable_header (h : (encodeTable fields).length < 2 ^ 32) :
    ofLeBytes ((encodeTable fields).take 4) = (encodeTable fields).length ∧
    readNumbers fields.length ((encodeTable fields).drop 4) ++ [(encodeTable fields).length] =
      offsetsFrom (4 + fields.length * 4) fields := by
  rw [encodeTable_length] at h ⊢
  obtain ⟨numbers, hlength, hoffsets, htable⟩ := tableOffsets_eq (4 + fields.length * 4) fields
  have hfits : ∀ n ∈ numbers, n < 2 ^ 32 := fun n hn => by
    have := offsetsFrom_bounds (hoffsets ▸ List.mem_append_left _ hn)
    omega
  simp only [encodeTable, List.append_assoc]
  rw [List.take_left' (leBytes_length 4 _), List.drop_left' (leBytes_length 4 _), htable, ← hlength,
    readNumbers_flatMap hfits, hlength, hoffsets]
  exact ⟨ofLeBytes_leBytes 4 _ (by omega), rfl⟩

/-- Cut at the offsets of its fields, a table gives its fields back. -/
lemma slices_encodeTable (fields : List (List UInt8)) :
    slices (encodeTable fields) (offsetsFrom (4 + fields.length * 4) fields) = fields := by
  have h := slices_offsetsFrom (leBytes 4 (4 + fields.length * 4 + (fields.map List.length).sum) ++
      tableOffsets (4 + fields.length * 4) fields) fields
  rwa [List.length_append, leBytes_length, tableOffsets_length, Nat.mul_comm 4] at h

/-- Tables that fit and have as many fields differ if a field differs. -/
lemma encodeTable_injective (hcount : fields.length = fields'.length)
    (hfits : (encodeTable fields).length < 2 ^ 32) (h : encodeTable fields = encodeTable fields') :
    fields = fields' := by
  have hoffsets := (encodeTable_header hfits).2
  have hoffsets' := (encodeTable_header (h ▸ hfits)).2
  rw [← h, ← hcount, hoffsets] at hoffsets'
  rw [← slices_encodeTable fields, ← slices_encodeTable fields', ← h, ← hcount, hoffsets']

end Myelin.Lib
