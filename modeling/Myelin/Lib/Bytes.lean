/-
  Byte strings: fixed-width arrays and little-endian integers.

  `FixedBytes n` is Rust's `[u8; n]`: a byte list that CARRIES its length, so a value of the
  wrong width cannot be built and `try_into` is the only way in (`FixedBytes.ofList?`).  Its
  order is the lexicographic one, inherited from `List UInt8`.

  `leBytes k n` / `ofLeBytes` are `to_le_bytes` / `from_le_bytes`; the two round trips
  (`ofLeBytes_leBytes`, `leBytes_ofLeBytes`) are what every codec above this file rests on.
-/
import Mathlib.Data.List.Lex
import Mathlib.Tactic.Ring
import Myelin.Lib.Words

namespace Myelin.Lib

/-! ## Fixed-width arrays -/

/-- `[u8; n]`. -/
abbrev FixedBytes (n : Nat) := { bytes : List UInt8 // bytes.length = n }

/-- `try_into::<[u8; n]>()`: fails exactly on the wrong length. -/
def FixedBytes.ofList? (n : Nat) (bytes : List UInt8) : Option (FixedBytes n) :=
  if h : bytes.length = n then some ⟨bytes, h⟩ else none

/-- `[byte; n]`. -/
def FixedBytes.fill (n : Nat) (byte : UInt8) : FixedBytes n :=
  ⟨List.replicate n byte, List.length_replicate⟩

/-- The first 32 bytes of a padded string. -/
def headBytes (bytes : List UInt8) : FixedBytes 32 := ⟨(bytes ++ List.replicate 32 0).take 32, by simp⟩

/-- The last 32 bytes of a padded string, backwards. -/
def tailBytes (bytes : List UInt8) : FixedBytes 32 :=
  ⟨(List.replicate 32 1 ++ bytes).reverse.take 32, by simp⟩

instance lawfulBEqBytes32 : LawfulBEq (FixedBytes 32) := inferInstance

lemma FixedBytes.ofList?_eq_some : FixedBytes.ofList? n bytes = some a ↔ bytes = a.val := by
  unfold FixedBytes.ofList?
  split
  · rw [Option.some_inj, Subtype.ext_iff]
  · rename_i h
    simp only [reduceCtorEq, false_iff]
    rintro rfl
    exact h a.property

lemma FixedBytes.ofList?_val (a : FixedBytes n) : FixedBytes.ofList? n a.val = some a :=
  FixedBytes.ofList?_eq_some.mpr rfl

/-! ## Little-endian integers -/

/-- The `k` low bytes of `n`, least significant first. -/
def leBytes : Nat → Nat → List UInt8
  | 0, _ => []
  | k + 1, n => UInt8.ofNat n :: leBytes k (n / 256)

/-- The integer a byte list denotes, least significant byte first. -/
def ofLeBytes : List UInt8 → Nat
  | [] => 0
  | b :: bs => b.toNat + 256 * ofLeBytes bs

@[simp] lemma leBytes_length (k n : Nat) : (leBytes k n).length = k := by
  induction k generalizing n with
  | zero => rfl
  | succ k ih => rw [leBytes, List.length_cons, ih]

/-- Reading back what was written, for an integer that fits. -/
lemma ofLeBytes_leBytes (k n : Nat) (h : n < 256 ^ k) : ofLeBytes (leBytes k n) = n := by
  induction k generalizing n with
  | zero => simp only [pow_zero, Nat.lt_one_iff] at h; exact h.symm
  | succ k ih =>
    have hdiv : n / 256 < 256 ^ k := by
      rw [pow_succ] at h
      exact Nat.div_lt_of_lt_mul (by omega)
    rw [leBytes, ofLeBytes, ih _ hdiv, UInt8.toNat_ofNat']
    exact Nat.mod_add_div n 256

/-- Writing back what was read. -/
lemma leBytes_ofLeBytes (bytes : List UInt8) : leBytes bytes.length (ofLeBytes bytes) = bytes := by
  induction bytes with
  | nil => rfl
  | cons b bs ih =>
    have hb : b.toNat < 256 := b.toNat_lt
    have hdiv : (b.toNat + 256 * ofLeBytes bs) / 256 = ofLeBytes bs := by omega
    have hmod : UInt8.ofNat (b.toNat + 256 * ofLeBytes bs) = b := by
      rw [← UInt8.toNat_inj, UInt8.toNat_ofNat']
      omega
    rw [List.length_cons, leBytes, ofLeBytes, hdiv, ih, hmod]

lemma ofLeBytes_lt (bytes : List UInt8) : ofLeBytes bytes < 256 ^ bytes.length := by
  induction bytes with
  | nil => exact Nat.one_pos
  | cons b bs ih =>
    have hb : b.toNat < 256 := b.toNat_lt
    rw [ofLeBytes, List.length_cons, pow_succ]
    omega

/-- `u64::to_le_bytes`. -/
def le64 (n : UInt64) : List UInt8 := leBytes 8 n.toNat

/-- `u128::to_le_bytes`. -/
def le128 (n : U128) : List UInt8 := leBytes 16 n.toNat

/-- `u32::to_le_bytes`. -/
def le32 (n : UInt32) : List UInt8 := leBytes 4 n.toNat

/-- `u16::to_le_bytes`. -/
def le16 (n : UInt16) : List UInt8 := leBytes 2 n.toNat

/-- `{:?}` of a byte array. -/
def debugBytes (bytes : List UInt8) : String := "[" ++ ", ".intercalate (bytes.map toString) ++ "]"

/-- `str::as_bytes`. -/
def utf8 (s : String) : List UInt8 := s.toUTF8.data.toList

/-! ## Envelopes: a magic, a fixed-width checksum and a body -/

section Envelope

variable {magic checksum body : List UInt8} {n : Nat}

lemma envelope_magic : (magic ++ checksum ++ body).take magic.length = magic := by
  rw [List.append_assoc, List.take_left]

lemma envelope_checksum (h : checksum.length = n) :
    ((magic ++ checksum ++ body).drop magic.length).take n = checksum := by
  subst h
  rw [List.append_assoc, List.drop_left, List.take_left]

lemma envelope_body (h : checksum.length = n) :
    (magic ++ checksum ++ body).drop (magic.length + n) = body := by
  subst h
  rw [← List.length_append, List.drop_left]

end Envelope

end Myelin.Lib
