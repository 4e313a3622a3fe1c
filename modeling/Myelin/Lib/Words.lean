/-
  Checked machine-word arithmetic.

  Rust's `checked_add`/`checked_sub`/`checked_mul` return `None` exactly when the mathematical
  result does not fit the word.  Everything above this file reasons about words through `toNat`,
  so each operation gets ONE characterisation: it returns `some c` iff `c` is the exact natural
  result (`…_eq_some`), and `none` iff that result does not fit (`…_eq_none`).
-/
import Mathlib.Data.UInt

namespace Myelin.Lib

/-! ## 64-bit words -/

/-- `a.checked_add(b)` on `u64`. -/
def checkedAdd (a b : UInt64) : Option UInt64 :=
  if a.toNat + b.toNat < 2 ^ 64 then some (a + b) else none

/-- `a.checked_sub(b)` on `u64`. -/
def checkedSub (a b : UInt64) : Option UInt64 :=
  if b.toNat ≤ a.toNat then some (a - b) else none

/-- `a.checked_mul(b)` on `u64`. -/
def checkedMul (a b : UInt64) : Option UInt64 :=
  if a.toNat * b.toNat < 2 ^ 64 then some (a * b) else none

/-- A number that fits is the value of its word. -/
lemma toNat_word (h : n < 2 ^ 64) : (UInt64.ofNat n).toNat = n :=
  UInt64.toNat_ofNat'.trans (Nat.mod_eq_of_lt h)

/-- A word that is only returned if its exact value fits. -/
lemma checked_eq_some {ω : Type} {toNat : ω → Nat} {value c : ω} {exact bound : Nat}
    (hinj : toNat.Injective) (hc : toNat c < bound) (hvalue : toNat value = exact % bound) :
    (if exact < bound then some value else none) = some c ↔ toNat c = exact := by
  split
  case isTrue h => rw [Option.some_inj, ← hinj.eq_iff, hvalue, Nat.mod_eq_of_lt h, eq_comm]
  case isFalse h =>
    simp only [reduceCtorEq, false_iff]
    omega

variable {a b : UInt64}

lemma checkedAdd_eq_some : checkedAdd a b = some c ↔ c.toNat = a.toNat + b.toNat :=
  checked_eq_some (fun _ _ => UInt64.toNat_inj.mp) c.toNat_lt (UInt64.toNat_add a b)

lemma checkedAdd_eq_none : checkedAdd a b = none ↔ 2 ^ 64 ≤ a.toNat + b.toNat := by
  unfold checkedAdd
  split <;> simp only [reduceCtorEq, false_iff, true_iff] <;> omega

lemma checkedSub_eq_some : checkedSub a b = some c ↔ c.toNat + b.toNat = a.toNat := by
  unfold checkedSub
  split
  · rename_i h
    have hle : b ≤ a := UInt64.le_iff_toNat_le.mpr h
    rw [Option.some_inj, ← UInt64.toNat_inj, UInt64.toNat_sub_of_le _ _ hle]
    omega
  · simp only [reduceCtorEq, false_iff]
    omega

lemma checkedMul_eq_some : checkedMul a b = some c ↔ c.toNat = a.toNat * b.toNat :=
  checked_eq_some (fun _ _ => UInt64.toNat_inj.mp) c.toNat_lt (UInt64.toNat_mul a b)

/-! ## 32-bit words -/

/-- `a.checked_add(b)` on `u32`. -/
def checkedAdd32 (a b : UInt32) : Option UInt32 :=
  if a.toNat + b.toNat < 2 ^ 32 then some (a + b) else none

lemma checkedAdd32_eq_some {a b c : UInt32} :
    checkedAdd32 a b = some c ↔ c.toNat = a.toNat + b.toNat :=
  checked_eq_some (fun _ _ => UInt32.toNat_inj.mp) c.toNat_lt (UInt32.toNat_add a b)

/-! ## 128-bit words -/

/-- `u128`. -/
abbrev U128 := BitVec 128

/-- `a.checked_add(b)` on `u128`. -/
def checkedAdd128 (a b : U128) : Option U128 :=
  if a.toNat + b.toNat < 2 ^ 128 then some (a + b) else none

lemma checkedAdd128_eq_some {a b c : U128} :
    checkedAdd128 a b = some c ↔ c.toNat = a.toNat + b.toNat :=
  checked_eq_some (fun _ _ => BitVec.toNat_inj.mp) c.isLt (BitVec.toNat_add a b)

/-! ## Sizes -/

/-- `a.checked_add(b)` on a 64-bit `usize`. -/
def checkedAddSize (a b : Nat) : Option Nat := if a + b < 2 ^ 64 then some (a + b) else none

lemma checkedAddSize_eq_some {a b c : Nat} :
    checkedAddSize a b = some c ↔ c = a + b ∧ a + b < 2 ^ 64 := by
  unfold checkedAddSize
  split
  · rename_i h
    rw [Option.some_inj]
    exact ⟨fun heq => ⟨heq.symm, h⟩, fun hboth => hboth.1.symm⟩
  · rename_i h
    exact iff_of_false nofun fun hboth => h hboth.2

/-! ## Bytes are linearly ordered

  The order on byte arrays is the lexicographic one, so the bytes themselves need a
  `LinearOrder` for `List.instLinearOrder` to apply. -/

instance instLinearOrderUInt8 : LinearOrder UInt8 where
  le_refl a := UInt8.le_refl a
  le_trans _ _ _ := UInt8.le_trans
  le_antisymm _ _ := UInt8.le_antisymm
  le_total := UInt8.le_total
  lt_iff_le_not_ge a b := by
    rw [UInt8.le_iff_toNat_le, UInt8.le_iff_toNat_le, UInt8.lt_iff_toNat_lt]
    omega
  toDecidableLE := inferInstance

end Myelin.Lib
