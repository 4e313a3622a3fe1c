/-
  A compact JSON writer and the sizes of what it writes.

  The pieces are byte strings that are ALREADY JSON (numbers, strings), put together by `jsonArray`
  and `jsonObject` without any blank, as a compact serializer does.  Strings are escaped byte by
  byte: the two delimiters and the control bytes; everything else, UTF-8 continuation bytes
  included, is copied.  One byte becomes at most six.

  Only SIZES are proved: a reader is not needed to bound what a writer produces.
-/
import Mathlib.Algebra.BigOperators.Group.List.Basic
import Mathlib.Data.Nat.Digits.Defs
import Myelin.Lib.Bytes

namespace Myelin.Lib

/-! ## The writer -/

/-- A number in decimal. -/
def jsonNat (n : Nat) : List UInt8 := (Nat.toDigits 10 n).map Char.toUInt8

/-- The absent value. -/
def jsonNull : List UInt8 := utf8 "null"

/-- Lower-case hexadecimal digit. -/
def hexDigit (n : UInt8) : UInt8 := if n < 10 then 48 + n else 87 + n

/-- One byte inside a JSON string. -/
def jsonEscape (byte : UInt8) : List UInt8 :=
  if byte = 34 ∨ byte = 92 then [92, byte]
  else if byte = 8 then [92, 98]
  else if byte = 9 then [92, 116]
  else if byte = 10 then [92, 110]
  else if byte = 12 then [92, 102]
  else if byte = 13 then [92, 114]
  else if byte < 32 then [92, 117, 48, 48, hexDigit (byte / 16), hexDigit (byte % 16)]
  else [byte]

/-- A string in double quotes. -/
def jsonString (s : String) : List UInt8 := [34] ++ (utf8 s).flatMap jsonEscape ++ [34]

/-- Items between brackets, separated by commas. -/
def jsonArray (items : List (List UInt8)) : List UInt8 := [91] ++ [44].intercalate items ++ [93]

/-- Named members between braces, in the given order. -/
def jsonObject (members : List (String × List UInt8)) : List UInt8 :=
  [123] ++ [44].intercalate (members.map fun m => jsonString m.1 ++ [58] ++ m.2) ++ [125]

/-- A byte array, as an array of numbers. -/
def jsonBytes (bytes : List UInt8) : List UInt8 := jsonArray (bytes.map fun b => jsonNat b.toNat)

/-! ## Sizes -/

lemma jsonNat_length_le (hk : 0 < k) (h : n < 10 ^ k) : (jsonNat n).length ≤ k := by
  rw [jsonNat, List.length_map]
  exact Nat.toDigits_length 10 n k hk h

lemma jsonEscape_length_le (byte : UInt8) : (jsonEscape byte).length ≤ 6 := by
  unfold jsonEscape
  repeat' split
  all_goals simp

lemma jsonString_length_le (s : String) : (jsonString s).length ≤ 6 * (utf8 s).length + 2 := by
  have hbody : ((utf8 s).flatMap jsonEscape).length ≤ 6 * (utf8 s).length := by
    induction utf8 s with
    | nil => simp
    | cons byte rest ih =>
      have := jsonEscape_length_le byte
      rw [List.flatMap_cons, List.length_append, List.length_cons]
      omega
  rw [jsonString, List.length_append, List.length_append]
  simp only [List.length_singleton]
  omega

/-- One separator per item is enough. -/
lemma intercalate_length_le (separator : UInt8) (items : List (List UInt8)) :
    ([separator].intercalate items).length ≤ (items.map (·.length + 1)).sum := by
  induction items with
  | nil => simp [List.intercalate]
  | cons item rest ih =>
    cases rest with
    | nil => simp [List.intercalate]
    | cons next rest =>
      simp only [List.intercalate, List.intersperse_cons_cons, List.flatten_cons, List.length_append,
        List.length_singleton, List.map_cons, List.sum_cons] at ih ⊢
      omega

/-- An array of `n` items of size at most `k`. -/
lemma jsonArray_length_le (items : List (List UInt8)) (h : ∀ item ∈ items, item.length ≤ k) :
    (jsonArray items).length ≤ 2 + items.length * (k + 1) := by
  have hsum : (items.map (·.length + 1)).sum ≤ items.length * (k + 1) := by
    induction items with
    | nil => simp
    | cons item rest ih =>
      obtain ⟨hitem, hrest⟩ := List.forall_mem_cons.mp h
      have := ih hrest
      rw [List.map_cons, List.sum_cons, List.length_cons, Nat.add_mul]
      omega
  have := intercalate_length_le 44 items
  rw [jsonArray, List.length_append, List.length_append]
  simp only [List.length_singleton]
  omega

/-- An object whose names take `k` bytes. -/
lemma jsonObject_length_le (members : List (String × List UInt8))
    (hnames : (members.map fun m => (jsonString m.1).length).sum = k) :
    (jsonObject members).length ≤ 2 + k + (members.map (·.2.length + 2)).sum := by
  have := intercalate_length_le 44 (members.map fun m => jsonString m.1 ++ [58] ++ m.2)
  have hsum : ((members.map fun m => jsonString m.1 ++ [58] ++ m.2).map (·.length + 1)) =
      members.map fun m => (jsonString m.1).length + (m.2.length + 2) := by
    rw [List.map_map]
    refine List.map_congr_left fun m _ => ?_
    simp only [Function.comp_apply, List.length_append, List.length_singleton]
    omega
  rw [hsum, List.sum_map_add, hnames] at this
  rw [jsonObject, List.length_append, List.length_append]
  simp only [List.length_singleton]
  omega

/-- A byte takes at most three digits and a comma. -/
lemma jsonBytes_length_le (bytes : List UInt8) :
    (jsonBytes bytes).length ≤ 2 + bytes.length * 4 := by
  have hdigits : ∀ item ∈ bytes.map fun b => jsonNat b.toNat, item.length ≤ 3 := by
    rw [List.forall_mem_map]
    intro b _
    have hb : b.toNat < 256 := b.toNat_lt
    exact jsonNat_length_le (by omega) (by omega)
  have h := jsonArray_length_le _ hdigits
  rw [List.length_map] at h
  exact h

end Myelin.Lib
