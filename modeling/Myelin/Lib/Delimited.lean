/-
  Self-delimiting writers.

  A hash preimage is a concatenation without separators.  It determines what was written if every part
  says itself where it ENDS: a part of fixed width, bytes after their length, items after their count.
  `Delimited write fits` says this of a writer, for the values it can count: from a common string both
  the value and the rest are read off.  The rules compose writers.
-/
import Myelin.Lib.Bytes

namespace Myelin.Lib

variable {α β γ : Type}
variable {write : α → List UInt8} {fits : α → Prop}

/-- What is written is told apart from whatever follows. -/
structure Delimited (write : α → List UInt8) (fits : α → Prop) : Prop where
  read : ∀ {a b : α} {rest rest' : List UInt8}, fits a → fits b → write a ++ rest = write b ++ rest' →
    a = b ∧ rest = rest'

lemma Delimited.injective (h : Delimited write fits) (ha : fits a) (hb : fits b)
    (heq : write a = write b) : a = b :=
  (@h.read a b [] [] ha hb (by rw [heq])).1

lemma delimited_of_length (hwidth : ∀ a, fits a → (write a).length = width)
    (hinj : ∀ a b, fits a → fits b → write a = write b → a = b) : Delimited write fits := by
  refine ⟨fun {a b rest rest'} ha hb heq => ?_⟩
  obtain ⟨hwrite, hrest⟩ := List.append_inj heq ((hwidth a ha).trans (hwidth b hb).symm)
  exact ⟨hinj a b ha hb hwrite, hrest⟩

/-- Numbers that fit `k` bytes. -/
lemma delimited_leBytes (k : Nat) : Delimited (leBytes k) (· < 256 ^ k) := by
  refine delimited_of_length (fun a _ => leBytes_length k a) fun a b ha hb heq => ?_
  have hback := congrArg ofLeBytes heq
  rwa [ofLeBytes_leBytes k a ha, ofLeBytes_leBytes k b hb] at hback

lemma delimited_le64 : Delimited le64 fun _ => True := by
  refine ⟨fun {a b rest rest'} _ _ heq => ?_⟩
  obtain ⟨hword, hrest⟩ := (delimited_leBytes 8).read a.toNat_lt b.toNat_lt heq
  exact ⟨UInt64.toNat_inj.mp hword, hrest⟩

lemma delimited_le32 : Delimited le32 fun _ => True := by
  refine ⟨fun {a b rest rest'} _ _ heq => ?_⟩
  obtain ⟨hword, hrest⟩ := (delimited_leBytes 4).read a.toNat_lt b.toNat_lt heq
  exact ⟨UInt32.toNat_inj.mp hword, hrest⟩

lemma delimited_le16 : Delimited le16 fun _ => True := by
  refine ⟨fun {a b rest rest'} _ _ heq => ?_⟩
  obtain ⟨hword, hrest⟩ := (delimited_leBytes 2).read a.toNat_lt b.toNat_lt heq
  exact ⟨UInt16.toNat_inj.mp hword, hrest⟩

lemma delimited_byte : Delimited (fun byte : UInt8 => [byte]) fun _ => True :=
  delimited_of_length (fun _ _ => rfl) fun _ _ _ _ => List.singleton_inj.mp

lemma delimited_fixedBytes (n : Nat) : Delimited (Subtype.val : FixedBytes n → List UInt8) fun _ => True :=
  delimited_of_length (fun a _ => a.property) fun _ _ _ _ => Subtype.ext

/-- The same as an equation to rewrite with: parts in front are compared and dropped. -/
lemma Delimited.append_inj (h : Delimited write fits) (ha : fits a) (hb : fits b) :
    write a ++ rest = write b ++ rest' ↔ a = b ∧ rest = rest' := by
  refine ⟨h.read ha hb, ?_⟩
  rintro ⟨rfl, rfl⟩
  rfl

lemma le64_append_inj : le64 a ++ rest = le64 b ++ rest' ↔ a = b ∧ rest = rest' :=
  delimited_le64.append_inj trivial trivial

lemma le32_append_inj : le32 a ++ rest = le32 b ++ rest' ↔ a = b ∧ rest = rest' :=
  delimited_le32.append_inj trivial trivial

lemma le16_append_inj : le16 a ++ rest = le16 b ++ rest' ↔ a = b ∧ rest = rest' :=
  delimited_le16.append_inj trivial trivial

lemma val_append_inj {a b : FixedBytes n} :
    a.val ++ rest = b.val ++ rest' ↔ a = b ∧ rest = rest' :=
  (delimited_fixedBytes n).append_inj trivial trivial

/-- One part after another, of a value that its parts determine. -/
lemma Delimited.append {first : β → List UInt8} {second : γ → List UInt8} {fits : β → Prop}
    {fits' : γ → Prop} (h : Delimited first fits) (k : Delimited second fits') {f : α → β} {g : α → γ}
    (hinj : ∀ a b, f a = f b → g a = g b → a = b) :
    Delimited (fun a => first (f a) ++ second (g a)) fun a => fits (f a) ∧ fits' (g a) := by
  refine ⟨fun {a b rest rest'} ha hb heq => ?_⟩
  rw [List.append_assoc, List.append_assoc] at heq
  obtain ⟨hfirst, heq⟩ := h.read ha.1 hb.1 heq
  obtain ⟨hsecond, hrest⟩ := k.read ha.2 hb.2 heq
  exact ⟨hinj a b hfirst hsecond, hrest⟩

/-- As many items. -/
lemma Delimited.flatMap (h : Delimited write fits) {xs ys : List α}
    (hlength : xs.length = ys.length) (hxs : ∀ x ∈ xs, fits x) (hys : ∀ y ∈ ys, fits y)
    (heq : xs.flatMap write ++ rest = ys.flatMap write ++ rest') : xs = ys ∧ rest = rest' := by
  induction xs generalizing ys with
  | nil =>
    obtain rfl := List.eq_nil_of_length_eq_zero hlength.symm
    exact ⟨rfl, heq⟩
  | cons x xs ih =>
    cases ys with
    | nil => cases hlength
    | cons y ys =>
      rw [List.flatMap_cons, List.flatMap_cons, List.append_assoc, List.append_assoc] at heq
      obtain ⟨hx, hxs⟩ := List.forall_mem_cons.mp hxs
      obtain ⟨hy, hys'⟩ := List.forall_mem_cons.mp hys
      obtain ⟨rfl, htail⟩ := h.read hx hy heq
      obtain ⟨rfl, hrest⟩ := ih (Nat.succ.inj hlength) hxs hys' htail
      exact ⟨rfl, hrest⟩

/-- Arrays of one width, as many as there are bytes for. -/
lemma flatMap_fixedBytes_injective (hn : 0 < n) {xs ys : List (FixedBytes n)}
    (heq : xs.flatMap Subtype.val = ys.flatMap Subtype.val) : xs = ys := by
  have hsize : ∀ zs : List (FixedBytes n), (zs.flatMap Subtype.val).length = zs.length * n := by
    intro zs
    induction zs with
    | nil => exact (Nat.zero_mul n).symm
    | cons z zs ih => rw [List.flatMap_cons, List.length_append, ih, z.property, List.length_cons,
        Nat.succ_mul, Nat.add_comm]
  have hlength := congrArg List.length heq
  rw [hsize, hsize] at hlength
  exact ((delimited_fixedBytes n).flatMap (Nat.eq_of_mul_eq_mul_right hn hlength)
    (fun _ _ => trivial) (fun _ _ => trivial) (congrArg (· ++ []) heq)).1

lemma word_inj (hm : m < 2 ^ 64) (hn : n < 2 ^ 64) (h : UInt64.ofNat m = UInt64.ofNat n) : m = n := by
  have hsame := congrArg UInt64.toNat h
  rwa [toNat_word hm, toNat_word hn] at hsame

/-- A count as a word. -/
lemma delimited_count64 : Delimited (fun n => le64 (UInt64.ofNat n)) (· < 2 ^ 64) := by
  refine ⟨fun {m n rest rest'} hm hn heq => ?_⟩
  obtain ⟨hword, hrest⟩ := le64_append_inj.mp heq
  exact ⟨word_inj hm hn hword, hrest⟩

section Counts

variable {count : Nat → List UInt8} {bound : Nat → Prop} (hcount : Delimited count bound)

include hcount

/-- Items after their count. -/
lemma Delimited.counted (h : Delimited write fits) :
    Delimited (fun xs : List α => count xs.length ++ xs.flatMap write)
      fun xs => bound xs.length ∧ ∀ x ∈ xs, fits x := by
  refine ⟨fun {xs ys rest rest'} hxs hys heq => ?_⟩
  rw [List.append_assoc, List.append_assoc] at heq
  obtain ⟨hlength, heq⟩ := hcount.read hxs.1 hys.1 heq
  exact h.flatMap hlength hxs.2 hys.2 heq

/-- Bytes after their length. -/
lemma Delimited.sized : Delimited (fun bytes : List UInt8 => count bytes.length ++ bytes)
    fun bytes => bound bytes.length := by
  refine ⟨fun {a b rest rest'} ha hb heq => ?_⟩
  rw [List.append_assoc, List.append_assoc] at heq
  obtain ⟨hlength, heq⟩ := hcount.read ha hb heq
  exact List.append_inj heq hlength

end Counts

lemma utf8_injective : Function.Injective utf8 := by
  intro a b h
  exact String.toByteArray_inj.mp (ByteArray.ext (Array.toList_inj.mp h))

end Myelin.Lib
