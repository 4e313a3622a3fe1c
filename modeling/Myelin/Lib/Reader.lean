/-
  Readers of byte strings, and when a reader is the exact inverse of a writer.

  A reader consumes a beginning of its input and returns the rest.  `Exact p write valid` says it
  in one line: `p` accepts precisely the inputs that begin with `write a` for a valid `a`, returns
  that `a` and leaves the rest.  Both codec laws are in it — what is written is read back, what is
  accepted is canonical — and it composes: a `do` block of exact readers is exact for the
  concatenation of their writers.
-/
import Myelin.Lib.Bytes
import Myelin.Lib.Result

namespace Myelin.Lib

/-- A reader: input to a value and the remaining input, or an error. -/
abbrev Reader (ε : Type) := StateT (List UInt8) (Except ε)

namespace Reader

variable {ε α β : Type}

/-- A check or a conversion that consumes nothing. -/
def lift (x : Except ε α) : Reader ε α := fun input => x.map (·, input)

/-- The next `len` bytes. -/
def take (truncated : ε) (len : Nat) : Reader ε (List UInt8) := fun input =>
  if input.length < len then .error truncated else .ok (input.take len, input.drop len)

/-- `p` reads exactly what `write` writes for valid values. -/
def Exact (p : Reader ε α) (write : α → List UInt8) (valid : α → Prop) : Prop :=
  ∀ input a rest, p input = .ok (a, rest) ↔ valid a ∧ input = write a ++ rest

/-! ## Peeling a reader apart -/

variable {input : List UInt8}

lemma bind_eq_ok {p : Reader ε α} {f : α → Reader ε β} {out : β × List UInt8} :
    (p >>= f) input = .ok out ↔ ∃ a rest, p input = .ok (a, rest) ∧ f a rest = .ok out := by
  constructor
  · intro h
    obtain ⟨⟨a, rest⟩, hp, hf⟩ := Myelin.Lib.bind_eq_ok.mp h
    exact ⟨a, rest, hp, hf⟩
  · rintro ⟨a, rest, hp, hf⟩
    exact Myelin.Lib.bind_eq_ok.mpr ⟨(a, rest), hp, hf⟩

variable {rest : List UInt8}

lemma pure_eq_ok : (pure a : Reader ε α) input = .ok (b, rest) ↔ a = b ∧ input = rest := by
  constructor
  · intro h
    exact Prod.mk.inj (Except.ok.inj h)
  · rintro ⟨rfl, rfl⟩
    rfl

lemma lift_eq_ok : lift x input = .ok (a, rest) ↔ x = .ok a ∧ input = rest := by
  cases x <;> simp [lift, Except.map]

/-! ## Primitive readers -/

lemma take_eq_ok :
    take truncated len input = .ok (bytes, rest) ↔ bytes.length = len ∧ input = bytes ++ rest := by
  unfold take
  constructor
  · intro h
    split at h
    · cases h
    · rename_i hlen
      obtain ⟨rfl, rfl⟩ := Prod.mk.inj (Except.ok.inj h)
      refine ⟨by rw [List.length_take]; omega, (List.take_append_drop len input).symm⟩
  · rintro ⟨hlen, rfl⟩
    rw [if_neg (by simp [hlen]), List.take_left' hlen, List.drop_left' hlen]

/-- A number of `k` bytes, as the type `α` that `ofNat` builds. -/
def readLe (truncated : ε) (k : Nat) (ofNat : Nat → α) : Reader ε α := do
  let bytes ← take truncated k
  pure (ofNat (ofLeBytes bytes))

/-- Reading a machine word: `toNat` and `ofNat` are its conversions. -/
lemma readLe_exact (truncated : ε) {k : Nat} {ofNat : Nat → α} {toNat : α → Nat}
    (hlt : ∀ a, toNat a < 256 ^ k) (hof : ∀ a, ofNat (toNat a) = a)
    (hto : ∀ n, n < 256 ^ k → toNat (ofNat n) = n) :
    Exact (readLe truncated k ofNat) (fun a => leBytes k (toNat a)) (fun _ => True) := by
  intro input a rest
  simp only [readLe, bind_eq_ok, pure_eq_ok, true_and]
  constructor
  · rintro ⟨bytes, after, htake, rfl, rfl⟩
    obtain ⟨hlen, rfl⟩ := take_eq_ok.mp htake
    have hbound := ofLeBytes_lt bytes
    have hback := leBytes_ofLeBytes bytes
    rw [hlen] at hbound hback
    rw [hto _ hbound, hback]
  · rintro rfl
    refine ⟨leBytes k (toNat a), rest, ?_, ?_, rfl⟩
    · exact take_eq_ok.mpr ⟨leBytes_length k _, rfl⟩
    · rw [ofLeBytes_leBytes k _ (hlt a), hof]

lemma readU64_exact (truncated : ε) :
    Exact (readLe truncated 8 UInt64.ofNat) le64 (fun _ => True) :=
  readLe_exact truncated UInt64.toNat_lt (fun _ => UInt64.ofNat_toNat) (fun _ h => toNat_word h)

lemma readU32_exact (truncated : ε) :
    Exact (readLe truncated 4 UInt32.ofNat) le32 (fun _ => True) :=
  readLe_exact truncated UInt32.toNat_lt (fun _ => UInt32.ofNat_toNat)
    (fun n h => by rw [UInt32.toNat_ofNat']; exact Nat.mod_eq_of_lt h)

lemma readU16_exact (truncated : ε) :
    Exact (readLe truncated 2 UInt16.ofNat) le16 (fun _ => True) :=
  readLe_exact truncated UInt16.toNat_lt (fun _ => UInt16.ofNat_toNat)
    (fun n h => by rw [UInt16.toNat_ofNat']; exact Nat.mod_eq_of_lt h)

lemma readU8_exact (truncated : ε) :
    Exact (readLe truncated 1 UInt8.ofNat) (fun byte => [byte]) (fun _ => True) := by
  have h := readLe_exact truncated (k := 1) UInt8.toNat_lt (fun _ => UInt8.ofNat_toNat)
    (fun n h => by rw [UInt8.toNat_ofNat']; exact Nat.mod_eq_of_lt h)
  intro input a rest
  rw [h input a rest]
  simp [leBytes]

end Reader

end Myelin.Lib
