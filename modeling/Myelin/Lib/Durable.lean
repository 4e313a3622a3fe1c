/-
  One key of a database under synchronous writes that may fail.

  A write that reports an error may still have reached the disk, so afterwards the key holds the
  old value or the new one.  `written` is not in any database: it remembers every value a write was
  attempted with, so that "whatever can be read back" is a statement about finitely many values.
-/
import Mathlib.Data.List.Basic

namespace Myelin.Lib

variable {β : Type}

/-- What a synchronous write does. -/
inductive WriteOutcome where
  | done
  /-- The write reports an error; `effect` says whether it reached the disk all the same. -/
  | failed (message : String) (effect : Bool)
  deriving DecidableEq, Repr

/-- Whether the value reached the disk. -/
def WriteOutcome.effect : WriteOutcome → Bool
  | .done => true
  | .failed _ effect => effect

/-- One key, and every value a write was attempted with, newest first. -/
structure Slot (β : Type) where
  value : Option β
  written : List β

namespace Slot

/-- A key that was never written. -/
def empty : Slot β := ⟨none, []⟩

/-- Attempt to write a value. -/
def put (slot : Slot β) (write : WriteOutcome) (value : β) : Slot β where
  value := if write.effect then some value else slot.value
  written := value :: slot.written

/-- The key holds nothing, or something a write was attempted with. -/
def Sourced (slot : Slot β) : Prop := ∀ value, slot.value = some value → value ∈ slot.written

lemma sourced_empty : (empty : Slot β).Sourced := nofun

/-- After a write, failed or not, the key holds the new value or still the old one. -/
lemma put_value (slot : Slot β) (write : WriteOutcome) (value : β) :
    (slot.put write value).value = some value ∨ (slot.put write value).value = slot.value := by
  unfold put
  cases write.effect with
  | true => exact .inl rfl
  | false => exact .inr rfl

lemma Sourced.put {slot : Slot β} (h : slot.Sourced) (write : WriteOutcome) (value : β) :
    (slot.put write value).Sourced := by
  intro found hfound
  rcases slot.put_value write value with hnew | hold
  · rw [hnew, Option.some.injEq] at hfound
    subst hfound
    exact List.mem_cons_self
  · rw [hold] at hfound
    exact List.mem_cons_of_mem value (h found hfound)

end Slot

end Myelin.Lib
