/-
  `while` loops with early return, run with fuel.

  A body either goes on with a new state (`.inl`), returns (`.inr`) or fails.  `loop body n s` makes
  at most `n` passes and is `none` when they did not suffice, so "the loop terminates" is a theorem
  (`exists_loop_eq_some`) and not a matter of definition.
-/
import Mathlib.Order.Basic
import Myelin.Lib.Result

namespace Myelin.Lib

variable {σ ε α : Type} {body : σ → Except ε (σ ⊕ α)}

/-- At most `fuel` passes through a loop body. -/
def loop (body : σ → Except ε (σ ⊕ α)) : Nat → σ → Option (Except ε α)
  | 0, _ => none
  | fuel + 1, s =>
    match body s with
    | .error e => some (.error e)
    | .ok (.inr a) => some (.ok a)
    | .ok (.inl t) => loop body fuel t

/-- A loop whose passes decrease a bound terminates within that many passes. -/
lemma exists_loop_eq_some {I : σ → Prop} {B : σ → Nat}
    (hstep : ∀ s t, I s → body s = .ok (.inl t) → I t ∧ B t < B s) :
    ∀ {fuel : Nat} {s : σ}, I s → B s < fuel → ∃ result, loop body fuel s = some result := by
  intro fuel
  induction fuel with
  | zero => intro s _ hlt; exact absurd hlt (Nat.not_lt_zero _)
  | succ fuel ih =>
    intro s hs hlt
    unfold loop
    split
    case h_1 => exact ⟨_, rfl⟩
    case h_2 => exact ⟨_, rfl⟩
    case h_3 t ht =>
      obtain ⟨hI, hdec⟩ := hstep s t hs ht
      exact ih hI (by omega)

/-- Reasoning about a result: an invariant of the passes, used where the loop ends. -/
lemma loop_of_invariant {I : σ → Prop} {Q : Except ε α → Prop}
    (hstep : ∀ s t, I s → body s = .ok (.inl t) → I t)
    (herror : ∀ s e, I s → body s = .error e → Q (.error e))
    (hreturn : ∀ s a, I s → body s = .ok (.inr a) → Q (.ok a)) :
    ∀ {fuel : Nat} {s : σ} {result : Except ε α}, I s → loop body fuel s = some result → Q result := by
  intro fuel
  induction fuel with
  | zero => intro s result _ h; cases h
  | succ fuel ih =>
    intro s result hs h
    unfold loop at h
    split at h
    case h_1 e he =>
      cases h
      exact herror s e hs he
    case h_2 a ha =>
      cases h
      exact hreturn s a hs ha
    case h_3 t ht => exact ih (hstep s t hs ht) h

/-- Reasoning about a returned value. -/
lemma loop_ok_of_invariant {I : σ → Prop} {Q : α → Prop}
    (hstep : ∀ s t, I s → body s = .ok (.inl t) → I t)
    (hreturn : ∀ s a, I s → body s = .ok (.inr a) → Q a) {fuel : Nat} {s : σ} {a : α} (hs : I s)
    (h : loop body fuel s = some (.ok a)) : Q a :=
  loop_of_invariant (Q := fun result => ∀ a, result = .ok a → Q a) hstep (fun _ _ _ _ => nofun)
    (fun s _ hs hb _ hok => Except.ok.inj hok ▸ hreturn s _ hs hb) hs h a rfl

end Myelin.Lib
