/-
  Computations on a state that keep the state they had reached when they fail.

  `Except` alone forgets the state of a failed computation; a `Proc` returns it, so that "nothing was
  published" can be said of a run that stopped with an error.  Two ways of reasoning about one:

  * `Keeps R x`: whatever happens, `x` moves the state along the preorder `R`.  This is a frame rule,
    proved once per primitive and composed by `Keeps.bind` and `Keeps.foldlM`.
  * inversion of `x s = (.ok a, t)`: `bind_eq_ok` peels a `do` block apart, `foldlM_eq_ok` carries an
    invariant of what was processed so far through a loop.
-/
import Mathlib.Order.Basic
import Myelin.Lib.Result

namespace Myelin.Lib

/-- A computation on a state; a failed one leaves the state it had reached. -/
def Proc (σ ε α : Type) : Type := σ → Except ε α × σ

namespace Proc

variable {σ ε α β : Type}

instance : Monad (Proc σ ε) where
  pure a s := (.ok a, s)
  bind x f s :=
    match x s with
    | (.ok a, t) => f a t
    | (.error e, t) => (.error e, t)

/-- A result that does not depend on the state. -/
def lift (x : Except ε α) : Proc σ ε α := fun s => (x, s)

/-- Look at the state. -/
def get (view : σ → α) : Proc σ ε α := fun s => (.ok (view s), s)

/-- Change the state. -/
def modify (change : σ → σ) : Proc σ ε Unit := fun s => (.ok (), change s)

/-- Stop. -/
def fail (error : ε) : Proc σ ε α := lift (.error error)

/-! ## What a procedure returned -/

variable {x : Proc σ ε α} {f : α → Proc σ ε β} {s t : σ} {a c : α} {b : β}

@[simp] lemma bind_eq_ok :
    (x >>= f) s = (.ok b, t) ↔ ∃ a m, x s = (.ok a, m) ∧ f a m = (.ok b, t) := by
  change (match x s with
    | (.ok a, m) => f a m
    | (.error e, m) => (.error e, m)) = _ ↔ _
  split
  case h_1 a m h => simp [h]
  case h_2 e m h => simp [h]

lemma bind_of_ok (h : x s = (.ok a, t)) : (x >>= f) s = f a t := by
  change (match x s with
    | (.ok a, m) => f a m
    | (.error e, m) => (.error e, m)) = _
  rw [h]

lemma bind_of_error (h : x s = (.error e, t)) : (x >>= f) s = (.error e, t) := by
  change (match x s with
    | (.ok a, m) => f a m
    | (.error e, m) => (.error e, m)) = _
  rw [h]

@[simp] lemma pure_eq_ok : (pure a : Proc σ ε α) s = (.ok c, t) ↔ a = c ∧ s = t := by
  change (Except.ok a, s) = _ ↔ _
  simp

@[simp] lemma lift_eq_ok : (lift result : Proc σ ε α) s = (.ok c, t) ↔ result = .ok c ∧ s = t := by
  simp [lift]

@[simp] lemma get_eq_ok : (get view : Proc σ ε α) s = (.ok c, t) ↔ view s = c ∧ s = t := by
  simp [get]

@[simp] lemma modify_eq_ok : (modify change : Proc σ ε Unit) s = (.ok u, t) ↔ change s = t := by
  simp [modify]

@[simp] lemma fail_eq_ok : (fail error : Proc σ ε α) s = (.ok c, t) ↔ False := by
  simp [fail, lift]

/-- What a loop has established once it is through: an invariant of the processed part of the list,
    kept by every pass that returns. -/
lemma foldlM_eq_ok {f : β → α → Proc σ ε β} {I : List α → β → σ → Prop}
    (hstep : ∀ done a b s b' s', I done b s → f b a s = (.ok b', s') → I (done ++ [a]) b' s')
    {list : List α} {b b' : β} {s s' : σ} (hstart : I [] b s)
    (h : list.foldlM f b s = (.ok b', s')) : I list b' s' := by
  suffices hgeneral : ∀ (list done : List α) (b : β) (s : σ), I done b s →
      list.foldlM f b s = (.ok b', s') → I (done ++ list) b' s' from hgeneral list [] b s hstart h
  intro list
  induction list with
  | nil =>
    intro done b s hI h
    obtain ⟨rfl, rfl⟩ := pure_eq_ok.mp h
    rwa [List.append_nil]
  | cons a rest ih =>
    intro done b s hI h
    rw [List.foldlM_cons] at h
    obtain ⟨next, m, hnext, hrest⟩ := bind_eq_ok.mp h
    have hlast := ih (done ++ [a]) next m (hstep done a b s next m hI hnext) hrest
    rwa [List.append_assoc, List.singleton_append] at hlast

/-! ## What a procedure does to the state in any case -/

/-- The state only moves along `R`, also when the procedure fails. -/
def Keeps (R : σ → σ → Prop) (x : Proc σ ε α) : Prop := ∀ s, R s (x s).2

section Keeps

variable {R : σ → σ → Prop}

lemma Keeps.ok (h : Keeps R x) (hx : x s = (.ok a, t)) : R s t := by
  have := h s
  rwa [hx] at this

lemma Keeps.mono (h : Keeps R x) (hRS : ∀ s t, R s t → S s t) : Keeps S x :=
  fun s => hRS s _ (h s)

/-- The rule for one state: the rest is only asked about what it gets. -/
lemma bind_along [IsTrans σ R] (hx : R s (x s).2)
    (hf : ∀ a m, x s = (.ok a, m) → R m (f a m).2) : R s ((x >>= f) s).2 := by
  change R s (match x s with
    | (.ok a, m) => f a m
    | (.error e, m) => (.error e, m)).2
  split
  case h_1 a m h =>
    rw [h] at hx
    exact trans_of R hx (hf a m h)
  case h_2 e m h => rwa [h] at hx

lemma Keeps.bind [IsTrans σ R] (hx : Keeps R x) (hf : ∀ a, Keeps R (f a)) :
    Keeps R (x >>= f) :=
  fun s => bind_along (hx s) fun a m _ => hf a m

lemma keeps_pure [Std.Refl R] (a : α) : Keeps R (pure a : Proc σ ε α) := fun s => refl_of R s

lemma keeps_lift [Std.Refl R] (result : Except ε α) : Keeps R (lift result : Proc σ ε α) :=
  fun s => refl_of R s

lemma keeps_get [Std.Refl R] (view : σ → α) : Keeps R (get view : Proc σ ε α) :=
  fun s => refl_of R s

lemma keeps_fail [Std.Refl R] (error : ε) : Keeps R (fail error : Proc σ ε α) :=
  keeps_lift _

lemma keeps_foldlM [Std.Refl R] [IsTrans σ R] {f : β → α → Proc σ ε β}
    (h : ∀ b a, Keeps R (f b a)) (list : List α) (b : β) : Keeps R (list.foldlM f b) := by
  induction list generalizing b with
  | nil => exact keeps_pure b
  | cons a rest ih =>
    rw [List.foldlM_cons]
    exact (h b a).bind ih

end Keeps

end Proc

end Myelin.Lib
