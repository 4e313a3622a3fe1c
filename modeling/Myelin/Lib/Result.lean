/-
  Fallible code as `Except`, and the inversion rules that peel it apart.

  The source checks a condition and returns early (`if !c { return Err(e) }`), or turns an absent
  value into an error (`ok_or`).  `ensure` and `okOr` are those two statements, so that a fallible
  function reads as a straight `do` block; the `simp` lemmas below turn "the block returned `ok b`"
  into the conjunction of what every statement of it must have found.
-/
import Mathlib.Data.List.Forall2

namespace Myelin.Lib

variable {ε α β : Type}

/-- Carry on when `c` holds, else return the error. -/
def ensure (c : Prop) [Decidable c] (error : ε) : Except ε Unit :=
  if c then .ok () else .error error

/-- `Option::ok_or`. -/
def okOr (value : Option α) (error : ε) : Except ε α :=
  match value with
  | some a => .ok a
  | none => .error error

/-- Whether a result is `Ok`. -/
def succeeds : Except ε α → Bool
  | .ok _ => true
  | .error _ => false

@[simp] lemma ensure_eq_ok {c : Prop} [Decidable c] {error : ε} {u : Unit} :
    ensure c error = .ok u ↔ c := by
  unfold ensure
  split <;> simp_all

@[simp] lemma okOr_eq_ok {value : Option α} {error : ε} {a : α} :
    okOr value error = .ok a ↔ value = some a := by
  cases value <;> simp [okOr]

variable {x : Except ε α} {f : α → Except ε β}

@[simp] lemma bind_eq_ok {b : β} : (x >>= f) = .ok b ↔ ∃ a, x = .ok a ∧ f a = .ok b := by
  cases x <;> simp [bind, Except.bind]

/-- A check in statement position returns nothing to bind. -/
@[simp] lemma exists_unit {p : Unit → Prop} : (∃ u, p u) ↔ p () :=
  ⟨fun ⟨(), h⟩ => h, fun h => ⟨(), h⟩⟩

@[simp] lemma pure_eq_ok {a b : α} : (pure a : Except ε α) = .ok b ↔ a = b := by
  simp [pure, Except.pure]

@[simp] lemma succeeds_iff : succeeds x = true ↔ ∃ a, x = .ok a := by
  cases x <;> simp [succeeds]

@[simp] lemma mapError_eq_ok {δ : Type} {f : ε → δ} {a : α} : x.mapError f = .ok a ↔ x = .ok a := by
  cases x with
  | error e => exact iff_of_false nofun nofun
  | ok b => simp only [Except.mapError, Except.ok.injEq]

/-- The inversion rules of a `do` block as one rule of `simp only`. -/
lemma eq_ok :
    (∀ {ε α β : Type} {x : Except ε α} {f : α → Except ε β} {b : β},
      (x >>= f) = .ok b ↔ ∃ a, x = .ok a ∧ f a = .ok b) ∧
    (∀ {p : Unit → Prop}, (∃ u, p u) ↔ p ()) ∧
    (∀ {ε : Type} {c : Prop} [Decidable c] {error : ε} {u : Unit}, ensure c error = .ok u ↔ c) ∧
    (∀ {ε α : Type} {value : Option α} {error : ε} {a : α},
      okOr value error = .ok a ↔ value = some a) ∧
    (∀ {ε δ α : Type} {x : Except ε α} {f : ε → δ} {a : α}, x.mapError f = .ok a ↔ x = .ok a) ∧
    (∀ {ε α : Type} {a b : α}, (pure a : Except ε α) = .ok b ↔ a = b) :=
  ⟨bind_eq_ok, exists_unit, ensure_eq_ok, okOr_eq_ok, mapError_eq_ok, pure_eq_ok⟩

@[simp] lemma map_eq_ok {f : α → β} {b : β} : x.map f = .ok b ↔ ∃ a, x = .ok a ∧ f a = b := by
  cases x <;> simp [Except.map]

/-! ## Loops over a list -/

/-- `iter().map(f).collect::<Result<Vec<_>>>()`: the first error wins. -/
def mapResult (f : α → Except ε β) : List α → Except ε (List β)
  | [] => .ok []
  | a :: rest => do
      let b ← f a
      let bs ← mapResult f rest
      pure (b :: bs)

/-- `for a in list { f(a)?; }`. -/
def forResult (f : α → Except ε Unit) : List α → Except ε Unit
  | [] => .ok ()
  | a :: rest => do
      f a
      forResult f rest

variable {list : List α}

@[simp] lemma forResult_eq_ok {f : α → Except ε Unit} {u : Unit} :
    forResult f list = .ok u ↔ ∀ a ∈ list, f a = .ok () := by
  induction list with
  | nil => simp [forResult]
  | cons a rest ih => simp [forResult, ih]

/-- A loop whose passes all succeed does, with what each pass promises. -/
lemma exists_mapResult_forall₂ {P : α → β → Prop} (h : ∀ a ∈ list, ∃ b, f a = .ok b ∧ P a b) :
    ∃ out, mapResult f list = .ok out ∧ List.Forall₂ P list out := by
  induction list with
  | nil => exact ⟨[], rfl, .nil⟩
  | cons a rest ih =>
    obtain ⟨⟨b, hb, hp⟩, hrest⟩ := List.forall_mem_cons.mp h
    obtain ⟨bs, hbs, hps⟩ := ih hrest
    refine ⟨b :: bs, ?_, .cons hp hps⟩
    rw [mapResult, hb, hbs]
    rfl

lemma exists_mapResult (h : ∀ a ∈ list, ∃ b, f a = .ok b) : ∃ out, mapResult f list = .ok out := by
  obtain ⟨out, hout, -⟩ := exists_mapResult_forall₂ fun a ha => (h a ha).imp fun _ hb => ⟨hb, hb⟩
  exact ⟨out, hout⟩

/-- A collected result has one output per input, in order. -/
lemma mapResult_eq_ok {out : List β} :
    mapResult f list = .ok out ↔ List.Forall₂ (fun a b => f a = .ok b) list out := by
  induction list generalizing out with
  | nil => simp [mapResult, eq_comm]
  | cons a rest ih =>
    simp only [mapResult, bind_eq_ok, pure_eq_ok, List.forall₂_cons_left_iff, ih]
    constructor
    · rintro ⟨b, hb, bs, hbs, rfl⟩
      exact ⟨b, bs, hb, hbs, rfl⟩
    · rintro ⟨b, bs, hb, hbs, rfl⟩
      exact ⟨b, hb, bs, hbs, rfl⟩

/-- What every pass of a fold keeps, and what it shows of the element it was given. -/
lemma foldlM_invariant {f : β → α → Except ε β} {I : β → Prop} {Q : α → Prop}
    (hstep : ∀ b a b', I b → f b a = .ok b' → I b' ∧ Q a) {b b' : β} (hb : I b)
    (h : list.foldlM f b = .ok b') : I b' ∧ ∀ a ∈ list, Q a := by
  induction list generalizing b with
  | nil =>
    rw [List.foldlM_nil, pure_eq_ok] at h
    exact ⟨h ▸ hb, fun a ha => absurd ha List.not_mem_nil⟩
  | cons a rest ih =>
    rw [List.foldlM_cons, bind_eq_ok] at h
    obtain ⟨next, hnext, hrest⟩ := h
    obtain ⟨hI, hQ⟩ := hstep b a next hb hnext
    obtain ⟨hlast, hall⟩ := ih hI hrest
    exact ⟨hlast, List.forall_mem_cons.mpr ⟨hQ, hall⟩⟩

/-! ## Errors that cannot occur -/

/-- No error of `x` is bad. -/
def Avoids (bad : ε → Prop) (x : Except ε α) : Prop := ∀ error, x = .error error → ¬bad error

section Avoids

variable {bad : ε → Prop}

@[simp] lemma avoids_ok (a : α) : Avoids bad (.ok a) := nofun

@[simp] lemma avoids_pure (a : α) : Avoids bad (pure a) := avoids_ok a

lemma avoids_error {error : ε} (h : ¬bad error) : Avoids bad (.error error : Except ε α) := by
  rintro _ ⟨⟩
  exact h

variable {x : Except ε α} {f : α → Except ε β}

lemma Avoids.bind (hx : Avoids bad x) (hf : ∀ a, Avoids bad (f a)) : Avoids bad (x >>= f) := by
  cases x with
  | error e => exact avoids_error (hx e rfl)
  | ok a => exact hf a

/-- The rest only has to avoid it for the value it gets. -/
lemma Avoids.bind_of_ok (hx : Avoids bad x) (hf : ∀ a, x = .ok a → Avoids bad (f a)) :
    Avoids bad (x >>= f) := by
  cases x with
  | error e => exact avoids_error (hx e rfl)
  | ok a => exact hf a rfl

lemma avoids_ensure {c : Prop} [Decidable c] {error : ε} (h : ¬bad error) :
    Avoids bad (ensure c error) := by
  unfold ensure
  split
  · exact avoids_ok ()
  · exact avoids_error h

lemma avoids_okOr {value : Option α} {error : ε} (h : ¬bad error) :
    Avoids bad (okOr value error) := by
  cases value with
  | none => exact avoids_error h
  | some a => exact avoids_ok a

/-- Behind a check. -/
lemma Avoids.check {c : Prop} [Decidable c] {error : ε} {f : Unit → Except ε β} (h : ¬bad error)
    (hf : Avoids bad (f ())) : Avoids bad (ensure c error >>= f) :=
  (avoids_ensure h).bind fun _ => hf

/-- With a value that has to be there. -/
lemma Avoids.need {value : Option α} {error : ε} (h : ¬bad error) (hf : ∀ a, Avoids bad (f a)) :
    Avoids bad (okOr value error >>= f) := (avoids_okOr h).bind hf

lemma avoids_mapError {δ : Type} {x : Except δ α} {f : δ → ε} (h : ∀ error, ¬bad (f error)) :
    Avoids bad (x.mapError f) := by
  cases x with
  | error e => exact avoids_error (h e)
  | ok a => exact avoids_ok a

lemma Avoids.map (hx : Avoids bad x) (f : α → β) : Avoids bad (x.map f) := by
  cases x with
  | error e => exact avoids_error (hx e rfl)
  | ok a => exact avoids_ok (f a)

lemma avoids_mapResult (h : ∀ a, Avoids bad (f a)) (list : List α) :
    Avoids bad (mapResult f list) := by
  induction list with
  | nil => exact avoids_ok []
  | cons a rest ih => exact (h a).bind fun b => ih.bind fun bs => avoids_pure (b :: bs)

lemma avoids_foldlM {f : β → α → Except ε β} (h : ∀ b a, Avoids bad (f b a)) (list : List α)
    (b : β) : Avoids bad (list.foldlM f b) := by
  induction list generalizing b with
  | nil => exact avoids_pure b
  | cons a rest ih =>
    rw [List.foldlM_cons]
    exact (h b a).bind ih

end Avoids

end Myelin.Lib
