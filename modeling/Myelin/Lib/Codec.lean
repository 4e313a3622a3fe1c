/-
  Readers that index into their bytes, and what makes a format canonical.

  A reader either returns a value, refuses its bytes with an error, or PANICS: `bytes[a..b]` and
  `bytes[i]` are operations that fail out of bounds (`range`, `index`).  `Canonical` is the contract of
  a format between a reader and a writer: accepted bytes are the ones the writer makes of the value,
  every well-formed value that fits 32-bit sizes is read back, and no bytes make the reader panic.

  Formats are closed under lists of pieces (`Canonical.mapResult`) and under options that are written
  as nothing at all (`Canonical.optional`).
-/
import Myelin.Lib.Molecule
import Myelin.Lib.Result

namespace Myelin.Lib

variable {ε α β : Type}
variable {x : Except ε α} {pieces : List (List UInt8)} {write : α → List UInt8} {well : α → Prop}

/-- How reading ends without a value. -/
inductive Fault (ε : Type) where
  /-- An index was out of bounds. -/
  | panic
  | error (e : ε)
  deriving DecidableEq

/-- `list[i]`. -/
def index (list : List α) (i : Nat) : Except (Fault ε) α := okOr list[i]? .panic

/-- `bytes[start..stop]`. -/
def range (bytes : List UInt8) (start stop : Nat) : Except (Fault ε) (List UInt8) :=
  if start ≤ stop ∧ stop ≤ bytes.length then .ok (slice bytes start stop) else .error .panic

/-- Nothing was read out of bounds. -/
def Safe (x : Except (Fault ε) α) : Prop := Avoids (· = Fault.panic) x

/-- The outcome of a reading that does not panic. -/
def Safe.outcome : {x : Except (Fault ε) α} → Safe x → Except ε α
  | .ok a, _ => .ok a
  | .error (.error e), _ => .error e
  | .error .panic, h => absurd rfl (h .panic rfl)

@[simp] lemma Safe.outcome_eq_ok {x : Except (Fault ε) α} (h : Safe x) :
    h.outcome = .ok a ↔ x = .ok a := by
  match x, h with
  | .ok a, _ => rw [outcome, Except.ok.injEq, Except.ok.injEq]
  | .error (.error e), _ => simp [outcome]
  | .error .panic, h => exact absurd rfl (h .panic rfl)

/-! ## Indexing -/

variable {bytes : List UInt8}

lemma range_of_le (h : start ≤ stop) (hstop : stop ≤ bytes.length) :
    (range bytes start stop : Except (Fault ε) (List UInt8)) = .ok (slice bytes start stop) :=
  if_pos ⟨h, hstop⟩

lemma slice_to_end (bytes : List UInt8) (start : Nat) :
    slice bytes start bytes.length = bytes.drop start := by
  rw [slice, List.take_length]

lemma slice_length_le (bytes : List UInt8) (start stop : Nat) :
    (slice bytes start stop).length ≤ bytes.length := by
  rw [slice, List.length_drop, List.length_take]
  omega

lemma slice_zero (bytes : List UInt8) (stop : Nat) : slice bytes 0 stop = bytes.take stop := rfl

lemma safe_ensure {c : Prop} [Decidable c] :
    Safe (ensure c (.error e) : Except (Fault ε) Unit) := avoids_ensure nofun

/-- Behind a check, two computations may differ where the check fails. -/
lemma ensure_bind_congr {c : Prop} [Decidable c] (h : c → x = y) :
    (ensure c e >>= fun _ => x) = ensure c e >>= fun _ => y := by
  by_cases hc : c
  · rw [h hc]
  · rw [ensure, if_neg hc]
    rfl

/-! ## Chunks -/

/-- The first `count` pieces of `width` bytes. -/
def chunks (width : Nat) : Nat → List UInt8 → List (List UInt8)
  | 0, _ => []
  | count + 1, bytes => bytes.take width :: chunks width count (bytes.drop width)

/-- `chunks_exact`: pieces of `width` bytes, without what is left over. -/
def chunksExact (width : Nat) (bytes : List UInt8) : List (List UInt8) :=
  chunks width (bytes.length / width) bytes

@[simp] lemma chunks_length (width count : Nat) (bytes : List UInt8) :
    (chunks width count bytes).length = count := by
  induction count generalizing bytes with
  | zero => rfl
  | succ count ih => rw [chunks, List.length_cons, ih]

lemma readNumbers_eq_map_chunks (count : Nat) (bytes : List UInt8) :
    readNumbers count bytes = (chunks 4 count bytes).map ofLeBytes := by
  induction count generalizing bytes with
  | zero => rfl
  | succ count ih => rw [readNumbers, chunks, List.map_cons, ih]

variable {width count : Nat}

lemma length_of_mem_chunks (h : count * width ≤ bytes.length)
    (hpiece : piece ∈ chunks width count bytes) : piece.length = width := by
  induction count generalizing bytes with
  | zero => cases hpiece
  | succ count ih =>
    rw [Nat.succ_mul] at h
    rcases List.mem_cons.mp hpiece with rfl | hpiece
    · rw [List.length_take]
      omega
    · exact ih (by rw [List.length_drop]; omega) hpiece

/-- Bytes that are a whole number of pieces are their pieces. -/
lemma flatten_chunks (h : bytes.length = count * width) :
    (chunks width count bytes).flatten = bytes := by
  induction count generalizing bytes with
  | zero =>
    rw [Nat.zero_mul] at h
    exact (List.eq_nil_of_length_eq_zero h).symm
  | succ count ih =>
    rw [Nat.succ_mul] at h
    rw [chunks, List.flatten_cons, ih (by rw [List.length_drop]; omega), List.take_append_drop]

/-- Pieces of equal width are found again. -/
lemma chunks_flatten (h : ∀ piece ∈ pieces, piece.length = width) :
    chunks width pieces.length pieces.flatten = pieces := by
  induction pieces with
  | nil => rfl
  | cons piece rest ih =>
    obtain ⟨hpiece, hrest⟩ := List.forall_mem_cons.mp h
    rw [List.length_cons, List.flatten_cons, chunks, List.take_left' hpiece, List.drop_left' hpiece,
      ih hrest]

lemma length_flatten_of_width (h : ∀ piece ∈ pieces, piece.length = width) :
    pieces.flatten.length = pieces.length * width := by
  induction pieces with
  | nil => exact (Nat.zero_mul _).symm
  | cons piece rest ih =>
    obtain ⟨hpiece, hrest⟩ := List.forall_mem_cons.mp h
    rw [List.flatten_cons, List.length_append, hpiece, ih hrest, List.length_cons, Nat.succ_mul,
      Nat.add_comm]

/-- A prefix determines its chunks. -/
lemma chunks_take (h : count * width ≤ n) :
    chunks width count (bytes.take n) = chunks width count bytes := by
  induction count generalizing bytes n with
  | zero => rfl
  | succ count ih =>
    rw [Nat.succ_mul] at h
    rw [chunks, chunks, List.take_take, Nat.min_eq_left (by omega), List.drop_take, ih (by omega)]

/-! ## What a reading accepts -/

/-- A reading returns exactly the values of `p`, and does not panic. -/
structure Accepts (x : Except (Fault ε) α) (p : α → Prop) : Prop where
  eq_ok : ∀ a, x = .ok a ↔ p a
  safe : Safe x

section Accepts

variable {x : Except (Fault ε) α} {p : α → Prop}

lemma Accepts.congr (h : Accepts x p) (hpq : ∀ a, p a ↔ q a) : Accepts x q :=
  ⟨fun a => (h.eq_ok a).trans (hpq a), h.safe⟩

lemma Accepts.bind {f : α → Except (Fault ε) β} {q : α → β → Prop} (hx : Accepts x p)
    (hf : ∀ a, p a → Accepts (f a) (q a)) : Accepts (x >>= f) fun b => ∃ a, p a ∧ q a b where
  eq_ok b := by
    rw [bind_eq_ok]
    refine exists_congr fun a => (and_congr_left' (hx.eq_ok a)).trans ?_
    exact and_congr_right fun ha => (hf a ha).eq_ok b
  safe := hx.safe.bind_of_ok fun a ha => (hf a ((hx.eq_ok a).mp ha)).safe

lemma accepts_pure (a : α) : Accepts (pure a : Except (Fault ε) α) (a = ·) :=
  ⟨fun _ => pure_eq_ok, avoids_pure a⟩

lemma accepts_okOr {o : Option α} : Accepts (okOr o (.error e) : Except (Fault ε) α) (o = some ·) :=
  ⟨fun _ => okOr_eq_ok, avoids_okOr nofun⟩

lemma accepts_range (h : start ≤ stop) (hstop : stop ≤ bytes.length) :
    Accepts (range bytes start stop : Except (Fault ε) (List UInt8)) (slice bytes start stop = ·) := by
  rw [range_of_le h hstop]
  exact accepts_pure _

lemma accepts_index {list : List α} (h : i < list.length) :
    Accepts (index list i : Except (Fault ε) α) (list[i]? = some ·) := by
  rw [index, List.getElem?_eq_getElem h]
  exact (accepts_pure _).congr fun _ => by rw [Option.some_inj]

lemma accepts_ensure {c : Prop} [Decidable c] :
    Accepts (ensure c (.error e) : Except (Fault ε) Unit) fun _ => c :=
  ⟨fun _ => ensure_eq_ok, safe_ensure⟩

/-- `windows(2)`. -/
def windows (offsets : List Nat) : List (Nat × Nat) := offsets.zip offsets.tail

/-- Monotone offsets within the bytes cut them without a panic. -/
lemma accepts_windows (hchain : offsets.IsChain (· ≤ ·))
    (hbound : ∀ offset ∈ offsets, offset ≤ bytes.length) :
    Accepts (mapResult (fun pair => range bytes pair.1 pair.2) (windows offsets) :
      Except (Fault ε) (List (List UInt8))) (slices bytes offsets = ·) := by
  induction offsets with
  | nil => exact accepts_pure _
  | cons first rest ih =>
    cases rest with
    | nil => exact accepts_pure _
    | cons second rest =>
      obtain ⟨hle, hchain⟩ := List.isChain_cons_cons.mp hchain
      obtain ⟨_, hrest⟩ := List.forall_mem_cons.mp hbound
      exact ((accepts_range hle (hrest second List.mem_cons_self)).bind fun piece _ =>
        (ih hchain hrest).bind fun pieces _ => accepts_pure (piece :: pieces)).congr
          fun all => by simp [slices]

end Accepts

/-! ## Canonical formats -/

/-- The contract of a format. -/
structure Canonical (read : List UInt8 → Except (Fault ε) α) (write : α → List UInt8)
    (well : α → Prop) : Prop where
  /-- Accepted bytes are those of the value. -/
  sound : ∀ {bytes x}, read bytes = .ok x → bytes = write x ∧ well x
  /-- A value that fits is read back. -/
  complete : ∀ {x}, well x → (write x).length < 2 ^ 32 → read (write x) = .ok x
  safe : ∀ bytes, Safe (read bytes)

variable {read : List UInt8 → Except (Fault ε) α}

/-- A reader, from what it accepts. -/
lemma Canonical.of_accepts {small : α → Prop}
    (hsmall : ∀ x, well x → (write x).length < 2 ^ 32 → small x)
    (h : ∀ bytes, Accepts (read bytes) fun x => small x ∧ bytes = write x ∧ well x) :
    Canonical read write well where
  sound {bytes x} hread := (((h bytes).eq_ok x).mp hread).2
  complete {x} hwell hfits := ((h _).eq_ok x).mpr ⟨hsmall x hwell hfits, rfl, hwell⟩
  safe bytes := (h bytes).safe

lemma Canonical.accepts (h : Canonical read write well) (hfits : bytes.length < 2 ^ 32) :
    Accepts (read bytes) fun x => bytes = write x ∧ well x where
  eq_ok x := by
    refine ⟨h.sound, ?_⟩
    rintro ⟨rfl, hwell⟩
    exact h.complete hwell hfits
  safe := h.safe bytes

lemma Canonical.of_forall (h : Canonical read write well) (hwell : ∀ x, well x) :
    Canonical read write fun _ => True :=
  ⟨fun hread => ⟨(h.sound hread).1, trivial⟩, fun _ => h.complete (hwell _), h.safe⟩

/-- A number of a fixed width. -/
lemma number_canonical {number : Nat → α} {toNat : α → Nat} {error : List UInt8 → ε}
    (hread : ∀ bytes, read bytes = (do
      ensure (bytes.length = width) (.error (error bytes))
      pure (number (ofLeBytes bytes))))
    (hnumber : ∀ n < 256 ^ width, toNat (number n) = n) (hback : ∀ x, number (toNat x) = x)
    (hlt : ∀ x, toNat x < 256 ^ width) :
    Canonical read (fun x => leBytes width (toNat x)) fun _ => True := by
  refine .of_accepts (fun _ _ _ => trivial) fun bytes => ?_
  rw [hread]
  refine (accepts_ensure.bind fun _ _ => accepts_pure _).congr fun x => ?_
  constructor
  · rintro ⟨_, rfl, rfl⟩
    rw [hnumber _ (ofLeBytes_lt bytes), leBytes_ofLeBytes]
    exact ⟨trivial, rfl, trivial⟩
  · rintro ⟨-, rfl, -⟩
    exact ⟨(), leBytes_length .., by rw [ofLeBytes_leBytes _ _ (hlt x), hback]⟩

/-- A struct of two parts. -/
lemma struct_canonical {γ : Type} {other : List UInt8 → Except (Fault ε) β} {writeOther : β → List UInt8}
    {make : α → β → γ} {left : γ → α} {right : γ → β} {error : List UInt8 → ε} (hle : first ≤ total)
    (h : Canonical read write fun _ => True) (hother : Canonical other writeOther fun _ => True)
    (hlt : total < 2 ^ 32) (hfirst : ∀ a, (write a).length = first)
    (hsecond : ∀ b, first + (writeOther b).length = total)
    (hmake : ∀ a b x, make a b = x ↔ a = left x ∧ b = right x) :
    Canonical (fun bytes => do
      ensure (bytes.length = total) (.error (error bytes))
      let a ← read (← range bytes 0 first)
      let b ← other (← range bytes first total)
      pure (make a b)) (fun x => write (left x) ++ writeOther (right x)) fun _ => True := by
  refine .of_accepts (fun _ _ _ => trivial) fun bytes => (accepts_ensure.bind fun _ hlength =>
    (accepts_range (Nat.zero_le _) (hlength ▸ hle)).bind fun piece hpiece =>
    (h.accepts (hpiece ▸ (slice_length_le ..).trans_lt (hlength ▸ hlt))).bind fun a _ =>
    (accepts_range hle hlength.ge).bind fun last hlast =>
    (hother.accepts (hlast ▸ (slice_length_le ..).trans_lt (hlength ▸ hlt))).bind fun b _ =>
    accepts_pure _).congr fun x => ?_
  constructor
  · rintro ⟨_, rfl, _, rfl, a, ⟨ha, -⟩, _, rfl, b, ⟨hb, -⟩, hx⟩
    obtain ⟨rfl, rfl⟩ := (hmake a b x).mp hx
    rw [← ha, ← hb, slice_zero, slice_to_end, List.take_append_drop]
    exact ⟨trivial, rfl, trivial⟩
  · rintro ⟨-, rfl, -⟩
    have hlength : (write (left x) ++ writeOther (right x)).length = total := by
      rw [List.length_append, hfirst, hsecond]
    refine ⟨(), hlength, _, rfl, left x, ⟨?_, trivial⟩, _, rfl, right x, ⟨?_, trivial⟩,
      (hmake _ _ x).mpr ⟨rfl, rfl⟩⟩
    · rw [slice_zero, List.take_left' (hfirst _)]
    · rw [← hlength, slice_to_end, List.drop_left' (hfirst _)]

section Combinators

/-- Nothing for `none`. -/
def readOptional (read : List UInt8 → Except (Fault ε) α) (bytes : List UInt8) :
    Except (Fault ε) (Option α) :=
  if bytes = [] then .ok none else (read bytes).map some

def writeOptional (write : α → List UInt8) : Option α → List UInt8
  | some x => write x
  | none => []

/-- A format without empty values has room for an option. -/
lemma Canonical.optional (h : Canonical read write well) (hne : ∀ x, write x ≠ []) :
    Canonical (readOptional read) (writeOptional write) fun o => ∀ x ∈ o, well x where
  sound {bytes o} hread := by
    unfold readOptional at hread
    split_ifs at hread with hempty
    · cases hread
      exact ⟨hempty, nofun⟩
    · obtain ⟨x, hx, rfl⟩ := map_eq_ok.mp hread
      obtain ⟨hbytes, hwell⟩ := h.sound hx
      exact ⟨hbytes, fun y hy => Option.mem_some.mp hy ▸ hwell⟩
  complete {o} hwell hfits := by
    cases o with
    | none => rfl
    | some x =>
      rw [writeOptional, readOptional, if_neg (hne x), h.complete (hwell x rfl) hfits]
      rfl
  safe bytes := by
    unfold readOptional
    split_ifs
    · exact avoids_ok _
    · exact (h.safe bytes).map _

/-- Pieces read one by one. -/
lemma Canonical.mapResult_accepts (h : Canonical read write well)
    (hfits : ∀ piece ∈ pieces, piece.length < 2 ^ 32) :
    Accepts (mapResult read pieces) fun xs => pieces = xs.map write ∧ ∀ x ∈ xs, well x := by
  induction pieces with
  | nil => exact (accepts_pure []).congr fun xs => by cases xs <;> simp
  | cons piece rest ih =>
    obtain ⟨hpiece, hrest⟩ := List.forall_mem_cons.mp hfits
    refine ((h.accepts hpiece).bind fun x _ => (ih hrest).bind fun xs _ =>
      accepts_pure (x :: xs)).congr fun all => ?_
    cases all with
    | nil => simp
    | cons x xs => grind

end Combinators

/-! ## Tables -/

/-- The numbers a header lists, and the total size. -/
def offsetsOf (bytes : List UInt8) (first : Nat) : List Nat :=
  readNumbers (first / 4 - 1) (bytes.drop 4) ++ [bytes.length]

/-- The header of a table whose first field starts at `first`. -/
structure Header (bytes : List UInt8) (first : Nat) : Prop where
  long : 8 ≤ bytes.length
  total : ofLeBytes (bytes.take 4) = bytes.length
  start : ofLeBytes ((bytes.drop 4).take 4) = first
  inside : first % 4 = 0 ∧ 8 ≤ first ∧ first ≤ bytes.length
  chain : (offsetsOf bytes first).IsChain (· ≤ ·)
  bounds : ∀ offset ∈ offsetsOf bytes first, first ≤ offset ∧ offset ≤ bytes.length

/-- What has a header is the table of its fields. -/
lemma Header.eq_encodeTable (h : Header bytes first) :
    let fields := slices bytes (offsetsOf bytes first)
    fields.length = first / 4 - 1 ∧ bytes.length < 2 ^ 32 ∧ bytes = encodeTable fields := by
  obtain ⟨-, htotal, hfirst, ⟨hmod, hlow, hhigh⟩, hchain, hbounds⟩ := h
  -- the header's numbers: the first one is `first`, and the total size follows the last
  obtain ⟨count, hcount⟩ : ∃ count, first / 4 - 1 = count + 1 := ⟨first / 4 - 2, by omega⟩
  unfold offsetsOf at hchain hbounds ⊢
  rw [hcount] at hchain hbounds ⊢
  have hnumbers : readNumbers (count + 1) (bytes.drop 4) =
      first :: readNumbers count ((bytes.drop 4).drop 4) := by
    rw [readNumbers, hfirst]
  have hlength := readNumbers_length count ((bytes.drop 4).drop 4)
  generalize readNumbers count ((bytes.drop 4).drop 4) = others at hnumbers hlength
  rw [hnumbers, List.cons_append] at hchain hbounds ⊢
  rw [← hlength] at hnumbers hcount ⊢
  refine ⟨by rw [slices_length, List.length_append, List.length_singleton], ?_, ?_⟩
  · have := ofLeBytes_lt (bytes.take 4)
    rw [htotal, List.length_take] at this
    exact this.trans_le (Nat.pow_le_pow_right (by decide) (Nat.min_le_left 4 _))
  · exact (encodeTable_slices htotal hnumbers (by omega) hhigh hchain
      fun offset hoffset => (hbounds offset (List.mem_cons_of_mem _ hoffset)).2).symm

/-- A table with a field has a header that finds its fields. -/
lemma header_encodeTable (hfits : (encodeTable fields).length < 2 ^ 32) (hsome : 0 < fields.length) :
    Header (encodeTable fields) (4 + fields.length * 4) ∧
      slices (encodeTable fields) (offsetsOf (encodeTable fields) (4 + fields.length * 4)) = fields := by
  obtain ⟨hsize, hnumbers⟩ := encodeTable_header hfits
  have hlength := encodeTable_length fields
  obtain ⟨rest, hcons⟩ := offsetsFrom_eq_cons (4 + fields.length * 4) fields
  -- the first number of the header is the header's own size
  have hfirst : ofLeBytes (((encodeTable fields).drop 4).take 4) = 4 + fields.length * 4 := by
    obtain ⟨count, hcount⟩ : ∃ count, fields.length = count + 1 := ⟨fields.length - 1, by omega⟩
    rw [hcons, hcount, readNumbers, List.cons_append] at hnumbers
    rw [(List.cons.inj hnumbers).1, hcount]
  have hoffsets : offsetsOf (encodeTable fields) (4 + fields.length * 4) =
      offsetsFrom (4 + fields.length * 4) fields := by
    rw [offsetsOf, show (4 + fields.length * 4) / 4 - 1 = fields.length by omega, hnumbers]
  refine ⟨⟨by omega, hsize, hfirst, ⟨by omega, by omega, by omega⟩, ?_, ?_⟩, ?_⟩
  · rw [hoffsets]
    exact offsetsFrom_isChain _ _
  · intro offset hoffset
    have := offsetsFrom_bounds (hoffsets ▸ hoffset)
    omega
  · rw [hoffsets, slices_encodeTable]

lemma length_le_encodeTable (h : field ∈ fields) :
    field.length ≤ (encodeTable fields).length := by
  have hpart := (List.sublist_flatten_of_mem h).length_le
  rw [List.length_flatten] at hpart
  rw [encodeTable_length]
  omega

/-- A table, from what its fields are. -/
lemma table_canonical {decode : List UInt8 → Except (Fault ε) (List (List UInt8))}
    {fieldsOf : α → List (List UInt8)} {body : List (List UInt8) → Except (Fault ε) α}
    (hdecode : ∀ bytes, Accepts (decode bytes) fun fields =>
      fields.length = count ∧ bytes.length < 2 ^ 32 ∧ bytes = encodeTable fields)
    (hcount : ∀ x, (fieldsOf x).length = count)
    (hbody : ∀ fields, fields.length = count → (∀ field ∈ fields, field.length < 2 ^ 32) →
      Accepts (body fields) fun x => fields = fieldsOf x ∧ well x) :
    Canonical (fun bytes => decode bytes >>= body) (fun x => encodeTable (fieldsOf x)) well := by
  refine .of_accepts (fun _ _ hfits => hfits) fun bytes => ((hdecode bytes).bind fun fields hfields =>
    hbody fields hfields.1 fun field hfield => ?_).congr fun x => ?_
  · obtain ⟨-, hfits, rfl⟩ := hfields
    exact (length_le_encodeTable hfield).trans_lt hfits
  · constructor
    · rintro ⟨fields, ⟨-, hfits, rfl⟩, rfl, hwell⟩
      exact ⟨hfits, rfl, hwell⟩
    · rintro ⟨hfits, rfl, hwell⟩
      exact ⟨_, ⟨hcount x, hfits, rfl⟩, rfl, hwell⟩

end Myelin.Lib
