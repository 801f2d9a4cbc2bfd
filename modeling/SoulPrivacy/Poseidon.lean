import Mathlib.Data.List.Forall2
import Mathlib.Data.Nat.ModEq

/-!
# The Poseidon permutation over any arithmetic

A permutation of three values: full rounds, partial rounds, full rounds. A
full round adds its constants, raises each value to the fifth power and
multiplies by a matrix; a partial round does so with the first value only.
All it needs of the values is how to add and to multiply them (`Arith`).

Two arithmetics with a relation that sums and products keep
(`Arith.Related`) take related states to related states
(`permute_related`). Numbers with and without a reduction are related by
congruence, so what is computed with reductions is the remainder of what is
computed without.
-/

namespace Poseidon

/-- How values are added and multiplied. -/
structure Arith (W : Type) where
  add : W → W → W
  mul : W → W → W

/-- Three values. -/
structure State (W : Type) where
  s0 : W
  s1 : W
  s2 : W
  deriving DecidableEq

/-- The values under a function. -/
def State.map {W V : Type} (f : W → V) (s : State W) : State V := ⟨f s.s0, f s.s1, f s.s2⟩

/-- **The constants**: those of the rounds, and the matrix by rows. -/
structure Params (W : Type) where
  first : List (State W)
  middle : List W
  last : List (State W)
  matrix : State (State W)
  deriving DecidableEq

/-- The constants under a function. -/
def Params.map {W V : Type} (f : W → V) (P : Params W) : Params V where
  first := P.first.map (State.map f)
  middle := P.middle.map f
  last := P.last.map (State.map f)
  matrix := P.matrix.map (State.map f)

theorem Params.map_id {W : Type} (P : Params W) : P.map (fun a => a) = P := by
  have hstate : State.map (fun a : W => a) = id := rfl
  unfold Params.map
  rw [hstate, List.map_id, List.map_id, List.map_id']
  rfl

variable {W V : Type} (A : Arith W) (P : Params W)

/-- The fifth power. -/
def sbox (x : W) : W :=
  let x2 := A.mul x x
  let x4 := A.mul x2 x2
  A.mul x4 x

/-- A row of the matrix times the state. -/
def row (r s : State W) : W :=
  A.add (A.add (A.mul r.s0 s.s0) (A.mul r.s1 s.s1)) (A.mul r.s2 s.s2)

/-- The matrix times the state. -/
def mix (s : State W) : State W :=
  ⟨row A P.matrix.s0 s, row A P.matrix.s1 s, row A P.matrix.s2 s⟩

/-- A full round. -/
def fullRound (s rc : State W) : State W :=
  mix A P ⟨sbox A (A.add s.s0 rc.s0), sbox A (A.add s.s1 rc.s1), sbox A (A.add s.s2 rc.s2)⟩

/-- A partial round. -/
def partialRound (s : State W) (rc : W) : State W :=
  mix A P { s with s0 := sbox A (A.add s.s0 rc) }

/-- **The permutation.** -/
def permute (s : State W) : State W :=
  P.last.foldl (fullRound A P)
    (P.middle.foldl (partialRound A P) (P.first.foldl (fullRound A P) s))

/-! ## Two arithmetics -/

/-- **Sums and products keep a relation.** -/
structure Arith.Related (A : Arith W) (B : Arith V) (R : W → V → Prop) : Prop where
  add : ∀ {a b x y}, R a x → R b y → R (A.add a b) (B.add x y)
  mul : ∀ {a b x y}, R a x → R b y → R (A.mul a b) (B.mul x y)

/-- Related states. -/
structure State.Related (R : W → V → Prop) (s : State W) (t : State V) : Prop where
  s0 : R s.s0 t.s0
  s1 : R s.s1 t.s1
  s2 : R s.s2 t.s2

/-- Related constants. -/
structure Params.Related (R : W → V → Prop) (P : Params W) (Q : Params V) : Prop where
  first : List.Forall₂ (State.Related R) P.first Q.first
  middle : List.Forall₂ R P.middle Q.middle
  last : List.Forall₂ (State.Related R) P.last Q.last
  matrix : State.Related (State.Related R) P.matrix Q.matrix

/-- A fold with steps that keep a relation keeps it. -/
theorem foldl_related {S T C D : Type} {RS : S → T → Prop} {RC : C → D → Prop}
    {f : S → C → S} {g : T → D → T}
    (hstep : ∀ {s t c d}, RS s t → RC c d → RS (f s c) (g t d)) {cs : List C} {ds : List D}
    (hcs : List.Forall₂ RC cs ds) {s : S} {t : T} (hst : RS s t) :
    RS (cs.foldl f s) (ds.foldl g t) := by
  induction hcs generalizing s t with
  | nil => exact hst
  | cons hcd _ ih => exact ih (hstep hst hcd)

variable {A P} {B : Arith V} {Q : Params V} {R : W → V → Prop}

theorem sbox_related (hA : A.Related B R) {a : W} {x : V} (h : R a x) :
    R (sbox A a) (sbox B x) :=
  hA.mul (hA.mul (hA.mul h h) (hA.mul h h)) h

theorem row_related (hA : A.Related B R) {r s : State W} {q t : State V}
    (hr : State.Related R r q) (hs : State.Related R s t) : R (row A r s) (row B q t) :=
  hA.add (hA.add (hA.mul hr.s0 hs.s0) (hA.mul hr.s1 hs.s1)) (hA.mul hr.s2 hs.s2)

theorem mix_related (hA : A.Related B R) (hP : P.Related R Q) {s : State W} {t : State V}
    (hs : State.Related R s t) : State.Related R (mix A P s) (mix B Q t) :=
  ⟨row_related hA hP.matrix.s0 hs, row_related hA hP.matrix.s1 hs,
    row_related hA hP.matrix.s2 hs⟩

theorem fullRound_related (hA : A.Related B R) (hP : P.Related R Q) {s rc : State W}
    {t tc : State V} (hs : State.Related R s t) (hrc : State.Related R rc tc) :
    State.Related R (fullRound A P s rc) (fullRound B Q t tc) :=
  mix_related hA hP ⟨sbox_related hA (hA.add hs.s0 hrc.s0),
    sbox_related hA (hA.add hs.s1 hrc.s1), sbox_related hA (hA.add hs.s2 hrc.s2)⟩

theorem partialRound_related (hA : A.Related B R) (hP : P.Related R Q) {s : State W}
    {t : State V} {rc : W} {tc : V} (hs : State.Related R s t) (hrc : R rc tc) :
    State.Related R (partialRound A P s rc) (partialRound B Q t tc) :=
  mix_related hA hP ⟨sbox_related hA (hA.add hs.s0 hrc), hs.s1, hs.s2⟩

/-- **Related arithmetics permute alike.** -/
theorem permute_related (hA : A.Related B R) (hP : P.Related R Q) {s : State W}
    {t : State V} (hs : State.Related R s t) :
    State.Related R (permute A P s) (permute B Q t) := by
  have hfirst := foldl_related (fullRound_related hA hP) hP.first hs
  have hmiddle := foldl_related (partialRound_related hA hP) hP.middle hfirst
  exact foldl_related (fullRound_related hA hP) hP.last hmiddle

/-- Constants are related to their images. -/
theorem Params.related_map {f : W → V} (hf : ∀ a, R a (f a)) (P : Params W) :
    P.Related R (P.map f) := by
  have hstate : ∀ s : State W, State.Related R s (s.map f) :=
    fun s => ⟨hf s.s0, hf s.s1, hf s.s2⟩
  refine ⟨?_, ?_, ?_, ⟨hstate _, hstate _, hstate _⟩⟩
  · exact List.forall₂_map_right_iff.mpr (List.forall₂_same.mpr (fun s _ => hstate s))
  · exact List.forall₂_map_right_iff.mpr (List.forall₂_same.mpr (fun a _ => hf a))
  · exact List.forall₂_map_right_iff.mpr (List.forall₂_same.mpr (fun s _ => hstate s))

/-- A state whose values a function takes to others. -/
theorem State.Related.map_eq {f : W → V} {s : State W} {t : State V} (h : State.Related R s t)
    (hf : ∀ {a x}, R a x → f a = x) : s.map f = t := by
  unfold State.map
  rw [hf h.s0, hf h.s1, hf h.s2]

/-- A list whose entries a function takes to others. -/
theorem map_eq_of_forall₂ {C D : Type} {RC : C → D → Prop} {f : C → D} {cs : List C}
    {ds : List D} (h : List.Forall₂ RC cs ds) (hf : ∀ {c d}, RC c d → f c = d) :
    cs.map f = ds := by
  induction h with
  | nil => rfl
  | cons hcd _ ih => rw [List.map_cons, hf hcd, ih]

/-- **Constants that a function takes to others.** -/
theorem Params.Related.map_eq {f : W → V} {P : Params W} {Q : Params V} (h : P.Related R Q)
    (hf : ∀ {a x}, R a x → f a = x) : P.map f = Q := by
  have hstate : ∀ {s : State W} {t : State V}, State.Related R s t → s.map f = t :=
    fun hst => hst.map_eq hf
  unfold Params.map
  rw [map_eq_of_forall₂ h.first hstate, map_eq_of_forall₂ h.middle hf,
    map_eq_of_forall₂ h.last hstate, h.matrix.map_eq hstate]

/-- A fold whose steps may fail but do not. -/
theorem foldlM_eq_some {S C D : Type} {RC : C → D → Prop} {f : S → C → Option S}
    {g : S → D → S} {cs : List C} {ds : List D} (hcs : List.Forall₂ RC cs ds)
    (hstep : ∀ s c d, RC c d → f s c = some (g s d)) (s : S) :
    cs.foldlM f s = some (ds.foldl g s) := by
  induction hcs generalizing s with
  | nil => rfl
  | cons hcd _ ih => rw [List.foldlM_cons, hstep _ _ _ hcd, Option.bind_eq_bind,
      Option.bind_some, ih, List.foldl_cons]

/-! ## The natural numbers -/

/-- The numbers with their sums and products. -/
def natural : Arith ℕ := ⟨(· + ·), (· * ·)⟩

/-- … and reduced modulo a number. -/
def modular (m : ℕ) : Arith ℕ := ⟨fun a b => (a + b) % m, fun a b => a * b % m⟩

/-- **Values that are numbers, with operations that are right modulo `m`.** -/
structure Arith.ModularOn (A : Arith W) (value : W → ℕ) (m : ℕ) : Prop where
  add : ∀ a b, value (A.add a b) = (value a + value b) % m
  mul : ∀ a b, value (A.mul a b) = value a * value b % m

theorem Arith.ModularOn.related {value : W → ℕ} {m : ℕ} (h : A.ModularOn value m) :
    A.Related natural (fun a n => value a ≡ n [MOD m]) where
  add := fun {a b _ _} ha hb => by
    rw [h.add]
    exact (Nat.mod_modEq _ _).trans (ha.add hb)
  mul := fun {a b _ _} ha hb => by
    rw [h.mul]
    exact (Nat.mod_modEq _ _).trans (ha.mul hb)

theorem modular_modularOn (m : ℕ) : (modular m).ModularOn (fun n => n) m :=
  ⟨fun _ _ => rfl, fun _ _ => rfl⟩

/-- **The permutation as a number**, computed with no reduction. -/
def permuteNat (P : Params ℕ) (s : State ℕ) : State ℕ := permute natural P s

/-- **What is computed modulo `m` is congruent to what is computed with no
reduction.** -/
theorem permute_modEq {value : W → ℕ} {m : ℕ} (h : A.ModularOn value m) (P : Params W)
    {s : State W} {t : State ℕ} (hst : State.Related (fun a n => value a ≡ n [MOD m]) s t) :
    State.Related (fun a n => value a ≡ n [MOD m]) (permute A P s)
      (permuteNat (P.map value) t) :=
  permute_related h.related (Params.related_map (fun _ => Nat.ModEq.refl _) P) hst

/-- **The first value is reduced**, when a full round comes last. -/
theorem permute_s0_lt {value : W → ℕ} {m : ℕ} (h : A.ModularOn value m) (hm : 0 < m)
    (hlast : P.last ≠ []) (s : State W) : value (permute A P s).s0 < m := by
  obtain ⟨init, rc, hrc⟩ := (List.eq_nil_or_concat' P.last).resolve_left hlast
  unfold permute
  rw [hrc, List.foldl_append]
  show value (A.add _ _) < m
  rw [h.add]
  exact Nat.mod_lt _ hm

/-- **The first value is the remainder of the number.** -/
theorem value_permute_s0 {value : W → ℕ} {m : ℕ} (h : A.ModularOn value m) (hm : 0 < m)
    (hlast : P.last ≠ []) {s : State W} {t : State ℕ}
    (hst : State.Related (fun a n => value a ≡ n [MOD m]) s t) :
    value (permute A P s).s0 = (permuteNat (P.map value) t).s0 % m := by
  have hmod := (permute_modEq h P hst).s0
  rw [← hmod, Nat.mod_eq_of_lt (permute_s0_lt h hm hlast s)]

end Poseidon
