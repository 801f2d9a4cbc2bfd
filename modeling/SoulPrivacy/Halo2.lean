import Mathlib.Data.List.Forall2

/-!
# Circuits laid out by regions

A synthesis asks for one region of a table after another, assigns cells in
it, enables gates at its rows and ties cells of it to cells assigned before.
The honest prover runs it to fill the table. Any other prover is free to
fill the table as it likes: what a proof shows is that *some* contents of
the table satisfy the enabled gates and the copy constraints.

So a synthesis is read here as the check of an assignment. It takes the
contents of its regions from a list, refuses where a constraint fails in
them, and returns the cells it assigned, each as the value it holds. Regions
that share a column do not share rows, so the contents of one say nothing
about the contents of another, and a column that a region does not assign
holds whatever the prover puts there.

`Spec m R` says what the constraints of a synthesis come to: `R` holds of
the cells of every assignment that satisfies it, and all cells with `R` are
those of some assignment. The second half is what shows a constraint to be
missing. There is one rule for each way to put a synthesis together.
-/

namespace Halo2

variable {A F α β ι : Type}

/-- **The contents of a region**: a value for each advice column and each
row, counted from the first of the region. -/
abbrev Region (A F : Type) : Type := A → ℕ → F

/-- **A synthesis**, as the check of the contents of its regions. -/
abbrev Layouter (A F : Type) : Type → Type := StateT (List (Region A F)) Option

/-- A gate: the polynomials that vanish at a row where it is enabled. -/
abbrev Gate (A F : Type) : Type := Region A F → ℕ → List F

/-- The contents of a fixed column that no region assigns. -/
def unassigned [Zero F] : ℕ → F := fun _ => 0

/-- `assign_advice`: the cell, whatever it holds. -/
def Region.assignAdvice (region : Region A F) (column : A) (offset : ℕ) : F :=
  region column offset

variable [DecidableEq F]

/-- `copy_advice`: a cell of the region holds what another cell holds. -/
def copyAdvice (cell : F) (region : Region A F) (column : A) (offset : ℕ) : Option Unit :=
  guard (region column offset = cell)

/-- `enable`: a gate holds at a row. -/
def enable [Zero F] (gate : Gate A F) (region : Region A F) (offset : ℕ) : Option Unit :=
  guard (∀ v ∈ gate region offset, v = 0)

/-- A gate enabled at consecutive rows, and the row after them. -/
def enableRows [Zero F] (gate : Gate A F) (region : Region A F) (offset rows : ℕ) :
    Option ℕ := do
  forM (List.range rows) fun row => enable gate region (offset + row)
  return offset + rows

omit [DecidableEq F] in
/-- `assign_region`. -/
def assignRegion (body : Region A F → Option α) : Layouter A F α := fun regions =>
  match regions with
  | [] => none
  | region :: rest => (body region).map fun a => (a, rest)

/-- `constrain_instance`: a cell holds what a row of an instance column
holds. -/
def constrainInstance (cell : F) (column : ℕ → F) (row : ℕ) : Layouter A F Unit :=
  StateT.lift (guard (cell = column row))

theorem copyAdvice_eq_some {cell : F} {region : Region A F} {column : A} {offset : ℕ}
    {u : Unit} :
    copyAdvice cell region column offset = some u ↔ region column offset = cell := by
  unfold copyAdvice
  simp [guard]

theorem enable_eq_some [Zero F] {gate : Gate A F} {region : Region A F} {offset : ℕ}
    {u : Unit} :
    enable gate region offset = some u ↔ ∀ v ∈ gate region offset, v = 0 := by
  unfold enable
  simp [guard]

theorem forM_enable_eq_some [Zero F] {gate : Gate A F} {region : Region A F}
    {offset : ι → ℕ} {is : List ι} {u : Unit} :
    (forM is fun i => enable gate region (offset i)) = some u
      ↔ ∀ i ∈ is, ∀ v ∈ gate region (offset i), v = 0 := by
  induction is with
  | nil =>
    rw [List.forM_nil]
    simp
  | cons i is ih =>
    rw [List.forM_cons, List.forall_mem_cons, ← ih, ← enable_eq_some (u := u)]
    cases enable gate region (offset i) with
    | none => simp
    | some v => simp

theorem enableRows_eq_some [Zero F] {gate : Gate A F} {region : Region A F}
    {offset rows next : ℕ} :
    enableRows gate region offset rows = some next
      ↔ (∀ row < rows, ∀ v ∈ gate region (offset + row), v = 0) ∧ next = offset + rows := by
  unfold enableRows
  rw [Option.bind_eq_bind, Option.bind_eq_some_iff]
  simp only [forM_enable_eq_some, List.mem_range]
  constructor
  · rintro ⟨-, hrows, heq⟩
    exact ⟨hrows, (Option.some.inj heq).symm⟩
  · rintro ⟨hrows, rfl⟩
    exact ⟨(), hrows, rfl⟩

/-! ## What the constraints come to -/

omit [DecidableEq F]

/-- **An assignment satisfies a synthesis**, with these cells. -/
def Satisfies (m : Layouter A F α) (regions : List (Region A F)) (cells : α) : Prop :=
  m regions = some (cells, [])

/-- Some assignment satisfies it. -/
def Satisfiable (m : Layouter A F α) : Prop := ∃ regions cells, Satisfies m regions cells

/-- **All assignments that satisfy it agree** on what a function reads of the
cells. -/
def Determines (m : Layouter A F α) (f : α → β) : Prop :=
  ∀ regions regions' cells cells', Satisfies m regions cells → Satisfies m regions' cells' →
    f cells = f cells'

/-- **What a synthesis checks of the cells it assigns**: no more and no
less. -/
structure Spec (m : Layouter A F α) (R : α → Prop) : Prop where
  sound : ∀ {regions a rest}, m regions = some (a, rest) → R a
  complete : ∀ {a}, R a → ∃ regions, ∀ rest, m (regions ++ rest) = some (a, rest)

namespace Spec

variable {m : Layouter A F α} {R S : α → Prop}

theorem of_satisfies (h : Spec m R) {regions : List (Region A F)} {cells : α}
    (hs : Satisfies m regions cells) : R cells :=
  h.sound hs

theorem exists_satisfies (h : Spec m R) {cells : α} (hR : R cells) :
    ∃ regions, Satisfies m regions cells := by
  obtain ⟨regions, hregions⟩ := h.complete hR
  refine ⟨regions, ?_⟩
  have hnil := hregions []
  rwa [List.append_nil] at hnil

theorem satisfiable_iff (h : Spec m R) : Satisfiable m ↔ ∃ cells, R cells := by
  constructor
  · rintro ⟨regions, cells, hs⟩
    exact ⟨cells, h.of_satisfies hs⟩
  · rintro ⟨cells, hR⟩
    obtain ⟨regions, hs⟩ := h.exists_satisfies hR
    exact ⟨regions, cells, hs⟩

theorem determines_iff (h : Spec m R) {f : α → β} :
    Determines m f ↔ ∀ cells cells', R cells → R cells' → f cells = f cells' := by
  constructor
  · intro hf cells cells' hR hR'
    obtain ⟨regions, hs⟩ := h.exists_satisfies hR
    obtain ⟨regions', hs'⟩ := h.exists_satisfies hR'
    exact hf _ _ _ _ hs hs'
  · intro hf _ _ cells cells' hs hs'
    exact hf cells cells' (h.of_satisfies hs) (h.of_satisfies hs')

/-- **What two checked records of cells differ in is not determined.** -/
theorem not_determines (h : Spec m R) {f : α → β} {cells cells' : α} (hR : R cells)
    (hR' : R cells') (hne : f cells ≠ f cells') : ¬ Determines m f :=
  fun hf => hne (h.determines_iff.mp hf cells cells' hR hR')

theorem congr (h : Spec m R) (hiff : ∀ a, R a ↔ S a) : Spec m S where
  sound hs := (hiff _).mp (h.sound hs)
  complete hS := h.complete ((hiff _).mpr hS)

theorem pure (a : α) : Spec (Pure.pure a : Layouter A F α) (fun b => b = a) where
  sound hs := by
    cases hs
    rfl
  complete hb := by
    subst hb
    exact ⟨[], fun _ => rfl⟩

theorem bind {f : α → Layouter A F β} {T : α → β → Prop} (hm : Spec m R)
    (hf : ∀ a, Spec (f a) (T a)) : Spec (m >>= f) (fun b => ∃ a, R a ∧ T a b) where
  sound {regions b rest} hs := by
    obtain ⟨⟨a, mid⟩, ha, hb⟩ := Option.bind_eq_some_iff.mp hs
    exact ⟨a, hm.sound ha, (hf a).sound hb⟩
  complete {b} hb := by
    obtain ⟨a, hR, hT⟩ := hb
    obtain ⟨before, hbefore⟩ := hm.complete hR
    obtain ⟨after, hafter⟩ := (hf a).complete hT
    refine ⟨before ++ after, fun rest => ?_⟩
    refine Option.bind_eq_some_iff.mpr ⟨(a, after ++ rest), ?_, hafter rest⟩
    rw [List.append_assoc]
    exact hbefore (after ++ rest)

theorem assignRegion {body : Region A F → Option α}
    (h : ∀ a, (∃ region, body region = some a) ↔ R a) : Spec (assignRegion body) R where
  sound {regions a rest} hs := by
    cases regions with
    | nil => cases hs
    | cons region regions =>
      obtain ⟨b, hb, heq⟩ := Option.map_eq_some_iff.mp hs
      cases heq
      exact (h _).mp ⟨region, hb⟩
  complete {a} hR := by
    obtain ⟨region, hregion⟩ := (h a).mpr hR
    exact ⟨[region], fun rest => by
      show (body region).map (fun a => (a, rest)) = some (a, rest)
      rw [hregion, Option.map_some]⟩

/-- What may fail for want of a value. -/
theorem lift (value : Option α) :
    Spec (StateT.lift value : Layouter A F α) (fun a => value = some a) where
  sound {regions a rest} hs := by
    obtain ⟨b, hb, heq⟩ := Option.bind_eq_some_iff.mp hs
    cases heq
    exact hb
  complete {a} hvalue :=
    ⟨[], fun rest => Option.bind_eq_some_iff.mpr ⟨a, hvalue, rfl⟩⟩

theorem constrainInstance [DecidableEq F] (cell : F) (column : ℕ → F) (row : ℕ) :
    Spec (constrainInstance cell column row : Layouter A F Unit)
      (fun _ => cell = column row) :=
  (Spec.lift _).congr fun _ => by simp [guard]

/-- **A loop that collects cells** checks of each what its round checks. -/
theorem mapM {f : ι → Layouter A F α} {T : ι → α → Prop} (hf : ∀ i, Spec (f i) (T i))
    (is : List ι) : Spec (is.mapM f) (fun as => List.Forall₂ T is as) := by
  induction is with
  | nil =>
    rw [List.mapM_nil]
    exact (Spec.pure []).congr fun as => List.forall₂_nil_left_iff.symm
  | cons i is ih =>
    rw [List.mapM_cons]
    refine ((hf i).bind fun a => ih.bind fun as => Spec.pure (a :: as)).congr fun bs => ?_
    rw [List.forall₂_cons_left_iff]
    constructor
    · rintro ⟨a, ha, as, has, rfl⟩
      exact ⟨a, as, ha, has, rfl⟩
    · rintro ⟨a, as, ha, has, rfl⟩
      exact ⟨a, ha, as, has, rfl⟩

/-- A loop whose rounds check the value of their cells. -/
theorem mapM_eq {f : ι → Layouter A F α} {value : ι → α}
    (hf : ∀ i, Spec (f i) (fun a => a = value i)) (is : List ι) :
    Spec (is.mapM f) (fun as => as = is.map value) := by
  refine (mapM hf is).congr fun as => ?_
  rw [← List.forall₂_eq_eq_eq, List.forall₂_map_right_iff]
  exact ⟨List.Forall₂.flip, List.Forall₂.flip⟩

end Spec

end Halo2
