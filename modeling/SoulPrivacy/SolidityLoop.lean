import SoulPrivacy.Solidity

/-!
# Loops and arrays of Solidity

A loop of a contract need not end, its counters are words that panic when
they overflow, and an array panics outside its bounds. All three are errors
here, so that a loop with a result is one that ends, computes without
overflow and stays inside its arrays.

A loop goes round at most `fuel` times. What is said of it is said with an
invariant that bounds the rounds still to run (`whileLoop_total`): from such
a state any fuel that is not less gives a result. The `for` loop over a
counter is the case where the counter says how many rounds are left
(`forLoop_total`), and a loop of it that follows a fold over the naturals
returns what the fold does (`forLoop_of_foldlM`).
-/

/-- Why code that only computes does not return. -/
inductive Panic where
  /-- An overflow or an underflow, `0x11`. -/
  | arithmetic
  /-- An access outside an array, `0x32`. -/
  | index
  /-- The loop is still running. -/
  | outOfFuel
  deriving DecidableEq

variable {α σ : Type}

/-- A part that goes through hands its result on. -/
theorem Except.ok_bind {ε β : Type} (a : α) (f : α → Except ε β) :
    ((Except.ok a : Except ε α) >>= f) = f a := rfl

/-! ## Checked arithmetic -/

/-- Checked multiplication of Solidity 0.8. -/
def checkedMul {ε : Type} (panic : ε) (a b : Uint256) : Except ε Uint256 :=
  if a.toNat * b.toNat < 2 ^ 256 then .ok (a * b) else .error panic

theorem toNat_ofNat_of_lt {n : ℕ} (h : n < 2 ^ 256) : (BitVec.ofNat 256 n).toNat = n := by
  rw [BitVec.toNat_ofNat, Nat.mod_eq_of_lt h]

/-- A sum that fits into a word. -/
theorem checkedAdd_ofNat {ε : Type} (panic : ε) {a b : ℕ} (h : a + b < 2 ^ 256) :
    checkedAdd panic (BitVec.ofNat 256 a) (BitVec.ofNat 256 b)
      = .ok (BitVec.ofNat 256 (a + b)) := by
  unfold checkedAdd
  rw [toNat_ofNat_of_lt (by omega), toNat_ofNat_of_lt (by omega), if_pos h, BitVec.ofNat_add]

/-- A product that fits into a word. -/
theorem checkedMul_ofNat {ε : Type} (panic : ε) {a b : ℕ} (ha : a < 2 ^ 256)
    (hb : b < 2 ^ 256) (h : a * b < 2 ^ 256) :
    checkedMul panic (BitVec.ofNat 256 a) (BitVec.ofNat 256 b)
      = .ok (BitVec.ofNat 256 (a * b)) := by
  unfold checkedMul
  rw [toNat_ofNat_of_lt ha, toNat_ofNat_of_lt hb, if_pos h, BitVec.ofNat_mul]

/-- A difference that is not negative. -/
theorem checkedSub_ofNat {ε : Type} (panic : ε) {a b : ℕ} (ha : a < 2 ^ 256) (h : b ≤ a) :
    checkedSub panic (BitVec.ofNat 256 a) (BitVec.ofNat 256 b)
      = .ok (BitVec.ofNat 256 (a - b)) := by
  have hsub : (BitVec.ofNat 256 a - BitVec.ofNat 256 b).toNat = a - b := by
    rw [BitVec.toNat_sub_of_le, toNat_ofNat_of_lt ha, toNat_ofNat_of_lt (by omega)]
    rw [BitVec.le_def, toNat_ofNat_of_lt ha, toNat_ofNat_of_lt (by omega)]
    exact h
  unfold checkedSub
  rw [toNat_ofNat_of_lt ha, toNat_ofNat_of_lt (by omega), if_pos h]
  congr 1
  apply BitVec.eq_of_toNat_eq
  rw [hsub, toNat_ofNat_of_lt (by omega)]

/-! ## Arrays -/

/-- `a[i]`, read. -/
def load (a : List α) (i : Uint256) : Except Panic α :=
  if h : i.toNat < a.length then .ok a[i.toNat] else .error .index

/-- `a[i] = v`. -/
def store (a : List α) (i : Uint256) (v : α) : Except Panic (List α) :=
  if i.toNat < a.length then .ok (a.set i.toNat v) else .error .index

theorem load_ofNat {a : List α} {i : ℕ} {v : α} (hi : i < 2 ^ 256) (h : a[i]? = some v) :
    load a (BitVec.ofNat 256 i) = .ok v := by
  obtain ⟨hlt, hv⟩ := List.getElem?_eq_some_iff.mp h
  unfold load
  simp only [toNat_ofNat_of_lt hi, dif_pos hlt, hv]

theorem store_ofNat {a : List α} {i : ℕ} (hi : i < 2 ^ 256) (h : i < a.length) (v : α) :
    store a (BitVec.ofNat 256 i) v = .ok (a.set i v) := by
  unfold store
  rw [toNat_ofNat_of_lt hi, if_pos h]

/-! ## Loops -/

/-- **`while (guard) body`**, for `fuel` rounds at most. -/
def whileLoop (guard : σ → Bool) (body : σ → Except Panic σ) : ℕ → σ → Except Panic σ
  | 0, s => if guard s = true then .error .outOfFuel else .ok s
  | fuel + 1, s =>
    if guard s = true then do
      let s' ← body s
      whileLoop guard body fuel s'
    else .ok s

/-- **A loop whose rounds are bounded ends**, in a state of the invariant that
does not meet the guard. `I n` is the invariant of the states with at most
`n` rounds to run. -/
theorem whileLoop_total {guard : σ → Bool} {body : σ → Except Panic σ} {I : ℕ → σ → Prop}
    (hstep : ∀ n s, I n s → guard s = true → ∃ m s', m < n ∧ body s = .ok s' ∧ I m s')
    {n fuel : ℕ} (hfuel : n ≤ fuel) {s : σ} (h : I n s) :
    ∃ m s', whileLoop guard body fuel s = .ok s' ∧ I m s' ∧ guard s' = false := by
  induction fuel generalizing n s with
  | zero =>
    have hexit : guard s = false := by
      by_contra hguard
      obtain ⟨m, _, hm, -⟩ := hstep n s h (Bool.eq_true_of_not_eq_false hguard)
      omega
    refine ⟨n, s, ?_, h, hexit⟩
    simp [whileLoop, hexit]
  | succ fuel ih =>
    cases hguard : guard s with
    | false =>
      refine ⟨n, s, ?_, h, hguard⟩
      simp [whileLoop, hguard]
    | true =>
      obtain ⟨m, s₁, hm, hbody, hI⟩ := hstep n s h hguard
      obtain ⟨m', s', hrun, hI', hexit⟩ := ih (by omega) hI
      refine ⟨m', s', ?_, hI', hexit⟩
      rw [whileLoop, if_pos hguard, hbody]
      exact hrun

/-- A round of a loop over a counter. -/
def countRound (body : Uint256 → σ → Except Panic σ) (p : Uint256 × σ) :
    Except Panic (Uint256 × σ) := do
  let s ← body p.1 p.2
  let i ← checkedAdd Panic.arithmetic p.1 1
  .ok (i, s)

/-- **`for (uint256 i = 0; i < bound; i++) body`.** -/
def forLoop (bound : Uint256) (body : Uint256 → σ → Except Panic σ) (fuel : ℕ) (s : σ) :
    Except Panic σ := do
  let last ← whileLoop (fun p => decide (p.1 < bound)) (countRound body) fuel (0, s)
  .ok last.2

/-- A round with a counter that is below some bound does not overflow. -/
theorem countRound_ofNat {body : Uint256 → σ → Except Panic σ} {i : ℕ} {s s' : σ}
    (hi : i + 1 < 2 ^ 256) (hbody : body (BitVec.ofNat 256 i) s = .ok s') :
    countRound body (BitVec.ofNat 256 i, s) = .ok (BitVec.ofNat 256 (i + 1), s') := by
  unfold countRound
  rw [hbody]
  show (checkedAdd Panic.arithmetic (BitVec.ofNat 256 i) (BitVec.ofNat 256 1) >>= _) = _
  rw [checkedAdd_ofNat _ hi]
  rfl

/-- The guard of a loop over a counter. -/
theorem decide_ofNat_lt {bound : Uint256} {i : ℕ} (hi : i < 2 ^ 256) :
    decide (BitVec.ofNat 256 i < bound) = decide (i < bound.toNat) := by
  simp only [BitVec.lt_def, toNat_ofNat_of_lt hi]

/-- **A loop over a counter ends**: it runs once for each number below the
bound, and the counter cannot overflow. -/
theorem forLoop_total {bound : Uint256} {body : Uint256 → σ → Except Panic σ}
    {I : ℕ → σ → Prop}
    (hstep : ∀ i < bound.toNat, ∀ s, I i s →
      ∃ s', body (BitVec.ofNat 256 i) s = .ok s' ∧ I (i + 1) s')
    {fuel : ℕ} (hfuel : bound.toNat ≤ fuel) {s : σ} (h : I 0 s) :
    ∃ s', forLoop bound body fuel s = .ok s' ∧ I bound.toNat s' := by
  have hbound : bound.toNat < 2 ^ 256 := bound.isLt
  -- the counter tells how many rounds are left
  have hrounds : ∀ n (p : Uint256 × σ),
      (∃ i, i + n = bound.toNat ∧ p.1 = BitVec.ofNat 256 i ∧ I i p.2) →
      decide (p.1 < bound) = true →
      ∃ m p', m < n ∧ countRound body p = .ok p'
        ∧ ∃ i, i + m = bound.toNat ∧ p'.1 = BitVec.ofNat 256 i ∧ I i p'.2 := by
    rintro n ⟨_, t⟩ ⟨i, hcount, rfl, hI⟩ hguard
    rw [decide_ofNat_lt (by omega)] at hguard
    have hlt : i < bound.toNat := of_decide_eq_true hguard
    obtain ⟨t', hbody, hI'⟩ := hstep i hlt t hI
    exact ⟨n - 1, _, by omega, countRound_ofNat (by omega) hbody, i + 1, by omega, rfl, hI'⟩
  obtain ⟨m, ⟨_, s'⟩, hrun, ⟨i, hcount, rfl, hI⟩, hexit⟩ :=
    whileLoop_total hrounds hfuel (s := (0, s)) ⟨0, Nat.zero_add _, rfl, h⟩
  rw [decide_ofNat_lt (by omega)] at hexit
  have hi : i = bound.toNat := by
    have hge := of_decide_eq_false hexit
    omega
  subst hi
  refine ⟨s', ?_, hI⟩
  unfold forLoop
  rw [hrun]
  rfl

/-- **A loop that follows a fold** over the numbers below its bound returns
what the fold does. -/
theorem forLoop_of_foldlM {f : σ → ℕ → Option σ} {bound : Uint256}
    {body : Uint256 → σ → Except Panic σ}
    (hbody : ∀ i < bound.toNat, ∀ s s', f s i = some s' → body (BitVec.ofNat 256 i) s = .ok s')
    {fuel : ℕ} (hfuel : bound.toNat ≤ fuel) {s t : σ}
    (h : (List.range bound.toNat).foldlM f s = some t) :
    forLoop bound body fuel s = .ok t := by
  -- what is left of the fold leads to its result
  have hrounds : ∀ i < bound.toNat, ∀ u,
      (List.range' i (bound.toNat - i)).foldlM f u = some t →
      ∃ u', body (BitVec.ofNat 256 i) u = .ok u'
        ∧ (List.range' (i + 1) (bound.toNat - (i + 1))).foldlM f u' = some t := by
    intro i hi u hI
    have hcount : bound.toNat - i = bound.toNat - (i + 1) + 1 := by omega
    rw [hcount, List.range'_succ, List.foldlM_cons] at hI
    obtain ⟨u', hu, hrest⟩ := Option.bind_eq_some_iff.mp hI
    exact ⟨u', hbody i hi u u' hu, hrest⟩
  obtain ⟨s', hrun, hI⟩ := forLoop_total hrounds hfuel (s := s)
    (by rwa [Nat.sub_zero, ← List.range_eq_range'])
  rw [Nat.sub_self] at hI
  rw [hrun]
  exact congrArg Except.ok (Option.some.inj hI)
