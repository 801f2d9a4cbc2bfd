import Mathlib.Algebra.BigOperators.Group.List.Basic
import Mathlib.Algebra.GroupWithZero.Nat
import SoulPrivacy.Run

/-!
# Shielded pools

A shielded pool takes value in for leaves of a tree, and gives value out, or new leaves,
for nullifiers. Of the notes behind both it knows nothing. What it shows is little: a root,
which roots it knows, which nullifiers are spent, a balance. What it promises is about
everything that ever happened to it: that no nullifier was used twice, that every spend
named a root the tree had had not long before, that what went out had come in.

The ledger below is a pool with its promises in the rules (`Step`), and nothing else. A
program *keeps* a ledger when what it did is an execution of the ledger and what it shows
is read off it (`Keeps`); the promises then hold of what the program shows
(`Keeps.accounted`). To see that a machine keeps a ledger, its calls are looked at one at a
time (`Simulation`).
-/

namespace ShieldedPool

variable {L R N : Type}

/-! ## The ledger -/

/-- **What distinguishes one pool from another**: the tree over the leaves and how many fit
in it, and which roots may be named, of how many of the last. -/
structure Rules (L R : Type) where
  /-- The root of the tree over some leaves. -/
  rootOf : List L → R
  /-- Roots that may be named at all. -/
  Admissible : R → Prop
  /-- The number of roots that are remembered. -/
  window : ℕ
  /-- The number of leaves the tree has room for. -/
  capacity : ℕ

/-- The roots the tree has had, the empty one first. -/
def Rules.history (P : Rules L R) (leaves : List L) : List R :=
  (List.range (leaves.length + 1)).map (fun n => P.rootOf (leaves.take n))

/-- **A root is known** when it may be named and is one of the last. -/
def Rules.Knows (P : Rules L R) (leaves : List L) (root : R) : Prop :=
  P.Admissible root ∧ root ∈ (P.history leaves).drop (leaves.length + 1 - P.window)

/-- The leaves, the nullifiers that are spent, and the value inside. -/
structure Ledger (L N : Type) where
  leaves : List L
  spent : List N
  balance : ℕ

/-- Nothing has happened yet. -/
def Ledger.empty : Ledger L N := ⟨[], [], 0⟩

/-- **What happens to a pool.** A transfer is a spend that lets nothing out. -/
inductive Op (L R N : Type) where
  | deposit (leaf : L) (value : ℕ)
  | spend (root : R) (nullifiers : List N) (outputs : List L) (exit : ℕ)

/-- The leaves an operation appends. -/
def Op.leaves : Op L R N → List L
  | .deposit leaf _ => [leaf]
  | .spend _ _ outputs _ => outputs

/-- The nullifiers it spends. -/
def Op.nullifiers : Op L R N → List N
  | .deposit _ _ => []
  | .spend _ nullifiers _ _ => nullifiers

/-- The value it takes in. -/
def Op.value : Op L R N → ℕ
  | .deposit _ value => value
  | .spend _ _ _ _ => 0

/-- The value it lets out. -/
def Op.exit : Op L R N → ℕ
  | .deposit _ _ => 0
  | .spend _ _ _ exit => exit

/-- The ledger after an operation. -/
def Ledger.after (l : Ledger L N) (op : Op L R N) : Ledger L N where
  leaves := l.leaves ++ op.leaves
  spent := l.spent ++ op.nullifiers
  balance := l.balance + op.value - op.exit

/-- **What an operation needs.** -/
inductive Allowed (P : Rules L R) (l : Ledger L N) : Op L R N → Prop
  | deposit {leaf : L} {value : ℕ} (value_pos : 0 < value)
      (room : l.leaves.length < P.capacity) : Allowed P l (.deposit leaf value)
  | spend {root : R} {nullifiers : List N} {outputs : List L} {exit : ℕ}
      (known : P.Knows l.leaves root) (distinct : nullifiers.Nodup)
      (unspent : ∀ n ∈ nullifiers, n ∉ l.spent)
      (room : l.leaves.length + outputs.length ≤ P.capacity) (covered : exit ≤ l.balance) :
      Allowed P l (.spend root nullifiers outputs exit)

/-- **The executions of a ledger.** -/
inductive Execution (P : Rules L R) : List (Op L R N) → Ledger L N → Prop
  | nil : Execution P [] Ledger.empty
  | snoc {ops : List (Op L R N)} {l : Ledger L N} {op : Op L R N} :
      Execution P ops l → Allowed P l op → Execution P (ops ++ [op]) (l.after op)

/-! ## What holds of every execution -/

variable {P : Rules L R} {ops : List (Op L R N)} {l : Ledger L N}

theorem Execution.leaves_eq (h : Execution P ops l) : l.leaves = ops.flatMap Op.leaves := by
  induction h with
  | nil => rfl
  | @snoc ops l op _ _ ih =>
    rw [List.flatMap_append, List.flatMap_singleton, ← ih]
    rfl

theorem Execution.spent_eq (h : Execution P ops l) : l.spent = ops.flatMap Op.nullifiers := by
  induction h with
  | nil => rfl
  | @snoc ops l op _ _ ih =>
    rw [List.flatMap_append, List.flatMap_singleton, ← ih]
    rfl

/-- **No nullifier is spent twice**, in one operation or in two. -/
theorem Execution.nodup (h : Execution P ops l) : l.spent.Nodup := by
  induction h with
  | nil => exact List.nodup_nil
  | @snoc ops l op _ hop ih =>
    cases hop with
    | deposit _ _ =>
      show (l.spent ++ []).Nodup
      rwa [List.append_nil]
    | spend _ distinct unspent _ _ =>
      exact List.Nodup.append ih distinct (fun n hold hnew => unspent n hnew hold)

/-- An operation lets out no more than there is. -/
theorem Allowed.exit_le {op : Op L R N} (h : Allowed P l op) : op.exit ≤ l.balance := by
  cases h with
  | deposit _ _ => exact Nat.zero_le _
  | spend _ _ _ _ covered => exact covered

/-- **What went out and what is left had come in.** -/
theorem Execution.balance_add (h : Execution P ops l) :
    l.balance + (ops.map Op.exit).sum = (ops.map Op.value).sum := by
  induction h with
  | nil => rfl
  | @snoc ops l op _ hop ih =>
    have hle := hop.exit_le
    rw [List.map_append, List.sum_append, List.map_append, List.sum_append, ← ih]
    show l.balance + op.value - op.exit + ((ops.map Op.exit).sum + (op.exit + 0))
      = l.balance + (ops.map Op.exit).sum + (op.value + 0)
    omega

/-- The tree is never overfull. -/
theorem Execution.length_le (h : Execution P ops l) : l.leaves.length ≤ P.capacity := by
  induction h with
  | nil => exact Nat.zero_le _
  | @snoc ops l op _ hop ih =>
    show (l.leaves ++ op.leaves).length ≤ P.capacity
    rw [List.length_append]
    cases hop with
    | deposit _ room => exact room
    | spend _ _ _ room _ => exact room

/-- **An operation found the ledger of those before it.** -/
theorem Execution.exists_before {pre post : List (Op L R N)} {op : Op L R N}
    (h : Execution P (pre ++ op :: post) l) :
    ∃ l₀, Execution P pre l₀ ∧ Allowed P l₀ op := by
  generalize hops : pre ++ op :: post = ops at h
  induction h generalizing post with
  | nil => exact absurd hops (List.append_ne_nil_of_right_ne_nil pre (List.cons_ne_nil op post))
  | @snoc ops l op' hrun hop ih =>
    rcases List.eq_nil_or_concat post with rfl | ⟨post, last, rfl⟩
    · obtain ⟨rfl, hlast⟩ := List.append_inj' hops rfl
      cases hlast
      exact ⟨l, hrun, hop⟩
    · rw [List.concat_eq_append, ← List.cons_append, ← List.append_assoc] at hops
      exact ih (List.append_inj' hops rfl).1

/-! ## What a pool shows -/

/-- **What a pool shows to the world.** -/
structure View (R N : Type) where
  latestRoot : R
  isKnownRoot : R → Bool
  isSpent : N → Bool
  balance : ℕ
  nextLeafIndex : ℕ

/-- **A ledger shows this.** -/
structure Shows (P : Rules L R) (l : Ledger L N) (v : View R N) : Prop where
  latestRoot : v.latestRoot = P.rootOf l.leaves
  isKnownRoot : ∀ root, v.isKnownRoot root = true ↔ P.Knows l.leaves root
  isSpent : ∀ n, v.isSpent n = true ↔ n ∈ l.spent
  balance : v.balance = l.balance
  nextLeafIndex : v.nextLeafIndex = l.leaves.length

/-- **A program that did this and shows that keeps a ledger.** -/
def Keeps (P : Rules L R) (ops : List (Op L R N)) (v : View R N) : Prop :=
  ∃ l, Execution P ops l ∧ Shows P l v

/-- **The promises of a shielded pool**, of what it did and what it shows. -/
structure Accounted (P : Rules L R) (ops : List (Op L R N)) (v : View R N) : Prop where
  /-- No nullifier was spent twice, … -/
  once : (ops.flatMap Op.nullifiers).Nodup
  /-- … and those that were are shown as spent. -/
  isSpent : ∀ n, v.isSpent n = true ↔ n ∈ ops.flatMap Op.nullifiers
  /-- What went out and what is left had come in. -/
  balance : v.balance + (ops.map Op.exit).sum = (ops.map Op.value).sum
  /-- The tree is that of the leaves of all operations, in their order. -/
  latestRoot : v.latestRoot = P.rootOf (ops.flatMap Op.leaves)
  nextLeafIndex : v.nextLeafIndex = (ops.flatMap Op.leaves).length
  isKnownRoot : ∀ root, v.isKnownRoot root = true ↔ P.Knows (ops.flatMap Op.leaves) root
  /-- Each spend named a root known at that moment, and was covered by what had come in. -/
  spends : ∀ pre root nullifiers outputs exit post,
    ops = pre ++ .spend root nullifiers outputs exit :: post →
      P.Knows (pre.flatMap Op.leaves) root
        ∧ exit + (pre.map Op.exit).sum ≤ (pre.map Op.value).sum

/-- **A program that keeps a ledger keeps its promises.** -/
theorem Keeps.accounted {v : View R N} (h : Keeps P ops v) : Accounted P ops v := by
  obtain ⟨l, hrun, hshows⟩ := h
  refine ⟨hrun.spent_eq ▸ hrun.nodup, fun n => hrun.spent_eq ▸ hshows.isSpent n, ?_, ?_, ?_,
    fun root => hrun.leaves_eq ▸ hshows.isKnownRoot root, ?_⟩
  · rw [hshows.balance]
    exact hrun.balance_add
  · rw [hshows.latestRoot, hrun.leaves_eq]
  · rw [hshows.nextLeafIndex, hrun.leaves_eq]
  · rintro pre root nullifiers outputs exit post rfl
    obtain ⟨l₀, hbefore, hop⟩ := hrun.exists_before
    cases hop with
    | spend known _ _ _ covered =>
      refine ⟨hbefore.leaves_eq ▸ known, ?_⟩
      rw [← hbefore.balance_add]
      exact Nat.add_le_add_right covered _

/-! ## Machines that keep a ledger -/

section Simulation

variable {σ Call ε : Type}

/-- The ledger after what may have happened. -/
def Ledger.afterAll (l : Ledger L N) (ops : List (Op L R N)) : Ledger L N :=
  ops.foldl Ledger.after l

/-- **What a call does is allowed**, one operation after another. -/
def AllowedAll (P : Rules L R) (l : Ledger L N) : List (Op L R N) → Prop
  | [] => True
  | op :: ops => Allowed P l op ∧ AllowedAll P (l.after op) ops

/-- **A machine simulates a ledger**: related states stay related, with each call taken for
the operations it stands for. -/
structure Simulation (step : Call → σ → Except ε σ) (allowed : σ → Call → Prop) (s₀ : σ)
    (P : Rules L R) (opsOf : σ → Call → List (Op L R N)) (Rel : Ledger L N → σ → Prop) :
    Prop where
  init : Rel Ledger.empty s₀
  next : ∀ {l s c s'}, Rel l s → allowed s c → step c s = .ok s' →
    AllowedAll P l (opsOf s c) ∧ Rel (l.afterAll (opsOf s c)) s'

theorem Execution.append {more : List (Op L R N)} (h : Execution P ops l)
    (hmore : AllowedAll P l more) : Execution P (ops ++ more) (l.afterAll more) := by
  induction more generalizing ops l with
  | nil => exact (List.append_nil ops).symm ▸ h
  | cons op more ih =>
    have hnext := ih (h.snoc hmore.1) hmore.2
    rwa [List.append_assoc, List.singleton_append] at hnext

/-- **A machine that simulates a ledger executes it.** -/
theorem Simulation.exists_execution {step : Call → σ → Except ε σ} {allowed : σ → Call → Prop}
    {s₀ : σ} {opsOf : σ → Call → List (Op L R N)} {Rel : Ledger L N → σ → Prop}
    (h : Simulation step allowed s₀ P opsOf Rel) {tr : List (σ × Call)} {s : σ}
    (hrun : Run step allowed s₀ tr s) :
    ∃ l, Execution P (tr.flatMap (fun p => opsOf p.1 p.2)) l ∧ Rel l s := by
  refine hrun.invariant (I := fun tr s =>
    ∃ l, Execution P (tr.flatMap (fun p => opsOf p.1 p.2)) l ∧ Rel l s) ⟨_, .nil, h.init⟩ ?_
  rintro tr s c s' ⟨l, hexec, hrel⟩ hc hstep
  obtain ⟨hallowed, hrel'⟩ := h.next hrel hc hstep
  refine ⟨_, ?_, hrel'⟩
  rw [List.flatMap_append, List.flatMap_singleton]
  exact hexec.append hallowed

end Simulation

end ShieldedPool
