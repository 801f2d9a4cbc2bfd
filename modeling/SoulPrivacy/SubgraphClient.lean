import Mathlib.Data.List.DropRight
import SoulPrivacy.EntityTable
import SoulPrivacy.HexWords
import SoulPrivacy.Subgraph

/-!
# The queries of the toolkit (`sdk/src/subgraph.ts`)

The toolkit asks an endpoint for entities of the store. An argument is put into
the text of a query as it is, so it is cleaned first: what is left is `0x` and
lower-case digits, or there is no query.

A function that needs several queries sends one after the other, and the indexer
goes on between them: a query may find a later store than the one before it.
Here the requests are numbered, and each of them has a store of its own
(`Serves`). What is found in one of these stores is there in the later ones
(`Grows`), and that is enough for the answers to make sense: an entity that is
found was there at the last request, and one that is not found was not there at
the first.
-/

namespace SubgraphClient

open Subgraph (Id Deposit Transfer Withdrawal Store)
open EntityTable (Finds)
open RustString (lowerDigits IsLowerHex)

/-! ## Texts -/

/-- What `trim` removes at both ends. -/
def isWhitespace (c : Char) : Bool :=
  [0x9, 0xA, 0xB, 0xC, 0xD, 0x20, 0xA0, 0x1680, 0x2028, 0x2029, 0x202F, 0x205F, 0x3000,
    0xFEFF].contains c.toNat || (0x2000 ≤ c.toNat && c.toNat ≤ 0x200A)

/-- `trim`. -/
def trim (cs : List Char) : List Char := (cs.dropWhile isWhitespace).rdropWhile isWhitespace

/-- `toLowerCase`. No letter outside of ASCII has a digit or an `x` as its lower
case, so for the test that follows it does not matter what becomes of them. -/
def toLowerCase (cs : List Char) : List Char := cs.map Char.toLower

/-- The test `/^0x[0-9a-f]+$/`. -/
def isHexText : List Char → Bool
  | '0' :: 'x' :: digits => !digits.isEmpty && digits.all (lowerDigits.contains ·)
  | _ => false

/-- `sanitizeHex`. -/
def sanitizeHex (value : String) : Except String String :=
  let cleaned := trim (toLowerCase value.toList)
  if isHexText cleaned then .ok (String.ofList cleaned)
  else .error ("Invalid hex value: " ++ value)

/-- The text of a word. -/
def hexText (w : Bytes32) : String := String.ofList ('0' :: 'x' :: w.toHex.toList)

theorem hexText_injective : Function.Injective hexText := by
  intro w w' h
  have hlist := String.ofList_injective h
  rw [List.cons.injEq, List.cons.injEq] at hlist
  exact Bytes32.toHex_injective (String.toList_inj.mp hlist.2.2)

/-- A text that passes the test. -/
theorem isHexText_iff {cs : List Char} :
    isHexText cs = true ↔ ∃ digits, cs = '0' :: 'x' :: digits ∧ digits ≠ [] ∧ IsLowerHex digits := by
  constructor
  · intro h
    unfold isHexText at h
    split at h
    case h_1 digits =>
      obtain ⟨hne, hdigits⟩ := Bool.and_eq_true_iff.mp h
      refine ⟨digits, rfl, fun hnil => ?_, fun c hc => ?_⟩
      · rw [hnil] at hne
        exact Bool.noConfusion hne
      · exact List.contains_iff_mem.mp (List.all_eq_true.mp hdigits c hc)
    case h_2 => exact Bool.noConfusion h
  · rintro ⟨digits, rfl, hne, hdigits⟩
    refine Bool.and_eq_true_iff.mpr ⟨?_, List.all_eq_true.mpr (fun c hc => ?_)⟩
    · rw [List.isEmpty_eq_false_iff.mpr hne]
      rfl
    · exact List.contains_iff_mem.mpr (hdigits c hc)

/-- The digits are not changed by any of this. -/
theorem clean_of_mem : ∀ c ∈ '0' :: 'x' :: lowerDigits,
    isWhitespace c = false ∧ c.toLower = c :=
  List.forall_iff_forall_mem.mp (by decide +kernel)

/-- Nothing is trimmed where nothing is white. -/
theorem trim_eq_self {cs : List Char} (h : ∀ c ∈ cs, isWhitespace c = false) : trim cs = cs := by
  have hleft : cs.dropWhile isWhitespace = cs := by
    cases cs with
    | nil => rfl
    | cons c cs => rw [List.dropWhile_cons_of_neg (by rw [h c List.mem_cons_self]; exact nofun)]
  unfold trim
  rw [hleft, List.rdropWhile_eq_self_iff]
  intro hne hlast
  exact Bool.false_ne_true ((h _ (List.getLast_mem hne)).symm.trans hlast)

/-- **A text that passes the test is left as it is.** -/
theorem sanitizeHex_eq_self {cs : List Char} (h : isHexText cs = true) :
    sanitizeHex (String.ofList cs) = .ok (String.ofList cs) := by
  obtain ⟨digits, hcs, -, hdigits⟩ := isHexText_iff.mp h
  have hclean : ∀ c ∈ cs, isWhitespace c = false ∧ c.toLower = c := by
    intro c hc
    refine clean_of_mem c ?_
    rw [hcs, List.mem_cons, List.mem_cons] at hc
    rw [List.mem_cons, List.mem_cons]
    exact hc.imp_right (Or.imp_right (hdigits c))
  have hlower : toLowerCase cs = cs :=
    (List.map_congr_left (fun c hc => (hclean c hc).2)).trans (List.map_id _)
  unfold sanitizeHex
  rw [String.toList_ofList, hlower, trim_eq_self (fun c hc => (hclean c hc).1), if_pos h]

/-- **Cleaning a text again changes nothing.** -/
theorem sanitizeHex_of_eq_ok {value safe : String} (h : sanitizeHex value = .ok safe) :
    sanitizeHex safe = .ok safe := by
  unfold sanitizeHex at h
  dsimp only at h
  by_cases hhex : isHexText (trim (toLowerCase value.toList)) = true
  · rw [if_pos hhex] at h
    cases h
    exact sanitizeHex_eq_self hhex
  · rw [if_neg hhex] at h
    cases h

/-- The text of a word is clean. -/
theorem sanitizeHex_hexText (w : Bytes32) : sanitizeHex (hexText w) = .ok (hexText w) := by
  have hdigits := Bytes32.isLowerHex64_toHex w
  refine sanitizeHex_eq_self (isHexText_iff.mpr ⟨_, rfl, fun hnil => ?_, hdigits.isLowerHex⟩)
  have hlength := hdigits.length_eq
  rw [hnil] at hlength
  exact absurd hlength (by decide)

/-! ## Requests -/

/-- What comes back: the status of the reply, the errors in it and the data. -/
structure Response (α : Type) where
  ok : Bool
  status : ℕ
  errors : List String
  data : α

/-- **The reply is an answer.** -/
def Response.IsAnswer {α : Type} (res : Response α) : Prop := res.ok = true ∧ res.errors = []

/-- The number of requests so far goes along. -/
abbrev Requests := StateT ℕ (Except String)

/-- `query`. -/
def query {α : Type} (reply : ℕ → Response α) : Requests α := fun i =>
  let res := reply i
  if res.ok = false then .error ("Subgraph request failed: " ++ toString res.status)
  else
    match res.errors with
    | message :: _ => .error ("Subgraph error: " ++ message)
    | [] => .ok (res.data, i + 1)

/-- The two fields of a transfer and of a withdrawal that have a nullifier. -/
inductive NullifierField where
  | nullifier0
  | nullifier1
  deriving DecidableEq

/-- What is in the field. -/
def NullifierField.of : NullifierField → PrivacyPool.Pair → Bytes32
  | .nullifier0, nullifiers => nullifiers.1
  | .nullifier1, nullifiers => nullifiers.2

/-- **The endpoint**, and what it replies to a request of a number: to a filter
by a field, and a limit. -/
structure Endpoint where
  deposits (commitment : String) (first : ℕ) : ℕ → Response (List (Id × Deposit))
  transfers (field : NullifierField) (nullifier : String) (first : ℕ) :
    ℕ → Response (List (Id × Transfer))
  withdrawals (field : NullifierField) (nullifier : String) (first : ℕ) :
    ℕ → Response (List (Id × Withdrawal))

variable (e : Endpoint)

/-- `getDepositByCommitment`. -/
def getDepositByCommitment (commitment : String) : Requests (Option (Id × Deposit)) := do
  let safe ← liftM (sanitizeHex commitment)
  let data ← query (e.deposits safe 1)
  return data.head?

/-- `getTransferByNullifier`. -/
def getTransferByNullifier (nullifier : String) : Requests (Option (Id × Transfer)) := do
  let safe ← liftM (sanitizeHex nullifier)
  let data ← query (e.transfers .nullifier0 safe 1)
  if data ≠ [] then return data.head?
  let data2 ← query (e.transfers .nullifier1 safe 1)
  return data2.head?

/-- `isNullifierSpent`. -/
def isNullifierSpent (nullifier : String) : Requests Bool := do
  let safe ← liftM (sanitizeHex nullifier)
  let transfer ← getTransferByNullifier e safe
  if transfer.isSome then return true
  let data ← query (e.withdrawals .nullifier0 safe 1)
  if data ≠ [] then return true
  let data2 ← query (e.withdrawals .nullifier1 safe 1)
  return decide (data2.length > 0)

/-! ## What an answer takes -/

theorem bind_eq_ok {α β : Type} {x : Requests α} {f : α → Requests β} {i k : ℕ} {b : β} :
    (x >>= f) i = .ok (b, k) ↔ ∃ a j, x i = .ok (a, j) ∧ f a j = .ok (b, k) := by
  show (x i >>= fun r => f r.1 r.2) = .ok (b, k) ↔ _
  cases hx : x i with
  | error message => exact iff_of_false nofun (fun ⟨_, _, h, _⟩ => nomatch h)
  | ok r =>
    constructor
    · exact fun h => ⟨r.1, r.2, rfl, h⟩
    · rintro ⟨a, j, hr, h⟩
      cases hr
      exact h

/-- One step of a run that gets through. -/
theorem bind_of_eq_ok {α β : Type} {x : Requests α} {f : α → Requests β} {i j : ℕ} {a : α}
    (h : x i = .ok (a, j)) : (x >>= f) i = f a j := by
  show (x i >>= fun r => f r.1 r.2) = f a j
  rw [h]
  rfl

theorem liftM_eq_ok {α : Type} {m : Except String α} {i j : ℕ} {a : α} :
    (liftM m : Requests α) i = .ok (a, j) ↔ m = .ok a ∧ i = j := by
  cases m with
  | error message => exact iff_of_false nofun (fun h => nomatch h.1)
  | ok b =>
    show Except.ok (b, i) = Except.ok (a, j) ↔ _
    rw [Except.ok.injEq, Except.ok.injEq, Prod.mk.injEq]

theorem query_eq_ok {α : Type} {reply : ℕ → Response α} {i j : ℕ} {a : α} :
    query reply i = .ok (a, j) ↔ (reply i).IsAnswer ∧ a = (reply i).data ∧ j = i + 1 := by
  unfold query Response.IsAnswer
  dsimp only
  cases hok : (reply i).ok with
  | false => exact iff_of_false nofun (fun h => nomatch h.1.1)
  | true =>
    rw [if_neg nofun]
    cases herrors : (reply i).errors with
    | cons message errors => exact iff_of_false nofun (fun h => nomatch h.1.2)
    | nil =>
      show Except.ok ((reply i).data, i + 1) = Except.ok (a, j) ↔ _
      rw [Except.ok.injEq, Prod.mk.injEq, eq_comm (b := a), eq_comm (b := j)]
      exact ⟨fun h => ⟨⟨rfl, rfl⟩, h⟩, fun h => h.2⟩

/-- Where there is an answer the next request follows. -/
theorem query_of_isAnswer {α : Type} {reply : ℕ → Response α} {i : ℕ}
    (h : (reply i).IsAnswer) : query reply i = .ok ((reply i).data, i + 1) :=
  query_eq_ok.mpr ⟨h, rfl, rfl⟩

/-- **The endpoint answers all requests.** -/
structure Answers (e : Endpoint) : Prop where
  deposits : ∀ commitment first i, (e.deposits commitment first i).IsAnswer
  transfers : ∀ field nullifier first i, (e.transfers field nullifier first i).IsAnswer
  withdrawals : ∀ field nullifier first i, (e.withdrawals field nullifier first i).IsAnswer

section Answers

variable {e} (h : Answers e) {text safe : String} (hclean : sanitizeHex text = .ok safe) (i : ℕ)
include h hclean

/-- **Then each function returns**, for a text that is clean. -/
theorem Answers.exists_getDepositByCommitment :
    ∃ o j, getDepositByCommitment e text i = .ok (o, j) := by
  unfold getDepositByCommitment
  rw [bind_of_eq_ok (liftM_eq_ok.mpr ⟨hclean, rfl⟩),
    bind_of_eq_ok (query_of_isAnswer (h.deposits safe 1 i))]
  exact ⟨_, _, rfl⟩

theorem Answers.exists_getTransferByNullifier :
    ∃ o j, getTransferByNullifier e text i = .ok (o, j) := by
  unfold getTransferByNullifier
  rw [bind_of_eq_ok (liftM_eq_ok.mpr ⟨hclean, rfl⟩),
    bind_of_eq_ok (query_of_isAnswer (h.transfers .nullifier0 safe 1 i))]
  split
  · exact ⟨_, _, rfl⟩
  · rw [bind_of_eq_ok (query_of_isAnswer (h.transfers .nullifier1 safe 1 (i + 1)))]
    exact ⟨_, _, rfl⟩

theorem Answers.exists_isNullifierSpent : ∃ b j, isNullifierSpent e text i = .ok (b, j) := by
  obtain ⟨o, j, htransfer⟩ := h.exists_getTransferByNullifier (sanitizeHex_of_eq_ok hclean) i
  unfold isNullifierSpent
  rw [bind_of_eq_ok (liftM_eq_ok.mpr ⟨hclean, rfl⟩), bind_of_eq_ok htransfer]
  split
  · exact ⟨_, _, rfl⟩
  · rw [bind_of_eq_ok (query_of_isAnswer (h.withdrawals .nullifier0 safe 1 j))]
    split
    · exact ⟨_, _, rfl⟩
    · rw [bind_of_eq_ok (query_of_isAnswer (h.withdrawals .nullifier1 safe 1 (j + 1)))]
      exact ⟨_, _, rfl⟩

end Answers

/-! ## Stores behind the endpoint -/

/-- **Each request is served from a store**, as far as it is answered. A filter
is by the text of the field. -/
structure Serves (e : Endpoint) (stores : ℕ → Store) : Prop where
  deposits : ∀ commitment first i, (e.deposits commitment first i).IsAnswer →
    Finds (stores i).deposits (fun d => hexText d.commitment = commitment) first
      (e.deposits commitment first i).data
  transfers : ∀ field nullifier first i, (e.transfers field nullifier first i).IsAnswer →
    Finds (stores i).transfers (fun t => hexText (field.of t.nullifiers) = nullifier) first
      (e.transfers field nullifier first i).data
  withdrawals : ∀ field nullifier first i, (e.withdrawals field nullifier first i).IsAnswer →
    Finds (stores i).withdrawals (fun w => hexText (field.of w.nullifiers) = nullifier) first
      (e.withdrawals field nullifier first i).data

/-- A store has what another one has. -/
structure Extends (s s' : Store) : Prop where
  transfers : ∀ id t, s.transfers id = some t → s'.transfers id = some t
  withdrawals : ∀ id w, s.withdrawals id = some w → s'.withdrawals id = some w

/-- **Later stores have what earlier ones have.** -/
def Grows (stores : ℕ → Store) : Prop := ∀ i k, i ≤ k → Extends (stores i) (stores k)

/-- A store has a transfer with a nullifier of this text. -/
def HasTransfer (s : Store) (text : String) : Prop :=
  ∃ field id t, s.transfers id = some t ∧ hexText (NullifierField.of field t.nullifiers) = text

/-- … or a withdrawal. -/
def HasWithdrawal (s : Store) (text : String) : Prop :=
  ∃ field id w, s.withdrawals id = some w ∧ hexText (NullifierField.of field w.nullifiers) = text

variable {e} {stores : ℕ → Store} {text : String} {i j : ℕ}

/-- **A deposit that is found** is in the store, and where none is found there is
none. -/
theorem getDepositByCommitment_eq_ok (hserves : Serves e stores) {o : Option (Id × Deposit)}
    (h : getDepositByCommitment e text i = .ok (o, j)) :
    ∃ safe, sanitizeHex text = .ok safe ∧ j = i + 1
      ∧ (∀ row ∈ o, (stores i).deposits row.1 = some row.2 ∧ hexText row.2.commitment = safe)
      ∧ (o = none → ∀ id d, (stores i).deposits id = some d → hexText d.commitment ≠ safe) := by
  obtain ⟨safe, i₁, hsafe, h⟩ := bind_eq_ok.mp h
  obtain ⟨hclean, rfl⟩ := liftM_eq_ok.mp hsafe
  obtain ⟨data, i₂, hquery, h⟩ := bind_eq_ok.mp h
  obtain ⟨hanswer, rfl, rfl⟩ := query_eq_ok.mp hquery
  have hfinds := hserves.deposits _ _ _ hanswer
  cases h
  refine ⟨safe, hclean, rfl, fun row hrow => hfinds.sound row (List.mem_of_head? hrow), ?_⟩
  intro hnone id d hd hmatch
  exact hfinds.ne_nil_iff.mpr ⟨id, d, hd, hmatch⟩ (List.head?_eq_none_iff.mp hnone)

/-- **A transfer that is found** is in the store of one of the requests, and
where none is found there was none at the first. -/
theorem getTransferByNullifier_eq_ok (hserves : Serves e stores) (hgrows : Grows stores)
    {o : Option (Id × Transfer)} (h : getTransferByNullifier e text i = .ok (o, j)) :
    ∃ safe, sanitizeHex text = .ok safe ∧ i < j
      ∧ (∀ row ∈ o, ∃ k field, i ≤ k ∧ k < j ∧ (stores k).transfers row.1 = some row.2
          ∧ hexText (NullifierField.of field row.2.nullifiers) = safe)
      ∧ (o = none → ¬ HasTransfer (stores i) safe) := by
  obtain ⟨safe, i₁, hsafe, h⟩ := bind_eq_ok.mp h
  obtain ⟨hclean, rfl⟩ := liftM_eq_ok.mp hsafe
  obtain ⟨data, i₂, hquery, h⟩ := bind_eq_ok.mp h
  obtain ⟨hanswer, rfl, rfl⟩ := query_eq_ok.mp hquery
  have hfirst := hserves.transfers _ _ _ _ hanswer
  refine ⟨safe, hclean, ?_⟩
  split at h
  case isTrue hne =>
    cases h
    refine ⟨Nat.lt_succ_self i, fun row hrow => ?_, fun hnone => ?_⟩
    · exact ⟨i, .nullifier0, le_rfl, Nat.lt_succ_self i,
        hfirst.sound row (List.mem_of_head? hrow)⟩
    · exact absurd (List.head?_eq_none_iff.mp hnone) hne
  case isFalse hnil =>
    obtain ⟨data2, i₃, hquery2, h⟩ := bind_eq_ok.mp h
    obtain ⟨hanswer2, rfl, rfl⟩ := query_eq_ok.mp hquery2
    have hsecond := hserves.transfers _ _ _ _ hanswer2
    cases h
    refine ⟨Nat.lt_add_of_pos_right Nat.two_pos, fun row hrow => ?_, fun hnone => ?_⟩
    · exact ⟨i + 1, .nullifier1, Nat.le_succ i, Nat.lt_succ_self _,
        hsecond.sound row (List.mem_of_head? hrow)⟩
    · rintro ⟨field, id, t, ht, hmatch⟩
      cases field with
      | nullifier0 => exact hnil (hfirst.ne_nil_iff.mpr ⟨id, t, ht, hmatch⟩)
      | nullifier1 =>
        have hlater := (hgrows i (i + 1) (Nat.le_succ i)).transfers id t ht
        exact hsecond.ne_nil_iff.mpr ⟨id, t, hlater, hmatch⟩ (List.head?_eq_none_iff.mp hnone)

/-- **A nullifier that is said to be spent** is one of a transfer or a
withdrawal in the store of one of the requests, … -/
theorem isNullifierSpent_eq_ok_true (hserves : Serves e stores) (hgrows : Grows stores)
    (h : isNullifierSpent e text i = .ok (true, j)) :
    ∃ safe k, sanitizeHex text = .ok safe ∧ i ≤ k ∧ k < j
      ∧ (HasTransfer (stores k) safe ∨ HasWithdrawal (stores k) safe) := by
  obtain ⟨safe, i₁, hsafe, h⟩ := bind_eq_ok.mp h
  obtain ⟨hclean, rfl⟩ := liftM_eq_ok.mp hsafe
  obtain ⟨transfer, i₂, htransfer, h⟩ := bind_eq_ok.mp h
  obtain ⟨safe', hsafe', hlt, hfound, -⟩ := getTransferByNullifier_eq_ok hserves hgrows htransfer
  rw [sanitizeHex_of_eq_ok hclean] at hsafe'
  cases hsafe'
  refine ⟨safe, ?_⟩
  split at h
  case isTrue hsome =>
    cases h
    obtain ⟨row, hrow⟩ := Option.isSome_iff_exists.mp hsome
    obtain ⟨k, field, hle, hk, hmem, hmatch⟩ := hfound row hrow
    exact ⟨k, hclean, hle, hk, Or.inl ⟨field, row.1, row.2, hmem, hmatch⟩⟩
  case isFalse =>
    obtain ⟨data, i₃, hquery, h⟩ := bind_eq_ok.mp h
    obtain ⟨hanswer, rfl, rfl⟩ := query_eq_ok.mp hquery
    have hfirst := hserves.withdrawals _ _ _ _ hanswer
    split at h
    case isTrue hne =>
      cases h
      obtain ⟨id, w, hw, hmatch⟩ := hfirst.ne_nil_iff.mp hne
      exact ⟨i₂, hclean, hlt.le, Nat.lt_succ_self i₂, Or.inr ⟨.nullifier0, id, w, hw, hmatch⟩⟩
    case isFalse =>
      obtain ⟨data2, i₄, hquery2, h⟩ := bind_eq_ok.mp h
      obtain ⟨hanswer2, rfl, rfl⟩ := query_eq_ok.mp hquery2
      have hsecond := hserves.withdrawals _ _ _ _ hanswer2
      obtain ⟨hlength, rfl⟩ := Prod.mk.inj (Except.ok.inj h)
      have hne := List.ne_nil_of_length_pos (of_decide_eq_true hlength)
      obtain ⟨id, w, hw, hmatch⟩ := hsecond.ne_nil_iff.mp hne
      exact ⟨i₂ + 1, hclean, hlt.le.trans (Nat.le_succ i₂), Nat.lt_succ_self _,
        Or.inr ⟨.nullifier1, id, w, hw, hmatch⟩⟩

/-- … **and one that is said to be unspent** was not there at the first. -/
theorem isNullifierSpent_eq_ok_false (hserves : Serves e stores) (hgrows : Grows stores)
    (h : isNullifierSpent e text i = .ok (false, j)) :
    ∃ safe, sanitizeHex text = .ok safe
      ∧ ¬ HasTransfer (stores i) safe ∧ ¬ HasWithdrawal (stores i) safe := by
  obtain ⟨safe, i₁, hsafe, h⟩ := bind_eq_ok.mp h
  obtain ⟨hclean, rfl⟩ := liftM_eq_ok.mp hsafe
  obtain ⟨transfer, i₂, htransfer, h⟩ := bind_eq_ok.mp h
  obtain ⟨safe', hsafe', hlt, -, hnone⟩ := getTransferByNullifier_eq_ok hserves hgrows htransfer
  rw [sanitizeHex_of_eq_ok hclean] at hsafe'
  cases hsafe'
  split at h
  case isTrue => exact nomatch h
  case isFalse hno =>
    refine ⟨safe, hclean, hnone (Option.not_isSome_iff_eq_none.mp hno), ?_⟩
    obtain ⟨data, i₃, hquery, h⟩ := bind_eq_ok.mp h
    obtain ⟨hanswer, rfl, rfl⟩ := query_eq_ok.mp hquery
    have hfirst := hserves.withdrawals _ _ _ _ hanswer
    split at h
    case isTrue => exact nomatch h
    case isFalse hnil =>
      obtain ⟨data2, i₄, hquery2, h⟩ := bind_eq_ok.mp h
      obtain ⟨hanswer2, rfl, rfl⟩ := query_eq_ok.mp hquery2
      have hsecond := hserves.withdrawals _ _ _ _ hanswer2
      obtain ⟨hlength, rfl⟩ := Prod.mk.inj (Except.ok.inj h)
      rintro ⟨field, id, w, hw, hmatch⟩
      cases field with
      | nullifier0 =>
        have hlater := (hgrows i i₂ hlt.le).withdrawals id w hw
        exact hnil (hfirst.ne_nil_iff.mpr ⟨id, w, hlater, hmatch⟩)
      | nullifier1 =>
        have hlater := (hgrows i (i₂ + 1) (hlt.le.trans (Nat.le_succ i₂))).withdrawals id w hw
        have hne := hsecond.ne_nil_iff.mpr ⟨id, w, hlater, hmatch⟩
        exact of_decide_eq_false hlength (List.length_pos_of_ne_nil hne)

end SubgraphClient
