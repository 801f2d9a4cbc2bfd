import SoulPrivacy.ClientHashes
import SoulPrivacy.GreedySelection
import Mathlib.Algebra.Order.Group.Int

/-!
# The wallet of the Python SDK (`wallet.py`)

The wallet keeps its notes in a list. A note that is added or imported goes
to the end, whether it is there already or not; a note that is marked as
spent is the first one with its commitment.

An exported wallet is the text of a JSON object. It is taken for what the
text says.
-/

namespace PythonWallet

open GreedySelection (descending takeThrough)

/-- `Note`. -/
structure Note where
  commitment : Bytes
  value : ℤ
  blinding : Bytes
  ownerPubkey : Bytes
  leafIndex : Option ℤ
  spent : Bool
  deriving DecidableEq

/-- The wallet. -/
structure Wallet where
  spendingKey : Bytes
  chainId : ℕ
  appId : ℕ
  notes : List Note
  deriving DecidableEq

/-- The errors that are raised. -/
inductive Error where
  | noteNotFound (commitment : Bytes)
  | insufficientBalance (targetValue balance : ℤ)
  deriving DecidableEq

/-- `__init__`. -/
def init (spendingKey : Bytes) (chainId appId : ℕ) : Wallet := ⟨spendingKey, chainId, appId, []⟩

/-- `unspent_notes`. -/
def unspentNotes (w : Wallet) : List Note := w.notes.filter (fun n => !n.spent)

/-- `balance`. -/
def balance (w : Wallet) : ℤ := ((unspentNotes w).map Note.value).sum

/-- `add_note`. -/
def addNote (note : Note) (w : Wallet) : Wallet := { w with notes := w.notes ++ [note] }

/-- The note that `create_note` makes, with some random bytes. The hash takes
the value modulo the order of the field. -/
def newNote (value : ℤ) (recipientPubkey : Option Bytes) (blinding : Bytes) (w : Wallet) :
    Note :=
  -- `recipient_pubkey or self._spending_key`, where no bytes count as none
  let pubkey := if recipientPubkey.getD [] = [] then w.spendingKey else recipientPubkey.getD []
  { commitment := computeCommitment pubkey
      (value % (PythonPoseidon.FIELD_MODULUS : ℤ)).toNat blinding
    value := value
    blinding := blinding
    ownerPubkey := pubkey
    leafIndex := none
    spent := false }

/-- `create_note`. -/
def createNote (value : ℤ) (recipientPubkey : Option Bytes) (blinding : Bytes) (w : Wallet) :
    Wallet :=
  addNote (newNote value recipientPubkey blinding w) w

/-- The loop of `mark_spent`, which returns at the first match. -/
def markFirst (commitment : Bytes) : List Note → Option (List Note)
  | [] => none
  | note :: notes =>
    if note.commitment = commitment then some ({ note with spent := true } :: notes)
    else (markFirst commitment notes).map (note :: ·)

/-- `mark_spent`. -/
def markSpent (commitment : Bytes) (w : Wallet) : Except Error Wallet :=
  match markFirst commitment w.notes with
  | none => .error (.noteNotFound commitment)
  | some notes => .ok { w with notes := notes }

/-- **`select_notes`.** The loop returns behind the note that reaches the
target. -/
def selectNotes (targetValue : ℤ) (w : Wallet) : Except Error (List Note) :=
  match takeThrough Note.value targetValue 0 (descending Note.value (unspentNotes w)) with
  | none => .error (.insufficientBalance targetValue (balance w))
  | some selected => .ok selected

/-! ## Export and import -/

/-- What an exported wallet says. -/
structure WalletData where
  chainId : ℕ
  appId : ℕ
  notes : List Note

/-- `export_wallet`. -/
def exportWallet (w : Wallet) : WalletData := ⟨w.chainId, w.appId, w.notes⟩

/-- `import_wallet`, which does not look at the chain. -/
def importWallet (data : WalletData) (w : Wallet) : Wallet :=
  { w with notes := w.notes ++ data.notes }

/-! ## What the operations do -/

theorem mem_unspentNotes_iff {w : Wallet} {n : Note} :
    n ∈ unspentNotes w ↔ n ∈ w.notes ∧ n.spent = false := by
  unfold unspentNotes
  rw [List.mem_filter, Bool.not_eq_true']

/-- **Marking as spent** changes the first note with the commitment. -/
theorem exists_of_markFirst {commitment : Bytes} {notes notes' : List Note}
    (h : markFirst commitment notes = some notes') :
    ∃ before note after, notes = before ++ note :: after
      ∧ notes' = before ++ { note with spent := true } :: after
      ∧ note.commitment = commitment ∧ ∀ n ∈ before, n.commitment ≠ commitment := by
  induction notes generalizing notes' with
  | nil => exact absurd h nofun
  | cons n notes ih =>
    unfold markFirst at h
    split at h
    · rename_i hfound
      cases h
      exact ⟨[], n, notes, rfl, rfl, hfound, fun _ hmem => absurd hmem List.not_mem_nil⟩
    · rename_i hother
      obtain ⟨marked, hmarked, rfl⟩ := Option.map_eq_some_iff.mp h
      obtain ⟨before, note, after, rfl, rfl, hnote, hbefore⟩ := ih hmarked
      exact ⟨n :: before, note, after, rfl, rfl, hnote,
        List.forall_mem_cons.mpr ⟨hother, hbefore⟩⟩

/-- **A wallet that imports its own export** has everything twice. -/
theorem balance_importWallet_exportWallet (w : Wallet) :
    balance (importWallet (exportWallet w) w) = balance w + balance w := by
  unfold balance unspentNotes importWallet exportWallet
  rw [List.filter_append, List.map_append, List.sum_append]

end PythonWallet
