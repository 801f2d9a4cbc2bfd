import SoulPrivacy.GreedySelection
import SoulPrivacy.InsertionMap
import SoulPrivacy.Solidity
import Mathlib.Algebra.Order.Group.Int

/-!
# The wallet of the TypeScript SDK (`wallet.ts`)

The wallet keeps its notes in a `Map` under their ids. Adding a note and
importing one both set it at its id, whatever is there.

A text is the list of its bytes, and a hexadecimal text is the bytes or the
number it stands for.
-/

namespace NoteWallet

open GreedySelection (descending takeUntil)

/-- `ShieldedNote`. -/
structure ShieldedNote where
  id : Bytes32
  commitment : Bytes32
  leafIndex : Uint256
  value : ℤ
  secret : Bytes
  nonce : Bytes
  chainKey : Bytes
  spent : Bool
  nullifier : Option Bytes
  /-- The clock when the note was added. -/
  createdAt : ℕ
  txHash : Option Bytes
  deriving DecidableEq

/-- The parameters of `addNote`. -/
structure NoteParams where
  commitment : Bytes32
  leafIndex : Uint256
  value : ℤ
  secret : Bytes
  nonce : Bytes
  txHash : Option Bytes

/-- The wallet. -/
structure Wallet where
  spendingKey : Bytes
  chainKey : Bytes
  notes : InsertionMap ShieldedNote.id

/-- The errors that are thrown. -/
inductive Error where
  | noteNotFound (noteId : Bytes32)
  | insufficientBalance (total targetValue : ℤ)
  /-- `toHex` of a negative number. -/
  | integerOutOfRange (value : ℤ)
  deriving DecidableEq

/-- The constructor. -/
def construct (spendingKey chainKey : Bytes) : Wallet := ⟨spendingKey, chainKey, .empty⟩

/-! ## Notes -/

section Adding

variable (keccak256 : Bytes → Bytes32)

/-- `computeNoteId`. -/
def computeNoteId (commitment : Bytes32) (leafIndex : Uint256) (chainKey : Bytes) : Bytes32 :=
  keccak256 (Bytes32.toBytes commitment ++ Bytes32.toBytes leafIndex ++ chainKey)

/-- The note that `addNote` makes. -/
def newNote (params : NoteParams) (now : ℕ) (w : Wallet) : ShieldedNote where
  id := computeNoteId keccak256 params.commitment params.leafIndex w.chainKey
  commitment := params.commitment
  leafIndex := params.leafIndex
  value := params.value
  secret := params.secret
  nonce := params.nonce
  chainKey := w.chainKey
  spent := false
  nullifier := none
  createdAt := now
  txHash := params.txHash

/-- `addNote`. -/
def addNote (params : NoteParams) (now : ℕ) (w : Wallet) : Wallet :=
  { w with notes := w.notes.set (newNote keccak256 params now w) }

end Adding

/-- `markSpent`, which changes the note in place. -/
def markSpent (noteId : Bytes32) (nullifier : Bytes) (w : Wallet) : Except Error Wallet :=
  match w.notes.get noteId with
  | none => .error (.noteNotFound noteId)
  | some note =>
    .ok { w with notes := w.notes.set { note with spent := true, nullifier := some nullifier } }

/-! ## Queries -/

/-- `getUnspentNotes`. -/
def getUnspentNotes (w : Wallet) : List ShieldedNote := w.notes.values.filter (fun n => !n.spent)

/-- `getAllNotes`. -/
def getAllNotes (w : Wallet) : List ShieldedNote := w.notes.values

/-- `getBalance`. -/
def getBalance (w : Wallet) : ℤ := (getUnspentNotes w).foldl (fun sum n => sum + n.value) 0

/-! ## Note selection -/

/-- **`selectNotesForSpend`**, which gives the notes and the change. The loop
stops before a note that is not needed. -/
def selectNotesForSpend (targetValue : ℤ) (w : Wallet) :
    Except Error (List ShieldedNote × ℤ) :=
  let unspent := descending ShieldedNote.value (getUnspentNotes w)
  let r := takeUntil ShieldedNote.value targetValue 0 unspent
  if r.2 < targetValue then .error (.insufficientBalance r.2 targetValue)
  else .ok (r.1, r.2 - targetValue)

/-! ## Export and import -/

/-- **An exported note**, whose value is written as a hexadecimal text. Only
a number that is not negative has one. -/
structure ExportedNote where
  note : ShieldedNote
  value_nonneg : 0 ≤ note.value

/-- An entry of the array that `exportNotes` gives. -/
def exportNote (n : ShieldedNote) : Except Error ExportedNote :=
  if h : 0 ≤ n.value then .ok ⟨n, h⟩ else .error (.integerOutOfRange n.value)

/-- `exportNotes`. -/
def exportNotes (w : Wallet) : Except Error (List ExportedNote) :=
  (getAllNotes w).mapM exportNote

/-- `importNotes`. -/
def importNotes (data : List ExportedNote) (w : Wallet) : Wallet :=
  { w with notes := w.notes.setAll (data.map ExportedNote.note) }

/-! ## What the queries say -/

theorem mem_getUnspentNotes_iff {w : Wallet} {n : ShieldedNote} :
    n ∈ getUnspentNotes w ↔ n ∈ w.notes.values ∧ n.spent = false := by
  unfold getUnspentNotes
  rw [List.mem_filter, Bool.not_eq_true']

theorem nodup_getUnspentNotes (w : Wallet) : (getUnspentNotes w).Nodup :=
  (List.Nodup.of_map ShieldedNote.id w.notes.nodup).filter _

/-- The balance is the sum of the unspent values. -/
theorem getBalance_eq_sum (w : Wallet) :
    getBalance w = ((getUnspentNotes w).map ShieldedNote.value).sum := by
  unfold getBalance
  rw [List.sum_eq_foldl, List.foldl_map]

/-- What is exported are the notes. -/
theorem map_note_of_mapM {notes : List ShieldedNote} {data : List ExportedNote}
    (h : notes.mapM exportNote = .ok data) : data.map ExportedNote.note = notes := by
  induction notes generalizing data with
  | nil =>
    cases h
    rfl
  | cons n notes ih =>
    rw [List.mapM_cons] at h
    obtain ⟨e, hn, h⟩ := (Except.bind_eq_ok _ _ _).mp h
    obtain ⟨entries, hnotes, h⟩ := (Except.bind_eq_ok _ _ _).mp h
    cases h
    rw [List.map_cons, ih hnotes]
    unfold exportNote at hn
    split at hn
    · cases hn
      rfl
    · exact absurd hn nofun

/-- **A wallet that imports its own export does not change.** -/
theorem importNotes_exportNotes {w : Wallet} {data : List ExportedNote}
    (h : exportNotes w = .ok data) : importNotes data w = w := by
  unfold importNotes
  rw [map_note_of_mapM h]
  exact congrArg (fun notes => { w with notes := notes }) (InsertionMap.setAll_values _)

end NoteWallet
