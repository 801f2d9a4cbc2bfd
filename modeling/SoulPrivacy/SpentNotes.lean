import SoulPrivacy.NoteSelection
import SoulPrivacy.Run

/-!
# Notes that were marked as spent

A note that was marked as spent should not count again, whatever is added and
imported later. In neither wallet does it work that way. Adding a note and
importing one both put a record into the wallet without a look at what is
known of the note: in the TypeScript wallet the record takes the place of the
one that was marked, in the Python wallet it goes behind it.

What a call does to the notes that count is told by the notes it leaves
(`kept`) and those it puts there (`brought`). A run goes wrong exactly with
the first call that brings a note which was marked before, or marks one that
still counts through another record (`staysSpent_iff_careful`).
-/

/-! ## Marks that should stay -/

/-- **A wallet, by the notes that count**: those that its balance is the sum
of and that it selects from. -/
structure CountingWallet (σ Call ε K : Type) where
  step : Call → σ → Except ε σ
  /-- The notes that count. -/
  counts : σ → Set K
  /-- The notes that a call marks as spent. -/
  marks : Call → σ → Set K
  /-- The notes that count still, after a call. -/
  kept : Call → σ → Set K
  /-- The notes that a call puts into the wallet, and that count. -/
  brought : Call → σ → Set K
  kept_subset : ∀ {c s s'}, step c s = .ok s' → kept c s ⊆ counts s
  counts_step : ∀ {c s s'}, step c s = .ok s' → counts s' = kept c s ∪ brought c s

namespace CountingWallet

variable {σ Call ε K : Type} (W : CountingWallet σ Call ε K)

/-- The notes that some calls marked as spent. -/
def marked (tr : List (σ × Call)) : Set K := { k | ∃ p ∈ tr, k ∈ W.marks p.2 p.1 }

/-- **No note counts that was marked as spent.** -/
def StaysSpent (tr : List (σ × Call)) (s : σ) : Prop := ∀ k ∈ W.marked tr, k ∉ W.counts s

/-- **The call brings no note that was marked before**, and after it no
record is left that counts of a note that it marks. -/
def Careful (tr : List (σ × Call)) (s : σ) (c : Call) : Prop :=
  (∀ k ∈ W.brought c s, k ∉ W.marked tr) ∧ ∀ k ∈ W.marks c s, k ∉ W.kept c s ∪ W.brought c s

variable {W}

theorem mem_marked_snoc_iff {tr : List (σ × Call)} {s : σ} {c : Call} {k : K} :
    k ∈ W.marked (tr ++ [(s, c)]) ↔ k ∈ W.marked tr ∨ k ∈ W.marks c s := by
  unfold marked
  simp [or_and_right, exists_or]

/-- **One call.** What was marked before does not count before the call, so
the call leaves nothing of it. -/
theorem staysSpent_step_iff {tr : List (σ × Call)} {s s' : σ} {c : Call}
    (h : W.StaysSpent tr s) (hs : W.step c s = .ok s') :
    W.StaysSpent (tr ++ [(s, c)]) s' ↔ W.Careful tr s c := by
  unfold StaysSpent Careful
  rw [W.counts_step hs]
  constructor
  · intro h'
    refine ⟨fun k hbrought hmarked => ?_, fun k hmarks => ?_⟩
    · exact h' k (mem_marked_snoc_iff.mpr (Or.inl hmarked)) (Or.inr hbrought)
    · exact h' k (mem_marked_snoc_iff.mpr (Or.inr hmarks))
  · rintro ⟨hbrought, hmarks⟩ k hk
    rcases mem_marked_snoc_iff.mp hk with hmarked | hmark
    · rintro (hkept | hnew)
      · exact h k hmarked (W.kept_subset hs hkept)
      · exact hbrought k hnew hmarked
    · exact hmarks k hmark

/-- **Notes stay spent throughout a run exactly when all of its calls are
careful.** -/
theorem staysSpent_iff_careful {s₀ s : σ} {tr : List (σ × Call)}
    (h : Run W.step (fun _ _ => True) s₀ tr s) :
    Run.Throughout W.StaysSpent tr s
      ↔ EachAfter (fun before p => W.Careful before p.1 p.2) tr :=
  Run.throughout_iff_eachAfter W.Careful (fun _ ⟨_, hmem, _⟩ => absurd hmem List.not_mem_nil)
    (fun _ _ _ _ hP _ hs => staysSpent_step_iff hP hs) h

end CountingWallet

/-! ## The TypeScript wallet -/

namespace NoteWallet

/-- What tells a note from others: its commitment and its leaf. -/
def ShieldedNote.key (n : ShieldedNote) : Bytes32 × Uint256 := (n.commitment, n.leafIndex)

/-- A call that changes the wallet. -/
inductive Call where
  | addNote (params : NoteParams) (now : ℕ)
  | markSpent (noteId : Bytes32) (nullifier : Bytes)
  | importNotes (data : List ExportedNote)

variable (keccak256 : Bytes → Bytes32)

/-- What the call does. -/
def step (c : Call) (w : Wallet) : Except Error Wallet :=
  match c with
  | .addNote params now => .ok (addNote keccak256 params now w)
  | .markSpent noteId nullifier => markSpent noteId nullifier w
  | .importNotes data => .ok (importNotes data w)

/-- **The records that a call sets**, each at its id. -/
def Call.records (c : Call) (w : Wallet) : List ShieldedNote :=
  match c with
  | .addNote params now => [newNote keccak256 params now w]
  | .markSpent noteId nullifier => (w.notes.get noteId).toList.map
      (fun note => { note with spent := true, nullifier := some nullifier })
  | .importNotes data => data.map ExportedNote.note

/-- **Every call sets its records and does nothing else to the notes.** -/
theorem notes_step {c : Call} {w w' : Wallet} (h : step keccak256 c w = .ok w') :
    w'.notes = w.notes.setAll (c.records keccak256 w) := by
  cases c with
  | addNote params now =>
    cases h
    rfl
  | markSpent noteId nullifier =>
    have hmark : markSpent noteId nullifier w = .ok w' := h
    unfold markSpent at hmark
    show w'.notes = w.notes.setAll ((w.notes.get noteId).toList.map _)
    cases hget : w.notes.get noteId with
    | none =>
      rw [hget] at hmark
      exact absurd hmark nofun
    | some note =>
      rw [hget] at hmark
      cases hmark
      rfl
  | importNotes data =>
    cases h
    rfl

/-- **The wallet, by the notes that count.** A call leaves those whose ids it
does not set. -/
def counting : CountingWallet Wallet Call Error (Bytes32 × Uint256) where
  step := step keccak256
  counts := fun w => { k | ∃ n ∈ getUnspentNotes w, n.key = k }
  marks := fun c w =>
    match c with
    | .markSpent noteId _ => { k | ∃ n, w.notes.get noteId = some n ∧ n.key = k }
    | _ => ∅
  kept := fun c w =>
    { k | ∃ n ∈ getUnspentNotes w, (∀ r ∈ c.records keccak256 w, r.id ≠ n.id) ∧ n.key = k }
  brought := fun c w =>
    { k | ∃ n, InsertionMap.IsLast ShieldedNote.id (c.records keccak256 w) n ∧ n.spent = false
      ∧ n.key = k }
  kept_subset := fun _ _ ⟨n, hn, _, hkey⟩ => ⟨n, hn, hkey⟩
  counts_step := by
    intro c w w' h
    ext k
    constructor
    · rintro ⟨n, hn, hkey⟩
      obtain ⟨hmem, hspent⟩ := mem_getUnspentNotes_iff.mp hn
      rw [notes_step keccak256 h, InsertionMap.mem_setAll_iff] at hmem
      rcases hmem with hlast | ⟨hmem, hother⟩
      · exact Or.inr ⟨n, hlast, hspent, hkey⟩
      · exact Or.inl ⟨n, mem_getUnspentNotes_iff.mpr ⟨hmem, hspent⟩, hother, hkey⟩
    · rintro (⟨n, hn, hother, hkey⟩ | ⟨n, hlast, hspent, hkey⟩)
      · obtain ⟨hmem, hspent⟩ := mem_getUnspentNotes_iff.mp hn
        refine ⟨n, mem_getUnspentNotes_iff.mpr ⟨?_, hspent⟩, hkey⟩
        rw [notes_step keccak256 h, InsertionMap.mem_setAll_iff]
        exact Or.inr ⟨hmem, hother⟩
      · refine ⟨n, mem_getUnspentNotes_iff.mpr ⟨?_, hspent⟩, hkey⟩
        rw [notes_step keccak256 h, InsertionMap.mem_setAll_iff]
        exact Or.inl hlast

/-- Only notes that count are selected. -/
theorem selected_counts {w : Wallet} {target change : ℤ} {selected : List ShieldedNote}
    (h : selectNotesForSpend target w = .ok (selected, change)) :
    ∀ n ∈ selected, n.key ∈ (counting keccak256).counts w := by
  obtain ⟨-, rfl, -⟩ := selectNotesForSpend_eq_ok_iff.mp h
  intro n hn
  have hmem := (GreedySelection.takeUntil_isPrefix ShieldedNote.value target 0 _).subset hn
  exact ⟨n, (unspentByValue_perm w).mem_iff.mp hmem, rfl⟩

/-- **Importing the own export** leaves the balance as it is. -/
def OwnImportKeepsBalance (w : Wallet) : Prop :=
  ∀ data, exportNotes w = .ok data → getBalance (importNotes data w) = getBalance w

theorem ownImportKeepsBalance (w : Wallet) : OwnImportKeepsBalance w :=
  fun _ h => congrArg getBalance (importNotes_exportNotes h)

end NoteWallet

/-! ## The Python wallet -/

namespace PythonWallet

/-- What tells a note from others: its commitment and its leaf. -/
def Note.key (n : Note) : Bytes × Option ℤ := (n.commitment, n.leafIndex)

/-- A call that changes the wallet. -/
inductive Call where
  | addNote (note : Note)
  | createNote (value : ℤ) (recipientPubkey : Option Bytes) (blinding : Bytes)
  | markSpent (commitment : Bytes)
  | importWallet (data : WalletData)

/-- What the call does. -/
def step (c : Call) (w : Wallet) : Except Error Wallet :=
  match c with
  | .addNote note => .ok (addNote note w)
  | .createNote value recipientPubkey blinding => .ok (createNote value recipientPubkey blinding w)
  | .markSpent commitment => markSpent commitment w
  | .importWallet data => .ok (importWallet data w)

/-- The records that a call leaves as they are. -/
def Call.rest (c : Call) (w : Wallet) : List Note :=
  match c with
  | .markSpent commitment => w.notes.eraseP (fun n => n.commitment = commitment)
  | _ => w.notes

/-- The records that a call appends. -/
def Call.appended (c : Call) (w : Wallet) : List Note :=
  match c with
  | .addNote note => [note]
  | .createNote value recipientPubkey blinding => [newNote value recipientPubkey blinding w]
  | .markSpent _ => []
  | .importWallet data => data.notes

/-- The notes of some records that count. -/
def unspentKeys (notes : List Note) : Set (Bytes × Option ℤ) :=
  { k | ∃ n ∈ notes, n.spent = false ∧ n.key = k }

theorem unspentKeys_append (notes notes' : List Note) :
    unspentKeys (notes ++ notes') = unspentKeys notes ∪ unspentKeys notes' := by
  ext k
  constructor
  · rintro ⟨n, hn, h⟩
    rcases List.mem_append.mp hn with hn | hn
    · exact Or.inl ⟨n, hn, h⟩
    · exact Or.inr ⟨n, hn, h⟩
  · rintro (⟨n, hn, h⟩ | ⟨n, hn, h⟩)
    · exact ⟨n, List.mem_append_left _ hn, h⟩
    · exact ⟨n, List.mem_append_right _ hn, h⟩

/-- **A record that is marked does not count**, and the others do as
before. -/
theorem unspentKeys_markFirst {commitment : Bytes} {notes notes' : List Note}
    (h : markFirst commitment notes = some notes') :
    unspentKeys notes' = unspentKeys (notes.eraseP (fun n => n.commitment = commitment)) := by
  obtain ⟨before, note, after, rfl, rfl, hnote, hbefore⟩ := exists_of_markFirst h
  have herase : (before ++ note :: after).eraseP (fun n => n.commitment = commitment)
      = before ++ after := by
    rw [List.eraseP_append_right _ (fun n hn => by simpa using hbefore n hn)]
    exact congrArg (before ++ ·) (List.eraseP_cons_of_pos (by simpa using hnote))
  have hspent : unspentKeys ({ note with spent := true } :: after) = unspentKeys after := by
    ext k
    constructor
    · rintro ⟨n, hn, hunspent, hkey⟩
      rcases List.mem_cons.mp hn with rfl | hn
      · exact absurd hunspent nofun
      · exact ⟨n, hn, hunspent, hkey⟩
    · rintro ⟨n, hn, h⟩
      exact ⟨n, List.mem_cons_of_mem _ hn, h⟩
  rw [herase, unspentKeys_append, unspentKeys_append, hspent]

/-- **The wallet, by the notes that count.** -/
def counting : CountingWallet Wallet Call Error (Bytes × Option ℤ) where
  step := step
  counts := fun w => unspentKeys w.notes
  marks := fun c w =>
    match c with
    | .markSpent commitment =>
      { k | ∃ n, w.notes.find? (fun n => n.commitment = commitment) = some n ∧ n.key = k }
    | _ => ∅
  kept := fun c w => unspentKeys (c.rest w)
  brought := fun c w => unspentKeys (c.appended w)
  kept_subset := by
    intro c w w' _
    cases c with
    | markSpent commitment =>
      rintro k ⟨n, hn, h⟩
      exact ⟨n, List.mem_of_mem_eraseP hn, h⟩
    | _ => exact fun _ h => h
  counts_step := by
    intro c w w' h
    cases c with
    | markSpent commitment =>
      have hspent : markSpent commitment w = .ok w' := h
      unfold markSpent at hspent
      cases hmark : markFirst commitment w.notes with
      | none =>
        rw [hmark] at hspent
        exact absurd hspent nofun
      | some notes =>
        rw [hmark] at hspent
        cases hspent
        show unspentKeys notes = unspentKeys (w.notes.eraseP _) ∪ unspentKeys []
        rw [← unspentKeys_append, List.append_nil]
        exact unspentKeys_markFirst hmark
    | _ =>
      cases h
      exact unspentKeys_append _ _

/-- Only notes that count are selected. -/
theorem selected_counts {w : Wallet} {target : ℤ} {selected : List Note}
    (h : selectNotes target w = .ok selected) :
    ∀ n ∈ selected, n.key ∈ counting.counts w := by
  unfold selectNotes at h
  split at h
  · exact absurd h nofun
  · rename_i hsome
    cases h
    intro n hn
    have hmem := (GreedySelection.takeThrough_isPrefix hsome).subset hn
    rw [(GreedySelection.descending_perm Note.value _).mem_iff, mem_unspentNotes_iff] at hmem
    exact ⟨n, hmem.1, hmem.2, rfl⟩

/-- **Importing the own export** leaves the balance as it is. -/
def OwnImportKeepsBalance (w : Wallet) : Prop :=
  balance (importWallet (exportWallet w) w) = balance w

theorem ownImportKeepsBalance_iff (w : Wallet) : OwnImportKeepsBalance w ↔ balance w = 0 := by
  unfold OwnImportKeepsBalance
  rw [balance_importWallet_exportWallet]
  exact add_eq_left

end PythonWallet

/-! ## Both wallets -/

namespace SpentNotes

/-- **Spent notes stay spent in a wallet, and its own export changes
nothing**, throughout a run. -/
def TypeScriptKeeps (keccak256 : Bytes → Bytes32) (tr : List (NoteWallet.Wallet × NoteWallet.Call))
    (w : NoteWallet.Wallet) : Prop :=
  Run.Throughout (fun tr w => (NoteWallet.counting keccak256).StaysSpent tr w
    ∧ NoteWallet.OwnImportKeepsBalance w) tr w

/-- … and the same of the Python wallet. -/
def PythonKeeps (tr : List (PythonWallet.Wallet × PythonWallet.Call)) (p : PythonWallet.Wallet) :
    Prop :=
  Run.Throughout (fun tr p => PythonWallet.counting.StaysSpent tr p
    ∧ PythonWallet.OwnImportKeepsBalance p) tr p

variable {keccak256 : Bytes → Bytes32} {w₀ w : NoteWallet.Wallet} {p₀ p : PythonWallet.Wallet}
  {tr : List (NoteWallet.Wallet × NoteWallet.Call)}
  {tr' : List (PythonWallet.Wallet × PythonWallet.Call)}

/-- **Spent notes stay spent in both wallets exactly when all calls are
careful**, and the Python wallet imports its own export without a change
exactly as long as its balance is zero. -/
theorem keeps_iff (hts : Run (NoteWallet.step keccak256) (fun _ _ => True) w₀ tr w)
    (hpy : Run PythonWallet.step (fun _ _ => True) p₀ tr' p) :
    TypeScriptKeeps keccak256 tr w ∧ PythonKeeps tr' p
      ↔ EachAfter (fun before q => (NoteWallet.counting keccak256).Careful before q.1 q.2) tr
        ∧ EachAfter (fun before q => PythonWallet.counting.Careful before q.1 q.2) tr'
        ∧ Run.Throughout (fun _ p => PythonWallet.balance p = 0) tr' p := by
  have hown : Run.Throughout (fun _ w => NoteWallet.OwnImportKeepsBalance w) tr w :=
    ⟨NoteWallet.ownImportKeepsBalance w, fun _ q _ _ => NoteWallet.ownImportKeepsBalance q.1⟩
  have hzero : Run.Throughout (fun _ p => PythonWallet.OwnImportKeepsBalance p) tr' p
      ↔ Run.Throughout (fun _ p => PythonWallet.balance p = 0) tr' p := by
    unfold Run.Throughout
    simp only [PythonWallet.ownImportKeepsBalance_iff]
  unfold TypeScriptKeeps PythonKeeps
  rw [Run.throughout_and_iff, Run.throughout_and_iff, and_iff_left hown, hzero,
    CountingWallet.staysSpent_iff_careful hts, CountingWallet.staysSpent_iff_careful hpy]

/-! ## A note that comes back -/

/-- A note of the value 5. -/
def params : NoteWallet.NoteParams := ⟨1, 0, 5, [], [], none⟩

/-- A TypeScript wallet with the note. -/
def added : NoteWallet.Wallet :=
  NoteWallet.addNote (fun _ => 0) params 0 (NoteWallet.construct [] [])

/-- Adding a note to an empty wallet is careful. -/
theorem keeps_iff_added :
    Run (NoteWallet.step (fun _ => 0)) (fun _ _ => True) (NoteWallet.construct [] [])
        [(NoteWallet.construct [] [], .addNote params 0)] added
      ∧ TypeScriptKeeps (fun _ => 0) [(NoteWallet.construct [] [], .addNote params 0)] added
      ∧ PythonKeeps [] (PythonWallet.init [] 43113 1) := by
  have hts : Run (NoteWallet.step (fun _ => 0)) (fun _ _ => True) (NoteWallet.construct [] [])
      [(NoteWallet.construct [] [], .addNote params 0)] added := Run.nil.snoc trivial rfl
  have hpy : Run PythonWallet.step (fun _ _ => True) (PythonWallet.init [] 43113 1) []
      (PythonWallet.init [] 43113 1) := Run.nil
  have hcareful : EachAfter
      (fun before q => (NoteWallet.counting (fun _ => 0)).Careful before q.1 q.2)
      [(NoteWallet.construct [] [], .addNote params 0)] := by
    refine (EachAfter.append_singleton_iff [] _).mpr ⟨EachAfter.nil, ?_, ?_⟩
    · exact fun _ _ ⟨_, hmem, _⟩ => absurd hmem List.not_mem_nil
    · exact fun _ hmark => absurd hmark (Set.notMem_empty _)
  exact ⟨hts, (keeps_iff hts hpy).mpr ⟨hcareful, EachAfter.nil, Run.throughout_nil.mpr rfl⟩⟩

/-- The wallet when the note was marked as spent. -/
def spentOnce : NoteWallet.Wallet where
  spendingKey := []
  chainKey := []
  notes := ⟨[⟨0, 1, 0, 5, [], [], [], true, some [], 0, none⟩], List.nodup_singleton _⟩

/-- What the wallet exported before that. -/
def stale : List NoteWallet.ExportedNote :=
  [⟨⟨0, 1, 0, 5, [], [], [], false, none, 0, none⟩, by decide⟩]

/-- The note is added, marked as spent, and imported from the export. -/
def staleRun : List (NoteWallet.Wallet × NoteWallet.Call) :=
  [(NoteWallet.construct [] [], .addNote params 0), (added, .markSpent 0 []),
    (spentOnce, .importNotes stale)]

/-- The Python wallet with a note of the value 5. -/
def pythonAdded : PythonWallet.Wallet :=
  PythonWallet.addNote ⟨[1], 5, [], [], none, false⟩ (PythonWallet.init [] 43113 1)

/-- **The note counts again**, and a Python wallet that imports its own export
has twice the balance. -/
theorem exists_note_back :
    NoteWallet.getBalance spentOnce = 0
      ∧ NoteWallet.exportNotes added = .ok stale
      ∧ NoteWallet.getBalance (NoteWallet.importNotes stale spentOnce) = 5
      ∧ Run (NoteWallet.step (fun _ => 0)) (fun _ _ => True) (NoteWallet.construct [] []) staleRun
        (NoteWallet.importNotes stale spentOnce)
      ∧ ¬ TypeScriptKeeps (fun _ => 0) staleRun (NoteWallet.importNotes stale spentOnce)
      ∧ Run PythonWallet.step (fun _ _ => True) (PythonWallet.init [] 43113 1)
        [(PythonWallet.init [] 43113 1, .addNote ⟨[1], 5, [], [], none, false⟩)] pythonAdded
      ∧ PythonWallet.balance (PythonWallet.importWallet (PythonWallet.exportWallet pythonAdded)
        pythonAdded) = 10
      ∧ ¬ PythonKeeps [(PythonWallet.init [] 43113 1, .addNote ⟨[1], 5, [], [], none, false⟩)]
        pythonAdded := by
  have hts : Run (NoteWallet.step (fun _ => 0)) (fun _ _ => True) (NoteWallet.construct [] [])
      staleRun (NoteWallet.importNotes stale spentOnce) :=
    ((Run.nil.snoc trivial rfl).snoc trivial rfl).snoc trivial rfl
  have hpy : Run PythonWallet.step (fun _ _ => True) (PythonWallet.init [] 43113 1)
      [(PythonWallet.init [] 43113 1, .addNote ⟨[1], 5, [], [], none, false⟩)] pythonAdded :=
    Run.nil.snoc trivial rfl
  refine ⟨by decide, rfl, by decide, hts, fun h => ?_, hpy, by decide, fun h => ?_⟩
  · have hstay : (NoteWallet.counting (fun _ => 0)).StaysSpent staleRun
        (NoteWallet.importNotes stale spentOnce) := h.1.1
    refine hstay (1, 0) ⟨(added, .markSpent 0 []), by simp [staleRun], ?_⟩ ?_
    · exact ⟨_, rfl, rfl⟩
    · exact ⟨_, List.mem_singleton_self _, rfl⟩
  · have hbalance := (PythonWallet.ownImportKeepsBalance_iff pythonAdded).mp h.1.2
    exact absurd hbalance (by decide)

end SpentNotes
