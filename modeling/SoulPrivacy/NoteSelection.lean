import SoulPrivacy.NoteWallet
import SoulPrivacy.PythonNoteWallet

/-!
# Which notes the wallets select

Both wallets go through the unspent notes by descending value. The wallet of
the TypeScript SDK tests before each note whether the target is reached, and
selects the fewest notes that cover it (`selectNotesForSpend_fewest`).

The Python wallet tests after each note. That makes a difference only where
the target is reached without any note, which is the target zero: there it
selects a note that is not needed, or finds no note to test behind and raises
(`selectAlike_iff`).
-/

open GreedySelection (descending takeThrough takeThrough_eq takeUntil)

/-! ## The fewest notes -/

namespace NoteWallet

variable {w : Wallet} {target : ℤ}

/-- The unspent notes in the order in which they are selected. -/
def unspentByValue (w : Wallet) : List ShieldedNote :=
  descending ShieldedNote.value (getUnspentNotes w)

theorem unspentByValue_perm (w : Wallet) : (unspentByValue w).Perm (getUnspentNotes w) :=
  GreedySelection.descending_perm ShieldedNote.value _

/-- The total of all unspent notes. -/
theorem sum_unspentByValue (w : Wallet) :
    ((unspentByValue w).map ShieldedNote.value).sum = getBalance w := by
  rw [getBalance_eq_sum]
  exact ((unspentByValue_perm w).map ShieldedNote.value).sum_eq

/-- What a selection is. -/
theorem selectNotesForSpend_eq_ok_iff {selected : List ShieldedNote} {change : ℤ} :
    selectNotesForSpend target w = .ok (selected, change)
      ↔ target ≤ (takeUntil ShieldedNote.value target 0 (unspentByValue w)).2
        ∧ (takeUntil ShieldedNote.value target 0 (unspentByValue w)).1 = selected
        ∧ (takeUntil ShieldedNote.value target 0 (unspentByValue w)).2 - target = change := by
  unfold selectNotesForSpend unspentByValue
  dsimp only
  split
  · rename_i h
    exact iff_of_false nofun (fun h' => absurd h'.1 (not_le_of_gt h))
  · rename_i h
    rw [Except.ok.injEq, Prod.mk.injEq, and_iff_right (not_lt.mp h)]

/-- … and when there is none. -/
theorem selectNotesForSpend_error_iff_loop :
    (∃ e, selectNotesForSpend target w = .error e)
      ↔ (takeUntil ShieldedNote.value target 0 (unspentByValue w)).2 < target := by
  unfold selectNotesForSpend unspentByValue
  dsimp only
  split
  · rename_i h
    exact iff_of_true ⟨_, rfl⟩ h
  · rename_i h
    exact iff_of_false nofun h

/-- **Selecting throws exactly when the balance is below the target.** -/
theorem selectNotesForSpend_error_iff (hvalues : ∀ n ∈ getUnspentNotes w, 0 ≤ n.value) :
    (∃ e, selectNotesForSpend target w = .error e) ↔ getBalance w < target := by
  have hsorted : ∀ n ∈ unspentByValue w, 0 ≤ n.value := fun n hn =>
    hvalues n ((unspentByValue_perm w).mem_iff.mp hn)
  rw [selectNotesForSpend_error_iff_loop, ← not_le, ← not_le,
    GreedySelection.le_takeUntil_snd_iff hsorted, zero_add, sum_unspentByValue]

/-- **Note selection is minimal.** It throws exactly when the balance is
below the target. Otherwise it gives different unspent notes, whose values
sum to the target and the change, and no fewer unspent notes cover the
target. -/
theorem selectNotesForSpend_fewest (w : Wallet) (target : ℤ)
    (hvalues : ∀ n ∈ getUnspentNotes w, 0 ≤ n.value) :
    ((∃ e, selectNotesForSpend target w = .error e) ↔ getBalance w < target)
      ∧ ∀ selected change, selectNotesForSpend target w = .ok (selected, change) →
        selected.Nodup ∧ (∀ n ∈ selected, n ∈ getUnspentNotes w)
          ∧ (selected.map ShieldedNote.value).sum = target + change
          ∧ ∀ others : List ShieldedNote, others.Nodup → (∀ n ∈ others, n ∈ getUnspentNotes w) →
            target ≤ (others.map ShieldedNote.value).sum → selected.length ≤ others.length := by
  refine ⟨selectNotesForSpend_error_iff hvalues, fun selected change h => ?_⟩
  obtain ⟨-, rfl, rfl⟩ := selectNotesForSpend_eq_ok_iff.mp h
  have hsub :=
    (GreedySelection.takeUntil_isPrefix ShieldedNote.value target 0 (unspentByValue w)).sublist
  refine ⟨?_, fun n hn => ?_, ?_, fun others hnodup hunspent hcover => ?_⟩
  · exact ((unspentByValue_perm w).nodup_iff.mpr (nodup_getUnspentNotes w)).sublist hsub
  · exact (unspentByValue_perm w).mem_iff.mp (hsub.subset hn)
  · rw [add_sub_cancel, GreedySelection.takeUntil_snd, zero_add]
  · have hothers : others.Subperm (unspentByValue w) :=
      (List.subperm_of_subset hnodup hunspent).trans (unspentByValue_perm w).symm.subperm
    exact GreedySelection.length_takeUntil_le (GreedySelection.pairwise_descending _ _) hothers
      (by rwa [zero_add])

/-- Notes of the values 3, 7 and 5, of which the second one is spent. -/
def threeNotes : Wallet where
  spendingKey := []
  chainKey := []
  notes := ⟨[⟨1, 1, 0, 3, [], [], [], false, none, 0, none⟩,
      ⟨2, 2, 1, 7, [], [], [], true, none, 0, none⟩,
      ⟨3, 3, 2, 5, [], [], [], false, none, 0, none⟩], by decide⟩

/-- The unspent notes cover 6 and do not cover 9. -/
theorem selectNotesForSpend_fewest_three :
    (∀ n ∈ getUnspentNotes threeNotes, 0 ≤ n.value)
      ∧ (∃ e, selectNotesForSpend 9 threeNotes = .error e)
      ∧ ¬ (∃ e, selectNotesForSpend 6 threeNotes = .error e)
      ∧ ∀ selected change, selectNotesForSpend 6 threeNotes = .ok (selected, change) →
        (selected.map ShieldedNote.value).sum = 6 + change ∧ selected.length ≤ 2 := by
  have hvalues : ∀ n ∈ getUnspentNotes threeNotes, 0 ≤ n.value := by decide
  have hnine := (selectNotesForSpend_fewest threeNotes 9 hvalues).1
  obtain ⟨hsix, hselect⟩ := selectNotesForSpend_fewest threeNotes 6 hvalues
  refine ⟨hvalues, hnine.mpr (by decide), fun h => absurd (hsix.mp h) (by decide), ?_⟩
  intro selected change h
  obtain ⟨-, -, htotal, hfewest⟩ := hselect selected change h
  exact ⟨htotal, hfewest (getUnspentNotes threeNotes) (by decide) (fun _ hn => hn) (by decide)⟩

end NoteWallet

/-! ## Two wallets with the same notes -/

namespace NoteSelection

open NoteWallet (ShieldedNote)
open PythonWallet (Note)

/-- **The wallets hold the same notes**: of the same values in the same order,
and the same ones are spent. -/
def SameNotes (w : NoteWallet.Wallet) (p : PythonWallet.Wallet) : Prop :=
  w.notes.values.map (fun n => (n.value, n.spent)) = p.notes.map (fun n => (n.value, n.spent))

/-- **The wallets select alike**: one throws exactly when the other raises,
which is when the balance is below the target, and otherwise they select
notes of the same values in the same order. -/
structure SelectAlike (w : NoteWallet.Wallet) (p : PythonWallet.Wallet) (target : ℤ) : Prop where
  raises_iff : (∃ e, PythonWallet.selectNotes target p = .error e)
    ↔ ∃ e, NoteWallet.selectNotesForSpend target w = .error e
  throws_iff : (∃ e, NoteWallet.selectNotesForSpend target w = .error e)
    ↔ NoteWallet.getBalance w < target
  same_values : ∀ selected change notes,
    NoteWallet.selectNotesForSpend target w = .ok (selected, change) →
    PythonWallet.selectNotes target p = .ok notes →
      selected.map ShieldedNote.value = notes.map Note.value

variable {w : NoteWallet.Wallet} {p : PythonWallet.Wallet} {target : ℤ}

/-- The unspent values are the same. -/
theorem SameNotes.map_value_unspent (h : SameNotes w p) :
    (NoteWallet.getUnspentNotes w).map ShieldedNote.value
      = (PythonWallet.unspentNotes p).map Note.value := by
  have hfilter := congrArg (fun l : List (ℤ × Bool) => (l.filter (fun q => !q.2)).map Prod.fst) h
  simp only [List.filter_map, List.map_map] at hfilter
  exact hfilter

/-- The loop of both wallets, on the values alone. -/
def loop (target : ℤ) (p : PythonWallet.Wallet) : List ℤ × ℤ :=
  takeUntil id target 0 (descending id ((PythonWallet.unspentNotes p).map Note.value))

/-- What the TypeScript wallet selects. -/
theorem SameNotes.loop_eq (h : SameNotes w p) :
    (takeUntil ShieldedNote.value target 0 (NoteWallet.unspentByValue w)).1.map ShieldedNote.value
        = (loop target p).1
      ∧ (takeUntil ShieldedNote.value target 0 (NoteWallet.unspentByValue w)).2
        = (loop target p).2 := by
  have hmap := GreedySelection.map_takeUntil ShieldedNote.value target 0
    (NoteWallet.unspentByValue w)
  have hvalues : (NoteWallet.unspentByValue w).map ShieldedNote.value
      = descending id ((PythonWallet.unspentNotes p).map Note.value) := by
    rw [← h.map_value_unspent]
    exact GreedySelection.map_descending _ _
  rw [hvalues] at hmap
  exact ⟨hmap.1.symm, hmap.2.symm⟩

/-- **What the Python wallet selects**, for a target that is not zero. -/
theorem selectNotes_of_pos (htarget : 0 < target) :
    ((∃ e, PythonWallet.selectNotes target p = .error e) ↔ (loop target p).2 < target)
      ∧ ∀ notes, PythonWallet.selectNotes target p = .ok notes →
        notes.map Note.value = (loop target p).1 := by
  have hmap := GreedySelection.map_takeUntil Note.value target 0
    (descending Note.value (PythonWallet.unspentNotes p))
  rw [GreedySelection.map_descending] at hmap
  have hthrough := takeThrough_eq Note.value target htarget
    (descending Note.value (PythonWallet.unspentNotes p))
  unfold PythonWallet.selectNotes loop
  rw [hthrough, hmap.1, hmap.2]
  split
  · rename_i hnone
    split at hnone
    · exact absurd hnone nofun
    · rename_i hshort
      exact ⟨iff_of_true ⟨_, rfl⟩ (not_le.mp hshort), nofun⟩
  · rename_i selected hsome
    split at hsome
    · rename_i hreach
      cases hsome
      exact ⟨iff_of_false nofun (not_lt_of_ge hreach), fun _ h => by cases h; rfl⟩
    · exact absurd hsome nofun

/-- Nothing is needed to cover zero. -/
theorem selectNotesForSpend_zero (w : NoteWallet.Wallet) :
    NoteWallet.selectNotesForSpend 0 w = .ok ([], 0) :=
  NoteWallet.selectNotesForSpend_eq_ok_iff.mpr (by
    rw [GreedySelection.takeUntil_of_le le_rfl]
    exact ⟨le_rfl, rfl, sub_self 0⟩)

/-- **The Python wallet selects something or raises**, where the target is
zero. -/
theorem selectNotes_zero (hvalues : ∀ n ∈ PythonWallet.unspentNotes p, 0 ≤ n.value) :
    (∃ e, PythonWallet.selectNotes 0 p = .error e)
      ∨ ∃ n, PythonWallet.selectNotes 0 p = .ok [n] := by
  have hperm := GreedySelection.descending_perm Note.value (PythonWallet.unspentNotes p)
  unfold PythonWallet.selectNotes
  cases hl : descending Note.value (PythonWallet.unspentNotes p) with
  | nil => exact Or.inl ⟨_, rfl⟩
  | cons n l =>
    rw [hl] at hperm
    have hn : 0 ≤ n.value := hvalues n (hperm.subset List.mem_cons_self)
    refine Or.inr ⟨n, ?_⟩
    rw [takeThrough, if_pos (by rwa [zero_add])]

/-- So the wallets do not select alike for zero. -/
theorem not_selectAlike_of_zero (w : NoteWallet.Wallet)
    (hvalues : ∀ n ∈ PythonWallet.unspentNotes p, 0 ≤ n.value) : ¬ SelectAlike w p 0 := by
  intro h
  rcases selectNotes_zero hvalues with hraises | ⟨n, hn⟩
  · obtain ⟨e, he⟩ := h.raises_iff.mp hraises
    rw [selectNotesForSpend_zero] at he
    exact absurd he nofun
  · exact absurd (h.same_values [] 0 [n] (selectNotesForSpend_zero w) hn) nofun

/-- **The wallets select alike exactly for the targets that are not zero.** -/
theorem selectAlike_iff (hsame : SameNotes w p)
    (hvalues : ∀ n ∈ PythonWallet.unspentNotes p, 0 ≤ n.value) (htarget : 0 ≤ target) :
    SelectAlike w p target ↔ target ≠ 0 := by
  constructor
  · rintro h rfl
    exact not_selectAlike_of_zero w hvalues h
  · intro hzero
    have hpos : 0 < target := lt_of_le_of_ne htarget hzero.symm
    obtain ⟨hraises, hnotes⟩ := @selectNotes_of_pos p target hpos
    obtain ⟨hitems, htotal⟩ := @SameNotes.loop_eq w p target hsame
    have hnonneg : ∀ n ∈ NoteWallet.getUnspentNotes w, 0 ≤ n.value := by
      have hall : ∀ v ∈ (PythonWallet.unspentNotes p).map Note.value, 0 ≤ v :=
        List.forall_mem_map.mpr hvalues
      rw [← hsame.map_value_unspent] at hall
      exact List.forall_mem_map.mp hall
    have hthrows : (∃ e, NoteWallet.selectNotesForSpend target w = .error e)
        ↔ (loop target p).2 < target := by
      rw [NoteWallet.selectNotesForSpend_error_iff_loop, htotal]
    exact {
      raises_iff := hraises.trans hthrows.symm
      throws_iff := NoteWallet.selectNotesForSpend_error_iff hnonneg
      same_values := fun selected change notes hselected hn => by
        obtain ⟨-, rfl, -⟩ := NoteWallet.selectNotesForSpend_eq_ok_iff.mp hselected
        rw [hitems, hnotes notes hn] }

/-- A Python wallet with notes of the values 3 and 5. -/
def twoNotes : PythonWallet.Wallet where
  spendingKey := []
  chainId := 43113
  appId := 1
  notes := [⟨[1], 3, [], [], none, false⟩, ⟨[3], 5, [], [], none, false⟩]

/-- A TypeScript wallet with the same notes. -/
def sameTwoNotes : NoteWallet.Wallet where
  spendingKey := []
  chainKey := []
  notes := ⟨[⟨1, 1, 0, 3, [], [], [], false, none, 0, none⟩,
      ⟨3, 3, 2, 5, [], [], [], false, none, 0, none⟩], by decide⟩

/-- They select alike for 6. -/
theorem selectAlike_iff_six :
    SameNotes sameTwoNotes twoNotes ∧ SelectAlike sameTwoNotes twoNotes 6 := by
  have hsame : SameNotes sameTwoNotes twoNotes := rfl
  exact ⟨hsame, (selectAlike_iff hsame (by decide) (by decide)).mpr (by decide)⟩

/-- **For zero they do not**: with notes, the Python wallet selects one that the
other does not select, and without notes it raises and the other does not
throw. -/
theorem not_selectAlike_zero :
    SameNotes sameTwoNotes twoNotes
      ∧ NoteWallet.selectNotesForSpend 0 sameTwoNotes = .ok ([], 0)
      ∧ ¬ SelectAlike sameTwoNotes twoNotes 0
      ∧ ¬ SelectAlike (NoteWallet.construct [] []) (PythonWallet.init [] 43113 1) 0 := by
  exact ⟨rfl, selectNotesForSpend_zero _, not_selectAlike_of_zero _ (by decide),
    not_selectAlike_of_zero _ (by decide)⟩

end NoteSelection
