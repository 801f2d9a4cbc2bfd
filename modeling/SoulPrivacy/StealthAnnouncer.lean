import SoulPrivacy.Run
import SoulPrivacy.StealthAddress

/-!
# The stealth announcer (`StealthAnnouncer.sol`)

Senders append announcements to a list, and a recipient scans the list for its own. It
is read in pages, and the list may grow between two of them. A page that reaches beyond
the end is cut off there, and one that starts beyond the end is refused.

So a recipient that asks for each page from the end of the last one need not know how
long the list is: whatever was published in between and however long the pages are, they
are one after the other a first part of the list, no announcement missed or read twice,
and a page that is shorter than asked for ends with the list (`pages_of_run`). What the
SDK finds page by page is what it would have found in all of them at once, because its
scan looks at one announcement at a time.

The record of the SDK is that of the contract. Gas and memory are left out.
-/

namespace StealthAnnouncer

open StealthAddress (StealthAnnouncement ScanResult scanAnnouncement scanAnnouncementBatch)

/-- **The storage of the announcer.** -/
structure Storage where
  announcements : List StealthAnnouncement
  metaAddresses : Address → StealthMetaAddress
  hasMetaAddress : Address → Bool
  latestAnnouncementIndex : Address → ℕ

/-- The errors of the announcer. -/
inductive Error where
  /-- `"Invalid spend parity"`. -/
  | invalidSpendParity
  /-- `"Invalid view parity"`. -/
  | invalidViewParity
  /-- `"No meta-address registered"`. -/
  | noMetaAddress
  /-- A panic of the arithmetic, of an index or of an array that is too long. -/
  | panic
  deriving DecidableEq

/-- The events of the announcer. -/
inductive Event where
  | metaAddressRegistered (registrant : Address) (spendPubKeyX viewPubKeyX : Bytes32)
  | announcementPublished (index : ℕ) (stealthAddress : Address) (ephemeralPubKeyX : Bytes32)
      (viewTag : BitVec 8)
  | stealthAnnouncement (stealthAddress : Address) (ephemeralPubKeyX : Bytes32)
      (ephemeralPubKeyParity viewTag : BitVec 8) (metadata : Bytes)

/-- The storage of a contract that was just deployed. -/
def deployed : Storage where
  announcements := []
  metaAddresses := fun _ => ⟨0, 0, 0, 0⟩
  hasMetaAddress := fun _ => false
  latestAnnouncementIndex := fun _ => 0

/-- `registerMetaAddress`. -/
def registerMetaAddress (sender : Address) (spendPubKeyX : Bytes32)
    (spendPubKeyParity : BitVec 8) (viewPubKeyX : Bytes32) (viewPubKeyParity : BitVec 8)
    (s : Storage) : Except Error (Storage × List Event) := do
  revertIf (¬ (spendPubKeyParity = 27 ∨ spendPubKeyParity = 28)) .invalidSpendParity
  revertIf (¬ (viewPubKeyParity = 27 ∨ viewPubKeyParity = 28)) .invalidViewParity
  .ok ({ s with
      metaAddresses := Function.update s.metaAddresses sender
        ⟨spendPubKeyX, spendPubKeyParity, viewPubKeyX, viewPubKeyParity⟩
      hasMetaAddress := Function.update s.hasMetaAddress sender true },
    [.metaAddressRegistered sender spendPubKeyX viewPubKeyX])

/-- `publishAnnouncement`. A list of 2^64 entries takes no more. -/
def publishAnnouncement (ann : StealthAnnouncement) (metadata : Bytes) (s : Storage) :
    Except Error (Storage × List Event) := do
  let idx := s.announcements.length
  revertIf (2 ^ 64 ≤ idx) .panic
  .ok ({ s with
      announcements := s.announcements ++ [ann]
      latestAnnouncementIndex :=
        Function.update s.latestAnnouncementIndex ann.stealthAddress idx },
    [.announcementPublished idx ann.stealthAddress ann.ephemeralPubKeyX ann.viewTag,
      .stealthAnnouncement ann.stealthAddress ann.ephemeralPubKeyX ann.ephemeralPubKeyParity
        ann.viewTag metadata])

/-- `getAnnouncements`. -/
def getAnnouncements (fromIndex count : Uint256) (s : Storage) :
    Except Error (List StealthAnnouncement) := do
  let sum ← checkedAdd .panic fromIndex count
  let stop := if s.announcements.length < sum.toNat then s.announcements.length else sum.toNat
  revertIf (stop < fromIndex.toNat) .panic
  (List.range (stop - fromIndex.toNat)).mapM
    (fun i => orRevert .panic s.announcements[fromIndex.toNat + i]?)

/-- `getMetaAddress`. -/
def getMetaAddress (recipient : Address) (s : Storage) : Except Error StealthMetaAddress := do
  revertIf (s.hasMetaAddress recipient = false) .noMetaAddress
  .ok (s.metaAddresses recipient)

/-- The entry points that write. -/
inductive Entry where
  | registerMetaAddress (spendPubKeyX : Bytes32) (spendPubKeyParity : BitVec 8)
      (viewPubKeyX : Bytes32) (viewPubKeyParity : BitVec 8)
  | publishAnnouncement (ann : StealthAnnouncement) (metadata : Bytes)

/-- A call. -/
structure Call where
  sender : Address
  entry : Entry

/-- The entry point of a call. -/
def exec (c : Call) (s : Storage) : Except Error (Storage × List Event) :=
  match c.entry with
  | .registerMetaAddress spendPubKeyX spendPubKeyParity viewPubKeyX viewPubKeyParity =>
    registerMetaAddress c.sender spendPubKeyX spendPubKeyParity viewPubKeyX viewPubKeyParity s
  | .publishAnnouncement ann metadata => publishAnnouncement ann metadata s

/-- A call as a step of the machine. -/
def step (c : Call) (s : Storage) : Except Error Storage := (exec c s).map Prod.fst

variable {s s' : Storage} {c : Call} {tr : List (Storage × Call)}

/-! ## What is published -/

/-- The announcement that a call publishes, if any. -/
def Entry.published : Entry → List StealthAnnouncement
  | .registerMetaAddress _ _ _ _ => []
  | .publishAnnouncement ann _ => [ann]

/-- **What a run has published.** -/
def published (tr : List (Storage × Call)) : List StealthAnnouncement :=
  tr.flatMap (fun p => p.2.entry.published)

/-- **What a call does to the list**: it leaves it and its index alone, or it appends
one announcement. -/
theorem step_cases (h : step c s = .ok s') :
    (c.entry.published = [] ∧ s'.announcements = s.announcements
      ∧ s'.latestAnnouncementIndex = s.latestAnnouncementIndex) ∨
    ∃ ann, c.entry.published = [ann] ∧ s'.announcements = s.announcements ++ [ann]
      ∧ s'.latestAnnouncementIndex = Function.update s.latestAnnouncementIndex
        ann.stealthAddress s.announcements.length := by
  obtain ⟨⟨_, events⟩, hexec, rfl⟩ := Except.map_eq_ok.mp h
  obtain ⟨sender, entry⟩ := c
  cases entry with
  | registerMetaAddress spendPubKeyX spendPubKeyParity viewPubKeyX viewPubKeyParity =>
    obtain ⟨-, hexec⟩ := (revertIf_bind_eq_ok _ _ _ _).mp hexec
    obtain ⟨-, hexec⟩ := (revertIf_bind_eq_ok _ _ _ _).mp hexec
    cases hexec
    exact .inl ⟨rfl, rfl, rfl⟩
  | publishAnnouncement ann metadata =>
    obtain ⟨-, hexec⟩ := (revertIf_bind_eq_ok _ _ _ _).mp hexec
    cases hexec
    exact .inr ⟨ann, rfl, rfl, rfl⟩

theorem announcements_of_step (h : step c s = .ok s') :
    s'.announcements = s.announcements ++ c.entry.published := by
  obtain ⟨hnone, hsame, -⟩ | ⟨ann, hone, happend, -⟩ := step_cases h
  · rw [hnone, List.append_nil, hsame]
  · rw [hone, happend]

/-- **The index of an address** is the place of the last announcement to it. -/
def Indexed (s : Storage) : Prop :=
  ∀ i ann, s.announcements[i]? = some ann →
    i ≤ s.latestAnnouncementIndex ann.stealthAddress
      ∧ ∃ last, s.announcements[s.latestAnnouncementIndex ann.stealthAddress]? = some last
        ∧ last.stealthAddress = ann.stealthAddress

theorem indexed_deployed : Indexed deployed := by
  intro i ann hann
  have hnone : deployed.announcements[i]? = none := List.getElem?_nil
  rw [hnone] at hann
  cases hann

theorem Indexed.step (hi : Indexed s) (h : step c s = .ok s') : Indexed s' := by
  intro i ann hann
  obtain ⟨-, hsame, hindex⟩ | ⟨new, -, happend, hindex⟩ := step_cases h
  · rw [hsame] at hann ⊢
    rw [hindex]
    exact hi i ann hann
  · have hnew : (s.announcements ++ [new])[s.announcements.length]? = some new :=
      List.getElem?_concat_length
    have hlt : i < (s.announcements ++ [new]).length :=
      (List.getElem?_eq_some_iff.mp (happend ▸ hann)).1
    rw [List.length_append, List.length_singleton] at hlt
    rw [happend] at hann ⊢
    rw [hindex]
    by_cases haddr : ann.stealthAddress = new.stealthAddress
    · rw [haddr, Function.update_self]
      exact ⟨Nat.lt_succ_iff.mp hlt, new, hnew, rfl⟩
    · rw [Function.update_of_ne haddr]
      -- the announcement is not the new one, so it was in the list
      have hold : i < s.announcements.length := by
        refine lt_of_le_of_ne (Nat.lt_succ_iff.mp hlt) ?_
        rintro rfl
        rw [hnew] at hann
        exact haddr (congrArg _ (Option.some.inj hann)).symm
      rw [List.getElem?_append_left hold] at hann
      obtain ⟨hle, last, hlast, heq⟩ := hi i ann hann
      refine ⟨hle, last, ?_, heq⟩
      rw [List.getElem?_append_left (List.getElem?_eq_some_iff.mp hlast).1, hlast]

/-- **In every run the list is what was published**, in the order of the calls, and
every address has the index of the last announcement to it. -/
theorem announcements_of_run (h : Run step (fun _ _ => True) deployed tr s) :
    s.announcements = published tr ∧ Indexed s := by
  refine h.invariant (I := fun tr s => s.announcements = published tr ∧ Indexed s)
    ⟨rfl, indexed_deployed⟩ ?_
  rintro tr s c s' ⟨hlist, hindexed⟩ - hstep
  refine ⟨?_, hindexed.step hstep⟩
  rw [announcements_of_step hstep, hlist]
  unfold published
  rw [List.flatMap_append, List.flatMap_singleton]

/-! ## Meta-addresses -/

/-- The parity of a compressed key. -/
def IsParity (b : BitVec 8) : Prop := b = 27 ∨ b = 28

/-- **A meta-address that is given out** has the parities of compressed keys, in every
run. -/
theorem parities_of_run (h : Run step (fun _ _ => True) deployed tr s) {recipient : Address}
    {m : StealthMetaAddress} (hm : getMetaAddress recipient s = .ok m) :
    IsParity m.spendPubKeyParity ∧ IsParity m.viewPubKeyParity := by
  have hall : ∀ a, s.hasMetaAddress a = true → IsParity (s.metaAddresses a).spendPubKeyParity
      ∧ IsParity (s.metaAddresses a).viewPubKeyParity := by
    refine h.invariant (I := fun _ s => ∀ a, s.hasMetaAddress a = true →
      IsParity (s.metaAddresses a).spendPubKeyParity
        ∧ IsParity (s.metaAddresses a).viewPubKeyParity) nofun ?_
    rintro tr s ⟨sender, entry⟩ s' ih - hstep a
    obtain ⟨⟨_, events⟩, hexec, rfl⟩ := Except.map_eq_ok.mp hstep
    cases entry with
    | publishAnnouncement ann metadata =>
      obtain ⟨-, hexec⟩ := (revertIf_bind_eq_ok _ _ _ _).mp hexec
      cases hexec
      exact ih a
    | registerMetaAddress spendPubKeyX spendPubKeyParity viewPubKeyX viewPubKeyParity =>
      obtain ⟨hspend, hexec⟩ := (revertIf_bind_eq_ok _ _ _ _).mp hexec
      obtain ⟨hview, hexec⟩ := (revertIf_bind_eq_ok _ _ _ _).mp hexec
      cases hexec
      dsimp only
      by_cases ha : a = sender
      · subst ha
        rw [Function.update_self, Function.update_self]
        exact fun _ => ⟨not_not.mp hspend, not_not.mp hview⟩
      · rw [Function.update_of_ne ha, Function.update_of_ne ha]
        exact ih a
  obtain ⟨hhas, hm⟩ := (revertIf_bind_eq_ok _ _ _ _).mp hm
  cases hm
  exact hall recipient (Bool.eq_true_of_not_eq_false hhas)

/-! ## Pages -/

/-- The loop of a page, where it stays inside the list. -/
theorem mapM_range_getElem {anns : List StealthAnnouncement} {start len : ℕ}
    (h : start + len ≤ anns.length) :
    (List.range len).mapM (fun i => orRevert Error.panic anns[start + i]?)
      = .ok ((anns.drop start).take len) := by
  induction len with
  | zero => rfl
  | succ len ih =>
    have hlt : start + len < anns.length := h
    rw [List.range_succ, List.mapM_append, ih hlt.le, List.mapM_cons, List.mapM_nil,
      List.getElem?_eq_getElem hlt, List.take_add_one, List.getElem?_drop,
      List.getElem?_eq_getElem hlt]
    rfl

/-- **A page** is a part of the list, cut off at its end. It is refused only where the
sum of the arguments overflows or the list ends before the page starts. -/
theorem getAnnouncements_eq_ok {fromIndex count : Uint256} {page : List StealthAnnouncement} :
    getAnnouncements fromIndex count s = .ok page
      ↔ fromIndex.toNat + count.toNat < 2 ^ 256 ∧ fromIndex.toNat ≤ s.announcements.length
        ∧ page = (s.announcements.drop fromIndex.toNat).take count.toNat := by
  unfold getAnnouncements
  rw [Except.bind_eq_ok]
  by_cases hsum : fromIndex.toNat + count.toNat < 2 ^ 256
  · have hadd : checkedAdd Error.panic fromIndex count = .ok (fromIndex + count) := if_pos hsum
    rw [hadd]
    have hnat : (fromIndex + count).toNat = fromIndex.toNat + count.toNat :=
      toNat_of_checkedAdd hadd
    simp only [Except.ok.injEq, exists_eq_left', hnat, revertIf_bind_eq_ok, not_lt, hsum,
      true_and]
    by_cases hlong : s.announcements.length < fromIndex.toNat + count.toNat
    · rw [if_pos hlong]
      refine and_congr_right (fun hle => ?_)
      rw [mapM_range_getElem (Nat.add_sub_of_le hle).le, Except.ok.injEq,
        List.take_of_length_le (List.length_drop ▸ le_rfl),
        List.take_of_length_le (by rw [List.length_drop]; omega)]
      exact eq_comm
    · rw [if_neg hlong, Nat.add_sub_cancel_left]
      have hfits := not_lt.mp hlong
      rw [mapM_range_getElem hfits, Except.ok.injEq]
      refine and_congr (iff_of_true (Nat.le_add_right _ _) ?_) eq_comm
      exact (Nat.le_add_right _ _).trans hfits
  · have hadd : checkedAdd Error.panic fromIndex count = .error .panic := if_neg hsum
    rw [hadd]
    exact iff_of_false (by rintro ⟨_, hok, -⟩; cases hok) (fun h => hsum h.1)

/-! ## Reading the list -/

/-- **A run with a reader**, who asks for each page from the end of the one before: the
calls, the storage, and the pages so far. -/
inductive Reading :
    List (Storage × Call) → Storage → List (List StealthAnnouncement) → Prop
  | start : Reading [] deployed []
  | call {tr : List (Storage × Call)} {s s' : Storage} {c : Call}
      {pages : List (List StealthAnnouncement)} :
      Reading tr s pages → step c s = .ok s' → Reading (tr ++ [(s, c)]) s' pages
  | page {tr : List (Storage × Call)} {s : Storage} {pages : List (List StealthAnnouncement)}
      {fromIndex count : Uint256} {page : List StealthAnnouncement} :
      Reading tr s pages → fromIndex.toNat = pages.flatten.length →
        getAnnouncements fromIndex count s = .ok page → Reading tr s (pages ++ [page])

variable {pages : List (List StealthAnnouncement)}

/-- The reader changes nothing. -/
theorem Reading.run (h : Reading tr s pages) : Run step (fun _ _ => True) deployed tr s := by
  induction h with
  | start => exact .nil
  | call _ hstep ih => exact ih.snoc trivial hstep
  | page _ _ _ ih => exact ih

/-- One more page from the end of a first part. -/
theorem append_take_drop {anns pre : List StealthAnnouncement} (h : pre <+: anns) (n : ℕ) :
    pre ++ (anns.drop pre.length).take n = anns.take (pre.length + n) := by
  obtain ⟨rest, rfl⟩ := h
  rw [List.drop_left, List.take_length_add_append]

/-- **The pages are a first part of the list.** -/
theorem Reading.isPrefix (h : Reading tr s pages) : pages.flatten <+: s.announcements := by
  induction h with
  | start => exact List.nil_prefix
  | call _ hstep ih =>
    rw [announcements_of_step hstep]
    exact ih.trans (List.prefix_append _ _)
  | @page tr s pages fromIndex count page _ hfrom hpage ih =>
    obtain ⟨-, -, rfl⟩ := getAnnouncements_eq_ok.mp hpage
    rw [List.flatten_append, List.flatten_singleton, hfrom, append_take_drop ih]
    exact List.take_prefix _ _

/-- **The scan looks at one announcement at a time.** -/
theorem scanAnnouncementBatch_flatten (keccak256 : Bytes → Bytes32)
    (pages : List (List StealthAnnouncement)) (viewPrivateKey : Bytes32)
    (spendMeta : StealthMetaAddress) :
    scanAnnouncementBatch keccak256 pages.flatten viewPrivateKey spendMeta
      = pages.flatMap (fun page =>
        scanAnnouncementBatch keccak256 page viewPrivateKey spendMeta) := by
  unfold scanAnnouncementBatch
  rw [List.map_flatten, List.filter_flatten, List.map_map, List.flatMap_def]
  rfl

/-- **A recipient reads all that was published**, whatever is published between the pages
and however long they are: each once and in order, and a page that is shorter than
asked for is the last one. The scans of the pages find what a scan of it all would. -/
theorem pages_of_run (h : Reading tr s pages) :
    pages.flatten <+: published tr
      ∧ (∀ keccak256 viewPrivateKey spendMeta,
        pages.flatMap (fun page =>
            scanAnnouncementBatch keccak256 page viewPrivateKey spendMeta)
          = scanAnnouncementBatch keccak256 ((published tr).take pages.flatten.length)
            viewPrivateKey spendMeta)
      ∧ ∀ fromIndex count : Uint256, fromIndex.toNat = pages.flatten.length →
        fromIndex.toNat + count.toNat < 2 ^ 256 →
        ∃ page, getAnnouncements fromIndex count s = .ok page
          ∧ pages.flatten ++ page = (published tr).take (pages.flatten.length + count.toNat)
          ∧ (page.length < count.toNat → pages.flatten ++ page = published tr) := by
  obtain ⟨hlist, -⟩ := announcements_of_run h.run
  have hfirst := h.isPrefix
  rw [hlist] at hfirst
  refine ⟨hfirst, fun keccak256 viewPrivateKey spendMeta => ?_, fun start count hstart hsum => ?_⟩
  · rw [← scanAnnouncementBatch_flatten, ← List.prefix_iff_eq_take.mp hfirst]
  · have hpage : getAnnouncements start count s
        = .ok (((published tr).drop pages.flatten.length).take count.toNat) := by
      rw [← hstart, ← hlist]
      exact getAnnouncements_eq_ok.mpr ⟨hsum, hstart ▸ h.isPrefix.length_le, rfl⟩
    refine ⟨_, hpage, append_take_drop hfirst count.toNat, fun hshort => ?_⟩
    rw [append_take_drop hfirst]
    refine List.take_of_length_le ?_
    rw [List.length_take, List.length_drop] at hshort
    omega

/-- An announcement to an address. -/
def sampleTo (stealthAddress : Address) : StealthAnnouncement := ⟨1, 27, stealthAddress, 0⟩

/-- An announcement to a list that has room goes through. -/
theorem step_publish (sender : Address) {ann : StealthAnnouncement} (metadata : Bytes)
    (h : s.announcements.length < 2 ^ 64) :
    step ⟨sender, .publishAnnouncement ann metadata⟩ s
      = .ok { s with
          announcements := s.announcements ++ [ann]
          latestAnnouncementIndex := Function.update s.latestAnnouncementIndex
            ann.stealthAddress s.announcements.length } := by
  unfold step exec publishAnnouncement
  dsimp only
  rw [revertIf_bind_of_neg (not_le.mpr h)]
  rfl

/-- Two announcements, each read while it was the last one. A third page is empty. -/
theorem pages_of_run_two :
    ∃ tr s, Reading tr s [[sampleTo 5], [sampleTo 6]]
      ∧ published tr = [sampleTo 5, sampleTo 6] ∧ getAnnouncements 2 10 s = .ok [] := by
  have hone := @Reading.page _ _ _ 0 10 [sampleTo 5]
    (Reading.start.call (step_publish 1 [] (by decide))) rfl
    (getAnnouncements_eq_ok.mpr ⟨by decide, Nat.zero_le _, rfl⟩)
  have htwo := @Reading.page _ _ _ 1 10 [sampleTo 6]
    (hone.call (step_publish 2 [] (by decide))) rfl
    (getAnnouncements_eq_ok.mpr ⟨by decide, by decide, rfl⟩)
  obtain ⟨-, -, hnext⟩ := pages_of_run htwo
  obtain ⟨page, hpage, hall, -⟩ := hnext 2 10 rfl (by decide)
  have hnone : [sampleTo 5, sampleTo 6] ++ page = [sampleTo 5, sampleTo 6] ++ [] := hall
  cases List.append_cancel_left hnone
  exact ⟨_, _, htwo, rfl, hpage⟩

end StealthAnnouncer
