import SoulPrivacy.EpochLists

/-!
# The roots of remote epochs

Bridges deliver the roots of the epochs of other chains, in any order and more
than once. The manager keeps one root for each source chain and epoch, and takes
the last one it is given: nothing compares a delivery with the root that is there.

A root that is there stays through everything but a delivery under its key
(`RemoteEffect`). So the roots of a run are written once exactly when no two of
its deliveries under one key carry different roots (`writeOnce_iff`).
-/

namespace EpochManager

variable (H : Hashes)

/-! ## Deliveries -/

/-- What a call delivers: a key and a root. -/
def delivers (p : Storage × Call) : List (Bytes32 × Bytes32) :=
  match p.2.entry with
  | .receiveRemoteEpochRoot sourceChainId epochId nullifierRoot =>
      [(remoteKey H sourceChainId epochId, nullifierRoot)]
  | _ => []

/-- **The deliveries of a trace**, in order. -/
def delivered (tr : List (Storage × Call)) : List (Bytes32 × Bytes32) :=
  tr.flatMap (delivers H)

theorem delivered_snoc (tr : List (Storage × Call)) (p : Storage × Call) :
    delivered H (tr ++ [p]) = delivered H tr ++ delivers H p := by
  rw [delivered, List.flatMap_append, List.flatMap_singleton]
  rfl

/-- **What a call does to the remote roots**: a delivery writes one, and nothing
else touches them. -/
inductive RemoteEffect (c : Call) (s s' : Storage) : Prop
  | deliver {sourceChainId epochId : Uint256} {nullifierRoot : Bytes32}
      (entry_eq : c.entry = .receiveRemoteEpochRoot sourceChainId epochId nullifierRoot)
      (auth : s.authorizedBridges c.sender = true) (root_ne : nullifierRoot ≠ 0)
      (roots : s'.remoteRoots = Function.update s.remoteRoots
        (remoteKey H sourceChainId epochId)
        ⟨sourceChainId, epochId, nullifierRoot, c.timestamp⟩)
  | other (entry_ne : ∀ sourceChainId epochId nullifierRoot,
        c.entry ≠ .receiveRemoteEpochRoot sourceChainId epochId nullifierRoot)
      (roots : s'.remoteRoots = s.remoteRoots)

variable {H}

/-- **What a successful call did to them.** -/
theorem step_remoteEffect {c : Call} {s s' : Storage} (h : step H c s = .ok s') :
    RemoteEffect H c s s' := by
  obtain ⟨r, hr, rfl⟩ := Except.map_eq_ok.mp h
  obtain ⟨sender, timestamp, entry⟩ := c
  unfold exec at hr
  cases entry <;> dsimp only at hr
  case startNewEpoch =>
    rw [startNewEpoch_frame hr]
    exact .other nofun rfl
  case finalizeEpoch =>
    obtain ⟨-, hs⟩ := finalizeEpochInternal_eq_ok hr
    exact .other nofun (by rw [hs])
  case registerNullifier nullifier =>
    obtain ⟨-, hr⟩ := (Except.unit_bind_eq_ok _ _ _).mp hr
    cases hr
    exact .other nofun rfl
  case receiveRemoteEpochRoot sourceChainId epochId nullifierRoot =>
    obtain ⟨hauth, hr⟩ := (Except.unit_bind_eq_ok _ _ _).mp hr
    obtain ⟨hne, hr⟩ := (revertIf_bind_eq_ok _ _ _ _).mp hr
    cases hr
    exact .deliver rfl (Bool.eq_true_of_not_eq_false ((revertIf_eq_ok _ _ _).mp hauth)) hne rfl
  all_goals
    rw [governed_eq_ok hr]
    exact .other nofun rfl

/-! ## Runs -/

/-- The root under a key. -/
def Storage.rootAt (s : Storage) (key : Bytes32) : Bytes32 := (s.remoteRoots key).nullifierRoot

/-- The root that is read is the one under its key. -/
theorem getRemoteEpochRoot_eq (s : Storage) (sourceChainId epochId : Uint256) :
    getRemoteEpochRoot H s sourceChainId epochId = s.rootAt (remoteKey H sourceChainId epochId) :=
  rfl

/-- A call that delivers nothing leaves the roots as they are. -/
theorem RemoteEffect.rootAt_other {c : Call} {s s' : Storage} (h : RemoteEffect H c s s')
    {key : Bytes32} (hkey : ∀ root, (key, root) ∉ delivers H (s, c)) :
    s'.rootAt key = s.rootAt key := by
  cases h with
  | @deliver sourceChainId epochId nullifierRoot entry_eq _ _ roots =>
    have hne : key ≠ remoteKey H sourceChainId epochId := by
      rintro rfl
      refine hkey nullifierRoot ?_
      rw [delivers, entry_eq]
      exact List.mem_singleton_self _
    rw [Storage.rootAt, roots, Function.update_of_ne hne]
    rfl
  | other _ roots => rw [Storage.rootAt, roots, Storage.rootAt]

/-- A delivery leaves its root. -/
theorem RemoteEffect.rootAt_delivered {c : Call} {s s' : Storage} (h : RemoteEffect H c s s')
    {key root : Bytes32} (hmem : (key, root) ∈ delivers H (s, c)) :
    s'.rootAt key = root ∧ root ≠ 0 := by
  cases h with
  | deliver entry_eq _ root_ne roots =>
    rw [delivers, entry_eq] at hmem
    cases List.mem_singleton.mp hmem
    rw [Storage.rootAt, roots, Function.update_self]
    exact ⟨rfl, root_ne⟩
  | other entry_ne =>
    unfold delivers at hmem
    split at hmem
    · rename_i heq
      exact absurd heq (entry_ne _ _ _)
    · exact absurd hmem List.not_mem_nil

/-- A call delivers once at most. -/
theorem eq_of_mem_delivers {p : Storage × Call} {d d' : Bytes32 × Bytes32}
    (h : d ∈ delivers H p) (h' : d' ∈ delivers H p) : d = d' := by
  unfold delivers at h h'
  split at h
  · rename_i heq
    rw [heq] at h'
    rw [List.mem_singleton.mp h, List.mem_singleton.mp h']
  · exact absurd h List.not_mem_nil

/-- What is delivered is for some source chain and epoch. -/
theorem exists_remoteKey {p : Storage × Call} {d : Bytes32 × Bytes32} (h : d ∈ delivers H p) :
    ∃ sourceChainId epochId, d.1 = remoteKey H sourceChainId epochId := by
  unfold delivers at h
  split at h
  · rename_i sourceChainId epochId nullifierRoot heq
    rw [List.mem_singleton.mp h]
    exact ⟨sourceChainId, epochId, rfl⟩
  · exact absurd h List.not_mem_nil

variable (H) in
/-- **The invariant of the remote roots**: what is there was delivered, and there
is something under each key of a delivery. -/
structure Remembers (tr : List (Storage × Call)) (s : Storage) : Prop where
  source : ∀ key, s.rootAt key ≠ 0 → (key, s.rootAt key) ∈ delivered H tr
  kept : ∀ d ∈ delivered H tr, s.rootAt d.1 ≠ 0

theorem Remembers.init {s : Storage} (h : Deployed s) : Remembers H [] s := by
  obtain ⟨sender, timestamp, epochDuration, domainChainId, h⟩ := h
  unfold construct at h
  obtain ⟨epoch, -, h⟩ := (Except.bind_eq_ok _ _ _).mp h
  cases h
  exact ⟨fun key hne => absurd rfl hne, fun d hd => absurd hd List.not_mem_nil⟩

/-- **A call keeps the invariant.** -/
theorem Remembers.step {tr : List (Storage × Call)} {s s' : Storage} {c : Call}
    (h : Remembers H tr s) (heff : RemoteEffect H c s s') : Remembers H (tr ++ [(s, c)]) s' := by
  refine ⟨fun key hne => ?_, fun d hd => ?_⟩
  · rw [delivered_snoc, List.mem_append]
    by_cases hkey : ∃ root, (key, root) ∈ delivers H (s, c)
    · obtain ⟨root, hroot⟩ := hkey
      rw [(heff.rootAt_delivered hroot).1]
      exact Or.inr hroot
    · have hsame := heff.rootAt_other (not_exists.mp hkey)
      rw [hsame] at hne ⊢
      exact Or.inl (h.source key hne)
  · rw [delivered_snoc, List.mem_append] at hd
    by_cases hkey : ∃ root, (d.1, root) ∈ delivers H (s, c)
    · obtain ⟨root, hroot⟩ := hkey
      rw [(heff.rootAt_delivered hroot).1]
      exact (heff.rootAt_delivered hroot).2
    · rw [heff.rootAt_other (not_exists.mp hkey)]
      exact h.kept d (hd.resolve_right (fun hd => hkey ⟨d.2, hd⟩))

/-! ## Roots that are written once -/

variable (H)

/-- **No recorded root has changed**: what was read at an earlier state of the run
for a source chain and an epoch, and was not zero, is read now. -/
def WriteOnce (tr : List (Storage × Call)) (s : Storage) : Prop :=
  ∀ p ∈ tr, ∀ sourceChainId epochId, getRemoteEpochRoot H p.1 sourceChainId epochId ≠ 0 →
    getRemoteEpochRoot H s sourceChainId epochId
      = getRemoteEpochRoot H p.1 sourceChainId epochId

/-- **The deliveries agree**: those under one key carry the same root. -/
def DeliveriesAgree (tr : List (Storage × Call)) : Prop :=
  ∀ d ∈ delivered H tr, ∀ d' ∈ delivered H tr, d.1 = d'.1 → d.2 = d'.2

/-- A call delivers nothing, or what is there already, or what is new. -/
def Confirms (s : Storage) (c : Call) : Prop :=
  ∀ d ∈ delivers H (s, c), s.rootAt d.1 ≠ 0 → s.rootAt d.1 = d.2

variable {H}

/-- **The first delivery that does not confirm a root changes it.** -/
theorem writeOnce_snoc {tr : List (Storage × Call)} {s s' : Storage} {c : Call}
    (h : WriteOnce H tr s) (heff : RemoteEffect H c s s') :
    WriteOnce H (tr ++ [(s, c)]) s' ↔ Confirms H s c := by
  constructor
  · intro h' d hd hne
    obtain ⟨sourceChainId, epochId, hkey⟩ := exists_remoteKey hd
    have hroot : s'.rootAt d.1 = d.2 := (heff.rootAt_delivered hd).1
    rw [hkey] at hne hroot ⊢
    have hsame := h' (s, c) (List.mem_append_right _ (List.mem_singleton_self _)) _ _ hne
    exact hsame.symm.trans hroot
  · intro hconfirms p hp sourceChainId epochId hne
    have hs : getRemoteEpochRoot H s sourceChainId epochId
        = getRemoteEpochRoot H p.1 sourceChainId epochId := by
      rcases List.mem_append.mp hp with hp | hp
      · exact h p hp sourceChainId epochId hne
      · rw [List.mem_singleton.mp hp]
    rw [← hs] at hne ⊢
    rw [getRemoteEpochRoot_eq] at hne ⊢
    rw [getRemoteEpochRoot_eq]
    by_cases hkey : ∃ root, (remoteKey H sourceChainId epochId, root) ∈ delivers H (s, c)
    · obtain ⟨root, hroot⟩ := hkey
      rw [(heff.rootAt_delivered hroot).1]
      exact (hconfirms _ hroot hne).symm
    · exact heff.rootAt_other (not_exists.mp hkey)

/-- One more call agrees with the deliveries before when it confirms what they
left. -/
theorem deliveriesAgree_snoc {tr : List (Storage × Call)} {s : Storage}
    (hs : Remembers H tr s) (c : Call) :
    DeliveriesAgree H (tr ++ [(s, c)]) ↔ DeliveriesAgree H tr ∧ Confirms H s c := by
  unfold DeliveriesAgree
  rw [delivered_snoc]
  constructor
  · intro h
    refine ⟨fun d hd d' hd' => ?_, fun d hd hne => ?_⟩
    · exact h d (List.mem_append_left _ hd) d' (List.mem_append_left _ hd')
    · exact h _ (List.mem_append_left _ (hs.source d.1 hne)) d (List.mem_append_right _ hd) rfl
  · rintro ⟨hold, hconfirms⟩
    -- an old delivery and a new one agree with what is there
    have hboth : ∀ d ∈ delivered H tr, ∀ d' ∈ delivers H (s, c), d.1 = d'.1 → d.2 = d'.2 := by
      intro d hd d' hd' heq
      have hne := hs.kept d hd
      have hthere : s.rootAt d.1 = d.2 := hold _ (hs.source d.1 hne) d hd rfl
      rw [heq] at hne hthere
      exact hthere.symm.trans (hconfirms d' hd' hne)
    intro d hd d' hd' heq
    rcases List.mem_append.mp hd with hd | hd
    · rcases List.mem_append.mp hd' with hd' | hd'
      · exact hold d hd d' hd' heq
      · exact hboth d hd d' hd' heq
    · rcases List.mem_append.mp hd' with hd' | hd'
      · exact (hboth d' hd' d hd heq.symm).symm
      · rw [eq_of_mem_delivers hd hd']

/-- **The invariant, along a run**, and what it makes of the deliveries. -/
theorem remembers_of_run {s₀ : Storage} (hdeployed : Deployed s₀) {tr : List (Storage × Call)}
    {s : Storage} (hrun : Run (step H) (fun _ _ => True) s₀ tr s) :
    Remembers H tr s ∧ (DeliveriesAgree H tr ↔ ∀ p ∈ tr, Confirms H p.1 p.2) := by
  refine hrun.invariant (I := fun tr s =>
    Remembers H tr s ∧ (DeliveriesAgree H tr ↔ ∀ p ∈ tr, Confirms H p.1 p.2)) ?_ ?_
  · exact ⟨Remembers.init hdeployed, iff_of_true (fun d hd => absurd hd List.not_mem_nil)
      (fun p hp => absurd hp List.not_mem_nil)⟩
  · rintro tr s c s' ⟨hs, hagree⟩ - hstep
    refine ⟨hs.step (step_remoteEffect hstep), ?_⟩
    rw [deliveriesAgree_snoc hs, hagree, List.forall_mem_append, List.forall_mem_singleton]

/-- **The roots of remote epochs are written once**, throughout a run with any
bridges, exactly when its deliveries agree. -/
theorem writeOnce_iff {s₀ : Storage} (hdeployed : Deployed s₀) {tr : List (Storage × Call)}
    {s : Storage} (hrun : Run (step H) (fun _ _ => True) s₀ tr s) :
    Run.Throughout (WriteOnce H) tr s ↔ DeliveriesAgree H tr := by
  rw [(remembers_of_run hdeployed hrun).2]
  refine Run.throughout_iff (Confirms H) (fun p hp => absurd hp List.not_mem_nil) ?_ hrun
  intro tr s c s' h _ hstep
  exact writeOnce_snoc h (step_remoteEffect hstep)

/-! ## Two bridges that disagree -/

/-- What governance, which is account 1, and the two bridges do. -/
def conflictingCalls : List Call :=
  [⟨1, 0, .authorizeBridge 2⟩, ⟨1, 0, .authorizeBridge 3⟩,
    ⟨2, 0, .receiveRemoteEpochRoot 1284 0 5⟩, ⟨3, 0, .receiveRemoteEpochRoot 1284 0 6⟩]

/-- **The second root replaces the first.** -/
theorem exists_replaced :
    ∃ tr s, Run (step toyHashes) (fun _ _ => True) toyManager tr s
      ∧ tr.map Prod.snd = conflictingCalls
      ∧ ∃ p ∈ tr, getRemoteEpochRoot toyHashes p.1 1284 0 = 5
        ∧ getRemoteEpochRoot toyHashes s 1284 0 = 6 := by
  refine ⟨_, _, (((Run.nil.snoc (c := ⟨1, 0, .authorizeBridge 2⟩) trivial rfl).snoc
      (c := ⟨1, 0, .authorizeBridge 3⟩) trivial rfl).snoc
      (c := ⟨2, 0, .receiveRemoteEpochRoot 1284 0 5⟩) trivial rfl).snoc
      (c := ⟨3, 0, .receiveRemoteEpochRoot 1284 0 6⟩) trivial rfl, rfl, _,
    List.mem_append_right _ (List.mem_singleton_self _), rfl, rfl⟩

/-- The roots of that run are written once exactly if its deliveries agree. -/
theorem writeOnce_iff_conflicting :
    ∃ tr s, tr.map Prod.snd = conflictingCalls
      ∧ (Run.Throughout (WriteOnce toyHashes) tr s ↔ DeliveriesAgree toyHashes tr) := by
  obtain ⟨tr, s, hrun, hcalls, -⟩ := exists_replaced
  exact ⟨tr, s, hcalls, writeOnce_iff ⟨1, 0, 10, 7, rfl⟩ hrun⟩

/-- A recorded root can be replaced. -/
theorem root_replaced :
    ¬ ∀ (H : Hashes) (s₀ : Storage) (tr : List (Storage × Call)) (s : Storage), Deployed s₀ →
      Run (step H) (fun _ _ => True) s₀ tr s → WriteOnce H tr s := by
  intro hall
  obtain ⟨tr, s, hrun, -, p, hp, hfirst, hlast⟩ := exists_replaced
  have hsame := hall toyHashes toyManager tr s ⟨1, 0, 10, 7, rfl⟩ hrun p hp 1284 0
    (by rw [hfirst]; decide)
  rw [hfirst, hlast] at hsame
  exact absurd hsame (by decide)

end EpochManager
