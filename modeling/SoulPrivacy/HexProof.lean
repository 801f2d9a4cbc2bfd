import SoulPrivacy.Abi
import SoulPrivacy.HexWords

/-!
# Proofs that are texts

The CosmWasm pool and the NEAR pool take a proof as a text of digits. Both
check its shape and then a tag in front of it, the digits of

  `H ("Halo2-IPA-bind" ‖ H (root ‖ nullifiers ‖ outputs) ‖ body)`

for a hash `H` that each of them has. The root, the nullifiers and the outputs
are texts too, and are hashed one after the other with nothing in between
(`Spend.text`); who is paid and how much is not hashed at all. So what the tag
binds a proof to is that one text (`text_eq_of_tagged`), and anyone can make a
proof for it (`tagged_proofOf`). Calls that have it in common have their proofs
in common (`not_both_iff`), unless all the texts are known to have 64 digits
(`Spend.eq_of_text_eq`) and nothing else tells the calls apart.
-/

namespace HexProof

open RustString

/-- A text that counts as zero: it is empty, or all of its characters are the
digit zero. -/
def isZeros (s : String) : Bool := s.isEmpty || s.toList.all (· == '0')

/-- `list[0] == list[1]`, for a list of two or more. -/
def startsWithTwins : List String → Bool
  | a :: b :: _ => a == b
  | _ => false

/-- The hash of the public inputs. -/
def inputsHash (H : Bytes → Bytes32) (merkleRoot : String)
    (nullifiers outputCommitments : List String) : Bytes32 :=
  H (asBytes merkleRoot ++ nullifiers.flatMap asBytes ++ outputCommitments.flatMap asBytes)

/-- What the tag is the hash of. -/
def transcript (inputs : Bytes32) (body : List Char) : Bytes :=
  asBytes "Halo2-IPA-bind" ++ Bytes32.toBytes inputs ++ asBytes (String.ofList body)

/-- `verify_proof_binding`, for a hash. The digits are cut after it is known
that each of them is one byte. -/
def verifyProofBinding (H : Bytes → Bytes32) (proof merkleRoot : String)
    (nullifiers outputCommitments : List String) : Bool :=
  if len proof < 384 then false
  else if 8192 < len proof then false
  else if !proof.toList.all isAsciiHexdigit then false
  else if len proof % 2 ≠ 0 then false
  else if proof.toList.all (· == '0') then false
  else if startsWithTwins nullifiers then false
  else if nullifiers.any isZeros then false
  else if isZeros merkleRoot then false
  else if outputCommitments.any isZeros then false
  else if startsWithTwins outputCommitments then false
  else if len proof < 64 then false
  else
    let binding := String.ofList (proof.toList.take 64)
    let body := proof.toList.drop 64
    binding == Bytes32.toHex (H (transcript
      (inputsHash H merkleRoot nullifiers outputCommitments) body))

/-! ## What is accepted -/

/-- **What a transfer and a withdrawal have in common.** -/
structure Spend where
  merkleRoot : String
  nullifiers : String × String
  outputCommitments : String × String
  deriving DecidableEq

/-- **The text that is hashed**: five texts, one after the other. -/
def Spend.text (c : Spend) : String :=
  c.merkleRoot ++ c.nullifiers.1 ++ c.nullifiers.2 ++ c.outputCommitments.1
    ++ c.outputCommitments.2

/-- **Texts that are taken**: none of them is zero, and the two of a kind
differ. -/
structure Spend.WellFormed (c : Spend) : Prop where
  root_ne : isZeros c.merkleRoot = false
  fst_ne : isZeros c.nullifiers.1 = false
  snd_ne : isZeros c.nullifiers.2 = false
  nullifiers_ne : c.nullifiers.1 ≠ c.nullifiers.2
  out_fst_ne : isZeros c.outputCommitments.1 = false
  out_snd_ne : isZeros c.outputCommitments.2 = false
  outputs_ne : c.outputCommitments.1 ≠ c.outputCommitments.2

/-- **A proof of the right shape.** -/
structure Shaped (proof : String) : Prop where
  min : 384 ≤ len proof
  max : len proof ≤ 8192
  isHex : IsHex proof.toList
  even : len proof % 2 = 0
  nonzero : ∃ c ∈ proof.toList, c ≠ '0'

/-- **A proof that carries the tag of a text.** -/
def Tagged (H : Bytes → Bytes32) (proof text : String) : Prop :=
  String.ofList (proof.toList.take 64)
    = Bytes32.toHex (H (transcript (H (asBytes text)) (proof.toList.drop 64)))

variable {H : Bytes → Bytes32}

theorem Spend.inputsHash_eq (c : Spend) :
    inputsHash H c.merkleRoot [c.nullifiers.1, c.nullifiers.2]
      [c.outputCommitments.1, c.outputCommitments.2] = H (asBytes c.text) := by
  unfold inputsHash Spend.text
  simp only [asBytes_append, List.flatMap_cons, List.flatMap_nil, List.append_nil,
    List.append_assoc]

/-- **What is accepted**: a proof of the right shape that carries the tag of
texts that are taken. -/
theorem verifyProofBinding_iff {proof : String} {c : Spend} :
    verifyProofBinding H proof c.merkleRoot [c.nullifiers.1, c.nullifiers.2]
        [c.outputCommitments.1, c.outputCommitments.2] = true
      ↔ Shaped proof ∧ c.WellFormed ∧ Tagged H proof c.text := by
  unfold verifyProofBinding
  rw [c.inputsHash_eq]
  simp only [startsWithTwins, List.any_cons, List.any_nil, Bool.or_false, Bool.if_false_left,
    Bool.and_eq_true, Bool.not_eq_true', decide_eq_false_iff_not, Bool.or_eq_false_iff,
    beq_iff_eq, not_lt, not_not, Bool.decide_eq_true,
    List.all_eq_true]
  have hhex : ¬ proof.toList.all isAsciiHexdigit = false ↔ IsHex proof.toList := by
    rw [Bool.not_eq_false, List.all_eq_true]
    rfl
  have hnonzero : (¬ ∀ c ∈ proof.toList, c = '0') ↔ ∃ c ∈ proof.toList, c ≠ '0' := by
    push Not
    rfl
  rw [hhex, hnonzero]
  constructor
  · rintro ⟨hmin, hmax, hhex, heven, hnonzero, hne, ⟨h₁, h₂⟩, hroot, ⟨ho₁, ho₂⟩, hone, -,
      htag⟩
    exact ⟨⟨hmin, hmax, hhex, heven, hnonzero⟩, ⟨hroot, h₁, h₂, hne, ho₁, ho₂, hone⟩, htag⟩
  · rintro ⟨h, hc, htag⟩
    exact ⟨h.min, h.max, h.isHex, h.even, h.nonzero, hc.nullifiers_ne,
      ⟨hc.fst_ne, hc.snd_ne⟩, hc.root_ne, ⟨hc.out_fst_ne, hc.out_snd_ne⟩, hc.outputs_ne,
      le_trans (by decide) h.min, htag⟩

/-! ## What the tag binds to -/

/-- **The hash has no collision here**: neither on two texts nor on what the
tags of one proof are computed from. -/
structure NoCollision (H : Bytes → Bytes32) (proof text text' : String) : Prop where
  texts : H (asBytes text) = H (asBytes text') → asBytes text = asBytes text'
  tags : H (transcript (H (asBytes text)) (proof.toList.drop 64))
      = H (transcript (H (asBytes text')) (proof.toList.drop 64)) →
    transcript (H (asBytes text)) (proof.toList.drop 64)
      = transcript (H (asBytes text')) (proof.toList.drop 64)

/-- What a transcript has in it. -/
theorem transcript_inj {inputs inputs' : Bytes32} {body : List Char}
    (h : transcript inputs body = transcript inputs' body) : inputs = inputs' := by
  unfold transcript at h
  have hmiddle := List.append_cancel_left (List.append_cancel_right h)
  exact Bytes32.toBytes_inj.mp hmiddle

/-- **A proof is tagged for one text only.** -/
theorem text_eq_of_tagged {proof text text' : String} (h : Tagged H proof text)
    (h' : Tagged H proof text') (hcoll : NoCollision H proof text text') : text = text' := by
  have htags := Bytes32.toHex_injective (h.symm.trans h')
  have htexts := transcript_inj (hcoll.tags htags)
  exact asBytes_injective (hcoll.texts htexts)

/-! ## Making a proof -/

/-- A text of ASCII digits has one byte for each. -/
theorem len_of_isHex {s : String} (h : IsHex s.toList) : len s = s.toList.length := by
  unfold len asBytes
  rw [List.length_map, List.length_flatMap]
  have hone : s.toList.map (fun c => (String.utf8EncodeChar c).length)
      = s.toList.map (fun _ => 1) := by
    refine List.map_congr_left (fun c hc => ?_)
    rw [String.length_utf8EncodeChar]
    exact utf8Size_of_hexDigit (hexDigit_eq_digitValue (h c hc))
  rw [hone, List.map_const', List.sum_replicate, smul_eq_mul, Nat.mul_one]

/-- **The proof of a text with a body of ones.** -/
def proofOf (H : Bytes → Bytes32) (text : String) : String :=
  Bytes32.toHex (H (transcript (H (asBytes text)) (List.replicate 320 '1')))
    ++ String.ofList (List.replicate 320 '1')

theorem toList_proofOf (H : Bytes → Bytes32) (text : String) : (proofOf H text).toList
    = (Bytes32.toHex (H (transcript (H (asBytes text)) (List.replicate 320 '1')))).toList
      ++ List.replicate 320 '1' := by
  unfold proofOf
  rw [String.toList_append, String.toList_ofList]

theorem shaped_proofOf (text : String) : Shaped (proofOf H text) := by
  have htag := Bytes32.isLowerHex64_toHex
    (H (transcript (H (asBytes text)) (List.replicate 320 '1')))
  have hhex : IsHex (proofOf H text).toList := by
    intro c hc
    rw [toList_proofOf] at hc
    rcases List.mem_append.mp hc with hc | hc
    · exact htag.isHex64.isHex c hc
    · rw [List.eq_of_mem_replicate hc]
      decide
  have hlen : len (proofOf H text) = 384 := by
    rw [len_of_isHex hhex, toList_proofOf, List.length_append, htag.length_eq,
      List.length_replicate]
  refine ⟨hlen.ge, by rw [hlen]; decide, hhex, by rw [hlen], '1', ?_, by decide⟩
  rw [toList_proofOf]
  exact List.mem_append_right _ (List.mem_replicate.mpr ⟨by decide, rfl⟩)

/-- **Anyone can make a proof** for a text. -/
theorem tagged_proofOf (text : String) : Tagged H (proofOf H text) text := by
  have htag := Bytes32.isLowerHex64_toHex
    (H (transcript (H (asBytes text)) (List.replicate 320 '1')))
  unfold Tagged
  rw [toList_proofOf, List.take_left' htag.length_eq, List.drop_left' htag.length_eq,
    String.ofList_toList]

/-! ## Two calls with one proof -/

/-- **A call that needs a proof.** -/
inductive Call (AccountId : Type) where
  | transfer (spend : Spend)
  | withdraw (spend : Spend) (recipient : AccountId) (exitValue : BitVec 128)
  deriving DecidableEq

/-- What the call has in common with others. -/
def Call.spend {AccountId : Type} : Call AccountId → Spend
  | .transfer spend => spend
  | .withdraw spend _ _ => spend

/-- The text that its proof is bound to. -/
def Call.text {AccountId : Type} (c : Call AccountId) : String := c.spend.text

/-- **No proof is accepted for both of two calls if and only if their texts
differ**, or one of them is not accepted with any. -/
theorem not_both_iff {text text' : String} {Accepts Accepts' : String → Prop}
    {Covers Covers' : Prop}
    (h : ∀ proof, Accepts proof ↔ Covers ∧ Shaped proof ∧ Tagged H proof text)
    (h' : ∀ proof, Accepts' proof ↔ Covers' ∧ Shaped proof ∧ Tagged H proof text') :
    (∀ proof, NoCollision H proof text text' → ¬ (Accepts proof ∧ Accepts' proof))
      ↔ text ≠ text' ∨ ¬ Covers ∨ ¬ Covers' := by
  constructor
  · intro hexclusive
    by_contra hcond
    rw [not_or, not_or, not_not, not_not, not_not] at hcond
    obtain ⟨rfl, hcovers, hcovers'⟩ := hcond
    have hproof : Shaped (proofOf H text) ∧ Tagged H (proofOf H text) text :=
      ⟨shaped_proofOf text, tagged_proofOf text⟩
    exact hexclusive (proofOf H text) ⟨fun _ => rfl, fun _ => rfl⟩
      ⟨(h _).mpr ⟨hcovers, hproof⟩, (h' _).mpr ⟨hcovers', hproof⟩⟩
  · rintro hcond proof hcoll ⟨haccepts, haccepts'⟩
    obtain ⟨hcovers, -, htagged⟩ := (h proof).mp haccepts
    obtain ⟨hcovers', -, htagged'⟩ := (h' proof).mp haccepts'
    rcases hcond with hne | hne | hne
    · exact hne (text_eq_of_tagged htagged htagged' hcoll)
    · exact hne hcovers
    · exact hne hcovers'

/-- All five texts have 64 digits. -/
structure Spend.Regular (c : Spend) : Prop where
  root : IsHex64 c.merkleRoot
  fst : IsHex64 c.nullifiers.1
  snd : IsHex64 c.nullifiers.2
  out_fst : IsHex64 c.outputCommitments.1
  out_snd : IsHex64 c.outputCommitments.2

/-- **Of texts of 64 digits the boundaries are known.** -/
theorem Spend.eq_of_text_eq {c c' : Spend} (h : c.Regular) (h' : c'.Regular)
    (htext : c.text = c'.text) : c = c' := by
  obtain ⟨root, ⟨n₁, n₂⟩, o₁, o₂⟩ := c
  obtain ⟨root', ⟨n₁', n₂'⟩, o₁', o₂'⟩ := c'
  have hlists := congrArg String.toList htext
  unfold Spend.text at hlists
  simp only [String.toList_append] at hlists
  have hlen {s t : String} (hs : IsHex64 s) (ht : IsHex64 t) :
      s.toList.length = t.toList.length := hs.length_eq.trans ht.length_eq.symm
  obtain ⟨hlists, ho₂⟩ := List.append_inj' hlists (hlen h.out_snd h'.out_snd)
  obtain ⟨hlists, ho₁⟩ := List.append_inj' hlists (hlen h.out_fst h'.out_fst)
  obtain ⟨hlists, hn₂⟩ := List.append_inj' hlists (hlen h.snd h'.snd)
  obtain ⟨hroot, hn₁⟩ := List.append_inj' hlists (hlen h.fst h'.fst)
  cases String.toList_inj.mp hroot
  cases String.toList_inj.mp hn₁
  cases String.toList_inj.mp hn₂
  cases String.toList_inj.mp ho₁
  cases String.toList_inj.mp ho₂
  rfl

/-- A text is not of zeros only when one of its characters is not zero. -/
theorem isZeros_ofList {cs : List Char} (h : cs.all (· == '0') = false) :
    isZeros (String.ofList cs) = false := by
  unfold isZeros
  rw [String.toList_ofList, h, Bool.or_false, Bool.eq_false_iff]
  intro hempty
  have hnil := congrArg String.toList (String.isEmpty_iff.mp hempty)
  rw [String.toList_ofList] at hnil
  rw [hnil] at h
  cases h

/-- A word that is not zero is not written with zeros only. -/
theorem isZeros_toHex {w : Bytes32} (hw : w ≠ 0) : isZeros (Bytes32.toHex w) = false := by
  have htext := Bytes32.isLowerHex64_toHex w
  rw [Bool.eq_false_iff]
  intro hzeros
  have hchars : (Bytes32.toHex w).toList = List.replicate 64 '0' := by
    unfold isZeros at hzeros
    rcases Bool.or_eq_true_iff.mp hzeros with hempty | hall
    · have hlen := htext.length_eq
      rw [String.isEmpty_iff.mp hempty] at hlen
      cases hlen
    · refine List.eq_replicate_iff.mpr ⟨htext.length_eq, fun c hc => ?_⟩
      exact beq_iff_eq.mp (List.all_eq_true.mp hall c hc)
  apply hw
  rw [← Bytes32.hexWord_toHex w, hexWord, hchars]
  decide +kernel

/-! ## Four calls with one text -/

/-- A spend of two nullifiers under a root. -/
def spendOf (merkleRoot : String) (nullifiers : String × String) : Spend :=
  ⟨merkleRoot, nullifiers, (Bytes32.toHex 4, Bytes32.toHex 5)⟩

/-- **Four calls**: a withdrawal, the same one to someone else, for less, a
transfer, and a withdrawal where one character has changed sides. -/
def fourCalls (merkleRoot : String) : List (Call String) :=
  [.withdraw (spendOf merkleRoot ("1a", "b")) "alice" 100,
    .withdraw (spendOf merkleRoot ("1a", "b")) "mallory" 60,
    .transfer (spendOf merkleRoot ("1a", "b")),
    .withdraw (spendOf merkleRoot ("1", "ab")) "alice" 100]

theorem nodup_fourCalls (merkleRoot : String) : (fourCalls merkleRoot).Nodup := by
  simp [fourCalls, spendOf]

theorem spend_of_mem_fourCalls {merkleRoot : String} : ∀ c ∈ fourCalls merkleRoot,
    c.spend = spendOf merkleRoot ("1a", "b") ∨ c.spend = spendOf merkleRoot ("1", "ab") := by
  simp [fourCalls, Call.spend]

/-- They have the root and the outputs in common. -/
theorem root_of_mem_fourCalls {merkleRoot : String} {c : Call String}
    (hc : c ∈ fourCalls merkleRoot) : c.spend.merkleRoot = merkleRoot
      ∧ c.spend.outputCommitments = (Bytes32.toHex 4, Bytes32.toHex 5) := by
  rcases spend_of_mem_fourCalls c hc with h | h
  · exact h ▸ ⟨rfl, rfl⟩
  · exact h ▸ ⟨rfl, rfl⟩

/-- … and the text. -/
theorem text_of_mem_fourCalls {merkleRoot : String} {c : Call String}
    (hc : c ∈ fourCalls merkleRoot) : c.text = (spendOf merkleRoot ("1a", "b")).text := by
  unfold Call.text
  rcases spend_of_mem_fourCalls c hc with h | h
  · rw [h]
  · rw [h, String.ext_iff]
    simp [spendOf, Spend.text]

theorem wellFormed_of_mem_fourCalls {merkleRoot : String} (hroot : isZeros merkleRoot = false)
    {c : Call String} (hc : c ∈ fourCalls merkleRoot) : c.spend.WellFormed := by
  have hout₁ : isZeros (Bytes32.toHex 4) = false := isZeros_toHex (by decide)
  have hout₂ : isZeros (Bytes32.toHex 5) = false := isZeros_toHex (by decide)
  have hne : Bytes32.toHex 4 ≠ Bytes32.toHex 5 := Bytes32.toHex_injective.ne (by decide)
  have htexts : isZeros "1a" = false ∧ isZeros "b" = false ∧ isZeros "1" = false
      ∧ isZeros "ab" = false := by decide
  rcases spend_of_mem_fourCalls c hc with h | h
  · exact h ▸ ⟨hroot, htexts.1, htexts.2.1, show "1a" ≠ "b" by decide, hout₁, hout₂, hne⟩
  · exact h ▸ ⟨hroot, htexts.2.2.1, htexts.2.2.2, show "1" ≠ "ab" by decide, hout₁, hout₂,
      hne⟩

end HexProof
