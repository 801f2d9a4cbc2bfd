import SoulPrivacy.AbiCodec
import SoulPrivacy.NoteWallet

/-!
# Stealth addresses (`stealth.ts`, `wallet.ts`)

The sender hashes the own ephemeral private key with the view key that the
recipient has published, and the recipient hashes the view private key with
the ephemeral public key. On a curve the two products agree. A hash of two
keys does not: each side hashes another text, so the recipient does not find
what was sent (`finds_iff`).

The ephemeral private key, which is random, is an argument. Keys have 32
bytes. The hash is a parameter.
-/

/-- `StealthMetaAddress`. -/
structure StealthMetaAddress where
  spendPubKeyX : Bytes32
  spendPubKeyParity : BitVec 8
  viewPubKeyX : Bytes32
  viewPubKeyParity : BitVec 8
  deriving DecidableEq

namespace StealthAddress

/-- `EphemeralKeyPair`. -/
structure EphemeralKeyPair where
  privateKey : Bytes32
  publicKeyX : Bytes32
  parity : BitVec 8

/-- `StealthAnnouncement`. -/
structure StealthAnnouncement where
  ephemeralPubKeyX : Bytes32
  ephemeralPubKeyParity : BitVec 8
  stealthAddress : Address
  viewTag : BitVec 8

/-- `ScanResult`. -/
structure ScanResult where
  isMatch : Bool
  stealthAddress : Option Address
  stealthPrivKeyOffset : Option Bytes32
  deriving DecidableEq

/-- `SECP256K1_N`. -/
def SECP256K1_N : ℕ := 0xFFFFFFFFFFFFFFFFFFFFFFFFFFFFFFFEBAAEDCE6AF48A03BBFD25E8CD0364141

variable (keccak256 : Bytes → Bytes32)

/-- The public key of a private key, as the SDK derives it: the hash with a
label. -/
def publicKey (label : Bytes) (privateKey : Bytes32) : Bytes32 :=
  keccak256 (privateKey.toBytes ++ label)

/-- The label of an ephemeral key. -/
def ephemeralLabel : Bytes := ascii "ephemeral-pub"

/-- The label of a view key. -/
def viewLabel : Bytes := ascii "view"

/-- `generateEphemeralKeyPair`, with the random bytes. -/
def generateEphemeralKeyPair (randomBytes : Bytes32) : EphemeralKeyPair :=
  let publicKeyX := publicKey keccak256 ephemeralLabel randomBytes
  let parityByte := publicKeyX.extractLsb' 248 8
  { privateKey := randomBytes
    publicKeyX := publicKeyX
    parity := if parityByte.toNat % 2 = 0 then 27 else 28 }

/-- `computeSharedSecret`. -/
def computeSharedSecret (ephemeralPrivateKey viewPubKeyX : Bytes32) : Bytes32 :=
  keccak256 (ephemeralPrivateKey.toBytes ++ viewPubKeyX.toBytes)

/-- The offset of a hash of a shared secret, modulo the order of the curve. -/
def offsetOf (sharedSecretHash : Bytes32) : Bytes32 :=
  BitVec.ofNat 256 (sharedSecretHash.toNat % SECP256K1_N)

/-- What is hashed for a stealth address. -/
def addressText (spendMeta : StealthMetaAddress) (offset : Bytes32) : Bytes :=
  spendMeta.spendPubKeyX.toBytes ++ [spendMeta.spendPubKeyParity] ++ offset.toBytes

/-- The last 20 bytes of a hash. -/
def addressOf (text : Bytes) : Address := (keccak256 text).setWidth 160

/-- **`deriveStealthAddress`.** -/
def deriveStealthAddress (spendMeta : StealthMetaAddress) (sharedSecretHash : Bytes32) :
    Address × Bytes32 :=
  let offset := offsetOf sharedSecretHash
  (addressOf keccak256 (addressText spendMeta offset), offset)

/-- `computeViewTag`. -/
def computeViewTag (sharedSecretHash : Bytes32) : BitVec 8 := sharedSecretHash.extractLsb' 248 8

/-- **`createStealthAnnouncement`**, with the random bytes. -/
def createStealthAnnouncement (randomBytes : Bytes32) (recipientMeta : StealthMetaAddress) :
    StealthAnnouncement × Bytes32 :=
  let ephemeral := generateEphemeralKeyPair keccak256 randomBytes
  let sharedSecret :=
    computeSharedSecret keccak256 ephemeral.privateKey recipientMeta.viewPubKeyX
  let sharedSecretHash := keccak256 sharedSecret.toBytes
  ({ ephemeralPubKeyX := ephemeral.publicKeyX
     ephemeralPubKeyParity := ephemeral.parity
     stealthAddress := (deriveStealthAddress keccak256 recipientMeta sharedSecretHash).1
     viewTag := computeViewTag sharedSecretHash }, ephemeral.privateKey)

/-- **`scanAnnouncement`.** -/
def scanAnnouncement (announcement : StealthAnnouncement) (viewPrivateKey : Bytes32)
    (spendMeta : StealthMetaAddress) : ScanResult :=
  let sharedSecret :=
    computeSharedSecret keccak256 viewPrivateKey announcement.ephemeralPubKeyX
  let sharedSecretHash := keccak256 sharedSecret.toBytes
  if computeViewTag sharedSecretHash ≠ announcement.viewTag then ⟨false, none, none⟩
  else
    let derived := deriveStealthAddress keccak256 spendMeta sharedSecretHash
    if derived.1 = announcement.stealthAddress then ⟨true, some derived.1, some derived.2⟩
    else ⟨false, none, none⟩

/-- `scanAnnouncementBatch`. -/
def scanAnnouncementBatch (announcements : List StealthAnnouncement) (viewPrivateKey : Bytes32)
    (spendMeta : StealthMetaAddress) : List ScanResult :=
  (announcements.map (fun a => scanAnnouncement keccak256 a viewPrivateKey spendMeta)).filter
    ScanResult.isMatch

end StealthAddress

/-- **`getStealthMetaAddress`**, unless the spending key has not 32 bytes. -/
def NoteWallet.Wallet.getStealthMetaAddress (keccak256 : Bytes → Bytes32)
    (W : NoteWallet.Wallet) : Option StealthMetaAddress :=
  if W.spendingKey.length = 32 then
    some
      { spendPubKeyX := keccak256 (W.spendingKey ++ ascii "spend")
        spendPubKeyParity := 27
        viewPubKeyX := keccak256 (W.spendingKey ++ StealthAddress.viewLabel)
        viewPubKeyParity := 27 }
  else none

namespace StealthAddress

variable {keccak256 : Bytes → Bytes32}

/-! ## Who finds an announcement -/

/-- **The recipient finds what is announced**: the scan reports a match, and
the address that was announced. -/
def Finds (keccak256 : Bytes → Bytes32) (randomBytes viewPrivateKey : Bytes32)
    (recipientMeta : StealthMetaAddress) : Prop :=
  let announcement := (createStealthAnnouncement keccak256 randomBytes recipientMeta).1
  let result := scanAnnouncement keccak256 announcement viewPrivateKey recipientMeta
  result.isMatch = true ∧ result.stealthAddress = some announcement.stealthAddress

instance (randomBytes viewPrivateKey : Bytes32) (recipientMeta : StealthMetaAddress) :
    Decidable (Finds keccak256 randomBytes viewPrivateKey recipientMeta) :=
  inferInstanceAs (Decidable (_ ∧ _))

/-- The text that the sender hashes for the shared secret. -/
def senderText (randomBytes : Bytes32) (recipientMeta : StealthMetaAddress) : Bytes :=
  randomBytes.toBytes ++ recipientMeta.viewPubKeyX.toBytes

/-- The text that the recipient hashes for the shared secret. -/
def recipientText (keccak256 : Bytes → Bytes32) (randomBytes viewPrivateKey : Bytes32) : Bytes :=
  viewPrivateKey.toBytes ++ (publicKey keccak256 ephemeralLabel randomBytes).toBytes

/-- The hash of a shared secret. -/
def hashOf (keccak256 : Bytes → Bytes32) (sharedSecret : Bytes32) : Bytes32 :=
  keccak256 sharedSecret.toBytes

/-- A match is one of the tag and of the address. -/
theorem isMatch_iff (a : StealthAnnouncement) (viewPrivateKey : Bytes32)
    (spendMeta : StealthMetaAddress) :
    (scanAnnouncement keccak256 a viewPrivateKey spendMeta).isMatch = true
      ↔ ∃ sharedSecretHash,
        sharedSecretHash = hashOf keccak256
          (computeSharedSecret keccak256 viewPrivateKey a.ephemeralPubKeyX)
        ∧ computeViewTag sharedSecretHash = a.viewTag
        ∧ (deriveStealthAddress keccak256 spendMeta sharedSecretHash).1 = a.stealthAddress := by
  rw [exists_eq_left]
  unfold scanAnnouncement hashOf
  dsimp only
  split_ifs with htag haddr
  · simp [htag]
  · simp [not_not.mp htag, haddr]
  · simp [haddr]

/-- With a match, the address is the one that was announced. -/
theorem stealthAddress_of_isMatch {a : StealthAnnouncement} {viewPrivateKey : Bytes32}
    {spendMeta : StealthMetaAddress}
    (h : (scanAnnouncement keccak256 a viewPrivateKey spendMeta).isMatch = true) :
    (scanAnnouncement keccak256 a viewPrivateKey spendMeta).stealthAddress
      = some a.stealthAddress := by
  obtain ⟨-, rfl, htag, haddr⟩ := (isMatch_iff a viewPrivateKey spendMeta).mp h
  unfold hashOf at htag haddr
  unfold scanAnnouncement
  dsimp only
  rw [if_neg (not_not.mpr htag), if_pos haddr]
  exact congrArg some haddr

/-- **To find is to come to the same tag and address** from the two texts. -/
theorem finds_iff_same (randomBytes viewPrivateKey : Bytes32)
    (recipientMeta : StealthMetaAddress) :
    Finds keccak256 randomBytes viewPrivateKey recipientMeta
      ↔ ∃ ours theirs,
        ours = hashOf keccak256 (keccak256 (recipientText keccak256 randomBytes viewPrivateKey))
        ∧ theirs = hashOf keccak256 (keccak256 (senderText randomBytes recipientMeta))
        ∧ computeViewTag ours = computeViewTag theirs
        ∧ (deriveStealthAddress keccak256 recipientMeta ours).1
          = (deriveStealthAddress keccak256 recipientMeta theirs).1 := by
  refine Iff.trans (and_iff_left_of_imp stealthAddress_of_isMatch) ?_
  rw [isMatch_iff]
  simp only [exists_and_left, exists_eq_left]
  exact Iff.rfl

/-- **The hash has no collision** on what sender and recipient hash: for the
public keys, for the shared secrets, for the offsets, and, of 20 bytes, for
the addresses. -/
structure NoCollision (keccak256 : Bytes → Bytes32) (label : Bytes)
    (randomBytes viewPrivateKey : Bytes32) (recipientMeta : StealthMetaAddress) : Prop where
  publicKeys : Set.InjOn keccak256
    {viewPrivateKey.toBytes ++ label, randomBytes.toBytes ++ ephemeralLabel}
  sharedSecrets : Set.InjOn keccak256
    {recipientText keccak256 randomBytes viewPrivateKey, senderText randomBytes recipientMeta}
  offsets : Set.InjOn (fun sharedSecret => offsetOf (hashOf keccak256 sharedSecret))
    {keccak256 (recipientText keccak256 randomBytes viewPrivateKey),
      keccak256 (senderText randomBytes recipientMeta)}
  addresses : Set.InjOn (addressOf keccak256)
    {addressText recipientMeta (offsetOf (hashOf keccak256 (keccak256
        (recipientText keccak256 randomBytes viewPrivateKey)))),
      addressText recipientMeta (offsetOf (hashOf keccak256 (keccak256
        (senderText randomBytes recipientMeta))))}

theorem addressText_inj {spendMeta : StealthMetaAddress} {o p : Bytes32} :
    addressText spendMeta o = addressText spendMeta p ↔ o = p := by
  unfold addressText
  rw [List.append_cancel_left_eq, Bytes32.toBytes_inj]

/-- **Only who hashes the same text finds the address.** -/
theorem text_eq_of_finds {label : Bytes} {randomBytes viewPrivateKey : Bytes32}
    {recipientMeta : StealthMetaAddress}
    (hcoll : NoCollision keccak256 label randomBytes viewPrivateKey recipientMeta)
    (h : Finds keccak256 randomBytes viewPrivateKey recipientMeta) :
    recipientText keccak256 randomBytes viewPrivateKey
      = senderText randomBytes recipientMeta := by
  obtain ⟨-, -, rfl, rfl, -, haddr⟩ := (finds_iff_same _ _ _).mp h
  have htext := Set.injOn_pair.mp hcoll.addresses haddr
  have hsecret := Set.injOn_pair.mp hcoll.offsets (addressText_inj.mp htext)
  exact Set.injOn_pair.mp hcoll.sharedSecrets hsecret

theorem finds_of_text_eq {randomBytes viewPrivateKey : Bytes32}
    {recipientMeta : StealthMetaAddress}
    (h : recipientText keccak256 randomBytes viewPrivateKey
      = senderText randomBytes recipientMeta) :
    Finds keccak256 randomBytes viewPrivateKey recipientMeta :=
  (finds_iff_same _ _ _).mpr ⟨_, _, rfl, by rw [h], rfl, rfl⟩

/-- **With a view key that the SDK derives**, the texts are the same only if
it is derived as an ephemeral key is, and from the same private key. -/
theorem keys_eq_of_finds {label : Bytes} {randomBytes viewPrivateKey : Bytes32}
    {recipientMeta : StealthMetaAddress}
    (hview : recipientMeta.viewPubKeyX = publicKey keccak256 label viewPrivateKey)
    (hcoll : NoCollision keccak256 label randomBytes viewPrivateKey recipientMeta)
    (h : Finds keccak256 randomBytes viewPrivateKey recipientMeta) :
    label = ephemeralLabel ∧ randomBytes = viewPrivateKey := by
  have htext := text_eq_of_finds hcoll h
  unfold recipientText senderText at htext
  obtain ⟨hpriv, hpub⟩ := Bytes32.toBytes_append_inj.mp htext
  rw [hview] at hpub
  have hkeys := Set.injOn_pair.mp hcoll.publicKeys (Bytes32.toBytes_inj.mp hpub).symm
  exact ⟨(Bytes32.toBytes_append_inj.mp hkeys).2, hpriv.symm⟩

/-- **A recipient finds an announcement** if and only if the view key is an
ephemeral key, and the same one that the sender drew. -/
theorem finds_iff {label : Bytes} {randomBytes viewPrivateKey : Bytes32}
    {recipientMeta : StealthMetaAddress}
    (hview : recipientMeta.viewPubKeyX = publicKey keccak256 label viewPrivateKey)
    (hcoll : NoCollision keccak256 label randomBytes viewPrivateKey recipientMeta) :
    Finds keccak256 randomBytes viewPrivateKey recipientMeta
      ↔ label = ephemeralLabel ∧ randomBytes = viewPrivateKey := by
  refine ⟨keys_eq_of_finds hview hcoll, ?_⟩
  rintro ⟨rfl, rfl⟩
  refine finds_of_text_eq ?_
  unfold recipientText senderText
  rw [hview]

/-- The meta-address of a wallet publishes a key of the spending key. -/
theorem viewPubKeyX_of_wallet {W : NoteWallet.Wallet} {recipientMeta : StealthMetaAddress}
    (h : W.getStealthMetaAddress keccak256 = some recipientMeta) :
    ∃ viewPrivateKey : Bytes32, W.spendingKey = viewPrivateKey.toBytes
      ∧ recipientMeta.viewPubKeyX = publicKey keccak256 viewLabel viewPrivateKey := by
  unfold NoteWallet.Wallet.getStealthMetaAddress at h
  split_ifs at h with hlen
  have hkey : W.spendingKey = Bytes32.toBytes (BitVec.ofNat 256 (beNat W.spendingKey)) := by
    have hlt : beNat W.spendingKey < 2 ^ 256 := by
      have hlt := beNat_lt W.spendingKey
      rwa [hlen] at hlt
    rw [Bytes32.toBytes_eq_beBytes, BitVec.toNat_ofNat, Nat.mod_eq_of_lt hlt]
    exact (hlen ▸ beBytes_beNat W.spendingKey).symm
  refine ⟨_, hkey, ?_⟩
  rw [← Option.some.inj h, publicKey, ← hkey]

/-- **A wallet finds nothing that is sent to it**, whatever the ephemeral
keys are. -/
theorem scanAnnouncementBatch_wallet {W : NoteWallet.Wallet} {recipientMeta : StealthMetaAddress}
    {viewPrivateKey : Bytes32} (hmeta : W.getStealthMetaAddress keccak256 = some recipientMeta)
    (hkey : W.spendingKey = viewPrivateKey.toBytes) {keys : List Bytes32}
    (hcoll : ∀ randomBytes ∈ keys,
      NoCollision keccak256 viewLabel randomBytes viewPrivateKey recipientMeta) :
    scanAnnouncementBatch keccak256
        (keys.map (fun randomBytes =>
          (createStealthAnnouncement keccak256 randomBytes recipientMeta).1))
        viewPrivateKey recipientMeta = [] := by
  obtain ⟨v, hv, hview⟩ := viewPubKeyX_of_wallet hmeta
  rw [hkey, Bytes32.toBytes_inj] at hv
  rw [← hv] at hview
  unfold scanAnnouncementBatch
  rw [List.filter_eq_nil_iff]
  intro result hresult
  rw [List.map_map, List.mem_map] at hresult
  obtain ⟨randomBytes, hmem, rfl⟩ := hresult
  intro hmatch
  have hfinds : Finds keccak256 randomBytes viewPrivateKey recipientMeta :=
    ⟨hmatch, stealthAddress_of_isMatch hmatch⟩
  have hlabel := (keys_eq_of_finds hview (hcoll randomBytes hmem) hfinds).1
  exact absurd hlabel (by decide)

/-! ## With the hash itself -/

/-- Keccak-256, as a word. -/
def keccakWord (text : Bytes) : Bytes32 := BitVec.ofNat 256 (beNat (Keccak.keccak256 text))

/-- The meta-address of the wallet with the spending key 1. -/
def exampleMeta : StealthMetaAddress where
  spendPubKeyX := 0x354a40621dcba7df0fb8d1fd0e515bf8d927d0bed2db18351d04883593fe5d91
  spendPubKeyParity := 27
  viewPubKeyX := 0xdc7471ef93905fc9ebaabef1c5806400a72ddc570b773c6c66074a85302d01e4
  viewPubKeyParity := 27

/-- The public key of the ephemeral key 2. -/
theorem publicKey_two : publicKey keccakWord ephemeralLabel 2
    = 0x25e5f55b65703572bc36481a7e9cb1b6c12f5e5d25c8bfe8bea56d7f1a815e58 := by
  decide +kernel

/-- The hashes of what is sent to that wallet with the ephemeral key 2. -/
structure ExampleHashes : Prop where
  metaAddress : (NoteWallet.construct (Bytes32.toBytes 1) []).getStealthMetaAddress keccakWord
    = some exampleMeta
  /-- The shared secret of the recipient. -/
  secret_recipient : keccakWord (recipientText keccakWord 2 1)
    = 0x21ef3ef172478d1e72b4f654581354685aab3a6a11eb9862a6cf3ae23f91dd32
  /-- The shared secret of the sender. -/
  secret_sender : keccakWord (senderText 2 exampleMeta)
    = 0x447b53b5a4fe4e3f834a637f2319573558ce36b4aca58068fa3c5ec600a96bf7
  hashOf_recipient :
    hashOf keccakWord 0x21ef3ef172478d1e72b4f654581354685aab3a6a11eb9862a6cf3ae23f91dd32
      = 0x88c5dbecd97dafd16124ed745f327415c97a6eea60eb3e4c4fdbaedecb15998e
  hashOf_sender :
    hashOf keccakWord 0x447b53b5a4fe4e3f834a637f2319573558ce36b4aca58068fa3c5ec600a96bf7
      = 0x211eae235cba5a2a7c6868d1d21b9f4fd76bd0d02b773a86f7e617caafd21b1b

theorem exampleHashes : ExampleHashes where
  metaAddress := by decide +kernel
  secret_recipient := by
    rw [recipientText, publicKey_two]
    decide +kernel
  secret_sender := by decide +kernel
  hashOf_recipient := by decide +kernel
  hashOf_sender := by decide +kernel

/-- The view key of that wallet. -/
theorem publicKey_one : exampleMeta.viewPubKeyX = publicKey keccakWord viewLabel 1 := by
  have h := Option.some.inj exampleHashes.metaAddress
  exact (congrArg StealthMetaAddress.viewPubKeyX h).symm

theorem noCollision_example : NoCollision keccakWord viewLabel 2 1 exampleMeta where
  publicKeys := by
    refine Set.injOn_pair.mpr (fun h => absurd h ?_)
    show publicKey keccakWord viewLabel 1 ≠ publicKey keccakWord ephemeralLabel 2
    rw [← publicKey_one, publicKey_two]
    decide
  sharedSecrets := by
    refine Set.injOn_pair.mpr (fun h => absurd h ?_)
    rw [exampleHashes.secret_recipient, exampleHashes.secret_sender]
    decide
  offsets := by
    refine Set.injOn_pair.mpr (fun h => absurd h ?_)
    rw [exampleHashes.secret_recipient, exampleHashes.secret_sender,
      exampleHashes.hashOf_recipient, exampleHashes.hashOf_sender]
    decide
  addresses := by
    refine Set.injOn_pair.mpr (fun h => absurd h ?_)
    rw [exampleHashes.secret_recipient, exampleHashes.secret_sender,
      exampleHashes.hashOf_recipient, exampleHashes.hashOf_sender]
    decide +kernel

/-- The wallet with the spending key 1 does not find what is sent to it with
the ephemeral key 2. -/
theorem finds_iff_wallet :
    exampleMeta.viewPubKeyX = publicKey keccakWord viewLabel 1
      ∧ NoCollision keccakWord viewLabel 2 1 exampleMeta
      ∧ (Finds keccakWord 2 1 exampleMeta
        ↔ viewLabel = ephemeralLabel ∧ (2 : Bytes32) = 1) :=
  ⟨publicKey_one, noCollision_example, finds_iff publicKey_one noCollision_example⟩

/-- A wallet does not find what is sent to it. -/
theorem exists_not_found :
    ¬ ∀ (W : NoteWallet.Wallet) (recipientMeta : StealthMetaAddress)
        (randomBytes viewPrivateKey : Bytes32),
      W.getStealthMetaAddress keccakWord = some recipientMeta →
      W.spendingKey = viewPrivateKey.toBytes →
      Finds keccakWord randomBytes viewPrivateKey recipientMeta := by
  intro h
  have hfinds := h _ exampleMeta 2 1 exampleHashes.metaAddress rfl
  obtain ⟨-, -, rfl, rfl, htag, -⟩ := (finds_iff_same _ _ _).mp hfinds
  rw [exampleHashes.secret_recipient, exampleHashes.secret_sender,
    exampleHashes.hashOf_recipient, exampleHashes.hashOf_sender] at htag
  exact absurd htag (by decide)

end StealthAddress
