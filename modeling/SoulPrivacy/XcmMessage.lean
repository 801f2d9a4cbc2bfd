import SoulPrivacy.PalletVerifier
import SoulPrivacy.Scale

/-!
# Messages between parachains (`xcm_handler.rs`)

The payload of an XCM call is the byte `P` and a SCALE-encoded message. The
receiver decodes from the front of what follows that byte, and never asks
whether it has used it up. So it reads a message exactly where the payload
begins with what the sender would have sent (`decodeFromXcm_eq_some_iff`),
whatever comes behind.
-/

namespace XcmMessage

open Scale (Codec)

/-- `PrivacyXcmMessage`. -/
inductive PrivacyXcmMessage where
  | syncEpochRoot (sourceParaId : BitVec 32) (epochId : BitVec 64) (nullifierRoot : H256)
      (nullifierCount : BitVec 32)
  | verifyNullifier (requesterParaId : BitVec 32) (nullifier : H256) (requestNonce : BitVec 64)
  | nullifierStatus (responderParaId : BitVec 32) (nullifier : H256) (spent : Bool)
      (requestNonce : BitVec 64)
  | registerChain (paraId appId : BitVec 32) (configHash : H256)
  deriving DecidableEq

/-! ## The derived codec -/

/-- `u32`. -/
def u32 : Codec (BitVec 32) := Codec.littleEndian 32 4 rfl

/-- `u64`. -/
def u64 : Codec (BitVec 64) := Codec.littleEndian 64 8 rfl

/-- `H256`, the 32 bytes as they are. -/
def h256 : Codec H256 := Codec.bigEndian 256 32 rfl

/-- The variants, in the order of their declaration. -/
inductive Variant where
  | syncEpochRoot
  | verifyNullifier
  | nullifierStatus
  | registerChain

namespace Variant

/-- The byte of a variant. -/
def index : Variant → BitVec 8
  | syncEpochRoot => 0
  | verifyNullifier => 1
  | nullifierStatus => 2
  | registerChain => 3

/-- The variant of a byte. -/
def ofIndex (b : BitVec 8) : Option Variant :=
  if b = 0 then some syncEpochRoot
  else if b = 1 then some verifyNullifier
  else if b = 2 then some nullifierStatus
  else if b = 3 then some registerChain
  else none

theorem ofIndex_eq_some_iff (b : BitVec 8) (v : Variant) : ofIndex b = some v ↔ v.index = b := by
  unfold ofIndex
  constructor
  · intro h
    split_ifs at h with h₀ h₁ h₂ h₃ <;> cases h
    · exact h₀.symm
    · exact h₁.symm
    · exact h₂.symm
    · exact h₃.symm
  · rintro rfl
    cases v <;> rfl

/-- The fields of a variant, in the order of their declaration. -/
def Fields : Variant → Type
  | syncEpochRoot => BitVec 32 × BitVec 64 × H256 × BitVec 32
  | verifyNullifier => BitVec 32 × H256 × BitVec 64
  | nullifierStatus => BitVec 32 × H256 × Bool × BitVec 64
  | registerChain => BitVec 32 × BitVec 32 × H256

/-- How they are written. -/
def fields : (v : Variant) → Codec v.Fields
  | syncEpochRoot => u32.pair (u64.pair (h256.pair u32))
  | verifyNullifier => u32.pair (h256.pair u64)
  | nullifierStatus => u32.pair (h256.pair (Codec.bool.pair u64))
  | registerChain => u32.pair (u32.pair h256)

end Variant

/-- **A message is a variant with its fields.** -/
def ofFields : (Σ v : Variant, v.Fields) ≃ PrivacyXcmMessage where
  toFun
    | ⟨.syncEpochRoot, source, epochId, root, count⟩ => .syncEpochRoot source epochId root count
    | ⟨.verifyNullifier, requester, nullifier, nonce⟩ =>
      .verifyNullifier requester nullifier nonce
    | ⟨.nullifierStatus, responder, nullifier, spent, nonce⟩ =>
      .nullifierStatus responder nullifier spent nonce
    | ⟨.registerChain, paraId, appId, configHash⟩ => .registerChain paraId appId configHash
  invFun
    | .syncEpochRoot source epochId root count => ⟨.syncEpochRoot, source, epochId, root, count⟩
    | .verifyNullifier requester nullifier nonce =>
      ⟨.verifyNullifier, requester, nullifier, nonce⟩
    | .nullifierStatus responder nullifier spent nonce =>
      ⟨.nullifierStatus, responder, nullifier, spent, nonce⟩
    | .registerChain paraId appId configHash => ⟨.registerChain, paraId, appId, configHash⟩
  left_inv := by
    rintro ⟨_ | _ | _ | _, _⟩ <;> rfl
  right_inv := by
    rintro (_ | _ | _ | _) <;> rfl

/-- **The codec that is derived for a message.** -/
def codec : Codec PrivacyXcmMessage :=
  (Codec.enum Variant.index Variant.ofIndex Variant.ofIndex_eq_some_iff Variant.fields).map ofFields

/-! ## Payloads -/

/-- `encode_for_xcm`. -/
def encodeForXcm (m : PrivacyXcmMessage) : Bytes := 0x50 :: codec.encode m

/-- `decode_from_xcm`. -/
def decodeFromXcm (data : Bytes) : Option PrivacyXcmMessage :=
  match data with
  | [] => none
  | b :: input => if b ≠ 0x50 then none else (codec.decode input).map (fun p => p.1)

/-- **A message is decoded exactly where its payload begins the data.** -/
theorem decodeFromXcm_eq_some_iff {data : Bytes} {m : PrivacyXcmMessage} :
    decodeFromXcm data = some m ↔ ∃ rest, data = encodeForXcm m ++ rest := by
  cases data with
  | nil => exact iff_of_false nofun nofun
  | cons b input =>
    show (if b ≠ 0x50 then none else (codec.decode input).map (fun p => p.1)) = some m
      ↔ ∃ rest, b :: input = 0x50 :: codec.encode m ++ rest
    simp only [List.cons_append, List.cons.injEq]
    by_cases hmagic : b = 0x50
    · rw [if_neg (not_not_intro hmagic), Option.map_eq_some_iff]
      constructor
      · rintro ⟨⟨_, rest⟩, hdecode, rfl⟩
        exact ⟨rest, hmagic, codec.decode_eq_some_iff.mp hdecode⟩
      · rintro ⟨rest, -, hinput⟩
        exact ⟨(m, rest), codec.decode_eq_some_iff.mpr hinput, rfl⟩
    · rw [if_pos hmagic]
      exact iff_of_false nofun (fun ⟨_, hb, _⟩ => hmagic hb)

/-- **The codec is exact up to what comes behind a message**: what is encoded
is decoded, and what is decoded to a message is its encoding with any bytes
behind it. -/
theorem decodeFromXcm_exact (m : PrivacyXcmMessage) (data : Bytes) :
    decodeFromXcm (encodeForXcm m) = some m
      ∧ (decodeFromXcm data = some m ↔ ∃ rest, data = encodeForXcm m ++ rest) :=
  ⟨decodeFromXcm_eq_some_iff.mpr ⟨[], (List.append_nil _).symm⟩, decodeFromXcm_eq_some_iff⟩

/-- **Two payloads of one message**, one of which is a byte longer. -/
theorem exists_longer_payload :
    decodeFromXcm (encodeForXcm (.registerChain 2000 1 0) ++ [0]) = some (.registerChain 2000 1 0)
      ∧ ¬ ∀ m data, decodeFromXcm data = some m → data = encodeForXcm m := by
  have hlonger : decodeFromXcm (encodeForXcm (.registerChain 2000 1 0) ++ [0])
      = some (.registerChain 2000 1 0) := decodeFromXcm_eq_some_iff.mpr ⟨[0], rfl⟩
  refine ⟨hlonger, fun h => ?_⟩
  have hnil := List.append_cancel_left ((h _ _ hlonger).trans (List.append_nil _).symm)
  exact absurd hnil (List.cons_ne_nil 0 [])

/-! ## What the receiver does -/

/-- `PrivacyXcmAction`. -/
inductive PrivacyXcmAction where
  | storeRemoteEpochRoot (sourceParaId : BitVec 32) (epochId : BitVec 64) (nullifierRoot : H256)
      (nullifierCount : BitVec 32)
  | checkNullifierAndRespond (requesterParaId : BitVec 32) (nullifier : H256)
      (requestNonce : BitVec 64)
  | processNullifierResponse (responderParaId : BitVec 32) (nullifier : H256) (spent : Bool)
      (requestNonce : BitVec 64)
  | registerRemoteChain (paraId appId : BitVec 32) (configHash : H256)
  deriving DecidableEq

/-- The action of each message. -/
def PrivacyXcmMessage.action : PrivacyXcmMessage → PrivacyXcmAction
  | syncEpochRoot source epochId root count => .storeRemoteEpochRoot source epochId root count
  | verifyNullifier requester nullifier nonce =>
    .checkNullifierAndRespond requester nullifier nonce
  | nullifierStatus responder nullifier spent nonce =>
    .processNullifierResponse responder nullifier spent nonce
  | registerChain paraId appId configHash => .registerRemoteChain paraId appId configHash

/-- `process_incoming`. -/
def processIncoming (data : Bytes) : Option PrivacyXcmAction := do
  let msg ← decodeFromXcm data
  some msg.action

/-- **The receiver acts on a message exactly where its payload begins the
data.** -/
theorem processIncoming_eq_some_iff {data : Bytes} {action : PrivacyXcmAction} :
    processIncoming data = some action
      ↔ ∃ m rest, data = encodeForXcm m ++ rest ∧ m.action = action := by
  unfold processIncoming
  rw [Option.bind_eq_bind, Option.bind_eq_some_iff]
  constructor
  · rintro ⟨m, hdecode, haction⟩
    obtain ⟨rest, rfl⟩ := decodeFromXcm_eq_some_iff.mp hdecode
    exact ⟨m, rest, rfl, Option.some.inj haction⟩
  · rintro ⟨m, rest, rfl, rfl⟩
    exact ⟨m, decodeFromXcm_eq_some_iff.mpr ⟨rest, rfl⟩, rfl⟩

/-- **The action tells the message.** -/
theorem action_injective : Function.Injective PrivacyXcmMessage.action := by
  rintro (_ | _ | _ | _) (_ | _ | _ | _) h <;> cases h <;> rfl

end XcmMessage
