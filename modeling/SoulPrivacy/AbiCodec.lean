import SoulPrivacy.Abi
import SoulPrivacy.Keccak

/-!
# Calls of contracts

The data of a call is the selector of a function – the first bytes of the hash
of its signature – and the encoding of its arguments: a head, where each
argument has its place, and a tail for the contents of the `bytes` among them,
whose place in the head says where their content starts.

A function reads its arguments from their places. What was encoded with the
types of the function is read back (`decodeTokens_encodeTokens`), while data
with another selector is not a call of it (`decodeCall_of_ne`).
-/

namespace Abi

/-- The types of arguments. -/
inductive Ty where
  | uint256
  | bytes32
  | address
  | bytes
  | bytes32Array (n : ℕ)
  deriving DecidableEq

/-- The arguments, `Token`. -/
inductive Token where
  | uint (n : Uint256)
  | fixedBytes (w : Bytes32)
  | address (a : Address)
  | bytes (b : Bytes)
  | fixedArray (ws : List Bytes32)
  deriving DecidableEq

namespace Ty

/-- The name of a type, as signatures have it. -/
def name : Ty → String
  | uint256 => "uint256"
  | bytes32 => "bytes32"
  | address => "address"
  | bytes => "bytes"
  | bytes32Array n => "bytes32[" ++ toString n ++ "]"

/-- The bytes of its place in the head. -/
def headSize : Ty → ℕ
  | bytes32Array n => 32 * n
  | _ => 32

end Ty

/-- The bytes of the head. -/
def headSize (types : List Ty) : ℕ := (types.map Ty.headSize).sum

/-! ## Encoding -/

namespace Token

/-- The type of an argument. -/
def type : Token → Ty
  | uint _ => .uint256
  | fixedBytes _ => .bytes32
  | address _ => .address
  | bytes _ => .bytes
  | fixedArray ws => .bytes32Array ws.length

/-- What stands in the head, when the content starts at `offset`. -/
def head (offset : ℕ) : Token → Bytes
  | uint n => Bytes32.toBytes n
  | fixedBytes w => w.toBytes
  | address a => Bytes32.toBytes a.toWord
  | bytes _ => beBytes 32 offset
  | fixedArray ws => ws.flatMap Bytes32.toBytes

/-- What stands in the tail. -/
def tail : Token → Bytes
  | bytes b => beBytes 32 b.length ++ b ++ padding b.length
  | _ => []

@[simp] theorem length_head (offset : ℕ) (t : Token) :
    (t.head offset).length = t.type.headSize := by
  cases t with
  | fixedArray ws => simp [head, type, Ty.headSize, List.length_flatMap, Nat.mul_comm]
  | _ => simp [head, type, Ty.headSize]

end Token

/-- The heads of some arguments, whose contents start at `offset`. -/
def encodeHeads : ℕ → List Token → Bytes
  | _, [] => []
  | offset, t :: ts => t.head offset ++ encodeHeads (offset + t.tail.length) ts

/-- **The encoding of some arguments**, `ethabi::encode`. -/
def encodeTokens (tokens : List Token) : Bytes :=
  encodeHeads (headSize (tokens.map Token.type)) tokens ++ tokens.flatMap Token.tail

@[simp] theorem length_encodeHeads (offset : ℕ) (tokens : List Token) :
    (encodeHeads offset tokens).length = headSize (tokens.map Token.type) := by
  induction tokens generalizing offset with
  | nil => rfl
  | cons t ts ih => simp [encodeHeads, headSize, ih]

/-! ## Decoding -/

/-- The `bytes` whose content starts at `offset`: its place has to be within the data, its
length in front of it, and it may not lead out of the data. -/
def decodeBytes (data : Bytes) (offset : ℕ) : Option Bytes :=
  if offset < 2 ^ 64 ∧ offset + 31 < data.length ∧ readWord data offset < 2 ^ 64
      ∧ offset + 32 + readWord data offset ≤ data.length then
    some ((data.drop (offset + 32)).take (readWord data offset))
  else none

/-- The address of a word, if it is one. -/
def decodeAddress (word : ℕ) : Option Token :=
  if word < 2 ^ 160 then some (.address (BitVec.ofNat 160 word)) else none

/-- The argument at a place of the head. -/
def decodeToken (data : Bytes) (place : ℕ) : Ty → Option Token
  | .uint256 => some (.uint (BitVec.ofNat 256 (readWord data place)))
  | .bytes32 => some (.fixedBytes (BitVec.ofNat 256 (readWord data place)))
  | .address => decodeAddress (readWord data place)
  | .bytes => (decodeBytes data (readWord data place)).map .bytes
  | .bytes32Array n => some (.fixedArray ((List.range n).map
      (fun i => BitVec.ofNat 256 (readWord data (place + 32 * i)))))

/-- The arguments from a place on. -/
def decodeFrom (data : Bytes) : ℕ → List Ty → Option (List Token)
  | _, [] => some []
  | place, ty :: types => do
    let t ← decodeToken data place ty
    let ts ← decodeFrom data (place + ty.headSize) types
    some (t :: ts)

/-- **The arguments of these types in some data**, as a function reads them. -/
def decodeTokens (types : List Ty) (data : Bytes) : Option (List Token) :=
  if headSize types ≤ data.length then decodeFrom data 0 types else none

/-! ## Functions -/

/-- The selector of a signature. -/
def selector (signature : String) : Bytes := (Keccak.keccak256 (ascii signature)).take 4

@[simp] theorem length_selector (signature : String) : (selector signature).length = 4 := by
  simp [selector]

/-- A function of a contract. -/
structure Function where
  name : String
  types : List Ty

namespace Function

/-- Its signature. -/
def signature (f : Function) : String :=
  f.name ++ "(" ++ ",".intercalate (f.types.map Ty.name) ++ ")"

/-- **The arguments that some data calls the function with**, if it does. -/
def decodeCall (f : Function) (calldata : Bytes) : Option (List Token) :=
  if calldata.take 4 = selector f.signature then decodeTokens f.types (calldata.drop 4) else none

/-- A call with the selector of the function. -/
theorem decodeCall_selector (f : Function) (args : Bytes) :
    f.decodeCall (selector f.signature ++ args) = decodeTokens f.types args := by
  unfold decodeCall
  rw [List.take_left' (length_selector _), List.drop_left' (length_selector _), if_pos rfl]

/-- **Data with another selector is no call of the function.** -/
theorem decodeCall_of_ne {f : Function} {signature : String}
    (h : selector signature ≠ selector f.signature) (args : Bytes) :
    f.decodeCall (selector signature ++ args) = none := by
  unfold decodeCall
  rw [List.take_left' (length_selector _), if_neg h]

end Function

/-! ## Reading back -/

theorem ofNat_readWord (front rest : Bytes) (w : Bytes32) :
    BitVec.ofNat 256 (readWord (front ++ (w.toBytes ++ rest)) front.length) = w := by
  have hlt : w.toNat < 256 ^ 32 := w.isLt.trans_le (by decide)
  rw [Bytes32.toBytes_eq_beBytes, readWord_append front rest hlt, BitVec.ofNat_toNat,
    BitVec.setWidth_eq]

/-- The words of an array. -/
theorem map_readWord (front rest : Bytes) (ws : List Bytes32) :
    (List.range ws.length).map (fun i => BitVec.ofNat 256
      (readWord (front ++ (ws.flatMap Bytes32.toBytes ++ rest)) (front.length + 32 * i))) = ws := by
  induction ws generalizing front with
  | nil => rfl
  | cons w ws ih =>
    have hfirst := ofNat_readWord front (ws.flatMap Bytes32.toBytes ++ rest) w
    have hrest := ih (front ++ w.toBytes)
    rw [List.length_append, Bytes32.length_toBytes] at hrest
    rw [List.length_cons, List.range_succ_eq_map, List.map_cons, List.map_map,
      List.flatMap_cons, List.append_assoc, Nat.mul_zero, Nat.add_zero, hfirst]
    refine congrArg (w :: ·) (Eq.trans (List.map_congr_left (fun i _ => ?_)) hrest)
    show BitVec.ofNat 256 (readWord _ (front.length + 32 * (i + 1))) = _
    rw [List.append_assoc, Nat.mul_succ, Nat.add_comm (32 * i) 32, ← Nat.add_assoc]

/-- **A `bytes` is read back** from where its tail starts. -/
theorem decodeBytes_tail (front rest b : Bytes)
    (hlen : (front ++ ((Token.bytes b).tail ++ rest)).length < 2 ^ 64) :
    decodeBytes (front ++ ((Token.bytes b).tail ++ rest)) front.length = some b := by
  have hpow : (2 : ℕ) ^ 64 ≤ 256 ^ 32 := by decide
  have htail : (Token.bytes b).tail ++ rest
      = beBytes 32 b.length ++ (b ++ (padding b.length ++ rest)) := by
    simp [Token.tail]
  have hword : readWord (front ++ ((Token.bytes b).tail ++ rest)) front.length = b.length := by
    rw [htail]
    refine readWord_append front _ (lt_of_lt_of_le ?_ hpow)
    simp [Token.tail] at hlen
    omega
  have hcontent : ((front ++ ((Token.bytes b).tail ++ rest)).drop (front.length + 32)).take
      b.length = b := by
    have hsplit : front ++ ((Token.bytes b).tail ++ rest)
        = (front ++ beBytes 32 b.length) ++ (b ++ (padding b.length ++ rest)) := by
      rw [htail, List.append_assoc]
    rw [hsplit, List.drop_left' (by simp), List.take_left]
  unfold decodeBytes
  rw [hword, hcontent, if_pos]
  simp [Token.tail] at hlen ⊢
  omega

/-- An argument is read back from its place, and a `bytes` from the tail. -/
theorem decodeToken_head {t : Token} {offset : ℕ} {front mid rest : Bytes}
    (hoffset : offset = (front ++ (t.head offset ++ mid)).length)
    (hlen : ∀ b, t = .bytes b →
      (front ++ (t.head offset ++ (mid ++ (t.tail ++ rest)))).length < 2 ^ 64) :
    decodeToken (front ++ (t.head offset ++ (mid ++ (t.tail ++ rest)))) front.length t.type
      = some t := by
  cases t with
  | uint n => exact congrArg (fun w => some (Token.uint w)) (ofNat_readWord front _ n)
  | fixedBytes w => exact congrArg (fun w => some (Token.fixedBytes w)) (ofNat_readWord front _ w)
  | address a =>
    have hlt : a.toNat < 256 ^ 32 := a.isLt.trans_le (by decide)
    have hword := readWord_append front (mid ++ ((Token.address a).tail ++ rest)) hlt
    rw [← Address.toNat_toWord, ← Bytes32.toBytes_eq_beBytes, Address.toNat_toWord] at hword
    refine (congrArg decodeAddress hword).trans ?_
    rw [decodeAddress, if_pos a.isLt, BitVec.ofNat_toNat, BitVec.setWidth_eq]
  | bytes b =>
    have hsplit : front ++ ((Token.bytes b).head offset ++ (mid ++ ((Token.bytes b).tail ++ rest)))
        = front ++ ((Token.bytes b).head offset ++ mid) ++ ((Token.bytes b).tail ++ rest) := by
      simp only [List.append_assoc]
    have hshort := hlen b rfl
    rw [hsplit] at hshort
    have hlt : offset < 256 ^ 32 := by
      have hle := Nat.le_add_right offset ((Token.bytes b).tail ++ rest).length
      rw [List.length_append, ← hoffset] at hshort
      exact (hle.trans_lt hshort).trans_le (by decide)
    have hread := decodeBytes_tail _ rest b hshort
    rw [← hoffset, ← hsplit] at hread
    show (decodeBytes _ (readWord (front ++ (beBytes 32 offset ++ _)) front.length)).map
      Token.bytes = _
    rw [readWord_append front _ hlt]
    exact congrArg (Option.map Token.bytes) hread
  | fixedArray ws =>
    exact congrArg (fun ws => some (Token.fixedArray ws)) (map_readWord front _ ws)

/-- The arguments from a place on, with the contents of the earlier ones in between. -/
theorem decodeFrom_encodeHeads (tokens : List Token) (rest : Bytes) {offset : ℕ}
    {front mid : Bytes}
    (hoffset : offset = (front ++ (encodeHeads offset tokens ++ mid)).length)
    (hlen : ∀ b, Token.bytes b ∈ tokens → (front ++ (encodeHeads offset tokens
      ++ (mid ++ (tokens.flatMap Token.tail ++ rest)))).length < 2 ^ 64) :
    decodeFrom (front ++ (encodeHeads offset tokens
      ++ (mid ++ (tokens.flatMap Token.tail ++ rest)))) front.length (tokens.map Token.type)
      = some tokens := by
  induction tokens generalizing offset front mid with
  | nil => rfl
  | cons t ts ih =>
    -- the data, cut for the first argument and for the others
    have hfirst : front ++ (encodeHeads offset (t :: ts)
          ++ (mid ++ ((t :: ts).flatMap Token.tail ++ rest)))
        = front ++ (t.head offset ++ ((encodeHeads (offset + t.tail.length) ts ++ mid)
          ++ (t.tail ++ (ts.flatMap Token.tail ++ rest)))) := by
      simp only [encodeHeads, List.flatMap_cons, List.append_assoc]
    have hrest : front ++ (encodeHeads offset (t :: ts)
          ++ (mid ++ ((t :: ts).flatMap Token.tail ++ rest)))
        = (front ++ t.head offset) ++ (encodeHeads (offset + t.tail.length) ts
          ++ ((mid ++ t.tail) ++ (ts.flatMap Token.tail ++ rest))) := by
      simp only [encodeHeads, List.flatMap_cons, List.append_assoc]
    have htoken : decodeToken (front ++ (encodeHeads offset (t :: ts)
        ++ (mid ++ ((t :: ts).flatMap Token.tail ++ rest)))) front.length t.type = some t := by
      rw [hfirst] at hlen ⊢
      refine decodeToken_head (hoffset.trans (congrArg List.length ?_))
        (fun b hb => hlen b (hb ▸ List.mem_cons_self))
      simp only [encodeHeads, List.append_assoc]
    have htokens : decodeFrom (front ++ (encodeHeads offset (t :: ts)
        ++ (mid ++ ((t :: ts).flatMap Token.tail ++ rest)))) (front.length + t.type.headSize)
        (ts.map Token.type) = some ts := by
      rw [hrest] at hlen ⊢
      rw [← Token.length_head offset t, ← List.length_append]
      refine ih ?_ (fun b hb => hlen b (List.mem_cons_of_mem _ hb))
      have hlength := congrArg (· + t.tail.length) hoffset
      simp only [encodeHeads, List.length_append] at hlength ⊢
      omega
    rw [List.map_cons, decodeFrom, htoken, htokens]
    rfl

/-- **What was encoded is read back.** -/
theorem decodeTokens_encodeTokens (tokens : List Token)
    (hlen : (encodeTokens tokens).length < 2 ^ 64) :
    decodeTokens (tokens.map Token.type) (encodeTokens tokens) = some tokens := by
  have hhead : headSize (tokens.map Token.type) ≤ (encodeTokens tokens).length := by
    simp [encodeTokens]
  have hdata : encodeTokens tokens = [] ++ (encodeHeads (headSize (tokens.map Token.type)) tokens
      ++ ([] ++ (tokens.flatMap Token.tail ++ []))) := by
    simp [encodeTokens]
  unfold decodeTokens
  rw [if_pos hhead]
  rw [hdata] at hlen ⊢
  exact decodeFrom_encodeHeads tokens [] (by simp) (fun _ _ => hlen)

end Abi
