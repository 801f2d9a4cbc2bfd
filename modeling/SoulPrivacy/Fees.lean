import SoulPrivacy.FlooredShare
import SoulPrivacy.Solidity

/-!
# The fees of a withdrawal (`fees.ts`)

A withdrawal is economical when less than half of it goes into fees. The fees
are the gas with the tip of the relayer, and a share of the value that is
rounded down. The least value that is economical is computed from the exact
share and rounded down once more. That makes it the value where the exact
line reaches one half, and not the one behind it. Only where the rounding of
the share makes up for it is the value economical, and the least one that is
(`isLeast_minimumEconomicalWithdrawal_iff`).
-/

/-- What the chain answers: the gas price, and the fee of a vault unless the
call fails. -/
structure FeeSource where
  gasPrice : ℕ
  currentFee : Address → Option ℕ

/-- `FeeEstimator`, as its constructor sets it up. -/
structure FeeEstimator where
  protocolFeeBps : ℤ
  tipMultiplier : ℕ
  gasOverride : Option ℕ
  feeVaultAddress : Option Address

namespace FeeEstimator

/-- `FeeEstimate`, without the formatted text. -/
structure FeeEstimate where
  totalFeeWei : ℤ
  gasCostWei : ℤ
  protocolFeeWei : ℤ
  relayerTipWei : ℤ
  gasEstimate : ℤ
  gasPriceWei : ℤ
  netWithdrawalWei : ℤ
  isEconomical : Bool
  deriving DecidableEq

/-- `DEFAULT_WITHDRAW_GAS`. -/
def DEFAULT_WITHDRAW_GAS : ℕ := 350000

/-- `DEFAULT_PROTOCOL_FEE_BPS`. -/
def DEFAULT_PROTOCOL_FEE_BPS : ℤ := 30

/-- `BPS_DENOMINATOR`. -/
def BPS_DENOMINATOR : ℤ := 10000

/-- `DEFAULT_TIP_MULTIPLIER`. -/
def DEFAULT_TIP_MULTIPLIER : ℕ := 110

/-- `TIP_DENOMINATOR`. -/
def TIP_DENOMINATOR : ℤ := 100

/-- The constructor, without a configuration. -/
def default : FeeEstimator where
  protocolFeeBps := DEFAULT_PROTOCOL_FEE_BPS
  tipMultiplier := DEFAULT_TIP_MULTIPLIER
  gasOverride := none
  feeVaultAddress := none

/-- The share of the exit value. -/
def shareOf (E : FeeEstimator) (exitValue : ℤ) : ℤ :=
  (exitValue * E.protocolFeeBps).tdiv BPS_DENOMINATOR

/-- The protocol fee: that of the vault if there is one and it answers. -/
def protocolFee (E : FeeEstimator) (chain : FeeSource) (exitValue : ℤ) : ℤ :=
  match E.feeVaultAddress with
  | some vault =>
    match chain.currentFee vault with
    | some fee => fee
    | none => shareOf E exitValue
  | none => shareOf E exitValue

/-- **`estimateWithdrawFee`.** -/
def estimateWithdrawFee (E : FeeEstimator) (chain : FeeSource) (exitValue : ℤ) : FeeEstimate :=
  let gasEstimate : ℤ := E.gasOverride.getD DEFAULT_WITHDRAW_GAS
  let gasPriceWei : ℤ := chain.gasPrice
  let gasCostWei := gasEstimate * gasPriceWei
  let relayerTipWei := (gasCostWei * E.tipMultiplier).tdiv TIP_DENOMINATOR - gasCostWei
  let protocolFeeWei := protocolFee E chain exitValue
  let totalFeeWei := gasCostWei + relayerTipWei + protocolFeeWei
  let netWithdrawalWei := if totalFeeWei < exitValue then exitValue - totalFeeWei else 0
  { totalFeeWei := totalFeeWei
    gasCostWei := gasCostWei
    protocolFeeWei := protocolFeeWei
    relayerTipWei := relayerTipWei
    gasEstimate := gasEstimate
    gasPriceWei := gasPriceWei
    netWithdrawalWei := netWithdrawalWei
    isEconomical := decide (0 < netWithdrawalWei) && decide (totalFeeWei * 2 < exitValue) }

/-- `isWithdrawalEconomical`. -/
def isWithdrawalEconomical (E : FeeEstimator) (chain : FeeSource) (exitValue : ℤ) : Bool :=
  (estimateWithdrawFee E chain exitValue).isEconomical

/-- **`minimumEconomicalWithdrawal`.** The gas and the tip are those of a
withdrawal of one ether. -/
def minimumEconomicalWithdrawal (E : FeeEstimator) (chain : FeeSource) : ℤ :=
  let est := estimateWithdrawFee E chain (10 ^ 18)
  let gasAndTip := est.gasCostWei + est.relayerTipWei
  let denominator := BPS_DENOMINATOR - 2 * E.protocolFeeBps
  if denominator ≤ 0 then 0 else (gasAndTip * 2 * BPS_DENOMINATOR).tdiv denominator

/-! ## When a withdrawal is economical -/

/-- The gas with the tip, which does not depend on the exit value. -/
def gasAndTip (E : FeeEstimator) (chain : FeeSource) : ℤ :=
  ((E.gasOverride.getD DEFAULT_WITHDRAW_GAS : ℤ) * chain.gasPrice * E.tipMultiplier).tdiv
    TIP_DENOMINATOR

variable {E : FeeEstimator} {chain : FeeSource} {v : ℤ}

theorem gasAndTip_nonneg (E : FeeEstimator) (chain : FeeSource) : 0 ≤ gasAndTip E chain :=
  Int.tdiv_nonneg (by positivity) (by decide)

theorem gasCostWei_add_relayerTipWei (E : FeeEstimator) (chain : FeeSource) (v : ℤ) :
    (estimateWithdrawFee E chain v).gasCostWei + (estimateWithdrawFee E chain v).relayerTipWei
      = gasAndTip E chain :=
  add_sub_cancel _ _

theorem totalFeeWei_eq (hvault : E.feeVaultAddress = none) (v : ℤ) :
    (estimateWithdrawFee E chain v).totalFeeWei = gasAndTip E chain + shareOf E v := by
  have hfee : protocolFee E chain v = shareOf E v := by
    unfold protocolFee
    rw [hvault]
  show (estimateWithdrawFee E chain v).gasCostWei + (estimateWithdrawFee E chain v).relayerTipWei
    + protocolFee E chain v = _
  rw [gasCostWei_add_relayerTipWei, hfee]

/-- A share that is not positive is rounded up. -/
theorem le_mul_shareOf (h : v * E.protocolFeeBps ≤ 0) :
    v * E.protocolFeeBps ≤ BPS_DENOMINATOR * shareOf E v := by
  have hneg := Int.mul_tdiv_self_le (k := BPS_DENOMINATOR) (neg_nonneg.mpr h)
  rw [Int.neg_tdiv, mul_neg] at hneg
  exact neg_le_neg_iff.mp hneg

/-- A share that is not negative is rounded down. -/
theorem shareOf_of_nonneg (h : 0 ≤ v * E.protocolFeeBps) :
    shareOf E v = v * E.protocolFeeBps / BPS_DENOMINATOR :=
  Int.tdiv_eq_ediv_of_nonneg h

/-- **Of less than half, there is something.** -/
theorem pos_of_fees_lt (hbps : E.protocolFeeBps < 5000)
    (h : 2 * (gasAndTip E chain + shareOf E v) < v) : 0 < v := by
  have hgas := gasAndTip_nonneg E chain
  by_contra hv
  rw [not_lt] at hv
  rcases le_or_gt 0 E.protocolFeeBps with hp | hp
  · have hshare := le_mul_shareOf (mul_nonpos_of_nonpos_of_nonneg hv hp)
    unfold BPS_DENOMINATOR at hshare
    -- the exact share is less than half of the value
    have hhalf : 0 ≤ -v * (5000 - E.protocolFeeBps) :=
      mul_nonneg (neg_nonneg.mpr hv) (sub_nonneg.mpr hbps.le)
    linarith
  · have hshare : 0 ≤ shareOf E v :=
      Int.tdiv_nonneg (mul_nonneg_of_nonpos_of_nonpos hv hp.le) (by decide)
    linarith

/-- **Economical is less than half**, without a vault. -/
theorem isEconomical_iff (hvault : E.feeVaultAddress = none) (hbps : E.protocolFeeBps < 5000) :
    (estimateWithdrawFee E chain v).isEconomical = true
      ↔ 2 * (gasAndTip E chain + shareOf E v) < v := by
  have htotal : (estimateWithdrawFee E chain v).totalFeeWei = gasAndTip E chain + shareOf E v :=
    totalFeeWei_eq hvault v
  show (decide (0 < (estimateWithdrawFee E chain v).netWithdrawalWei)
    && decide ((estimateWithdrawFee E chain v).totalFeeWei * 2 < v)) = true ↔ _
  rw [Bool.and_eq_true, decide_eq_true_eq, decide_eq_true_eq, htotal, mul_comm _ (2 : ℤ)]
  refine and_iff_right_of_imp (fun h => ?_)
  have hpos := pos_of_fees_lt hbps h
  have hlt : (estimateWithdrawFee E chain v).totalFeeWei < v := by
    rw [htotal]
    omega
  show 0 < if (estimateWithdrawFee E chain v).totalFeeWei < v
    then v - (estimateWithdrawFee E chain v).totalFeeWei else 0
  rw [if_pos hlt]
  exact sub_pos.mpr hlt

/-- What the closed form computes. -/
theorem minimumEconomicalWithdrawal_eq (hbps : E.protocolFeeBps < 5000) :
    minimumEconomicalWithdrawal E chain
      = gasAndTip E chain * 2 * BPS_DENOMINATOR / (BPS_DENOMINATOR - 2 * E.protocolFeeBps) := by
  have hpos : ¬ BPS_DENOMINATOR - 2 * E.protocolFeeBps ≤ 0 := by
    unfold BPS_DENOMINATOR
    omega
  have hnonneg : 0 ≤ gasAndTip E chain * 2 * BPS_DENOMINATOR :=
    mul_nonneg (mul_nonneg (gasAndTip_nonneg E chain) (by decide)) (by decide)
  unfold minimumEconomicalWithdrawal
  dsimp only
  rw [if_neg hpos, gasCostWei_add_relayerTipWei]
  exact Int.tdiv_eq_ediv_of_nonneg hnonneg

/-- Less than half, by what is left when the share is taken twice. -/
theorem lt_rest_iff (hp : 0 ≤ E.protocolFeeBps) (hv : 0 ≤ v) :
    2 * gasAndTip E chain < FlooredShare.rest E.protocolFeeBps BPS_DENOMINATOR v
      ↔ 2 * (gasAndTip E chain + shareOf E v) < v := by
  rw [shareOf_of_nonneg (mul_nonneg hv hp), FlooredShare.rest, lt_sub_iff_add_lt, mul_add]

/-- **The remainder of the share is in its range**, at the value of which
`f` is the share. -/
def RemainderInRange (E : FeeEstimator) (chain : FeeSource) : Prop :=
  ∃ f r : ℤ, 0 ≤ f
    ∧ r = E.protocolFeeBps * (2 * (gasAndTip E chain + f) + 1) - BPS_DENOMINATOR * f
    ∧ BPS_DENOMINATOR ≤ 2 * r ∧ 2 * E.protocolFeeBps ≤ r
    ∧ r + E.protocolFeeBps < BPS_DENOMINATOR

/-- With a negative share, nothing is economical where the exact line
passes. -/
theorem not_isEconomical_of_neg (hvault : E.feeVaultAddress = none) (hp : E.protocolFeeBps < 0) :
    ¬ (estimateWithdrawFee E chain (minimumEconomicalWithdrawal E chain)).isEconomical = true := by
  have hd : 0 < BPS_DENOMINATOR - 2 * E.protocolFeeBps := by
    unfold BPS_DENOMINATOR
    omega
  rw [isEconomical_iff hvault (by omega)]
  intro h
  have hpos := pos_of_fees_lt (by omega) h
  have hshare := le_mul_shareOf (mul_nonpos_of_nonneg_of_nonpos hpos.le hp.le)
  have hvalue : minimumEconomicalWithdrawal E chain = _ :=
    minimumEconomicalWithdrawal_eq (by omega)
  have hline := (FlooredShare.bounds hd hvalue).1
  unfold BPS_DENOMINATOR at hshare hline
  linarith

/-- **The value that is computed is the least economical one** if and only if
the remainder of the share is in its range. -/
theorem isLeast_minimumEconomicalWithdrawal_iff (hvault : E.feeVaultAddress = none)
    (hbps : E.protocolFeeBps < 5000) :
    IsLeast { v | (estimateWithdrawFee E chain v).isEconomical = true }
        (minimumEconomicalWithdrawal E chain)
      ↔ RemainderInRange E chain := by
  have hgas := gasAndTip_nonneg E chain
  rcases le_or_gt 0 E.protocolFeeBps with hp | hp
  · have hset : { v | (estimateWithdrawFee E chain v).isEconomical = true }
        = { v | 0 ≤ v ∧ 2 * gasAndTip E chain
          < FlooredShare.rest E.protocolFeeBps BPS_DENOMINATOR v } := by
      ext v
      show (estimateWithdrawFee E chain v).isEconomical = true ↔ _ ∧ _
      rw [isEconomical_iff hvault hbps]
      constructor
      · intro h
        have hpos := pos_of_fees_lt hbps h
        exact ⟨hpos.le, (lt_rest_iff hp hpos.le).mpr h⟩
      · rintro ⟨hv, h⟩
        exact (lt_rest_iff hp hv).mp h
    rw [hset]
    exact FlooredShare.isLeast_iff hp (by unfold BPS_DENOMINATOR; omega) hgas
      (minimumEconomicalWithdrawal_eq hbps)
  · refine iff_of_false (fun h => not_isEconomical_of_neg hvault hp h.1) ?_
    rintro ⟨f, r, hf, hr, hhalf, -⟩
    have hneg : E.protocolFeeBps * (2 * (gasAndTip E chain + f) + 1) ≤ 0 :=
      mul_nonpos_of_nonpos_of_nonneg hp.le (by omega)
    unfold BPS_DENOMINATOR at hr hhalf
    omega

/-- At a gas price of one, the value is 774647, of which 2323 is the share. -/
theorem isLeast_minimumEconomicalWithdrawal_one :
    (default.feeVaultAddress = none ∧ default.protocolFeeBps < 5000)
      ∧ IsLeast { v | (default.estimateWithdrawFee ⟨1, fun _ => none⟩ v).isEconomical = true }
        774647 :=
  ⟨⟨rfl, by decide⟩,
    (@isLeast_minimumEconomicalWithdrawal_iff default ⟨1, fun _ => none⟩ rfl (by decide)).mpr
      ⟨2323, 9410, by decide, by decide, by decide, by decide, by decide⟩⟩

/-- At ten gwei, half of the value that is computed goes into fees. -/
theorem minimumEconomicalWithdrawal_not_economical :
    minimumEconomicalWithdrawal default ⟨10 ^ 10, fun _ => none⟩ = 7746478873239436
      ∧ ¬ (estimateWithdrawFee default ⟨10 ^ 10, fun _ => none⟩
        7746478873239436).isEconomical = true := by
  decide

end FeeEstimator
