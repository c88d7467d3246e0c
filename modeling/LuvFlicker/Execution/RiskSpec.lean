import LuvFlicker.Execution.Risk

/-!
# Pre-trade risk over the integers

The checks of an order as statements about integers, and what the masks of the
evaluation make of them.
-/

namespace LuvFlicker.PreTradeRisk

open Exec Numeric Int64

/-! ## The checks -/

section

variable (limits : RiskLimits)

def QtyOk (intent : OrderIntent) : Prop :=
  0 < intent.qty.toInt ∧ intent.qty.toInt ≤ limits.maxOrderQty.toInt

section

variable (risk : RiskState)

def PositionOk (limits : RiskLimits) (intent : OrderIntent) (qty : Int) : Prop :=
  |risk.netPosition + signedQtyDelta intent.side qty| ≤ limits.maxAbsPosition.toInt

def AlphaOk (intent : OrderIntent) : Prop :=
  0 ≤ (intent.nowNs.toNat : Int) - intent.alphaTimestampNs.toNat ∧
    (intent.nowNs.toNat : Int) - intent.alphaTimestampNs.toNat ≤ limits.maxAlphaAgeNs.toNat

def HaltOk (limits : RiskLimits) : Prop :=
  risk.halted = false ∧ (0 < limits.maxGrossLoss.toInt → risk.currentDrawdown ≤ limits.maxGrossLoss.toInt)

def CollarOk (intent : OrderIntent) : Prop :=
  0 < limits.referencePrice.toInt → 0 < limits.maxPriceCollarPct.toInt →
    100 * |intent.price.toInt - limits.referencePrice.toInt| ≤
      limits.maxPriceCollarPct.toInt * limits.referencePrice.toInt

structure PriceOk (limits : RiskLimits) (intent : OrderIntent) (qty : Int) : Prop where
  range : limits.minPrice.toInt ≤ intent.price.toInt ∧ intent.price.toInt ≤ limits.maxPrice.toInt
  collar : CollarOk limits intent
  notional : kInt64Min ≤ risk.grossExposure + intent.price.toInt * qty ∧
    risk.grossExposure + intent.price.toInt * qty ≤ kInt64Max

structure AllOk (limits : RiskLimits) (intent : OrderIntent) : Prop where
  qty : QtyOk limits intent
  position : PositionOk risk limits intent intent.qty.toInt
  alpha : AlphaOk limits intent
  halt : HaltOk risk limits
  price : PriceOk risk limits intent intent.qty.toInt

end

def CollarFits : Prop := 0 < limits.referencePrice.toInt → 0 < limits.maxPriceCollarPct.toInt →
    limits.referencePrice.toInt * limits.maxPriceCollarPct.toInt < 2 ^ 64

end

section

variable (risk : RiskState) (limits : RiskLimits) (intent : OrderIntent) (qty : Int)

instance : Decidable (QtyOk limits intent) := inferInstanceAs (Decidable (_ ∧ _))

instance : Decidable (PositionOk risk limits intent qty) := inferInstanceAs (Decidable (_ ≤ _))

instance : Decidable (AlphaOk limits intent) := inferInstanceAs (Decidable (_ ∧ _))

instance : Decidable (HaltOk risk limits) := inferInstanceAs (Decidable (_ ∧ _))

instance : Decidable (CollarOk limits intent) := inferInstanceAs (Decidable (_ → _))

instance : Decidable (PriceOk risk limits intent qty) :=
  decidable_of_iff (_ ∧ _ ∧ _) ⟨fun h => ⟨h.1, h.2.1, h.2.2⟩, fun h => ⟨h.range, h.collar, h.notional⟩⟩

instance : Decidable (AllOk risk limits intent) := decidable_of_iff (_ ∧ _ ∧ _ ∧ _ ∧ _)
    ⟨fun h => ⟨h.1, h.2.1, h.2.2.1, h.2.2.2.1, h.2.2.2.2⟩, fun h => ⟨h.qty, h.position, h.alpha, h.halt, h.price⟩⟩

end

/-! ## The masks -/

variable {risk : RiskState} {limits : RiskLimits} {intent : OrderIntent}

theorem validQty_iff : validQty limits intent = true ↔ QtyOk limits intent := by
  rw [validQty, Bool.and_eq_true, decide_eq_true_iff, decide_eq_true_iff, lt_iff_toInt_lt, le_iff_toInt_le]
  exact Iff.rfl

theorem safeQty_of_ok (h : QtyOk limits intent) : safeQty limits intent = intent.qty.toInt := by
  rw [safeQty, if_pos]
  rw [lt_iff_toInt_lt, le_iff_toInt_le]
  exact h

theorem safeQty_of_not (h : ¬ QtyOk limits intent) : safeQty limits intent = 0 := by
  rw [safeQty, if_neg]
  rw [lt_iff_toInt_lt, le_iff_toInt_le]
  exact h

structure Valid (limits : RiskLimits) : Prop where
  position : 0 ≤ limits.maxAbsPosition.toInt
  minPrice : 1 ≤ limits.minPrice.toInt
  price_le : limits.minPrice.toInt ≤ limits.maxPrice.toInt
  maxPrice : limits.maxPrice.toInt ≤ 0xFFFFFFFF
  reference : 0 ≤ limits.referencePrice.toInt
  pct : 0 ≤ limits.maxPriceCollarPct.toInt ∧ limits.maxPriceCollarPct.toInt ≤ 100

theorem valid_of_isValid (h : limits.isValid = true) : Valid limits := by
  simp only [RiskLimits.isValid, Bool.and_eq_true, decide_eq_true_eq, isValidPrice, le_iff_toInt_le] at h
  obtain ⟨⟨⟨⟨⟨⟨⟨⟨-, hPos⟩, hMin⟩, hLe⟩, hMax⟩, hRef⟩, hPct⟩, hPct100⟩, -⟩ := h
  exact ⟨hPos, hMin.1, hLe, hMax, hRef, hPct, hPct100⟩

theorem fitsInt64_iff {x : Int} : fitsInt64 x = true ↔ kInt64Min ≤ x ∧ x ≤ kInt64Max := by
  rw [fitsInt64, Bool.and_eq_true, decide_eq_true_iff, decide_eq_true_iff]

theorem validAlpha_iff : validAlpha limits intent = true ↔ AlphaOk limits intent := by
  rw [validAlpha, Bool.and_eq_true, decide_eq_true_iff, decide_eq_true_iff, AlphaOk, UInt64.le_iff_toNat_le,
    UInt64.le_iff_toNat_le]
  constructor
  · rintro ⟨hOrder, hAge⟩
    rw [UInt64.toNat_sub_of_le _ _ (UInt64.le_iff_toNat_le.mpr hOrder)] at hAge
    omega
  rintro ⟨hOrder, hAge⟩
  have hLe : intent.alphaTimestampNs.toNat ≤ intent.nowNs.toNat := by omega
  refine ⟨hLe, ?_⟩
  rw [UInt64.toNat_sub_of_le _ _ (UInt64.le_iff_toNat_le.mpr hLe)]
  omega

theorem haltGroup_iff : (!risk.halted && lossOk risk limits) = true ↔ HaltOk risk limits := by
  have hZero : (0 : Int64).toInt = 0 := rfl
  rw [Bool.and_eq_true, Bool.not_eq_true', lossOk, Bool.or_eq_true, decide_eq_true_iff, decide_eq_true_iff,
    le_iff_toInt_le]
  refine and_congr_right fun _ => ?_
  omega

theorem toNat_diff (price reference : UInt64) :
    ((if price ≥ reference then price - reference else reference - price).toNat : Int) =
      |(price.toNat : Int) - reference.toNat| := by
  split
  next hAbove =>
    rw [UInt64.toNat_sub_of_le _ _ hAbove, Nat.cast_sub (UInt64.le_iff_toNat_le.mp hAbove), abs_of_nonneg]
    exact sub_nonneg.mpr (Int.ofNat_le.mpr (UInt64.le_iff_toNat_le.mp hAbove))
  rename_i hBelow
  have hLe : price ≤ reference := UInt64.le_of_lt (UInt64.not_le.mp hBelow)
  rw [UInt64.toNat_sub_of_le _ _ hLe, Nat.cast_sub (UInt64.le_iff_toNat_le.mp hLe), abs_sub_comm, abs_of_nonneg]
  exact sub_nonneg.mpr (Int.ofNat_le.mpr (UInt64.le_iff_toNat_le.mp hLe))

theorem le_percentage_iff {price reference pct diff : Nat} (hPct : pct ≤ 100) (hPrice : price ≤ 0xFFFFFFFF)
    (hDiff : reference ≤ diff + price) :
    diff ≤ reference * pct % 2 ^ 64 / 100 ↔ reference * pct < 2 ^ 64 ∧ 100 * diff ≤ pct * reference := by
  have hBound := Nat.mul_le_mul_left reference hPct
  rw [mul_comm pct _]
  generalize reference * pct = product at hBound
  rcases lt_or_ge product (2 ^ 64) with _ | _
  · omega
  · omega

theorem safeQty_nonneg : 0 ≤ safeQty limits intent := by
  by_cases h : QtyOk limits intent
  · rw [safeQty_of_ok h]
    exact le_of_lt h.1
  · rw [safeQty_of_not h]

theorem validNotional_iff (hGross : 0 ≤ risk.grossExposure) (hPrice : 0 ≤ intent.price.toInt) :
    validNotional risk limits intent = true ↔
      kInt64Min ≤ risk.grossExposure + intent.price.toInt * safeQty limits intent ∧
        risk.grossExposure + intent.price.toInt * safeQty limits intent ≤ kInt64Max := by
  have hNotional : 0 ≤ intent.price.toInt * safeQty limits intent := Int.mul_nonneg hPrice safeQty_nonneg
  rw [validNotional, Bool.and_eq_true, Bool.and_eq_true, fitsInt64_iff, fitsInt64_iff, decide_eq_true_iff]
  constructor
  · rintro ⟨⟨-, hSum⟩, -⟩
    exact hSum
  rintro ⟨hLow, hHigh⟩
  refine ⟨⟨⟨?_, ?_⟩, hLow, hHigh⟩, hGross⟩
  · rw [kInt64Min]
    omega
  · omega

section

variable (h : Valid limits)
include h

theorem validPos_iff : validPos risk limits intent = true ↔ PositionOk risk limits intent (safeQty limits intent) := by
  have hNat := toUInt64_toNat_of_nonneg (le_iff_toInt_le.mpr h.position)
  have hMax := limits.maxAbsPosition.toInt_lt
  rw [validPos, Bool.and_eq_true, Bool.and_eq_true, decide_eq_true_iff, decide_eq_true_iff, fitsInt64_iff,
    le_iff_toInt_le, ← Int.ofNat_le, hNat, Int.natCast_natAbs, projected]
  constructor
  · rintro ⟨-, hAbs⟩
    exact hAbs
  intro hAbs
  have hBoth := abs_le.mp hAbs
  refine ⟨⟨⟨?_, ?_⟩, h.position⟩, hAbs⟩
  · rw [kInt64Min]
    omega
  · rw [kInt64Max]
    omega

theorem validPrice_iff : validPrice limits intent = true ↔
    limits.minPrice.toInt ≤ intent.price.toInt ∧ intent.price.toInt ≤ limits.maxPrice.toInt := by
  have hMin := h.minPrice
  have hLe := h.price_le
  have hMax := h.maxPrice
  have hMinPos : limits.minPrice > 0 := Int64.lt_iff_toInt_lt.mpr hMin
  have hMaxPos : limits.maxPrice > 0 := Int64.lt_iff_toInt_lt.mpr (hMin.trans hLe)
  have hMaxNat := toUInt64_toNat_of_nonneg (Int64.le_of_lt hMaxPos)
  rw [validPrice, if_pos hMinPos, if_pos hMaxPos, Bool.and_eq_true, Bool.and_eq_true, decide_eq_true_iff,
    decide_eq_true_iff, decide_eq_true_iff, Int64.le_iff_toInt_le, UInt64.le_iff_toNat_le, UInt64.le_iff_toNat_le,
    and_assoc]
  refine and_congr_right fun hPrice => ?_
  have hPriceNat :=
    toUInt64_toNat_of_nonneg (le_iff_toInt_le.mpr ((Int.zero_le_ofNat 1).trans (hMin.trans hPrice)))
  have hLast : (0xFFFFFFFF : UInt64).toNat = 0xFFFFFFFF := rfl
  omega

theorem collarOk_iff
    (hPrice : limits.minPrice.toInt ≤ intent.price.toInt ∧ intent.price.toInt ≤ limits.maxPrice.toInt) :
    collarOk limits intent = true ↔ CollarFits limits ∧ CollarOk limits intent := by
  have hZero : (0 : Int64).toInt = 0 := rfl
  have hMin := h.minPrice
  have hMax := h.maxPrice
  have hPct := h.pct
  have hRefNat := toUInt64_toNat_of_nonneg (le_iff_toInt_le.mpr h.reference)
  have hPctNat := toUInt64_toNat_of_nonneg (le_iff_toInt_le.mpr hPct.1)
  have hPriceNat : (intent.price.toUInt64.toNat : Int) = intent.price.toInt :=
    toUInt64_toNat_of_nonneg (le_iff_toInt_le.mpr (by omega))
  rw [collarOk, CollarFits, CollarOk]
  split
  next hCollar =>
    rw [gt_iff_lt, gt_iff_lt, lt_iff_toInt_lt, lt_iff_toInt_lt] at hCollar
    have hDiff := toNat_diff intent.price.toUInt64 limits.referencePrice.toUInt64
    have hHundred : (100 : UInt64).toNat = 100 := rfl
    rw [decide_eq_true_iff, UInt64.le_iff_toNat_le, UInt64.toNat_div, UInt64.toNat_mul, hHundred]
    generalize (if intent.price.toUInt64 ≥ limits.referencePrice.toUInt64 then _ else _ : UInt64).toNat = diff at hDiff
    rw [hPriceNat, hRefNat] at hDiff
    have hFar : limits.referencePrice.toUInt64.toNat ≤ diff + intent.price.toUInt64.toNat := by
      have hLe := neg_abs_le (intent.price.toInt - limits.referencePrice.toInt)
      omega
    rw [le_percentage_iff (by omega) (by omega) hFar, ← hDiff, ← hRefNat, ← hPctNat]
    rw [← hRefNat, ← hPctNat] at hCollar
    constructor
    · rintro ⟨hFits, hLe⟩
      exact ⟨fun _ _ => by exact_mod_cast hFits, fun _ _ => by exact_mod_cast hLe⟩
    · rintro ⟨hFits, hLe⟩
      exact ⟨by exact_mod_cast hFits hCollar.1 hCollar.2, by exact_mod_cast hLe hCollar.1 hCollar.2⟩
  next hNone =>
    rw [gt_iff_lt, gt_iff_lt, lt_iff_toInt_lt, lt_iff_toInt_lt] at hNone
    refine iff_of_true rfl ⟨fun hRef hPct => ?_, fun hRef hPct => ?_⟩
    all_goals exact absurd ⟨hRef, hPct⟩ hNone

theorem priceGroup_iff (hGross : 0 ≤ risk.grossExposure) :
    (validPrice limits intent && collarOk limits intent && validNotional risk limits intent) = true ↔
      CollarFits limits ∧ PriceOk risk limits intent (safeQty limits intent) := by
  have hMin := h.minPrice
  rw [Bool.and_eq_true, Bool.and_eq_true, validPrice_iff h]
  constructor
  · rintro ⟨⟨hRange, hCollar⟩, hNotional⟩
    rw [collarOk_iff h hRange] at hCollar
    rw [validNotional_iff hGross (by omega)] at hNotional
    exact ⟨hCollar.1, hRange, hCollar.2, hNotional⟩
  · rintro ⟨hFits, hRange, hCollar, hNotional⟩
    rw [collarOk_iff h hRange, validNotional_iff hGross (by omega)]
    exact ⟨⟨hRange, hFits, hCollar⟩, hNotional⟩

end

/-! ## The decision -/

def groupMask (qty position alpha halt price : Bool) : UInt8 :=
  rejectBit qty kRejectQty ||| rejectBit position kRejectPosition ||| rejectBit alpha kRejectStaleAlpha |||
    rejectBit halt kRejectHalted ||| rejectBit price kRejectPrice

theorem decision_eq (qty position alpha running loss price notional : Bool) :
    (⟨qty && position && alpha && running && price && (price && notional) && loss,
      if qty && position && alpha && running && price && (price && notional) && loss then 0
      else groupMask qty position alpha (running && loss) (price && (price && notional))⟩ : RiskDecision) =
    ⟨qty && position && alpha && (running && loss) && (price && notional),
      groupMask qty position alpha (running && loss) (price && notional)⟩ := by
  revert qty position alpha running loss price notional
  decide

theorem evaluate_eq (risk : RiskState) (limits : RiskLimits) (intent : OrderIntent) : evaluate risk limits intent =
      ⟨validQty limits intent && validPos risk limits intent && validAlpha limits intent &&
          (!risk.halted && lossOk risk limits) &&
          (validPrice limits intent && collarOk limits intent && validNotional risk limits intent),
        groupMask (validQty limits intent) (validPos risk limits intent) (validAlpha limits intent)
          (!risk.halted && lossOk risk limits)
          (validPrice limits intent && collarOk limits intent && validNotional risk limits intent)⟩ :=
  decision_eq ..

/-- What the decision owes its checks: it passes the orders that pass all of them, its mask is zero for these only, and
the mask of another order has the bit of every group that fails. -/
structure MeetsSpec (risk : RiskState) (limits : RiskLimits) (intent : OrderIntent) (decision : RiskDecision) :
    Prop where
  pass : decision.pass = true ↔ AllOk risk limits intent
  mask : decision.rejectMask = 0 ↔ decision.pass = true
  qty : ¬ QtyOk limits intent → decision.rejectMask &&& kRejectQty ≠ 0
  position : ¬ PositionOk risk limits intent intent.qty.toInt → decision.rejectMask &&& kRejectPosition ≠ 0
  alpha : ¬ AlphaOk limits intent → decision.rejectMask &&& kRejectStaleAlpha ≠ 0
  halt : ¬ HaltOk risk limits → decision.rejectMask &&& kRejectHalted ≠ 0
  price : ¬ PriceOk risk limits intent intent.qty.toInt → decision.rejectMask &&& kRejectPrice ≠ 0

/-- The collar of an order in order is computed without running over, and an order whose quantity is out of range fails
the position and the price group with that quantity only if it fails them with none. -/
structure Representable (risk : RiskState) (limits : RiskLimits) (intent : OrderIntent) : Prop where
  collar : AllOk risk limits intent → CollarFits limits
  position : ¬ QtyOk limits intent → PositionOk risk limits intent 0 → PositionOk risk limits intent intent.qty.toInt
  price : ¬ QtyOk limits intent → CollarFits limits → PriceOk risk limits intent 0 →
    PriceOk risk limits intent intent.qty.toInt

section

variable (risk : RiskState) (intent : OrderIntent) (h : Valid limits) (hGross : 0 ≤ risk.grossExposure)
include h hGross

theorem evaluate_pass_iff :
    (evaluate risk limits intent).pass = true ↔ CollarFits limits ∧ AllOk risk limits intent := by
  rw [evaluate_eq]
  rw [Bool.and_eq_true, Bool.and_eq_true, Bool.and_eq_true, Bool.and_eq_true, validQty_iff, validPos_iff h,
    validAlpha_iff, haltGroup_iff, priceGroup_iff h hGross]
  constructor
  · rintro ⟨⟨⟨⟨hQty, hPosition⟩, hAlpha⟩, hHalt⟩, hFits, hPrice⟩
    rw [safeQty_of_ok hQty] at hPosition hPrice
    exact ⟨hFits, hQty, hPosition, hAlpha, hHalt, hPrice⟩
  · rintro ⟨hFits, hQty, hPosition, hAlpha, hHalt, hPrice⟩
    rw [safeQty_of_ok hQty]
    exact ⟨⟨⟨⟨hQty, hPosition⟩, hAlpha⟩, hHalt⟩, hFits, hPrice⟩

theorem evaluate_bits : let mask := (evaluate risk limits intent).rejectMask
    (mask = 0 ↔ (evaluate risk limits intent).pass = true) ∧ (mask &&& kRejectQty ≠ 0 ↔ ¬ QtyOk limits intent) ∧
      (mask &&& kRejectPosition ≠ 0 ↔ ¬ PositionOk risk limits intent (safeQty limits intent)) ∧
      (mask &&& kRejectStaleAlpha ≠ 0 ↔ ¬ AlphaOk limits intent) ∧ (mask &&& kRejectHalted ≠ 0 ↔ ¬ HaltOk risk limits) ∧
      (mask &&& kRejectPrice ≠ 0 ↔ ¬ (CollarFits limits ∧ PriceOk risk limits intent (safeQty limits intent))) := by
  rw [← validQty_iff, ← validPos_iff h, ← validAlpha_iff, ← haltGroup_iff, ← priceGroup_iff h hGross, Bool.not_eq_true,
    Bool.not_eq_true, Bool.not_eq_true, Bool.not_eq_true, Bool.not_eq_true, evaluate_eq]
  generalize validQty limits intent = qty, validPos risk limits intent = position, validAlpha limits intent = alpha,
    (!risk.halted && lossOk risk limits) = halt,
    (validPrice limits intent && collarOk limits intent && validNotional risk limits intent) = price
  dsimp only
  revert qty position alpha halt price
  decide

end

/-- **Pre-trade risk against its checks.** -/
theorem evaluate_meetsSpec_iff (risk : RiskState) (limits : RiskLimits) (intent : OrderIntent)
    (hLimits : limits.isValid = true) (hGross : 0 ≤ risk.grossExposure) :
    MeetsSpec risk limits intent (evaluate risk limits intent) ↔ Representable risk limits intent := by
  have hValid := valid_of_isValid hLimits
  obtain ⟨hMask, hQty, hPosition, hAlpha, hHalt, hPrice⟩ := evaluate_bits risk _ hValid hGross
  have hPass := evaluate_pass_iff risk intent hValid hGross
  constructor
  · intro hSpec
    refine ⟨fun hOk => (hPass.mp (hSpec.pass.mpr hOk)).1, fun hNot hZero => ?_, fun hNot hFits hZero => ?_⟩
    · rw [safeQty_of_not hNot] at hPosition
      exact not_not.mp fun hFail => hPosition.mp (hSpec.position hFail) hZero
    · rw [safeQty_of_not hNot] at hPrice
      exact not_not.mp fun hFail => hPrice.mp (hSpec.price hFail) ⟨hFits, hZero⟩
  intro hRep
  refine ⟨?_, hMask, hQty.mpr, fun hFail => hPosition.mpr fun hOk => hFail ?_, hAlpha.mpr, hHalt.mpr,
    fun hFail => hPrice.mpr fun hOk => hFail ?_⟩
  · rw [hPass]
    exact ⟨And.right, fun hOk => ⟨hRep.collar hOk, hOk⟩⟩
  · by_cases hQtyOk : QtyOk limits intent
    · rwa [safeQty_of_ok hQtyOk] at hOk
    · rw [safeQty_of_not hQtyOk] at hOk
      exact hRep.position hQtyOk hOk
  · by_cases hQtyOk : QtyOk limits intent
    · rw [safeQty_of_ok hQtyOk] at hOk
      exact hOk.2
    · rw [safeQty_of_not hQtyOk] at hOk
      exact hRep.price hQtyOk hOk.1 hOk.2

def nearOrder : OrderIntent := { qty := 10, price := 101 }

def nearLimits : RiskLimits := { referencePrice := 100 }

theorem nearOrder_meetsSpec : MeetsSpec {} nearLimits nearOrder (evaluate {} nearLimits nearOrder) := by
  refine (evaluate_meetsSpec_iff {} nearLimits nearOrder (by decide) (by decide)).mpr ⟨?_, ?_, ?_⟩
  · intro _ _ _
    decide
  all_goals
    intro hQty
    exact absurd (by decide) hQty

def widestLimits : RiskLimits := { referencePrice := 0x7FFFFFFFFFFFFFFF, maxPriceCollarPct := 100 }

def hugeOrder : OrderIntent := { qty := 200000, price := 101 }

/-- The percentage runs over and an order that passes every check is refused; and the mask of an order too large for the
position limit does not tell so. -/
theorem widestCollar_refuses : widestLimits.isValid = true ∧ AllOk {} widestLimits nearOrder ∧
      (evaluate {} widestLimits nearOrder).pass = false ∧
      nearLimits.isValid = true ∧ ¬ PositionOk {} nearLimits hugeOrder hugeOrder.qty.toInt ∧
      (evaluate {} nearLimits hugeOrder).rejectMask &&& kRejectPosition = 0 := by
  decide +kernel

end LuvFlicker.PreTradeRisk
