import LuvFlicker.Execution.Types

/-!
# Pre-trade risk

The check every submission passes before it is built into a packet.
-/

namespace LuvFlicker.PreTradeRisk

open Exec Numeric Bool Int64

def fitsInt64 (x : Int) : Bool := kInt64Min ≤ x && x ≤ kInt64Max

/-- The value of a sum or product in an `int64_t`. -/
def wrap (x : Int) : Int := x.bmod (2 ^ 64)

theorem wrap_of_fits {x : Int} (h : fitsInt64 x = true) : wrap x = x := by
  rw [fitsInt64, and_eq_true, decide_eq_true_iff, decide_eq_true_iff, kInt64Min, kInt64Max] at h
  apply Int.bmod_eq_of_le <;> omega

variable (limits : RiskLimits) (intent : OrderIntent)

def safeQty : Int :=
  if 0 < intent.qty ∧ intent.qty ≤ limits.maxOrderQty then intent.qty.toInt else 0

variable (risk : RiskState)

def projected (limits : RiskLimits) (intent : OrderIntent) : Int :=
  risk.netPosition + signedQtyDelta intent.side (safeQty limits intent)

def validQty : Bool := 0 < intent.qty && intent.qty ≤ limits.maxOrderQty

def validPos (limits : RiskLimits) (intent : OrderIntent) : Bool :=
  fitsInt64 (projected risk limits intent) && 0 ≤ limits.maxAbsPosition &&
    (projected risk limits intent).natAbs ≤ limits.maxAbsPosition.toUInt64.toNat

def validAlpha : Bool :=
  intent.alphaTimestampNs ≤ intent.nowNs && intent.nowNs - intent.alphaTimestampNs ≤ limits.maxAlphaAgeNs

def validPrice : Bool := (if limits.minPrice > 0 then limits.minPrice else 1) ≤ intent.price &&
    intent.price.toUInt64 ≤ (if limits.maxPrice > 0 then limits.maxPrice.toUInt64 else 0xFFFFFFFF) &&
    intent.price.toUInt64 ≤ 0xFFFFFFFF

def collarOk : Bool :=
  if limits.referencePrice > 0 ∧ limits.maxPriceCollarPct > 0 then
    let price := intent.price.toUInt64
    let reference := limits.referencePrice.toUInt64
    let diff := if price ≥ reference then price - reference else reference - price
    diff ≤ reference * limits.maxPriceCollarPct.toUInt64 / 100
  else true

section

variable (limits : RiskLimits)

def lossOk : Bool := limits.maxGrossLoss ≤ 0 || risk.currentDrawdown ≤ limits.maxGrossLoss.toInt

def validNotional (intent : OrderIntent) : Bool :=
  let orderNotional := intent.price.toInt * safeQty limits intent
  fitsInt64 orderNotional && fitsInt64 (risk.grossExposure + orderNotional) && 0 ≤ risk.grossExposure

def rejectBit (ok : Bool) (bit : UInt8) : UInt8 := if ok then 0 else bit

def evaluate (intent : OrderIntent) : RiskDecision :=
  let validPriceFinal := validPrice limits intent && collarOk limits intent
  let validNotional := validPriceFinal && validNotional risk limits intent
  let pass := validQty limits intent && validPos risk limits intent && validAlpha limits intent && !risk.halted &&
    validPriceFinal && validNotional && lossOk risk limits
  let reject :=
    rejectBit (validQty limits intent) kRejectQty ||| rejectBit (validPos risk limits intent) kRejectPosition |||
      rejectBit (validAlpha limits intent) kRejectStaleAlpha |||
      rejectBit (!risk.halted && lossOk risk limits) kRejectHalted |||
      rejectBit (validPriceFinal && validNotional) kRejectPrice
  ⟨pass, if pass then 0 else reject⟩

end

structure Passed (risk : RiskState) (limits : RiskLimits) (intent : OrderIntent) : Prop where
  qty_pos : 0 < intent.qty.toInt
  qty_le : intent.qty.toInt ≤ limits.maxOrderQty.toInt
  price_pos : 0 < intent.price.toInt
  position : |risk.netPosition + signedQtyDelta intent.side intent.qty.toInt| ≤ limits.maxAbsPosition.toInt

theorem toUInt64_toNat_of_nonneg {x : Int64} (h : 0 ≤ x) : (x.toUInt64.toNat : Int) = x.toInt := by
  rw [toNat_toUInt64_of_le h]
  exact Int.toNat_of_nonneg (le_iff_toInt_le.mp h)

variable {limits : RiskLimits} {intent : OrderIntent}

theorem price_pos_of_validPrice (h : validPrice limits intent = true) : 0 < intent.price.toInt := by
  simp only [validPrice, and_eq_true, decide_eq_true_eq] at h
  have hMin := le_iff_toInt_le.mp h.1.1
  split_ifs at hMin with hPos
  · have hPos' : (0 : Int) < limits.minPrice.toInt := lt_iff_toInt_lt.mp hPos
    omega
  · have hOne : (1 : Int) ≤ intent.price.toInt := hMin
    omega

variable {risk : RiskState} (h : (evaluate risk limits intent).pass = true)
include h

theorem passed_of_evaluate : Passed risk limits intent := by
  simp only [evaluate, and_eq_true] at h
  obtain ⟨⟨⟨⟨⟨⟨hQty, hPos⟩, _⟩, _⟩, hPrice⟩, _⟩, _⟩ := h
  simp only [validQty, and_eq_true, decide_eq_true_eq] at hQty
  simp only [validPos, and_eq_true, decide_eq_true_eq] at hPos
  refine ⟨lt_iff_toInt_lt.mp hQty.1, le_iff_toInt_le.mp hQty.2, price_pos_of_validPrice hPrice.1, ?_⟩
  have hBound : ((projected risk limits intent).natAbs : Int) ≤ limits.maxAbsPosition.toInt := by
    rw [← toUInt64_toNat_of_nonneg hPos.1.2]
    exact_mod_cast hPos.2
  rw [projected, safeQty, if_pos hQty, Int.natCast_natAbs] at hBound
  exact hBound

theorem gross_le_of_evaluate : risk.grossExposure + intent.price.toInt * intent.qty.toInt ≤ kInt64Max := by
  simp only [evaluate, and_eq_true] at h
  obtain ⟨⟨⟨⟨⟨⟨hQty, _⟩, _⟩, _⟩, _⟩, ⟨_, hNotional⟩⟩, _⟩ := h
  simp only [validQty, and_eq_true, decide_eq_true_eq] at hQty
  simp only [validNotional, fitsInt64, safeQty, if_pos hQty, and_eq_true, decide_eq_true_eq] at hNotional
  exact hNotional.1.2.2

end LuvFlicker.PreTradeRisk
