import LuvFlicker.Arena

/-!
# Records of the execution gateway

The order slots and the risk state of a symbol, the intents and decisions of the
gateway, and the limits.
-/

namespace LuvFlicker

open Numeric

namespace Exec

def kBuy : UInt8 := 0
def kSell : UInt8 := 1

def kRejectQty : UInt8 := 1
def kRejectPosition : UInt8 := 2
def kRejectStaleAlpha : UInt8 := 4
def kRejectHalted : UInt8 := 8
def kRejectFlatSignal : UInt8 := 16
def kRejectOrderCapacity : UInt8 := 32
def kRejectInvalidSymbol : UInt8 := 64
def kRejectPrice : UInt8 := 128

def kDay : UInt8 := 0

def signedQtyDelta (side : UInt8) (qty : Int) : Int := if side &&& 1 = 0 then qty else -qty

end Exec

/-- `0=pending, 1=live, 2=partial, 3=done`. -/
inductive OrderState where
  | pending
  | live
  | partlyFilled
  | done
  deriving DecidableEq, Repr

structure ActiveOrder where
  orderId : UInt64 := 0
  price : Int := 0
  qty : Int := 0
  filledQty : Int := 0
  symbolIdx : Nat := 0
  side : UInt8 := 0
  state : OrderState := .pending
  timeInForce : UInt8 := 0
  deriving DecidableEq, Repr

def ActiveOrder.isLive (o : ActiveOrder) : Bool := o.state = .live || o.state = .partlyFilled

structure RiskState where
  netPosition : Int := 0
  grossExposure : Int := 0
  currentDrawdown : Int := 0
  orderCount : Nat := 0
  rejectCount : UInt32 := 0
  halted : Bool := false
  deriving DecidableEq, Repr

structure SymbolExecState where
  orders : Nat → ActiveOrder := fun _ => {}
  risk : RiskState := {}

structure RiskLimits where
  maxOrderQty : Int64 := 1000
  maxAbsPosition : Int64 := 100000
  maxAlphaAgeNs : UInt64 := 250000
  minPrice : Int64 := 1
  maxPrice : Int64 := 0xFFFFFFFF
  referencePrice : Int64 := 0
  maxPriceCollarPct : Int64 := 10
  maxGrossLoss : Int64 := 0
  maxConsecutiveRejections : UInt32 := 5
  deriving DecidableEq, Repr

def RiskLimits.isValid (l : RiskLimits) : Bool :=
  isValidQuantity l.maxOrderQty.toInt && 0 ≤ l.maxAbsPosition && isValidPrice l.minPrice.toInt &&
    l.minPrice ≤ l.maxPrice && l.maxPrice.toInt ≤ kMaxPrice && 0 ≤ l.referencePrice &&
    0 ≤ l.maxPriceCollarPct && l.maxPriceCollarPct ≤ 100 && 0 ≤ l.maxGrossLoss

/-- Limits as the gateway holds them: `set_limits` lets no others in. -/
abbrev ValidLimits := { l : RiskLimits // l.isValid = true }

def ValidLimits.default : ValidLimits := ⟨{}, by decide⟩

structure OrderIntent where
  symbolIdx : Nat := 0
  side : UInt8 := Exec.kBuy
  qty : Int64 := 0
  price : Int64 := 0
  alphaTimestampNs : UInt64 := 0
  nowNs : UInt64 := 0
  clientOrderId : UInt32 := 0
  timeInForce : UInt8 := Exec.kDay
  deriving DecidableEq, Repr

structure OrderReplaceIntent where
  symbolIdx : Nat := 0
  originalOrderId : UInt32 := 0
  replacementOrderId : UInt32 := 0
  newQty : Int64 := 0
  newPrice : Int64 := 0
  alphaTimestampNs : UInt64 := 0
  nowNs : UInt64 := 0
  timeInForce : UInt8 := Exec.kDay
  deriving DecidableEq, Repr

structure RiskDecision where
  pass : Bool := false
  rejectMask : UInt8 := 0
  deriving DecidableEq, Repr

structure OutboundPacket where
  len : UInt16 := 0
  bytes : Nat → UInt8 := fun _ => 0

structure FillEvent where
  orderId : UInt64
  filledQty : Int
  fillPrice : Int
  timestampNs : UInt64
  deriving DecidableEq, Repr

end LuvFlicker
