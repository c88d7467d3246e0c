import LuvFlicker.Lib.Scan

/-!
# The LOB slab of the arena

The fixed-size records that the order book works on, with the dimensions of the slab
and the numeric bounds every market-data event is checked against.
-/

namespace LuvFlicker

namespace Config

def kSymbols : Nat := 512
def kLevelsPerSide : Nat := 1024
def kMaxOrdersPerLevel : Nat := 16
def kMaxActiveOrders : Nat := 64

end Config

namespace Numeric

def kMinPrice : Int := 1
def kMaxPrice : Int := 0xFFFFFFFF
def kMinQuantity : Int := 1
def kMaxQuantity : Int := 1000000000
def kInt64Min : Int := -2 ^ 63
def kInt64Max : Int := 2 ^ 63 - 1

def isValidPrice (value : Int) : Bool := kMinPrice ≤ value && value ≤ kMaxPrice

def isValidQuantity (value : Int) : Bool := kMinQuantity ≤ value && value ≤ kMaxQuantity

def checkedAdd (lhs rhs : Int) : Option Int :=
  if (0 < rhs && kInt64Max - rhs < lhs) || (rhs < 0 && lhs < kInt64Min - rhs) then none
  else some (lhs + rhs)

theorem isValidQuantity_iff {value : Int} : isValidQuantity value = true ↔ 0 < value ∧ value ≤ kMaxQuantity := by
  simp only [isValidQuantity, Bool.and_eq_true, decide_eq_true_eq]
  exact Iff.rfl

theorem checkedAdd_of_le {lhs rhs : Int} (hRhs : 0 ≤ rhs) (hSum : lhs + rhs ≤ kInt64Max) :
    checkedAdd lhs rhs = some (lhs + rhs) := by
  refine if_neg ?_
  simp only [Bool.or_eq_true, Bool.and_eq_true, decide_eq_true_eq]
  omega

end Numeric

/-- `0 = bid`, `1 = ask` in the source. -/
inductive Side where
  | bid
  | ask
  deriving DecidableEq, Repr

structure OrderSlot where
  orderId : UInt64 := 0
  qty : Int := 0
  flags : UInt32 := 0
  nextIdx : Option Nat := none
  prevIdx : Option Nat := none

namespace OrderSlot

def kFlagBid : UInt32 := 1
def kFlagActive : UInt32 := 2

def isActive (slot : OrderSlot) : Bool := slot.flags &&& kFlagActive != 0

theorem isActive_of_flags_eq_zero {slot : OrderSlot} (h : slot.flags = 0) : slot.isActive = false := by
  rw [isActive, h]
  decide

end OrderSlot

structure PriceLevel where
  orders : Nat → OrderSlot
  price : Int := 0
  totalQty : Int := 0
  orderCount : Int := 0
  headIdx : Option Nat := none

namespace PriceLevel

def cleared : PriceLevel where
  orders := fun _ => {}

def allocSlot (lvl : PriceLevel) : Option Nat :=
  Scan.firstIndex (fun i => !(lvl.orders i).isActive) Config.kMaxOrdersPerLevel

def setSlot (lvl : PriceLevel) (i : Nat) (slot : OrderSlot) : PriceLevel :=
  { lvl with orders := Function.update lvl.orders i slot }

end PriceLevel

structure TickMsg where
  msgType : UInt8 := 0
  flags : UInt8 := 0
  symbolIdx : Nat := 0
  timestamp : Nat := 0
  price : Int := 0
  qty : Int := 0
  orderRef : UInt64 := 0
  matchNum : UInt64 := 0

namespace TickFlags

def kBuy : UInt8 := 0x01

end TickFlags

namespace Itch

def kAddOrder : UInt8 := 0x41
def kAddOrderMPID : UInt8 := 0x46
def kOrderExecuted : UInt8 := 0x45
def kOrderExecPrice : UInt8 := 0x43
def kOrderCancel : UInt8 := 0x58
def kOrderDelete : UInt8 := 0x44
def kOrderReplace : UInt8 := 0x55
def kTrade : UInt8 := 0x50

end Itch

end LuvFlicker
