import LuvFlicker.Execution.Account
import LuvFlicker.Lib.Tally

/-!
# Balanced accounts

An account is balanced against the fills of its symbol when its order count is the
number of open orders, its net position is what was filled plus what is still open,
and its gross exposure is the same in value.
-/

namespace LuvFlicker

open Exec Tally Config ActiveOrder

namespace ActiveOrder

def openCount (o : ActiveOrder) : Int := if o.isLive then 1 else 0

def openQty (o : ActiveOrder) : Int := if o.isLive then signedQtyDelta o.side o.qty else 0

def openValue (o : ActiveOrder) : Int := if o.isLive then o.price * o.qty else 0

end ActiveOrder

variable {o : ActiveOrder}

theorem ActiveOrder.weights_of_live (h : o.isLive = true) :
    o.openCount = 1 ∧ o.openQty = signedQtyDelta o.side o.qty ∧ o.openValue = o.price * o.qty :=
  ⟨if_pos h, if_pos h, if_pos h⟩

theorem ActiveOrder.weights_of_not_live (h : o.isLive = false) : o.openCount = 0 ∧ o.openQty = 0 ∧ o.openValue = 0 := by
  simp [openCount, openQty, openValue, h]

theorem signedQtyDelta_sub (side : UInt8) (a b : Int) :
    signedQtyDelta side (a - b) = signedQtyDelta side a - signedQtyDelta side b := by
  unfold signedQtyDelta
  split <;> omega

theorem signedQtyDelta_and_one {side : UInt8} {qty : Int} :
    signedQtyDelta (side &&& 1) qty = signedQtyDelta side qty := by
  have hMask : side &&& 1 &&& 1 = side &&& 1 := by rw [UInt8.and_assoc, UInt8.and_self]
  rw [signedQtyDelta, signedQtyDelta, hMask]

theorem OrderIntent.weights_order (intent : OrderIntent) :
    intent.order.openCount = 1 ∧ intent.order.openQty = signedQtyDelta intent.side intent.qty.toInt ∧
      intent.order.openValue = intent.price.toInt * intent.qty.toInt :=
  ⟨rfl, signedQtyDelta_and_one, rfl⟩

namespace Account

theorem weights_filledOrder (a : Account) (slot : Nat) (filled : Int) :
    (a.filledOrder slot filled .partlyFilled).openCount = 1 ∧
    (a.filledOrder slot filled .partlyFilled).openQty =
      signedQtyDelta (a.orders slot).side (a.orders slot).qty - signedQtyDelta (a.orders slot).side filled ∧
    (a.filledOrder slot filled .partlyFilled).openValue =
      (a.orders slot).price * (a.orders slot).qty - (a.orders slot).price * filled :=
  ⟨rfl, signedQtyDelta_sub .., mul_sub ..⟩

structure Balanced (a : Account) (filledQty filledValue : Int) : Prop where
  count : (a.count : Int) = total kMaxActiveOrders ActiveOrder.openCount a.orders
  net : a.net = filledQty + total kMaxActiveOrders ActiveOrder.openQty a.orders
  gross : a.gross = filledValue + total kMaxActiveOrders ActiveOrder.openValue a.orders

theorem balanced_empty : (SymbolExecState.account {}).Balanced 0 0 := by
  refine ⟨?_, ?_, ?_⟩
  · exact (total_eq_zero fun _ => rfl).symm
  all_goals
    rw [zero_add]
    exact (total_eq_zero fun _ => rfl).symm

variable {a : Account} {fq fv : Int} {slot : Nat}

section

variable (h : a.Balanced fq fv)
include h

section

variable (hSlot : slot < kMaxActiveOrders)
include hSlot

theorem Balanced.count_pos (hLive : (a.orders slot).isLive = true) : 0 < a.count := by
  have hNonneg : ∀ i < kMaxActiveOrders, 0 ≤ (a.orders i).openCount := by
    intro i _
    unfold openCount
    split <;> decide
  have hOne : (1 : Int) = (a.orders slot).openCount := (if_pos hLive).symm
  have hLe := le_total hNonneg hSlot
  have hCount := h.count
  omega

theorem Balanced.write (order : ActiveOrder)
    {a' : Account} {fq' fv' : Int} (hOrders : a'.orders = Function.update a.orders slot order)
    (hCount : (a'.count : Int) = a.count - (a.orders slot).openCount + order.openCount)
    (hNet : a'.net - fq' = a.net - fq - (a.orders slot).openQty + order.openQty)
    (hGross : a'.gross - fv' = a.gross - fv - (a.orders slot).openValue + order.openValue) : a'.Balanced fq' fv' := by
  have hOldCount := h.count
  have hOldNet := h.net
  have hOldGross := h.gross
  refine ⟨?_, ?_, ?_⟩ <;> rw [hOrders, total_update _] <;> omega

theorem Balanced.enter
    (hFree : (a.orders slot).isLive = false) (intent : OrderIntent) : (a.enter slot intent).Balanced fq fv := by
  obtain ⟨_, _, _⟩ := weights_of_not_live hFree
  obtain ⟨_, _, _⟩ := intent.weights_order
  refine h.write hSlot _ rfl ?_ ?_ ?_
  all_goals
    simp only [Account.enter]
    omega

end

theorem Balanced.clear (hFree : (a.orders slot).isLive = false) : (a.setOrder slot {}).Balanced fq fv := by
  obtain ⟨hCount, hQty, hValue⟩ := weights_of_not_live hFree
  refine ⟨?_, ?_, ?_⟩
  · rw [setOrder, total_update_of_eq hCount.symm]
    exact h.count
  · rw [setOrder, total_update_of_eq hQty.symm]
    exact h.net
  · rw [setOrder, total_update_of_eq hValue.symm]
    exact h.gross

end

section Live

variable (h : a.Balanced fq fv) (hSlot : slot < kMaxActiveOrders) (hLive : (a.orders slot).isLive = true)

include h hSlot hLive

theorem Balanced.drop : (a.drop slot).Balanced fq fv := by
  have hPos := h.count_pos hSlot hLive
  obtain ⟨_, _, _⟩ := weights_of_live hLive
  obtain ⟨_, _, _⟩ := weights_of_not_live (o := {}) rfl
  refine h.write hSlot {} rfl ?_ ?_ ?_
  all_goals
    simp only [Account.drop]
    omega

theorem Balanced.amend (newQty newPrice : Int) : (a.amend slot newQty newPrice).Balanced fq fv := by
  obtain ⟨_, _, _⟩ := weights_of_live hLive
  obtain ⟨hCount', hQty', hValue'⟩ :=
    weights_of_live (o := { a.orders slot with qty := newQty, price := newPrice }) hLive
  refine h.write hSlot _ rfl ?_ ?_ ?_
  · simp only [hCount', Account.amend]
    omega
  · simp only [hQty', Account.amend]
    omega
  · simp only [hValue', Account.amend]
    omega

theorem Balanced.fill (filled : Int) : (a.fill slot filled).Balanced (fq + signedQtyDelta (a.orders slot).side filled)
      (fv + (a.orders slot).price * filled) := by
  obtain ⟨_, _, _⟩ := weights_of_live hLive
  obtain ⟨_, _, _⟩ := a.weights_filledOrder slot filled
  refine h.write hSlot _ rfl ?_ ?_ ?_
  all_goals
    simp only [Account.fill, setOrder]
    omega

theorem Balanced.finish (filled : Int) :
    (a.finish slot filled).Balanced (fq + signedQtyDelta (a.orders slot).side filled)
      (fv + (a.orders slot).price * filled) := by
  have hPos := h.count_pos hSlot hLive
  obtain ⟨_, _, _⟩ := weights_of_live hLive
  obtain ⟨_, _, _⟩ := weights_of_not_live (o := a.filledOrder slot filled .done) rfl
  refine h.write hSlot _ rfl ?_ ?_ ?_
  · simp only [Account.finish]
    omega
  · simp only [Account.finish, signedQtyDelta_sub]
    omega
  · simp only [Account.finish, mul_sub]
    omega

end Live

end Account

end LuvFlicker
