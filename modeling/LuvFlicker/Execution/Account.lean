import LuvFlicker.Execution.Gateway

/-!
# The account of a symbol

The part of a symbol's state that the accounting is about: its order slots, net
position, gross exposure and order count.
-/

namespace LuvFlicker

open Exec Scan Function Config

variable {o : ActiveOrder}

theorem ActiveOrder.isLive_eq_false_iff : o.isLive = false ↔ o.state = .pending ∨ o.state = .done := by
  unfold isLive
  cases o.state <;> decide

theorem ActiveOrder.isLive_of_ne (hPending : o.state ≠ .pending) (hDone : o.state ≠ .done) : o.isLive = true := by
  rw [← Bool.not_eq_false, isLive_eq_false_iff, not_or]
  exact ⟨hPending, hDone⟩

theorem ActiveOrder.state_ne_done (h : o.isLive = true) : o.state ≠ .done := by
  intro hDone
  rw [isLive_eq_false_iff.mpr (.inr hDone)] at h
  cases h

structure Account where
  orders : Nat → ActiveOrder
  net : Int
  gross : Int
  count : Nat

namespace Account

variable (a : Account)

section

variable (slot : Nat)

@[simps]
def setOrder (order : ActiveOrder) : Account := { a with orders := update a.orders slot order }

section

variable (intent : OrderIntent)

@[simps]
def enter : Account where
  orders := update a.orders slot intent.order
  net := a.net + signedQtyDelta intent.side intent.qty.toInt
  gross := a.gross + intent.price.toInt * intent.qty.toInt
  count := a.count + 1

@[simps]
def retract : Account where
  orders := update a.orders slot {}
  net := a.net - signedQtyDelta intent.side intent.qty.toInt
  gross := a.gross - intent.price.toInt * intent.qty.toInt
  count := a.count - 1

theorem enter_retract : (a.enter slot intent).retract slot intent = a.setOrder slot {} := by
  simp [enter, retract, setOrder]

end

@[simps]
def drop : Account where
  orders := update a.orders slot {}
  net := a.net - signedQtyDelta (a.orders slot).side (a.orders slot).qty
  gross := a.gross - (a.orders slot).price * (a.orders slot).qty
  count := a.count - 1

@[simps]
def amend (newQty newPrice : Int) : Account where
  orders := update a.orders slot { a.orders slot with qty := newQty, price := newPrice }
  net := a.net + (signedQtyDelta (a.orders slot).side newQty - signedQtyDelta (a.orders slot).side (a.orders slot).qty)
  gross := a.gross + (newPrice * newQty - (a.orders slot).price * (a.orders slot).qty)
  count := a.count

def filledOrder (filled : Int) (state : OrderState) : ActiveOrder :=
  { a.orders slot with
    filledQty := (a.orders slot).filledQty + filled, qty := (a.orders slot).qty - filled, state := state }

def fill (filled : Int) : Account := a.setOrder slot (a.filledOrder slot filled .partlyFilled)

@[simps]
def finish (filled : Int) : Account where
  orders := update a.orders slot (a.filledOrder slot filled .done)
  net := a.net - signedQtyDelta (a.orders slot).side ((a.orders slot).qty - filled)
  gross := a.gross - (a.orders slot).price * ((a.orders slot).qty - filled)
  count := a.count - 1

end

theorem orders_update {f : Nat → Account} {account : Account} {symbol slot : Nat} {order : ActiveOrder}
    (h : account.orders = update (f symbol).orders slot order) (s i : Nat) :
    (s = symbol ∧ i = slot) ∧ (update f symbol account s).orders i = order ∨
      ¬ (s = symbol ∧ i = slot) ∧ (update f symbol account s).orders i = (f s).orders i := by
  rcases eq_or_ne s symbol with rfl | hne
  · rw [update_self, h]
    rcases eq_or_ne i slot with rfl | hne
    · exact .inl ⟨⟨rfl, rfl⟩, update_self ..⟩
    · exact .inr ⟨fun hAt => hne hAt.2, update_of_ne hne ..⟩
  · rw [update_of_ne hne]
    exact .inr ⟨fun hAt => hne hAt.1, rfl⟩

end Account

open ActiveOrder

namespace SymbolExecState

def account (st : SymbolExecState) : Account :=
  ⟨st.orders, st.risk.netPosition, st.risk.grossExposure, st.risk.orderCount⟩

section

variable (st : SymbolExecState) (slot : Nat)

@[simp]
theorem account_reserveAt (intent : OrderIntent) :
    (st.reserveAt slot intent).account = st.account.enter slot intent := rfl

theorem account_fillAt_open (report : ExecutionReport)
    (h : ¬ (report.terminal ∨ (st.orders slot).qty - report.filledQuantity = 0)) :
    (st.fillAt slot report).account = st.account.fill slot report.filledQuantity := by
  rw [fillAt, if_neg h]
  rfl

theorem account_fillAt_finish (report : ExecutionReport)
    (h : report.terminal ∨ (st.orders slot).qty - report.filledQuantity = 0)
    (hLe : report.filledQuantity ≤ (st.orders slot).qty) :
    (st.fillAt slot report).account = st.account.finish slot report.filledQuantity := by
  rw [fillAt, if_pos h]
  by_cases hRest : report.terminal ∧ (st.orders slot).qty - report.filledQuantity > 0
  · rw [if_pos hRest]
    rfl
  -- nothing is left open, so nothing is taken back
  have hZero : (st.orders slot).qty - report.filledQuantity = 0 := by
    rcases h with hTerminal | hZero
    · have hNot := not_and.mp hRest hTerminal
      omega
    · exact hZero
  rw [if_neg hRest]
  unfold Account.finish account
  simp only [hZero, signedQtyDelta, setOrderCount, setOrder, Account.filledOrder, neg_zero, ite_self, sub_zero,
    mul_zero]

end

/-! ## Looking up a slot -/

variable {st : SymbolExecState} {orderId : UInt64} {slot : Nat}

theorem findOrder_spec (h : st.findOrder orderId = some slot) :
    slot < kMaxActiveOrders ∧ (st.orders slot).orderId = orderId ∧ (st.orders slot).state ≠ .pending := by
  obtain ⟨hSlot, hFound, _⟩ := (firstIndex_eq_some_iff _ _ _).mp h
  simp only [Bool.and_eq_true, decide_eq_true_eq] at hFound
  exact ⟨hSlot, hFound⟩

theorem findLive_spec (h : st.findLive orderId = some slot) :
    slot < kMaxActiveOrders ∧ (st.orders slot).orderId = orderId ∧ (st.orders slot).isLive = true := by
  obtain ⟨hSlot, hFound, _⟩ := (firstIndex_eq_some_iff _ _ _).mp h
  simp only [Bool.and_eq_true, decide_eq_true_eq] at hFound
  exact ⟨hSlot, hFound.1.1, isLive_of_ne hFound.1.2 hFound.2⟩

theorem findFree_spec (h : st.findFree = some slot) :
    slot < kMaxActiveOrders ∧ (st.orders slot).isLive = false ∧ ∀ i < slot, (st.orders i).isLive = true := by
  obtain ⟨hSlot, hFree, hBefore⟩ := (firstIndex_eq_some_iff _ _ _).mp h
  refine ⟨hSlot, isLive_eq_false_iff.mpr (by simpa using hFree), fun i hi => ?_⟩
  have hTaken := hBefore i hi
  simp only [Bool.or_eq_false_iff, decide_eq_false_iff_not] at hTaken
  exact isLive_of_ne hTaken.1 hTaken.2

end SymbolExecState

end LuvFlicker
