import LuvFlicker.Execution.Balance
import LuvFlicker.Execution.Limits
import LuvFlicker.Execution.Moves

/-!
# The position limit

Admission checks the limit against the net position, which counts the open orders of
both sides against each other. When an open order ends without a fill, what it was
netted against is left over.
-/

namespace LuvFlicker

open Exec Scan Run Tally Function Config ActiveOrder SymbolExecState

namespace ActiveOrder

def openBuy (o : ActiveOrder) : Int := if o.isLive = true ∧ o.side &&& 1 = 0 then o.qty else 0

def openSell (o : ActiveOrder) : Int := if o.isLive = true ∧ o.side &&& 1 ≠ 0 then o.qty else 0

variable {o : ActiveOrder}

theorem openSides_of_not_live (h : o.isLive = false) : o.openBuy = 0 ∧ o.openSell = 0 := by
  simp [openBuy, openSell, h]

theorem openSides_of_live (h : o.isLive = true) :
    o.openBuy = o.qty ∧ o.openSell = 0 ∧ (∀ qty, signedQtyDelta o.side qty = qty) ∨
      o.openBuy = 0 ∧ o.openSell = o.qty ∧ ∀ qty, signedQtyDelta o.side qty = -qty := by
  by_cases hSide : o.side &&& 1 = 0
  · exact .inl (by simp [openBuy, openSell, signedQtyDelta, h, hSide])
  · exact .inr (by simp [openBuy, openSell, signedQtyDelta, h, hSide])

end ActiveOrder

namespace Account

def openBuys (a : Account) : Int := total kMaxActiveOrders ActiveOrder.openBuy a.orders

def openSells (a : Account) : Int := total kMaxActiveOrders ActiveOrder.openSell a.orders

structure Within (a : Account) (limit : Int) : Prop where
  upper : a.net + a.openSells ≤ limit
  lower : -limit ≤ a.net - a.openBuys

variable {a : Account} {limit : Int} {slot : Nat}

theorem within_empty (h : 0 ≤ limit) : (account {}).Within limit := by
  have hBuys : (account {}).openBuys = 0 := total_eq_zero fun _ => rfl
  have hSells : (account {}).openSells = 0 := total_eq_zero fun _ => rfl
  refine ⟨?_, ?_⟩
  · rw [hSells]
    exact h
  · rw [hBuys]
    exact neg_nonpos.mpr h

/-- The order of an intent fits even without the open orders of the other side. -/
def RoomFor (a : Account) (limit : Int) (intent : OrderIntent) : Prop :=
  (intent.side &&& 1 = 0 → a.net + a.openSells + intent.qty.toInt ≤ limit) ∧
    (intent.side &&& 1 ≠ 0 → -limit ≤ a.net - a.openBuys - intent.qty.toInt)

instance (a : Account) (limit : Int) (intent : OrderIntent) : Decidable (a.RoomFor limit intent) :=
  inferInstanceAs (Decidable ((_ → _) ∧ (_ → _)))

theorem openSides_order (intent : OrderIntent) :
    intent.side &&& 1 = 0 ∧ intent.order.openBuy = intent.qty.toInt ∧ intent.order.openSell = 0 ∧
      signedQtyDelta intent.side intent.qty.toInt = intent.qty.toInt ∨
    intent.side &&& 1 ≠ 0 ∧ intent.order.openBuy = 0 ∧ intent.order.openSell = intent.qty.toInt ∧
      signedQtyDelta intent.side intent.qty.toInt = -intent.qty.toInt := by
  have hMask : intent.order.side &&& 1 = intent.side &&& 1 := by rw [OrderIntent.order, UInt8.and_assoc, UInt8.and_self]
  have hLive : intent.order.isLive = true := rfl
  have hQty : intent.order.qty = intent.qty.toInt := rfl
  by_cases hSide : intent.side &&& 1 = 0
  · exact .inl (by simp [openBuy, openSell, signedQtyDelta, hMask, hLive, hQty, hSide])
  · exact .inr (by simp [openBuy, openSell, signedQtyDelta, hMask, hLive, hQty, hSide])

section

variable (h : a.Within limit)
include h

theorem Within.write (hSlot : slot < kMaxActiveOrders) {a' : Account} {order : ActiveOrder}
    (hOrders : a'.orders = update a.orders slot order)
    (hUpper : a'.net + order.openSell ≤ a.net + (a.orders slot).openSell)
    (hLower : a.net - (a.orders slot).openBuy ≤ a'.net - order.openBuy) : a'.Within limit := by
  have hOldUpper := h.upper
  have hOldLower := h.lower
  refine ⟨?_, ?_⟩
  · rw [openSells, hOrders, total_update hSlot]
    rw [openSells] at hOldUpper
    omega
  · rw [openBuys, hOrders, total_update hSlot]
    rw [openBuys] at hOldLower
    omega

theorem Within.clear (hFree : (a.orders slot).isLive = false) : (a.setOrder slot {}).Within limit := by
  obtain ⟨hBuy, hSell⟩ := openSides_of_not_live hFree
  refine ⟨?_, ?_⟩
  · rw [openSells, setOrder, total_update_of_eq hSell.symm]
    exact h.upper
  · rw [openBuys, setOrder, total_update_of_eq hBuy.symm]
    exact h.lower

theorem Within.enter (hSlot : slot < kMaxActiveOrders)
    (hFree : (a.orders slot).isLive = false) {intent : OrderIntent} (hRoom : a.RoomFor limit intent) :
    (a.enter slot intent).Within limit := by
  obtain ⟨_, _⟩ := openSides_of_not_live hFree
  have hUpper := h.upper
  have hLower := h.lower
  have hOrders : (a.enter slot intent).orders = update a.orders slot intent.order := rfl
  rcases openSides_order intent with ⟨hSide, hBuy', hSell', hSign⟩ | ⟨hSide, hBuy', hSell', hSign⟩
  · have hFits := hRoom.1 hSide
    unfold openSells openBuys at *
    refine ⟨?_, ?_⟩
    · rw [openSells, hOrders, total_update hSlot, enter_net]
      omega
    · rw [openBuys, hOrders, total_update hSlot, enter_net]
      omega
  · have hFits := hRoom.2 hSide
    unfold openSells openBuys at *
    refine ⟨?_, ?_⟩
    · rw [openSells, hOrders, total_update hSlot, enter_net]
      omega
    · rw [openBuys, hOrders, total_update hSlot, enter_net]
      omega

theorem Within.abs_net_le (hQty : ∀ i, (a.orders i).isLive = true → 0 < (a.orders i).qty) : |a.net| ≤ limit := by
  have hBuys : 0 ≤ a.openBuys := total_nonneg fun i _ => by
    unfold openBuy
    split_ifs with hOpen
    · exact (hQty i hOpen.1).le
    · exact le_rfl
  have hSells : 0 ≤ a.openSells := total_nonneg fun i _ => by
    unfold openSell
    split_ifs with hOpen
    · exact (hQty i hOpen.1).le
    · exact le_rfl
  have hUpper := h.upper
  have hLower := h.lower
  rw [abs_le]
  omega

end

section Live

variable (h : a.Within limit) (hSlot : slot < kMaxActiveOrders) (hLive : (a.orders slot).isLive = true)

include h hSlot hLive

theorem Within.drop (hQty : 0 < (a.orders slot).qty) : (a.drop slot).Within limit := by
  obtain ⟨_, _⟩ := openSides_of_not_live (o := {}) rfl
  rcases openSides_of_live hLive with ⟨hBuy, hSell, hSign⟩ | ⟨hBuy, hSell, hSign⟩ <;>
    refine h.write hSlot rfl ?_ ?_ <;>
    simp only [hSign, drop_net] <;>
    omega

theorem Within.finish {filled : Int} (hPos : 0 < filled) (hLe : filled ≤ (a.orders slot).qty) :
    (a.finish slot filled).Within limit := by
  obtain ⟨_, _⟩ := openSides_of_not_live (o := a.filledOrder slot filled .done) rfl
  rcases openSides_of_live hLive with ⟨hBuy, hSell, hSign⟩ | ⟨hBuy, hSell, hSign⟩ <;>
    refine h.write hSlot rfl ?_ ?_ <;>
    simp only [hSign, finish_net] <;>
    omega

theorem Within.fill {filled : Int} (hPos : 0 < filled) : (a.fill slot filled).Within limit := by
  have hQty : (a.filledOrder slot filled .partlyFilled).qty = (a.orders slot).qty - filled := rfl
  have hSide : (a.filledOrder slot filled .partlyFilled).side = (a.orders slot).side := rfl
  have hLive' : (a.filledOrder slot filled .partlyFilled).isLive = true := rfl
  have hOrders : (a.fill slot filled).orders = update a.orders slot (a.filledOrder slot filled .partlyFilled) := rfl
  refine h.write hSlot hOrders ?_ ?_
  · simp only [openSell, hLive, hLive', hSide, Account.fill, setOrder_net]
    split_ifs <;> omega
  · simp only [openBuy, hLive, hLive', hSide, Account.fill, setOrder_net]
    split_ifs <;> omega

end Live

end Account

namespace ExecutionGateway

variable {call : GatewayCall} {g : ExecutionGateway} {symbol : Nat}

def maxAbsPosition (g : ExecutionGateway) (symbol : Nat) : Int := (g.limits symbol).val.maxAbsPosition.toInt

def FixedLimits (symbol : Nat) (call : GatewayCall) : Prop :=
  match call.op with
  | .replaceReport .. => False
  | .setLimits s _ => s ≠ symbol
  | _ => True

/-- A submission to the symbol that passes the risk check also fits without the open orders of the other side. -/
def FitsOneSided (symbol : Nat) (call : GatewayCall) (g : ExecutionGateway) : Prop :=
  match call.op with
  | .tryBuild intent _ => intent.symbolIdx = symbol → (g.evaluate intent).pass = true →
      (g.accounts symbol).RoomFor (g.maxAbsPosition symbol) intent
  | _ => True

structure Prudent (symbol : Nat) (call : GatewayCall) (g : ExecutionGateway) : Prop where
  lost : NoLostId call g
  terminal : NoTerminalFill call g
  fits : FitsOneSided symbol call g
  fixed : FixedLimits symbol call

theorem maxAbsPosition_step (h : FixedLimits symbol call) :
    (step call g).2.maxAbsPosition symbol = g.maxAbsPosition symbol := by
  unfold maxAbsPosition
  rw [limits_step g call]
  intro _ hOp
  rw [FixedLimits, hOp] at h
  exact h rfl

theorem within_update {limit : Int} {s : Nat} {account : Account} (h : (g.accounts symbol).Within limit)
    (hNew : s = symbol → account.Within limit) : (update g.accounts s account symbol).Within limit := by
  rcases eq_or_ne symbol s with rfl | hne
  · rw [update_self]
    exact hNew rfl
  · rw [update_of_ne hne]
    exact h

theorem within_step (hSound : g.Sound) (hPrudent : Prudent symbol call g)
    (h : (g.accounts symbol).Within (g.maxAbsPosition symbol)) :
    ((step call g).2.accounts symbol).Within (g.maxAbsPosition symbol) := by
  have hMove := hSound.move hPrudent.lost hPrudent.terminal
  generalize step call g = result at hMove
  cases hMove with
  | idle _ accounts =>
    rw [accounts]
    exact h
  | cleared _ _ free accounts =>
    rw [accounts]
    refine within_update h ?_
    rintro rfl
    exact h.clear free
  | admitted op _ _ admits =>
    rw [admits.accounts]
    refine within_update h ?_
    rintro rfl
    obtain ⟨hSlot, hFree, _⟩ := findFree_spec admits.reserves.free
    have hFits := hPrudent.fits
    rw [FitsOneSided, op] at hFits
    exact h.enter hSlot hFree (hFits rfl admits.reserves.passed)
  | filled _ _ _ fills live =>
    rw [fills.accounts]
    refine within_update h ?_
    rintro rfl
    have hMatched := fills.matched
    split_ifs
    · exact h.finish hMatched.order.1 live hMatched.pos hMatched.le
    · exact h.fill hMatched.order.1 live hMatched.pos
  | dropped _ drops =>
    rw [drops.accounts]
    refine within_update h ?_
    rintro rfl
    obtain ⟨hSlot, _, live⟩ := drops.opened.order
    exact h.drop hSlot live (hSound.qty_pos _ _ live)
  | amended op =>
    have hFixed := hPrudent.fixed
    rw [FixedLimits, op] at hFixed
    exact hFixed.elim

structure Cautious (g : ExecutionGateway) (symbol : Nat) : Prop where
  sound : g.Sound
  within : (g.accounts symbol).Within (g.maxAbsPosition symbol)

theorem Cautious.step (h : g.Cautious symbol) (hPrudent : Prudent symbol call g) :
    (ExecutionGateway.step call g).2.Cautious symbol := by
  refine ⟨h.sound.step hPrudent.lost hPrudent.terminal, ?_⟩
  rw [maxAbsPosition_step hPrudent.fixed]
  exact within_step h.sound hPrudent h.within

/-- In every run whose admitted orders fit without the open orders of the other side, the net position of the symbol
stays within its limit. -/
theorem run_withinPositionLimit (rateLimit : Nat) (limits : Nat → ValidLimits) (breaker : CircuitBreaker)
    (recovery : Option RecoveryLedger) (symbol : Nat) (calls : List GatewayCall)
    (h : Always step (Prudent symbol) calls (init rateLimit limits breaker recovery)) :
    |((final step calls (init rateLimit limits breaker recovery)).states symbol).risk.netPosition| ≤
      ((final step calls (init rateLimit limits breaker recovery)).limits symbol).val.maxAbsPosition.toInt := by
  have hStart : 0 ≤ (init rateLimit limits breaker recovery).maxAbsPosition symbol := by
    have hValid := (limits symbol).property
    simp only [RiskLimits.isValid, Bool.and_eq_true, decide_eq_true_eq] at hValid
    exact Int64.le_iff_toInt_le.mp hValid.1.1.1.1.1.1.1.2
  have hEnd :=
    h.invariant (Cautious · _) (fun _ _ hPrudent hCautious => hCautious.step hPrudent)
      ⟨sound_init .., Account.within_empty hStart⟩
  exact hEnd.within.abs_net_le (hEnd.sound.qty_pos _)

theorem run_withinPositionLimit_sampleCalls : Always step (Prudent 0) sampleCalls start ∧
      |((final step sampleCalls start).states 0).risk.netPosition| ≤
        ((final step sampleCalls start).limits 0).val.maxAbsPosition.toInt := by
  have hRun : Always step (Prudent 0) sampleCalls start := by
    refine ⟨⟨not_lost_start 185, trivial, fun _ _ => by decide +kernel, trivial⟩, ⟨trivial, ?_, trivial, trivial⟩,
      ⟨fun hLost => absurd hLost.2 (by decide +kernel), trivial, fun _ _ => by decide +kernel, trivial⟩,
      ⟨trivial, trivial, trivial, trivial⟩, trivial⟩
    intro slot hMatches hDone
    have hSlot : some slot = some 0 := hMatches.found.symm.trans (by decide +kernel)
    rw [Option.some.inj hSlot] at hDone
    exact absurd hDone (by decide +kernel)
  exact ⟨hRun, run_withinPositionLimit _ _ _ _ _ _ hRun⟩

def tightStart : ExecutionGateway := init 100 (fun _ => ⟨{ maxAbsPosition := 100 }, by decide⟩) {} none

def unnettingCalls : List GatewayCall :=
  [submission kBuy 185 100 true, submission kSell 392 100 true, submission kBuy 7 100 true, ⟨.cancelReport 0 392, {}⟩]

theorem unnettingCalls_exceed_limit : (∀ call ∈ unnettingCalls, FixedLimits 0 call) ∧
      ¬ |((final step unnettingCalls tightStart).states 0).risk.netPosition| ≤
        ((final step unnettingCalls tightStart).limits 0).val.maxAbsPosition.toInt := by
  refine ⟨?_, by decide +kernel⟩
  simp only [unnettingCalls, List.forall_mem_cons, List.not_mem_nil, false_imp_iff]
  exact ⟨trivial, trivial, trivial, trivial, fun _ => trivial⟩

end ExecutionGateway

end LuvFlicker
