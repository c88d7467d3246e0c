import LuvFlicker.Execution.Balance
import LuvFlicker.Execution.Moves
import LuvFlicker.Execution.OrderFlow

/-!
# Overflow in the order flow

The gross exposure bounds every other number of an account: the net position, the
notional value of each open order and each filled quantity. So nothing overflows as
long as the gross exposure fits.
-/

namespace LuvFlicker

open Exec Scan Run Tally PreTradeRisk Function List Config Numeric SymbolExecState ActiveOrder Account Option

theorem abs_signedQtyDelta (side : UInt8) (qty : Int) : |signedQtyDelta side qty| = |qty| := by
  unfold signedQtyDelta
  split
  · rfl
  · exact abs_neg qty

variable {x bound : Int}

theorem fitsInt64_of_abs_le (h : |x| ≤ bound) (hBound : bound ≤ kInt64Max) : fitsInt64 x = true := by
  obtain ⟨_, _⟩ := abs_le.mp h
  have hMin : kInt64Min ≤ -kInt64Max := by decide
  rw [fitsInt64, Bool.and_eq_true, decide_eq_true_eq, decide_eq_true_eq]
  omega

theorem fitsInt64_of_nonneg (hNonneg : 0 ≤ x) (h : x ≤ bound) (hBound : bound ≤ kInt64Max) : fitsInt64 x = true :=
  fitsInt64_of_abs_le (by rwa [abs_of_nonneg hNonneg]) hBound

namespace ActiveOrder

structure Bounded (o : ActiveOrder) (filledValue : Int) : Prop where
  price_pos : o.isLive = true → 0 < o.price
  qty_pos : o.isLive = true → 0 < o.qty
  done_qty : o.state = .done → o.qty = 0
  filled_nonneg : 0 ≤ o.filledQty
  filled_le : o.filledQty ≤ filledValue

theorem bounded_empty {filledValue : Int} (h : 0 ≤ filledValue) : ({} : ActiveOrder).Bounded filledValue where
  price_pos hLive := absurd hLive Bool.false_ne_true
  qty_pos hLive := absurd hLive Bool.false_ne_true
  done_qty hDone := by cases hDone
  filled_nonneg := le_refl 0
  filled_le := h

namespace Bounded

variable {o : ActiveOrder} {filledValue : Int} (h : o.Bounded filledValue)

include h

theorem mono {filledValue' : Int} (hLe : filledValue ≤ filledValue') : o.Bounded filledValue' :=
  ⟨h.price_pos, h.qty_pos, h.done_qty, h.filled_nonneg, h.filled_le.trans hLe⟩

theorem qty_le (hLive : o.isLive = true) : o.qty ≤ o.price * o.qty :=
  le_mul_of_one_le_left (h.qty_pos hLive).le (h.price_pos hLive)

theorem abs_openQty_le : |o.openQty| ≤ o.openValue := by
  cases hLive : o.isLive with
  | false =>
    obtain ⟨_, hQty, hValue⟩ := weights_of_not_live hLive
    rw [hQty, hValue, abs_zero]
  | true =>
    obtain ⟨_, hQty, hValue⟩ := weights_of_live hLive
    rw [hQty, hValue, abs_signedQtyDelta, abs_of_pos (h.qty_pos hLive)]
    exact h.qty_le hLive

theorem openValue_nonneg : 0 ≤ o.openValue := (abs_nonneg _).trans h.abs_openQty_le

end Bounded

end ActiveOrder

namespace Account

structure Covered (a : Account) (filledQty filledValue : Int) : Prop where
  balanced : a.Balanced filledQty filledValue
  position : |filledQty| ≤ filledValue
  gross_le : a.gross ≤ kInt64Max
  bounded : ∀ i, (a.orders i).Bounded filledValue

theorem covered_empty : (account {}).Covered 0 0 where
  balanced := balanced_empty
  position := by rw [abs_zero]
  gross_le := by decide
  bounded _ := bounded_empty (le_refl 0)

namespace Covered

variable {a : Account} {fq fv : Int} {slot : Nat}

section

variable (h : a.Covered fq fv)

include h

theorem filledValue_nonneg : 0 ≤ fv := (abs_nonneg fq).trans h.position

theorem net_le : |a.net| ≤ a.gross := by
  rw [h.balanced.net, h.balanced.gross]
  calc
    |fq + total kMaxActiveOrders openQty a.orders| ≤
        |fq| + |total kMaxActiveOrders openQty a.orders| := abs_add_le ..
    _ ≤ fv + total kMaxActiveOrders openValue a.orders :=
        add_le_add h.position (abs_total_le fun i => (h.bounded i).abs_openQty_le)

theorem gross_nonneg : 0 ≤ a.gross := (abs_nonneg _).trans h.net_le

theorem net_fits : fitsInt64 a.net = true := fitsInt64_of_abs_le h.net_le h.gross_le

theorem gross_fits : fitsInt64 a.gross = true := fitsInt64_of_nonneg h.gross_nonneg le_rfl h.gross_le

section

variable (hSlot : slot < kMaxActiveOrders)
include hSlot

variable (hLive : (a.orders slot).isLive = true)
include hLive

theorem value_le : fv + (a.orders slot).price * (a.orders slot).qty ≤ a.gross := by
  have hLe := le_total (fun i _ => (h.bounded i).openValue_nonneg) hSlot
  have hGross := h.balanced.gross
  obtain ⟨_, _, _⟩ := weights_of_live hLive
  omega

theorem order_bounds : 0 < (a.orders slot).qty ∧ (a.orders slot).qty ≤ (a.orders slot).price * (a.orders slot).qty ∧
      (a.orders slot).price * (a.orders slot).qty ≤ kInt64Max := by
  have hValue := h.value_le hSlot hLive
  have hFilled := h.filledValue_nonneg
  have hGross := h.gross_le
  exact ⟨(h.bounded slot).qty_pos hLive, (h.bounded slot).qty_le hLive, by omega⟩

theorem order_fits : fitsInt64 (signedQtyDelta (a.orders slot).side (a.orders slot).qty) = true ∧
      fitsInt64 ((a.orders slot).price * (a.orders slot).qty) = true := by
  obtain ⟨hPos, _, hMax⟩ := h.order_bounds hSlot hLive
  constructor
  · refine fitsInt64_of_abs_le ?_ hMax
    rwa [abs_signedQtyDelta, abs_of_pos hPos]
  · exact fitsInt64_of_nonneg (by omega) le_rfl hMax

end

theorem write {a' : Account} {fq' fv' : Int} {order : ActiveOrder}
    (hBalanced : a'.Balanced fq' fv') (hPosition : |fq'| ≤ fv') (hGross : a'.gross ≤ kInt64Max)
    (hLe : fv ≤ fv') (hOrders : a'.orders = update a.orders slot order) (hOrder : order.Bounded fv') :
    a'.Covered fq' fv' := by
  refine ⟨hBalanced, hPosition, hGross, fun i => ?_⟩
  rw [hOrders]
  rcases eq_or_ne i slot with rfl | hne
  · rw [update_self]
    exact hOrder
  · rw [update_of_ne hne]
    exact (h.bounded i).mono hLe

theorem clear (hFree : (a.orders slot).isLive = false) : (a.setOrder slot {}).Covered fq fv :=
  h.write (h.balanced.clear hFree) h.position h.gross_le le_rfl rfl (bounded_empty h.filledValue_nonneg)

variable {intent : OrderIntent}

theorem enter (hSlot : slot < kMaxActiveOrders)
    (hFree : (a.orders slot).isLive = false) (hPrice : 0 < intent.price.toInt)
    (hQty : 0 < intent.qty.toInt) (hGross : a.gross + intent.price.toInt * intent.qty.toInt ≤ kInt64Max) :
    (a.enter slot intent).Covered fq fv :=
  h.write (h.balanced.enter hSlot hFree _) h.position hGross le_rfl rfl
    ⟨fun _ => hPrice, fun _ => hQty, fun hDone => (by cases hDone), le_refl 0, h.filledValue_nonneg⟩

variable {filled : Int} (hLive : (a.orders slot).isLive = true) (hPos : 0 < filled)
include hLive hPos

theorem filledOrder_bounded {state : OrderState} (hOpen : state ≠ .done → 0 < (a.orders slot).qty - filled)
    (hDone : state = .done → (a.orders slot).qty - filled = 0) :
    (a.filledOrder slot filled state).Bounded (fv + (a.orders slot).price * filled) := by
  have hOld := h.bounded slot
  have hPrice := hOld.price_pos hLive
  have hWorth := le_mul_of_one_le_left hPos.le hPrice
  have hFilled := hOld.filled_nonneg
  have hFilledLe := hOld.filled_le
  refine ⟨fun _ => hPrice, fun hStill => hOpen (state_ne_done hStill), hDone, ?_, ?_⟩
  · show 0 ≤ (a.orders slot).filledQty + filled
    omega
  · show (a.orders slot).filledQty + filled ≤ _
    omega

theorem position_fill : |fq + signedQtyDelta (a.orders slot).side filled| ≤ fv + (a.orders slot).price * filled := by
  have hWorth := le_mul_of_one_le_left hPos.le ((h.bounded slot).price_pos hLive)
  calc
    |fq + signedQtyDelta (a.orders slot).side filled| ≤ |fq| + |signedQtyDelta (a.orders slot).side filled| :=
      abs_add_le ..
    _ = |fq| + filled := by rw [abs_signedQtyDelta, abs_of_pos hPos]
    _ ≤ fv + (a.orders slot).price * filled := add_le_add h.position hWorth

end

section Live

variable (h : a.Covered fq fv) (hSlot : slot < kMaxActiveOrders) (hLive : (a.orders slot).isLive = true)

include h hSlot hLive

theorem drop : (a.drop slot).Covered fq fv := by
  refine h.write (h.balanced.drop hSlot hLive) h.position ?_ le_rfl rfl (bounded_empty h.filledValue_nonneg)
  have hQty := (h.bounded slot).qty_pos hLive
  have hQtyLe := (h.bounded slot).qty_le hLive
  have hGross := h.gross_le
  rw [drop_gross]
  omega

variable {newQty newPrice : Int}

theorem amend (hQty : 0 < newQty) (hPrice : 0 < newPrice)
    (hGross : a.gross + (newPrice * newQty - (a.orders slot).price * (a.orders slot).qty) ≤ kInt64Max) :
    (a.amend slot newQty newPrice).Covered fq fv := by
  have hOld := h.bounded slot
  refine h.write (h.balanced.amend hSlot hLive _ _) h.position hGross le_rfl rfl
    ⟨fun _ => hPrice, fun _ => hQty, fun hDone => ?_, hOld.filled_nonneg, hOld.filled_le⟩
  exact absurd hDone (state_ne_done hLive)

theorem fill (hPos : 0 < filled) (hLt : filled < (a.orders slot).qty) :
    (a.fill slot filled).Covered (fq + signedQtyDelta (a.orders slot).side filled)
      (fv + (a.orders slot).price * filled) := by
  have hPrice := (h.bounded slot).price_pos hLive
  refine h.write (h.balanced.fill hSlot hLive _) (h.position_fill hLive hPos) h.gross_le ?_ rfl
    (h.filledOrder_bounded hLive hPos (fun _ => by omega) (fun hDone => by cases hDone))
  have hNonneg := (mul_pos hPrice hPos).le
  omega

theorem finish (hPos : 0 < filled) (hAll : (a.orders slot).qty - filled = 0) :
    (a.finish slot filled).Covered (fq + signedQtyDelta (a.orders slot).side filled)
      (fv + (a.orders slot).price * filled) := by
  have hPrice := (h.bounded slot).price_pos hLive
  refine h.write (h.balanced.finish hSlot hLive _) (h.position_fill hLive hPos) ?_ ?_ rfl
    (h.filledOrder_bounded hLive hPos (fun hOpen => absurd rfl hOpen) (fun _ => hAll))
  · rw [finish_gross, hAll, mul_zero, sub_zero]
    exact h.gross_le
  · have hNonneg := (mul_pos hPrice hPos).le
    omega

end Live

end Covered

end Account

/-! ## The arithmetic of one call -/

namespace SymbolExecState

variable {st : SymbolExecState} {fq fv : Int} {slot : Nat} (h : st.account.Covered fq fv)
  (hSlot : slot < kMaxActiveOrders)

include h hSlot

theorem reserve_fits (hEntered : (st.account.enter slot intent).Covered fq fv) :
    ∀ x ∈ st.reserveArithmetic intent ++ (st.reserveAt slot intent).releaseArithmetic intent, fitsInt64 x = true := by
  have hOrder : (st.account.enter slot intent).orders slot = intent.order := update_self ..
  obtain ⟨hQty, hValue⟩ := hEntered.order_fits hSlot (by rw [hOrder]; rfl)
  simp only [hOrder, OrderIntent.order, signedQtyDelta_and_one] at hQty hValue
  -- the way back ends at the counters from before
  have hNet := h.net_fits
  have hGross := h.gross_fits
  simp only [reserveArithmetic, releaseArithmetic, cons_append, nil_append, forall_mem_cons]
  refine ⟨hQty, hEntered.net_fits, hValue, hEntered.gross_fits, hQty, ?_, hValue, ?_, forall_mem_nil _⟩
  · rw [show (st.reserveAt slot intent).risk.netPosition - _ = st.account.net from add_sub_cancel_right ..]
    exact hNet
  · rw [show (st.reserveAt slot intent).risk.grossExposure - _ = st.account.gross from add_sub_cancel_right ..]
    exact hGross

variable (hLive : (st.orders slot).isLive = true)

include hLive

theorem unbook_fits : ∀ x ∈ st.unbookArithmetic (st.orders slot), fitsInt64 x = true := by
  obtain ⟨hQty, hValue⟩ := h.order_fits hSlot hLive
  have hDropped := h.drop hSlot hLive
  simp only [unbookArithmetic, forall_mem_cons]
  exact ⟨hQty, hDropped.net_fits, hValue, hDropped.gross_fits, forall_mem_nil _⟩

theorem amend_fits (hAmended : (st.account.amend slot newQty newPrice).Covered fq fv) :
    ∀ x ∈ st.amendArithmetic (st.orders slot) newQty newPrice, fitsInt64 x = true := by
  have hOrder : (st.account.amend slot newQty newPrice).orders slot =
      { st.orders slot with qty := newQty, price := newPrice } := update_self ..
  have hNewLive : ((st.account.amend slot newQty newPrice).orders slot).isLive = true := by
    rw [hOrder]
    exact hLive
  obtain ⟨hQty, hValue⟩ := h.order_fits hSlot hLive
  obtain ⟨hNewQty, hNewValue⟩ := hAmended.order_fits hSlot hNewLive
  obtain ⟨_, _, _⟩ : 0 < (st.orders slot).qty ∧ (st.orders slot).qty ≤ (st.orders slot).price * (st.orders slot).qty ∧
      (st.orders slot).price * (st.orders slot).qty ≤ _ := h.order_bounds hSlot hLive
  obtain ⟨hNewPos, hNewLe, hNewMax⟩ := hAmended.order_bounds hSlot hNewLive
  simp only [hOrder] at hNewQty hNewValue hNewPos hNewLe hNewMax
  simp only [amendArithmetic, forall_mem_cons]
  refine ⟨hQty, hNewQty, ?_, hAmended.net_fits, hNewValue, hValue, ?_, hAmended.gross_fits, forall_mem_nil _⟩
  · rw [← signedQtyDelta_sub]
    refine fitsInt64_of_abs_le ?_ le_rfl
    rw [abs_signedQtyDelta, abs_le]
    constructor <;> omega
  · refine fitsInt64_of_abs_le ?_ le_rfl
    rw [abs_le]
    constructor <;> omega

end SymbolExecState

namespace ExecutionGateway

section

variable (call : GatewayCall) (g : ExecutionGateway)

def NoOverflow : Prop := ∀ x ∈ arithmetic call g, fitsInt64 x = true

instance : Decidable (NoOverflow call g) :=
  inferInstanceAs (Decidable (∀ x ∈ arithmetic call g, fitsInt64 x = true))

/-- A replacement that gets past the checks and the log leaves a gross exposure that fits. -/
def ReplaceFits : Prop :=
  match call.op with
  | .replaceReport symbol orderId newQty newPrice => ∀ slot, g.Amends symbol orderId newQty newPrice slot →
      (g.logReplace call.env symbol slot newQty newPrice).1 = true →
      (g.states symbol).risk.grossExposure + (newPrice.toInt * newQty.toInt -
        ((g.states symbol).orders slot).price * ((g.states symbol).orders slot).qty) ≤ kInt64Max
  | _ => True

end

def NoTerminalReport (op : GatewayOp) : Prop :=
  match op with
  | .executionReport _ report => report.terminal = false
  | _ => True

structure Covers (g : ExecutionGateway) : Prop where
  sound : g.Sound
  covered : ∀ symbol, ∃ filledQty filledValue, (g.accounts symbol).Covered filledQty filledValue

theorem covers_init {rateLimit : Nat} {limits : Nat → ValidLimits} {breaker : CircuitBreaker}
    {recovery : Option RecoveryLedger} : (init rateLimit limits breaker recovery).Covers where
  sound := sound_init ..
  covered _ := ⟨0, 0, covered_empty⟩

variable {g : ExecutionGateway} {fq fv : Int} {slot : Nat}

theorem covered_enter
    (hPass : (g.evaluate intent).pass = true) (hFree : (g.states intent.symbolIdx).findFree = some slot)
    (h : (g.accounts intent.symbolIdx).Covered fq fv) :
    ((g.accounts intent.symbolIdx).enter slot intent).Covered fq fv := by
  obtain ⟨hSlot, hNotLive, _⟩ := findFree_spec hFree
  have hPassed := passed_of_evaluate hPass
  exact h.enter hSlot hNotLive hPassed.price_pos hPassed.qty_pos (gross_le_of_evaluate hPass)

namespace Covers

variable {call : GatewayCall} {g : ExecutionGateway}

theorem noTerminalFill (h : g.Covers) (call : GatewayCall) : NoTerminalFill call g := by
  unfold NoTerminalFill
  split
  next symbol report _ =>
    intro slot hMatches hDone
    obtain ⟨_, _, hCovered⟩ := h.covered _
    have hZero : ((g.states symbol).orders slot).qty = 0 := (hCovered.bounded slot).done_qty hDone
    have hPos := hMatches.pos
    have hLe := hMatches.le
    omega
  · trivial

variable {symbol : Nat} {report : ExecutionReport}

theorem live_of_matches (h : g.Covers)
    (hMatches : g.Matches symbol report slot) : ((g.accounts symbol).orders slot).isLive = true :=
  (h.noTerminalFill ⟨_, {}⟩).live rfl hMatches

theorem write (h : g.Covers) {g' : ExecutionGateway} (hSound : g'.Sound) {account : Account}
    (hAccounts : g'.accounts = update g.accounts symbol account) (hCovered : account.Covered fq fv) : g'.Covers := by
  refine ⟨hSound, fun s => ?_⟩
  rw [hAccounts]
  rcases eq_or_ne s symbol with rfl | hne
  · rw [update_self]
    exact ⟨fq, fv, hCovered⟩
  · rw [update_of_ne hne]
    exact h.covered s

theorem step (h : g.Covers) (hLost : NoLostId call g) (hReport : NoTerminalReport call.op)
    (hFits : ReplaceFits call g) : (ExecutionGateway.step call g).2.Covers := by
  have hTerminal := h.noTerminalFill call
  have hSound := h.sound.step hLost hTerminal
  have hMove := h.sound.move hLost hTerminal
  generalize ExecutionGateway.step call g = result at hMove hSound
  cases hMove with
  | idle _ accounts =>
    refine ⟨hSound, ?_⟩
    rw [accounts]
    exact h.covered
  | @cleared _ _ symbol _ _ _ free accounts =>
    obtain ⟨_, _, hCovered⟩ := h.covered _
    exact h.write hSound accounts (hCovered.clear free)
  | admitted _ _ _ admits =>
    obtain ⟨_, _, hCovered⟩ := h.covered _
    exact h.write hSound admits.accounts (covered_enter admits.reserves.passed admits.reserves.free hCovered)
  | @filled _ _ symbol report slot op _ _ fills live =>
    obtain ⟨matched, _, accounts, _, _, _⟩ := fills
    obtain ⟨_, _, hCovered⟩ := h.covered _
    obtain ⟨hSlot, _, _⟩ := matched.order
    rw [op] at hReport
    have hPartial : report.terminal = false := hReport
    split_ifs at accounts with hFinish
    · have hAll := hFinish.resolve_left (by rw [hPartial]; exact Bool.false_ne_true)
      exact h.write hSound accounts (hCovered.finish hSlot live matched.pos hAll)
    have hLe := matched.le
    have hRest := (not_or.mp hFinish).2
    have hLt : report.filledQuantity < ((g.states symbol).orders slot).qty := by omega
    exact h.write hSound accounts (hCovered.fill hSlot live matched.pos hLt)
  | dropped _ drops =>
    obtain ⟨_, _, hCovered⟩ := h.covered _
    obtain ⟨hSlot, _, live⟩ := drops.opened.order
    exact h.write hSound drops.accounts (hCovered.drop hSlot live)
  | amended op _ replaced =>
    have hAmends := replaced.amends
    obtain ⟨_, _, hCovered⟩ := h.covered _
    obtain ⟨hSlot, _, live⟩ := hAmends.order
    rw [ReplaceFits, op] at hFits
    exact h.write hSound replaced.accounts
      (hCovered.amend hSlot live hAmends.qty_pos hAmends.price_pos (hFits _ hAmends replaced.log.result))

/-! ### The operations -/

variable (h : g.Covers)

include h

theorem tryBuild_fits (env : GatewayEnv) (intent : OrderIntent) (packet : OutboundPacket) :
    ∀ x ∈ g.tryBuildArithmetic env intent packet, fitsInt64 x = true := by
  unfold tryBuildArithmetic
  split
  · rename_i hReaches
    dsimp only
    cases hFree : (g.states intent.symbolIdx).findFree with
    | none => exact forall_mem_nil _
    | some slot =>
      simp only [reachesSlots, Bool.and_eq_true] at hReaches
      obtain ⟨⟨⟨⟨_, hPass⟩, _⟩, _⟩, _⟩ := hReaches
      obtain ⟨_, _, hCovered⟩ := h.covered _
      have hFits := reserve_fits hCovered (findFree_spec hFree).1 (covered_enter hPass hFree hCovered)
      intro x hx
      split_ifs at hx
      · exact hFits x (mem_append_left _ hx)
      · exact hFits x hx
  · exact forall_mem_nil _

theorem execution_fits (env : GatewayEnv)
    (hReport : report.terminal = false) : ∀ x ∈ g.executionArithmetic env symbol report, fitsInt64 x = true := by
  unfold executionArithmetic
  split_ifs with hSymbol
  · exact forall_mem_nil _
  cases hFound : (g.states symbol).findOrder report.orderId with
  | none => exact forall_mem_nil _
  | some slot =>
    dsimp only
    split
    · exact forall_mem_nil _
    rename_i hChecks
    have hMatches := matches_of_checks hSymbol hFound hChecks
    have hPos := hMatches.pos
    have hLe := hMatches.le
    have hLive := h.live_of_matches hMatches
    obtain ⟨_, fv, hCovered⟩ := h.covered _
    have hQtyLe : ((g.states symbol).orders slot).qty ≤ ((g.states symbol).orders slot).price * _ :=
      (hCovered.bounded slot).qty_le hLive
    have hValue : fv + ((g.states symbol).orders slot).price * _ ≤ _ := hCovered.value_le hMatches.order.1 hLive
    have hFilled : 0 ≤ ((g.states symbol).orders slot).filledQty := (hCovered.bounded slot).filled_nonneg
    have hFilledLe : ((g.states symbol).orders slot).filledQty ≤ fv := (hCovered.bounded slot).filled_le
    -- both the rest and the new filled quantity are within the exposure
    have hRest : fitsInt64 (((g.states symbol).orders slot).qty - report.filledQuantity) = true :=
      fitsInt64_of_nonneg (by omega) (by omega) hCovered.gross_le
    have hNew : fitsInt64 (((g.states symbol).orders slot).filledQty + report.filledQuantity) = true :=
      fitsInt64_of_nonneg (by omega) (by omega) hCovered.gross_le
    rw [forall_mem_cons]
    refine ⟨hRest, ?_⟩
    split_ifs with _ hTerminal
    · exact forall_mem_nil _
    · rw [hReport] at hTerminal
      exact absurd hTerminal.1 Bool.false_ne_true
    · rw [forall_mem_cons]
      exact ⟨hNew, forall_mem_nil _⟩

theorem drop_fits {applied : Bool} {orderId : UInt64} (hApplied : applied = true → ∃ slot, g.Open symbol orderId slot) :
    ∀ x ∈ g.dropArithmetic applied symbol orderId, fitsInt64 x = true := by
  unfold dropArithmetic
  cases hFound : (g.states symbol).findOrder orderId with
  | none => exact forall_mem_nil _
  | some slot =>
    split_ifs with hTrue
    · obtain ⟨_, hOpen⟩ := hApplied hTrue
      obtain rfl := some_inj.mp (hFound.symm.trans hOpen.found)
      obtain ⟨_, _, hCovered⟩ := h.covered _
      obtain ⟨hSlot, _, hLive⟩ := hOpen.order
      exact unbook_fits hCovered hSlot hLive
    · exact forall_mem_nil _

section

variable (env : GatewayEnv) (symbol : Nat) (orderId : UInt64)

theorem cancel_fits : ∀ x ∈ g.cancelArithmetic env symbol orderId, fitsInt64 x = true := by
  refine h.drop_fits fun hApplied => ?_
  have hSpec := applyCancelReport_spec g env symbol orderId
  generalize g.applyCancelReport env symbol orderId = result at hSpec hApplied
  cases hSpec with
  | refused => cases hApplied
  | cancelled drops => exact ⟨_, drops.opened⟩

theorem reject_fits : ∀ x ∈ g.rejectArithmetic env symbol orderId, fitsInt64 x = true := by
  refine h.drop_fits fun hApplied => ?_
  have hSpec := applyRejectReport_spec g env symbol orderId
  generalize g.applyRejectReport env symbol orderId = result at hSpec hApplied
  cases hSpec with
  | refused => cases hApplied
  | rejected drops => exact ⟨_, drops.opened⟩

theorem replace_fits_iff (newQty newPrice : Int64) : NoOverflow ⟨.replaceReport symbol orderId newQty newPrice, env⟩ g ↔
      ReplaceFits ⟨.replaceReport symbol orderId newQty newPrice, env⟩ g := by
  show (∀ x ∈ g.replaceArithmetic env _ _ _ newPrice, fitsInt64 x = true) ↔ _
  constructor
  · intro hNone slot hAmends hLogged
    have hArithmetic : g.replaceArithmetic env symbol orderId newQty newPrice =
        (g.states symbol).amendArithmetic ((g.states symbol).orders slot) newQty.toInt newPrice.toInt := by
      simp [replaceArithmetic, hAmends.found, applyReplaceReport_of_amends hAmends hLogged]
    rw [hArithmetic] at hNone
    simp only [amendArithmetic, forall_mem_cons] at hNone
    obtain ⟨_, _, _, _, _, _, _, hGross, _⟩ := hNone
    rw [fitsInt64, Bool.and_eq_true, decide_eq_true_eq, decide_eq_true_eq] at hGross
    exact hGross.2
  · intro hFits
    unfold replaceArithmetic
    have hSpec := applyReplaceReport_spec g env symbol orderId newQty newPrice
    generalize g.applyReplaceReport env symbol orderId newQty newPrice = result at hSpec
    cases hFound : (g.states symbol).findLive orderId with
    | none => exact forall_mem_nil _
    | some slot =>
      cases hSpec with
      | refused => exact forall_mem_nil _
      | replaced replaced =>
        have amends := replaced.amends
        obtain rfl := some_inj.mp (hFound.symm.trans amends.found)
        obtain ⟨hSlot, _, hLive⟩ := amends.order
        obtain ⟨_, _, hCovered⟩ := h.covered _
        have hAmended := hCovered.amend hSlot hLive amends.qty_pos amends.price_pos (hFits slot amends replaced.log.result)
        exact amend_fits hCovered hSlot hLive hAmended

end

theorem noOverflow_iff (hReport : NoTerminalReport call.op) : NoOverflow call g ↔ ReplaceFits call g := by
  obtain ⟨op, env⟩ := call
  cases op with
  | tryBuild intent packet => exact ⟨fun _ => trivial, fun _ => h.tryBuild_fits env _ _⟩
  | executionReport symbol report => exact ⟨fun _ => trivial, fun _ => h.execution_fits env hReport⟩
  | cancelReport symbol orderId => exact ⟨fun _ => trivial, fun _ => h.cancel_fits env _ _⟩
  | replaceReport symbol orderId newQty newPrice => exact h.replace_fits_iff env _ _ _ _
  | rejectReport symbol orderId => exact ⟨fun _ => trivial, fun _ => h.reject_fits env _ _⟩
  | cancelOrder orderId =>
    refine ⟨fun _ => trivial, fun _ => ?_⟩
    simp only [NoOverflow, arithmetic]
    cases firstIndex (fun symbol => ((g.states symbol).findLive orderId).isSome) kSymbols with
    | none => exact forall_mem_nil _
    | some symbol =>
      split_ifs
      · exact forall_mem_nil _
      · exact h.cancel_fits env _ _
  | tryReplace | haltSymbol | resumeSymbol | setLimits | setBreaker =>
    exact ⟨fun _ => trivial, fun _ => forall_mem_nil _⟩

end Covers

end ExecutionGateway

/-! ## Runs -/

namespace FlowCall

theorem noTerminalReport {call : FlowCall} {reached : GatewayCall} (h : call.gatewayCall = some reached) :
    ExecutionGateway.NoTerminalReport reached.op := by
  obtain ⟨op, _⟩ := call
  cases op with
  | call op noReport =>
    obtain rfl := some_inj.mp h
    cases op with
    | executionReport => cases noReport
    | _ => trivial
  | consume data symbol =>
    obtain ⟨⟨_, _⟩, _, hReport⟩ := bind_eq_some_iff.mp h
    obtain ⟨op, hOp, rfl⟩ := map_eq_some_iff.mp hReport
    unfold Ouch.Event.report at hOp
    split at hOp <;> cases hOp
    · rfl
    all_goals trivial

theorem noOverflow_iff (call : FlowCall) (h : g.Covers) :
    call.Meets ExecutionGateway.NoOverflow g ↔ call.Meets ExecutionGateway.ReplaceFits g := by
  unfold Meets
  cases hCall : call.gatewayCall with
  | none => exact Iff.rfl
  | some reached => exact h.noOverflow_iff (noTerminalReport hCall)

theorem covers_step (call : FlowCall) (hLost : call.Meets ExecutionGateway.NoLostId g)
    (hFits : call.Meets ExecutionGateway.ReplaceFits g) (h : g.Covers) : (call.step g).2.Covers := by
  rw [step_gateway]
  unfold Meets at hLost hFits
  cases hCall : call.gatewayCall with
  | none => exact h
  | some reached =>
    rw [hCall] at hLost hFits
    exact h.step hLost (noTerminalReport hCall) hFits

end FlowCall

namespace ExecutionGateway

/-- In every run in which all reports come from frames of the venue and no submission carries a lost id, nothing
overflows exactly if every replacement leaves a gross exposure that fits. -/
theorem flow_noOverflow_iff (rateLimit : Nat) (limits : Nat → ValidLimits) (breaker : CircuitBreaker)
    (recovery : Option RecoveryLedger) (calls : List FlowCall)
    (hLost : Always FlowCall.step (FlowCall.Meets NoLostId) calls (init rateLimit limits breaker recovery)) :
    Always FlowCall.step (FlowCall.Meets NoOverflow) calls (init rateLimit limits breaker recovery) ↔
      Always FlowCall.step (FlowCall.Meets ReplaceFits) calls (init rateLimit limits breaker recovery) :=
  hLost.iff_of_invariant _ (fun call _ _ hCovers => call.noOverflow_iff hCovers)
    (fun call _ hLost hFits => call.covers_step hLost hFits) (covers_init)

def flowSubmission : FlowCall := ⟨.call (submission kBuy 7 1 true).op rfl, {}⟩

def replaceFrame (newQty newPrice : List UInt8) : FlowCall :=
  ⟨.consume ([0, 17, 0x55, 0, 0, 0, 0, 0, 0, 0, 7] ++ newQty ++ newPrice) 0, {}⟩

def smallReplace : List FlowCall := [flowSubmission, replaceFrame [0, 0, 0, 2] [0, 0, 0, 101]]

def largeReplace : List FlowCall := [flowSubmission, replaceFrame [255, 255, 255, 255] [255, 255, 255, 255]]

theorem flow_noOverflow_smallReplace : Always FlowCall.step (FlowCall.Meets NoLostId) smallReplace start ∧
      Always FlowCall.step (FlowCall.Meets ReplaceFits) smallReplace start := by
  have hLost : Always FlowCall.step (FlowCall.Meets NoLostId) smallReplace start := ⟨not_lost_start 7, trivial, trivial⟩
  exact ⟨hLost, (flow_noOverflow_iff _ _ _ _ _ hLost).mp (by decide +kernel)⟩

/-- The product of the largest quantity and the largest price of a frame takes more than 63 bits. -/
theorem largeReplace_overflows : ¬ Always FlowCall.step (FlowCall.Meets NoOverflow) largeReplace start := by
  decide +kernel

end ExecutionGateway

end LuvFlicker
