import LuvFlicker.Execution.Moves

/-!
# Terminal orders

A slot in state 3 is history: it should change only when a newly accepted order
takes it. Cancel, replace and reject reports test for the state; the fill path
relies on the reconciliation ledger, which knows ids over all symbols.
-/

namespace LuvFlicker.ExecutionGateway

open Exec Scan Run Function Config ActiveOrder Account

section

variable (call : GatewayCall) (g : ExecutionGateway)

/-- The call changed a terminal order only to hand its slot to an order it accepted, and lowered an order count only
for an order that was live before. -/
structure TerminalKept (result : GatewayReply × ExecutionGateway) : Prop where
  slots : ∀ symbol < kSymbols, ∀ i < kMaxActiveOrders, ((g.states symbol).orders i).state = .done →
    (result.2.states symbol).orders i = (g.states symbol).orders i ∨
    ∃ intent packet, call.op = .tryBuild intent packet ∧ intent.symbolIdx = symbol ∧
      result.1.acceptedId call = some intent.clientOrderId.toUInt64 ∧
      (g.states symbol).findFree = some i ∧ (result.2.states symbol).orders i = intent.order
  count : ∀ symbol < kSymbols, (result.2.states symbol).risk.orderCount < (g.states symbol).risk.orderCount →
    ∃ i < kMaxActiveOrders, ((g.states symbol).orders i).isLive = true ∧
      ((result.2.states symbol).orders i).isLive = false

def KeepsTerminal : Prop := TerminalKept call g (step call g)

/-- A submission that takes the slot of a terminal order fails neither its audit record nor its log record. -/
def CompletesReservation : Prop :=
  match call.op with
  | .tryBuild intent _ => ∀ slot, g.Reserves intent slot → ((g.states intent.symbolIdx).orders slot).state = .done →
      call.env.audit = true ∧ (g.appendRecovery (addEvent intent) call.env.io).1 = true
  | _ => True

def SparesTerminal : Prop :=
  NoTerminalFill call g ∧ CompletesReservation call g

end

section Account

variable {g g' : ExecutionGateway} {symbol slot : Nat} {account : Account} {order : ActiveOrder}

variable (hAccounts : g'.accounts = update g.accounts symbol account)
include hAccounts

theorem count_of_write (hCount : account.count < (g.accounts symbol).count → ∃ i < kMaxActiveOrders,
      ((g.accounts symbol).orders i).isLive = true ∧ (account.orders i).isLive = false) {s : Nat}
    (hLess : (g'.states s).risk.orderCount < (g.states s).risk.orderCount) :
    ∃ i < kMaxActiveOrders, ((g.states s).orders i).isLive = true ∧ ((g'.states s).orders i).isLive = false := by
  change (g'.accounts s).count < (g.accounts s).count at hLess
  change ∃ i < kMaxActiveOrders, ((g.accounts s).orders i).isLive = true ∧ ((g'.accounts s).orders i).isLive = false
  rw [hAccounts] at hLess ⊢
  rcases eq_or_ne s symbol with rfl | hne
  · rw [update_self] at hLess ⊢
    exact hCount hLess
  · rw [update_of_ne hne] at hLess
    exact absurd hLess (lt_irrefl _)

end Account

variable {call : GatewayCall} {g : ExecutionGateway} {g' : ExecutionGateway} {reply : GatewayReply}

theorem TerminalKept.write {symbol slot : Nat}
    {account : Account} {order : ActiveOrder} (hAccounts : g'.accounts = update g.accounts symbol account)
    (hOrders : account.orders = update (g.accounts symbol).orders slot order)
    (hSlot : ((g.accounts symbol).orders slot).state ≠ .done)
    (hCount : account.count < (g.accounts symbol).count → slot < kMaxActiveOrders ∧
      ((g.accounts symbol).orders slot).isLive = true ∧ order.isLive = false) : TerminalKept call g (reply, g') := by
  refine ⟨fun s _ i _ hDone => .inl ?_, fun s _ => count_of_write hAccounts fun hLess => ?_⟩
  · change (g'.accounts s).orders i = (g.accounts s).orders i
    rw [hAccounts]
    rcases orders_update (f := g.accounts) hOrders s i with ⟨⟨rfl, rfl⟩, _⟩ | ⟨_, hOld⟩
    · exact absurd hDone hSlot
    · exact hOld
  obtain ⟨hLt, hLive, hDead⟩ := hCount hLess
  refine ⟨slot, hLt, hLive, ?_⟩
  rw [hOrders, update_self]
  exact hDead

theorem TerminalKept.same (hAccounts : g'.accounts = g.accounts) : TerminalKept call g (reply, g') := by
  refine ⟨fun s _ i _ _ => .inl ?_, fun s _ hLess => ?_⟩
  · exact congrFun (congrArg orders (congrFun hAccounts s)) i
  · exact absurd (congrArg Account.count (congrFun hAccounts s)) (ne_of_lt hLess)

theorem keepsTerminal_of_spares (h : SparesTerminal call g) : KeepsTerminal call g := by
  obtain ⟨hTerminal, hCompletes⟩ := h
  have hEffect := step_effect call g
  unfold KeepsTerminal
  generalize step call g = result at hEffect
  cases hEffect with
  | idle _ same | unapplied _ _ same => exact .same same.accounts
  | unplaced _ _ unplaced => exact .same unplaced.accounts
  | @rolledBack _ g' intent packet slot back op _ rolledBack =>
    obtain ⟨reserves, found, accounts, _, _, cause⟩ := rolledBack
    have hSlot : ((g.accounts intent.symbolIdx).orders slot).state ≠ .done := by
      intro hDone
      rw [CompletesReservation, op] at hCompletes
      obtain ⟨hAudit, hLogged⟩ := hCompletes slot reserves hDone
      rcases cause with ⟨hFailed, _⟩ | hFailed
      · exact absurd (hAudit.symm.trans hFailed) (by decide)
      · exact absurd (hLogged.symm.trans hFailed.result) (by decide)
    have hBack : ((g.accounts intent.symbolIdx).orders back).state ≠ .done := by
      rcases reserves.back_cases found with rfl | ⟨_, hLive, _⟩
      · exact hSlot
      · exact state_ne_done hLive
    refine ⟨fun s _ i _ hDone => .inl ?_, fun s _ => count_of_write accounts fun hLess => ?_⟩
    · change (g'.accounts s).orders i = (g.accounts s).orders i
      rw [accounts]
      rcases eq_or_ne s intent.symbolIdx with rfl | hne
      · have hNotBack : i ≠ back := by
          rintro rfl
          exact hBack hDone
        have hNotSlot : i ≠ slot := by
          rintro rfl
          exact hSlot hDone
        rw [update_self, retract_orders, update_of_ne hNotBack, enter_orders, update_of_ne hNotSlot]
      · rw [update_of_ne hne]
    · exact absurd hLess (lt_irrefl _)
  | @admitted _ g' intent packet slot op accepted _ admits =>
    refine ⟨fun s _ i _ _ => ?_, fun s _ => count_of_write admits.accounts fun hLess => ?_⟩
    · have hOrders : ((g.accounts intent.symbolIdx).enter slot intent).orders =
          update (g.accounts intent.symbolIdx).orders slot intent.order := rfl
      have hSlots := orders_update (f := g.accounts) hOrders s i
      rw [← admits.accounts] at hSlots
      rcases hSlots with ⟨⟨rfl, rfl⟩, hNew⟩ | ⟨_, hOld⟩
      · exact .inr ⟨_, _, op, rfl, accepted, admits.reserves.free, hNew⟩
      · exact .inl hOld
    · exact absurd hLess (by rw [enter_count]; omega)
  | filled op _ _ fills =>
    have hLive := hTerminal.live op fills.matched
    obtain ⟨hSlot, _, _⟩ := fills.matched.order
    have accounts := fills.accounts
    split_ifs at accounts
    · exact .write accounts rfl (state_ne_done hLive) fun _ => ⟨hSlot, hLive, rfl⟩
    · exact .write accounts rfl (state_ne_done hLive) fun hLess => absurd hLess (lt_irrefl _)
  | cancelled _ drops | rejected _ _ drops =>
    obtain ⟨hSlot, _, hLive⟩ := drops.opened.order
    exact .write drops.accounts rfl (state_ne_done hLive) fun _ => ⟨hSlot, hLive, rfl⟩
  | amended _ _ replaced =>
    obtain ⟨_, _, hLive⟩ := replaced.amends.order
    exact .write replaced.accounts rfl (state_ne_done hLive) fun hLess => absurd hLess (lt_irrefl _)

/-- In every run that neither fills a terminal order nor abandons the reservation of its slot, terminal orders are
history. -/
theorem run_keepsTerminal (rateLimit : Nat) (limits : Nat → ValidLimits) (breaker : CircuitBreaker)
    (recovery : Option RecoveryLedger) (calls : List GatewayCall)
    (h : Always step SparesTerminal calls (init rateLimit limits breaker recovery)) :
    Always step KeepsTerminal calls (init rateLimit limits breaker recovery) :=
  h.mono fun _ _ => keepsTerminal_of_spares

def retiringCalls : List GatewayCall :=
  [submission kBuy 185 10 true, fillReport 185 4 true, fillReport 185 2 false, submission kBuy 185 20 true]

theorem run_keepsTerminal_retiringCalls :
    Always step SparesTerminal retiringCalls start ∧ Always step KeepsTerminal retiringCalls start := by
  have hRun : Always step SparesTerminal retiringCalls start := by
    refine ⟨⟨trivial, fun slot _ hDone => by cases hDone⟩, ⟨fun slot hMatches hDone => ?_, trivial⟩,
      ⟨fun slot hMatches => absurd hMatches.contains (by decide +kernel), trivial⟩,
      ⟨trivial, fun slot _ _ => ⟨rfl, rfl⟩⟩, trivial⟩
    have hSlot : some slot = some 0 := hMatches.found.symm.trans (by decide +kernel)
    rw [Option.some.inj hSlot] at hDone
    exact absurd hDone (by decide +kernel)
  exact ⟨hRun, run_keepsTerminal _ _ _ _ _ hRun⟩

def revivingCalls : List GatewayCall := [submission kBuy 185 10 true, fillReport 185 4 true,
    ⟨.tryBuild { symbolIdx := 1, qty := 10, price := 100, clientOrderId := 185 } {}, {}⟩, fillReport 185 2 false]

/-- A late report for the first symbol passes the ledger on the entry of the second and moves the order from
state 3 to state 2. -/
theorem revivingCalls_not_keepsTerminal : ¬ Always step KeepsTerminal revivingCalls start := by
  rintro ⟨_, _, _, hLast, _⟩
  rcases hLast.slots 0 (by decide) 0 (by decide) (by decide +kernel) with hSame | ⟨_, _, hOp, _⟩
  · exact absurd hSame (by decide +kernel)
  · cases hOp

end LuvFlicker.ExecutionGateway
