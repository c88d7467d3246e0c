import LuvFlicker.Execution.Step
import LuvFlicker.Lib.Run
import LuvFlicker.Safety.ReconciliationEntries

/-!
# Failed operations

A report that fails, and a submission that is turned down for an id without a live
order, change nothing that the accounting is about.
-/

namespace LuvFlicker.ExecutionGateway

open Exec Scan Run Function ReconciliationLedger Account

/-- A submission does not carry an id that the ledger stores but no longer finds. -/
def NoLostId (call : GatewayCall) (g : ExecutionGateway) : Prop :=
  match call.op with
  | .tryBuild intent _ => ¬ g.reconciliation.Lost intent.clientOrderId.toUInt64
  | _ => True

variable {g : ExecutionGateway} {call : GatewayCall} {intent : OrderIntent}

theorem NoLostId.not_stores (h : NoLostId call g) {packet : OutboundPacket} (hOp : call.op = .tryBuild intent packet)
    (hRegistered : (g.reconciliation.registerOrder intent.clientOrderId.toUInt64 intent.qty.toInt).1 = true) :
    ¬ g.reconciliation.Stores intent.clientOrderId.toUInt64 := by
  rw [NoLostId, hOp] at h
  exact fun hStores => h ⟨hStores, contains_of_registerOrder hRegistered⟩

section

variable (hLost : NoLostId call g) (h : g.reconciliation.Unique)
include hLost h

theorem unique_step : (step call g).2.reconciliation.Unique := by
  have hEffect := step_effect call g
  generalize step call g = result at hEffect
  cases hEffect with
  | idle _ same | unapplied _ _ same => exact h.congr same.entries
  | unplaced _ _ unplaced =>
    rw [unplaced.reconciliation]
    exact (h.registerOrder_cancel unplaced.registered).1
  | rolledBack _ _ back =>
    rw [back.reconciliation]
    exact (h.registerOrder_cancel back.reserves.registered).1
  | admitted op _ _ admits =>
    have hRegistered := admits.reserves.registered
    rw [admits.reconciliation]
    exact (h.registerOrder hRegistered (hLost.not_stores op hRegistered)).1
  | filled _ _ _ fills =>
    rw [fills.reconciliation]
    exact (h.apply fills.applied).1
  | cancelled _ drops | rejected _ _ drops =>
    rw [drops.reconciliation]
    exact (h.cancel_any _).1
  | amended _ _ replaced =>
    obtain ⟨hId, _, hFind⟩ := contains_iff.mp replaced.amends.contains
    rw [replaced.reconciliation, replace_of_some hId replaced.amends.qty_pos hFind]
    exact (h.setEntry hId hFind).1

theorem stores_step {id : UInt64} (hStores : (step call g).2.reconciliation.Stores id) : g.reconciliation.Stores id ∨
      ∃ intent packet, call.op = .tryBuild intent packet ∧ id = intent.clientOrderId.toUInt64 := by
  obtain ⟨r, hHolds⟩ := hStores
  have hEffect := step_effect call g
  generalize step call g = result at hEffect hHolds
  cases hEffect with
  | idle _ same | unapplied _ _ same => exact .inl ⟨r, (holds_congr same.entries).mp hHolds⟩
  | unplaced _ _ unplaced =>
    rw [unplaced.reconciliation] at hHolds
    exact .inl ⟨r, ((h.registerOrder_cancel unplaced.registered).2 id r).mp hHolds⟩
  | rolledBack _ _ back =>
    rw [back.reconciliation] at hHolds
    exact .inl ⟨r, ((h.registerOrder_cancel back.reserves.registered).2 id r).mp hHolds⟩
  | admitted op _ _ admits =>
    have hRegistered := admits.reserves.registered
    rw [admits.reconciliation] at hHolds
    obtain ⟨rfl, _⟩ | hOld := ((h.registerOrder hRegistered (hLost.not_stores op hRegistered)).2 id r).mp hHolds
    · exact .inr ⟨_, _, op, rfl⟩
    · exact .inl ⟨r, hOld⟩
  | filled _ _ _ fills =>
    rw [fills.reconciliation] at hHolds
    obtain ⟨_, _, hHeld, hEntries⟩ := h.apply fills.applied
    obtain ⟨_, rfl, _⟩ | ⟨_, hOld⟩ := (hEntries id r).mp hHolds
    · exact .inl ⟨_, hHeld⟩
    · exact .inl ⟨r, hOld⟩
  | cancelled _ drops | rejected _ _ drops =>
    rw [drops.reconciliation] at hHolds
    exact .inl ⟨r, (h.cancel_any _).2.1 id r hHolds⟩
  | amended _ _ replaced =>
    obtain ⟨hId, _, hFind⟩ := contains_iff.mp replaced.amends.contains
    rw [replaced.reconciliation, replace_of_some hId replaced.amends.qty_pos hFind] at hHolds
    obtain ⟨rfl, _⟩ | ⟨_, hOld⟩ := ((h.setEntry hId hFind).2 id r).mp hHolds
    · exact .inl ⟨_, holds_of_find hId hFind⟩
    · exact .inl ⟨r, hOld⟩

end

/-! ## What a failure leaves alone -/

structure SameAccounting (g g' : ExecutionGateway) : Prop where
  live : ∀ symbol i, (((g.states symbol).orders i).isLive ∨ ((g'.states symbol).orders i).isLive) →
    (g'.states symbol).orders i = (g.states symbol).orders i
  net : ∀ symbol, (g'.states symbol).risk.netPosition = (g.states symbol).risk.netPosition
  gross : ∀ symbol, (g'.states symbol).risk.grossExposure = (g.states symbol).risk.grossExposure
  count : ∀ symbol, (g'.states symbol).risk.orderCount = (g.states symbol).risk.orderCount
  pending : g'.rateLimiter.pending = g.rateLimiter.pending
  entries : ∀ id remaining, g'.reconciliation.Holds id remaining ↔ g.reconciliation.Holds id remaining

theorem sameAccounting_of_accounts {g g' : ExecutionGateway} (hAccounts : g'.accounts = g.accounts)
    (hPending : g'.rateLimiter = g.rateLimiter)
    (hEntries : ∀ id remaining, g'.reconciliation.Holds id remaining ↔ g.reconciliation.Holds id remaining) :
    SameAccounting g g' where
  live symbol i _ := congrFun (congrArg orders (congrFun hAccounts symbol)) i
  net symbol := congrArg net (congrFun hAccounts symbol)
  gross symbol := congrArg gross (congrFun hAccounts symbol)
  count symbol := congrArg count (congrFun hAccounts symbol)
  pending := congrArg _ hPending
  entries := hEntries

theorem sameAccounting_of_clear {g g' : ExecutionGateway} {symbol slot : Nat}
    (hFree : ((g.states symbol).orders slot).isLive = false)
    (hAccounts : g'.accounts = update g.accounts symbol ((g.accounts symbol).setOrder slot {}))
    (hPending : g'.rateLimiter = g.rateLimiter)
    (hEntries : ∀ id remaining, g'.reconciliation.Holds id remaining ↔ g.reconciliation.Holds id remaining) :
    SameAccounting g g' := by
  have hCounters : ∀ s, (g'.accounts s).net = (g.accounts s).net ∧ (g'.accounts s).gross = (g.accounts s).gross ∧
      (g'.accounts s).count = (g.accounts s).count := by
    intro s
    rw [hAccounts]
    rcases eq_or_ne s symbol with rfl | hne
    · rw [update_self]
      exact ⟨rfl, rfl, rfl⟩
    · rw [update_of_ne hne]
      exact ⟨rfl, rfl, rfl⟩
  refine ⟨fun s i hLive => ?_, fun s => (hCounters s).1, fun s => (hCounters s).2.1, fun s => (hCounters s).2.2,
    congrArg _ hPending, hEntries⟩
  change (g'.accounts s).orders i = (g.accounts s).orders i
  have hLive' : ((g.accounts s).orders i).isLive = true ∨ ((g'.accounts s).orders i).isLive = true := hLive
  rw [hAccounts] at hLive' ⊢
  rcases eq_or_ne s symbol with rfl | hne
  · rw [update_self, setOrder_orders] at hLive' ⊢
    refine update_of_ne (fun hSlot => ?_) ..
    rw [hSlot, update_self] at hLive'
    rcases hLive' with hOld | hCleared
    · exact absurd hOld (by rw [← Bool.not_eq_true] at hFree; exact hFree)
    · cases hCleared
  · rw [update_of_ne hne]

def NoLiveOrder (g : ExecutionGateway) (id : UInt64) : Prop :=
  ∀ symbol < Config.kSymbols, ∀ i < Config.kMaxActiveOrders,
    ((g.states symbol).orders i).isLive = true → ((g.states symbol).orders i).orderId ≠ id

theorem sameAccounting_refused (h : g.reconciliation.Unique) {env : GatewayEnv}
    {result : (RiskDecision × OutboundPacket) × ExecutionGateway}
    (hSubmission : Submission g env intent result) (hPass : result.1.1.pass = false)
    (hNew : g.NoLiveOrder intent.clientOrderId.toUInt64) : result.1.2.len = 0 ∧ SameAccounting g result.2 := by
  cases hSubmission with
  | refused _ len same =>
    refine ⟨len, sameAccounting_of_accounts same.accounts same.rateLimiter fun _ _ => ?_⟩
    exact holds_congr same.entries
  | unplaced _ len unplaced =>
    refine ⟨len, sameAccounting_of_accounts unplaced.accounts unplaced.rateLimiter fun x r => ?_⟩
    rw [unplaced.reconciliation]
    exact (h.registerOrder_cancel unplaced.registered).2 x r
  | rolledBack _ len back =>
    obtain ⟨reserves, found, accounts, rateLimiter, reconciliation, _⟩ := back
    obtain rfl := reserves.back_eq found (hNew _ reserves.symbol_lt)
    rw [enter_retract] at accounts
    refine ⟨len, sameAccounting_of_clear (SymbolExecState.findFree_spec reserves.free).2.1 accounts rateLimiter
      fun x r => ?_⟩
    rw [reconciliation]
    exact (h.registerOrder_cancel reserves.registered).2 x r
  | accepted pass =>
    rw [hPass] at pass
    cases pass

/-- In this state no failed operation has an effect on the accounting. -/
structure FailsCleanly (g : ExecutionGateway) : Prop where
  execution : ∀ env symbol report, (g.applyExecutionReport env symbol report).1.1 = false →
    Unchanged g (g.applyExecutionReport env symbol report).2
  cancel : ∀ env symbol orderId, (g.applyCancelReport env symbol orderId).1 = false →
    Unchanged g (g.applyCancelReport env symbol orderId).2
  replace : ∀ env symbol orderId newQty newPrice, (g.applyReplaceReport env symbol orderId newQty newPrice).1 = false →
    Unchanged g (g.applyReplaceReport env symbol orderId newQty newPrice).2
  reject : ∀ env symbol orderId, (g.applyRejectReport env symbol orderId).1 = false →
    Unchanged g (g.applyRejectReport env symbol orderId).2
  submission : ∀ env intent packet, (g.tryBuild env intent packet).1.1.pass = false →
    g.NoLiveOrder intent.clientOrderId.toUInt64 →
    (g.tryBuild env intent packet).1.2.len = 0 ∧ SameAccounting g (g.tryBuild env intent packet).2

theorem failsCleanly_of_unique (h : g.reconciliation.Unique) : g.FailsCleanly where
  execution env symbol report hFailed := by
    have hSpec := applyExecutionReport_spec g env symbol report
    generalize g.applyExecutionReport env symbol report = result at hSpec hFailed
    cases hSpec with
    | refused same | unapplied same => exact same
    | filled => cases hFailed
  cancel env symbol orderId hFailed := by
    have hSpec := applyCancelReport_spec g env symbol orderId
    generalize g.applyCancelReport env symbol orderId = result at hSpec hFailed
    cases hSpec with
    | refused same => exact same
    | cancelled => cases hFailed
  replace env symbol orderId newQty newPrice hFailed := by
    have hSpec := applyReplaceReport_spec g env symbol orderId newQty newPrice
    generalize g.applyReplaceReport env symbol orderId newQty newPrice = result at hSpec hFailed
    cases hSpec with
    | refused same => exact same
    | replaced => cases hFailed
  reject env symbol orderId hFailed := by
    have hSpec := applyRejectReport_spec g env symbol orderId
    generalize g.applyRejectReport env symbol orderId = result at hSpec hFailed
    cases hSpec with
    | refused same => exact same
    | rejected => cases hFailed
  submission env intent packet hFailed hNew := sameAccounting_refused h (tryBuild_spec g env intent packet) hFailed hNew

/-- After every run whose submissions carry no lost id, failed operations have no effect on the accounting. -/
theorem run_failsCleanly (rateLimit : Nat) (limits : Nat → ValidLimits) (breaker : CircuitBreaker)
    (recovery : Option RecoveryLedger) (calls : List GatewayCall)
    (h : Always step NoLostId calls (init rateLimit limits breaker recovery)) :
    (final step calls (init rateLimit limits breaker recovery)).FailsCleanly :=
  failsCleanly_of_unique (h.invariant (fun g => g.reconciliation.Unique) (fun _ _ => unique_step) unique_init)

/-! ## Runs of one symbol -/

def submission (side : UInt8) (id : UInt32) (qty : Int64) (audit : Bool) : GatewayCall :=
  ⟨.tryBuild { side := side, qty := qty, price := 100, clientOrderId := id } {}, { audit := audit }⟩

def fillReport (id : UInt64) (qty : Int) (terminal : Bool) : GatewayCall := ⟨.executionReport 0 ⟨id, qty, terminal⟩, {}⟩

def start : ExecutionGateway := init 100 (fun _ => .default) {} none

theorem not_lost_start (id : UInt64) : ¬ start.reconciliation.Lost id := fun ⟨⟨_, hHolds⟩, _⟩ =>
  not_holds_init hHolds

def sampleCalls : List GatewayCall :=
  [submission kBuy 185 10 true, fillReport 185 4 false, submission kBuy 185 20 true, ⟨.cancelReport 0 185, {}⟩]

theorem noLostId_sampleCalls : Always step NoLostId sampleCalls start := by
  refine ⟨not_lost_start 185, trivial, fun hLost => ?_, trivial, trivial⟩
  exact absurd hLost.2 (by decide +kernel)

theorem run_failsCleanly_sampleCalls :
    Always step NoLostId sampleCalls start ∧ (final step sampleCalls start).FailsCleanly :=
  ⟨noLostId_sampleCalls, run_failsCleanly _ _ _ _ _ noLostId_sampleCalls⟩

def doublingCalls : List GatewayCall :=
  [submission kBuy 185 10 true, submission kBuy 392 10 true, submission kBuy 585 10 true, fillReport 185 10 false,
    submission kBuy 585 20 true, fillReport 392 10 false]

/-- A submission of 1951 whose audit record fails takes the entry of 585 with it: its removal from the ledger
moves the older entry of 585 over the newer one. -/
theorem doublingCalls_not_failsCleanly : ¬ (final step doublingCalls start).FailsCleanly := by
  intro h
  obtain ⟨_, hSame⟩ := h.submission { audit := false } { qty := 10, price := 100, clientOrderId := 1951 } {}
    (by decide +kernel) (by
      intro symbol _ i _
      cases symbol with
      | zero =>
        revert i
        decide +kernel
      | succ symbol => exact fun hLive => absurd hLive Bool.false_ne_true)
  have hBefore : (final step doublingCalls start).reconciliation.Holds 585 20 :=
    ⟨by decide, 57757, by decide, by decide +kernel⟩
  obtain ⟨_, i, _, hEntry⟩ := (hSame.entries 585 20).mpr hBefore
  have hWrites : ((final step doublingCalls start).tryBuild { audit := false }
      { qty := 10, price := 100, clientOrderId := 1951 } {}).2.reconciliation.entries =
      [(57757, ⟨185, 10⟩), (57758, ⟨392, 10⟩), (57759, ⟨585, 10⟩), (57757, {}), (57757, ⟨585, 20⟩), (57758, {}),
        (57758, ⟨1951, 10⟩), (57758, {}), (57759, {}), (57757, ⟨585, 10⟩)].foldl
        (fun entries write => update entries write.1 write.2) fun _ => {} := rfl
  rw [hWrites] at hEntry
  simp only [List.foldl, update_apply] at hEntry
  split_ifs at hEntry <;> exact absurd hEntry (by decide)

end LuvFlicker.ExecutionGateway
