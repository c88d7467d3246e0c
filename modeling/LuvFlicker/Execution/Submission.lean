import LuvFlicker.Execution.Account

/-!
# What a submission does to the accounts

The cases `try_build` can end in: what it leaves of the accounts, the
reconciliation ledger, the pending count and the write-ahead log, and what was
checked on the way there.
-/

namespace LuvFlicker.ExecutionGateway

open Exec Scan Function Config OrderRateLimiter ReconciliationLedger SymbolExecState

def accounts (g : ExecutionGateway) : Nat → Account := fun symbol => (g.states symbol).account

section Projections

variable (g : ExecutionGateway)

section

variable (symbol : Nat)

theorem accounts_orders : (g.accounts symbol).orders = (g.states symbol).orders := rfl

@[simp]
theorem accounts_setState (st : SymbolExecState) :
    (g.setState symbol st).accounts = update g.accounts symbol st.account :=
  Function.comp_update _ _ _ st

@[simp]
theorem accounts_countReject : (g.countReject symbol).accounts = g.accounts := by
  rw [countReject, accounts_setState]
  exact update_eq_self ..

@[simp]
theorem accounts_setHalted (halted : Bool) : (g.setHalted symbol halted).accounts = g.accounts := by
  rw [setHalted, accounts_setState]
  exact update_eq_self ..

end

@[simp]
theorem accounts_setBreaker (breaker : CircuitBreaker) : (g.setBreaker breaker).accounts = g.accounts := rfl

@[simp]
theorem accounts_setRateLimiter (r : OrderRateLimiter) : (g.setRateLimiter r).accounts = g.accounts := rfl

@[simp]
theorem accounts_setReconciliation (l : ReconciliationLedger kReconciliationBits) :
    (g.setReconciliation l).accounts = g.accounts := rfl

@[simp]
theorem accounts_recordFailure (t : UInt64) : (g.recordFailure t).accounts = g.accounts := rfl

@[simp]
theorem accounts_trip : g.trip.accounts = g.accounts := rfl

@[simp]
theorem accounts_releasePending : g.releasePending.accounts = g.accounts := rfl

@[simp]
theorem accounts_fail (symbol : Nat) : (g.fail symbol).accounts = g.accounts := by simp [fail]

variable (event : RecoveryEvent) (io : AppendIo)

theorem states_appendRecovery : (g.appendRecovery event io).2.states = g.states := by
  unfold appendRecovery
  split <;> rfl

theorem reconciliation_appendRecovery : (g.appendRecovery event io).2.reconciliation = g.reconciliation := by
  unfold appendRecovery
  split <;> rfl

theorem rateLimiter_appendRecovery : (g.appendRecovery event io).2.rateLimiter = g.rateLimiter := by
  unfold appendRecovery
  split <;> rfl

end Projections

structure Unchanged (g g' : ExecutionGateway) : Prop where
  accounts : g'.accounts = g.accounts
  rateLimiter : g'.rateLimiter = g.rateLimiter
  entries : g'.reconciliation.entries = g.reconciliation.entries

structure Logged (g : ExecutionGateway) (io : AppendIo) (event : RecoveryEvent) (ok : Bool) (g' : ExecutionGateway) :
    Prop where
  result : (g.appendRecovery event io).1 = ok
  recovery : g'.recovery = (g.appendRecovery event io).2.recovery

def Unlogged (g : ExecutionGateway) (io : AppendIo) (g' : ExecutionGateway) : Prop :=
  g'.recovery = g.recovery ∨ ∃ event, Logged g io event false g'

variable {g : ExecutionGateway} {slot back : Nat} {r : ExecutionGateway}

theorem appendRecovery_frame {event : RecoveryEvent} {io : AppendIo} {logged : Bool}
    (h : g.appendRecovery event io = (logged, r)) :
    Unchanged g r ∧ r.states = g.states ∧ r.reconciliation = g.reconciliation := by
  have hStates := states_appendRecovery g event io
  have hLedger := reconciliation_appendRecovery g event io
  have hLimiter := rateLimiter_appendRecovery g event io
  rw [h] at hStates hLedger hLimiter
  refine ⟨⟨?_, hLimiter, congrArg _ hLedger⟩, hStates, hLedger⟩
  unfold accounts
  rw [hStates]

section

variable (g : ExecutionGateway) (intent : OrderIntent)

structure Reserves (slot : Nat) : Prop where
  symbol_lt : intent.symbolIdx < kSymbols
  passed : (g.evaluate intent).pass = true
  registered : (g.reconciliation.registerOrder intent.clientOrderId.toUInt64 intent.qty.toInt).1 = true
  free : (g.states intent.symbolIdx).findFree = some slot

def registered : ReconciliationLedger kReconciliationBits :=
  (g.reconciliation.registerOrder intent.clientOrderId.toUInt64 intent.qty.toInt).2

def withdrawn : ReconciliationLedger kReconciliationBits :=
  ((g.registered intent).cancel intent.clientOrderId.toUInt64).2

end

structure Unplaced (g : ExecutionGateway) (intent : OrderIntent) (g' : ExecutionGateway) : Prop where
  accounts : g'.accounts = g.accounts
  rateLimiter : g'.rateLimiter = g.rateLimiter
  registered : (g.reconciliation.registerOrder intent.clientOrderId.toUInt64 intent.qty.toInt).1 = true
  reconciliation : g'.reconciliation = g.withdrawn intent
  recovery : g'.recovery = g.recovery

structure RolledBack (g : ExecutionGateway) (env : GatewayEnv) (intent : OrderIntent) (slot back : Nat)
    (g' : ExecutionGateway) : Prop where
  reserves : g.Reserves intent slot
  found : firstIndex (fun i => decide ((((g.accounts intent.symbolIdx).enter slot intent).orders i).orderId =
    intent.clientOrderId.toUInt64)) kMaxActiveOrders = some back
  accounts : g'.accounts = update g.accounts intent.symbolIdx
    (((g.accounts intent.symbolIdx).enter slot intent).retract back intent)
  rateLimiter : g'.rateLimiter = g.rateLimiter
  reconciliation : g'.reconciliation = g.withdrawn intent
  cause : env.audit = false ∧ g'.recovery = g.recovery ∨ Logged g env.io (addEvent intent) false g'

structure Admits (g : ExecutionGateway) (env : GatewayEnv) (intent : OrderIntent) (slot : Nat)
    (g' : ExecutionGateway) : Prop where
  reserves : g.Reserves intent slot
  accounts : g'.accounts = update g.accounts intent.symbolIdx ((g.accounts intent.symbolIdx).enter slot intent)
  rateLimiter : g'.rateLimiter = { g.rateLimiter with pending := g.rateLimiter.pending + 1 }
  reconciliation : g'.reconciliation = g.registered intent
  log : Logged g env.io (addEvent intent) true g'

inductive Submission (g : ExecutionGateway) (env : GatewayEnv) (intent : OrderIntent) :
    (RiskDecision × OutboundPacket) × ExecutionGateway → Prop
  | refused {d p g'} (pass : d.pass = false) (len : p.len = 0) (same : Unchanged g g')
      (recovery : g'.recovery = g.recovery) : Submission g env intent ((d, p), g')
  | unplaced {d p g'} (pass : d.pass = false) (len : p.len = 0) (unplaced : Unplaced g intent g') :
      Submission g env intent ((d, p), g')
  | rolledBack {d p g' slot back} (pass : d.pass = false) (len : p.len = 0)
      (back : RolledBack g env intent slot back g') : Submission g env intent ((d, p), g')
  | accepted {d p g' slot} (pass : d.pass = true) (admits : Admits g env intent slot g') :
      Submission g env intent ((d, p), g')

theorem rateLimiter_release_tryAcquire {r : OrderRateLimiter} (h : r.tryAcquire.1 = true) :
    r.tryAcquire.2.release = r := by
  rw [tryAcquire_eq_true h]
  simp [release]

theorem firstIndex_enter {a : Account} {intent : OrderIntent} (hSlot : slot < kMaxActiveOrders) :
    ∃ back, firstIndex (fun i => decide (((a.enter slot intent).orders i).orderId = intent.clientOrderId.toUInt64))
      kMaxActiveOrders = some back := by
  refine Option.isSome_iff_exists.mp ((firstIndex_isSome_iff _).mpr ⟨slot, hSlot, ?_⟩)
  simp [OrderIntent.order]

variable {intent : OrderIntent}

section

variable (h : g.Reserves intent slot) (hFound : firstIndex (fun i => decide ((((g.accounts intent.symbolIdx).enter
    slot intent).orders i).orderId = intent.clientOrderId.toUInt64)) kMaxActiveOrders = some back)
include h hFound

theorem Reserves.back_cases :
    back = slot ∨ back < kMaxActiveOrders ∧ ((g.states intent.symbolIdx).orders back).isLive = true ∧
      ((g.states intent.symbolIdx).orders back).orderId = intent.clientOrderId.toUInt64 := by
  obtain ⟨_, _, hBefore⟩ := findFree_spec h.free
  obtain ⟨hBack, hId, hFirst⟩ := (firstIndex_eq_some_iff _ _ _).mp hFound
  rcases lt_trichotomy back slot with hLt | hEq | hGt
  · simp only [Account.enter, update_of_ne (ne_of_lt hLt), decide_eq_true_eq] at hId
    exact .inr ⟨hBack, hBefore back hLt, hId⟩
  · exact .inl hEq
  · have hOther := hFirst slot hGt
    simp [OrderIntent.order] at hOther

theorem Reserves.back_eq (hNone : ∀ i < kMaxActiveOrders, ((g.states intent.symbolIdx).orders i).isLive = true →
      ((g.states intent.symbolIdx).orders i).orderId ≠ intent.clientOrderId.toUInt64) : back = slot := by
  rcases h.back_cases hFound with hEq | ⟨hBack, hLive, hId⟩
  · exact hEq
  · exact absurd hId (hNone back hBack hLive)

end

theorem rollback_spec (g : ExecutionGateway)
    (hFound : firstIndex (fun i => decide (((g.states intent.symbolIdx).orders i).orderId =
      intent.clientOrderId.toUInt64)) kMaxActiveOrders = some back) :
    (g.rollback intent).accounts = update g.accounts intent.symbolIdx
      ((g.accounts intent.symbolIdx).retract back intent) ∧
    (g.rollback intent).rateLimiter = g.rateLimiter.release ∧
    (g.rollback intent).reconciliation = (g.reconciliation.cancel intent.clientOrderId.toUInt64).2 ∧
    (g.rollback intent).recovery = g.recovery := by
  have hRelease : (g.setReconciliation (g.reconciliation.cancel intent.clientOrderId.toUInt64).2).releaseOrderSlot
      intent = (g.setReconciliation (g.reconciliation.cancel intent.clientOrderId.toUInt64).2).setState
        intent.symbolIdx ((g.states intent.symbolIdx).releaseAt back intent) := by
    simp [releaseOrderSlot, hFound]
  refine ⟨?_, ?_, ?_, ?_⟩
  · simp only [rollback, hRelease, accounts_recordFailure, accounts_countReject, accounts_releasePending,
      accounts_setState]
    rfl
  all_goals
    rw [rollback, hRelease]
    rfl

theorem appendRecovery_congr {g' : ExecutionGateway} (h : g'.recovery = g.recovery) (event : RecoveryEvent)
    (io : AppendIo) :
    (g'.appendRecovery event io).1 = (g.appendRecovery event io).1 ∧
      (g'.appendRecovery event io).2.recovery = (g.appendRecovery event io).2.recovery := by
  unfold appendRecovery
  rw [h]
  cases hRecovery : g.recovery with
  | none => exact ⟨rfl, h⟩
  | some ledger => exact ⟨rfl, rfl⟩

theorem rollback_reserved
    (hBack : firstIndex (fun i => decide ((((g.accounts intent.symbolIdx).enter slot intent).orders i).orderId =
      intent.clientOrderId.toUInt64)) kMaxActiveOrders = some back)
    (hAccounts : r.accounts = update g.accounts intent.symbolIdx ((g.accounts intent.symbolIdx).enter slot intent)) :
    (r.rollback intent).accounts = update g.accounts intent.symbolIdx
      (((g.accounts intent.symbolIdx).enter slot intent).retract back intent) ∧
    (r.rollback intent).rateLimiter = r.rateLimiter.release ∧
    (r.rollback intent).reconciliation = (r.reconciliation.cancel intent.clientOrderId.toUInt64).2 ∧
    (r.rollback intent).recovery = r.recovery := by
  have hOrders : (r.states intent.symbolIdx).orders = ((g.accounts intent.symbolIdx).enter slot intent).orders := by
    have hAt := congrArg Account.orders (congrFun hAccounts intent.symbolIdx)
    rw [update_self] at hAt
    exact hAt
  obtain ⟨hBooks, hRest⟩ := rollback_spec r (by rw [hOrders]; exact hBack)
  refine ⟨?_, hRest⟩
  rw [hBooks, hAccounts, update_self, update_idem]

variable (g : ExecutionGateway) (env : GatewayEnv) (intent : OrderIntent)

theorem submit_spec (breaker : CircuitBreaker)
    {rateLimiter : OrderRateLimiter} {decision : RiskDecision} (packet : OutboundPacket)
    (hAcquired : rateLimiter = { g.rateLimiter with pending := g.rateLimiter.pending + 1 })
    (hRelease : rateLimiter.release = g.rateLimiter) (hSymbol : intent.symbolIdx < kSymbols)
    (hPass : (g.evaluate intent).pass = true) (hCount : (g.states intent.symbolIdx).risk.orderCount < kMaxActiveOrders)
    (hDecision : decision.pass = true) :
    Submission g env intent (((g.setBreaker breaker).setRateLimiter rateLimiter).submit env intent decision packet) := by
  unfold submit
  simp only [setRateLimiter_reconciliation, setBreaker_reconciliation]
  rcases hRegister : g.reconciliation.registerOrder intent.clientOrderId.toUInt64 intent.qty.toInt with
    ⟨registered, ledger⟩
  have hLedger : g.registered intent = ledger := congrArg _ hRegister
  cases registered with
  | false =>
    have hSame := registerOrder_of_false (congrArg _ hRegister)
    rw [hRegister] at hSame
    refine .refused rfl rfl ⟨by simp, hRelease, ?_⟩ rfl
    exact congrArg _ hSame
  | true =>
    simp only [reserveOrderSlot, setReconciliation_states,
      setRateLimiter_states, setBreaker_states, if_neg (not_le.mpr hCount)]
    cases hFree : (g.states intent.symbolIdx).findFree with
    | none =>
      refine .unplaced rfl rfl ⟨by simp, hRelease, congrArg _ hRegister, ?_, rfl⟩
      rw [withdrawn, hLedger]
      rfl
    | some slot =>
      have hReserves : g.Reserves intent slot := ⟨hSymbol, hPass, congrArg _ hRegister, hFree⟩
      obtain ⟨_, hBack⟩ := firstIndex_enter (findFree_spec hFree).1
      simp only [Bool.not_true]
      generalize hReserved : (((g.setBreaker breaker).setRateLimiter rateLimiter).setReconciliation ledger).setState
        intent.symbolIdx ((g.states intent.symbolIdx).reserveAt slot intent) = r
      have hAccounts : r.accounts = update g.accounts intent.symbolIdx
          ((g.accounts intent.symbolIdx).enter slot intent) := by
        rw [← hReserved]
        simp [accounts]
      have hLimiter : r.rateLimiter = rateLimiter := hReserved ▸ rfl
      have hReconciliation : r.reconciliation = ledger := hReserved ▸ rfl
      have hRecovery : r.recovery = g.recovery := hReserved ▸ rfl
      obtain ⟨hLogged, hLog⟩ := appendRecovery_congr hRecovery (addEvent _) _
      cases hAudit : env.audit with
      | false =>
        obtain ⟨hBooks, hPending, hCancel, hSameLog⟩ := rollback_reserved hBack hAccounts
        refine .rolledBack rfl rfl ⟨hReserves, hBack, hBooks, ?_, ?_, .inl ⟨hAudit, hSameLog.trans hRecovery⟩⟩
        · rw [hPending, hLimiter, hRelease]
        · rw [hCancel, hReconciliation, withdrawn, hLedger]
      | true =>
        rcases hAppend : r.appendRecovery (addEvent intent) env.io with ⟨logged, _⟩
        obtain ⟨hSame, _, hLedgerLog⟩ := appendRecovery_frame hAppend
        rw [hAppend] at hLogged hLog
        cases logged with
        | false =>
          obtain ⟨hBooks, hPending, hCancel, hSameLog⟩ := rollback_reserved hBack (hSame.accounts.trans hAccounts)
          refine .rolledBack rfl rfl ⟨hReserves, hBack, hBooks, ?_, ?_, .inr ⟨hLogged.symm, hSameLog.trans hLog⟩⟩
          · rw [hPending, hSame.rateLimiter, hLimiter, hRelease]
          · rw [hCancel, hLedgerLog, hReconciliation, withdrawn, hLedger]
        | true =>
          refine .accepted hDecision ⟨hReserves, hSame.accounts.trans hAccounts, ?_, ?_, hLogged.symm, hLog⟩
          · exact hSame.rateLimiter.trans (hLimiter.trans hAcquired)
          · exact hLedgerLog.trans (hReconciliation.trans hLedger.symm)

theorem tryBuild_spec (packet : OutboundPacket) : Submission g env intent (g.tryBuild env intent packet) := by
  unfold tryBuild
  by_cases hSymbol : intent.symbolIdx ≥ kSymbols
  · rw [if_pos hSymbol]
    exact .refused rfl rfl ⟨rfl, rfl, rfl⟩ rfl
  rw [if_neg hSymbol]
  rcases hAllow : g.breaker.allow intent.nowNs with ⟨allowed, breaker⟩
  cases allowed with
  | false => exact .refused rfl rfl ⟨by simp, rfl, rfl⟩ rfl
  | true =>
    simp only [Bool.not_true]
    rcases hAcquire : (g.setBreaker breaker).rateLimiter.tryAcquire with ⟨acquired, rateLimiter⟩
    cases acquired with
    | false =>
      have hLimiter : rateLimiter = g.rateLimiter := by
        have hSame := tryAcquire_eq_false (congrArg _ hAcquire)
        rw [hAcquire] at hSame
        exact hSame
      exact .refused rfl rfl ⟨by simp, hLimiter, rfl⟩ rfl
    | true =>
      have hRelease : rateLimiter.release = g.rateLimiter := by
        have hSame := rateLimiter_release_tryAcquire (congrArg _ hAcquire)
        rw [hAcquire] at hSame
        exact hSame
      simp only [Bool.not_true, Bool.false_eq_true, if_false]
      cases hPass : (((g.setBreaker breaker).setRateLimiter rateLimiter).evaluate intent).pass with
      | false => exact .refused (by simp) rfl ⟨by simp, hRelease, rfl⟩ rfl
      | true =>
        rw [if_neg (by simp)]
        by_cases hCount : (g.states intent.symbolIdx).risk.orderCount < kMaxActiveOrders
        · have hAcquired : rateLimiter = { g.rateLimiter with pending := g.rateLimiter.pending + 1 } := by
            have hSame := tryAcquire_eq_true (congrArg _ hAcquire)
            rw [hAcquire] at hSame
            exact hSame
          rw [if_neg (by simpa using hCount)]
          cases hBuild : Ouch.buildEnterOrder intent { packet with len := 0 } with
          | none => exact .refused rfl rfl ⟨by simp, hRelease, rfl⟩ rfl
          | some built =>
            refine submit_spec g env intent breaker _ hAcquired hRelease (not_le.mp hSymbol) hPass hCount ?_
            simpa using hCount
        · rw [if_pos (by simpa using hCount)]
          exact .refused (by simpa using hCount) rfl ⟨by simp, hRelease, rfl⟩ rfl

end LuvFlicker.ExecutionGateway
