import LuvFlicker.Execution.Submission

/-!
# What a report does to the accounts

For every report of the venue, the cases the gateway can end in.
-/

namespace LuvFlicker.ExecutionGateway

open Exec Scan Function Config ReconciliationLedger OrderRateLimiter SymbolExecState

section Notify

variable (g : ExecutionGateway) (env : GatewayEnv) (order : ActiveOrder)

theorem accounts_notifyFill : (g.notifyFill env order).2.accounts = g.accounts := by
  unfold notifyFill
  split <;> rfl

theorem rateLimiter_notifyFill : (g.notifyFill env order).2.rateLimiter = g.rateLimiter := by
  unfold notifyFill
  split <;> rfl

theorem reconciliation_notifyFill : (g.notifyFill env order).2.reconciliation = g.reconciliation := by
  unfold notifyFill
  split <;> rfl

theorem recovery_notifyFill : (g.notifyFill env order).2.recovery = g.recovery := by
  unfold notifyFill
  split <;> rfl

end Notify

theorem unchanged_fail (g : ExecutionGateway) (symbol : Nat) : Unchanged g (g.fail symbol) :=
  ⟨accounts_fail g _, rfl, rfl⟩

theorem Unchanged.trans {g g' g'' : ExecutionGateway} (h : Unchanged g g') (h' : Unchanged g' g'') : Unchanged g g'' :=
  ⟨h'.accounts.trans h.accounts, h'.rateLimiter.trans h.rateLimiter, h'.entries.trans h.entries⟩

structure Matches (g : ExecutionGateway) (symbol : Nat) (report : ExecutionReport) (slot : Nat) : Prop where
  symbol_lt : symbol < kSymbols
  found : (g.states symbol).findOrder report.orderId = some slot
  pos : 0 < report.filledQuantity
  le : report.filledQuantity ≤ ((g.states symbol).orders slot).qty
  contains : g.reconciliation.contains report.orderId = true

variable {report : ExecutionReport} {g : ExecutionGateway}

theorem matches_of_checks {symbol slot : Nat}
    (hSymbol : ¬ symbol ≥ kSymbols) (hFound : (g.states symbol).findOrder report.orderId = some slot)
    (hChecks : ¬ (report.filledQuantity ≤ 0 ∨ report.filledQuantity > ((g.states symbol).orders slot).qty ∨
      (!g.reconciliation.contains report.orderId) = true)) : g.Matches symbol report slot := by
  simp at hChecks
  exact ⟨not_le.mp hSymbol, hFound, hChecks.1, hChecks.2.1, hChecks.2.2⟩

section

variable (g : ExecutionGateway)

def Finishes (symbol : Nat) (report : ExecutionReport) (slot : Nat) : Prop :=
  report.terminal ∨ ((g.states symbol).orders slot).qty - report.filledQuantity = 0

instance (symbol : Nat) (report : ExecutionReport) (slot : Nat) : Decidable (g.Finishes symbol report slot) :=
  inferInstanceAs (Decidable (_ ∨ _))

variable (env : GatewayEnv) (symbol : Nat)

def logFill (report : ExecutionReport) (slot : Nat) : Bool × ExecutionGateway :=
  g.appendRecovery (fillEvent ((g.states symbol).orders slot) report env.nowNs) env.io

structure Fills (g : ExecutionGateway) (env : GatewayEnv) (symbol : Nat) (report : ExecutionReport) (slot : Nat)
    (g' : ExecutionGateway) : Prop where
  matched : g.Matches symbol report slot
  applied : (g.reconciliation.apply report).1 = true
  accounts : g'.accounts = update g.accounts symbol
    (if g.Finishes symbol report slot then (g.accounts symbol).finish slot report.filledQuantity
      else (g.accounts symbol).fill slot report.filledQuantity)
  rateLimiter : g'.rateLimiter = if g.Finishes symbol report slot then g.rateLimiter.release else g.rateLimiter
  reconciliation : g'.reconciliation = (g.reconciliation.apply report).2
  log : Logged g env.io (fillEvent ((g.states symbol).orders slot) report env.nowNs) true g'

inductive Execution (g : ExecutionGateway) (env : GatewayEnv) (symbol : Nat) (report : ExecutionReport) :
    (Bool × Option FillEvent) × ExecutionGateway → Prop
  | refused {event g'} (same : Unchanged g g') (log : Unlogged g env.io g') :
      Execution g env symbol report ((false, event), g')
  | unapplied {event g' slot} (same : Unchanged g g') (matched : g.Matches symbol report slot)
      (applied : (g.reconciliation.apply report).1 = false)
      (recovery : g'.recovery = (g.logFill env symbol report slot).2.recovery) :
      Execution g env symbol report ((false, event), g')
  | filled {event g' slot} (fills : Fills g env symbol report slot g') :
      Execution g env symbol report ((true, event), g')

theorem account_fillAt {symbol : Nat} {slot : Nat} (hLe : report.filledQuantity ≤ ((g.states symbol).orders slot).qty) :
    ((g.states symbol).fillAt slot report).account =
      if g.Finishes symbol report slot then (g.accounts symbol).finish slot report.filledQuantity
        else (g.accounts symbol).fill slot report.filledQuantity := by
  split_ifs with hFinish
  · exact account_fillAt_finish _ slot _ hFinish hLe
  · exact account_fillAt_open _ slot _ hFinish

theorem applyExecutionReport_spec (report : ExecutionReport) :
    Execution g env symbol report (g.applyExecutionReport env symbol report) := by
  unfold applyExecutionReport
  split_ifs with hSymbol
  · exact .refused ⟨rfl, rfl, rfl⟩ (.inl rfl)
  cases hFound : (g.states symbol).findOrder report.orderId with
  | none => exact .refused (unchanged_fail g _) (.inl rfl)
  | some slot =>
    dsimp only
    split
    · exact .refused (unchanged_fail g _) (.inl rfl)
    rename_i hChecks
    have hMatches := matches_of_checks hSymbol hFound hChecks
    rcases hAppend : g.appendRecovery (fillEvent ((g.states symbol).orders slot) report env.nowNs) env.io with
      ⟨logged, r⟩
    obtain ⟨hSame, hStates, hLedger⟩ := appendRecovery_frame hAppend
    cases logged with
    | false => exact .refused (hSame.trans (unchanged_fail r _)) (.inr ⟨_, by rw [hAppend], by rw [hAppend]; rfl⟩)
    | true =>
      rw [if_neg (by simp), hLedger]
      rcases g.reconciliation.apply_cases report with ⟨hApply, hEntries⟩ | ⟨hApply, _⟩
      · rw [hApply]
        refine .unapplied ⟨?_, hSame.rateLimiter, hEntries⟩ hMatches hApply ?_
        · rw [accounts_fail, accounts_setReconciliation, hSame.accounts]
        · rw [logFill, hAppend]
          rfl
      rw [hApply, if_neg (by simp), setReconciliation_states, hStates]
      generalize hFilled : (r.setReconciliation (g.reconciliation.apply report).2).setState symbol
        ((g.states symbol).fillAt slot report) = f
      generalize ((g.states symbol).fillAt slot report).orders slot = order
      have hAccounts : (f.notifyFill env order).2.accounts = update g.accounts symbol
          (if g.Finishes symbol report slot then (g.accounts symbol).finish slot report.filledQuantity
            else (g.accounts symbol).fill slot report.filledQuantity) := by
        rw [accounts_notifyFill, ← hFilled, accounts_setState, accounts_setReconciliation, hSame.accounts,
          account_fillAt g hMatches.le]
      have hLimiter : (f.notifyFill env order).2.rateLimiter = g.rateLimiter := by
        rw [rateLimiter_notifyFill, ← hFilled]
        exact hSame.rateLimiter
      have hReconciliation : (f.notifyFill env order).2.reconciliation = (g.reconciliation.apply report).2 := by
        rw [reconciliation_notifyFill, ← hFilled]
        rfl
      have hLogged : Logged g env.io (fillEvent ((g.states symbol).orders slot) report env.nowNs) true
          (f.notifyFill env order).2 := by
        refine ⟨by rw [hAppend], ?_⟩
        rw [recovery_notifyFill, ← hFilled, hAppend]
        rfl
      split_ifs with hFinish
      · refine .filled ⟨hMatches, hApply, hAccounts, ?_, hReconciliation, hLogged.result, hLogged.recovery⟩
        rw [if_pos (by exact hFinish)]
        exact congrArg release hLimiter
      · refine .filled ⟨hMatches, hApply, hAccounts, ?_, hReconciliation, hLogged⟩
        rw [if_neg (by exact hFinish), hLimiter]

variable (orderId : UInt64)

structure Open (slot : Nat) : Prop where
  symbol_lt : symbol < kSymbols
  found : (g.states symbol).findOrder orderId = some slot
  not_done : ((g.states symbol).orders slot).state ≠ .done

def cancelEvent (order : ActiveOrder) (nowNs : UInt64) : RecoveryEvent :=
  orderEvent .kCancel order order.qty order.price nowNs

def logCancel (symbol slot : Nat) : Bool × ExecutionGateway :=
  g.appendRecovery (cancelEvent ((g.states symbol).orders slot) env.nowNs) env.io

structure Drops (g : ExecutionGateway) (symbol : Nat) (orderId : UInt64) (slot : Nat) (g' : ExecutionGateway) :
    Prop where
  opened : g.Open symbol orderId slot
  accounts : g'.accounts = update g.accounts symbol ((g.accounts symbol).drop slot)
  rateLimiter : g'.rateLimiter = g.rateLimiter.release
  reconciliation : g'.reconciliation = (g.reconciliation.cancel orderId).2

inductive Cancellation (g : ExecutionGateway) (env : GatewayEnv) (symbol : Nat) (orderId : UInt64) :
    Bool × ExecutionGateway → Prop
  | refused {g'} (same : Unchanged g g') (log : Unlogged g env.io g') : Cancellation g env symbol orderId (false, g')
  | cancelled {g' slot} (drops : Drops g symbol orderId slot g')
      (log : Logged g env.io (cancelEvent ((g.states symbol).orders slot) env.nowNs) true g') :
      Cancellation g env symbol orderId (true, g')

theorem applyCancelReport_spec : Cancellation g env symbol orderId (g.applyCancelReport env symbol orderId) := by
  unfold applyCancelReport
  split
  · exact .refused ⟨rfl, rfl, rfl⟩ (.inl rfl)
  rename_i hSymbol
  cases hFound : (g.states symbol).findOrder orderId with
  | none => exact .refused (unchanged_fail g _) (.inl rfl)
  | some slot =>
    dsimp only
    split
    · exact .refused ⟨rfl, rfl, rfl⟩ (.inl rfl)
    rename_i hDone
    cases hContains : g.reconciliation.contains orderId with
    | false => exact .refused (unchanged_fail g _) (.inl rfl)
    | true =>
      rw [← cancelEvent]
      rcases hAppend : g.appendRecovery (cancelEvent ((g.states symbol).orders slot) env.nowNs) env.io with ⟨logged, r⟩
      obtain ⟨hSame, hStates, hLedger⟩ := appendRecovery_frame hAppend
      cases logged with
      | false => exact .refused (hSame.trans (unchanged_fail r _)) (.inr ⟨_, by rw [hAppend], by rw [hAppend]; rfl⟩)
      | true =>
        obtain ⟨_, _, hFind⟩ := contains_iff.mp hContains
        obtain ⟨_, _, hCancel⟩ := cancel_of_some hFind
        have hCancelled : (g.reconciliation.cancel orderId).1 = true := by rw [hCancel]
        rw [hLedger, hCancelled, setReconciliation_states, hStates]
        refine .cancelled ⟨⟨not_le.mp hSymbol, hFound, hDone⟩, ?_, congrArg release hSame.rateLimiter, rfl⟩
          ⟨by rw [hAppend], by rw [hAppend]; rfl⟩
        rw [accounts_releasePending, accounts_setState, accounts_setReconciliation, hSame.accounts]
        rfl

structure Amends (newQty newPrice : Int64) (slot : Nat) : Prop where
  symbol_lt : symbol < kSymbols
  found : (g.states symbol).findLive orderId = some slot
  contains : g.reconciliation.contains orderId = true
  qty_pos : 0 < newQty.toInt
  price_pos : 0 < newPrice.toInt

def logReplace (symbol slot : Nat) (newQty newPrice : Int64) : Bool × ExecutionGateway :=
  g.appendRecovery (orderEvent .kReplace ((g.states symbol).orders slot) newQty.toInt newPrice.toInt env.nowNs) env.io

structure Replaced (g : ExecutionGateway) (env : GatewayEnv) (symbol : Nat) (orderId : UInt64)
    (newQty newPrice : Int64) (slot : Nat) (g' : ExecutionGateway) : Prop where
  amends : g.Amends symbol orderId newQty newPrice slot
  accounts : g'.accounts = update g.accounts symbol ((g.accounts symbol).amend slot newQty.toInt newPrice.toInt)
  rateLimiter : g'.rateLimiter = g.rateLimiter
  reconciliation : g'.reconciliation = (g.reconciliation.replace orderId newQty.toInt).2
  log : Logged g env.io
    (orderEvent .kReplace ((g.states symbol).orders slot) newQty.toInt newPrice.toInt env.nowNs) true g'

inductive Replacement (g : ExecutionGateway) (env : GatewayEnv) (symbol : Nat) (orderId : UInt64)
    (newQty newPrice : Int64) : Bool × ExecutionGateway → Prop
  | refused {g'} (same : Unchanged g g') (log : Unlogged g env.io g') :
      Replacement g env symbol orderId newQty newPrice (false, g')
  | replaced {g' slot} (replaced : Replaced g env symbol orderId newQty newPrice slot g') :
      Replacement g env symbol orderId newQty newPrice (true, g')

theorem applyReplaceReport_spec (newQty newPrice : Int64) :
    Replacement g env symbol orderId newQty newPrice (g.applyReplaceReport env symbol orderId newQty newPrice) := by
  unfold applyReplaceReport
  split
  · exact .refused ⟨rfl, rfl, rfl⟩ (.inl rfl)
  rename_i hSymbol
  cases hFound : (g.states symbol).findLive orderId with
  | none => exact .refused (unchanged_fail g _) (.inl rfl)
  | some slot =>
    dsimp only
    split
    · exact .refused (unchanged_fail g _) (.inl rfl)
    rename_i hChecks
    simp only [not_or, Bool.not_eq_true', Bool.not_eq_false, Int64.le_iff_toInt_le, not_le] at hChecks
    obtain ⟨hContains, hQty, hPrice⟩ := hChecks
    generalize hEvent : orderEvent .kReplace _ _ _ _ = event
    rcases hAppend : g.appendRecovery event env.io with ⟨logged, r⟩
    obtain ⟨hSame, hStates, hLedger⟩ := appendRecovery_frame hAppend
    cases logged with
    | false => exact .refused (hSame.trans (unchanged_fail r _)) (.inr ⟨event, by rw [hAppend], by rw [hAppend]; rfl⟩)
    | true =>
      obtain ⟨hId, _, hFind⟩ := contains_iff.mp hContains
      have hReplaced : (g.reconciliation.replace orderId newQty.toInt).1 = true := by
        rw [replace_of_some hId hQty hFind]
      rw [hLedger, hReplaced, setReconciliation_states, hStates]
      refine .replaced ⟨⟨not_le.mp hSymbol, hFound, hContains, hQty, hPrice⟩, ?_, hSame.rateLimiter, rfl, ?_⟩
      · rw [accounts_setState, accounts_setReconciliation, hSame.accounts]
        rfl
      · rw [hEvent]
        exact ⟨by rw [hAppend], by rw [hAppend]; rfl⟩

end

theorem applyReplaceReport_of_amends {env : GatewayEnv} {symbol : Nat} {orderId : UInt64}
    {newQty newPrice : Int64} {slot : Nat} (h : g.Amends symbol orderId newQty newPrice slot)
    (hLogged : (g.logReplace env symbol slot newQty newPrice).1 = true) :
    (g.applyReplaceReport env symbol orderId newQty newPrice).1 = true := by
  have hChecks : ¬ ((!g.reconciliation.contains orderId) = true ∨ newQty ≤ 0 ∨ newPrice ≤ 0) := by
    rw [not_or, not_or, Int64.le_iff_toInt_le, Int64.le_iff_toInt_le, h.contains]
    exact ⟨Bool.false_ne_true, not_le.mpr h.qty_pos, not_le.mpr h.price_pos⟩
  obtain ⟨hId, _, hFind⟩ := contains_iff.mp h.contains
  have hReplaced : (g.reconciliation.replace orderId newQty.toInt).1 = true := by
    rw [replace_of_some hId h.qty_pos hFind]
  unfold logReplace at hLogged
  unfold applyReplaceReport
  rw [if_neg (not_le.mpr h.symbol_lt), h.found]
  dsimp only
  rw [if_neg hChecks, hLogged, if_neg (by simp), reconciliation_appendRecovery, hReplaced, if_neg (by simp)]

theorem noteRejection_spec (g : ExecutionGateway) (env : GatewayEnv) (symbol : Nat) :
    Unchanged g (g.noteRejection env symbol) ∧ (g.noteRejection env symbol).recovery = g.recovery ∧
      (g.noteRejection env symbol).reconciliation = g.reconciliation := by
  unfold noteRejection
  dsimp only
  split_ifs
  all_goals exact ⟨⟨by simp, rfl, rfl⟩, rfl, rfl⟩

inductive Rejection (g : ExecutionGateway) (symbol : Nat) (orderId : UInt64) : Bool × ExecutionGateway → Prop
  | refused {g'} (same : Unchanged g g') (recovery : g'.recovery = g.recovery) : Rejection g symbol orderId (false, g')
  | rejected {g' slot} (drops : Drops g symbol orderId slot g') : Rejection g symbol orderId (true, g')

theorem applyRejectReport_spec (g : ExecutionGateway) (env : GatewayEnv) (symbol : Nat) (orderId : UInt64) :
    Rejection g symbol orderId (g.applyRejectReport env symbol orderId) := by
  unfold applyRejectReport
  split_ifs with hSymbol
  · exact .refused ⟨rfl, rfl, rfl⟩ rfl
  obtain ⟨hSame, hLog, hLedger⟩ := noteRejection_spec g env _
  cases hFound : (g.states symbol).findOrder orderId with
  | none => exact .refused hSame hLog
  | some slot =>
    dsimp only
    split_ifs with hDone
    · exact .refused ⟨rfl, rfl, rfl⟩ rfl
    rw [hLedger]
    refine .rejected ⟨⟨not_le.mp hSymbol, hFound, hDone⟩, ?_, congrArg release hSame.rateLimiter, rfl⟩
    rw [accounts_releasePending, accounts_setState, accounts_setReconciliation, hSame.accounts]
    refine congrArg _ ?_
    exact congrArg (fun a => Account.drop a slot) (congrFun hSame.accounts symbol)

end LuvFlicker.ExecutionGateway
