import LuvFlicker.Execution.FailedOperations

/-!
# Sound states

In a sound state every live order has its id and its open quantity in the
reconciliation ledger, and no two live orders share an id.
-/

namespace LuvFlicker.ExecutionGateway

open Exec Scan Run Function Config ReconciliationLedger SymbolExecState

def NoTerminalFill (call : GatewayCall) (g : ExecutionGateway) : Prop :=
  match call.op with
  | .executionReport symbol report => ∀ slot, g.Matches symbol report slot →
      ((g.states symbol).orders slot).state ≠ .done
  | _ => True

structure Sound (g : ExecutionGateway) : Prop where
  unique : g.reconciliation.Unique
  blank : ∀ symbol i, ((g.accounts symbol).orders i).state = .pending → ((g.accounts symbol).orders i).orderId = 0
  holds : ∀ symbol i, ((g.accounts symbol).orders i).isLive = true →
    g.reconciliation.Holds ((g.accounts symbol).orders i).orderId ((g.accounts symbol).orders i).qty
  qty_pos : ∀ symbol i, ((g.accounts symbol).orders i).isLive = true → 0 < ((g.accounts symbol).orders i).qty
  distinct : ∀ symbol i symbol' i', ((g.accounts symbol).orders i).isLive = true →
    ((g.accounts symbol').orders i').isLive = true →
    ((g.accounts symbol).orders i).orderId = ((g.accounts symbol').orders i').orderId → symbol = symbol' ∧ i = i'

theorem sound_init (rateLimit : Nat) (limits : Nat → ValidLimits) (breaker : CircuitBreaker)
    (recovery : Option RecoveryLedger) : (init rateLimit limits breaker recovery).Sound where
  unique := unique_init
  blank _ _ _ := rfl
  holds _ _ hLive := absurd hLive Bool.false_ne_true
  qty_pos _ _ hLive := absurd hLive Bool.false_ne_true
  distinct _ _ _ _ hLive := absurd hLive Bool.false_ne_true

inductive Move (call : GatewayCall) (g : ExecutionGateway) : GatewayReply × ExecutionGateway → Prop
  | idle {reply g'} (quiet : Quiet call reply) (accounts : g'.accounts = g.accounts)
      (rateLimiter : g'.rateLimiter = g.rateLimiter)
      (holds : ∀ x r, g'.reconciliation.Holds x r ↔ g.reconciliation.Holds x r)
      (log : Unlogged g call.env.io g') : Move call g (reply, g')
  | cleared {reply g' symbol slot} (quiet : Quiet call reply) (symbol_lt : symbol < kSymbols)
      (free : ((g.accounts symbol).orders slot).isLive = false)
      (accounts : g'.accounts = update g.accounts symbol ((g.accounts symbol).setOrder slot {}))
      (rateLimiter : g'.rateLimiter = g.rateLimiter)
      (holds : ∀ x r, g'.reconciliation.Holds x r ↔ g.reconciliation.Holds x r)
      (log : Unlogged g call.env.io g') : Move call g (reply, g')
  | admitted {reply g' intent packet slot} (op : call.op = .tryBuild intent packet)
      (accepted : reply.acceptedId call = some intent.clientOrderId.toUInt64) (filled : reply.appliedFill call = none)
      (admits : Admits g call.env intent slot g') (fresh : ¬ g.reconciliation.Stores intent.clientOrderId.toUInt64)
      (holds : ∀ x r, g'.reconciliation.Holds x r ↔
        x = intent.clientOrderId.toUInt64 ∧ r = intent.qty.toInt ∨ g.reconciliation.Holds x r) : Move call g (reply, g')
  | filled {reply g' symbol report slot} (op : call.op = .executionReport symbol report)
      (accepted : reply.acceptedId call = none) (filled : reply.appliedFill call = some (symbol, report))
      (fills : Fills g call.env symbol report slot g') (live : ((g.accounts symbol).orders slot).isLive = true)
      (holds : ∀ x r, g'.reconciliation.Holds x r ↔ (¬ g.Finishes symbol report slot ∧ x = report.orderId ∧
          r = ((g.accounts symbol).orders slot).qty - report.filledQuantity) ∨
        x ≠ report.orderId ∧ g.reconciliation.Holds x r) : Move call g (reply, g')
  | dropped {reply g' symbol orderId slot} (quiet : Quiet call reply) (drops : Drops g symbol orderId slot g')
      (sub : ∀ x r, g'.reconciliation.Holds x r → g.reconciliation.Holds x r)
      (holds : ∀ x r, x ≠ orderId → (g'.reconciliation.Holds x r ↔ g.reconciliation.Holds x r))
      (log : call.op = .rejectReport symbol orderId ∨
        Logged g call.env.io (cancelEvent ((g.accounts symbol).orders slot) call.env.nowNs) true g') :
      Move call g (reply, g')
  | amended {reply g' symbol orderId newQty newPrice slot}
      (op : call.op = .replaceReport symbol orderId newQty newPrice) (quiet : Quiet call reply)
      (replaced : Replaced g call.env symbol orderId newQty newPrice slot g')
      (holds : ∀ x r, g'.reconciliation.Holds x r ↔
        x = orderId ∧ r = newQty.toInt ∨ x ≠ orderId ∧ g.reconciliation.Holds x r) : Move call g (reply, g')

section Lookup

variable {g : ExecutionGateway} {symbol slot : Nat} {report : ExecutionReport}

theorem Matches.order (h : g.Matches symbol report slot) :
    slot < kMaxActiveOrders ∧ ((g.accounts symbol).orders slot).orderId = report.orderId ∧
      ((g.accounts symbol).orders slot).state ≠ .pending :=
  findOrder_spec h.found

variable {orderId : UInt64}

theorem Open.order (h : g.Open symbol orderId slot) :
    slot < kMaxActiveOrders ∧ ((g.accounts symbol).orders slot).orderId = orderId ∧
      ((g.accounts symbol).orders slot).isLive = true := by
  obtain ⟨hSlot, hId, hPending⟩ := findOrder_spec h.found
  exact ⟨hSlot, hId, ActiveOrder.isLive_of_ne hPending h.not_done⟩

theorem Amends.order {newQty newPrice : Int64} (h : g.Amends symbol orderId newQty newPrice slot) :
    slot < kMaxActiveOrders ∧ ((g.accounts symbol).orders slot).orderId = orderId ∧
      ((g.accounts symbol).orders slot).isLive = true :=
  findLive_spec h.found

theorem NoTerminalFill.live {call : GatewayCall} (h : NoTerminalFill call g)
    (hOp : call.op = .executionReport symbol report) (hMatches : g.Matches symbol report slot) :
    ((g.accounts symbol).orders slot).isLive = true := by
  rw [NoTerminalFill, hOp] at h
  exact ActiveOrder.isLive_of_ne hMatches.order.2.2 (h slot hMatches)

end Lookup

namespace Sound

variable {call : GatewayCall} {g : ExecutionGateway} {symbol slot : Nat} (h : g.Sound)

include h

theorem applied (hMatches : g.Matches symbol report slot)
    (hLive : ((g.accounts symbol).orders slot).isLive = true) : (g.reconciliation.apply report).1 = true := by
  obtain ⟨_, hId, _⟩ := hMatches.order
  obtain ⟨hne, cell, hFind⟩ := contains_iff.mp hMatches.contains
  have hHolds := h.holds _ slot hLive
  rw [hId] at hHolds
  have hRemaining := h.unique.holds_inj (holds_of_find hne hFind) hHolds
  have hFits : g.reconciliation.Fits report cell := ⟨hne, hFind, hMatches.pos, by rw [hRemaining]; exact hMatches.le⟩
  rw [apply_of_fits hFits]
  split_ifs <;> rfl

theorem id_ne_of_not_stores {id : UInt64} (hId : ¬ g.reconciliation.Stores id) {i : Nat}
    (hLive : ((g.accounts symbol).orders i).isLive = true) : ((g.accounts symbol).orders i).orderId ≠ id := by
  rintro rfl
  exact hId ⟨_, h.holds _ i hLive⟩

theorem dropped {orderId : UInt64} {g' : ExecutionGateway} (hDrops : Drops g symbol orderId slot g') :
    (∀ x r, g'.reconciliation.Holds x r → g.reconciliation.Holds x r) ∧
      ∀ x r, x ≠ orderId → (g'.reconciliation.Holds x r ↔ g.reconciliation.Holds x r) := by
  rw [hDrops.reconciliation]
  exact (h.unique.cancel_any _).2

theorem move (hLost : NoLostId call g) (hTerminal : NoTerminalFill call g) : Move call g (step call g) := by
  have hEffect := step_effect call g
  generalize step call g = result at hEffect
  cases hEffect with
  | idle quiet same log => exact .idle quiet same.accounts same.rateLimiter (fun _ _ => holds_congr same.entries) log
  | unplaced _ quiet unplaced =>
    refine .idle quiet unplaced.accounts unplaced.rateLimiter (fun x r => ?_) (.inl unplaced.recovery)
    rw [unplaced.reconciliation]
    exact (h.unique.registerOrder_cancel unplaced.registered).2 x r
  | rolledBack op quiet back =>
    obtain ⟨reserves, found, accounts, rateLimiter, reconciliation, cause⟩ := back
    have hFresh := hLost.not_stores op reserves.registered
    obtain rfl := reserves.back_eq found fun i _ hLive => h.id_ne_of_not_stores hFresh hLive
    rw [Account.enter_retract] at accounts
    refine .cleared quiet reserves.symbol_lt (findFree_spec reserves.free).2.1 accounts rateLimiter (fun x r => ?_)
      (cause.imp And.right fun hLogged => ⟨_, hLogged⟩)
    rw [reconciliation]
    exact (h.unique.registerOrder_cancel reserves.registered).2 x r
  | admitted op accepted filled admits =>
    have hFresh := hLost.not_stores op admits.reserves.registered
    refine .admitted op accepted filled admits hFresh fun x r => ?_
    rw [admits.reconciliation]
    exact (h.unique.registerOrder admits.reserves.registered hFresh).2 x r
  | unapplied op _ _ matched applied =>
    rw [h.applied matched (hTerminal.live op matched)] at applied
    cases applied
  | filled op accepted filled fills =>
    have hLive := hTerminal.live op fills.matched
    refine .filled op accepted filled fills hLive fun x r => ?_
    obtain ⟨_, _, hHolds, hEntries⟩ := h.unique.apply fills.applied
    have hOpen := h.holds _ _ hLive
    rw [fills.matched.order.2.1] at hOpen
    obtain rfl := h.unique.holds_inj hHolds hOpen
    rw [fills.reconciliation]
    exact hEntries x r
  | cancelled quiet drops log =>
    obtain ⟨hSub, hKept⟩ := h.dropped drops
    exact .dropped quiet drops hSub hKept (.inr log)
  | rejected op quiet drops =>
    obtain ⟨hSub, hKept⟩ := h.dropped drops
    exact .dropped quiet drops hSub hKept (.inl op)
  | amended op quiet replaced =>
    obtain ⟨hId, _, hFind⟩ := contains_iff.mp replaced.amends.contains
    refine .amended op quiet replaced fun x r => ?_
    rw [replaced.reconciliation, replace_of_some hId replaced.amends.qty_pos hFind]
    exact (h.unique.setEntry hId hFind).2 x r

variable {g' : ExecutionGateway}

theorem write (hUnique : g'.reconciliation.Unique)
    {account : Account} {order : ActiveOrder} (hAccounts : g'.accounts = update g.accounts symbol account)
    (hOrders : account.orders = update (g.accounts symbol).orders slot order)
    (hBlank : order.state = .pending → order.orderId = 0)
    (hOrder : order.isLive = true → g'.reconciliation.Holds order.orderId order.qty ∧ 0 < order.qty)
    (hOther : ∀ s i, ¬ (s = symbol ∧ i = slot) → ((g.accounts s).orders i).isLive = true →
      (order.isLive = true → ((g.accounts s).orders i).orderId ≠ order.orderId) ∧
      g'.reconciliation.Holds ((g.accounts s).orders i).orderId ((g.accounts s).orders i).qty) : g'.Sound := by
  have hSlots : ∀ s i, (s = symbol ∧ i = slot) ∧ (g'.accounts s).orders i = order ∨
      ¬ (s = symbol ∧ i = slot) ∧ (g'.accounts s).orders i = (g.accounts s).orders i := by
    rw [hAccounts]
    exact Account.orders_update hOrders
  refine ⟨hUnique, fun s i hPending => ?_, fun s i hLive => ?_, fun s i hLive => ?_,
    fun s i s' i' hLive hLive' hSame => ?_⟩
  · rcases hSlots s i with ⟨_, hNew⟩ | ⟨_, hOld⟩
    · rw [hNew] at hPending ⊢
      exact hBlank hPending
    · rw [hOld] at hPending ⊢
      exact h.blank s i hPending
  · rcases hSlots s i with ⟨_, hNew⟩ | ⟨hne, hOld⟩
    · rw [hNew] at hLive ⊢
      exact (hOrder hLive).1
    · rw [hOld] at hLive ⊢
      exact (hOther s i hne hLive).2
  · rcases hSlots s i with ⟨_, hNew⟩ | ⟨_, hOld⟩
    · rw [hNew] at hLive ⊢
      exact (hOrder hLive).2
    · rw [hOld] at hLive ⊢
      exact h.qty_pos s i hLive
  · rcases hSlots s i with ⟨hAt, hNew⟩ | ⟨hne, hOld⟩
    · rcases hSlots s' i' with ⟨hAt', _⟩ | ⟨hne', hOld'⟩
      · exact ⟨hAt.1.trans hAt'.1.symm, hAt.2.trans hAt'.2.symm⟩
      rw [hNew] at hLive hSame
      rw [hOld'] at hLive' hSame
      exact absurd hSame.symm ((hOther s' i' hne' hLive').1 hLive)
    · rcases hSlots s' i' with ⟨_, hNew'⟩ | ⟨_, hOld'⟩
      · rw [hNew'] at hLive' hSame
        rw [hOld] at hLive hSame
        exact absurd hSame ((hOther s i hne hLive).1 hLive')
      · rw [hOld] at hLive hSame
        rw [hOld'] at hLive' hSame
        exact h.distinct s i s' i' hLive hLive' hSame

theorem congr (hUnique : g'.reconciliation.Unique) (hAccounts : g'.accounts = g.accounts)
    (hHolds : ∀ x r, g'.reconciliation.Holds x r ↔ g.reconciliation.Holds x r) : g'.Sound := by
  refine ⟨hUnique, ?_, ?_, ?_, ?_⟩
  · rw [hAccounts]
    exact h.blank
  · rw [hAccounts]
    exact fun s i hLive => (hHolds _ _).mpr (h.holds s i hLive)
  · rw [hAccounts]
    exact h.qty_pos
  · rw [hAccounts]
    exact h.distinct

theorem other_id (hLive : ((g.accounts symbol).orders slot).isLive = true)
    {s i : Nat} (hne : ¬ (s = symbol ∧ i = slot)) (hOther : ((g.accounts s).orders i).isLive = true) :
    ((g.accounts s).orders i).orderId ≠ ((g.accounts symbol).orders slot).orderId :=
  fun hSame => hne (h.distinct s i _ slot hOther hLive hSame)

theorem step (hLost : NoLostId call g) (hTerminal : NoTerminalFill call g) :
    (ExecutionGateway.step call g).2.Sound := by
  have hUnique := unique_step hLost h.unique
  have hMove := h.move hLost hTerminal
  generalize ExecutionGateway.step call g = result at hMove hUnique
  cases hMove with
  | idle _ accounts _ holds => exact h.congr hUnique accounts holds
  | cleared _ _ _ accounts _ holds =>
    refine h.write hUnique accounts rfl (fun _ => rfl) (fun hLive => absurd hLive Bool.false_ne_true) ?_
    exact fun s i _ hLive => ⟨fun hNew => absurd hNew Bool.false_ne_true, (holds _ _).mpr (h.holds s i hLive)⟩
  | admitted _ _ _ admits fresh holds =>
    have hPassed := PreTradeRisk.passed_of_evaluate admits.reserves.passed
    refine h.write hUnique admits.accounts rfl (fun hPending => by cases hPending)
      (fun _ => ⟨(holds _ _).mpr (.inl ⟨rfl, rfl⟩), hPassed.qty_pos⟩) fun s i _ hLive => ⟨fun _ => ?_, ?_⟩
    · exact h.id_ne_of_not_stores fresh hLive
    · exact (holds _ _).mpr (.inr (h.holds s i hLive))
  | filled _ _ _ fills live holds =>
    have accounts := fills.accounts
    obtain ⟨_, hId, _⟩ := fills.matched.order
    rw [← hId] at holds
    split_ifs at accounts with hFinish
    · refine h.write hUnique accounts rfl (fun hPending => by cases hPending)
        (fun hLive => absurd hLive Bool.false_ne_true) ?_
      refine fun s i hne hLive => ⟨fun hNew => absurd hNew Bool.false_ne_true, ?_⟩
      exact (holds _ _).mpr (.inr ⟨h.other_id live hne hLive, h.holds s i hLive⟩)
    refine h.write hUnique accounts rfl (fun hPending => by cases hPending) (fun _ => ⟨?_, ?_⟩)
      fun s i hne hLive => ⟨fun _ => h.other_id live hne hLive, ?_⟩
    · exact (holds _ _).mpr (.inl ⟨hFinish, rfl, rfl⟩)
    · have hLe := fills.matched.le
      have hRest := (not_or.mp hFinish).2
      simp only [Account.filledOrder, accounts_orders] at hLe hRest ⊢
      omega
    · exact (holds _ _).mpr (.inr ⟨h.other_id live hne hLive, h.holds s i hLive⟩)
  | dropped _ drops _ holds =>
    obtain ⟨_, rfl, live⟩ := drops.opened.order
    refine h.write hUnique drops.accounts rfl (fun _ => rfl) (fun hLive => absurd hLive Bool.false_ne_true) ?_
    refine fun s i hne hLive => ⟨fun hNew => absurd hNew Bool.false_ne_true, ?_⟩
    exact (holds _ _ (h.other_id live hne hLive)).mpr (h.holds s i hLive)
  | amended _ _ replaced holds =>
    obtain ⟨_, rfl, live⟩ := replaced.amends.order
    refine h.write hUnique replaced.accounts rfl (fun hPending => ?_)
      (fun _ => ⟨(holds _ _).mpr (.inl ⟨rfl, rfl⟩), replaced.amends.qty_pos⟩) fun s i hne hLive => ⟨fun _ => ?_, ?_⟩
    · exact h.blank _ _ hPending
    · exact h.other_id live hne hLive
    · exact (holds _ _).mpr (.inr ⟨h.other_id live hne hLive, h.holds s i hLive⟩)

end Sound

end LuvFlicker.ExecutionGateway
