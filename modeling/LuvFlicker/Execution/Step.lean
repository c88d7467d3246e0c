import LuvFlicker.Execution.Reports

/-!
# What one call does

Every call of the gateway ends in one of nine ways. The cases name the order slot
that changes, the ledger operation that goes with it, and the record in the
write-ahead log; all later invariants are proved over them.
-/

namespace LuvFlicker

open Exec Scan Function Config

def GatewayReply.acceptedId (reply : GatewayReply) (call : GatewayCall) : Option UInt64 :=
  match call.op, reply with
  | .tryBuild intent _, .decision d _ => if d.pass then some intent.clientOrderId.toUInt64 else none
  | _, _ => none

def GatewayReply.appliedFill (reply : GatewayReply) (call : GatewayCall) : Option (Nat × ExecutionReport) :=
  match call.op, reply with
  | .executionReport symbol fill, .report true _ => some (symbol, fill)
  | _, _ => none

namespace ExecutionGateway

structure Quiet (call : GatewayCall) (reply : GatewayReply) : Prop where
  accepted : reply.acceptedId call = none
  filled : reply.appliedFill call = none

inductive Effect (call : GatewayCall) (g : ExecutionGateway) : GatewayReply × ExecutionGateway → Prop
  | idle {reply g'} (quiet : Quiet call reply) (same : Unchanged g g') (log : Unlogged g call.env.io g') :
      Effect call g (reply, g')
  | unplaced {reply g' intent packet} (op : call.op = .tryBuild intent packet) (quiet : Quiet call reply)
      (unplaced : Unplaced g intent g') : Effect call g (reply, g')
  | rolledBack {reply g' intent packet slot back} (op : call.op = .tryBuild intent packet) (quiet : Quiet call reply)
      (back : RolledBack g call.env intent slot back g') : Effect call g (reply, g')
  | admitted {reply g' intent packet slot} (op : call.op = .tryBuild intent packet)
      (accepted : reply.acceptedId call = some intent.clientOrderId.toUInt64) (filled : reply.appliedFill call = none)
      (admits : Admits g call.env intent slot g') : Effect call g (reply, g')
  | unapplied {reply g' symbol report slot} (op : call.op = .executionReport symbol report) (quiet : Quiet call reply)
      (same : Unchanged g g') (matched : g.Matches symbol report slot)
      (applied : (g.reconciliation.apply report).1 = false)
      (recovery : g'.recovery = (g.logFill call.env symbol report slot).2.recovery) : Effect call g (reply, g')
  | filled {reply g' symbol report slot} (op : call.op = .executionReport symbol report)
      (accepted : reply.acceptedId call = none) (filled : reply.appliedFill call = some (symbol, report))
      (fills : Fills g call.env symbol report slot g') : Effect call g (reply, g')
  | cancelled {reply g' symbol orderId slot} (quiet : Quiet call reply) (drops : Drops g symbol orderId slot g')
      (log : Logged g call.env.io (cancelEvent ((g.states symbol).orders slot) call.env.nowNs) true g') :
      Effect call g (reply, g')
  | rejected {reply g' symbol orderId slot} (op : call.op = .rejectReport symbol orderId) (quiet : Quiet call reply)
      (drops : Drops g symbol orderId slot g') : Effect call g (reply, g')
  | amended {reply g' symbol orderId newQty newPrice slot}
      (op : call.op = .replaceReport symbol orderId newQty newPrice) (quiet : Quiet call reply)
      (replaced : Replaced g call.env symbol orderId newQty newPrice slot g') : Effect call g (reply, g')

section

variable (g : ExecutionGateway) (env : GatewayEnv)

theorem tryReplace_unchanged (intent : OrderReplaceIntent) (packet : OutboundPacket) :
    Unchanged g (g.tryReplace env intent packet).2 ∧ (g.tryReplace env intent packet).2.recovery = g.recovery := by
  unfold tryReplace
  rcases g.breaker.allow intent.nowNs with ⟨_, _⟩
  simp only [setBreaker_states]
  by_cases hSymbol : intent.symbolIdx ≥ kSymbols
  · rw [if_pos hSymbol]
    exact ⟨⟨rfl, rfl, rfl⟩, rfl⟩
  cases (g.states intent.symbolIdx).findLive intent.originalOrderId.toUInt64 with
  | none => split_ifs <;> exact ⟨⟨by simp, rfl, rfl⟩, rfl⟩
  | some slot => cases Ouch.buildReplaceOrder intent <;> dsimp only <;> split_ifs <;> exact ⟨⟨by simp, rfl, rfl⟩, rfl⟩

theorem Cancellation.effect {call : GatewayCall} {g : ExecutionGateway} {symbol : Nat} {orderId : UInt64}
    {result : Bool × ExecutionGateway} (h : Cancellation g call.env symbol orderId result)
    (hQuiet : ∀ ok, Quiet call (.report ok none)) : Effect call g (.report result.1 none, result.2) := by
  cases h with
  | refused same log => exact .idle (hQuiet _) same log
  | cancelled drops log => exact .cancelled (hQuiet _) drops log

theorem tryBuild_effect (intent : OrderIntent) (packet : OutboundPacket) :
    Effect ⟨.tryBuild intent packet, env⟩ g (step ⟨.tryBuild intent packet, env⟩ g) := by
  have hSpec := tryBuild_spec g env intent packet
  have hQuiet : ∀ d p, d.pass = false → Quiet ⟨.tryBuild intent packet, env⟩ (.decision d p) :=
    fun d p hPass => ⟨if_neg (by simp [hPass]), rfl⟩
  simp only [step]
  generalize g.tryBuild env intent packet = result at hSpec
  cases hSpec with
  | refused pass len same recovery => exact .idle (hQuiet _ _ pass) same (.inl recovery)
  | unplaced pass len unplaced => exact .unplaced rfl (hQuiet _ _ pass) unplaced
  | rolledBack pass len back => exact .rolledBack rfl (hQuiet _ _ pass) back
  | accepted pass admits => exact .admitted rfl (if_pos pass) rfl admits

theorem executionReport_effect (symbol : Nat) (report : ExecutionReport) :
    Effect ⟨.executionReport symbol report, env⟩ g (step ⟨.executionReport symbol report, env⟩ g) := by
  have hSpec := applyExecutionReport_spec g env symbol report
  have hQuiet : ∀ event, Quiet ⟨.executionReport symbol report, env⟩ (.report false event) := fun _ => ⟨rfl, rfl⟩
  simp only [step]
  generalize g.applyExecutionReport env symbol report = result at hSpec
  cases hSpec with
  | refused same log => exact .idle (hQuiet _) same log
  | unapplied same matched applied recovery => exact .unapplied rfl (hQuiet _) same matched applied recovery
  | filled fills => exact .filled rfl rfl rfl fills

end

theorem step_effect (call : GatewayCall) (g : ExecutionGateway) : Effect call g (step call g) := by
  obtain ⟨op, env⟩ := call
  cases op with
  | tryBuild intent packet => exact tryBuild_effect g env _ _
  | tryReplace intent packet =>
    obtain ⟨hSame, hLog⟩ := tryReplace_unchanged g env _ _
    exact .idle ⟨rfl, rfl⟩ hSame (.inl hLog)
  | executionReport symbol report => exact executionReport_effect g env _ _
  | cancelReport symbol orderId => exact (applyCancelReport_spec g env _ _).effect fun _ => ⟨rfl, rfl⟩
  | replaceReport symbol orderId newQty newPrice =>
    have hSpec := applyReplaceReport_spec g env symbol orderId newQty newPrice
    simp only [step]
    generalize g.applyReplaceReport env symbol orderId newQty newPrice = result at hSpec
    cases hSpec with
    | refused same log => exact .idle ⟨rfl, rfl⟩ same log
    | replaced replaced => exact .amended rfl ⟨rfl, rfl⟩ replaced
  | rejectReport symbol orderId =>
    have hSpec := applyRejectReport_spec g env symbol orderId
    simp only [step]
    generalize g.applyRejectReport env symbol orderId = result at hSpec
    cases hSpec with
    | refused same recovery => exact .idle ⟨rfl, rfl⟩ same (.inl recovery)
    | rejected drops => exact .rejected rfl ⟨rfl, rfl⟩ drops
  | cancelOrder orderId =>
    have hQuiet : ∀ ok, Quiet ⟨.cancelOrder orderId, env⟩ (.report ok none) := fun _ => ⟨rfl, rfl⟩
    simp only [step, cancelOrder]
    split_ifs
    · exact .idle (hQuiet _) ⟨rfl, rfl, rfl⟩ (.inl rfl)
    cases firstIndex (fun symbol => ((g.states symbol).findLive orderId).isSome) kSymbols with
    | none => exact .idle (hQuiet _) ⟨rfl, rfl, rfl⟩ (.inl rfl)
    | some symbol => exact (applyCancelReport_spec g env _ _).effect hQuiet
  | haltSymbol | resumeSymbol =>
    simp only [step]
    split_ifs
    · exact .idle ⟨rfl, rfl⟩ ⟨by simp, rfl, rfl⟩ (.inl rfl)
    · exact .idle ⟨rfl, rfl⟩ ⟨rfl, rfl, rfl⟩ (.inl rfl)
  | setLimits symbol limits =>
    simp only [step, setLimits]
    split_ifs
    all_goals exact .idle ⟨rfl, rfl⟩ ⟨rfl, rfl, rfl⟩ (.inl rfl)
  | setBreaker breaker => exact .idle ⟨rfl, rfl⟩ ⟨rfl, rfl, rfl⟩ (.inl rfl)

end ExecutionGateway

end LuvFlicker
