import LuvFlicker.Execution.Reports
import LuvFlicker.Lib.Run
import Mathlib.Data.List.TakeWhile

/-!
# Halts after rejections

The reject count of a symbol goes up with every rejection and never down.
-/

namespace LuvFlicker

open Exec Run Function List Config SymbolExecState

namespace SymbolExecState

variable (st : SymbolExecState) (slot : Nat)

@[simp]
theorem rejectCount_fillAt (report : ExecutionReport) :
    (st.fillAt slot report).risk.rejectCount = st.risk.rejectCount := by
  rw [fillAt]
  split
  · split <;> rfl
  · rfl

theorem rejectCount_dropAt : (st.dropAt slot).risk.rejectCount = st.risk.rejectCount := rfl

theorem rejectCount_amendAt (newQty newPrice : Int) :
    (st.amendAt slot newQty newPrice).risk.rejectCount = st.risk.rejectCount := rfl

end SymbolExecState

namespace ExecutionGateway

/-! ## The reject counts -/

def rejects (g : ExecutionGateway) (symbol : Nat) : UInt32 := (g.states symbol).risk.rejectCount

def counted (counts : Nat → UInt32) (symbol : Nat) : Nat → UInt32 := update counts symbol (counts symbol + 1)

section Projections

variable (g : ExecutionGateway)

section

variable (symbol : Nat)

theorem rejects_setState (st : SymbolExecState) :
    (g.setState symbol st).rejects = update g.rejects symbol st.risk.rejectCount :=
  Function.comp_update (fun st : SymbolExecState => st.risk.rejectCount) _ _ st

theorem rejects_setState_same {st : SymbolExecState}
    (h : st.risk.rejectCount = (g.states symbol).risk.rejectCount) : (g.setState symbol st).rejects = g.rejects := by
  rw [rejects_setState, h]
  exact update_eq_self ..

@[simp]
theorem rejects_countReject : (g.countReject symbol).rejects = counted g.rejects symbol :=
  rejects_setState ..

@[simp]
theorem rejects_setHalted (halted : Bool) : (g.setHalted symbol halted).rejects = g.rejects :=
  rejects_setState_same g _ rfl

end

@[simp]
theorem rejects_setBreaker (breaker : CircuitBreaker) : (g.setBreaker breaker).rejects = g.rejects := rfl

@[simp]
theorem rejects_setRateLimiter (r : OrderRateLimiter) : (g.setRateLimiter r).rejects = g.rejects := rfl

@[simp]
theorem rejects_setReconciliation (l : ReconciliationLedger kReconciliationBits) :
    (g.setReconciliation l).rejects = g.rejects := rfl

@[simp]
theorem rejects_recordFailure (t : UInt64) : (g.recordFailure t).rejects = g.rejects := rfl

@[simp]
theorem rejects_trip : g.trip.rejects = g.rejects := rfl

@[simp]
theorem rejects_releasePending : g.releasePending.rejects = g.rejects := rfl

@[simp]
theorem rejects_fail (symbol : Nat) : (g.fail symbol).rejects = g.rejects := by
  rw [fail, rejects_trip, rejects_setHalted]

@[simp]
theorem rejects_appendRecovery (event : RecoveryEvent) (io : AppendIo) :
    (g.appendRecovery event io).2.rejects = g.rejects := by
  funext symbol
  rw [rejects, rejects, states_appendRecovery]

@[simp]
theorem rejects_releaseOrderSlot (intent : OrderIntent) : (g.releaseOrderSlot intent).rejects = g.rejects := by
  rw [releaseOrderSlot]
  split
  · rfl
  · exact rejects_setState_same g _ rfl

@[simp]
theorem rejects_rollback (intent : OrderIntent) : (g.rollback intent).rejects = counted g.rejects intent.symbolIdx := by
  rw [rollback]
  simp

@[simp]
theorem rejects_notifyFill (env : GatewayEnv) (order : ActiveOrder) :
    (g.notifyFill env order).2.rejects = g.rejects := by
  rw [notifyFill]
  split <;> rfl

end Projections

variable {g : ExecutionGateway} {env : GatewayEnv}

theorem rejects_reserveOrderSlot {intent : OrderIntent}
    (h : (g.states intent.symbolIdx).risk.orderCount < kMaxActiveOrders) :
    (g.reserveOrderSlot intent).2.rejects = g.rejects := by
  rw [reserveOrderSlot, if_neg (not_le.mpr h)]
  split
  · rfl
  · exact rejects_setState_same g _ rfl

def CountsOnce (g : ExecutionGateway) (symbol : Nat) (pass : Bool) (g' : ExecutionGateway) : Prop :=
  g'.rejects = g.rejects ∨ pass = false ∧ g'.rejects = counted g.rejects symbol

theorem submit_countsOnce (intent : OrderIntent) (decision : RiskDecision) (packet : OutboundPacket)
    (h : (g.states intent.symbolIdx).risk.orderCount < kMaxActiveOrders) :
    g.CountsOnce intent.symbolIdx (g.submit env intent decision packet).1.1.pass
      (g.submit env intent decision packet).2 := by
  have hReserve (ledger : ReconciliationLedger _) :
      ((g.setReconciliation ledger).reserveOrderSlot intent).2.rejects = g.rejects := rejects_reserveOrderSlot h
  rw [submit]
  dsimp only
  split
  · exact .inr ⟨rfl, by simp⟩
  split
  · left
    simp [hReserve]
  split
  · right
    exact ⟨rfl, by simp [hReserve]⟩
  split
  · right
    exact ⟨rfl, by simp [hReserve]⟩
  · left
    simp [hReserve]

theorem tryBuild_countsOnce (intent : OrderIntent) (packet : OutboundPacket) :
    g.CountsOnce intent.symbolIdx (g.tryBuild env intent packet).1.1.pass (g.tryBuild env intent packet).2 := by
  rw [tryBuild]
  dsimp only
  split
  · exact .inl rfl
  split
  · exact .inr ⟨rfl, by simp⟩
  split
  · exact .inr ⟨rfl, by simp⟩
  split
  next hFail =>
    right
    rw [Bool.not_eq_true'] at hFail
    exact ⟨by rw [hFail]; rfl, by simp⟩
  split
  next hFull =>
    right
    exact ⟨by rw [decide_eq_false hFull, Bool.and_false], by simp⟩
  rename_i hRoom
  split
  · exact .inr ⟨rfl, by simp⟩
  · exact submit_countsOnce intent _ _ (not_not.mp hRoom)

theorem tryReplace_countsOnce (intent : OrderReplaceIntent) (packet : OutboundPacket) :
    g.CountsOnce intent.symbolIdx (g.tryReplace env intent packet).1.1.pass (g.tryReplace env intent packet).2 := by
  rw [tryReplace]
  dsimp only
  split
  · exact .inl rfl
  split
  · exact .inr ⟨rfl, by simp⟩
  split
  · exact .inr ⟨rfl, by simp⟩
  split
  · exact .inr ⟨rfl, by simp⟩
  split
  next hFail =>
    rw [Bool.not_eq_true'] at hFail
    exact .inr ⟨hFail, by simp⟩
  split
  · exact .inr ⟨rfl, by simp⟩
  split
  · exact .inr ⟨rfl, by simp⟩
  · exact .inl rfl

section

variable (symbol : Nat)

theorem rejects_applyExecutionReport (report : ExecutionReport) :
    (g.applyExecutionReport env symbol report).2.rejects = g.rejects := by
  rw [applyExecutionReport]
  split
  · rfl
  split
  · exact rejects_fail g symbol
  dsimp only
  split
  · exact rejects_fail g _
  split
  · simp
  split
  · simp
  split
  · rw [rejects_releasePending, rejects_notifyFill,
      rejects_setState_same _ _ (rejectCount_fillAt ..), rejects_setReconciliation,
      rejects_appendRecovery]
  · rw [rejects_notifyFill, rejects_setState_same _ _ (rejectCount_fillAt ..),
      rejects_setReconciliation, rejects_appendRecovery]

theorem rejects_applyCancelReport (orderId : UInt64) :
    (g.applyCancelReport env symbol orderId).2.rejects = g.rejects := by
  rw [applyCancelReport]
  split
  · rfl
  split
  · exact rejects_fail g _
  dsimp only
  split
  · rfl
  split
  · exact rejects_fail g _
  split
  · simp
  split
  · simp
  · rw [rejects_releasePending, rejects_setState_same _ _ (rejectCount_dropAt ..),
      rejects_setReconciliation, rejects_appendRecovery]

theorem rejects_applyReplaceReport (orderId : UInt64) (newQty newPrice : Int64) :
    (g.applyReplaceReport env symbol orderId newQty newPrice).2.rejects = g.rejects := by
  rw [applyReplaceReport]
  split
  · rfl
  split
  · exact rejects_fail g _
  dsimp only
  split
  · exact rejects_fail g _
  split
  · simp
  split
  · simp
  · rw [rejects_setState_same _ _ (rejectCount_amendAt ..), rejects_setReconciliation, rejects_appendRecovery]

@[simp]
theorem rejects_noteRejection (g : ExecutionGateway) (env : GatewayEnv) (symbol : Nat) :
    (g.noteRejection env symbol).rejects = counted g.rejects symbol := by
  rw [noteRejection]
  split
  · rw [rejects_setHalted, rejects_setBreaker, rejects_countReject]
  · rw [rejects_setBreaker, rejects_countReject]

def stale (g : ExecutionGateway) (symbol : Nat) (orderId : UInt64) : Bool :=
  match (g.states symbol).findOrder orderId with
  | none => false
  | some slot => ((g.states symbol).orders slot).state = .done

theorem rejects_applyRejectReport (orderId : UInt64) : (g.applyRejectReport env symbol orderId).2.rejects =
      if symbol < kSymbols ∧ g.stale symbol orderId = false then counted g.rejects symbol else g.rejects := by
  rw [applyRejectReport, stale]
  split
  next hSymbol =>
    rw [if_neg fun h => not_lt.mpr hSymbol h.1]
    rfl
  rename_i hSymbol
  cases (g.states symbol).findOrder orderId with
  | none =>
    rw [if_pos ⟨not_le.mp hSymbol, rfl⟩]
    exact rejects_noteRejection g env symbol
  | some slot =>
    dsimp only
    split
    next hDone =>
      rw [if_neg]
      rw [decide_eq_true hDone]
      exact fun h => Bool.false_ne_true h.2.symm
    next hLive =>
      rw [if_pos ⟨not_le.mp hSymbol, decide_eq_false hLive⟩, rejects_releasePending,
        rejects_setState_same _ _ (rejectCount_dropAt ..), rejects_setReconciliation,
        rejects_noteRejection]

end

theorem rejects_cancelOrder (orderId : UInt64) : (g.cancelOrder env orderId).2.rejects = g.rejects := by
  rw [cancelOrder]
  split
  · rfl
  split
  · rfl
  · exact rejects_applyCancelReport ..

/-! ## Outcomes -/

inductive Outcome where
  | accepted
  | filled
  | rejected
  deriving DecidableEq, Repr

def Outcome.ofPass (pass : Bool) : Outcome := if pass then .accepted else .rejected

def outcome (call : GatewayCall) (g : ExecutionGateway) : Option (Nat × Outcome) :=
  match call.op with
  | .tryBuild intent packet =>
    if intent.symbolIdx ≥ kSymbols then none
    else some (intent.symbolIdx, .ofPass (g.tryBuild call.env intent packet).1.1.pass)
  | .tryReplace intent packet =>
    if intent.symbolIdx ≥ kSymbols then none
    else some (intent.symbolIdx, .ofPass (g.tryReplace call.env intent packet).1.1.pass)
  | .executionReport symbol report =>
    if (g.applyExecutionReport call.env symbol report).1.1 then some (symbol, .filled) else none
  | .rejectReport symbol orderId =>
    if symbol < kSymbols ∧ g.stale symbol orderId = false then some (symbol, .rejected) else none
  | _ => none

theorem CountsOnce.step {symbol : Nat} {pass : Bool} {g' : ExecutionGateway} (h : g.CountsOnce symbol pass g')
    (hSymbol : symbol ≥ kSymbols → g'.rejects = g.rejects) :
    g'.rejects = g.rejects ∨ (if symbol ≥ kSymbols then none else some (symbol, Outcome.ofPass pass)) =
      some (symbol, .rejected) ∧ g'.rejects = counted g.rejects symbol := by
  by_cases hOut : symbol ≥ kSymbols
  · exact .inl (hSymbol hOut)
  rw [if_neg hOut]
  rcases h with hSame | ⟨rfl, hCounted⟩
  · exact .inl hSame
  · exact .inr ⟨rfl, hCounted⟩

theorem rejects_step (call : GatewayCall) (g : ExecutionGateway) : (step call g).2.rejects = g.rejects ∨
      ∃ symbol, outcome call g = some (symbol, .rejected) ∧ (step call g).2.rejects = counted g.rejects symbol := by
  obtain ⟨op, env⟩ := call
  cases op with
  | tryBuild intent packet =>
    refine ((tryBuild_countsOnce _ _).step fun hOut => ?_).imp_right fun h => ⟨_, h⟩
    rw [tryBuild, if_pos hOut]
  | tryReplace intent packet =>
    refine ((tryReplace_countsOnce _ _).step fun hOut => ?_).imp_right fun h => ⟨_, h⟩
    rw [tryReplace, if_pos hOut]
  | executionReport symbol report => exact .inl (rejects_applyExecutionReport symbol report)
  | cancelReport symbol orderId => exact .inl (rejects_applyCancelReport _ _)
  | replaceReport symbol orderId newQty newPrice =>
    exact .inl (rejects_applyReplaceReport _ _ newQty _)
  | rejectReport symbol orderId =>
    have hCounts : (step ⟨.rejectReport symbol orderId, env⟩ g).2.rejects = _ := rejects_applyRejectReport _ _
    rw [hCounts, outcome]
    dsimp only
    split
    · exact .inr ⟨symbol, rfl, rfl⟩
    · exact .inl rfl
  | cancelOrder orderId => exact .inl (rejects_cancelOrder orderId)
  | haltSymbol | resumeSymbol =>
    left
    rw [step]
    dsimp only
    split
    · exact rejects_setHalted ..
    · rfl
  | setLimits symbol limits =>
    left
    change (g.setLimits symbol limits).2.rejects = g.rejects
    rw [ExecutionGateway.setLimits]
    split <;> rfl
  | setBreaker breaker => exact .inl rfl

/-! ## Runs -/

structure Watched where
  gateway : ExecutionGateway
  outcomes : Nat → List Outcome := fun _ => []

namespace Watched

def record (outcomes : Nat → List Outcome) : Option (Nat × Outcome) → Nat → List Outcome
  | none => outcomes
  | some (symbol, out) => update outcomes symbol (out :: outcomes symbol)

section

variable (call : GatewayCall)

def step (w : Watched) : GatewayReply × Watched := ((ExecutionGateway.step call w.gateway).1,
    ⟨(ExecutionGateway.step call w.gateway).2, record w.outcomes (outcome call w.gateway)⟩)

def streak (outcomes : List Outcome) : Nat := (outcomes.takeWhile (· = .rejected)).length

def Halts (g : ExecutionGateway) (symbol : Nat) (orderId : UInt64) : Prop :=
  symbol < kSymbols ∧ g.stale symbol orderId = false ∧
    (g.limits symbol).val.maxConsecutiveRejections ≤ g.rejects symbol + 1

/-- A reject report that halts the symbol for its rejections comes at the end of as many of them as the limit says. -/
def HaltsByStreak (w : Watched) : Prop :=
  ∀ symbol orderId, call.op = .rejectReport symbol orderId → Halts w.gateway symbol orderId →
    List.replicate (w.gateway.limits symbol).val.maxConsecutiveRejections.toNat Outcome.rejected <+:
      (step call w).2.outcomes symbol

/-- Nothing succeeds on a symbol once it has counted a rejection. -/
def Undisturbed (w : Watched) : Prop :=
  ∀ symbol out, outcome call w.gateway = some (symbol, out) → out ≠ .rejected → w.gateway.rejects symbol = 0

end

def Inv (w : Watched) : Prop := ∀ symbol, (w.gateway.rejects symbol).toNat ≤ streak (w.outcomes symbol)

theorem streak_rejected (outcomes : List Outcome) : streak (.rejected :: outcomes) = streak outcomes + 1 := by
  rw [streak, takeWhile_cons_of_pos (by decide), length_cons, streak]

theorem replicate_prefix_of_le_streak {n : Nat} {outcomes : List Outcome} (h : n ≤ streak outcomes) :
    List.replicate n .rejected <+: outcomes := by
  have hAll : outcomes.takeWhile (· = .rejected) = List.replicate (streak outcomes) .rejected := by
    refine eq_replicate_of_mem fun _ hOut => ?_
    simpa using mem_takeWhile_imp hOut
  have hPrefix : List.replicate n Outcome.rejected <+: List.replicate (streak outcomes) .rejected :=
    prefix_replicate_iff.mpr ⟨by rwa [length_replicate], by rw [length_replicate]⟩
  rw [← hAll] at hPrefix
  exact hPrefix.trans ⟨_, takeWhile_append_dropWhile⟩

theorem record_of_ne {outcomes : Nat → List Outcome} {made : Option (Nat × Outcome)} {symbol : Nat}
    (h : ∀ out, made ≠ some (symbol, out)) : record outcomes made symbol = outcomes symbol := by
  cases made with
  | none => rfl
  | some pair =>
    obtain ⟨s, out⟩ := pair
    refine update_of_ne ?_ ..
    rintro rfl
    exact h out rfl

theorem record_self (outcomes : Nat → List Outcome) (symbol : Nat) (out : Outcome) :
    record outcomes (some (symbol, out)) symbol = out :: outcomes symbol := update_self ..

theorem toNat_succ_le (n : UInt32) : (n + 1).toNat ≤ n.toNat + 1 := by
  exact Nat.mod_le ..

variable {call : GatewayCall} {w : Watched}

theorem inv_step (hUndisturbed : Undisturbed call w) (h : w.Inv) : (step call w).2.Inv := by
  intro symbol
  change ((ExecutionGateway.step call w.gateway).2.rejects symbol).toNat ≤
    streak (record w.outcomes (outcome call w.gateway) symbol)
  by_cases hOwn : ∃ out, outcome call w.gateway = some (symbol, out)
  · obtain ⟨out, hOut⟩ := hOwn
    rw [hOut, record_self]
    by_cases hRejected : out = .rejected
    · rw [hRejected, streak_rejected]
      have hHere := h symbol
      rcases rejects_step call w.gateway with hSame | ⟨s, hMade, hCounted⟩
      · rw [hSame]
        omega
      rw [hOut] at hMade
      cases hMade
      rw [hCounted, counted, update_self]
      have hSucc := toNat_succ_le (w.gateway.rejects symbol)
      omega
    · have hZero := hUndisturbed _ out hOut hRejected
      rcases rejects_step call w.gateway with hSame | ⟨s, hMade, _⟩
      · rw [hSame, hZero]
        exact Nat.zero_le _
      · rw [hOut] at hMade
        cases hMade
        exact absurd rfl hRejected
  · rw [record_of_ne fun out hOut => hOwn ⟨out, hOut⟩]
    rcases rejects_step call w.gateway with hSame | ⟨s, hMade, hCounted⟩
    · rw [hSame]
      exact h _
    rw [hCounted, counted, update_of_ne]
    · exact h _
    · rintro rfl
      exact hOwn ⟨_, hMade⟩

theorem haltsByStreak_of_inv (h : w.Inv) : HaltsByStreak call w := by
  intro symbol _ hOp hHalts
  apply replicate_prefix_of_le_streak
  have hMade : outcome call w.gateway = some (symbol, .rejected) := by
    rw [outcome, hOp]
    exact if_pos ⟨hHalts.1, hHalts.2.1⟩
  change _ ≤ streak (record w.outcomes (outcome call w.gateway) symbol)
  rw [hMade, record_self, streak_rejected]
  have hHere := h symbol
  have hSucc := toNat_succ_le (w.gateway.rejects symbol)
  have hLimit := UInt32.le_iff_toNat_le.mp hHalts.2.2
  omega

end Watched

/-- **Halts by consecutive rejections.** Along every run on which no order is accepted and no fill applied on a symbol
that has counted a rejection, a symbol is halted for its rejections only after as many in a row as its limit. -/
theorem run_haltsByStreak (rateLimit : Nat) (limits : Nat → ValidLimits) (breaker : CircuitBreaker)
    (recovery : Option RecoveryLedger) (calls : List GatewayCall)
    (h : Always Watched.step Watched.Undisturbed calls ⟨init rateLimit limits breaker recovery, fun _ => []⟩) :
    Always Watched.step Watched.HaltsByStreak calls ⟨init rateLimit limits breaker recovery, fun _ => []⟩ := by
  have hStart : Watched.Inv ⟨init rateLimit limits breaker recovery, fun _ => []⟩ := fun _ => le_refl 0
  refine (h.iff_of_invariant _ (fun call w _ hInv => ?_)
    (fun call w hUndisturbed (_ : True) hInv => Watched.inv_step hUndisturbed hInv) hStart).mpr
    (always_of_forall (fun _ _ => trivial) _ _)
  exact iff_true_intro (Watched.haltsByStreak_of_inv hInv)

def strayReject : GatewayCall := ⟨.rejectReport 0 7, {}⟩

def firstOrder : GatewayCall := ⟨.tryBuild { qty := 10, price := 101, clientOrderId := 1 } {}, {}⟩

def freshGateway : ExecutionGateway := init 100 (fun _ => .default) {} none

theorem strayReject_undisturbed (w : Watched) : Watched.Undisturbed strayReject w := by
  intro symbol out hOut hne
  change (if _ then some (0, Outcome.rejected) else none) = some (symbol, out) at hOut
  split at hOut
  · cases hOut
    exact absurd rfl hne
  · cases hOut

theorem fiveRejects_haltByStreak : Always Watched.step Watched.HaltsByStreak
    (firstOrder :: List.replicate 5 strayReject) ⟨freshGateway, fun _ => []⟩ := by
  refine run_haltsByStreak 100 (fun _ => .default) {} none _ ⟨fun _ _ hOut _ => ?_, ?_⟩
  · have hMade : outcome firstOrder freshGateway = some (0, .accepted) := by decide +kernel
    cases hMade.symm.trans hOut
    rfl
  refine Always.mono (fun call w hCall => ?_)
    (always_of_forall_mem (p := (· = strayReject)) (fun call hCall => eq_of_mem_replicate hCall) _)
  rw [hCall]
  exact strayReject_undisturbed w

def interleaved : List GatewayCall :=
  [firstOrder, strayReject, strayReject, strayReject, strayReject, ⟨.executionReport 0 ⟨1, 4, false⟩, {}⟩]

/-- The last rejection halts the symbol although a fill has come in between. -/
theorem interleaved_halts : Watched.Halts (final Watched.step interleaved ⟨freshGateway, fun _ => []⟩).gateway 0 7 ∧
      ((final Watched.step interleaved ⟨freshGateway, fun _ => []⟩).gateway.states 0).risk.halted = false ∧
      (final Watched.step (interleaved ++ [strayReject]) ⟨freshGateway, fun _ => []⟩).outcomes 0 =
        [.rejected, .filled, .rejected, .rejected, .rejected, .rejected, .accepted] ∧
      ((final Watched.step (interleaved ++ [strayReject]) ⟨freshGateway, fun _ => []⟩).gateway.states 0).risk.halted =
        true := by
  refine ⟨⟨by decide, by decide +kernel, by decide +kernel⟩, by decide +kernel, by decide +kernel, by decide +kernel⟩

end ExecutionGateway

end LuvFlicker
