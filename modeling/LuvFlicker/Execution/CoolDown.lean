import LuvFlicker.Execution.Gateway
import LuvFlicker.Lib.Run

/-!
# The cool-down of the circuit breaker

Every call of the gateway drives the breaker through a short list of breaker
calls. Most of them carry the time of the call; a report that fails trips the
breaker without a time, and the stored time is then zero.
-/

namespace LuvFlicker

open List Config

inductive BreakerCall where
  | allow (nowNs : UInt64)
  | recordFailure (timestampNs : UInt64)
  | recordRejection (timestampNs : UInt64)
  | trip (timestampNs : UInt64)
  deriving DecidableEq, Repr

namespace BreakerCall

variable (b : CircuitBreaker)

def apply : BreakerCall → CircuitBreaker
  | .allow nowNs => (b.allow nowNs).2
  | .recordFailure timestampNs => b.recordFailure timestampNs
  | .recordRejection timestampNs => b.recordRejection timestampNs
  | .trip timestampNs => b.trip timestampNs

def stamp : BreakerCall → UInt64
  | .allow nowNs => nowNs
  | .recordFailure timestampNs => timestampNs
  | .recordRejection timestampNs => timestampNs
  | .trip timestampNs => timestampNs

def failureTrips : Bool := b.state = .kHalfOpen || b.failures + 1 ≥ b.maxFailures

def trips : BreakerCall → Bool
  | .allow nowNs => b.state = .kClosed && !(b.allow nowNs).1
  | .recordFailure _ => failureTrips b
  | .recordRejection _ =>
    (b.maxConsecutiveRejections > 0 && b.consecutiveRejections + 1 ≥ b.maxConsecutiveRejections) || failureTrips b
  | .trip _ => true

end BreakerCall

open BreakerCall

namespace CircuitBreaker

variable {b b' : CircuitBreaker} {call : BreakerCall} {t coolDown : UInt64}

structure SameConfig (b b' : CircuitBreaker) : Prop where
  coolDown : b'.coolDownNs = b.coolDownNs
  halfOpen : b'.halfOpenEnabled = b.halfOpenEnabled

inductive Driven (b : CircuitBreaker) (call : BreakerCall) (b' : CircuitBreaker) : Prop
  | tripped (trips : call.trips b = true) (state : b'.state = .kOpen) (stamp : b'.tripTimestampNs = call.stamp)
  | kept (trips : call.trips b = false) (state : b'.state = b.state) (stamp : b'.tripTimestampNs = b.tripTimestampNs)
  | resumed (trips : call.trips b = false) (wasOpen : b.state = .kOpen) (op : call = .allow call.stamp)
      (allowed : b.allow call.stamp ≠ (false, b))

theorem recordFailure_driven (b : CircuitBreaker) (t : UInt64) :
    SameConfig b (b.recordFailure t) ∧ Driven b (.recordFailure t) (b.recordFailure t) := by
  unfold recordFailure
  by_cases hHalf : b.state = .kHalfOpen
  · rw [if_pos hHalf]
    exact ⟨⟨rfl, rfl⟩, .tripped (by simp [trips, failureTrips, hHalf]) rfl rfl⟩
  by_cases hLimit : b.failures + 1 ≥ b.maxFailures
  · have hTrips : trips b (.recordFailure t) = true := by
      simp [trips, failureTrips, decide_eq_true hLimit]
    split_ifs <;> exact ⟨⟨rfl, rfl⟩, .tripped hTrips rfl rfl⟩
  · have hTrips : trips b (.recordFailure t) = false := by
      simp [trips, failureTrips, decide_eq_false hLimit, decide_eq_false hHalf]
    split_ifs <;> exact ⟨⟨rfl, rfl⟩, .kept hTrips rfl rfl⟩

theorem Driven.rejection {n : UInt32} (h : Driven { b with consecutiveRejections := n } (.recordFailure t) b')
    (hTrips : trips b (.recordRejection t) = failureTrips b) : Driven b (.recordRejection t) b' := by
  cases h with
  | tripped trips state stamp => exact .tripped (hTrips.trans trips) state stamp
  | kept trips state stamp => exact .kept (hTrips.trans trips) state stamp
  | resumed trips wasOpen op => cases op

theorem recordRejection_driven (b : CircuitBreaker) (t : UInt64) :
    SameConfig b (b.recordRejection t) ∧ Driven b (.recordRejection t) (b.recordRejection t) := by
  unfold recordRejection
  by_cases hCounts : b.maxConsecutiveRejections > 0
  · simp only [if_pos hCounts]
    split_ifs with hReached
    · refine ⟨⟨rfl, rfl⟩, .tripped ?_ rfl rfl⟩
      simp [trips, decide_eq_true hCounts, decide_eq_true hReached]
    have hTrips : trips b (.recordRejection t) = failureTrips b := by
      simp [trips, decide_eq_false hReached, Bool.and_false, Bool.false_or]
    obtain ⟨hConfig, hDriven⟩ := recordFailure_driven _ t
    exact ⟨⟨hConfig.coolDown, hConfig.halfOpen⟩, hDriven.rejection hTrips⟩
  · rw [if_neg hCounts]
    have hTrips : trips b (.recordRejection t) = failureTrips b := by
      simp [trips, decide_eq_false hCounts]
    obtain ⟨hConfig, hDriven⟩ := recordFailure_driven b t
    exact ⟨hConfig, hDriven.rejection hTrips⟩

theorem allowClosed_driven (h : b.state = .kClosed) (t : UInt64) :
    SameConfig b (b.allowClosed t).2 ∧ Driven b (.allow t) (b.allowClosed t).2 := by
  have hTrips : trips b (.allow t) = !(b.allowClosed t).1 := by simp [trips, allow, h]
  unfold allowClosed at hTrips ⊢
  by_cases hLimited : b.maxRatePerWindow > 0 ∧ b.rateWindowNs > 0 ∧ t > 0
  · rw [if_pos hLimited] at hTrips ⊢
    by_cases hWindow : t < b.windowStartNs ∨ t - b.windowStartNs ≥ b.rateWindowNs
    · rw [if_pos hWindow] at hTrips ⊢
      exact ⟨⟨rfl, rfl⟩, .kept hTrips rfl rfl⟩
    simp only [if_neg hWindow] at hTrips ⊢
    split_ifs at hTrips ⊢
    · exact ⟨⟨rfl, rfl⟩, .tripped hTrips rfl rfl⟩
    · exact ⟨⟨rfl, rfl⟩, .kept hTrips rfl rfl⟩
  · rw [if_neg hLimited] at hTrips ⊢
    exact ⟨⟨rfl, rfl⟩, .kept hTrips rfl rfl⟩

theorem allowOpen_driven (h : b.state = .kOpen) (t : UInt64) :
    SameConfig b (b.allowOpen t).2 ∧ Driven b (.allow t) (b.allowOpen t).2 := by
  have hTrips : trips b (.allow t) = false := by simp [trips, h]
  have hAllow : b.allow t = b.allowOpen t := by simp [allow, h]
  by_cases hSame : b.allowOpen t = (false, b)
  · rw [hSame]
    exact ⟨⟨rfl, rfl⟩, .kept hTrips rfl rfl⟩
  · refine ⟨?_, .resumed hTrips h rfl (by rw [stamp, hAllow]; exact hSame)⟩
    unfold allowOpen
    split_ifs <;> exact ⟨rfl, rfl⟩

theorem apply_driven (b : CircuitBreaker) (call : BreakerCall) :
    SameConfig b (call.apply b) ∧ Driven b call (call.apply b) := by
  cases call with
  | allow nowNs =>
    cases hState : b.state with
    | kClosed =>
      simp only [apply, allow, hState]
      exact allowClosed_driven hState _
    | kOpen =>
      simp only [apply, allow, hState]
      exact allowOpen_driven hState _
    | kHalfOpen =>
      simp only [apply, allow, hState]
      exact ⟨⟨rfl, rfl⟩, .kept (by simp [trips, hState]) rfl rfl⟩
  | recordFailure timestampNs => exact recordFailure_driven b _
  | recordRejection timestampNs => exact recordRejection_driven b _
  | trip timestampNs => exact ⟨⟨rfl, rfl⟩, .tripped rfl rfl rfl⟩

/-! ## Cooling down -/

structure Configured (b : CircuitBreaker) (coolDown : UInt64) : Prop where
  coolDown : b.coolDownNs = coolDown
  halfOpen : b.halfOpenEnabled = false

theorem Configured.apply (h : b.Configured coolDown) (call : BreakerCall) : (call.apply b).Configured coolDown := by
  have hConfig := (apply_driven b call).1
  exact ⟨hConfig.coolDown.trans h.coolDown, hConfig.halfOpen.trans h.halfOpen⟩

def OpenSince (b : CircuitBreaker) (t : UInt64) : Prop := b.state = .kOpen ∧ t ≤ b.tripTimestampNs

section

variable (h : b.OpenSince t) (hConfig : b.Configured coolDown)
include h hConfig

theorem OpenSince.allow_eq {nowNs : UInt64}
    (hNow : nowNs.toNat < t.toNat + coolDown.toNat) : b.allow nowNs = (false, b) := by
  simp only [allow, h.1]
  refine if_neg ?_
  rintro ⟨_, _, hAfter, hElapsed⟩
  have hSince := UInt64.le_iff_toNat_le.mp h.2
  have hAfter' := UInt64.le_iff_toNat_le.mp hAfter
  rw [hConfig.coolDown] at hElapsed
  have hElapsed' := UInt64.le_iff_toNat_le.mp hElapsed
  rw [UInt64.toNat_sub_of_le _ _ hAfter] at hElapsed'
  omega

theorem OpenSince.apply (hStamp : t ≤ call.stamp)
    (hNow : call.stamp.toNat < t.toNat + coolDown.toNat) : (call.apply b).OpenSince t := by
  cases (apply_driven b call).2 with
  | tripped _ state stamp => exact ⟨state, stamp ▸ hStamp⟩
  | kept _ state stamp => exact ⟨state.trans h.1, stamp ▸ h.2⟩
  | resumed _ _ _ allowed => exact absurd (h.allow_eq hConfig hNow) allowed

end

def drive (b : CircuitBreaker) (calls : List BreakerCall) : CircuitBreaker := calls.foldl BreakerCall.apply b

def tripsOn (b : CircuitBreaker) : List BreakerCall → Bool
  | [] => false
  | call :: rest => call.trips b || (call.apply b).tripsOn rest

theorem Configured.drive (h : b.Configured coolDown) (calls : List BreakerCall) :
    (b.drive calls).Configured coolDown := by
  induction calls generalizing b with
  | nil => exact h
  | cons call rest ih => exact ih (h.apply call)

variable {calls : List BreakerCall}

theorem OpenSince.drive (h : b.OpenSince t) (hConfig : b.Configured coolDown)
    (hStamp : ∀ call ∈ calls, t ≤ call.stamp ∧ call.stamp.toNat < t.toNat + coolDown.toNat) :
    (b.drive calls).OpenSince t := by
  induction calls generalizing b with
  | nil => exact h
  | cons call rest ih =>
    obtain ⟨hLow, hHigh⟩ := hStamp call mem_cons_self
    exact ih (h.apply hConfig hLow hHigh) (hConfig.apply call) fun c hc => hStamp c (mem_cons_of_mem _ hc)

theorem openSince_of_tripsOn (hConfig : b.Configured coolDown) (hCool : 0 < coolDown.toNat)
    (hStamp : ∀ call ∈ calls, call.stamp = t) (h : b.tripsOn calls = true) : (b.drive calls).OpenSince t := by
  induction calls generalizing b with
  | nil => cases h
  | cons call rest ih =>
    have hRest : ∀ c ∈ rest, c.stamp = t := fun c hc => hStamp c (mem_cons_of_mem _ hc)
    rcases Bool.or_eq_true_iff.mp h with hHead | hTail
    · have hOpen : (call.apply b).OpenSince t := by
        cases (apply_driven b call).2 with
        | tripped _ state stamp =>
          refine ⟨state, ?_⟩
          rw [stamp, hStamp call mem_cons_self]
          exact UInt64.le_refl t
        | kept trips | resumed trips => exact absurd hHead (by simp [trips])
      refine hOpen.drive (hConfig.apply call) fun c hc => ?_
      rw [hRest c hc]
      exact ⟨UInt64.le_refl t, by omega⟩
    · exact ih (hConfig.apply call) hRest hTail

end CircuitBreaker

def GatewayCall.time (call : GatewayCall) : UInt64 :=
  match call.op with
  | .tryBuild intent _ => intent.nowNs
  | .tryReplace intent _ => intent.nowNs
  | _ => call.env.nowNs

def GatewayCall.sparesBreaker (call : GatewayCall) : Bool :=
  match call.op with
  | .setBreaker _ => false
  | _ => true

namespace ExecutionGateway

open Exec Scan

/-! ## The breaker calls of the gateway -/

section

variable (g : ExecutionGateway) (env : GatewayEnv)

def tryBuildBreaker (intent : OrderIntent) (packet : OutboundPacket) : List BreakerCall :=
  let packet := { packet with len := 0 }
  let symbol := intent.symbolIdx
  if symbol ≥ kSymbols then []
  else
    let (allowed, breaker) := g.breaker.allow intent.nowNs
    let g := g.setBreaker breaker
    if !allowed then [.allow intent.nowNs]
    else
      let (acquired, rateLimiter) := g.rateLimiter.tryAcquire
      let g := g.setRateLimiter rateLimiter
      if !acquired then [.allow intent.nowNs]
      else
        let decision := g.evaluate intent
        let capacityOk := (g.states symbol).risk.orderCount < kMaxActiveOrders
        let checked : RiskDecision :=
          ⟨decision.pass && capacityOk, decision.rejectMask ||| if capacityOk then 0 else kRejectOrderCapacity⟩
        if !decision.pass then [.allow intent.nowNs]
        else if ¬ capacityOk then [.allow intent.nowNs]
        else
          match Ouch.buildEnterOrder intent packet with
          | none => [.allow intent.nowNs]
          | some packet =>
            -- every way `submit` can fail records one failure
            if (g.submit env intent checked packet).1.1.pass then [.allow intent.nowNs]
            else [.allow intent.nowNs, .recordFailure intent.nowNs]

def tryReplaceBreaker (intent : OrderReplaceIntent) : List BreakerCall :=
  let symbol := intent.symbolIdx
  if symbol ≥ kSymbols then []
  else
    let (allowed, breaker) := g.breaker.allow intent.nowNs
    let g := g.setBreaker breaker
    if !allowed then [.allow intent.nowNs]
    else if !g.reconciliation.contains intent.originalOrderId.toUInt64 then [.allow intent.nowNs]
    else
      match (g.states symbol).findLive intent.originalOrderId.toUInt64 with
      | none => [.allow intent.nowNs]
      | some slot =>
        let testIntent : OrderIntent :=
          { symbolIdx := symbol, side := ((g.states symbol).orders slot).side, qty := intent.newQty,
            price := intent.newPrice, alphaTimestampNs := intent.alphaTimestampNs, nowNs := intent.nowNs,
            clientOrderId := intent.replacementOrderId, timeInForce := intent.timeInForce }
        if !(g.evaluate testIntent).pass then [.allow intent.nowNs]
        else
          match Ouch.buildReplaceOrder intent with
          | none => [.allow intent.nowNs]
          | some _ => if !env.audit then [.allow intent.nowNs, .recordFailure intent.nowNs] else [.allow intent.nowNs]

def failedReport (ok : Bool) : List BreakerCall := if ok then [] else [.trip 0]

def cancelBreaker (symbol : Nat) (orderId : UInt64) : List BreakerCall :=
  match if symbol < kSymbols then (g.states symbol).findOrder orderId else none with
  | some slot =>
    if ((g.states symbol).orders slot).state = .done then []
    else failedReport (g.applyCancelReport env symbol orderId).1
  | none => [.trip 0]

def rejectBreaker (symbol : Nat) (orderId : UInt64) : List BreakerCall :=
  if symbol ≥ kSymbols then [.recordFailure env.nowNs]
  else
    match (g.states symbol).findOrder orderId with
    | none => [.recordRejection env.nowNs]
    | some slot => if ((g.states symbol).orders slot).state = .done then [] else [.recordRejection env.nowNs]

end

def breakerCalls (call : GatewayCall) (g : ExecutionGateway) : List BreakerCall :=
  match call.op with
  | .tryBuild intent packet => g.tryBuildBreaker call.env intent packet
  | .tryReplace intent _ => g.tryReplaceBreaker call.env intent
  | .executionReport symbol report => failedReport (g.applyExecutionReport call.env symbol report).1.1
  | .cancelReport symbol orderId => g.cancelBreaker call.env symbol orderId
  | .replaceReport symbol orderId newQty newPrice =>
    failedReport (g.applyReplaceReport call.env symbol orderId newQty newPrice).1
  | .rejectReport symbol orderId => g.rejectBreaker call.env symbol orderId
  | .cancelOrder orderId =>
    if orderId = 0 then []
    else
      match firstIndex (fun symbol => ((g.states symbol).findLive orderId).isSome) kSymbols with
      | none => []
      | some symbol => g.cancelBreaker call.env symbol orderId
  | .haltSymbol _ | .resumeSymbol _ | .setLimits _ _ | .setBreaker _ => []

section Breaker

variable (g : ExecutionGateway) (env : GatewayEnv)

structure Controlled (g : ExecutionGateway) (calls : List BreakerCall) (g' : ExecutionGateway) : Prop where
  breaker : g'.breaker = g.breaker.drive calls
  limits : g'.limits = g.limits

variable {g} in
theorem Controlled.trans {g' g'' : ExecutionGateway} {calls more : List BreakerCall} (h : Controlled g calls g')
    (h' : Controlled g' more g'') : Controlled g (calls ++ more) g'' := by
  constructor
  · rw [h'.breaker, h.breaker]
    exact foldl_append.symm
  · exact h'.limits.trans h.limits

theorem appendRecovery_controlled (event : RecoveryEvent) (io : AppendIo) :
    Controlled g [] (g.appendRecovery event io).2 := by
  unfold appendRecovery
  cases g.recovery <;> exact ⟨rfl, rfl⟩

section

variable (intent : OrderIntent)

theorem reserveOrderSlot_controlled : Controlled g [] (g.reserveOrderSlot intent).2 := by
  unfold reserveOrderSlot
  simp only
  split_ifs
  · exact ⟨rfl, rfl⟩
  · cases (g.states intent.symbolIdx).findFree <;> exact ⟨rfl, rfl⟩

theorem rollback_controlled : Controlled g [.recordFailure intent.nowNs] (g.rollback intent) := by
  unfold rollback releaseOrderSlot
  simp only [setReconciliation_states]
  generalize firstIndex _ _ = found
  cases found <;> exact ⟨rfl, rfl⟩

theorem submit_controlled (decision : RiskDecision) (packet : OutboundPacket) (hPass : decision.pass = true) :
    Controlled g (if (g.submit env intent decision packet).1.1.pass then [] else [.recordFailure intent.nowNs])
      (g.submit env intent decision packet).2 := by
  unfold submit
  rcases g.reconciliation.registerOrder intent.clientOrderId.toUInt64 intent.qty.toInt with ⟨registered, ledger⟩
  cases registered with
  | false => exact ⟨rfl, rfl⟩
  | true =>
    have hLedger : Controlled g [] (g.setReconciliation ledger) := ⟨rfl, rfl⟩
    have hReserve := hLedger.trans (reserveOrderSlot_controlled _ intent)
    simp only [Bool.not_true]
    generalize (g.setReconciliation ledger).reserveOrderSlot intent = result at hReserve ⊢
    obtain ⟨reserved, g₁⟩ := result
    cases reserved with
    | false => exact hReserve.trans ⟨rfl, rfl⟩
    | true =>
      cases env.audit with
      | false => exact hReserve.trans (rollback_controlled g₁ _)
      | true =>
        have hAppend := hReserve.trans (appendRecovery_controlled g₁ (addEvent intent) env.io)
        generalize g₁.appendRecovery (addEvent intent) env.io = result at hAppend ⊢
        obtain ⟨logged, g₂⟩ := result
        cases logged with
        | false => exact hAppend.trans (rollback_controlled g₂ _)
        | true =>
          simp only [Bool.not_true, Bool.false_eq_true, if_false, hPass]
          exact hAppend

theorem tryBuild_controlled (packet : OutboundPacket) :
    Controlled g (g.tryBuildBreaker env intent packet) (g.tryBuild env intent packet).2 := by
  unfold tryBuild tryBuildBreaker
  have hAllow : Controlled g [.allow intent.nowNs] (g.setBreaker (g.breaker.allow intent.nowNs).2) := ⟨rfl, rfl⟩
  generalize g.breaker.allow intent.nowNs = answer at hAllow ⊢
  obtain ⟨_, breaker⟩ := answer
  dsimp only at hAllow ⊢
  by_cases hSymbol : intent.symbolIdx ≥ kSymbols
  · rw [if_pos hSymbol, if_pos hSymbol]
    exact ⟨rfl, rfl⟩
  rcases (g.setBreaker breaker).rateLimiter.tryAcquire with ⟨_, rateLimiter⟩
  have hLimiter : Controlled g [.allow intent.nowNs] ((g.setBreaker breaker).setRateLimiter rateLimiter) :=
    hAllow.trans ⟨rfl, rfl⟩
  generalize (g.setBreaker breaker).setRateLimiter rateLimiter = g₁ at hLimiter ⊢
  by_cases hCapacity : (g₁.states intent.symbolIdx).risk.orderCount < kMaxActiveOrders
  · split_ifs with hNot hNot' hRisk
    · exact hAllow.trans ⟨rfl, rfl⟩
    · exact hLimiter.trans ⟨rfl, rfl⟩
    · exact hLimiter.trans ⟨rfl, rfl⟩
    cases Ouch.buildEnterOrder intent { packet with len := 0 } with
    | none => exact hLimiter.trans ⟨rfl, rfl⟩
    | some built =>
      dsimp only
      generalize hChecked : RiskDecision.mk _ _ = checked
      have hPass : checked.pass = true := by
        rw [← hChecked]
        simp_all
      have hSubmit := hLimiter.trans (submit_controlled g₁ env intent _ built hPass)
      split_ifs at hSubmit ⊢ <;> exact hSubmit
  · split_ifs
    · exact hAllow.trans ⟨rfl, rfl⟩
    all_goals exact hLimiter.trans ⟨rfl, rfl⟩

end

theorem tryReplace_controlled (intent : OrderReplaceIntent) (packet : OutboundPacket) :
    Controlled g (g.tryReplaceBreaker env intent) (g.tryReplace env intent packet).2 := by
  unfold tryReplace tryReplaceBreaker
  have hAllow : Controlled g [.allow intent.nowNs] (g.setBreaker (g.breaker.allow intent.nowNs).2) := ⟨rfl, rfl⟩
  generalize g.breaker.allow intent.nowNs = answer at hAllow ⊢
  obtain ⟨_, breaker⟩ := answer
  dsimp only at hAllow ⊢
  by_cases hSymbol : intent.symbolIdx ≥ kSymbols
  · rw [if_pos hSymbol, if_pos hSymbol]
    exact ⟨rfl, rfl⟩
  rw [if_neg hSymbol, if_neg hSymbol]
  cases ((g.setBreaker breaker).states intent.symbolIdx).findLive intent.originalOrderId.toUInt64 with
  | none => split_ifs <;> exact hAllow.trans ⟨rfl, rfl⟩
  | some slot =>
    dsimp only
    generalize (g.setBreaker breaker).evaluate _ = decision
    cases Ouch.buildReplaceOrder intent with
    | none | some => split_ifs <;> exact hAllow.trans ⟨rfl, rfl⟩

variable (symbol : Nat)

theorem applyExecutionReport_controlled (report : ExecutionReport) :
    Controlled g (failedReport (g.applyExecutionReport env symbol report).1.1)
      (g.applyExecutionReport env symbol report).2 := by
  unfold applyExecutionReport
  split_ifs with hSymbol
  · exact ⟨rfl, rfl⟩
  cases (g.states symbol).findOrder report.orderId with
  | none => exact ⟨rfl, rfl⟩
  | some slot =>
    dsimp only
    split
    · exact ⟨rfl, rfl⟩
    generalize fillEvent _ _ _ = event
    have hAppend := appendRecovery_controlled g event env.io
    generalize g.appendRecovery event env.io = logged at hAppend ⊢
    rcases logged.2.reconciliation.apply report with ⟨_, _⟩
    split_ifs
    · exact hAppend.trans ⟨rfl, rfl⟩
    · exact hAppend.trans ⟨rfl, rfl⟩
    all_goals
      unfold notifyFill
      cases env.notify <;> exact hAppend.trans ⟨rfl, rfl⟩

theorem applyReplaceReport_controlled (orderId : UInt64) (newQty newPrice : Int64) :
    Controlled g (failedReport (g.applyReplaceReport env symbol orderId newQty newPrice).1)
      (g.applyReplaceReport env symbol orderId newQty newPrice).2 := by
  unfold applyReplaceReport
  split
  · exact ⟨rfl, rfl⟩
  cases (g.states symbol).findLive orderId with
  | none => exact ⟨rfl, rfl⟩
  | some slot =>
    dsimp only
    split
    · exact ⟨rfl, rfl⟩
    generalize orderEvent _ _ _ _ _ = event
    have hAppend := appendRecovery_controlled g event env.io
    generalize g.appendRecovery event env.io = logged at hAppend ⊢
    rcases logged.2.reconciliation.replace orderId newQty.toInt with ⟨_, _⟩
    split_ifs <;> exact hAppend.trans ⟨rfl, rfl⟩

theorem applyCancelReport_controlled (orderId : UInt64) :
    Controlled g (g.cancelBreaker env symbol orderId) (g.applyCancelReport env symbol orderId).2 := by
  unfold cancelBreaker
  split_ifs
  · unfold applyCancelReport
    rw [if_neg (by omega)]
    cases (g.states symbol).findOrder orderId with
    | none => exact ⟨rfl, rfl⟩
    | some slot =>
      dsimp only
      by_cases hDone : ((g.states symbol).orders slot).state = .done
      · rw [if_pos hDone, if_pos hDone]
        exact ⟨rfl, rfl⟩
      rw [if_neg hDone, if_neg hDone]
      split
      · exact ⟨rfl, rfl⟩
      generalize orderEvent _ _ _ _ _ = event
      have hAppend := appendRecovery_controlled g event env.io
      generalize g.appendRecovery event env.io = logged at hAppend ⊢
      rcases logged.2.reconciliation.cancel orderId with ⟨_, _⟩
      split_ifs <;> exact hAppend.trans ⟨rfl, rfl⟩
  · unfold applyCancelReport
    rw [if_pos (by omega)]
    exact ⟨rfl, rfl⟩

theorem noteRejection_controlled : Controlled g [.recordRejection env.nowNs] (g.noteRejection env symbol) := by
  unfold noteRejection
  simp only
  split_ifs <;> exact ⟨rfl, rfl⟩

theorem applyRejectReport_controlled (orderId : UInt64) :
    Controlled g (g.rejectBreaker env symbol orderId) (g.applyRejectReport env symbol orderId).2 := by
  unfold applyRejectReport rejectBreaker
  split_ifs with hSymbol
  · exact ⟨rfl, rfl⟩
  cases (g.states symbol).findOrder orderId with
  | none => exact noteRejection_controlled g env _
  | some slot =>
    dsimp only
    split_ifs
    · exact ⟨rfl, rfl⟩
    · exact (noteRejection_controlled g env _).trans ⟨rfl, rfl⟩

end Breaker

theorem step_controlled {call : GatewayCall} (g : ExecutionGateway) (hSpares : call.sparesBreaker = true)
    (hLimits : ∀ symbol limits, call.op ≠ .setLimits symbol limits) :
    Controlled g (breakerCalls call g) (step call g).2 := by
  obtain ⟨op, env⟩ := call
  cases op with
  | tryBuild intent packet => exact tryBuild_controlled g env _ _
  | tryReplace intent packet => exact tryReplace_controlled g env _ _
  | executionReport symbol report => exact applyExecutionReport_controlled g env _ _
  | cancelReport symbol orderId => exact applyCancelReport_controlled g env _ _
  | replaceReport symbol orderId newQty newPrice =>
    exact applyReplaceReport_controlled g env _ _ _ _
  | rejectReport symbol orderId => exact applyRejectReport_controlled g env _ _
  | cancelOrder orderId =>
    simp only [step, cancelOrder, breakerCalls]
    split_ifs
    · exact ⟨rfl, rfl⟩
    cases firstIndex (fun symbol => ((g.states symbol).findLive orderId).isSome) kSymbols with
    | none => exact ⟨rfl, rfl⟩
    | some symbol => exact applyCancelReport_controlled g env _ _
  | haltSymbol | resumeSymbol =>
    simp only [step]
    split_ifs <;> exact ⟨rfl, rfl⟩
  | setLimits symbol limits => exact absurd rfl (hLimits _ _)
  | setBreaker breaker => cases hSpares

section

variable (call : GatewayCall) (g : ExecutionGateway)

theorem step_breaker (hSpares : call.sparesBreaker = true) :
    (step call g).2.breaker = g.breaker.drive (breakerCalls call g) := by
  by_cases hLimits : ∃ symbol limits, call.op = .setLimits symbol limits
  · obtain ⟨symbol, limits, hOp⟩ := hLimits
    simp only [step, breakerCalls, hOp, setLimits]
    split_ifs <;> rfl
  · exact (step_controlled g hSpares fun symbol limits hOp => hLimits ⟨_, _, hOp⟩).breaker

/-! ## Runs -/

def Trips : Prop := g.breaker.tripsOn (breakerCalls call g) = true

/-- Every breaker call of the gateway call carries its time. -/
def Stamped : Prop :=
  ∀ breakerCall ∈ breakerCalls call g, breakerCall.stamp = call.time

instance : Decidable (Trips call g) := inferInstanceAs (Decidable (_ = _))

instance : Decidable (Stamped call g) :=
  inferInstanceAs (Decidable (∀ breakerCall ∈ breakerCalls call g, _))

end

/-- Whenever a call trips the breaker at a time `t`, the breaker refuses every later submission whose
time is before `t + coolDown`. -/
def HonoursCoolDown (coolDown : UInt64) (calls : List GatewayCall) (g : ExecutionGateway) : Prop :=
  ∀ before call between env intent packet after,
    calls = before ++ call :: (between ++ ⟨.tryBuild intent packet, env⟩ :: after) →
    Trips call (Run.final step before g) → intent.nowNs.toNat < call.time.toNat + coolDown.toNat →
    ((Run.final step (before ++ call :: between) g).breaker.allow intent.nowNs).1 = false

variable {call : GatewayCall} {g : ExecutionGateway} {coolDown t : UInt64}

theorem openSince_of_trips (hConfig : g.breaker.Configured coolDown) (hCool : 0 < coolDown.toNat)
    (hSpares : call.sparesBreaker = true) (hStamped : Stamped call g) (hTrips : Trips call g) :
    (step call g).2.breaker.OpenSince call.time := by
  rw [step_breaker call g hSpares]
  exact CircuitBreaker.openSince_of_tripsOn hConfig hCool hStamped hTrips

theorem openSince_step (hConfig : g.breaker.Configured coolDown) (hSpares : call.sparesBreaker = true)
    (hStamped : Stamped call g) (hLow : t ≤ call.time) (hHigh : call.time.toNat < t.toNat + coolDown.toNat)
    (hOpen : g.breaker.OpenSince t) : (step call g).2.breaker.OpenSince t := by
  rw [step_breaker call g hSpares]
  refine hOpen.drive hConfig fun _ hMem => ?_
  rw [hStamped _ hMem]
  exact ⟨hLow, hHigh⟩

theorem configured_step (hSpares : call.sparesBreaker = true) (hConfig : g.breaker.Configured coolDown) :
    (step call g).2.breaker.Configured coolDown := by
  rw [step_breaker call g hSpares]
  exact hConfig.drive _

variable {calls : List GatewayCall}

section

variable (hSpares : ∀ call ∈ calls, call.sparesBreaker = true)
include hSpares

theorem configured_final
    (hConfig : g.breaker.Configured coolDown) : (Run.final step calls g).breaker.Configured coolDown := by
  induction calls generalizing g with
  | nil => exact hConfig
  | cons call rest ih =>
    exact ih (fun c hc => hSpares c (mem_cons_of_mem _ hc)) (configured_step (hSpares call mem_cons_self) hConfig)

theorem openSince_final (hStamped : Run.Always step Stamped calls g) (hConfig : g.breaker.Configured coolDown)
    (hTimes : ∀ call ∈ calls, t ≤ call.time ∧ call.time.toNat < t.toNat + coolDown.toNat)
    (hOpen : g.breaker.OpenSince t) : (Run.final step calls g).breaker.OpenSince t := by
  induction calls generalizing g with
  | nil => exact hOpen
  | cons call rest ih =>
    have hHead := hSpares call mem_cons_self
    obtain ⟨hLow, hHigh⟩ := hTimes call mem_cons_self
    exact ih (fun c hc => hSpares c (mem_cons_of_mem _ hc)) hStamped.2 (configured_step hHead hConfig)
      (fun c hc => hTimes c (mem_cons_of_mem _ hc))
      (openSince_step hConfig hHead hStamped.1 hLow hHigh hOpen)

end

/-- If every breaker call carries the time of its gateway call, the cool-down is honoured along the run. -/
theorem run_honoursCoolDown (rateLimit : Nat) (limits : Nat → ValidLimits) (breaker : CircuitBreaker)
    (recovery : Option RecoveryLedger) (calls : List GatewayCall) (coolDown : UInt64) (hCool : 0 < coolDown)
    (hConfig : breaker.coolDownNs = coolDown ∧ breaker.halfOpenEnabled = false)
    (hSpares : ∀ call ∈ calls, call.sparesBreaker = true)
    (hClock : calls.Pairwise fun call later => call.time ≤ later.time)
    (hStamped : Run.Always step Stamped calls (init rateLimit limits breaker recovery)) :
    HonoursCoolDown coolDown calls (init rateLimit limits breaker recovery) := by
  have hStart : (init rateLimit limits breaker recovery).breaker.Configured coolDown := ⟨hConfig.1, hConfig.2⟩
  rintro before call between _ intent _ _ rfl hTrips hNow
  have hSpares' : (∀ c ∈ before, c.sparesBreaker = true) ∧ call.sparesBreaker = true ∧
      ∀ c ∈ between, c.sparesBreaker = true := by
    refine ⟨fun c hc => hSpares c (by simp [hc]), hSpares call (by simp), fun c hc => hSpares c (by simp [hc])⟩
  rw [pairwise_append, pairwise_cons, pairwise_append] at hClock
  obtain ⟨_, ⟨hAfter, _, _, hBetween⟩, _⟩ := hClock
  rw [Run.always_append] at hStamped
  obtain ⟨_, hStampedCall, hStampedRest⟩ := hStamped
  rw [Run.always_append] at hStampedRest
  have hConfigured := configured_final hSpares'.1 hStart
  have hOpen := openSince_of_trips hConfigured (UInt64.lt_iff_toNat_lt.mp hCool) hSpares'.2.1 hStampedCall hTrips
  rw [Run.final_append]
  have hConfigured' := configured_step hSpares'.2.1 hConfigured
  refine congrArg Prod.fst (CircuitBreaker.OpenSince.allow_eq ?_ (configured_final hSpares'.2.2 hConfigured') hNow)
  refine openSince_final hSpares'.2.2 hStampedRest.1 hConfigured' (fun c hc => ?_) hOpen
  have hUpper : c.time ≤ intent.nowNs := hBetween c hc _ mem_cons_self
  refine ⟨hAfter c (mem_append_left _ hc), lt_of_le_of_lt (UInt64.le_iff_toNat_le.mp hUpper) hNow⟩

def cooling : ExecutionGateway := init 10 (fun _ => .default) { coolDownNs := 1000 } none

def buildAt (nowNs : UInt64) (id : UInt32) : GatewayCall :=
  ⟨.tryBuild { qty := 1, price := 1, alphaTimestampNs := nowNs, nowNs := nowNs, clientOrderId := id } {}, {}⟩

def repeatedId : List GatewayCall := [buildAt 5000 7, buildAt 5001 7, buildAt 6000 8]

theorem run_honoursCoolDown_repeatedId : Trips (buildAt 5001 7) (Run.final step [buildAt 5000 7] cooling) ∧
    HonoursCoolDown 1000 repeatedId cooling :=
  ⟨by decide +kernel, run_honoursCoolDown 10 (fun _ => .default) { coolDownNs := 1000 } none repeatedId 1000
    (by decide) ⟨rfl, rfl⟩ (by decide) (by decide) (by decide +kernel)⟩

def strayFillAt (nowNs : UInt64) : GatewayCall := ⟨.executionReport 0 ⟨9, 1, false⟩, { nowNs := nowNs }⟩

/-- The stray fill trips the breaker at 5000 but stores the time 0; the breaker lets the submission at 5001 through. -/
theorem strayFill_not_honoured : Trips (strayFillAt 5000) cooling ∧
    ((Run.final step [strayFillAt 5000] cooling).breaker.allow 5001).1 = true ∧
    ¬ HonoursCoolDown 1000 [strayFillAt 5000, buildAt 5001 7] cooling := by
  have hTrips : Trips (strayFillAt 5000) cooling := by decide +kernel
  have hAllowed : ((Run.final step [strayFillAt 5000] cooling).breaker.allow 5001).1 = true := by decide +kernel
  refine ⟨hTrips, hAllowed, fun hHonours => ?_⟩
  have hRefused := hHonours [] (strayFillAt 5000) [] {}
    { qty := 1, price := 1, alphaTimestampNs := 5001, nowNs := 5001, clientOrderId := 7 } {} [] rfl hTrips (by decide)
  exact absurd (hAllowed.symm.trans hRefused) (by decide)

end ExecutionGateway

end LuvFlicker
