import LuvFlicker.Safety.Controls

/-!
# Calls of the circuit breaker as atomic operations

Each call is a sequence of loads, stores and read-modify-write operations on the
atomics of the breaker, and other threads may come in between any two of them.
-/

namespace LuvFlicker.BreakerThreads

open CircuitBreaker

structure SharedBreaker extends CircuitBreaker where
  halfOpenSuccessesNeeded : UInt32 := 1
  tripped : Bool := false
  deriving DecidableEq

inductive TripStage where
  | stamp
  | state
  | flag
  deriving DecidableEq

inductive ResetStage where
  | failures
  | rejections
  | probes
  | successes
  | stamp
  | state
  | flag
  deriving DecidableEq

inductive Pc where
  | idle
  | allowState (nowNs : UInt64)
  | closedLimits (nowNs : UInt64)
  | windowStart (nowNs : UInt64)
  | storeStart (nowNs : UInt64)
  | storeCount
  | countWindow (nowNs : UInt64)
  | openTrip (nowNs : UInt64)
  | openSwap
  | clearProbes
  | clearSuccesses
  | drawProbe
  | failureState (timestampNs : UInt64)
  | failureLoad (timestampNs : UInt64)
  | failureSwap (timestampNs : UInt64) (failures : UInt32)
  | successState
  | successCount
  | successFailures
  | successRejections
  | trip (stage : TripStage) (timestampNs : UInt64) (result : Option Bool)
  | reset (stage : ResetStage) (result : Option Bool)
  deriving DecidableEq

structure After where
  pc : Pc := .idle
  result : Option Bool := none
  shared : SharedBreaker

variable (timestampNs : UInt64)

def execTrip (result : Option Bool) (s : SharedBreaker) : TripStage → After
  | .stamp => { pc := .trip .state timestampNs result, shared := { s with tripTimestampNs := timestampNs } }
  | .state => { pc := .trip .flag timestampNs result, shared := { s with state := .kOpen } }
  | .flag => { result := result, shared := { s with tripped := true } }

def execReset (result : Option Bool) (s : SharedBreaker) : ResetStage → After
  | .failures => { pc := .reset .rejections result, shared := { s with failures := 0 } }
  | .rejections => { pc := .reset .probes result, shared := { s with consecutiveRejections := 0 } }
  | .probes => { pc := .reset .successes result, shared := { s with halfOpenProbesIssued := 0 } }
  | .successes => { pc := .reset .stamp result, shared := { s with halfOpenSuccesses := 0 } }
  | .stamp => { pc := .reset .state result, shared := { s with tripTimestampNs := 0 } }
  | .state => { pc := .reset .flag result, shared := { s with state := .kClosed } }
  | .flag => { result := result, shared := { s with tripped := false } }

def failuresCounted (failures : UInt32) (s : SharedBreaker) : After :=
  if failures + 1 ≥ s.maxFailures then { pc := .trip .stamp timestampNs none, shared := s } else { shared := s }

def failuresLoaded (failures : UInt32) (s : SharedBreaker) : After :=
  if failures < s.maxFailures then { pc := .failureSwap timestampNs failures, shared := s }
  else failuresCounted timestampNs failures s

def exec (spurious : Bool) (pc : Pc) (s : SharedBreaker) : After :=
  match pc with
  | .idle => { shared := s }
  | .allowState nowNs =>
    match s.state with
    | .kClosed => { pc := .closedLimits nowNs, shared := s }
    | .kOpen => { pc := .openTrip nowNs, shared := s }
    | .kHalfOpen => { pc := .drawProbe, shared := s }
  | .closedLimits nowNs =>
    if s.maxRatePerWindow > 0 ∧ s.rateWindowNs > 0 ∧ nowNs > 0 then { pc := .windowStart nowNs, shared := s }
    else { result := some true, shared := s }
  | .windowStart nowNs =>
    if nowNs < s.windowStartNs ∨ nowNs - s.windowStartNs ≥ s.rateWindowNs then
      { pc := .storeStart nowNs, shared := s }
    else { pc := .countWindow nowNs, shared := s }
  | .storeStart nowNs => { pc := .storeCount, shared := { s with windowStartNs := nowNs } }
  | .storeCount => { result := some true, shared := { s with windowCount := 1 } }
  | .countWindow nowNs =>
    let counted := { s with windowCount := s.windowCount + 1 }
    if counted.windowCount > s.maxRatePerWindow then { pc := .trip .stamp nowNs (some false), shared := counted }
    else { result := some true, shared := counted }
  | .openTrip nowNs =>
    if s.coolDownNs > 0 ∧ nowNs > 0 ∧ nowNs ≥ s.tripTimestampNs ∧ nowNs - s.tripTimestampNs ≥ s.coolDownNs then
      if s.halfOpenEnabled then { pc := .openSwap, shared := s }
      else { pc := .reset .failures (some true), shared := s }
    else { result := some false, shared := s }
  | .openSwap =>
    if s.state = .kOpen then { pc := .clearProbes, shared := { s with state := .kHalfOpen } }
    else { result := some false, shared := s }
  | .clearProbes => { pc := .clearSuccesses, shared := { s with halfOpenProbesIssued := 0 } }
  | .clearSuccesses => { pc := .drawProbe, shared := { s with halfOpenSuccesses := 0 } }
  | .drawProbe =>
    { result := some (s.halfOpenProbesIssued < s.halfOpenMaxProbes),
      shared := { s with halfOpenProbesIssued := s.halfOpenProbesIssued + 1 } }
  | .failureState timestampNs =>
    if s.state = .kHalfOpen then { pc := .trip .stamp timestampNs none, shared := s }
    else { pc := .failureLoad timestampNs, shared := s }
  | .failureLoad timestampNs => failuresLoaded timestampNs s.failures s
  | .failureSwap timestampNs failures =>
    if s.failures = failures ∧ spurious = false then
      failuresCounted timestampNs failures { s with failures := failures + 1 }
    else failuresLoaded timestampNs s.failures s
  | .successState =>
    match s.state with
    | .kClosed => { pc := .successFailures, shared := s }
    | .kOpen => { shared := s }
    | .kHalfOpen => { pc := .successCount, shared := s }
  | .successCount =>
    let counted := { s with halfOpenSuccesses := s.halfOpenSuccesses + 1 }
    if counted.halfOpenSuccesses ≥ s.halfOpenSuccessesNeeded then
      { pc := .reset .failures none, shared := counted }
    else { shared := counted }
  | .successFailures => { pc := .successRejections, shared := { s with failures := 0 } }
  | .successRejections => { shared := { s with consecutiveRejections := 0 } }
  | .trip stage timestampNs result => execTrip timestampNs result s stage
  | .reset stage result => execReset result s stage

/-! ## A call alone -/

inductive Alone : Pc → SharedBreaker → After → Prop
  | last {pc : Pc} {s : SharedBreaker} {after : After} (hExec : exec false pc s = after) (hIdle : after.pc = .idle) :
      Alone pc s after
  | step {pc : Pc} {s : SharedBreaker} {next after : After} (hExec : exec false pc s = next)
      (hRest : Alone next.pc next.shared after) : Alone pc s after

theorem alone_trip {result : Option Bool} {s : SharedBreaker} : Alone (.trip .stamp timestampNs result) s
      { result := result, shared := { s with tripTimestampNs := timestampNs, state := .kOpen, tripped := true } } :=
  .step rfl (.step rfl (.last rfl rfl))

theorem alone_reset {result : Option Bool} {s : SharedBreaker} : Alone (.reset .failures result) s
      { result := result, shared := { s with toCircuitBreaker := s.reset, tripped := false } } :=
  .step rfl (.step rfl (.step rfl (.step rfl (.step rfl (.step rfl (.last rfl rfl))))))

theorem Alone.next {pc pc' : Pc} {s s' : SharedBreaker} {after : After}
    (hExec : exec false pc s = { pc := pc', shared := s' }) (hRest : Alone pc' s' after) : Alone pc s after :=
  .step hExec hRest

/-- The end of a call that does what the breaker does in one step. -/
def Matches (out : Bool × CircuitBreaker) (after : After) : Prop :=
  after.result = some out.1 ∧ after.shared.toCircuitBreaker = out.2

theorem alone_allowClosed {nowNs : UInt64} (s : SharedBreaker) :
    ∃ after, Alone (.closedLimits nowNs) s after ∧ Matches (s.allowClosed nowNs) after := by
  rw [allowClosed]
  split
  next hLimited =>
    split
    next hNew => exact ⟨_, .step (if_pos hLimited) (.step (if_pos hNew) (.step rfl (.last rfl rfl))), rfl, rfl⟩
    dsimp only
    split
    next hOld hOver =>
      exact ⟨_, .step (if_pos hLimited) (.step (if_neg hOld) (.step (if_pos hOver) (alone_trip _))), rfl, rfl⟩
    next hOld hWithin =>
      exact ⟨_, .step (if_pos hLimited) (.step (if_neg hOld) (.last (if_neg hWithin) rfl)), rfl, rfl⟩
  next hUnlimited => exact ⟨_, .last (if_neg hUnlimited) rfl, rfl, rfl⟩

variable {s : SharedBreaker}

theorem alone_allowOpen {nowNs : UInt64} (hState : s.state = .kOpen) :
    ∃ after, Alone (.openTrip nowNs) s after ∧ Matches (s.allowOpen nowNs) after := by
  rw [allowOpen]
  split
  next hCooled =>
    split
    next hEnabled =>
      exact ⟨_, .step ((if_pos hCooled).trans (if_pos hEnabled))
        (.step (if_pos hState) (.step rfl (.step rfl (.last rfl rfl)))), rfl, rfl⟩
    next hDisabled => exact ⟨_, .step ((if_pos hCooled).trans (if_neg hDisabled)) alone_reset, rfl, rfl⟩
  next hHot => exact ⟨_, .last (if_neg hHot) rfl, rfl, rfl⟩

theorem alone_allow (nowNs : UInt64) (s : SharedBreaker) :
    ∃ after, Alone (.allowState nowNs) s after ∧ Matches (s.allow nowNs) after := by
  rw [allow]
  cases hState : s.state with
  | kClosed =>
    obtain ⟨after, hAlone, hMatches⟩ := alone_allowClosed s
    exact ⟨_, .next (by rw [exec, hState]) hAlone, hMatches⟩
  | kOpen =>
    obtain ⟨after, hAlone, hMatches⟩ := alone_allowOpen hState
    exact ⟨_, .next (by rw [exec, hState]) hAlone, hMatches⟩
  | kHalfOpen =>
    have hProbe : Alone .drawProbe s _ := .last rfl rfl
    exact ⟨_, .next (by rw [exec, hState]) hProbe, rfl, rfl⟩

theorem alone_failuresCounted {pc : Pc} {timestampNs : UInt64} {failures : UInt32}
    {counted : SharedBreaker} (hExec : exec false pc s = failuresCounted timestampNs failures counted) :
    ∃ after, Alone pc s after ∧ after.shared.toCircuitBreaker =
      if failures + 1 ≥ counted.maxFailures then counted.trip timestampNs else counted.toCircuitBreaker := by
  split
  next hMany => exact ⟨_, .step (hExec.trans (if_pos hMany)) (alone_trip _), rfl⟩
  next hFew => exact ⟨_, .last (hExec.trans (if_neg hFew)) rfl, rfl⟩

theorem alone_recordFailure (s : SharedBreaker) : ∃ after, Alone (.failureState timestampNs) s after ∧
      after.shared.toCircuitBreaker = s.recordFailure timestampNs := by
  rw [recordFailure]
  split
  next hHalfOpen => exact ⟨_, .step (if_pos hHalfOpen) (alone_trip _), rfl⟩
  next hNot =>
    by_cases hRoom : s.failures < s.maxFailures
    · have hSwap : exec false (.failureSwap timestampNs s.failures) s = failuresCounted timestampNs s.failures _ :=
        if_pos ⟨rfl, rfl⟩
      obtain ⟨after, hAlone, hAfter⟩ := alone_failuresCounted hSwap
      refine ⟨_, .step (if_neg hNot) (.step (if_pos hRoom) hAlone), ?_⟩
      rw [hAfter, if_pos hRoom]
    · have hLoad : exec false (.failureLoad timestampNs) s = failuresCounted timestampNs s.failures s := if_neg hRoom
      obtain ⟨after, hAlone, hAfter⟩ := alone_failuresCounted hLoad
      refine ⟨_, .step (if_neg hNot) hAlone, ?_⟩
      rw [hAfter, if_neg hRoom]

end LuvFlicker.BreakerThreads
