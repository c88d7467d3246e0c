import Mathlib.Tactic

/-!
# Admission controls

The limit on pending orders and the circuit breaker, as the thread that owns the
execution gateway drives them: every atomic update takes effect at once, and a
compare-exchange loop ends with its first round.
-/

namespace LuvFlicker

structure OrderRateLimiter where
  maxPending : Nat := 10000
  pending : Nat := 0
  deriving DecidableEq, Repr

namespace OrderRateLimiter

def tryAcquire (r : OrderRateLimiter) : Bool × OrderRateLimiter :=
  if r.pending < r.maxPending then (true, { r with pending := r.pending + 1 }) else (false, r)

def release (r : OrderRateLimiter) : OrderRateLimiter :=
  if r.pending ≠ 0 then { r with pending := r.pending - 1 } else r

variable {r : OrderRateLimiter}

theorem tryAcquire_eq_true (h : r.tryAcquire.1 = true) : r.tryAcquire.2 = { r with pending := r.pending + 1 } := by
  unfold tryAcquire at h ⊢
  split_ifs at h ⊢ with hRoom
  rfl

theorem tryAcquire_eq_false (h : r.tryAcquire.1 = false) : r.tryAcquire.2 = r := by
  unfold tryAcquire at h ⊢
  split_ifs at h ⊢ with hRoom
  rfl

@[simp]
theorem release_pending (r : OrderRateLimiter) : r.release.pending = r.pending - 1 := by
  unfold release
  split_ifs with h
  · rfl
  · omega

end OrderRateLimiter

inductive CircuitBreakerState where
  | kClosed
  | kOpen
  | kHalfOpen
  deriving DecidableEq, Repr

structure CircuitBreaker where
  maxFailures : UInt32 := 1
  coolDownNs : UInt64 := 0
  tripTimestampNs : UInt64 := 0
  failures : UInt32 := 0
  consecutiveRejections : UInt32 := 0
  maxConsecutiveRejections : UInt32 := 0
  halfOpenEnabled : Bool := false
  halfOpenMaxProbes : UInt32 := 1
  halfOpenProbesIssued : UInt32 := 0
  halfOpenSuccesses : UInt32 := 0
  maxRatePerWindow : UInt32 := 0
  rateWindowNs : UInt64 := 0
  windowStartNs : UInt64 := 0
  windowCount : UInt32 := 0
  state : CircuitBreakerState := .kClosed
  deriving DecidableEq, Repr

namespace CircuitBreaker

variable (b : CircuitBreaker)

section

variable (timestampNs : UInt64)

def trip : CircuitBreaker := { b with tripTimestampNs := timestampNs, state := .kOpen }

def reset : CircuitBreaker :=
  { b with
    failures := 0, consecutiveRejections := 0, halfOpenProbesIssued := 0, halfOpenSuccesses := 0,
    tripTimestampNs := 0, state := .kClosed }

def recordFailure : CircuitBreaker :=
  if b.state = .kHalfOpen then b.trip timestampNs
  else
    let counted := if b.failures < b.maxFailures then { b with failures := b.failures + 1 } else b
    if b.failures + 1 ≥ b.maxFailures then counted.trip timestampNs else counted

def recordRejection : CircuitBreaker :=
  if b.maxConsecutiveRejections > 0 then
    let counted := { b with consecutiveRejections := b.consecutiveRejections + 1 }
    if counted.consecutiveRejections ≥ b.maxConsecutiveRejections then counted.trip timestampNs
    else counted.recordFailure timestampNs
  else b.recordFailure timestampNs

end

def allowProbe : Bool × CircuitBreaker :=
  (b.halfOpenProbesIssued < b.halfOpenMaxProbes, { b with halfOpenProbesIssued := b.halfOpenProbesIssued + 1 })

def allowClosed (nowNs : UInt64) : Bool × CircuitBreaker :=
  if b.maxRatePerWindow > 0 ∧ b.rateWindowNs > 0 ∧ nowNs > 0 then
    if nowNs < b.windowStartNs ∨ nowNs - b.windowStartNs ≥ b.rateWindowNs then
      (true, { b with windowStartNs := nowNs, windowCount := 1 })
    else
      let counted := { b with windowCount := b.windowCount + 1 }
      if counted.windowCount > b.maxRatePerWindow then (false, counted.trip nowNs) else (true, counted)
  else (true, b)

def allowOpen (nowNs : UInt64) : Bool × CircuitBreaker :=
  if b.coolDownNs > 0 ∧ nowNs > 0 ∧ nowNs ≥ b.tripTimestampNs ∧ nowNs - b.tripTimestampNs ≥ b.coolDownNs then
    if b.halfOpenEnabled then
      allowProbe { b with state := .kHalfOpen, halfOpenProbesIssued := 0, halfOpenSuccesses := 0 }
    else (true, b.reset)
  else (false, b)

def allow (nowNs : UInt64) : Bool × CircuitBreaker :=
  match b.state with
  | .kClosed => b.allowClosed nowNs
  | .kOpen => b.allowOpen nowNs
  | .kHalfOpen => b.allowProbe

end CircuitBreaker

end LuvFlicker
