import LuvFlicker.Lib.Run
import LuvFlicker.Safety.BreakerThreads

/-!
# The probes of a half-open breaker

The breaker turns half-open before the counter of its probes is cleared. A probe
drawn in between is forgotten, and one more than allowed is let through; a reset
that clears the counter before it closes the breaker does the same.
-/

namespace LuvFlicker.BreakerThreads

open Run

universe u

def Pc.lastUnprobed : Pc → Bool
  | .closedLimits _ | .storeCount | .countWindow _ | .trip .flag _ (some true) | .reset .flag (some true) => true
  | _ => false

section

variable (timestampNs : UInt64) (failures : UInt32) (s : SharedBreaker)

theorem failuresCounted_eq :
    (failuresCounted timestampNs failures s).result = none ∧ (failuresCounted timestampNs failures s).shared = s := by
  rw [failuresCounted]
  split
  · exact ⟨rfl, rfl⟩
  · exact ⟨rfl, rfl⟩

theorem failuresLoaded_eq :
    (failuresLoaded timestampNs failures s).result = none ∧ (failuresLoaded timestampNs failures s).shared = s := by
  rw [failuresLoaded]
  split
  · exact ⟨rfl, rfl⟩
  · exact failuresCounted_eq _ _ s

end

variable {spurious : Bool}

theorem unprobed_of_result {pc : Pc} {s : SharedBreaker}
    (h : (exec spurious pc s).result = some true) : pc = .drawProbe ∨ pc.lastUnprobed = true := by
  cases pc with
  | drawProbe => exact .inl rfl
  | closedLimits | storeCount | countWindow => exact .inr rfl
  | trip stage timestampNs result =>
    cases stage with
    | stamp | state => cases h
    | flag =>
      obtain rfl : result = some true := h
      exact .inr rfl
  | reset stage result =>
    cases stage with
    | flag =>
      obtain rfl : result = some true := h
      exact .inr rfl
    | _ => cases h
  | failureLoad timestampNs => cases (failuresLoaded_eq timestampNs s.failures s).1.symm.trans h
  | failureSwap timestampNs failures =>
    rw [exec] at h
    split at h
    · cases (failuresCounted_eq _ _ _).1.symm.trans h
    · cases (failuresLoaded_eq _ _ _).1.symm.trans h
  | openTrip nowNs =>
    rw [exec] at h
    split at h
    · split at h
      · cases h
      · cases h
    · cases h
  | idle | storeStart | clearProbes | clearSuccesses | successFailures | successRejections => cases h
  | allowState | successState =>
    rw [exec] at h
    split at h
    all_goals cases h
  | windowStart | openSwap | failureState | successCount =>
    rw [exec] at h
    split at h
    · cases h
    · cases h

theorem maxProbes_exec (spurious : Bool) (pc : Pc) (s : SharedBreaker) :
    (exec spurious pc s).shared.halfOpenMaxProbes = s.halfOpenMaxProbes := by
  cases pc with
  | failureLoad timestampNs => exact congrArg (·.halfOpenMaxProbes) (failuresLoaded_eq _ _ s).2
  | failureSwap timestampNs failures =>
    rw [exec]
    split
    · rw [(failuresCounted_eq _ _ _).2]
    · rw [(failuresLoaded_eq _ _ _).2]
  | trip stage timestampNs result | reset stage result => cases stage <;> rfl
  | openTrip nowNs =>
    rw [exec]
    split
    · split <;> rfl
    · rfl
  | _ =>
    first
    | rfl
    | rw [exec]; split <;> rfl

inductive Call where
  | allow (nowNs : UInt64)
  | recordSuccess
  | recordFailure (timestampNs : UInt64)

def Call.entry : Call → Pc
  | .allow nowNs => .allowState nowNs
  | .recordSuccess => .successState
  | .recordFailure timestampNs => .failureState timestampNs

inductive ThreadOp (ι : Type u) where
  | call (thread : ι) (request : Call)
  | exec (thread : ι) (spurious : Bool)

/-- The breaker and its threads, with the number of probes drawn and of calls let through since the breaker last turned
half-open. -/
structure Threads (ι : Type u) where
  shared : SharedBreaker
  pcs : ι → Pc := fun _ => .idle
  drawn : Nat := 0
  granted : Nat := 0

variable {ι : Type u} [DecidableEq ι]

namespace ThreadOp

def step (op : ThreadOp ι) (w : Threads ι) : Option Bool × Threads ι :=
  match op with
  | .call thread request =>
    (none, if w.pcs thread = .idle then { w with pcs := Function.update w.pcs thread request.entry } else w)
  | .exec thread spurious =>
    let after := BreakerThreads.exec spurious (w.pcs thread) w.shared
    let pcs := Function.update w.pcs thread after.pc
    if w.shared.state ≠ .kHalfOpen ∧ after.shared.state = .kHalfOpen then
      (after.result, { shared := after.shared, pcs := pcs, drawn := 0, granted := 0 })
    else
      (after.result,
        { shared := after.shared
          pcs := pcs
          drawn := if w.pcs thread = .drawProbe then w.drawn + 1 else w.drawn
          granted :=
            if after.result = some true ∧ after.shared.state = .kHalfOpen then w.granted + 1 else w.granted })

/-- While the breaker is half-open, a probe is drawn only from a counter that has counted all those drawn before, and no
call ends that saw the breaker closed. -/
def Orderly (op : ThreadOp ι) (w : Threads ι) : Prop :=
  match op with
  | .call _ _ => True
  | .exec thread _ =>
    w.shared.state = .kHalfOpen → (w.pcs thread = .drawProbe → w.drawn ≤ w.shared.halfOpenProbesIssued.toNat) ∧
        (w.pcs thread).lastUnprobed = false

instance decidableOrderly : ∀ (op : ThreadOp ι) (w : Threads ι), Decidable (op.Orderly w)
  | .call _ _, _ => isTrue trivial
  | .exec thread _, w =>
    inferInstanceAs (Decidable (w.shared.state = .kHalfOpen →
      (w.pcs thread = .drawProbe → w.drawn ≤ w.shared.halfOpenProbesIssued.toNat) ∧
        (w.pcs thread).lastUnprobed = false))

end ThreadOp

namespace Threads

/-- At most the allowed number of calls has been let through since the breaker turned half-open. -/
def ProbesBounded (maxProbes : UInt32) (w : Threads ι) : Prop :=
  w.shared.state = .kHalfOpen → w.granted ≤ maxProbes.toNat

instance decidableProbesBounded (maxProbes : UInt32) (w : Threads ι) : Decidable (w.ProbesBounded maxProbes) :=
  inferInstanceAs (Decidable (w.shared.state = .kHalfOpen → w.granted ≤ maxProbes.toNat))

structure Inv (maxProbes : UInt32) (w : Threads ι) : Prop where
  max : w.shared.halfOpenMaxProbes = maxProbes
  granted_le : w.shared.state = .kHalfOpen → w.granted ≤ w.drawn ∧ w.granted ≤ maxProbes.toNat

variable {maxProbes : UInt32} {w : Threads ι}

theorem Inv.exec (h : Inv maxProbes w) {thread : ι}
    (hOrderly : (ThreadOp.exec thread spurious).Orderly w) : Inv maxProbes ((ThreadOp.exec thread spurious).step w).2 := by
  rw [ThreadOp.step]
  have hMax := (maxProbes_exec spurious (w.pcs thread) _).trans h.max
  have hResult := @unprobed_of_result spurious (w.pcs thread) w.shared
  generalize hAfter : BreakerThreads.exec spurious (w.pcs thread) w.shared = after at hMax hResult
  split
  · exact ⟨hMax, fun _ => ⟨Nat.le_refl 0, Nat.zero_le _⟩⟩
  rename_i hStays
  refine ⟨hMax, fun hHalfOpen => ?_⟩
  have hBefore : w.shared.state = .kHalfOpen := not_not.mp fun hNot => hStays ⟨hNot, hHalfOpen⟩
  obtain ⟨hProbe, hUnprobed⟩ := hOrderly hBefore
  obtain ⟨_, hBound⟩ := h.granted_le hBefore
  dsimp only
  by_cases hTrue : after.result = some true
  · -- the call was let through, by a probe from a counter that has counted all the others
    have hDraw := (hResult hTrue).resolve_right fun hLast => by
      rw [hUnprobed] at hLast
      cases hLast
    have hCounted := hProbe hDraw
    rw [hDraw] at hAfter
    rw [if_pos ⟨hTrue, hHalfOpen⟩, if_pos hDraw]
    have hLess : w.shared.halfOpenProbesIssued < w.shared.halfOpenMaxProbes := by
      rw [← hAfter] at hTrue
      exact of_decide_eq_true (Option.some.inj hTrue)
    rw [h.max, UInt32.lt_iff_toNat_lt] at hLess
    omega
  · rw [if_neg fun hBoth => hTrue hBoth.1]
    refine ⟨?_, hBound⟩
    split <;> omega

theorem Inv.step (h : Inv maxProbes w) {op : ThreadOp ι} (hOrderly : op.Orderly w) : Inv maxProbes (op.step w).2 := by
  cases op with
  | call thread request =>
    rw [ThreadOp.step]
    split
    · exact ⟨h.max, h.granted_le⟩
    · exact h
  | exec thread spurious => exact h.exec hOrderly

end Threads

/-- From any breaker that is not half-open, with any number of threads: the calls let through while the breaker is
half-open are at most the probes allowed, in every orderly run. -/
theorem probesBounded_of_orderly (s : SharedBreaker) (hStart : s.state ≠ .kHalfOpen) (ops : List (ThreadOp ι))
    (hOrderly : Always ThreadOp.step ThreadOp.Orderly ops { shared := s }) :
    (final ThreadOp.step ops { shared := s }).ProbesBounded s.halfOpenMaxProbes := by
  have hInv := hOrderly.invariant (Threads.Inv _) (fun _ _ hOp h => h.step hOp)
    ⟨rfl, fun hHalfOpen => absurd hHalfOpen hStart⟩
  exact fun hHalfOpen => (hInv.granted_le hHalfOpen).2

def oneProbeBreaker : SharedBreaker where
  coolDownNs := 1
  halfOpenEnabled := true
  halfOpenMaxProbes := 1

def opening : List (ThreadOp Bool) := .call false (.recordFailure 0) :: List.replicate 6 (.exec false false)

def oneProbe : List (ThreadOp Bool) := opening ++ .call false (.allow 5) :: List.replicate 6 (.exec false false)

theorem oneProbe_bounded : (final ThreadOp.step oneProbe { shared := oneProbeBreaker }).ProbesBounded 1 :=
  probesBounded_of_orderly oneProbeBreaker (by decide) oneProbe (by decide +kernel)

def twoProbes : List (ThreadOp Bool) := opening ++
    [.call false (.allow 5), .exec false false, .exec false false, .exec false false,
      .call true (.allow 5), .exec true false, .exec true false,
      .exec false false, .exec false false, .exec false false]

theorem twoProbes_exceed :
    (run ThreadOp.step twoProbes { shared := oneProbeBreaker }).1.filter Option.isSome = [some true, some true] ∧
    ¬ (final ThreadOp.step twoProbes { shared := oneProbeBreaker }).ProbesBounded 1 := by
  decide +kernel

end LuvFlicker.BreakerThreads
