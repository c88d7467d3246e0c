import LuvFlicker.Lib.Run

/-!
# The hardware clock

A call that finds its own time not ahead of the last one answers with the last one
plus one, and does not record that.
-/

namespace LuvFlicker.HardwareClock

open Run Function List

structure Calibration where
  nsPerCycleScaled : UInt64
  baseWallNs : UInt64
  baseCycle : UInt64

def calibrate (wall₀ wall₁ c₀ c₁ : UInt64) : Calibration :=
  let elapsedNs := wall₁ - wall₀
  let cyclesDelta := c₁ - c₀
  ⟨if elapsedNs > 0 ∧ cyclesDelta > 0 then (elapsedNs <<< 16) / cyclesDelta else (1 : UInt64) <<< 16, wall₀, c₀⟩

def Calibration.candidateNs (c : Calibration) (currentCycle : UInt64) : UInt64 :=
  let deltaCycles := if currentCycle ≥ c.baseCycle then currentCycle - c.baseCycle else 0
  c.baseWallNs + (deltaCycles * c.nsPerCycleScaled) >>> 16

inductive Pc where
  | idle
  | load (candidateNs : UInt64)
  | compare (candidateNs prev : UInt64)

/-- The clock and its threads, with the values returned so far and how many there were when each call began. -/
structure Clock where
  lastMonotonicNs : UInt64
  threads : Nat → Pc := fun _ => .idle
  returned : List UInt64 := []
  begun : Nat → Nat := fun _ => 0

inductive Step where
  | begin (thread : Nat) (currentCycle : UInt64)
  | load (thread : Nat)
  | compare (thread : Nat) (spurious : Bool)

namespace Clock

variable (c : Calibration)

def start : Clock := { lastMonotonicNs := c.baseWallNs }

def setPc (thread : Nat) (pc : Pc) (k : Clock) : Clock := { k with threads := update k.threads thread pc }

def answer (thread : Nat) (value : UInt64) (k : Clock) : Option UInt64 × Clock :=
  (some value, { k.setPc thread .idle with returned := k.returned ++ [value] })

def step (s : Step) (k : Clock) : Option UInt64 × Clock :=
  match s with
  | .begin thread currentCycle =>
    match k.threads thread with
    | .idle =>
      (none, { k.setPc thread (.load (c.candidateNs currentCycle)) with
        begun := update k.begun thread k.returned.length })
    | .load _ | .compare .. => (none, k)
  | .load thread =>
    match k.threads thread with
    | .load candidateNs => (none, k.setPc thread (.compare candidateNs k.lastMonotonicNs))
    | .idle | .compare .. => (none, k)
  | .compare thread spurious =>
    match k.threads thread with
    | .compare candidateNs prev =>
      if candidateNs > prev then
        if prev = k.lastMonotonicNs ∧ ¬ spurious then { k with lastMonotonicNs := candidateNs }.answer thread candidateNs
        else (none, k.setPc thread (.compare candidateNs k.lastMonotonicNs))
      else k.answer thread (prev + 1)
    | .idle | .load _ => (none, k)

/-- A value is new, and greater than those of the calls that were over when its call began. -/
def Monotonic (s : Step) (k : Clock) : Prop :=
  match s with
  | .compare thread _ =>
    ∀ value, (k.step c s).1 = some value → value ∉ k.returned ∧ ∀ u ∈ k.returned.take (k.begun thread), u < value
  | .begin .. | .load _ => True

def Ahead (s : Step) (k : Clock) : Prop :=
  match s with
  | .compare thread _ => ∀ candidateNs prev, k.threads thread = .compare candidateNs prev → prev < candidateNs
  | .begin .. | .load _ => True

end Clock

open Clock

variable {c : Calibration} {s : Step} {k : Clock}

theorem step_of_ahead (hAhead : Ahead s k) (h : ∀ u ∈ k.returned, u ≤ k.lastMonotonicNs) :
    Monotonic c s k ∧ ∀ u ∈ (k.step c s).2.returned, u ≤ (k.step c s).2.lastMonotonicNs := by
  cases s with
  | begin thread currentCycle | load thread =>
    refine ⟨trivial, ?_⟩
    rw [step]
    split <;> exact h
  | compare thread spurious =>
    cases hPc : k.threads thread with
    | idle | load =>
      simp only [Monotonic, step, hPc]
      exact ⟨nofun, h⟩
    | compare candidateNs prev =>
      have hLt := hAhead _ prev hPc
      simp only [Monotonic, step, hPc, gt_iff_lt]
      split_ifs with hSwap
      · have hAll : ∀ u ∈ k.returned, u < candidateNs := fun u hMem =>
          UInt64.lt_of_le_of_lt (h u hMem) (hSwap.1 ▸ hLt)
        refine ⟨?_, ?_⟩
        · rintro _ ⟨⟩
          exact ⟨fun hMem => UInt64.lt_irrefl _ (hAll _ hMem), fun u hMem => hAll u (mem_of_mem_take hMem)⟩
        · refine forall_mem_append.mpr ⟨fun u hMem => UInt64.le_of_lt (hAll u hMem), ?_⟩
          exact forall_mem_singleton.mpr (UInt64.le_refl _)
      · exact ⟨nofun, h⟩

/-- The answers are strictly monotonic as long as every call finds its time ahead of the last one. -/
theorem monotonic_of_ahead (c : Calibration) (steps : List Step)
    (hAhead : Always (Clock.step c) Ahead steps (start c)) :
    Always (Clock.step c) (Monotonic c) steps (start c) := by
  refine (hAhead.iff_of_invariant (fun k => ∀ u ∈ k.returned, u ≤ k.lastMonotonicNs) (fun s k hAhead h => ?_)
    (fun s k hAhead _ h => ?_) (forall_mem_nil _)).mp hAhead
  · exact iff_of_true hAhead (step_of_ahead hAhead h).1
  · exact (step_of_ahead hAhead h).2

def sampled : Calibration := calibrate 1000 2000 0 1000

/-- Two threads, one nanosecond apart. -/
theorem monotonic_of_ahead_two : Always (Clock.step sampled) (Monotonic sampled)
    [.begin 0 1, .load 0, .compare 0 false, .begin 1 2, .load 1, .compare 1 false] (start sampled) := by
  refine monotonic_of_ahead sampled _ ⟨trivial, trivial, ?_, trivial, trivial, ?_, trivial⟩
  all_goals
    rintro _ _ ⟨⟩
    decide

/-- Two calls of one thread at the same reading. -/
theorem equal_readings_repeat : (run (Clock.step sampled)
    [.begin 0 0, .load 0, .compare 0 false, .begin 0 0, .load 0, .compare 0 false] (start sampled)).1 =
      [none, none, some 1001, none, none, some 1001] := by
  decide

end LuvFlicker.HardwareClock
