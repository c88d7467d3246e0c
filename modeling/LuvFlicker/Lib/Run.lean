import Mathlib.Tactic

/-!
# Runs of a deterministic component

A component takes an input in a state and answers with an output and a new state.
-/

namespace LuvFlicker.Run

open List

universe u v w x

variable {σ : Type u} {τ : Type x} {ι : Type v} {ο : Type w}

def run (step : ι → σ → ο × σ) : List ι → σ → List ο × σ
  | [], s => ([], s)
  | i :: rest, s => ((step i s).1 :: (run step rest (step i s).2).1, (run step rest (step i s).2).2)

def history {η : Type x} (step : ι → σ → ο × σ) (record : ι → σ → ο → η → η) : List ι → σ → η → η
  | [], _, h => h
  | i :: rest, s, h => history step record rest (step i s).2 (record i s (step i s).1 h)

def final (step : ι → σ → ο × σ) (inputs : List ι) (s : σ) : σ := (run step inputs s).2

def Always (step : ι → σ → ο × σ) (condition : ι → σ → Prop) : List ι → σ → Prop
  | [], _ => True
  | i :: rest, s => condition i s ∧ Always step condition rest (step i s).2

instance decidableAlways (step : ι → σ → ο × σ) (condition : ι → σ → Prop) [∀ i s, Decidable (condition i s)] :
    ∀ inputs s, Decidable (Always step condition inputs s)
  | [], _ => isTrue trivial
  | i :: rest, s =>
    have := decidableAlways step condition rest (step i s).2
    inferInstanceAs (Decidable (condition i s ∧ Always step condition rest (step i s).2))

variable {step : ι → σ → ο × σ} {condition : ι → σ → Prop}

@[simp]
theorem final_nil (s : σ) : final step [] s = s := rfl

@[simp]
theorem final_cons (i : ι) (rest : List ι) (s : σ) : final step (i :: rest) s = final step rest (step i s).2 := rfl

theorem final_append (before rest : List ι) (s : σ) :
    final step (before ++ rest) s = final step rest (final step before s) := by
  induction before generalizing s with
  | nil => rfl
  | cons i before ih => exact ih _

variable {η : Type x}

theorem history_append (record : ι → σ → ο → η → η) (before rest : List ι) (s : σ) (h : η) :
    history step record (before ++ rest) s h =
      history step record rest (final step before s) (history step record before s h) := by
  induction before generalizing s h with
  | nil => rfl
  | cons i before ih => exact ih _ _

theorem always_append (before rest : List ι) (s : σ) : Always step condition (before ++ rest) s ↔
    Always step condition before s ∧ Always step condition rest (final step before s) := by
  induction before generalizing s with
  | nil => exact ⟨fun h => ⟨trivial, h⟩, fun h => h.2⟩
  | cons i before ih => rw [cons_append, Always, ih, Always, final_cons, and_assoc]

theorem always_of_forall (h : ∀ i s, condition i s) (inputs : List ι) (s : σ) : Always step condition inputs s := by
  induction inputs generalizing s with
  | nil => trivial
  | cons i rest ih => exact ⟨h i s, ih _⟩

variable {inputs : List ι}

theorem always_of_forall_mem {p : ι → Prop} (h : ∀ i ∈ inputs, p i) (s : σ) :
    Always step (fun i _ => p i) inputs s := by
  induction inputs generalizing s with
  | nil => trivial
  | cons i rest ih =>
    obtain ⟨hHead, hRest⟩ := forall_mem_cons.mp h
    exact ⟨hHead, ih hRest _⟩

variable {s : σ}

theorem Always.mono {condition' : ι → σ → Prop} (hImp : ∀ i s, condition i s → condition' i s)
    (h : Always step condition inputs s) : Always step condition' inputs s := by
  induction inputs generalizing s with
  | nil => trivial
  | cons i rest ih => exact ⟨hImp i s h.1, ih h.2⟩

section

variable (h : Always step condition inputs s) (Inv : σ → Prop)
include h

theorem Always.invariant
    (hStep : ∀ i s, condition i s → Inv s → Inv (step i s).2) (hStart : Inv s) : Inv (final step inputs s) := by
  induction inputs generalizing s with
  | nil => exact hStart
  | cons i rest ih => exact ih h.2 (hStep i s h.1 hStart)

theorem Always.iff_of_invariant {left right : ι → σ → Prop}
    (hIff : ∀ i s, condition i s → Inv s → (left i s ↔ right i s))
    (hStep : ∀ i s, condition i s → right i s → Inv s → Inv (step i s).2) (hStart : Inv s) :
    Always step left inputs s ↔ Always step right inputs s := by
  induction inputs generalizing s with
  | nil => exact Iff.rfl
  | cons i rest ih =>
    have hHere := hIff i s h.1 hStart
    constructor
    · rintro ⟨hLeft, hRest⟩
      have hRight := hHere.mp hLeft
      exact ⟨hRight, (ih h.2 (hStep i s h.1 hRight hStart)).mp hRest⟩
    · rintro ⟨hRight, hRest⟩
      exact ⟨hHere.mpr hRight, (ih h.2 (hStep i s h.1 hRight hStart)).mpr hRest⟩

end

theorem final_invariant {Inv : σ → Prop} (hStep : ∀ i s, Inv s → Inv (step i s).2) (inputs : List ι)
    (hStart : Inv s) : Inv (final step inputs s) := by
  induction inputs generalizing s with
  | nil => exact hStart
  | cons i rest ih => exact ih (hStep i s hStart)

theorem history_invariant {record : ι → σ → ο → η → η} {Inv : σ → η → Prop}
    (hStep : ∀ i s h, Inv s h → Inv (step i s).2 (record i s (step i s).1 h)) (inputs : List ι) {h : η}
    (hStart : Inv s h) : Inv (final step inputs s) (history step record inputs s h) := by
  induction inputs generalizing s h with
  | nil => exact hStart
  | cons i rest ih => exact ih (hStep i s h hStart)

theorem reaches_of_rounds {Inv Goal : σ → Prop} {Fair : List ι → Prop} (measure : σ → Nat)
    (hInv : ∀ i s, Inv s → Inv (step i s).2) (hGoal : ∀ i s, Goal s → Goal (step i s).2)
    (hRound : ∀ round s, Fair round → Inv s → ¬ Goal s →
      Goal (final step round s) ∨ measure (final step round s) < measure s)
    {rounds : List (List ι)} (hFair : ∀ round ∈ rounds, Fair round) (hStart : Inv s)
    (hLength : measure s < rounds.length) : Goal (final step rounds.flatten s) := by
  induction rounds generalizing s with
  | nil => exact absurd hLength (Nat.not_lt_zero _)
  | cons round rounds ih =>
    rw [flatten_cons, final_append]
    by_cases hReached : Goal (final step round s)
    · exact final_invariant hGoal _ hReached
    have hOpen : ¬ Goal s := fun h => hReached (final_invariant hGoal _ h)
    have hLess := (hRound _ s (hFair _ mem_cons_self) hStart hOpen).resolve_left hReached
    rw [length_cons] at hLength
    exact ih (fun r hr => hFair r (mem_cons_of_mem _ hr)) (final_invariant hInv _ hStart) (by omega)

theorem Always.invariant_history (hRun : Always step condition inputs s)
    {record : ι → σ → ο → η → η} (Inv : σ → η → Prop)
    (hStep : ∀ i s h, condition i s → Inv s h → Inv (step i s).2 (record i s (step i s).1 h)) {h : η}
    (hStart : Inv s h) :
    Inv (final step inputs s) (history step record inputs s h) := by
  induction inputs generalizing s h with
  | nil => exact hStart
  | cons i rest ih => exact ih hRun.2 (hStep i s h hRun.1 hStart)

theorem Always.simulates {step' : ι → τ → ο × τ} {R : σ → τ → Prop}
    (hStep : ∀ i s t, condition i s → R s t → (step i s).1 = (step' i t).1 ∧ R (step i s).2 (step' i t).2)
    {t : τ} (h : Always step condition inputs s) (hStart : R s t) :
    (run step inputs s).1 = (run step' inputs t).1 ∧ R (final step inputs s) (final step' inputs t) := by
  induction inputs generalizing s t with
  | nil => exact ⟨rfl, hStart⟩
  | cons i rest ih =>
    obtain ⟨hOutput, hNext⟩ := hStep i s t h.1 hStart
    obtain ⟨hOutputs, hEnd⟩ := ih h.2 hNext
    refine ⟨?_, hEnd⟩
    rw [run, run, hOutput, hOutputs]

end LuvFlicker.Run
