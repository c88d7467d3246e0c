import Mathlib.Tactic

/-!
# Components that are fed in pieces

A component looks at the input it has so far and either takes an item off the
front, which changes its state, or waits. If what it decides is not changed by
more input, then it does not matter in which pieces the input comes.
-/

namespace LuvFlicker.Feed

universe u v

variable {σ : Type u} {α : Type v} (next : σ → List α → Option (σ × List α))

def Stable : Prop :=
  ∀ s input s' rest, next s input = some (s', rest) → ∀ more, next s (input ++ more) = some (s', rest ++ more)

def Reaches : σ × List α → σ × List α → Prop := Relation.ReflTransGen fun p q => next p.1 p.2 = some q

def Halted (s : σ) : Prop := ∀ input, next s input = none

def drain : Nat → σ × List α → σ × List α
  | 0, p => p
  | fuel + 1, p =>
    match next p.1 p.2 with
    | some q => drain fuel q
    | none => p

variable {next} {p q r : σ × List α}

theorem Reaches.append (hStable : Stable next) (h : Reaches next p q) (more : List α) :
    Reaches next (p.1, p.2 ++ more) (q.1, q.2 ++ more) := by
  induction h with
  | refl => exact .refl
  | tail _ hStep ih => exact ih.tail (hStable _ _ _ _ hStep more)

theorem Reaches.eq_of_settled (h : Reaches next p q) (hSettled : next p.1 p.2 = none) : q = p := by
  rcases Relation.ReflTransGen.cases_head h with rfl | ⟨r, hStep, _⟩
  · rfl
  · cases hSettled.symm.trans hStep

theorem Reaches.to_settled (h : Reaches next p q) (h' : Reaches next p r) (hSettled : next r.1 r.2 = none) :
    Reaches next q r := by
  have hUnique : Relator.RightUnique fun p q : σ × List α => next p.1 p.2 = some q :=
    fun _ _ _ hb hc => Option.some.inj (hb.symm.trans hc)
  rcases Relation.ReflTransGen.total_of_right_unique hUnique h h' with hForward | hBack
  · exact hForward
  · rw [Reaches.eq_of_settled hBack hSettled]
    exact .refl

theorem reaches_drain (fuel : Nat) (p : σ × List α) : Reaches next p (drain next fuel p) := by
  induction fuel generalizing p with
  | zero => exact .refl
  | succ fuel ih =>
    rw [drain]
    split
    next q hStep =>
      exact .head hStep (ih q)
    · exact .refl

theorem drain_settled {size : σ × List α → Nat} (hSize : ∀ p q, next p.1 p.2 = some q → size q < size p)
    {fuel : Nat} (h : size p < fuel) : next (drain next fuel p).1 (drain next fuel p).2 = none := by
  induction fuel generalizing p with
  | zero => exact absurd h (Nat.not_lt_zero _)
  | succ fuel ih =>
    rw [drain]
    split
    next q hStep =>
      exact ih (lt_of_lt_of_le (hSize p q hStep) (Nat.le_of_lt_succ h))
    · assumption

def Used (next : σ → List α → Option (σ × List α)) (s : σ) (input : List α) (t : σ) : Prop :=
  ∃ taken rest, taken <+: input ∧ Reaches next (s, taken) (t, rest) ∧
    (Halted next t ∨ taken = input ∧ next t rest = none)

theorem Used.settled (hStable : Stable next) {s t : σ} {input : List α} (h : Used next s input t) :
    ∃ rest, Reaches next (s, input) (t, rest) ∧ next t rest = none := by
  obtain ⟨_, rest, ⟨more, rfl⟩, hReaches, hEnd⟩ := h
  rcases hEnd with hHalted | ⟨hAll, hSettled⟩
  · exact ⟨_, hReaches.append hStable more, hHalted _⟩
  · exact ⟨rest, hAll ▸ hReaches, hSettled⟩

theorem Used.unique (hStable : Stable next) {s t t' : σ} {input : List α} (h : Used next s input t)
    (h' : Used next s input t') : t = t' := by
  obtain ⟨_, hReaches, hSettled⟩ := h.settled hStable
  obtain ⟨_, hReaches', hSettled'⟩ := h'.settled hStable
  exact congrArg Prod.fst ((hReaches'.to_settled hReaches hSettled).eq_of_settled hSettled')

end LuvFlicker.Feed
