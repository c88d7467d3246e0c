import Mathlib.Tactic

/-!
# Logical clocks

Events happen at sites, one after the other, and an event may take in an earlier one
from another site. Happened-before is the transitive closure of the order of each
site and of the passing on of events.
-/

namespace LuvFlicker.Causality

open List

universe u

variable {ι : Type u}

structure Event (ι : Type u) where
  site : ι
  /-- The place among the events of the one taken in. -/
  source : Option Nat
  stamp : Nat

def Direct (events : List (Event ι)) (i j : Nat) : Prop :=
  ∃ e f, events[i]? = some e ∧ events[j]? = some f ∧ (i < j ∧ e.site = f.site ∨ f.source = some i)

def HappenedBefore (events : List (Event ι)) : Nat → Nat → Prop := Relation.TransGen (Direct events)

structure Clocked (clock : ι → Nat) (events : List (Event ι)) : Prop where
  below : ∀ e ∈ events, e.stamp ≤ clock e.site
  earlier : ∀ {i j : Nat} {f : Event ι}, events[j]? = some f → f.source = some i → i < j
  grows : ∀ {i j : Nat} {e f : Event ι}, events[i]? = some e → events[j]? = some f →
    i < j ∧ e.site = f.site ∨ f.source = some i → e.stamp < f.stamp

variable {clock clock' : ι → Nat} {events : List (Event ι)}

theorem clocked_nil {clock : ι → Nat} : Clocked clock [] where
  below _ hMem := absurd hMem not_mem_nil
  earlier := nofun
  grows := nofun

theorem Clocked.stamp_lt (h : Clocked clock events) {i j : Nat} (hBefore : HappenedBefore events i j) {e f : Event ι}
    (he : events[i]? = some e) (hf : events[j]? = some f) : e.stamp < f.stamp := by
  induction hBefore generalizing f with
  | single hDirect =>
    obtain ⟨e', f', he', hf', hStep⟩ := hDirect
    rw [he] at he'
    rw [hf] at hf'
    cases he'
    cases hf'
    exact h.grows he hf hStep
  | tail _ hDirect ih =>
    obtain ⟨e', f', he', hf', hStep⟩ := hDirect
    rw [hf] at hf'
    cases hf'
    exact (ih he').trans (h.grows he' hf hStep)

theorem getElem?_concat_cases {α : Type u} {l : List α} {x y : α} {i : Nat} (h : (l ++ [x])[i]? = some y) :
    l[i]? = some y ∧ i < l.length ∨ i = l.length ∧ y = x := by
  rcases lt_trichotomy i l.length with hLt | rfl | _
  · rw [getElem?_append_left hLt] at h
    exact .inl ⟨h, hLt⟩
  · rw [getElem?_concat_length] at h
    exact .inr ⟨rfl, (Option.some.inj h).symm⟩
  · rw [getElem?_eq_none (by rw [length_append, length_singleton]; omega)] at h
    cases h

theorem Clocked.extend (h : Clocked clock events) {f : Event ι} (hLocal : clock f.site < f.stamp)
    (hSource : ∀ i, f.source = some i → ∃ e, events[i]? = some e ∧ e.stamp < f.stamp)
    (hClock : ∀ site, clock site ≤ clock' site) (hStamp : f.stamp ≤ clock' f.site) :
    Clocked clock' (events ++ [f]) where
  below e hMem := by
    rcases mem_append.mp hMem with hOld | hNew
    · exact (h.below e hOld).trans (hClock _)
    · rw [mem_singleton.mp hNew]
      exact hStamp
  earlier {i j f'} hf hFrom := by
    rcases getElem?_concat_cases hf with ⟨hOld, -⟩ | ⟨rfl, rfl⟩
    · exact h.earlier hOld hFrom
    · obtain ⟨e, he, -⟩ := hSource i hFrom
      exact (List.getElem?_eq_some_iff.mp he).1
  grows {i j e f'} he hf hStep := by
    rcases getElem?_concat_cases hf with ⟨hOld, hj⟩ | ⟨rfl, rfl⟩
    · have hi : i < j := hStep.elim And.left (h.earlier hOld)
      rw [getElem?_append_left (hi.trans hj)] at he
      exact h.grows he hOld hStep
    rcases hStep with ⟨hi, hSite⟩ | hFrom
    · rw [getElem?_append_left hi] at he
      have hBelow := h.below e (mem_of_getElem? he)
      rw [hSite] at hBelow
      exact hBelow.trans_lt hLocal
    · obtain ⟨_, he', hLess⟩ := hSource i hFrom
      rw [getElem?_append_left (List.getElem?_eq_some_iff.mp he').1, he'] at he
      cases he
      exact hLess

end LuvFlicker.Causality
