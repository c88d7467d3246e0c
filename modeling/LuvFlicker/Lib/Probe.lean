import LuvFlicker.Lib.Scan

/-!
# Linear probing on a power-of-two ring

The theory is about the key array alone. A key is live when it stands for a stored
entry; an empty cell ends a probe, and any other cell, a deletion marker included,
is passed over.
-/

namespace LuvFlicker.Probe

open Scan Function

universe u

variable {K : Type u}

def next (cap slot : Nat) : Nat := (slot + 1) &&& (cap - 1)

structure Layout (K : Type u) where
  cap : Nat
  bits : Nat
  cap_eq : cap = 2 ^ bits
  hash : K → Nat
  hash_lt : ∀ key, hash key < cap
  empty : K
  limit : Nat
  limit_le : limit ≤ cap

namespace Layout

def cell (L : Layout K) (key : K) (d : Nat) : Nat := (L.hash key + d) % L.cap

section

variable (L : Layout K)

theorem cap_pos : 0 < L.cap := L.cap_eq ▸ Nat.two_pow_pos _

theorem cell_lt (key : K) (d : Nat) : L.cell key d < L.cap := Nat.mod_lt _ L.cap_pos

theorem cell_zero (key : K) : L.cell key 0 = L.hash key := by
  rw [cell, add_zero, Nat.mod_eq_of_lt (L.hash_lt key)]

theorem next_eq (slot : Nat) : next L.cap slot = (slot + 1) % L.cap := by
  rw [next, L.cap_eq, Nat.and_two_pow_sub_one_eq_mod]

theorem iterate_next (key : K) (d : Nat) : (next L.cap)^[d] (L.hash key) = L.cell key d := by
  induction d with
  | zero => exact (L.cell_zero key).symm
  | succ d ih => rw [Function.iterate_succ_apply', ih, next_eq, cell, cell, Nat.mod_add_mod, add_assoc]

theorem cell_injective (key : K) {d e : Nat} (hd : d < L.cap) (he : e < L.cap)
    (h : L.cell key d = L.cell key e) : d = e := by
  have hMod : d % L.cap = e % L.cap := Nat.ModEq.add_left_cancel' _ h
  rwa [Nat.mod_eq_of_lt hd, Nat.mod_eq_of_lt he] at hMod

variable {slot : Nat}

theorem exists_cell (key : K) (h : slot < L.cap) : ∃ d < L.cap, L.cell key d = slot := by
  have hHash := L.hash_lt key
  refine ⟨(slot + L.cap - L.hash key) % L.cap, Nat.mod_lt _ L.cap_pos, ?_⟩
  have hSum : L.hash key + (slot + L.cap - L.hash key) = slot + L.cap := by omega
  rw [cell, Nat.add_mod_mod, hSum, Nat.add_mod_right, Nat.mod_eq_of_lt h]

end

def Open (L : Layout K) (keys : Nat → K) (key : K) (d : Nat) : Prop := ∀ e < d, keys (L.cell key e) ≠ L.empty

structure Wf (L : Layout K) (live : K → Prop) (keys : Nat → K) : Prop where
  reach : ∀ slot < L.cap, live (keys slot) → ∃ d < L.limit, L.cell (keys slot) d = slot ∧ L.Open keys (keys slot) d
  unique : ∀ slot < L.cap, ∀ other < L.cap, live (keys slot) → keys slot = keys other → slot = other

section Writes

variable {L : Layout K} {live : K → Prop} {keys : Nat → K} {key : K}

theorem Open.update {d slot : Nat} {key written : K} (h : L.Open keys key d) (hWritten : written ≠ L.empty) :
    L.Open (update keys slot written) key d := by
  intro e he
  by_cases hSlot : L.cell key e = slot
  · rw [hSlot, update_self]
    exact hWritten
  · rw [update_of_ne hSlot]
    exact h e he

theorem Wf.place (h : L.Wf live keys) (hNe : key ≠ L.empty)
    (hAbsent : ∀ slot < L.cap, keys slot ≠ key) {d : Nat} (hd : d < L.limit)
    (hOpen : L.Open keys key d) : L.Wf live (update keys (L.cell key d) key) where
  reach slot hSlot hLive := by
    by_cases hCell : slot = L.cell key d
    · subst hCell
      rw [update_self]
      exact ⟨d, hd, rfl, hOpen.update hNe⟩
    · rw [update_of_ne hCell] at hLive ⊢
      obtain ⟨e, he, hAt, hOpen'⟩ := h.reach slot hSlot hLive
      exact ⟨e, he, hAt, hOpen'.update hNe⟩
  unique slot hSlot other hOther hLive hEq := by
    by_cases hCell : slot = L.cell key d
    · by_cases hCell' : other = L.cell key d
      · rw [hCell, hCell']
      · rw [hCell, update_self, update_of_ne hCell'] at hEq
        exact absurd hEq.symm (hAbsent _ hOther)
    · rw [update_of_ne hCell] at hEq hLive
      by_cases hCell' : other = L.cell key d
      · rw [hCell', update_self] at hEq
        exact absurd hEq (hAbsent slot hSlot)
      · rw [update_of_ne hCell'] at hEq
        exact h.unique slot hSlot _ hOther hLive hEq

theorem Wf.unique_update_dead {written : K} (h : L.Wf live keys) (hDead : ¬ live written) :
    ∀ s < L.cap, ∀ t < L.cap, live (update keys slot written s) →
      update keys slot written s = update keys slot written t → s = t := by
  intro s hs t ht hLive hEq
  by_cases hsSlot : s = slot
  · rw [hsSlot, update_self] at hLive
    exact absurd hLive hDead
  rw [update_of_ne hsSlot] at hLive hEq
  by_cases htSlot : t = slot
  · rw [htSlot, update_self] at hEq
    exact absurd (hEq ▸ hLive) hDead
  · rw [update_of_ne htSlot] at hEq
    exact h.unique s hs t ht hLive hEq

theorem Wf.mark {marker : K} (h : L.Wf live keys) (hMarker : marker ≠ L.empty) (hDead : ¬ live marker)
    (slot : Nat) : L.Wf live (update keys slot marker) where
  reach s hs hLive := by
    by_cases hSlot : s = slot
    · rw [hSlot, update_self] at hLive
      exact absurd hLive hDead
    · rw [update_of_ne hSlot] at hLive ⊢
      obtain ⟨d, hd, hAt, hOpen⟩ := h.reach s hs hLive
      exact ⟨d, hd, hAt, hOpen.update hMarker⟩
  unique := h.unique_update_dead hDead

end Writes

variable [DecidableEq K]

def find (L : Layout K) (keys : Nat → K) (key : K) : Option Nat := (scan (next L.cap) (fun slot =>
    if keys slot = key then some (some slot)
    else if keys slot = L.empty then some none
    else none) L.limit (L.hash key)).join

theorem find_eq_some_iff (L : Layout K) (keys : Nat → K) (key : K) (slot : Nat) : L.find keys key = some slot ↔
      ∃ d < L.limit, L.cell key d = slot ∧ keys slot = key ∧ L.Open keys key d ∧
        ∀ e < d, keys (L.cell key e) ≠ key := by
  rw [find, Option.join_eq_some_iff, scan_eq_some_iff]
  simp only [iterate_next]
  constructor
  · rintro ⟨d, hd, hVisit, hBefore⟩
    split at hVisit
    next hKey =>
      cases hVisit
      refine ⟨d, hd, rfl, hKey, ?_, ?_⟩
      · intro e he _
        have h := hBefore e he
        split at h <;> cases h
      · intro e he hEq
        have h := hBefore e he
        simp [hEq] at h
    · split at hVisit <;> simp at hVisit
  · rintro ⟨d, hd, rfl, hKey, hOpen, hOther⟩
    refine ⟨d, hd, by simp [hKey], fun e he => ?_⟩
    simp [hOpen e he, hOther e he]

variable {keys : Nat → K}

theorem find_lt (L : Layout K) {key : K} (h : L.find keys key = some slot) : slot < L.cap ∧ keys slot = key := by
  obtain ⟨d, _, rfl, hKey, _⟩ := (L.find_eq_some_iff keys key slot).mp h
  exact ⟨L.cell_lt key d, hKey⟩

variable {L : Layout K} {live : K → Prop} {keys : Nat → K} {key : K}

theorem Wf.find_iff (h : L.Wf live keys) (hKey : live key) (slot : Nat) :
    L.find keys key = some slot ↔ slot < L.cap ∧ keys slot = key := by
  constructor
  · exact L.find_lt
  rintro ⟨hSlot, rfl⟩
  obtain ⟨d, hd, hCell, hOpen⟩ := h.reach slot hSlot hKey
  refine (L.find_eq_some_iff keys _ slot).mpr ⟨d, hd, hCell, rfl, hOpen, ?_⟩
  intro e _ hEq
  have hSame := h.unique slot hSlot _ (L.cell_lt _ e) hKey hEq.symm
  have hLimit := L.limit_le
  have hde : d = e := L.cell_injective _ (by omega) (by omega) (hCell.trans hSame)
  omega

theorem Wf.find_eq_none_iff (h : L.Wf live keys) (hKey : live key) :
    L.find keys key = none ↔ ∀ slot < L.cap, keys slot ≠ key := by
  constructor
  · intro hNone slot hSlot hEq
    have hSome := (h.find_iff hKey slot).mpr ⟨hSlot, hEq⟩
    rw [hNone] at hSome
    cases hSome
  · intro hAbsent
    cases hFind : L.find keys key with
    | none => rfl
    | some slot =>
      obtain ⟨hSlot, hEq⟩ := L.find_lt hFind
      exact absurd hEq (hAbsent slot hSlot)

/-! ## Finding a cell for a key -/

/-- The probe loop of an insertion that uses deletion markers again: the cell that holds the key, or else the first
marked cell on the way to an empty one, or that one. `free` is the first marked cell passed so far. -/
def claim (L : Layout K) (marker : K) (keys : Nat → K) (key : K) : Nat → Nat → Option Nat → Option Nat
  | 0, _, free => free
  | n + 1, slot, free =>
    if keys slot = L.empty then some (free.getD slot)
    else if keys slot = marker then L.claim marker keys key n (next L.cap slot) (some (free.getD slot))
    else if keys slot = key then some slot
    else L.claim marker keys key n (next L.cap slot) free

inductive Claims (L : Layout K) (marker : K) (keys : Nat → K) (key : K) : Option Nat → Prop where
  | held {slot : Nat} (hFind : L.find keys key = some slot) : Claims L marker keys key (some slot)
  | free {d : Nat} (hd : d < L.limit) (hOpen : L.Open keys key d)
      (hFree : keys (L.cell key d) = L.empty ∨ keys (L.cell key d) = marker) (hAbsent : L.find keys key = none) :
      Claims L marker keys key (some (L.cell key d))
  | full (hFull : ∀ d < L.limit, keys (L.cell key d) ≠ L.empty ∧ keys (L.cell key d) ≠ marker) :
      Claims L marker keys key none

omit [DecidableEq K] in
theorem next_cell (L : Layout K) (key : K) (d : Nat) : next L.cap (L.cell key d) = L.cell key (d + 1) := by
  rw [← L.iterate_next, ← L.iterate_next, Function.iterate_succ_apply']

theorem forall_lt_succ_of {P : Nat → Prop} {d : Nat} (hBefore : ∀ e < d, P e) (hHere : P d) : ∀ e < d + 1, P e := by
  intro e he
  rcases Nat.lt_succ_iff_lt_or_eq.mp he with hlt | rfl
  · exact hBefore e hlt
  · exact hHere

theorem find_eq_none_of (L : Layout K) {key : K} {d : Nat} (hKey : key ≠ L.empty)
    (hOther : ∀ e < d, keys (L.cell key e) ≠ key) (hEnd : d = L.limit ∨ keys (L.cell key d) = L.empty) :
    L.find keys key = none := by
  cases hFind : L.find keys key with
  | none => rfl
  | some slot =>
    obtain ⟨e, _, rfl, hAt, hOpen, -⟩ := (L.find_eq_some_iff keys key slot).mp hFind
    rcases lt_or_ge e d with hlt | hge
    · exact absurd hAt (hOther e hlt)
    rcases hEnd with rfl | hEmpty
    · omega
    rcases Nat.lt_or_eq_of_le hge with hlt | rfl
    · exact absurd hEmpty (hOpen d hlt)
    · exact absurd (hAt.symm.trans hEmpty) hKey

structure Passed (L : Layout K) (marker : K) (keys : Nat → K) (key : K) (d : Nat) (free : Option Nat) : Prop where
  isOpen : L.Open keys key d
  other : ∀ e < d, keys (L.cell key e) ≠ key
  marked : ∀ slot, free = some slot → ∃ e < d, slot = L.cell key e ∧ keys slot = marker
  unmarked : free = none → ∀ e < d, keys (L.cell key e) ≠ marker

variable {marker : K} {d : Nat} {free : Option Nat}

section

variable (h : L.Passed marker keys key d free)

include h

theorem Passed.claims (hd : d ≤ L.limit) (hFree : free = some slot)
    (hAbsent : L.find keys key = none) : L.Claims marker keys key (some slot) := by
  obtain ⟨e, _, rfl, hAt⟩ := h.marked slot hFree
  exact .free (by omega) (fun j _ => h.isOpen j (by omega)) (.inr hAt) hAbsent

omit [DecidableEq K] in
theorem Passed.skip (hFull : keys (L.cell key d) ≠ L.empty)
    (hMark : keys (L.cell key d) ≠ marker) (hKey : keys (L.cell key d) ≠ key) :
    L.Passed marker keys key (d + 1) free where
  isOpen := forall_lt_succ_of h.isOpen hFull
  other := forall_lt_succ_of h.other hKey
  marked slot hFree := by
    obtain ⟨e, he, hAt⟩ := h.marked slot hFree
    exact ⟨e, Nat.lt_succ_of_lt he, hAt⟩
  unmarked hFree := forall_lt_succ_of (h.unmarked hFree) hMark

omit [DecidableEq K] in
theorem Passed.mark (hMarker : marker ≠ L.empty) (hKey : key ≠ marker)
    (hMark : keys (L.cell key d) = marker) : L.Passed marker keys key (d + 1) (some (free.getD (L.cell key d))) where
  isOpen := forall_lt_succ_of h.isOpen (hMark ▸ hMarker)
  other := forall_lt_succ_of h.other (hMark ▸ hKey.symm)
  marked slot hSlot := by
    cases hCase : free with
    | none =>
      rw [hCase] at hSlot
      cases hSlot
      exact ⟨d, Nat.lt_succ_self d, rfl, hMark⟩
    | some first =>
      rw [hCase] at hSlot
      cases hSlot
      obtain ⟨e, he, hAt⟩ := h.marked first hCase
      exact ⟨e, Nat.lt_succ_of_lt he, hAt⟩
  unmarked hNone := nomatch hNone

end

variable (hKey : key ≠ L.empty) (hKeyMarker : key ≠ marker) (hMarker : marker ≠ L.empty)
include hKey hKeyMarker hMarker

theorem Passed.claim (n : Nat) (hn : d + n = L.limit) (h : L.Passed marker keys key d free) :
    L.Claims marker keys key (L.claim marker keys key n (L.cell key d) free) := by
  induction n generalizing d free with
  | zero =>
    cases hCase : free with
    | none => exact .full fun e _ => ⟨h.isOpen e (by omega), h.unmarked hCase e (by omega)⟩
    | some slot => exact h.claims (by omega) hCase (L.find_eq_none_of hKey h.other (.inl (by omega)))
  | succ n ih =>
    rw [Layout.claim]
    split
    next hEmpty =>
      have hAbsent := L.find_eq_none_of hKey h.other (.inr hEmpty)
      cases hCase : free with
      | none => exact .free (by omega) h.isOpen (.inl hEmpty) hAbsent
      | some slot => exact h.claims (by omega) hCase hAbsent
    rename_i hFull
    split
    next hMark =>
      rw [next_cell]
      exact ih (by omega) (h.mark hMarker hKeyMarker hMark)
    rename_i hMark
    split
    next hHere => exact .held ((L.find_eq_some_iff keys key _).mpr ⟨d, by omega, rfl, hHere, h.isOpen, h.other⟩)
    next hElse =>
      rw [next_cell]
      exact ih (by omega) (h.skip hFull hMark hElse)

theorem claims : L.Claims marker keys key (L.claim marker keys key L.limit (L.hash key) none) := by
  rw [← L.cell_zero]
  exact Passed.claim hKey hKeyMarker hMarker _ (Nat.zero_add _)
    ⟨fun e he => absurd he (Nat.not_lt_zero e), fun e he => absurd he (Nat.not_lt_zero e), nofun,
      fun _ e he => absurd he (Nat.not_lt_zero e)⟩

end Layout

end LuvFlicker.Probe
