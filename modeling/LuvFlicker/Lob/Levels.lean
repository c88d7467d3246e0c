import LuvFlicker.Lob.Level

/-!
# The level array of one side

The first `count` levels are in use and strictly sorted by priority. The search
for a price, the insertion of a level and the removal of an empty one are shown
to keep this and to leave the queue at every price alone.
-/

namespace LuvFlicker.LobEngine

open Config Function Block Scan PriceLevel

/-! ## Priority -/

variable {side : Side}

theorem outranks_trans {a b c : Int} (hab : outranks side a b = true)
    (hbc : outranks side b c = true) : outranks side a c = true := by
  cases side <;> simp only [outranks, decide_eq_true_eq] at * <;> omega

theorem outranks_irrefl (side : Side) (a : Int) : outranks side a a = false := by
  cases side <;> simp [outranks]

theorem outranks_ne {a b : Int} (h : outranks side a b = true) : a ≠ b := by
  rintro rfl
  rw [outranks_irrefl] at h
  cases h

theorem outranks_of_not {a b : Int} (h : outranks side a b = false) (hne : a ≠ b) : outranks side b a = true := by
  cases side <;> simp only [outranks, decide_eq_true_eq, decide_eq_false_iff_not] at * <;> omega

/-! ## The side invariant -/

structure SideInv (side : Side) (levels : Nat → PriceLevel) (count : Nat) (Vacant : Nat → Prop) : Prop where
  depth : count ≤ kLevelsPerSide
  sorted : ∀ i j, i < j → j < count → outranks side (levels i).price (levels j).price = true
  level : ∀ d < count, ∃ path, (levels d).LevelInv path ∧ (path = [] → Vacant d)

def sideQueue (levels : Nat → PriceLevel) (count : Nat) (price : Int) : List (UInt64 × Int) :=
  match Scan.firstIndex (fun d => (levels d).price == price) count with
  | some d => (levels d).queue
  | none => []

variable {side : Side} {levels levels' : Nat → PriceLevel} {count d : Nat} {Vacant Vacant' : Nat → Prop}
  {price : Int}

theorem sideQueue_eq_nil (h : ∀ d < count, (levels d).price ≠ price) : sideQueue levels count price = [] := by
  have hNone : firstIndex (fun d => (levels d).price == price) count = none :=
    (firstIndex_eq_none_iff _).mpr fun j hj => by simpa using h j hj
  simp [sideQueue, hNone]

namespace SideInv

section

variable (h : SideInv side levels count Vacant)

include h

theorem price_injective {i j : Nat} (hi : i < count) (hj : j < count)
    (hPrice : (levels i).price = (levels j).price) : i = j := by
  rcases lt_trichotomy i j with hlt | heq | hlt
  · exact absurd hPrice (outranks_ne (h.sorted i j hlt hj))
  · exact heq
  · exact absurd hPrice.symm (outranks_ne (h.sorted j i hlt hi))

theorem sideQueue_eq (hd : d < count)
    (hPrice : (levels d).price = price) : sideQueue levels count price = (levels d).queue := by
  have hSome : firstIndex (fun d => (levels d).price == price) count = some d := by
    refine (firstIndex_eq_some_iff _ _ _).mpr ⟨hd, by simpa using hPrice, ?_⟩
    intro j hj
    have := outranks_ne (h.sorted j d hj hd)
    rw [hPrice] at this
    simpa using this
  simp [sideQueue, hSome]

theorem sideQueue_cases (price : Int) :
    (∃ d < count, (levels d).price = price ∧ sideQueue levels count price = (levels d).queue) ∨
    ((∀ d < count, (levels d).price ≠ price) ∧ sideQueue levels count price = []) := by
  by_cases hLevel : ∃ d < count, (levels d).price = price
  · obtain ⟨d, hd, hPrice⟩ := hLevel
    exact .inl ⟨d, hd, hPrice, h.sideQueue_eq hd hPrice⟩
  · push Not at hLevel
    exact .inr ⟨hLevel, sideQueue_eq_nil hLevel⟩

theorem weaken (hVacant : ∀ d < count, Vacant d → Vacant' d) : SideInv side levels count Vacant' where
  depth := h.depth
  sorted := h.sorted
  level := by
    intro d hd
    obtain ⟨path, hInv, hEmpty⟩ := h.level d hd
    exact ⟨path, hInv, fun hPath => hVacant d hd (hEmpty hPath)⟩

end

theorem setLevel (Vacant' : Nat → Prop) (h : SideInv side levels count Vacant) (hd : d < count) {lvl : PriceLevel}
    {path : List Nat}
    (hInv : lvl.LevelInv path) (hPrice : lvl.price = (levels d).price)
    (hVacant : ∀ i < count, i ≠ d → Vacant i → Vacant' i) (hEmpty : path = [] → Vacant' d) :
    SideInv side (update levels d lvl) count Vacant' ∧
    ∀ p, sideQueue (update levels d lvl) count p =
      if p = (levels d).price then lvl.queue else sideQueue levels count p := by
  have hPrices : ∀ i, (update levels d lvl i).price = (levels i).price := by
    intro i
    by_cases hi : i = d
    · subst hi
      rw [update_self, hPrice]
    · rw [update_of_ne hi]
  have hNew : SideInv side (update levels d lvl) count Vacant' := by
    refine ⟨h.depth, ?_, ?_⟩
    · intro i j hij hj
      rw [hPrices, hPrices]
      exact h.sorted i j hij hj
    intro i hi
    by_cases hid : i = d
    · subst hid
      rw [update_self]
      exact ⟨path, hInv, hEmpty⟩
    · rw [update_of_ne hid]
      obtain ⟨_, hInv', hEmpty'⟩ := h.level i hi
      exact ⟨_, hInv', fun hPath => hVacant i hi hid (hEmpty' hPath)⟩
  refine ⟨hNew, ?_⟩
  intro p
  split
  next hp => rw [hNew.sideQueue_eq hd ((hPrices d).trans hp.symm), update_self]
  rename_i hp
  rcases h.sideQueue_cases p with ⟨i, hi, hip, hQueue⟩ | ⟨hNone, hQueue⟩
  · have hid : i ≠ d := fun he => hp (he ▸ hip.symm)
    rw [hQueue, hNew.sideQueue_eq hi ((hPrices i).trans hip), update_of_ne hid]
  · rw [hQueue]
    exact sideQueue_eq_nil fun i hi => by rw [hPrices i]; exact hNone i hi

end SideInv

/-! ## Searching a price -/

theorem findLevelLoop_spec (hSorted : ∀ i j, i < j → j < count → outranks side (levels i).price (levels j).price = true)
    (fuel : Nat) (low high : Int) (hLow : 0 ≤ low) (hHigh : high < count) (hFuel : high - low + 1 < fuel)
    (hRange : low ≤ high + 1)
    (hBefore : ∀ i : Nat, (i : Int) < low → outranks side (levels i).price price = true)
    (hAfter : ∀ i < count, high < (i : Int) → outranks side price (levels i).price = true) :
    (∃ d < count, (levels d).price = price ∧ findLevelLoop levels side price fuel low high = some d) ∨
    ((∀ d < count, (levels d).price ≠ price) ∧ findLevelLoop levels side price fuel low high = none) := by
  induction fuel generalizing low high with
  | zero => omega
  | succ fuel ih =>
    by_cases hLoop : low ≤ high
    · obtain ⟨mid, hMid⟩ : ∃ mid : Nat, (mid : Int) = low + (high - low) / 2 :=
        ⟨_, Int.toNat_of_nonneg (by omega)⟩
      have hMidCount : mid < count := by omega
      simp only [findLevelLoop, if_pos hLoop, ← hMid, Int.toNat_natCast]
      split
      · rename_i hEq
        exact .inl ⟨mid, hMidCount, hEq, rfl⟩
      rename_i hEq
      cases hRank : outranks side price (levels mid).price with
      | true =>
        refine ih low _ hLow (by omega) (by omega) (by omega) hBefore ?_
        intro i hi _
        rcases eq_or_lt_of_le (show mid ≤ i by omega) with rfl | hlt
        · exact hRank
        · exact outranks_trans hRank (hSorted mid i hlt hi)
      | false =>
        refine ih _ high (by omega) hHigh (by omega) (by omega) ?_ hAfter
        have hRank' := outranks_of_not hRank (Ne.symm hEq)
        intro i hi
        rcases eq_or_lt_of_le (show i ≤ mid by omega) with rfl | hlt
        · exact hRank'
        · exact outranks_trans (hSorted i mid hlt hMidCount) hRank'
    · right
      refine ⟨?_, by simp [findLevelLoop, hLoop]⟩
      intro i hi
      by_cases hil : (i : Int) < low
      · exact outranks_ne (hBefore i hil)
      · exact (outranks_ne (hAfter i hi (by omega))).symm

theorem findLevel_spec {e : LobEngine} {sym : Nat} {Vacant : Nat → Prop}
    (h : SideInv side (e.lob sym side) (e.levelCount sym side) Vacant) (price : Int) :
    (∃ d < e.levelCount sym side, (e.lob sym side d).price = price ∧ e.findLevel sym side price = some d) ∨
    ((∀ d < e.levelCount sym side, (e.lob sym side d).price ≠ price) ∧ e.findLevel sym side price = none) := by
  unfold findLevel
  split
  next hZero => exact .inr ⟨fun d _ => by omega, rfl⟩
  · exact findLevelLoop_spec h.sorted _ 0 _ (by omega) (by omega) (by omega) (by omega)
      (fun i hi => by omega) (fun i hi _ => by omega)

/-! ## Inserting and removing a level -/

theorem insertPos_spec (h : SideInv side levels count Vacant) (hNew : ∀ d < count, (levels d).price ≠ price) :
    insertPos levels side count price ≤ count ∧
    (∀ i < insertPos levels side count price, outranks side (levels i).price price = true) ∧
    ∀ i < count, insertPos levels side count price ≤ i → outranks side price (levels i).price = true := by
  unfold insertPos
  cases hFirst : firstIndex (fun i => outranks side price (levels i).price) count with
  | none =>
    rw [Option.getD_none]
    have hNone := (firstIndex_eq_none_iff _).mp hFirst
    exact ⟨le_rfl, fun i hi => outranks_of_not (hNone i hi) (hNew i hi).symm, fun i hi hle => by omega⟩
  | some pos =>
    obtain ⟨hPos, hRank, hBefore⟩ := (firstIndex_eq_some_iff _ _ _).mp hFirst
    refine ⟨hPos.le, ?_, ?_⟩
    · intro i hi
      exact outranks_of_not (hBefore i hi) (hNew i (hi.trans hPos)).symm
    intro i hi hle
    rcases eq_or_lt_of_le hle with rfl | hlt
    · exact hRank
    · exact outranks_trans hRank (h.sorted pos i hlt hi)

namespace SideInv

theorem openGap (h : SideInv side levels count Vacant) (hDepth : count < kLevelsPerSide)
    (hNew : ∀ d < count, (levels d).price ≠ price) (hFull : ∀ d < count, ¬ Vacant d)
    (hLevels : levels' = openGap levels (insertPos levels side count price) count
      { cleared with price := price }) :
    SideInv side levels' (count + 1) (· = insertPos levels side count price) ∧
    ∀ p, sideQueue levels' (count + 1) p = sideQueue levels count p := by
  obtain ⟨_, hBefore, hAfter⟩ := insertPos_spec h hNew
  generalize insertPos levels side count price = pos at *
  -- a level of the new array stands below the gap, in it, or one step above its old place
  have hPlace : ∀ d < count + 1, (d < pos ∧ levels' d = levels d) ∨
      (d = pos ∧ levels' d = { cleared with price := price }) ∨
      (∃ d' < count, pos ≤ d' ∧ d = d' + 1 ∧ levels' d = levels d') := by
    intro d hd
    subst hLevels
    rcases lt_trichotomy d pos with hlt | rfl | hlt
    · exact .inl ⟨hlt, openGap_of_lt _ _ hlt⟩
    · exact .inr (.inl ⟨rfl, openGap_self ..⟩)
    · obtain ⟨d', rfl⟩ : ∃ d', d = d' + 1 := ⟨d - 1, by omega⟩
      exact .inr (.inr ⟨d', by omega, by omega, rfl, openGap_succ _ _ (by omega) (by omega)⟩)
  have hInv : SideInv side levels' (count + 1) (· = pos) := by
    refine ⟨hDepth, ?_, ?_⟩
    · intro i j hij hj
      rcases hPlace i (by omega) with ⟨hi, hiEq⟩ | ⟨hi, hiEq⟩ | ⟨i', _, _, rfl, hiEq⟩ <;>
        rcases hPlace j hj with ⟨hj, hjEq⟩ | ⟨hj, hjEq⟩ | ⟨j', hj', hjPos, rfl, hjEq⟩ <;>
        rw [hiEq, hjEq]
      · exact h.sorted i j hij (by omega)
      · exact hBefore i hi
      · exact h.sorted i j' (by omega) hj'
      · omega
      · omega
      · exact hAfter j' hj' hjPos
      · omega
      · omega
      · exact h.sorted i' j' (by omega) hj'
    · intro d hd
      rcases hPlace d hd with ⟨hlt, hEq⟩ | ⟨rfl, hEq⟩ | ⟨d', hd', _, rfl, hEq⟩
      · obtain ⟨path, hPath, hEmpty⟩ := h.level d (by omega)
        exact ⟨path, hEq ▸ hPath, fun hNil => absurd (hEmpty hNil) (hFull d (by omega))⟩
      · exact ⟨[], hEq ▸ cleared_inv, fun _ => rfl⟩
      · obtain ⟨path, hPath, hEmpty⟩ := h.level d' hd'
        exact ⟨path, hEq ▸ hPath, fun hNil => absurd (hEmpty hNil) (hFull d' hd')⟩
  refine ⟨hInv, fun p => ?_⟩
  rcases hInv.sideQueue_cases p with ⟨d, hd, hPrice, hQueue⟩ | ⟨hNone, hQueue⟩
  · rw [hQueue]
    rcases hPlace d hd with ⟨hlt, hEq⟩ | ⟨rfl, hEq⟩ | ⟨d', hd', _, rfl, hEq⟩
    · rw [hEq] at hPrice ⊢
      exact (h.sideQueue_eq (by omega) hPrice).symm
    · rw [hEq] at hPrice ⊢
      subst hPrice
      rw [sideQueue_eq_nil hNew]
      rfl
    · rw [hEq] at hPrice ⊢
      exact (h.sideQueue_eq hd' hPrice).symm
  · rw [hQueue, sideQueue_eq_nil]
    intro d hd
    subst hLevels
    by_cases hlt : d < pos
    · rw [← openGap_of_lt levels _ hlt]
      exact hNone d (by omega)
    · rw [← openGap_succ levels _ (not_lt.mp hlt) hd]
      exact hNone _ (by omega)

theorem closeGap (h : SideInv side levels (count + 1) (· = d)) (hd : d < count + 1)
    (hEmpty : (levels d).queue = []) (hLevels : ∀ i < count, levels' i = closeGap levels d count i) :
    SideInv side levels' count (fun _ => False) ∧
    ∀ p, sideQueue levels' count p = sideQueue levels (count + 1) p := by
  have hPlace : ∀ i < count, (i < d ∧ levels' i = levels i) ∨ (d ≤ i ∧ levels' i = levels (i + 1)) := by
    intro i hi
    rw [hLevels i hi]
    rcases lt_or_ge i d with hlt | hge
    · exact .inl ⟨hlt, closeGap_of_lt _ hlt⟩
    · exact .inr ⟨hge, closeGap_of_le _ hge hi⟩
  have hInv : SideInv side levels' count (fun _ => False) := by
    refine ⟨by have := h.depth; omega, ?_, ?_⟩
    · intro i j _ hj
      rcases hPlace i (by omega) with ⟨hi, hiEq⟩ | ⟨hi, hiEq⟩ <;>
        rcases hPlace j hj with ⟨hj, hjEq⟩ | ⟨hj, hjEq⟩ <;> rw [hiEq, hjEq] <;>
        exact h.sorted _ _ (by omega) (by omega)
    · intro i hi
      rcases hPlace i hi with ⟨hlt, hEq⟩ | ⟨hge, hEq⟩
      · obtain ⟨path, hPath, hNil⟩ := h.level i (by omega)
        exact ⟨path, hEq ▸ hPath, fun hp => absurd (hNil hp) (by omega)⟩
      · obtain ⟨path, hPath, hNil⟩ := h.level (i + 1) (by omega)
        exact ⟨path, hEq ▸ hPath, fun hp => absurd (hNil hp) (by omega)⟩
  refine ⟨hInv, fun p => ?_⟩
  rcases h.sideQueue_cases p with ⟨i, hi, hPrice, hQueue⟩ | ⟨hNone, hQueue⟩
  · rw [hQueue]
    rcases lt_trichotomy i d with hlt | rfl | hlt
    · have hEq : levels' i = levels i := (hLevels i (by omega)).trans (closeGap_of_lt _ hlt)
      rw [hInv.sideQueue_eq (d := i) (by omega) (by rw [hEq, hPrice]), hEq]
    · rw [hEmpty]
      refine sideQueue_eq_nil fun j hj => ?_
      rcases hPlace j hj with ⟨hlt, hEq⟩ | ⟨hge, hEq⟩ <;> rw [hEq] <;> intro hp
      all_goals exact absurd (h.price_injective (by omega) hd (hp.trans hPrice.symm)) (by omega)
    · obtain ⟨i', rfl⟩ : ∃ i', i = i' + 1 := ⟨i - 1, by omega⟩
      have hEq := (hLevels i' (by omega)).trans (closeGap_of_le _ (by omega) (by omega))
      rw [hInv.sideQueue_eq (d := i') (by omega) (by rw [hEq, hPrice]), hEq]
  · rw [hQueue]
    refine sideQueue_eq_nil fun j hj => ?_
    rcases hPlace j hj with ⟨_, hEq⟩ | ⟨_, hEq⟩ <;> rw [hEq]
    · exact hNone j (by omega)
    · exact hNone _ (by omega)

end SideInv

end LuvFlicker.LobEngine
