import LuvFlicker.Lob.Book

/-!
# Opening and closing a level

`insertLevelImpl` opens an empty level and `removeLevelIfEmpty` closes one. Both
keep the book invariant, the queue at every price and the keys of the map.
-/

namespace LuvFlicker.LobEngine

open Config Block PriceLevel

structure OnlySide (e e' : LobEngine) (sym : Nat) (side : Side) : Prop where
  lob : ∀ s t, ¬ (s = sym ∧ t = side) → e'.lob s t = e.lob s t
  count : ∀ s t, ¬ (s = sym ∧ t = side) → e'.levelCount s t = e.levelCount s t
  stats : e'.stats = e.stats

structure SameKeys (e e' : LobEngine) : Prop where
  keys : e'.orderMap.keys = e.orderMap.keys
  count : e'.orderMap.count = e.orderMap.count

namespace OnlySide

variable {e e' : LobEngine} {sym : Nat} {side : Side} {Vacant Vacant' : Nat → Side → Nat → Prop}

variable (h : OnlySide e e' sym side)

include h

theorem holds_iff (ref : UInt64) (loc : OrderLocation)
    (hLoc : ¬ (loc.symbolIdx = sym ∧ loc.side = side)) : e'.Holds ref loc ↔ e.Holds ref loc := by
  rw [Holds, Holds, h.lob _ _ hLoc, h.count _ _ hLoc]

theorem inv (hInv : e.Inv Vacant) (hSym : sym < kSymbols)
    (hSide : SideInv side (e'.lob sym side) (e'.levelCount sym side) (Vacant' sym side))
    (hVacant : ∀ s t d, ¬ (s = sym ∧ t = side) → Vacant s t d → Vacant' s t d)
    (hLocated : e'.Located) : e'.Inv Vacant' where
  sides := by
    intro s t
    by_cases hst : s = sym ∧ t = side
    · obtain ⟨rfl, rfl⟩ := hst
      exact hSide
    · rw [h.lob s t hst, h.count s t hst]
      exact (hInv.sides s t).weaken fun d _ => hVacant s t d hst
  located := hLocated
  bounded := by
    intro s t hs
    rw [h.count s t (by rintro ⟨rfl, _⟩; omega)]
    exact hInv.bounded s t hs

theorem bookQueue_of_ne {s : Nat} {t : Side} (hst : ¬ (s = sym ∧ t = side)) : e'.bookQueue s t = e.bookQueue s t := by
  funext p
  rw [bookQueue, bookQueue, h.lob s t hst, h.count s t hst]

theorem bookQueue_eq (hSide : ∀ p, e'.bookQueue sym side p = e.bookQueue sym side p) : e'.bookQueue = e.bookQueue := by
  funext s t p
  by_cases hst : s = sym ∧ t = side
  · obtain ⟨rfl, rfl⟩ := hst
    exact hSide p
  · rw [h.bookQueue_of_ne hst]

end OnlySide

variable {e : LobEngine} {sym : Nat} {side : Side}

theorem memmove_zero {α : Type} (f : Nat → α) (dst src : Nat) : memmove f dst src 0 = f := by
  funext i
  exact if_neg (by omega)

theorem setSide_lob : e.setSide sym side (e.lob sym side) = e := by
  unfold setSide
  congr 1
  funext s t
  split
  next hst => rw [hst.1, hst.2]
  · rfl

theorem insertLevelImpl_eq {price : Int} (hDepth : e.levelCount sym side < kLevelsPerSide) :
    e.insertLevelImpl sym side price =
      let pos := insertPos (e.lob sym side) side (e.levelCount sym side) price
      let moved := memmove (e.lob sym side) (pos + 1) pos (e.levelCount sym side - pos)
      let shifted := (e.setSide sym side moved).setMap
        (e.orderMap.assign (refreshEntries sym side moved (pos + 1) (e.levelCount sym side - pos)))
      some ((shifted.setLevel sym side pos { cleared with price := price }).setLevelCount sym side
        (e.levelCount sym side + 1), pos) := by
  rw [insertLevelImpl, if_neg (by omega)]
  generalize insertPos (e.lob sym side) side (e.levelCount sym side) price = pos
  simp only
  split
  · rw [refreshLevelLocations_eq, lob_setSide_self, Nat.add_sub_add_right]
    rfl
  rename_i hPos
  have hZero : e.levelCount sym side - pos = 0 := by omega
  rw [hZero, memmove_zero]
  rw [setSide_lob]
  rfl

theorem onlySide_shifted (moved : Nat → PriceLevel) (m : OrderRefMap) (d : Nat) (lvl : PriceLevel) (count : Nat) :
    OnlySide e ((((e.setSide sym side moved).setMap m).setLevel sym side d lvl).setLevelCount sym side count) sym side := by
  refine ⟨fun s t hst => ?_, fun s t hst => ?_, by simp⟩
  · rw [lob_setLevelCount, setLevel, lob_setSide_of_ne _ _ hst]
    exact lob_setSide_of_ne _ _ hst
  · rw [levelCount_setLevelCount_of_ne _ _ hst]
    rfl

theorem insertLevelImpl_spec (h : e.Inv noVacancy) (hSym : sym < kSymbols) {price : Int}
    (hNew : ∀ d < e.levelCount sym side, (e.lob sym side d).price ≠ price)
    (hDepth : e.levelCount sym side < kLevelsPerSide) :
    ∃ e' pos, e.insertLevelImpl sym side price = some (e', pos) ∧ pos < e'.levelCount sym side ∧
      (e'.lob sym side pos).price = price ∧ (e'.lob sym side pos).LevelInv [] ∧
      e'.Inv (vacantAt sym side pos) ∧ e'.bookQueue = e.bookQueue ∧ SameKeys e e' ∧ e'.stats = e.stats := by
  obtain ⟨hPos, _, _⟩ := insertPos_spec (h.sides sym side) hNew
  have hGap := (h.sides sym side).openGap hDepth hNew (fun _ _ hV => hV) rfl
  rw [insertLevelImpl_eq hDepth]
  generalize insertPos (e.lob sym side) side (e.levelCount sym side) price = pos at *
  simp only
  generalize hMoved : memmove (e.lob sym side) (pos + 1) pos (e.levelCount sym side - pos) = moved
  generalize hShifted : (e.setSide sym side moved).setMap (e.orderMap.assign
    (refreshEntries sym side moved (pos + 1) (e.levelCount sym side - pos))) = shifted
  generalize hNewEngine : ((shifted.setLevel sym side pos
    { cleared with price := price }).setLevelCount sym side (e.levelCount sym side + 1)) = e'
  have hLob : e'.lob sym side = openGap (e.lob sym side) pos (e.levelCount sym side)
      { cleared with price := price } := by
    subst hNewEngine hShifted hMoved
    simp [setLevel, openGap]
  have hCount : e'.levelCount sym side = e.levelCount sym side + 1 := by
    subst hNewEngine
    simp
  have hMap : e'.orderMap = e.orderMap.assign
      (refreshEntries sym side moved (pos + 1) (e.levelCount sym side - pos)) := by
    subst hNewEngine hShifted
    simp
  have hOnly : OnlySide e e' sym side := by
    subst hNewEngine hShifted
    exact onlySide_shifted ..
  rw [← hLob, ← hCount] at hGap
  have hLevel : e'.lob sym side pos = { cleared with price := price } := by
    rw [hLob]
    exact openGap_self ..
  have hLow : ∀ d < pos, e'.lob sym side d = e.lob sym side d := by
    intro d hd
    rw [hLob, openGap_of_lt _ _ hd]
  have hHigh : ∀ d, pos ≤ d → d < e.levelCount sym side → e'.lob sym side (d + 1) = e.lob sym side d := by
    intro d hd hLt
    rw [hLob, openGap_succ _ _ hd hLt]
  have hLocated : e'.Located := by
    refine relocate (fun d => if d < pos then some d else if d = pos then none else some (d - 1))
      h.located hMap ?_ hOnly.holds_iff ?_ ?_ ?_ ?_
    · intro d hLow hHigh
      refine ⟨?_, by omega⟩
      rw [hLob, openGap, Function.update_of_ne (by omega), hMoved]
    · rintro ref d i ⟨hd, hAt⟩
      simp only [hCount] at hd hAt
      rcases lt_trichotomy d pos with hlt | rfl | hlt
      · rw [hLow d hlt] at hAt
        exact ⟨d, by simp [hlt], by simp only; omega, hAt⟩
      · rw [hLevel, cleared_inv.chain.holdsAt_iff] at hAt
        cases hAt.1
      · obtain ⟨d', rfl⟩ : ∃ d', d = d' + 1 := ⟨d - 1, by omega⟩
        rw [hHigh d' (by omega) (by omega)] at hAt
        refine ⟨d', ?_, by simp only; omega, hAt⟩
        rw [if_neg (by omega), if_neg (by omega)]
        rfl
    · rintro ref d i ⟨hd, hAt⟩
      simp only at hd hAt
      rcases lt_or_ge d pos with hlt | hge
      · refine ⟨d, by simp [hlt], by simp only [hCount]; omega, ?_⟩
        simp only [hLow d hlt]
        exact hAt
      refine ⟨d + 1, ?_, by simp only [hCount]; omega, ?_⟩
      · rw [if_neg (by omega), if_neg (by omega)]
        rfl
      · simp only [hHigh d hge hd]
        exact hAt
    · intro d d' d₀ hd hd'
      split_ifs at hd hd' <;> simp only [Option.some.injEq] at hd hd' <;> omega
    · intro d d₀ hLt hRange hd
      split_ifs at hd with hlt hEq
      · exact (Option.some.inj hd).symm
      · omega
  refine ⟨e', pos, rfl, by omega, by rw [hLevel], hLevel ▸ cleared_inv, ?_, ?_, ?_, hOnly.stats⟩
  · refine hOnly.inv h hSym (hGap.1.weaken fun d _ hd => ⟨⟨rfl, rfl⟩, hd⟩) (fun _ _ _ _ hV => hV.elim) hLocated
  · exact hOnly.bookQueue_eq hGap.2
  have hKeys := OrderRefMap.assign_keys e.orderMap
    (refreshEntries sym side moved (pos + 1) (e.levelCount sym side - pos))
  rw [← hMap] at hKeys
  exact ⟨hKeys.1, hKeys.2⟩

theorem removeLevelIfEmpty_eq {d last : Nat} (hEmpty : ¬ 0 < (e.lob sym side d).orderCount)
    (hCount : e.levelCount sym side = last + 1) (hd : d ≤ last) :
    e.removeLevelIfEmpty sym side d =
      let moved := memmove (e.lob sym side) d (d + 1) (last - d)
      let shifted := (e.setSide sym side moved).setMap (e.orderMap.assign (refreshEntries sym side moved d (last - d)))
      (shifted.setLevel sym side last cleared).setLevelCount sym side last := by
  rw [removeLevelIfEmpty, if_neg hEmpty, if_neg (by omega)]
  have hLast : e.levelCount sym side - 1 = last := by omega
  simp only [hLast]
  split
  · have hLen : last - 1 + 1 - d = last - d := by omega
    rw [refreshLevelLocations_eq, lob_setSide_self, hLen]
    rfl
  · have hZero : last - d = 0 := by omega
    rw [hZero, memmove_zero, setSide_lob]
    rfl

theorem removeLevelIfEmpty_spec {d : Nat} (h : e.Inv (vacantAt sym side d)) (hSym : sym < kSymbols)
    (hd : d < e.levelCount sym side) :
    let e' := e.removeLevelIfEmpty sym side d
    e'.Inv noVacancy ∧ e'.bookQueue = e.bookQueue ∧ SameKeys e e' ∧ e'.stats = e.stats ∧ e'.levelCount sym side =
      if (e.lob sym side d).queue = [] then e.levelCount sym side - 1 else e.levelCount sym side := by
  obtain ⟨path, hPath, hVacant⟩ := (h.sides sym side).level d hd
  by_cases hPos : path ≠ []
  · have hKeep : e.removeLevelIfEmpty sym side d = e := by rw [removeLevelIfEmpty, if_pos (hPath.orderCount_pos hPos)]
    rw [hKeep]
    have hQueue : (e.lob sym side d).queue ≠ [] := by
      rw [hPath.queue_eq]
      simpa using hPos
    refine ⟨⟨fun s t => ⟨(h.sides s t).depth, (h.sides s t).sorted, ?_⟩, h.located, h.bounded⟩, rfl, ⟨rfl, rfl⟩, rfl,
      (if_neg hQueue).symm⟩
    intro i hi
    obtain ⟨path', hPath', hVacant'⟩ := (h.sides s t).level i hi
    refine ⟨_, hPath', fun hNil => ?_⟩
    obtain ⟨⟨rfl, rfl⟩, rfl⟩ := hVacant' hNil
    exact hPos (hPath.chain.unique hPath'.chain ▸ hNil)
  · push Not at hPos
    subst hPos
    obtain ⟨last, hCount⟩ : ∃ last, e.levelCount sym side = last + 1 := ⟨e.levelCount sym side - 1, by omega⟩
    have hEmpty : ¬ 0 < (e.lob sym side d).orderCount := by
      rw [hPath.totals.count_eq]
      simp
    rw [removeLevelIfEmpty_eq hEmpty hCount (by omega)]
    simp only
    generalize hMoved : memmove (e.lob sym side) d (d + 1) (last - d) = moved
    generalize hShifted : (e.setSide sym side moved).setMap
      (e.orderMap.assign (refreshEntries sym side moved d (last - d))) = shifted
    generalize hNewEngine : (shifted.setLevel sym side last cleared).setLevelCount sym side last = e'
    have hLob : ∀ i < last, e'.lob sym side i = closeGap (e.lob sym side) d last i := by
      intro i hi
      subst hNewEngine hShifted hMoved
      rw [lob_setLevelCount, setLevel, lob_setSide_self, Function.update_of_ne (by omega), lob_setMap, lob_setSide_self]
      rfl
    have hCount' : e'.levelCount sym side = last := by
      subst hNewEngine
      simp
    have hMap : e'.orderMap = e.orderMap.assign (refreshEntries sym side moved d (last - d)) := by
      subst hNewEngine hShifted
      simp
    have hOnly : OnlySide e e' sym side := by
      subst hNewEngine hShifted
      exact onlySide_shifted ..
    have hGap : SideInv side (e'.lob sym side) last (fun _ => False) ∧
        ∀ p, sideQueue (e'.lob sym side) last p = sideQueue (e.lob sym side) (last + 1) p := by
      refine SideInv.closeGap (d := d) ?_ (by omega) (by rw [hPath.queue_eq]; rfl) hLob
      rw [← hCount]
      exact (h.sides sym side).weaken fun i _ hi => hi.2
    have hLow : ∀ i < d, i < last → e'.lob sym side i = e.lob sym side i := by
      intro i hid hi
      rw [hLob i hi, closeGap_of_lt _ hid]
    have hHigh : ∀ i, d ≤ i → i < last → e'.lob sym side i = e.lob sym side (i + 1) := by
      intro i hid hi
      rw [hLob i hi, closeGap_of_le _ hid hi]
    have hLocated : e'.Located := by
      refine relocate (fun i => if i < d then some i else some (i + 1)) h.located hMap ?_ hOnly.holds_iff ?_ ?_ ?_ ?_
      · intro i hid hi
        refine ⟨?_, by omega⟩
        rw [hLob i (by omega), ← hMoved, closeGap]
      · rintro ref i k ⟨hi, hAt⟩
        simp only [hCount'] at hi hAt
        rcases lt_or_ge i d with hlt | hge
        · rw [hLow i hlt hi] at hAt
          exact ⟨i, by simp [hlt], by simp only; omega, hAt⟩
        · rw [hHigh i hge hi] at hAt
          exact ⟨_, if_neg (by omega), by simp only; omega, hAt⟩
      · rintro ref i k ⟨hi, hAt⟩
        simp only at hi hAt
        rcases lt_trichotomy i d with hlt | rfl | hlt
        · refine ⟨i, if_pos hlt, by simp only [hCount']; omega, ?_⟩
          simp only [hLow i hlt (by omega)]
          exact hAt
        · rw [hPath.chain.holdsAt_iff] at hAt
          cases hAt.1
        · obtain ⟨i', rfl⟩ : ∃ i', i = i' + 1 := ⟨i - 1, by omega⟩
          refine ⟨i', if_neg (by omega), by simp only [hCount']; omega, ?_⟩
          simp only [hHigh i' (by omega) (by omega)]
          exact hAt
      · intro i i' i₀ hi hi'
        split_ifs at hi hi' <;> simp only [Option.some.injEq] at hi hi' <;> omega
      · intro i i₀ hLt hRange hi
        split_ifs at hi with hid
        · exact (Option.some.inj hi).symm
        · omega
    have hQueue : (e.lob sym side d).queue = [] := by
      rw [hPath.queue_eq]
      rfl
    refine ⟨hOnly.inv h hSym (by rw [hCount']; exact hGap.1) ?_ hLocated, hOnly.bookQueue_eq ?_, ?_, hOnly.stats,
      by rw [if_pos hQueue, hCount', hCount]; rfl⟩
    · rintro s t i hst ⟨hst', _⟩
      exact hst hst'
    · intro p
      rw [bookQueue, bookQueue, hCount', hCount]
      exact hGap.2 p
    · have hKeys := OrderRefMap.assign_keys e.orderMap (refreshEntries sym side moved d (last - d))
      rw [← hMap] at hKeys
      exact ⟨hKeys.1, hKeys.2⟩

end LuvFlicker.LobEngine
