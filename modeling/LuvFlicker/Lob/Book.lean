import LuvFlicker.Lob.Levels
import LuvFlicker.Lob.OrderRefMapSpec

/-!
# The invariant of the whole book

Every side satisfies its invariant and the order-reference map points to exactly
the active slots. Shifting levels moves orders to other indices; `relocate` is
the argument that refreshing the shifted range restores the map.
-/

namespace LuvFlicker.PriceLevel

open Config

def HoldsAt (lvl : PriceLevel) (ref : UInt64) (i : Nat) : Prop :=
  i < kMaxOrdersPerLevel ∧ (lvl.orders i).isActive = true ∧ (lvl.orders i).orderId = ref

theorem Chain.holdsAt_iff {lvl : PriceLevel} {path : List Nat} (h : lvl.Chain path) {ref : UInt64} {i : Nat} :
    lvl.HoldsAt ref i ↔ i ∈ path ∧ (lvl.entryOf i).1 = ref := by
  rw [h.mem_iff, and_assoc]
  rfl

end LuvFlicker.PriceLevel

namespace LuvFlicker.OrderRefMap

open List

def assign (m : OrderRefMap) (entries : List (UInt64 × OrderLocation)) : OrderRefMap :=
  entries.foldl (fun m entry => m.setLocation entry.1 entry.2) m

theorem assign_keys (m : OrderRefMap) (entries : List (UInt64 × OrderLocation)) :
    (m.assign entries).keys = m.keys ∧ (m.assign entries).count = m.count := by
  induction entries generalizing m with
  | nil => exact ⟨rfl, rfl⟩
  | cons entry entries ih =>
    obtain ⟨hKeys, hCount⟩ := ih _
    exact ⟨hKeys.trans setLocation_keys, hCount.trans setLocation_count⟩

theorem lookup_eq_none_congr {m m' : OrderRefMap} (hKeys : m'.keys = m.keys) (ref : UInt64) :
    m'.lookup ref = none ↔ m.lookup ref = none := by
  rw [lookup_eq_none_iff, lookup_eq_none_iff, lookupSlot, lookupSlot, hKeys]

theorem assign_spec {m : OrderRefMap} (h : m.Wf) (entries : List (UInt64 × OrderLocation))
    (hStored : ∀ entry ∈ entries, m.lookup entry.1 ≠ none)
    (hUnique : ∀ ref loc loc', (ref, loc) ∈ entries → (ref, loc') ∈ entries → loc = loc') :
    (m.assign entries).Wf ∧ ∀ ref loc, (m.assign entries).lookup ref = some loc ↔
      (ref, loc) ∈ entries ∨ ((∀ loc', (ref, loc') ∉ entries) ∧ m.lookup ref = some loc) := by
  induction entries generalizing m with
  | nil => exact ⟨h, fun ref loc => by simp [assign]⟩
  | cons entry entries ih =>
    obtain ⟨key, place⟩ := entry
    obtain ⟨hWf, hLookup⟩ := setLocation_spec h (hStored _ mem_cons_self)
    have hNone : ∀ ref, (m.setLocation key place).lookup ref = none ↔ m.lookup ref = none :=
      lookup_eq_none_congr setLocation_keys
    obtain ⟨hWf', hIff⟩ := ih hWf (fun e he => by rw [Ne, hNone]; exact hStored e (mem_cons_of_mem _ he))
      (fun ref loc loc' hl hl' => hUnique ref loc loc' (mem_cons_of_mem _ hl) (mem_cons_of_mem _ hl'))
    refine ⟨hWf', fun ref loc => (hIff ref loc).trans ?_⟩
    rw [hLookup]
    by_cases hRef : ref = key
    · subst hRef
      have hOnly : ∀ loc', (ref, loc') ∈ entries → loc' = place :=
        fun loc' hl => hUnique ref loc' _ (mem_cons_of_mem _ hl) mem_cons_self
      rw [Function.update_self, Option.some.injEq]
      constructor
      · rintro (hMem | ⟨_, rfl⟩)
        · exact .inl (mem_cons_of_mem _ hMem)
        · exact .inl mem_cons_self
      rintro (hMem | ⟨hNot, _⟩)
      · rcases mem_cons.mp hMem with hEq | hMem
        · cases hEq
          by_cases hAgain : (ref, place) ∈ entries
          · exact .inl hAgain
          · exact .inr ⟨fun loc' hl => hAgain (hOnly loc' hl ▸ hl), rfl⟩
        · exact .inl hMem
      · exact absurd mem_cons_self (hNot _)
    · rw [Function.update_of_ne hRef]
      have hMem : ∀ loc', (ref, loc') ∈ (key, place) :: entries ↔ (ref, loc') ∈ entries := by
        intro loc'
        simp [hRef]
      simp only [hMem]

end LuvFlicker.OrderRefMap

namespace LuvFlicker.LobEngine

open Config List

abbrev levelAt (e : LobEngine) (loc : OrderLocation) : PriceLevel := e.lob loc.symbolIdx loc.side loc.levelIdx

abbrev orderAt (e : LobEngine) (loc : OrderLocation) : OrderSlot := (e.levelAt loc).orders loc.slotIdx

/-! ## Writing to the slab -/

section Writes

variable (e : LobEngine) (sym : Nat) (side : Side) (levels : Nat → PriceLevel) (n : Nat)

@[simp] theorem lob_setSide_self : (e.setSide sym side levels).lob sym side = levels := by
  simp [setSide]

@[simp] theorem levelCount_setSide : (e.setSide sym side levels).levelCount = e.levelCount := rfl

@[simp] theorem levelCount_setLevelCount_self : (e.setLevelCount sym side n).levelCount sym side = n := by
  cases side <;> simp [setLevelCount, setMeta, levelCount]

@[simp] theorem lob_setLevelCount : (e.setLevelCount sym side n).lob = e.lob := by
  cases side <;> rfl

@[simp] theorem orderMap_setLevelCount : (e.setLevelCount sym side n).orderMap = e.orderMap := by
  cases side <;> rfl

@[simp] theorem stats_setLevelCount : (e.setLevelCount sym side n).stats = e.stats := by
  cases side <;> rfl

variable (m : OrderRefMap)

@[simp] theorem lob_setMap : (e.setMap m).lob = e.lob := rfl

@[simp] theorem orderMap_setMap : (e.setMap m).orderMap = m := rfl

@[simp] theorem levelCount_setMap : (e.setMap m).levelCount = e.levelCount := rfl

@[simp] theorem stats_setMap : (e.setMap m).stats = e.stats := rfl

@[simp] theorem orderMap_setSide : (e.setSide sym side levels).orderMap = e.orderMap := rfl

@[simp] theorem stats_setSide : (e.setSide sym side levels).stats = e.stats := rfl

variable (d : Nat) (lvl : PriceLevel)

@[simp] theorem lob_setLevel_self : (e.setLevel sym side d lvl).lob sym side d = lvl := by
  simp [setLevel]

@[simp] theorem levelCount_setLevel : (e.setLevel sym side d lvl).levelCount = e.levelCount := rfl

@[simp] theorem orderMap_setLevel : (e.setLevel sym side d lvl).orderMap = e.orderMap := rfl

@[simp] theorem stats_setLevel : (e.setLevel sym side d lvl).stats = e.stats := rfl

variable {sym side} {s : Nat} {t : Side}

theorem lob_setSide_of_ne (h : ¬ (s = sym ∧ t = side)) : (e.setSide sym side levels).lob s t = e.lob s t := if_neg h

theorem levelCount_setLevelCount_of_ne (h : ¬ (s = sym ∧ t = side)) :
    (e.setLevelCount sym side n).levelCount s t = e.levelCount s t := by
  by_cases hs : s = sym
  · cases side <;> cases t <;> simp_all [setLevelCount, setMeta, levelCount]
  · cases side <;> cases t <;> simp [setLevelCount, setMeta, levelCount, hs]

end Writes

/-! ## The invariant -/

section

variable (e : LobEngine)

/-- The location is that of an active slot of a level in use, and the slot holds the order `ref`. -/
def Holds (ref : UInt64) (loc : OrderLocation) : Prop :=
  loc.levelIdx < e.levelCount loc.symbolIdx loc.side ∧
    (e.lob loc.symbolIdx loc.side loc.levelIdx).HoldsAt ref loc.slotIdx

structure Located : Prop where
  wf : e.orderMap.Wf
  lookup_iff : ∀ ref loc, e.orderMap.lookup ref = some loc ↔ e.Holds ref loc

structure Inv (Vacant : Nat → Side → Nat → Prop) : Prop where
  sides : ∀ sym side, SideInv side (e.lob sym side) (e.levelCount sym side) (Vacant sym side)
  located : e.Located
  bounded : ∀ sym side, kSymbols ≤ sym → e.levelCount sym side = 0

def noVacancy : Nat → Side → Nat → Prop := fun _ _ _ => False

def vacantAt (sym : Nat) (side : Side) (d : Nat) : Nat → Side → Nat → Prop :=
  fun s t i => (s = sym ∧ t = side) ∧ i = d

def bookQueue (sym : Nat) (side : Side) (price : Int) : List (UInt64 × Int) :=
  sideQueue (e.lob sym side) (e.levelCount sym side) price

end

variable {e : LobEngine} {ref : UInt64} {loc : OrderLocation}

theorem Located.unique (h : e.Located) {loc' : OrderLocation}
    (hLoc : e.Holds ref loc) (hLoc' : e.Holds ref loc') : loc = loc' := by
  have hSame := (h.lookup_iff ref loc).mpr hLoc
  rw [(h.lookup_iff ref loc').mpr hLoc'] at hSame
  exact (Option.some.inj hSame).symm

theorem Located.lookup_ne_none (h : e.Located) (hLoc : e.Holds ref loc) : e.orderMap.lookup ref ≠ none := by
  rw [(h.lookup_iff ref loc).mpr hLoc]
  exact Option.some_ne_none loc

theorem Inv.symbol_lt {Vacant : Nat → Side → Nat → Prop} (h : e.Inv Vacant)
    (hLoc : e.Holds ref loc) : loc.symbolIdx < kSymbols := by
  by_contra hLarge
  have hZero := h.bounded _ loc.side (not_lt.mp hLarge)
  have hLt := hLoc.1
  omega

/-! ## Refreshing shifted levels -/

/-- The entries that a refresh of the levels `first, …, first + len - 1` writes, in order. -/
def refreshEntries (sym : Nat) (side : Side) (levels : Nat → PriceLevel) (first len : Nat) :
    List (UInt64 × OrderLocation) :=
  (List.range' first len).flatMap fun d => (List.range kMaxOrdersPerLevel).filterMap fun i =>
    if ((levels d).orders i).isActive then some (((levels d).orders i).orderId, ⟨sym, side, d, i⟩) else none

variable {levels : Nat → PriceLevel} {first len : Nat} {side : Side} {sym : Nat}

theorem mem_refreshEntries : (ref, loc) ∈ refreshEntries sym side levels first len ↔
      (loc.symbolIdx = sym ∧ loc.side = side) ∧ (first ≤ loc.levelIdx ∧ loc.levelIdx < first + len) ∧
        (levels loc.levelIdx).HoldsAt ref loc.slotIdx := by
  simp only [refreshEntries, mem_flatMap, mem_range'_1, mem_filterMap, mem_range,
    Option.ite_none_right_eq_some, Option.some.injEq, Prod.mk.injEq]
  constructor
  · rintro ⟨d, hd, i, hi, hActive, rfl, rfl⟩
    exact ⟨⟨rfl, rfl⟩, hd, hi, hActive, rfl⟩
  · rintro ⟨⟨rfl, rfl⟩, hd, hi, hActive, rfl⟩
    exact ⟨_, hd, _, hi, hActive, rfl, rfl⟩

open OrderRefMap

theorem refreshLevelLocations_eq (e : LobEngine) (sym : Nat) (side : Side) (first last : Nat) :
    e.refreshLevelLocations sym side first last =
      e.setMap (e.orderMap.assign (refreshEntries sym side (e.lob sym side) first (last + 1 - first))) := by
  have hSlots : ∀ (m : OrderRefMap) (d : Nat), refreshLevel sym side (e.lob sym side) m d =
      m.assign ((List.range kMaxOrdersPerLevel).filterMap fun i =>
        if ((e.lob sym side d).orders i).isActive then
          some (((e.lob sym side d).orders i).orderId, ⟨sym, side, d, i⟩) else none) := by
    intro m d
    rw [refreshLevel, assign, foldl_filterMap]
    congr 1
    funext m i
    rw [refreshSlot]
    split <;> rfl
  rw [refreshLevelLocations, refreshEntries, assign, foldl_flatMap]
  simp [← assign.eq_1, ← hSlots]

theorem relocate {e' : LobEngine} (old : Nat → Option Nat) (h : e.Located)
    (hMap : e'.orderMap = e.orderMap.assign (refreshEntries sym side levels first len))
    (hLevels : ∀ d, first ≤ d → d < first + len → levels d = e'.lob sym side d ∧ d < e'.levelCount sym side)
    (hElsewhere : ∀ ref loc, ¬ (loc.symbolIdx = sym ∧ loc.side = side) → (e'.Holds ref loc ↔ e.Holds ref loc))
    (hFrom : ∀ ref d i, e'.Holds ref ⟨sym, side, d, i⟩ → ∃ d₀, old d = some d₀ ∧ e.Holds ref ⟨sym, side, d₀, i⟩)
    (hTo : ∀ ref d₀ i, e.Holds ref ⟨sym, side, d₀, i⟩ → ∃ d, old d = some d₀ ∧ e'.Holds ref ⟨sym, side, d, i⟩)
    (hInj : ∀ d d' d₀, old d = some d₀ → old d' = some d₀ → d = d')
    (hStay : ∀ d d₀, d < e'.levelCount sym side → ¬ (first ≤ d ∧ d < first + len) → old d = some d₀ → d₀ = d) :
    e'.Located := by
  have hEntry : ∀ ref loc, (ref, loc) ∈ refreshEntries sym side levels first len ↔
      (loc.symbolIdx = sym ∧ loc.side = side) ∧ (first ≤ loc.levelIdx ∧ loc.levelIdx < first + len) ∧
        e'.Holds ref loc := by
    intro ref loc
    rw [mem_refreshEntries]
    constructor
    · rintro ⟨⟨rfl, rfl⟩, hRange, hAt⟩
      obtain ⟨hEq, hLt⟩ := hLevels _ hRange.1 hRange.2
      exact ⟨⟨rfl, rfl⟩, hRange, hLt, hEq ▸ hAt⟩
    · rintro ⟨⟨rfl, rfl⟩, hRange, hHolds⟩
      exact ⟨⟨rfl, rfl⟩, hRange, (hLevels _ hRange.1 hRange.2).1 ▸ hHolds.2⟩
  have hFrom' : ∀ ref loc, loc.symbolIdx = sym ∧ loc.side = side → e'.Holds ref loc →
      ∃ d₀, old loc.levelIdx = some d₀ ∧ e.Holds ref ⟨sym, side, d₀, loc.slotIdx⟩ := by
    rintro ref loc ⟨rfl, rfl⟩ hHolds
    exact hFrom ref _ _ hHolds
  have hUnique : ∀ ref loc loc', e'.Holds ref loc → e'.Holds ref loc' → loc = loc' := by
    intro ref loc loc' hLoc hLoc'
    by_cases hSide : loc.symbolIdx = sym ∧ loc.side = side <;>
      by_cases hSide' : loc'.symbolIdx = sym ∧ loc'.side = side
    · obtain ⟨d₀, hOld, hHolds⟩ := hFrom' ref loc hSide hLoc
      obtain ⟨_, hOld', hHolds'⟩ := hFrom' ref loc' hSide' hLoc'
      obtain ⟨_, _, hEq, hSlot⟩ := OrderLocation.mk.injEq .. ▸ h.unique hHolds hHolds'
      subst hEq
      cases loc
      cases loc'
      simp only [OrderLocation.mk.injEq]
      exact ⟨hSide.1.trans hSide'.1.symm, hSide.2.trans hSide'.2.symm, hInj _ _ _ hOld hOld', hSlot⟩
    · obtain ⟨d₀, _, hHolds⟩ := hFrom' ref loc hSide hLoc
      have hEq := h.unique hHolds ((hElsewhere ref loc' hSide').mp hLoc')
      exact absurd ⟨congrArg _ hEq.symm, congrArg _ hEq.symm⟩ hSide'
    · obtain ⟨d₀, _, hHolds⟩ := hFrom' ref loc' hSide' hLoc'
      have hEq := h.unique hHolds ((hElsewhere ref loc hSide).mp hLoc)
      exact absurd ⟨congrArg _ hEq.symm, congrArg _ hEq.symm⟩ hSide
    · exact h.unique ((hElsewhere ref loc hSide).mp hLoc) ((hElsewhere ref loc' hSide').mp hLoc')
  obtain ⟨hWf, hIff⟩ := assign_spec h.wf _ (by
      rintro ⟨ref, loc⟩ hMem
      obtain ⟨hSide, _, hHolds⟩ := (hEntry ref loc).mp hMem
      obtain ⟨_, _, hOld⟩ := hFrom' ref loc hSide hHolds
      exact h.lookup_ne_none hOld)
    (fun ref loc loc' hMem hMem' =>
      hUnique ref loc loc' ((hEntry ref loc).mp hMem).2.2 ((hEntry ref loc').mp hMem').2.2)
  refine ⟨hMap ▸ hWf, fun ref loc => ?_⟩
  rw [hMap, hIff, h.lookup_iff]
  constructor
  · rintro (hMem | ⟨hNot, hHolds⟩)
    · exact ((hEntry ref loc).mp hMem).2.2
    by_cases hSide : loc.symbolIdx = sym ∧ loc.side = side
    · obtain ⟨rfl, rfl⟩ := hSide
      obtain ⟨d, hOld, hNew⟩ := hTo ref _ _ hHolds
      by_cases hRange : first ≤ d ∧ d < first + len
      · exact absurd ((hEntry ref ⟨_, _, d, _⟩).mpr ⟨⟨rfl, rfl⟩, hRange, hNew⟩) (hNot _)
      · rw [← hStay d _ hNew.1 hRange hOld] at hNew
        exact hNew
    · exact (hElsewhere ref loc hSide).mpr hHolds
  · intro hHolds
    by_cases hMem : (ref, loc) ∈ refreshEntries sym side levels first len
    · exact .inl hMem
    refine .inr ⟨fun loc' hMem' => ?_, ?_⟩
    · have hEq := hUnique ref loc loc' hHolds ((hEntry ref loc').mp hMem').2.2
      exact hMem (hEq ▸ hMem')
    by_cases hSide : loc.symbolIdx = sym ∧ loc.side = side
    · obtain ⟨d₀, hOld, hHolds₀⟩ := hFrom' ref loc hSide hHolds
      have hRange : ¬ (first ≤ loc.levelIdx ∧ loc.levelIdx < first + len) :=
        fun hRange => hMem ((hEntry ref loc).mpr ⟨hSide, hRange, hHolds⟩)
      obtain ⟨rfl, rfl⟩ := hSide
      rw [hStay _ _ hHolds.1 hRange hOld] at hHolds₀
      exact hHolds₀
    · exact (hElsewhere ref loc hSide).mp hHolds

end LuvFlicker.LobEngine
