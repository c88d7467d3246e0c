import LuvFlicker.Arena
import LuvFlicker.Lib.Probe

/-!
# The symbol table

An open-addressing table from eight-byte tickers to symbol indices. A free cell
is one without an index; the table takes no more tickers than half its cells.
-/

namespace LuvFlicker

open Function Config Finset

structure SymbolTable where
  keys : Nat → UInt64
  values : Nat → UInt16
  count : Nat

namespace SymbolTable

def kCapacity : Nat := kSymbols * 2
def kNotFound : UInt16 := 0xFFFF
def kFibMul : UInt64 := 0x9E3779B97F4A7C15

def kShift : UInt64 := 54

def hash (key : UInt64) : Nat := ((key * kFibMul) >>> kShift).toNat

theorem kCapacity_eq : kCapacity = 2 ^ 10 := by decide

theorem hash_lt (key : UInt64) : hash key < kCapacity := by
  simp only [hash, UInt64.toNat_shiftRight]
  rw [Nat.shiftRight_eq_div_pow]
  exact Nat.div_lt_of_lt_mul (UInt64.toNat_lt _)

def layout : Probe.Layout UInt64 where
  cap := kCapacity
  bits := 10
  cap_eq := kCapacity_eq
  hash := hash
  hash_lt := hash_lt
  empty := 0
  limit := kCapacity / 2
  limit_le := by decide

def empty : SymbolTable where
  keys := fun _ => 0
  values := fun _ => kNotFound
  count := 0

/-- The cell where the loop of `insert` stops: a free one, or the one of the ticker. The loop has no bound of its
own; `insert_finds` shows that one round suffices. -/
def insertSlot (t : SymbolTable) (key : UInt64) : Option Nat := Scan.scan (Probe.next kCapacity)
    (fun slot => if t.values slot = kNotFound ∨ t.keys slot = key then some slot else none) kCapacity (hash key)

def insert (t : SymbolTable) (key : UInt64) (idx : UInt16) : Bool × SymbolTable :=
  if idx.toNat ≥ kSymbols ∨ t.count ≥ kCapacity / 2 then (false, t)
  else
    match t.insertSlot key with
    | none => (false, t)
    | some slot =>
      if t.values slot ≠ kNotFound then (true, { t with values := update t.values slot idx })
      else
        (true, { keys := update t.keys slot key, values := update t.values slot idx,
                 count := t.count + 1 })

def lookup (t : SymbolTable) (key : UInt64) : UInt16 := (Scan.scan (Probe.next kCapacity) (fun slot =>
    if t.values slot = kNotFound then some kNotFound
    else if t.keys slot = key then some (t.values slot)
    else none) (kCapacity / 2) (hash key)).getD kNotFound

def ofInserts (entries : List (UInt64 × UInt16)) : SymbolTable :=
  entries.foldl (fun t entry => (t.insert entry.1 entry.2).2) empty

def used (t : SymbolTable) : Finset Nat := (Finset.range kCapacity).filter fun slot => t.values slot ≠ kNotFound

structure Wf (t : SymbolTable) : Prop where
  values_lt : ∀ slot, t.values slot = kNotFound ∨ (t.values slot).toNat < kSymbols
  count_eq : t.count = t.used.card
  count_le : t.count ≤ kCapacity / 2

variable {t : SymbolTable} {key : UInt64} {idx : UInt16} {slot : Nat}

theorem empty_wf : empty.Wf where
  values_lt := fun _ => .inl rfl
  count_eq := by
    have hNone : empty.used = ∅ := filter_false_of_mem fun _ _ hNe => hNe rfl
    rw [hNone]
    rfl
  count_le := Nat.zero_le _

theorem insertSlot_eq_some (h : t.insertSlot key = some slot) :
    slot < kCapacity ∧ (t.values slot = kNotFound ∨ t.keys slot = key) := by
  obtain ⟨d, _, hVisit, _⟩ := (Scan.scan_eq_some_iff ..).mp h
  rw [show (Probe.next kCapacity)^[d] (hash key) = layout.cell key d from layout.iterate_next key d] at hVisit
  split_ifs at hVisit with hStop
  obtain rfl := Option.some.inj hVisit
  exact ⟨layout.cell_lt key d, hStop⟩

theorem Wf.insert_finds (h : t.Wf) (key : UInt64) : ∃ slot, t.insertSlot key = some slot := by
  cases hSlot : t.insertSlot key with
  | some slot => exact ⟨slot, rfl⟩
  | none =>
    have hNone := (Scan.scan_eq_none_iff ..).mp hSlot
    have hFull : t.used = range kCapacity := by
      refine filter_true_of_mem fun slot hMem hFree => ?_
      obtain ⟨d, hd, hCell⟩ := layout.exists_cell key (mem_range.mp hMem)
      have hVisit := hNone d hd
      rw [show (Probe.next kCapacity)^[d] (hash key) = slot from (layout.iterate_next key d).trans hCell] at hVisit
      rw [if_pos (.inl hFree)] at hVisit
      cases hVisit
    have hCount := h.count_eq
    rw [hFull, card_range] at hCount
    have hLe := h.count_le
    rw [hCount] at hLe
    exact absurd hLe (by decide)

theorem ne_kNotFound (h : idx.toNat < kSymbols) : idx ≠ kNotFound := by
  rintro rfl
  exact absurd h (by decide)

theorem used_update_of_mem (hIdx : idx ≠ kNotFound) (hUsed : t.values slot ≠ kNotFound) :
    { t with values := update t.values slot idx }.used = t.used := by
  refine filter_congr fun s _ => ?_
  by_cases hs : s = slot
  · subst hs
    simp [hIdx, hUsed]
  · simp [update_of_ne hs]

theorem card_used_update {keys : Nat → UInt64} {count : Nat} (hIdx : idx ≠ kNotFound) (hSlot : slot < kCapacity)
    (hFree : t.values slot = kNotFound) :
    (used ⟨keys, update t.values slot idx, count⟩).card = t.used.card + 1 := by
  have hInsert : used ⟨keys, update t.values slot idx, count⟩ = Insert.insert slot t.used := by
    ext s
    simp only [used]
    by_cases hs : s = slot
    · subst hs
      simp [hSlot, hIdx]
    · simp [hs]
  rw [hInsert, card_insert_of_notMem (by simp [used, hFree])]

theorem Wf.insert (h : t.Wf) (key : UInt64) (idx : UInt16) : (t.insert key idx).2.Wf := by
  unfold SymbolTable.insert
  split_ifs with hRefused
  · exact h
  rw [not_or, not_le, not_le] at hRefused
  obtain ⟨hIdx, hRoom⟩ := hRefused
  obtain ⟨slot, hSlot⟩ := h.insert_finds key
  obtain ⟨hLt, _⟩ := insertSlot_eq_some hSlot
  have hValues : ∀ s, update t.values slot idx s = kNotFound ∨ (update t.values slot idx s).toNat < kSymbols := by
    intro s
    by_cases hs : s = slot
    · subst hs
      rw [update_self]
      exact .inr hIdx
    · rw [update_of_ne hs]
      exact h.values_lt s
  simp only [hSlot]
  split_ifs with hUsed
  · exact ⟨hValues, h.count_eq.trans (by rw [used_update_of_mem (ne_kNotFound hIdx) hUsed]), h.count_le⟩
  · refine ⟨hValues, ?_, hRoom⟩
    rw [card_used_update (ne_kNotFound hIdx) hLt (not_not.mp hUsed), h.count_eq]

theorem ofInserts_wf {entries : List (UInt64 × UInt16)} : (ofInserts entries).Wf := by
  have hFold : ∀ (entries : List (UInt64 × UInt16)) (t : SymbolTable), t.Wf →
      (entries.foldl (fun t entry => (t.insert entry.1 entry.2).2) t).Wf := by
    intro entries
    induction entries with
    | nil => exact fun t h => h
    | cons entry entries ih => exact fun t h => ih _ (h.insert _ _)
  exact hFold _ _ empty_wf

theorem Wf.lookup_lt (h : t.Wf) (hFound : t.lookup key ≠ kNotFound) : (t.lookup key).toNat < kSymbols := by
  unfold lookup at hFound ⊢
  cases hScan : Scan.scan (Probe.next kCapacity) (fun slot =>
      if t.values slot = kNotFound then some kNotFound
      else if t.keys slot = key then some (t.values slot)
      else none) (kCapacity / 2) (hash key) with
  | none =>
    rw [hScan] at hFound
    exact absurd rfl hFound
  | some value =>
    rw [hScan] at hFound
    obtain ⟨d, _, hVisit, _⟩ := (Scan.scan_eq_some_iff ..).mp hScan
    split_ifs at hVisit with hFree hKey
    · exact absurd (Option.some.inj hVisit).symm hFound
    · rw [← Option.some.inj hVisit]
      exact (h.values_lt _).resolve_left hFree

end SymbolTable

end LuvFlicker
