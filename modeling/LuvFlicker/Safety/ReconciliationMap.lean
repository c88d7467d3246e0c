import LuvFlicker.Lib.Run
import LuvFlicker.Safety.Reconciliation
import Mathlib.Data.Finmap

/-!
# The reconciliation ledger as a finite map

The specification is a finite map from order id to remaining quantity with at most
`Capacity` entries.
-/

namespace LuvFlicker

open Probe Run Finset Entries

inductive LedgerCall where
  | registerOrder (orderId : UInt64) (quantity : Int)
  | replace (orderId : UInt64) (newQuantity : Int)
  | apply (report : ExecutionReport)
  | cancel (orderId : UInt64)
  | contains (orderId : UInt64)
  deriving DecidableEq, Repr

/-- The specification: what is registered and has been neither cancelled nor filled. -/
abbrev LedgerMap := Finmap fun _ : UInt64 => Int

namespace LedgerMap

def perform (capacity : Nat) : LedgerCall → LedgerMap → Bool × LedgerMap
  | .registerOrder orderId quantity, m =>
    if orderId ≠ 0 ∧ 0 < quantity ∧ orderId ∉ m ∧ m.keys.card < capacity then (true, m.insert orderId quantity)
    else (false, m)
  | .replace orderId newQuantity, m =>
    if 0 < newQuantity ∧ orderId ∈ m then (true, m.insert orderId newQuantity) else (false, m)
  | .apply report, m =>
    match m.lookup report.orderId with
    | none => (false, m)
    | some remaining =>
      if 0 < report.filledQuantity ∧ report.filledQuantity ≤ remaining then
        (true, if report.terminal ∨ report.filledQuantity = remaining then m.erase report.orderId
          else m.insert report.orderId (remaining - report.filledQuantity))
      else (false, m)
  | .cancel orderId, m => if orderId ∈ m then (true, m.erase orderId) else (false, m)
  | .contains orderId, m => (decide (orderId ∈ m), m)

theorem keys_insert (m : LedgerMap) (orderId : UInt64) (quantity : Int) :
    (m.insert orderId quantity).keys = insert orderId m.keys := by
  ext id
  rw [Finmap.mem_keys, Finmap.mem_insert, mem_insert, Finmap.mem_keys]

variable {orderId id : UInt64}

theorem lookup_insert_iff (m : LedgerMap) {quantity r : Int} : (m.insert orderId quantity).lookup id = some r ↔
      id = orderId ∧ r = quantity ∨ id ≠ orderId ∧ m.lookup id = some r := by
  rcases eq_or_ne id orderId with rfl | hne
  · simp [eq_comm]
  · simp [hne]

theorem lookup_erase_iff (m : LedgerMap) {r : Int} :
    (m.erase orderId).lookup id = some r ↔ id ≠ orderId ∧ m.lookup id = some r := by
  rcases eq_or_ne id orderId with rfl | hne
  · simp
  · simp [hne]

end LedgerMap

open LedgerMap

namespace ReconciliationLedger

variable {bits : Fin 32} {l : ReconciliationLedger bits} {m : LedgerMap}

def perform : LedgerCall → ReconciliationLedger bits → Bool × ReconciliationLedger bits
  | .registerOrder orderId quantity, l => l.registerOrder orderId quantity
  | .replace orderId newQuantity, l => l.replace orderId newQuantity
  | .apply report, l => l.apply report
  | .cancel orderId, l => l.cancel orderId
  | .contains orderId, l => (l.contains orderId, l)

/-- A call with a bound on the rounds of its loop; `none` when it has not returned by then. -/
def performWithin (rounds : Nat) : LedgerCall → ReconciliationLedger bits → Option (Bool × ReconciliationLedger bits)
  | .cancel orderId, l => l.cancelWithin rounds orderId
  | call, l => some (perform call l)

theorem performWithin_maxRounds (call : LedgerCall) (l : ReconciliationLedger bits) :
    performWithin (table bits).maxRounds call l = some (perform call l) := by
  cases call with
  | cancel orderId => exact l.cancelWithin_maxRounds
  | _ => rfl

structure Retires (l : ReconciliationLedger bits) (report : ExecutionReport) (slot : Nat) : Prop where
  found : l.find report.orderId = some slot
  pos : 0 < report.filledQuantity
  le : report.filledQuantity ≤ (l.entries slot).remaining
  done : report.terminal ∨ report.filledQuantity = (l.entries slot).remaining

/-- The call leaves every other stored id on its probe sequence, and does not cancel an empty cell. -/
def KeepsChains : LedgerCall → ReconciliationLedger bits → Prop
  | .apply report, l => ∀ slot < capacity bits, l.Retires report slot → ¬ (table bits).Crossed l.entries slot
  | .cancel orderId, l => orderId = 0 → l.find orderId = none
  | _, _ => True

structure Represents (l : ReconciliationLedger bits) (m : LedgerMap) : Prop where
  wf : (table bits).Wf l.entries
  stored : ∀ id r, m.lookup id = some r ↔ (table bits).Stored l.entries ⟨id, r⟩
  count : l.openOrders.toNat = m.keys.card

theorem represents_init : Represents (init : ReconciliationLedger bits) ∅ where
  wf := wf_iff.mpr ⟨fun _ _ _ _ hFull => absurd rfl hFull, fun _ _ hFull => absurd rfl hFull⟩
  stored id r := by
    constructor
    · intro h
      cases h
    · rintro ⟨hKey, _, _, hEntry⟩
      cases hEntry
      exact absurd rfl hKey
  count := rfl

namespace Represents

theorem mem_iff (h : Represents l m) (id : UInt64) :
    id ∈ m ↔ id ≠ 0 ∧ ∃ slot < capacity bits, (l.entries slot).orderId = id := by
  rw [Finmap.mem_iff]
  constructor
  · rintro ⟨r, hLookup⟩
    obtain ⟨hKey, slot, hSlot, hEntry⟩ := (h.stored id r).mp hLookup
    exact ⟨hKey, slot, hSlot, by rw [hEntry]⟩
  · rintro ⟨hKey, slot, hSlot, rfl⟩
    exact ⟨_, (h.stored _ _).mpr ⟨hKey, slot, hSlot, rfl⟩⟩

variable {id : UInt64} {slot : Nat} (h : Represents l m)

include h

theorem lookup_of_find (hId : id ≠ 0) (hFind : l.find id = some slot) :
    m.lookup id = some (l.entries slot).remaining := by
  obtain ⟨hSlot, rfl⟩ := find_lt hFind
  exact (h.stored _ _).mpr ⟨hId, slot, hSlot, rfl⟩

theorem find_eq_none_iff (hId : id ≠ 0) : l.find id = none ↔ id ∉ m := by
  refine (Layout.Wf.find_eq_none_iff h.wf hId).trans ?_
  rw [h.mem_iff]
  simp [hId]

theorem contains_eq (id : UInt64) : l.contains id = decide (id ∈ m) := by
  rcases eq_or_ne id 0 with rfl | hId
  · have hZero : (0 : UInt64) ∉ m := fun hMem => ((h.mem_iff 0).mp hMem).1 rfl
    simp [contains, hZero]
  have hNone := h.find_eq_none_iff hId
  cases hFind : l.find id with
  | none => simp [contains, hFind, hNone.mp hFind]
  | some slot =>
    have hMem := Finmap.mem_of_lookup_eq_some (h.lookup_of_find hId hFind)
    simp [contains, hFind, hId, hMem]

theorem card_lt_iff : m.keys.card ≤ capacity bits ∧
      (m.keys.card < capacity bits ↔ ∃ slot < capacity bits, (l.entries slot).orderId = 0) := by
  refine Entries.Unique.card_lt_iff h.wf.unique fun id => ?_
  exact h.mem_iff id

variable {quantity : Int}

theorem insert_new (hId : id ≠ 0) (hFind : l.findOrEmpty id = some slot) (hEmpty : (l.entries slot).orderId = 0) :
    Represents ((l.setEntry slot ⟨id, quantity⟩).setOpen (l.openOrders + 1)) (m.insert id quantity) := by
  have hSlot := findOrEmpty_lt hFind
  have hAbsent : id ∉ m := (h.find_eq_none_iff hId).mp (find_eq_none_of_findOrEmpty hFind hEmpty hId)
  have hRoom : m.keys.card < capacity bits := h.card_lt_iff.2.mpr ⟨slot, hSlot, hEmpty⟩
  refine ⟨h.wf.place hId hFind hEmpty, fun _ r => ?_, ?_⟩
  · rw [lookup_insert_iff, h.stored]
    refine Iff.trans ?_ (h.wf.unique.stored_place (x := LedgerEntry.mk id _) hSlot hEmpty hId).symm
    rw [LedgerEntry.mk.injEq]
    constructor
    · rintro (hNew | ⟨_, hOld⟩)
      · exact .inl hNew
      · exact .inr hOld
    rintro (hNew | hOld)
    · exact .inl hNew
    refine .inr ⟨?_, hOld⟩
    rintro rfl
    exact hAbsent (Finmap.mem_of_lookup_eq_some ((h.stored _ _).mpr hOld))
  · have hPow : capacity bits ≤ 2 ^ 31 := Nat.pow_le_pow_right (by omega) (by omega)
    rw [keys_insert, card_insert_of_notMem (mt Finmap.mem_keys.mp hAbsent), ← h.count]
    rw [← h.count] at hRoom
    change (l.openOrders + 1).toNat = _
    rw [UInt32.toNat_add, UInt32.toNat_one, Nat.mod_eq_of_lt (by omega)]

theorem insert_same (hId : id ≠ 0) (hFind : l.find id = some slot) :
    Represents (l.setEntry slot { l.entries slot with remaining := quantity }) (m.insert id quantity) := by
  obtain ⟨hSlot, rfl⟩ := find_lt hFind
  refine ⟨h.wf.overwrite rfl, fun _ r => ?_, ?_⟩
  · rw [lookup_insert_iff, h.stored]
    refine Iff.trans ?_ (h.wf.unique.stored_update hSlot).symm
    rw [h.wf.unique.stored_ne_iff hSlot, LedgerEntry.mk.injEq]
    constructor
    · rintro (⟨rfl, rfl⟩ | ⟨hne, hOld⟩)
      · exact ⟨hId, .inl ⟨rfl, rfl⟩⟩
      · exact ⟨hOld.1, .inr ⟨hOld, hne⟩⟩
    · rintro ⟨_, hNew | ⟨hOld, hne⟩⟩
      · exact .inl hNew
      · exact .inr ⟨hne, hOld⟩
  · have hMem := Finmap.mem_keys.mpr (Finmap.mem_of_lookup_eq_some (h.lookup_of_find hId hFind))
    rw [keys_insert, insert_eq_of_mem hMem]
    exact h.count

theorem erase_clear {entries : Nat → LedgerEntry} (hId : id ≠ 0)
    (hFind : l.find id = some slot) (hWf : (table bits).Wf entries)
    (hStored : ∀ y, (table bits).Stored entries y ↔ (table bits).Stored l.entries y ∧ y ≠ l.entries slot) :
    Represents ((l.setEntries entries).setOpen (l.openOrders - 1)) (m.erase id) := by
  obtain ⟨hSlot, rfl⟩ := find_lt hFind
  refine ⟨hWf, fun _ r => ?_, ?_⟩
  · rw [lookup_erase_iff, h.stored, and_comm]
    exact (h.wf.unique.stored_ne_iff hSlot).symm.trans (hStored _).symm
  have hMem := Finmap.mem_keys.mpr (Finmap.mem_of_lookup_eq_some (h.lookup_of_find hId hFind))
  have hPos := card_pos.mpr ⟨_, hMem⟩
  rw [Finmap.keys_erase, card_erase_of_mem hMem, ← h.count]
  rw [← h.count] at hPos
  exact UInt32.toNat_sub_of_le _ _ (UInt32.le_iff_toNat_le.mpr hPos)

theorem registerOrder (id : UInt64) (quantity : Int) :
    (l.registerOrder id quantity).1 = (LedgerMap.perform (capacity bits) (.registerOrder id quantity) m).1 ∧
      Represents (l.registerOrder id quantity).2
        (LedgerMap.perform (capacity bits) (.registerOrder id quantity) m).2 := by
  simp only [ReconciliationLedger.registerOrder, LedgerMap.perform]
  by_cases hArgs : id = 0 ∨ quantity ≤ 0
  · have hRefused : ¬ (id ≠ 0 ∧ 0 < quantity ∧ id ∉ m ∧ m.keys.card < capacity bits) := by
      rintro ⟨hId, hPos, _⟩
      rcases hArgs with hZero | _
      · exact hId hZero
      · omega
    rw [if_pos hArgs, if_neg hRefused]
    exact ⟨rfl, h⟩
  · obtain ⟨hId, hPos⟩ := not_or.mp hArgs
    rw [if_neg hArgs]
    cases hFind : l.findOrEmpty id with
    | none =>
      have hFull : ¬ m.keys.card < capacity bits := by
        rw [h.card_lt_iff.2]
        rintro ⟨slot, hSlot, hEmpty⟩
        obtain ⟨d, hd, rfl⟩ := (layout bits).exists_cell id hSlot
        exact (((layout bits).findOrEmpty_eq_none_iff _ _).mp hFind d hd).2 hEmpty
      rw [if_neg fun hOk => hFull hOk.2.2.2]
      exact ⟨rfl, h⟩
    | some slot =>
      obtain ⟨d, hd, rfl, hStop, _⟩ := ((layout bits).findOrEmpty_eq_some_iff _ _ slot).mp hFind
      dsimp only
      by_cases hTaken : (l.entries ((layout bits).cell id d)).orderId ≠ 0
      · have hMem : id ∈ m := by
          rcases hStop with hKey | hEmpty
          · exact (h.mem_iff id).mpr ⟨hId, _, (layout bits).cell_lt id d, hKey⟩
          · exact absurd hEmpty hTaken
        rw [if_pos hTaken, if_neg fun hOk => hOk.2.2.1 hMem]
        exact ⟨rfl, h⟩
      · have hEmpty := not_not.mp hTaken
        have hAbsent : id ∉ m := (h.find_eq_none_iff hId).mp (find_eq_none_of_findOrEmpty hFind hEmpty hId)
        have hRoom := h.card_lt_iff.2.mpr ⟨_, findOrEmpty_lt hFind, hEmpty⟩
        rw [if_neg hTaken, if_pos ⟨hId, by omega, hAbsent, hRoom⟩]
        exact ⟨rfl, h.insert_new hId hFind hEmpty⟩

theorem replace (id : UInt64) (newQuantity : Int) :
    (l.replace id newQuantity).1 = (LedgerMap.perform (capacity bits) (.replace id newQuantity) m).1 ∧
      Represents (l.replace id newQuantity).2 (LedgerMap.perform (capacity bits) (.replace id newQuantity) m).2 := by
  simp only [ReconciliationLedger.replace, LedgerMap.perform]
  by_cases hArgs : id = 0 ∨ newQuantity ≤ 0
  · have hRefused : ¬ (0 < newQuantity ∧ id ∈ m) := by
      rintro ⟨hPos, hMem⟩
      rcases hArgs with hZero | _
      · exact ((h.mem_iff id).mp hMem).1 hZero
      · omega
    rw [if_pos hArgs, if_neg hRefused]
    exact ⟨rfl, h⟩
  · obtain ⟨hId, hPos⟩ := not_or.mp hArgs
    rw [if_neg hArgs]
    cases hFind : l.find id with
    | none =>
      rw [if_neg fun hOk => (h.find_eq_none_iff hId).mp hFind hOk.2]
      exact ⟨rfl, h⟩
    | some slot =>
      rw [if_pos ⟨by omega, Finmap.mem_of_lookup_eq_some (h.lookup_of_find hId hFind)⟩]
      exact ⟨rfl, h.insert_same hId hFind⟩

theorem cancel (id : UInt64) (hZero : id = 0 → l.find id = none) :
    (l.cancel id).1 = (LedgerMap.perform (capacity bits) (.cancel id) m).1 ∧
      Represents (l.cancel id).2 (LedgerMap.perform (capacity bits) (.cancel id) m).2 := by
  simp only [LedgerMap.perform]
  cases hFind : l.find id with
  | none =>
    have hAbsent : id ∉ m := by
      rcases eq_or_ne id 0 with hId | hId
      · exact fun hMem => ((h.mem_iff id).mp hMem).1 hId
      · exact (h.find_eq_none_iff hId).mp hFind
    rw [cancel_of_none hFind, if_neg hAbsent]
    exact ⟨rfl, h⟩
  | some slot =>
    have hId : id ≠ 0 := fun hId => by cases (hZero hId).symm.trans hFind
    have hSlot := (find_lt hFind).1
    obtain ⟨_, hErase, hCancel⟩ := cancel_of_some hFind
    rw [hCancel, if_pos (Finmap.mem_of_lookup_eq_some (h.lookup_of_find hId hFind))]
    exact ⟨rfl, h.erase_clear hId hFind (h.wf.erase hSlot hErase) (h.wf.unique.erase hSlot hErase).2⟩

theorem apply (report : ExecutionReport)
    (hKeeps : ∀ slot, l.Retires report slot → ¬ (table bits).Crossed l.entries slot) :
    (l.apply report).1 = (LedgerMap.perform (capacity bits) (.apply report) m).1 ∧
      Represents (l.apply report).2 (LedgerMap.perform (capacity bits) (.apply report) m).2 := by
  simp only [ReconciliationLedger.apply, LedgerMap.perform]
  by_cases hArgs : report.orderId = 0 ∨ report.filledQuantity ≤ 0
  · rw [if_pos hArgs]
    cases hLookup : m.lookup report.orderId with
    | none => exact ⟨rfl, h⟩
    | some remaining =>
      have hRefused : ¬ (0 < report.filledQuantity ∧ report.filledQuantity ≤ remaining) := by
        rcases hArgs with hZero | _
        · exact absurd hZero ((h.mem_iff _).mp (Finmap.mem_of_lookup_eq_some hLookup)).1
        · omega
      dsimp only
      rw [if_neg hRefused]
      exact ⟨rfl, h⟩
  · obtain ⟨hId, _⟩ := not_or.mp hArgs
    rw [if_neg hArgs]
    cases hFind : l.find report.orderId with
    | none =>
      rw [Finmap.lookup_eq_none.mpr ((h.find_eq_none_iff hId).mp hFind)]
      exact ⟨rfl, h.wf, h.stored, h.count⟩
    | some slot =>
      have hSlot := (find_lt hFind).1
      rw [h.lookup_of_find hId hFind]
      dsimp only
      by_cases hOver : report.filledQuantity > (l.entries slot).remaining
      · rw [if_pos hOver, if_neg (by omega)]
        exact ⟨rfl, h.wf, h.stored, h.count⟩
      have hZero : (l.entries slot).remaining - report.filledQuantity = 0 ↔
          report.filledQuantity = (l.entries slot).remaining := by omega
      have hFits : 0 < report.filledQuantity ∧ report.filledQuantity ≤ (l.entries slot).remaining := by omega
      rw [if_neg hOver, if_pos hFits]
      simp only [hZero]
      by_cases hDone : report.terminal = true ∨ report.filledQuantity = (l.entries slot).remaining
      · rw [if_pos hDone, if_pos hDone]
        have hClear := hKeeps slot ⟨hFind, hFits.1, hFits.2, hDone⟩
        refine ⟨rfl, h.erase_clear hId hFind (h.wf.clear hClear) fun y => ?_⟩
        exact h.wf.unique.stored_clear hSlot
      · rw [if_neg hDone, if_neg hDone]
        exact ⟨rfl, h.insert_same hId hFind⟩

theorem perform (call : LedgerCall) (hKeeps : KeepsChains call l) :
    (perform call l).1 = (LedgerMap.perform (capacity bits) call m).1 ∧
      Represents (perform call l).2 (LedgerMap.perform (capacity bits) call m).2 := by
  cases call with
  | registerOrder id quantity => exact h.registerOrder id _
  | replace id newQuantity => exact h.replace id _
  | apply report => exact h.apply _ fun slot hRetires => hKeeps slot (find_lt hRetires.found).1 hRetires
  | cancel id => exact h.cancel id fun hId => hKeeps hId
  | contains id => exact ⟨h.contains_eq id, h⟩

end Represents

/-- What a run of calls returns and leaves, compared with the finite map. -/
structure BehavesAsMap (bits : Fin 32) (calls : List LedgerCall) : Prop where
  results : (run perform calls (init : ReconciliationLedger bits)).1 =
    (run (LedgerMap.perform (capacity bits)) calls ∅).1
  contains : ∀ id, (final perform calls (init : ReconciliationLedger bits)).contains id =
    decide (id ∈ final (LedgerMap.perform (capacity bits)) calls ∅)
  remaining : ∀ id slot, id ≠ 0 → (final perform calls (init : ReconciliationLedger bits)).find id = some slot →
    (final (LedgerMap.perform (capacity bits)) calls ∅).lookup id =
      some ((final perform calls (init : ReconciliationLedger bits)).entries slot).remaining
  openOrders : (final perform calls (init : ReconciliationLedger bits)).openOrders.toNat =
    (final (LedgerMap.perform (capacity bits)) calls ∅).keys.card
  bounded : (final (LedgerMap.perform (capacity bits)) calls ∅).keys.card ≤ capacity bits
  terminates : ∀ call, ∃ rounds, performWithin rounds call (final perform calls (init : ReconciliationLedger bits)) =
      some (perform call (final perform calls init))

theorem run_behavesAsMap (bits : Fin 32) (calls : List LedgerCall)
    (h : Always perform KeepsChains calls (init : ReconciliationLedger bits)) : BehavesAsMap bits calls := by
  obtain ⟨hResults, hEnd⟩ := h.simulates (R := Represents)
    (fun call _ _ hKeeps hRep => hRep.perform call hKeeps) represents_init
  exact {
    results := hResults
    contains := hEnd.contains_eq
    remaining := fun _ _ hId hFind => hEnd.lookup_of_find hId hFind
    openOrders := hEnd.count
    bounded := hEnd.card_lt_iff.1
    terminates := fun call => ⟨_, performWithin_maxRounds call _⟩ }

instance (report : ExecutionReport) (slot : Nat) (l : ReconciliationLedger bits) : Decidable (l.Retires report slot) :=
  decidable_of_iff (l.find report.orderId = some slot ∧ 0 < report.filledQuantity ∧
    report.filledQuantity ≤ (l.entries slot).remaining ∧
    (report.terminal ∨ report.filledQuantity = (l.entries slot).remaining))
    ⟨fun ⟨a, b, c, d⟩ => ⟨a, b, c, d⟩, fun h => ⟨h.1, h.2, h.3, h.4⟩⟩

instance : ∀ (call : LedgerCall) (l : ReconciliationLedger bits), Decidable (KeepsChains call l)
  | .apply report, l => inferInstanceAs (Decidable
      (∀ slot < capacity bits, l.Retires report slot → ¬ (table bits).Crossed l.entries slot))
  | .cancel orderId, l => inferInstanceAs (Decidable (orderId = 0 → l.find orderId = none))
  | .registerOrder .., _ | .replace .., _ | .contains _, _ => isTrue trivial

/-- Ids `3` and `4` share a cell of four; the one behind is retired before the one in front. -/
def sampleCalls : List LedgerCall :=
  [.registerOrder 3 10, .registerOrder 4 7, .apply ⟨4, 2, false⟩, .apply ⟨4, 5, false⟩, .cancel 3]

theorem run_behavesAsMap_sampleCalls : BehavesAsMap 2 sampleCalls := run_behavesAsMap 2 sampleCalls (by decide +kernel)

/-- Ids `1` and `326` share a cell. The fill of the first one cuts the second one off. -/
def orphaningCalls : List LedgerCall := [.registerOrder 1 10, .registerOrder 326 7, .apply ⟨1, 10, false⟩]

theorem orphaningCalls_lose_order : ¬ BehavesAsMap 16 orphaningCalls := by
  intro h
  have hLost := h.contains 326
  revert hLost
  decide +kernel

end ReconciliationLedger

end LuvFlicker
