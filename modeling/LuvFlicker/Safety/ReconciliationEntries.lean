import LuvFlicker.Safety.Reconciliation

/-!
# The entries of the reconciliation ledger

What the operations do to the set of stored entries, on any ledger without double
ids. Such a ledger may still have lost an id: the entry is stored, but a gap on its
probe sequence hides it from lookups.
-/

namespace LuvFlicker.ReconciliationLedger

open Probe Entries.Unique

variable {bits : Fin 32} {l : ReconciliationLedger bits} {id : UInt64} {q : Int} {x : UInt64} {r : Int}

section

variable (l : ReconciliationLedger bits)

/-- The entry is stored, whether or not a lookup finds it. -/
def Holds (id : UInt64) (remaining : Int) : Prop :=
  (table bits).Stored l.entries ⟨id, remaining⟩

def Stores (id : UInt64) : Prop := ∃ remaining, l.Holds id remaining

/-- The id is stored but no longer found. -/
def Lost (id : UInt64) : Prop := l.Stores id ∧ l.contains id = false

def Unique : Prop := (table bits).Unique l.entries

end

theorem Holds.id_ne (h : l.Holds id r) : id ≠ 0 := h.1

theorem Unique.holds_inj (h : l.Unique) {r' : Int} (hHolds : l.Holds id r) (hHolds' : l.Holds id r') : r = r' := by
  obtain ⟨hId, i, hi, hEntry⟩ := hHolds
  obtain ⟨_, j, hj, hEntry'⟩ := hHolds'
  have hSame : i = j := h i hi j hj (by rw [hEntry]; exact hId) (by rw [hEntry, hEntry']; rfl)
  rw [hSame, hEntry'] at hEntry
  exact (LedgerEntry.mk.inj hEntry).2.symm

variable {l' : ReconciliationLedger bits}

theorem Unique.congr (h : l.Unique) (hEntries : l'.entries = l.entries) : l'.Unique := by
  rw [Unique, hEntries]
  exact h

theorem holds_congr (hEntries : l'.entries = l.entries) : l'.Holds id r ↔ l.Holds id r := by
  rw [Holds, Holds, hEntries]

variable {slot : Nat}

theorem holds_of_find (hId : id ≠ 0) (h : l.find id = some slot) : l.Holds id (l.entries slot).remaining := by
  obtain ⟨hSlot, rfl⟩ := find_lt h
  exact ⟨hId, slot, hSlot, rfl⟩

theorem unique_init : (init : ReconciliationLedger bits).Unique := fun _ _ _ _ hFull => absurd rfl hFull

theorem not_holds_init : ¬ (init : ReconciliationLedger bits).Holds id r := by
  rintro ⟨hId, _, _, hEntry⟩
  cases hEntry
  exact hId rfl

/-! ## Registration -/

theorem contains_of_registerOrder (h : (l.registerOrder id q).1 = true) : l.contains id = false := by
  rcases l.registerOrder_cases id q with hSame | ⟨_, hId, _, hFind, hEmpty, _⟩
  · rw [hSame] at h
    cases h
  · rw [contains, find, Entries.find_eq_none_of_findOrEmpty hFind hEmpty hId]
    simp

section

variable (h : l.Unique) (hOk : (l.registerOrder id q).1 = true)
include h hOk

theorem Unique.registerOrder (hNew : ¬ l.Stores id) :
    (l.registerOrder id q).2.Unique ∧ ∀ x r, (l.registerOrder id q).2.Holds x r ↔ x = id ∧ r = q ∨ l.Holds x r := by
  rcases l.registerOrder_cases id q with hSame | ⟨_, hId, _, hFind, hEmpty, hRegister⟩
  · rw [hSame] at hOk
    cases hOk
  rw [hRegister]
  refine ⟨update h fun i hi _ hKey => ?_, fun x r => ?_⟩
  · exact absurd ⟨_, hId, i, hi, by rw [← show (l.entries i).orderId = id from hKey]⟩ hNew
  refine (stored_place h (findOrEmpty_lt hFind) hEmpty ?_).trans ?_
  · exact hId
  · rw [LedgerEntry.mk.injEq]
    exact Iff.rfl

theorem Unique.registerOrder_cancel : ((l.registerOrder id q).2.cancel id).2.Unique ∧
      ∀ x r, ((l.registerOrder id q).2.cancel id).2.Holds x r ↔ l.Holds x r := by
  rcases l.registerOrder_cases id q with hSame | ⟨slot, _, _, hFind, hEmpty, hRegister⟩
  · rw [hSame] at hOk
    cases hOk
  have hFound : (l.registerOrder id q).2.find id = some slot := by
    rw [hRegister]
    have hKeys := (table bits).key_update l.entries slot ⟨id, q⟩
    exact (congrArg (fun keys => (layout bits).find keys id) hKeys).trans (Entries.find_update hFind)
  obtain ⟨entries, hErase, hCancel⟩ := cancel_of_some hFound
  have hErase' : (table bits).erase (table bits).maxRounds l.entries slot = some entries := by
    rw [← hErase, hRegister]
    exact (Entries.erase_update ..).symm
  obtain ⟨hUnique, hStored⟩ := erase h (findOrEmpty_lt hFind) hErase'
  rw [hCancel]
  refine ⟨hUnique, fun x r => (hStored _).trans ?_⟩
  exact and_iff_left_of_imp fun hHolds hSame => hHolds.1 (by rw [hSame]; exact hEmpty)

end

/-! ## Changes to a stored entry -/

variable (h : l.Unique)
include h

theorem Unique.setEntry (hId : id ≠ 0) (hFind : l.find id = some slot) : (l.setEntry slot ⟨id, q⟩).Unique ∧
      ∀ x r, (l.setEntry slot ⟨id, q⟩).Holds x r ↔ x = id ∧ r = q ∨ x ≠ id ∧ l.Holds x r := by
  obtain ⟨hSlot, rfl⟩ := find_lt hFind
  refine ⟨update_same h hSlot hId rfl, fun x r => ?_⟩
  refine (stored_update h hSlot).trans ?_
  rw [stored_ne_iff h hSlot, LedgerEntry.mk.injEq]
  constructor
  · rintro ⟨_, hNew | ⟨hOld, hne⟩⟩
    · exact .inl hNew
    · exact .inr ⟨hne, hOld⟩
  · rintro (⟨rfl, rfl⟩ | ⟨hne, hOld⟩)
    · exact ⟨hId, .inl ⟨rfl, rfl⟩⟩
    · exact ⟨hOld.1, .inr ⟨hOld, hne⟩⟩

theorem Unique.clearEntry (hFind : l.find id = some slot) :
    (l.setEntry slot {}).Unique ∧ ∀ x r, (l.setEntry slot {}).Holds x r ↔ l.Holds x r ∧ x ≠ id := by
  obtain ⟨hSlot, rfl⟩ := find_lt hFind
  refine ⟨clear h, fun x r => ?_⟩
  exact (stored_clear h hSlot).trans (stored_ne_iff h hSlot)

theorem Unique.cancel (hFind : l.find id = some slot) :
    (l.cancel id).2.Unique ∧ ∀ x r, (l.cancel id).2.Holds x r ↔ l.Holds x r ∧ x ≠ id := by
  obtain ⟨hSlot, rfl⟩ := find_lt hFind
  obtain ⟨_, hErase, hCancel⟩ := cancel_of_some hFind
  obtain ⟨hUnique, hStored⟩ := erase h hSlot hErase
  rw [hCancel]
  refine ⟨hUnique, fun x r => (hStored _).trans ?_⟩
  exact stored_ne_iff h hSlot

theorem Unique.apply {report : ExecutionReport} (hOk : (l.apply report).1 = true) :
    (l.apply report).2.Unique ∧ ∃ remaining, l.Holds report.orderId remaining ∧ ∀ x r, (l.apply report).2.Holds x r ↔
        (¬ (report.terminal ∨ remaining - report.filledQuantity = 0) ∧ x = report.orderId ∧
          r = remaining - report.filledQuantity) ∨ x ≠ report.orderId ∧ l.Holds x r := by
  rcases l.apply_cases report with ⟨hFail, _⟩ | ⟨_, _, hFits⟩
  · rw [hFail] at hOk
    cases hOk
  have hHolds := holds_of_find hFits.id_ne hFits.found
  rw [apply_of_fits hFits]
  split_ifs with hEnds
  · obtain ⟨hUnique, hEntries⟩ := h.clearEntry hFits.found
    refine ⟨hUnique, _, hHolds, fun x r => (hEntries x r).trans ?_⟩
    simp only [hEnds, not_true_eq_false, false_and, false_or]
    exact and_comm
  · obtain ⟨hUnique, hEntries⟩ := h.setEntry hFits.id_ne hFits.found
    refine ⟨hUnique, _, hHolds, fun x r => (hEntries x r).trans ?_⟩
    simp only [hEnds, not_false_eq_true, true_and]

theorem Unique.cancel_any (id : UInt64) : (l.cancel id).2.Unique ∧ (∀ x r, (l.cancel id).2.Holds x r → l.Holds x r) ∧
      ∀ x r, x ≠ id → ((l.cancel id).2.Holds x r ↔ l.Holds x r) := by
  cases hFind : l.find id with
  | none =>
    rw [cancel_of_none hFind]
    exact ⟨h, fun _ _ hHolds => hHolds, fun _ _ _ => Iff.rfl⟩
  | some slot =>
    obtain ⟨hUnique, hEntries⟩ := h.cancel hFind
    refine ⟨hUnique, fun x r hHolds => ((hEntries x r).mp hHolds).1, fun x r hne => (hEntries x r).trans ?_⟩
    exact and_iff_left hne

end LuvFlicker.ReconciliationLedger
