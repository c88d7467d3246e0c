import LuvFlicker.Lib.Table

/-!
# The reconciliation ledger

The open-addressing table from order id to remaining quantity that checks every
execution report. `cancel` re-inserts the cluster behind the entry it clears and
`apply` does not. Quantities are exact integers.
-/

namespace LuvFlicker

open Option

structure ExecutionReport where
  orderId : UInt64
  filledQuantity : Int
  terminal : Bool
  deriving DecidableEq, Repr

structure LedgerEntry where
  orderId : UInt64 := 0
  remaining : Int := 0
  deriving DecidableEq, Repr

/-- `ReconciliationLedger<1 << bits>`. -/
structure ReconciliationLedger (bits : Fin 32) where
  entries : Nat → LedgerEntry
  openOrders : UInt32
  mismatches : UInt64

namespace ReconciliationLedger

variable {bits : Fin 32}

def capacity (bits : Fin 32) : Nat := 2 ^ bits.val

def init : ReconciliationLedger bits where
  entries := fun _ => {}
  openOrders := 0
  mismatches := 0

section

variable (bits : Fin 32)

def hash (key : UInt64) : Nat :=
  let key := key ^^^ (key >>> 30)
  let key := key * 0xBF58476D1CE4E5B9
  let key := key ^^^ (key >>> 27)
  let key := key * 0x94D049BB133111EB
  let key := key ^^^ (key >>> 31)
  key.toUInt32.toNat &&& (capacity bits - 1)

theorem hash_lt (key : UInt64) : hash bits key < capacity bits := by
  simp only [hash, capacity, Nat.and_two_pow_sub_one_eq_mod]
  exact Nat.mod_lt _ (Nat.two_pow_pos _)

def layout : Probe.Layout UInt64 where
  cap := capacity bits
  bits := bits
  cap_eq := rfl
  hash := hash bits
  hash_lt := hash_lt bits
  empty := 0
  limit := capacity bits
  limit_le := Nat.le_refl _

def table : Probe.Entries UInt64 LedgerEntry where
  layout := layout bits
  limit_eq := rfl
  key := LedgerEntry.orderId
  blank := {}
  key_blank := rfl

end

section

variable (l : ReconciliationLedger bits) (orderId : UInt64)

def find : Option Nat :=
  (layout bits).find (fun slot => (l.entries slot).orderId) orderId

def findOrEmpty : Option Nat :=
  (layout bits).findOrEmpty (fun slot => (l.entries slot).orderId) orderId

def setEntries (entries : Nat → LedgerEntry) : ReconciliationLedger bits :=
  { l with entries := entries }

def setEntry (slot : Nat) (entry : LedgerEntry) : ReconciliationLedger bits :=
  l.setEntries (Function.update l.entries slot entry)

def setOpen (openOrders : UInt32) : ReconciliationLedger bits :=
  { l with openOrders := openOrders }

def registerOrder (quantity : Int) : Bool × ReconciliationLedger bits :=
  if orderId = 0 ∨ quantity ≤ 0 then (false, l)
  else
    match l.findOrEmpty orderId with
    | none => (false, l)
    | some slot =>
      if (l.entries slot).orderId ≠ 0 then (false, l)
      else (true, (l.setEntry slot ⟨orderId, quantity⟩).setOpen (l.openOrders + 1))

def replace (newQuantity : Int) : Bool × ReconciliationLedger bits :=
  if orderId = 0 ∨ newQuantity ≤ 0 then (false, l)
  else
    match l.find orderId with
    | none => (false, l)
    | some slot => (true, l.setEntry slot { l.entries slot with remaining := newQuantity })

def mismatch : ReconciliationLedger bits := { l with mismatches := l.mismatches + 1 }

def apply (report : ExecutionReport) : Bool × ReconciliationLedger bits :=
  if report.orderId = 0 ∨ report.filledQuantity ≤ 0 then (false, l)
  else
    match l.find report.orderId with
    | none => (false, l.mismatch)
    | some slot =>
      if report.filledQuantity > (l.entries slot).remaining then (false, l.mismatch)
      else
        let remaining := (l.entries slot).remaining - report.filledQuantity
        if report.terminal ∨ remaining = 0 then
          (true, (l.setEntry slot {}).setOpen (l.openOrders - 1))
        else (true, l.setEntry slot { l.entries slot with remaining := remaining })

def contains : Bool := orderId ≠ 0 && (l.find orderId).isSome

/-- `cancel` with a bound on the rounds of `reinsert_cluster`; `none` when the loop has not ended by then. -/
def cancelWithin (rounds : Nat) (l : ReconciliationLedger bits) (orderId : UInt64) :
    Option (Bool × ReconciliationLedger bits) :=
  match l.find orderId with
  | none => some (false, l)
  | some slot =>
    ((table bits).erase rounds l.entries slot).map fun entries =>
      (true, (l.setEntries entries).setOpen (l.openOrders - 1))

def cancel : Bool × ReconciliationLedger bits :=
  (l.cancelWithin (table bits).maxRounds orderId).getD (false, l)

end

@[simp]
theorem layout_cap : (layout bits).cap = capacity bits := rfl

@[simp]
theorem layout_empty : (layout bits).empty = 0 := rfl

@[simp]
theorem table_layout : (table bits).layout = layout bits := rfl

@[simp]
theorem table_key (entry : LedgerEntry) : (table bits).key entry = entry.orderId := rfl

variable {l : ReconciliationLedger bits} {orderId : UInt64} {slot : Nat}

theorem find_lt (h : l.find orderId = some slot) : slot < capacity bits ∧ (l.entries slot).orderId = orderId :=
  (layout bits).find_lt h

theorem findOrEmpty_lt (h : l.findOrEmpty orderId = some slot) : slot < capacity bits := by
  obtain ⟨d, _, rfl, _⟩ := ((layout bits).findOrEmpty_eq_some_iff _ _ _).mp h
  exact (layout bits).cell_lt _ d

theorem registerOrder_cases (l : ReconciliationLedger bits) (orderId : UInt64) (quantity : Int) :
    l.registerOrder orderId quantity = (false, l) ∨
    ∃ slot, orderId ≠ 0 ∧ 0 < quantity ∧ l.findOrEmpty orderId = some slot ∧ (l.entries slot).orderId = 0 ∧
      l.registerOrder orderId quantity = (true, (l.setEntry slot ⟨orderId, quantity⟩).setOpen (l.openOrders + 1)) := by
  unfold registerOrder
  by_cases hArgs : orderId = 0 ∨ quantity ≤ 0
  · exact .inl (if_pos hArgs)
  obtain ⟨hId, hPos⟩ := not_or.mp hArgs
  rw [if_neg hArgs]
  cases hFind : l.findOrEmpty orderId with
  | none => exact .inl rfl
  | some slot =>
    by_cases hTaken : (l.entries slot).orderId ≠ 0
    · exact .inl (if_pos hTaken)
    · exact .inr ⟨slot, hId, by omega, rfl, not_not.mp hTaken, if_neg hTaken⟩

theorem registerOrder_of_false {quantity : Int}
    (h : (l.registerOrder orderId quantity).1 = false) : (l.registerOrder orderId quantity).2 = l := by
  rcases l.registerOrder_cases orderId quantity with hSame | ⟨_, _, _, _, _, hNew⟩
  · rw [hSame]
  · rw [hNew] at h
    cases h

structure Fits (l : ReconciliationLedger bits) (report : ExecutionReport) (slot : Nat) : Prop where
  id_ne : report.orderId ≠ 0
  found : l.find report.orderId = some slot
  pos : 0 < report.filledQuantity
  le : report.filledQuantity ≤ (l.entries slot).remaining

theorem apply_of_fits {report : ExecutionReport} (h : l.Fits report slot) : l.apply report =
      if report.terminal ∨ (l.entries slot).remaining - report.filledQuantity = 0 then
        (true, (l.setEntry slot {}).setOpen (l.openOrders - 1))
      else (true, l.setEntry slot ⟨report.orderId, (l.entries slot).remaining - report.filledQuantity⟩) := by
  have hKey := ((layout bits).find_lt h.found).2
  have hPos := h.pos
  have hLe := h.le
  unfold apply
  rw [if_neg (by rintro (hZero | hNeg); exacts [h.id_ne hZero, by omega]), h.found]
  dsimp only at hKey ⊢
  rw [if_neg (by omega), hKey]

theorem apply_cases (l : ReconciliationLedger bits) (report : ExecutionReport) :
    (l.apply report).1 = false ∧ (l.apply report).2.entries = l.entries ∨
    (l.apply report).1 = true ∧ ∃ slot, l.Fits report slot := by
  by_cases hArgs : report.orderId = 0 ∨ report.filledQuantity ≤ 0
  · exact .inl (by simp [apply, if_pos hArgs])
  obtain ⟨hId, hPos⟩ := not_or.mp hArgs
  cases hFind : l.find report.orderId with
  | none => exact .inl (by simp [apply, if_neg hArgs, hFind, mismatch])
  | some slot =>
    by_cases hOver : report.filledQuantity > (l.entries slot).remaining
    · exact .inl (by simp [apply, if_neg hArgs, hFind, if_pos hOver, mismatch])
    have hFits : l.Fits report slot := ⟨hId, hFind, by omega, by omega⟩
    refine .inr ⟨?_, slot, hFits⟩
    rw [apply_of_fits hFits]
    split_ifs <;> rfl

theorem contains_iff : l.contains orderId = true ↔ orderId ≠ 0 ∧ ∃ slot, l.find orderId = some slot := by
  rw [contains, Bool.and_eq_true, isSome_iff_exists]
  simp

theorem replace_of_some {newQuantity : Int}
    (hId : orderId ≠ 0) (hPos : 0 < newQuantity) (hFind : l.find orderId = some slot) :
    l.replace orderId newQuantity = (true, l.setEntry slot ⟨orderId, newQuantity⟩) := by
  have hKey := ((layout bits).find_lt hFind).2
  unfold replace
  rw [if_neg (by rintro (hZero | hNeg); exacts [hId hZero, by omega]), hFind]
  dsimp only at hKey ⊢
  rw [hKey]

theorem cancelWithin_maxRounds (l : ReconciliationLedger bits) {orderId : UInt64} :
    l.cancelWithin (table bits).maxRounds orderId = some (l.cancel orderId) := by
  rw [cancel]
  cases hFind : l.find orderId with
  | none => simp [cancelWithin, hFind]
  | some slot =>
    obtain ⟨entries, hErase⟩ := (table bits).erase_maxRounds l.entries slot (find_lt hFind).1
    simp [cancelWithin, hFind, hErase]

theorem cancel_of_none (h : l.find orderId = none) : l.cancel orderId = (false, l) := by
  simp [cancel, cancelWithin, h]

theorem cancel_of_some (h : l.find orderId = some slot) :
    ∃ entries, (table bits).erase (table bits).maxRounds l.entries slot = some entries ∧
      l.cancel orderId = (true, (l.setEntries entries).setOpen (l.openOrders - 1)) := by
  obtain ⟨entries, hErase⟩ := (table bits).erase_maxRounds _ slot (find_lt h).1
  refine ⟨_, hErase, ?_⟩
  simp [cancel, cancelWithin, h, hErase]

end ReconciliationLedger

end LuvFlicker
