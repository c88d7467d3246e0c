import LuvFlicker.Lib.Run

/-!
# Close-out of failed deliveries

The penalty box has 64 places. The symbol of a buy-in that finds it full is not restricted.
-/

namespace LuvFlicker.RegSho

open Run List

inductive FtdType where
  | shortSale
  | longSale
  | rule144Restricted

inductive CloseOutStatus where
  | isOpen
  | cured
  | mandatoryBuyInTriggered
  | penaltyBoxRestriction
deriving DecidableEq

structure FtdRecord where
  ftdId : UInt64
  participantId : UInt64
  symbolId : UInt64
  failQuantity : UInt64
  curedQuantity : UInt64 := 0
  settlementDay : UInt32
  currentDay : UInt32
  type : FtdType
  status : CloseOutStatus := .isOpen

structure RegSho204Engine where
  records : List FtdRecord := []
  penaltySymbols : List UInt64 := []

def kMaxRecords : Nat := 256
def kMaxPenaltySymbols : Nat := 64

def FtdType.maxDays : FtdType → UInt32
  | .shortSale => 1
  | .longSale => 3
  | .rule144Restricted => 5

def addToPenaltyBox (symbolId : UInt64) (box : List UInt64) : List UInt64 :=
  if symbolId ∈ box then box else if box.length < kMaxPenaltySymbols then box ++ [symbolId] else box

/-- The loop of `cure_ftd`. -/
def cureLoop (ftdId deliveredQty : UInt64) : List FtdRecord → Bool × List FtdRecord
  | [] => (false, [])
  | r :: rest =>
    if r.ftdId = ftdId ∧ r.status = .isOpen then
      let cured := r.curedQuantity + deliveredQty
      (true, { r with curedQuantity := cured, status := if cured ≥ r.failQuantity then .cured else r.status } :: rest)
    else
      let out := cureLoop ftdId deliveredQty rest
      (out.1, r :: out.2)

namespace FtdRecord

def triggers (newDay : UInt32) (r : FtdRecord) : Bool :=
  r.status = .isOpen ∧ (if newDay ≥ r.settlementDay then newDay - r.settlementDay else 0) ≥ r.type.maxDays

/-- A record after the loop of `advance_business_day`. -/
def advance (newDay : UInt32) (r : FtdRecord) : FtdRecord :=
  if r.status ≠ .isOpen then r
  else { r with currentDay := newDay, status := if r.triggers newDay then .mandatoryBuyInTriggered else r.status }

end FtdRecord

/-- The penalty box after the loop of `advance_business_day`. -/
def boxAfter (newDay : UInt32) (records : List FtdRecord) (box : List UInt64) : List UInt64 :=
  records.foldl (fun box r => if r.triggers newDay then addToPenaltyBox r.symbolId box else box) box

inductive ShoOp where
  | registerFtd (ftdId participantId symbolId failQty : UInt64) (settlementDay : UInt32) (type : FtdType)
  | cureFtd (ftdId deliveredQty : UInt64)
  | advanceBusinessDay (newDay : UInt32)

namespace ShoOp

def step : ShoOp → RegSho204Engine → Bool × RegSho204Engine
  | registerFtd ftdId participantId symbolId failQty day type, e =>
    if e.records.length ≥ kMaxRecords then (false, e)
    else
      let r : FtdRecord :=
        { ftdId, participantId, symbolId, failQuantity := failQty, settlementDay := day, currentDay := day, type }
      (true, { e with records := e.records ++ [r] })
  | cureFtd ftdId deliveredQty, e =>
    let out := cureLoop ftdId deliveredQty e.records
    (out.1, { e with records := out.2 })
  | advanceBusinessDay newDay, e =>
    (true, ⟨e.records.map (·.advance newDay), boxAfter newDay e.records e.penaltySymbols⟩)

def symbol? : ShoOp → Option UInt64
  | registerFtd _ _ symbolId _ _ _ => some symbolId
  | _ => none

end ShoOp

def isPreBorrowRequired (e : RegSho204Engine) (symbolId : UInt64) : Bool := symbolId ∈ e.penaltySymbols

/-- Exactly the symbols of buy-ins are restricted. -/
def Restricts (e : RegSho204Engine) : Prop :=
  ∀ s, isPreBorrowRequired e s = true ↔ ∃ r ∈ e.records, r.symbolId = s ∧ r.status = .mandatoryBuyInTriggered

/-- The symbols of the records that triggered a buy-in. -/
def boughtIn (records : List FtdRecord) : List UInt64 :=
  (records.filter (·.status = .mandatoryBuyInTriggered)).map (·.symbolId)

/-- The box has its symbols from buy-ins, and lacks one only when it is full. -/
structure Boxed (box : List UInt64) (bought : UInt64 → Prop) : Prop where
  nodup : box.Nodup
  size : box.length ≤ kMaxPenaltySymbols
  only : ∀ s ∈ box, bought s
  all : box.length < kMaxPenaltySymbols → ∀ s, bought s → s ∈ box

variable {box : List UInt64} {bought : UInt64 → Prop} {records : List FtdRecord}

theorem mem_boughtIn {s : UInt64} :
    s ∈ boughtIn records ↔ ∃ r ∈ records, r.symbolId = s ∧ r.status = .mandatoryBuyInTriggered := by
  simp only [boughtIn, mem_map, mem_filter, decide_eq_true_eq, and_assoc, and_comm (a := _ = s)]

namespace Boxed

section

variable (h : Boxed box bought)
include h

theorem congr {bought' : UInt64 → Prop} (hSame : ∀ s, bought s ↔ bought' s) : Boxed box bought' where
  nodup := h.nodup
  size := h.size
  only s hs := (hSame s).mp (h.only s hs)
  all hFree s hs := h.all hFree s ((hSame s).mpr hs)

theorem addToPenaltyBox (symbolId : UInt64) :
    Boxed (addToPenaltyBox symbolId box) fun s => bought s ∨ s = symbolId := by
  rw [RegSho.addToPenaltyBox]
  split_ifs with hHeld hRoom
  · refine ⟨h.nodup, h.size, fun s hs => .inl (h.only s hs), fun hFree s hs => ?_⟩
    rcases hs with hOld | rfl
    · exact h.all hFree s hOld
    · exact hHeld
  · refine ⟨?_, ?_, fun s hs => ?_, fun _ s hs => ?_⟩
    · exact (perm_append_singleton _ _).nodup_iff.mpr (nodup_cons.mpr ⟨hHeld, h.nodup⟩)
    · rw [length_append]
      exact hRoom
    · rcases mem_append.mp hs with hOld | hNew
      · exact .inl (h.only s hOld)
      · exact .inr (mem_singleton.mp hNew)
    · rcases hs with hOld | rfl
      · exact mem_append_left _ (h.all hRoom s hOld)
      · exact mem_append_right _ (mem_singleton_self _)
  · exact ⟨h.nodup, h.size, fun s hs => .inl (h.only s hs), fun hFree => absurd hFree hRoom⟩

theorem boxAfter (newDay : UInt32) : Boxed (boxAfter newDay records box) fun s =>
    bought s ∨ ∃ r ∈ records, r.symbolId = s ∧ r.triggers newDay = true := by
  induction records generalizing box bought with
  | nil => exact h.congr fun s => by simp
  | cons r rest ih =>
    rw [RegSho.boxAfter, foldl_cons, ← RegSho.boxAfter]
    cases hTriggers : r.triggers newDay with
    | false =>
      refine (ih h).congr fun s => ?_
      simp only [exists_mem_cons_iff, hTriggers, Bool.false_eq_true, and_false, false_or]
    | true =>
      refine (ih (h.addToPenaltyBox r.symbolId)).congr fun s => ?_
      simp only [exists_mem_cons_iff, hTriggers, and_true, or_assoc, eq_comm]

end

/-- A box that lacks no symbol has room for all of them, and a full box lacks one only if they are more than 64. -/
theorem exact_iff {bought : List UInt64} (h : Boxed box (· ∈ bought)) :
    (∀ s, s ∈ box ↔ s ∈ bought) ↔ bought.dedup.length ≤ kMaxPenaltySymbols := by
  constructor
  · intro hExact
    have hSubset : bought.dedup ⊆ box := fun s hs => (hExact s).mpr (mem_dedup.mp hs)
    exact (subperm_of_subset (nodup_dedup _) hSubset).length_le.trans h.size
  · refine fun hFew s => ⟨h.only s, fun hs => ?_⟩
    by_contra hLacks
    have hFull : ¬ box.length < kMaxPenaltySymbols := fun hFree => hLacks (h.all hFree s hs)
    have hSubset : s :: box ⊆ bought.dedup :=
      cons_subset.mpr ⟨mem_dedup.mpr hs, fun _ hMem => mem_dedup.mpr (h.only _ hMem)⟩
    have hLength := (subperm_of_subset (nodup_cons.mpr ⟨hLacks, h.nodup⟩) hSubset).length_le
    rw [length_cons] at hLength
    omega

end Boxed

theorem mem_boughtIn_cureLoop (ftdId deliveredQty s : UInt64) :
    s ∈ boughtIn (cureLoop ftdId deliveredQty records).2 ↔ s ∈ boughtIn records := by
  rw [mem_boughtIn, mem_boughtIn]
  induction records with
  | nil => rfl
  | cons r rest ih =>
    rw [cureLoop]
    split_ifs with hFound
    · -- the record found is open, and stays open or is cured
      simp only [exists_mem_cons_iff, hFound.2]
      split_ifs <;> simp
    · rw [exists_mem_cons_iff, exists_mem_cons_iff, ih]

theorem advance_status (newDay : UInt32) (r : FtdRecord) : (r.advance newDay).status = .mandatoryBuyInTriggered ↔
    r.status = .mandatoryBuyInTriggered ∨ r.triggers newDay = true := by
  rw [FtdRecord.advance]
  by_cases hOpen : r.status = .isOpen
  · rw [if_neg (not_not.mpr hOpen)]
    cases r.triggers newDay <;> simp [hOpen]
  · have hQuiet : r.triggers newDay = false := by simp [FtdRecord.triggers, hOpen]
    rw [if_pos hOpen, hQuiet]
    simp

theorem advance_symbolId (newDay : UInt32) (r : FtdRecord) : (r.advance newDay).symbolId = r.symbolId := by
  rw [FtdRecord.advance]
  split_ifs <;> rfl

theorem boxed_step (op : ShoOp) (e : RegSho204Engine) (h : Boxed e.penaltySymbols (· ∈ boughtIn e.records)) :
    Boxed (op.step e).2.penaltySymbols (· ∈ boughtIn (op.step e).2.records) := by
  cases op with
  | registerFtd ftdId participantId symbolId failQty day type =>
    rw [ShoOp.step]
    split_ifs
    · exact h
    · refine h.congr fun s => ?_
      simp [boughtIn]
  | cureFtd ftdId deliveredQty => exact h.congr fun s => (mem_boughtIn_cureLoop ftdId deliveredQty s).symm
  | advanceBusinessDay newDay =>
    refine (h.boxAfter newDay).congr fun s => ?_
    rw [mem_boughtIn, ShoOp.step, mem_boughtIn]
    simp only [mem_map, exists_exists_and_eq_and, advance_symbolId, advance_status, and_or_left, exists_or]

/-- After every run, exactly the symbols of buy-ins are restricted if and only if these are at most 64 symbols. -/
theorem restricts_iff (ops : List ShoOp) : Restricts (final ShoOp.step ops {}) ↔
    (boughtIn (final ShoOp.step ops {}).records).dedup.length ≤ kMaxPenaltySymbols := by
  have hBoxed : Boxed (final ShoOp.step ops {}).penaltySymbols (· ∈ boughtIn (final ShoOp.step ops {}).records) :=
    final_invariant boxed_step ops ⟨nodup_nil, Nat.zero_le _, nofun, fun _ _ hs => absurd hs not_mem_nil⟩
  rw [← hBoxed.exact_iff, Restricts]
  simp only [isPreBorrowRequired, decide_eq_true_eq, mem_boughtIn]

/-- Short sales of the given symbols that failed on day 1, and the day after. -/
def failures (symbols : List UInt64) : List ShoOp :=
  symbols.map (fun s => .registerFtd s 1 s 100 1 .shortSale) ++ [.advanceBusinessDay 2]

/-- The buy-in of a 65th symbol leaves it unrestricted. -/
theorem full_box_unrestricted : ¬ Restricts (final ShoOp.step (failures ((range 65).map UInt64.ofNat)) {}) := by
  intro h
  have hLast := (h 64).mpr
  revert hLast
  decide +kernel

end LuvFlicker.RegSho
