import LuvFlicker.Lib.Run

/-!
# Trade reconciliation

A front-office record is compared with the first back-office record of its order id, in
quantity and price only.
-/

namespace LuvFlicker.Recon

open Run List

inductive BreakType where
  | kMatched
  | kQuantityBreak
  | kPriceBreak
  | kSideBreak
  | kUnmatchedFrontOffice
  | kUnmatchedBackOffice

structure ExecutionEntry where
  orderId : UInt64
  symbolIdx : UInt16
  side : UInt8
  price : Int64
  qty : Int64
  matched : Bool := false
deriving DecidableEq

def kMaxRecords : Nat := 512

/-- `record_front_office` or `record_back_office`, on the records of its side. -/
def record (e : ExecutionEntry) (trades : List ExecutionEntry) : Bool × List ExecutionEntry :=
  if trades.length ≥ kMaxRecords then (false, trades) else (true, trades ++ [{ e with matched := false }])

def recorded (calls : List ExecutionEntry) : List ExecutionEntry := final record calls []

structure ReconBreakReport where
  orderId : UInt64
  breakType : BreakType
  foQty : Int64 := 0
  boQty : Int64 := 0
  foPrice : Int64 := 0
  boPrice : Int64 := 0

def frontBreak (boTrades : List ExecutionEntry) (fo : ExecutionEntry) : Option ReconBreakReport :=
  match boTrades.find? (·.orderId = fo.orderId) with
  | none => some ⟨fo.orderId, .kUnmatchedFrontOffice, fo.qty, 0, fo.price, 0⟩
  | some bo =>
    if fo.qty ≠ bo.qty then some ⟨fo.orderId, .kQuantityBreak, fo.qty, bo.qty, fo.price, bo.price⟩
    else if fo.price ≠ bo.price then some ⟨fo.orderId, .kPriceBreak, fo.qty, bo.qty, fo.price, bo.price⟩
    else none

def backBreak (bo : ExecutionEntry) : Option ReconBreakReport :=
  if !bo.matched then some ⟨bo.orderId, .kUnmatchedBackOffice, 0, bo.qty, 0, bo.price⟩ else none

def markMatched (fo : ExecutionEntry) : List ExecutionEntry → List ExecutionEntry
  | [] => []
  | bo :: rest => if bo.orderId = fo.orderId then { bo with matched := true } :: rest else bo :: markMatched fo rest

def report (maxBreaks : Nat) (out : List ReconBreakReport) (found : Option ReconBreakReport) : List ReconBreakReport :=
  if out.length < maxBreaks then out ++ found.toList else out

def marked (foTrades boTrades : List ExecutionEntry) : List ExecutionEntry :=
  foTrades.foldl (fun boTrades fo => markMatched fo boTrades) boTrades

/-- `reconcile_trades`; the comparisons of the first loop do not read the flags it sets. -/
def reconcileTrades (maxBreaks : Nat) (foTrades boTrades : List ExecutionEntry) : List ReconBreakReport :=
  (foTrades.map (frontBreak boTrades) ++ (marked foTrades boTrades).map backBreak).foldl (report maxBreaks) []

variable {fo bo : List ExecutionEntry}

/-- Each front-office record has the quantity and price of a back-office record of its id, and no id is missing. -/
def Agrees (fo bo : List ExecutionEntry) : Prop :=
  (∀ f ∈ fo, ∃ b ∈ bo, b.orderId = f.orderId ∧ f.qty = b.qty ∧ f.price = b.price) ∧
    ∀ b ∈ bo, ∃ f ∈ fo, f.orderId = b.orderId

/-- Equal sides repeat no id, and sides without a break repeat no id and do not differ in what is not compared. -/
def Comparable (fo bo : List ExecutionEntry) : Prop :=
  (fo ~ bo → (bo.map (·.orderId)).Nodup) ∧
    ((bo.map (·.orderId)).Nodup → Agrees fo bo → (fo.map (·.orderId)).Nodup ∧
      ∀ f ∈ fo, ∀ b ∈ bo, f.orderId = b.orderId → f.symbolIdx = b.symbolIdx ∧ f.side = b.side)

theorem recorded_unmatched (calls : List ExecutionEntry) : ∀ e ∈ recorded calls, e.matched = false := by
  refine @final_invariant _ _ _ record _ (fun trades => ∀ e ∈ trades, e.matched = false) ?_ calls nofun
  intro e trades h
  rw [record]
  split_ifs
  · exact h
  · simpa [or_imp, forall_and] using h

theorem foldl_report_eq_nil {m : Nat} (hm : 0 < m) (found : List (Option ReconBreakReport)) (out : List ReconBreakReport) :
    found.foldl (report m) out = [] ↔ out = [] ∧ ∀ x ∈ found, x = none := by
  induction found generalizing out with
  | nil => simp
  | cons x found ih =>
    have hReport : report m out x = [] ↔ out = [] ∧ x = none := by
      rw [report]
      cases out with
      | nil => simp [hm]
      | cons => split_ifs <;> simp
    rw [foldl_cons, ih, hReport, forall_mem_cons, and_assoc]

theorem marked_cons (fo : List ExecutionEntry) (b : ExecutionEntry) (rest : List ExecutionEntry) :
    marked fo (b :: rest) = { b with matched := b.matched || fo.any (b.orderId = ·.orderId) } ::
      marked (fo.filter (b.orderId ≠ ·.orderId)) rest := by
  induction fo generalizing b rest with
  | nil => simp [marked]
  | cons f fo ih =>
    rw [marked, foldl_cons, ← marked, markMatched]
    split_ifs with hHead
    · rw [ih]
      simp [hHead]
    · rw [ih]
      simp [hHead, marked]

theorem all_marked_iff (hFresh : ∀ b ∈ bo, b.matched = false) : (∀ b ∈ marked fo bo, b.matched = true) ↔
    (bo.map (·.orderId)).Nodup ∧ ∀ b ∈ bo, ∃ f ∈ fo, f.orderId = b.orderId := by
  induction bo generalizing fo with
  | nil =>
    have hNil : marked fo [] = [] := by
      induction fo with
      | nil => rfl
      | cons f fo ih => exact ih
    simp [hNil]
  | cons b bo ih =>
    obtain ⟨hHead, hRest⟩ := forall_mem_cons.mp hFresh
    rw [marked_cons, forall_mem_cons, ih hRest]
    grind

theorem frontBreak_eq_none_iff (hNodup : (bo.map (·.orderId)).Nodup) (f : ExecutionEntry) :
    frontBreak bo f = none ↔ ∃ b ∈ bo, b.orderId = f.orderId ∧ f.qty = b.qty ∧ f.price = b.price := by
  rw [frontBreak]
  cases hFind : bo.find? (·.orderId = f.orderId) with
  | none =>
    have hNone := find?_eq_none.mp hFind
    exact iff_of_false nofun fun ⟨b, hb, hId, _⟩ => hNone b hb (decide_eq_true hId)
  | some b =>
    have hMem := mem_of_find?_eq_some hFind
    have hId : b.orderId = f.orderId := by simpa using find?_some hFind
    constructor
    · intro hNone
      refine ⟨b, hMem, hId, ?_⟩
      by_contra hBreak
      grind
    · rintro ⟨c, hc, hc', hFields⟩
      obtain rfl := inj_on_of_nodup_map hNodup hc hMem (hc'.trans hId.symm)
      simp [hFields]

theorem reconcile_eq_nil_iff {m : Nat} (hm : fo.length + bo.length ≤ m) (hFresh : ∀ b ∈ bo, b.matched = false) :
    reconcileTrades m fo bo = [] ↔ (bo.map (·.orderId)).Nodup ∧ Agrees fo bo := by
  rcases m.eq_zero_or_pos with rfl | hPos
  · obtain ⟨rfl, rfl⟩ : fo = [] ∧ bo = [] := by simpa using hm
    simp [reconcileTrades, marked, Agrees]
  have hBack : (∀ b ∈ marked fo bo, backBreak b = none) ↔ ∀ b ∈ marked fo bo, b.matched = true := by simp [backBreak]
  rw [reconcileTrades, foldl_report_eq_nil hPos, forall_mem_append, forall_mem_map, forall_mem_map, hBack,
    all_marked_iff hFresh, Agrees]
  have hFront (h : (bo.map (·.orderId)).Nodup) := forall₂_congr fun f (_ : f ∈ fo) => frontBreak_eq_none_iff h f
  tauto

theorem perm_of_agrees (hFo : ∀ f ∈ fo, f.matched = false) (hBo : ∀ b ∈ bo, b.matched = false)
    (hNodup : (bo.map (·.orderId)).Nodup) (hAgrees : Agrees fo bo) (h : Comparable fo bo) : fo ~ bo := by
  obtain ⟨hNodupFo, hSame⟩ := h.2 hNodup hAgrees
  have hEq (f) (hf : f ∈ fo) (b) (hb : b ∈ bo) (hId : b.orderId = f.orderId) : f = b := by
    obtain ⟨c, hc, hId', hFields⟩ := hAgrees.1 f hf
    obtain rfl := inj_on_of_nodup_map hNodup hb hc (hId.trans hId'.symm)
    have hOther := hSame f hf b hb hId.symm
    have hFlag := (hFo f hf).trans (hBo b hb).symm
    cases f
    cases b
    simp_all
  refine (perm_ext_iff_of_nodup hNodupFo.of_map hNodup.of_map).mpr fun e => ⟨fun he => ?_, fun he => ?_⟩
  · obtain ⟨b, hb, hId, -⟩ := hAgrees.1 e he
    exact hEq e he b hb hId ▸ hb
  · obtain ⟨f, hf, hId⟩ := hAgrees.2 e he
    exact hEq f hf e he hId.symm ▸ hf

theorem agrees_of_perm (h : fo ~ bo) : Agrees fo bo :=
  ⟨fun f hf => ⟨f, h.mem_iff.mp hf, rfl, rfl, rfl⟩, fun b hb => ⟨b, h.mem_iff.mpr hb, rfl⟩⟩

/-- The number of breaks is zero just for equal sides, if and only if the sides are comparable. -/
theorem reconcile_exact_iff (foCalls boCalls : List ExecutionEntry) {m : Nat}
    (hm : (recorded foCalls).length + (recorded boCalls).length ≤ m) :
    ((reconcileTrades m (recorded foCalls) (recorded boCalls)).length = 0 ↔ recorded foCalls ~ recorded boCalls) ↔
      Comparable (recorded foCalls) (recorded boCalls) := by
  have hFo := recorded_unmatched foCalls
  have hBo := recorded_unmatched boCalls
  rw [length_eq_zero_iff, reconcile_eq_nil_iff hm hBo]
  constructor
  · intro hExact
    refine ⟨fun hPerm => (hExact.mpr hPerm).1, fun hNodup hAgrees => ?_⟩
    have hPerm := hExact.mp ⟨hNodup, hAgrees⟩
    refine ⟨(hPerm.map _).nodup_iff.mpr hNodup, fun f hf b hb hId => ?_⟩
    rw [inj_on_of_nodup_map hNodup (hPerm.mem_iff.mp hf) hb hId]
    exact ⟨rfl, rfl⟩
  · intro h
    exact ⟨fun ⟨hNodup, hAgrees⟩ => perm_of_agrees hFo hBo hNodup hAgrees h,
      fun hPerm => ⟨h.1 hPerm, agrees_of_perm hPerm⟩⟩

theorem reconcile_exact_iff_one :
    (reconcileTrades 8 (recorded [⟨1, 2, 0, 50, 10, false⟩]) (recorded [⟨1, 2, 0, 50, 10, false⟩])).length = 0 ↔
      recorded [⟨1, 2, 0, 50, 10, false⟩] ~ recorded [⟨1, 2, 0, 50, 10, false⟩] :=
  (reconcile_exact_iff _ _ (by decide)).mpr ⟨fun _ => by decide, fun _ _ => by decide⟩

/-- Symbol and side are not compared. -/
theorem side_not_compared :
    ¬ ((reconcileTrades 8 (recorded [⟨1, 2, 0, 50, 10, false⟩]) (recorded [⟨1, 3, 1, 50, 10, false⟩])).length = 0 ↔
      recorded [⟨1, 2, 0, 50, 10, false⟩] ~ recorded [⟨1, 3, 1, 50, 10, false⟩]) := by
  decide

end LuvFlicker.Recon
