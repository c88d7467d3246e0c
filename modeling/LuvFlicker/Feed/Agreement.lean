import LuvFlicker.Feed.Itch
import LuvFlicker.Lob.Refinement

/-!
# What the decoder accepts and what the book takes

A decoded order event can be turned away by the book for the state the book is
in. The decoder and the engine check the same fields, but the order map keeps
one reference for itself that both let through.
-/

namespace LuvFlicker

open OrderRefMap SymbolTable

def Outcome.isBookState : Outcome → Bool
  | .applied | .unknownOrder | .duplicateOrder | .maxDepth | .levelFull => true
  | .mapRefused reason => reason.isCapacity || reason == .duplicateOrderRef
  | _ => false

namespace Itch

def bookTypes : List UInt8 :=
  [kAddOrder, kAddOrderMPID, kOrderExecuted, kOrderExecPrice, kOrderCancel, kOrderDelete, kOrderReplace, kTrade]

def registers (tick : TickMsg) : Option UInt64 :=
  if tick.msgType = kAddOrder ∨ tick.msgType = kAddOrderMPID then some tick.orderRef
  else if tick.msgType = kOrderReplace then some tick.matchNum
  else none

end Itch

open Itch

namespace LobEngine

open Config Numeric

variable {e : LobEngine} {tick : TickMsg} {ref : UInt64} {sym : Nat} {side : Side} {price qty : Int}

/-! ## Refusals of the map -/

variable {m : OrderRefMap}

theorem canInsert_isBookState (h : m.canInsert ref ≠ .ok) (hRef : OrderRefMap.Live ref) :
    (Outcome.mapRefused (m.canInsert ref)).isBookState = true := by
  have hPreflight := canInsert_preflight m ref
  generalize m.canInsert ref = reason at hPreflight h ⊢
  cases hPreflight with
  | invalid hNot => exact absurd hRef hNot
  | full hr => cases reason <;> first | rfl | cases hr
  | duplicate => rfl
  | fresh => exact absurd rfl h

section

variable (hRef : ¬ OrderRefMap.Live ref)
include hRef

theorem insert_not_live (loc : OrderLocation) : (m.insert ref loc).2 = .invalidOrderLocation := by
  rw [OrderRefMap.insert, if_neg fun h => hRef h.1]

variable {reason : MapResult}

theorem placeAt_not_live {d : Nat}
    (h : (e.placeAt sym side ref qty d).2 = .mapRefused reason) : reason = .invalidOrderLocation := by
  unfold placeAt at h
  split at h
  · cases h
  simp only at h
  split at h
  · cases h
  simp only [insert_not_live hRef] at h
  cases h
  rfl

theorem placeOrder_not_live
    (h : (e.placeOrder sym side ref price qty).2 = .mapRefused reason) : reason = .invalidOrderLocation := by
  unfold placeOrder at h
  split at h
  · exact placeAt_not_live hRef h
  split at h
  · cases h
  · exact placeAt_not_live hRef h

end

/-! ## Live references are only refused by the state of the book -/

theorem placeOrder_isBookState (side : Side) (price : Int) (h : e.Inv noVacancy) (hSym : sym < kSymbols)
    (hNew : e.orderMap.lookup ref = none)
    (hQty : 0 < qty ∧ qty ≤ kMaxQuantity) (hRef : OrderRefMap.Live ref) :
    (e.placeOrder sym side ref price qty).2.isBookState = true := by
  have hPlaced := placeOrder_spec side price h hSym hNew hQty
  generalize e.placeOrder sym side ref price qty = result at hPlaced ⊢
  cases hPlaced with
  | applied | maxDepth | levelFull => rfl
  | mapRefused _ _ hReason => exact Bool.or_eq_true_iff.mpr (.inl (hReason hRef))

theorem onAddOrder_isBookState (h : e.Inv noVacancy) (hSym : tick.symbolIdx < kSymbols)
    (hQty : 0 < tick.qty ∧ tick.qty ≤ kMaxQuantity) (hRef : OrderRefMap.Live tick.orderRef) :
    (e.onAddOrder tick).2.isBookState = true := by
  have hStart := (SameBook.setStats e { e.stats with adds := e.stats.adds + 1 }).inv h
  unfold onAddOrder
  simp only
  split
  · rfl
  rename_i hNew
  have hPlaced := placeOrder_isBookState (sideOf tick.flags) tick.price hStart hSym hNew hQty hRef
  split
  · exact hPlaced
  · exact hPlaced

theorem reduceOrder_isBookState {e : LobEngine} {tick : TickMsg} : (e.reduceOrder tick).2.isBookState = true := by
  unfold reduceOrder
  split
  · rfl
  simp only
  split
  · rfl
  · rfl

theorem onOrderReplace_isBookState (h : e.Inv noVacancy) (hQty : 0 < tick.qty ∧ tick.qty ≤ kMaxQuantity)
    (hRef : OrderRefMap.Live tick.matchNum) : (e.onOrderReplace tick).2.isBookState = true := by
  have hStart := (SameBook.setStats e { e.stats with replaces := e.stats.replaces + 1 }).inv h
  unfold onOrderReplace
  simp only
  split
  · rfl
  rename_i loc hLocate
  split
  next hPreflight => exact canInsert_isBookState hPreflight hRef
  rename_i hPreflight
  have hHolds := hStart.locate_eq_some_iff.mp hLocate
  have hRetired := deleteOrder_spec hStart hHolds
  obtain ⟨_, hNew, _⟩ := canInsert_ok (not_not.mp hPreflight)
  rw [replaceExit_outcome]
  exact placeOrder_isBookState _ _ hRetired.inv (hStart.symbol_lt hHolds) (hRetired.lookup_eq_none hStart hNew)
    hQty hRef

/-! ## The handlers behind the checks -/

theorem step_accepted (e : LobEngine) (hAccepted : Itch.Accepted tick) (hSym : tick.symbolIdx < kSymbols)
    (hType : tick.msgType ∈ bookTypes) :
    (registers tick = some tick.orderRef ∧ tick.orderRef ≠ 0 ∧ isValidQuantity tick.qty = true ∧
      e.step tick = (e.touch tick).onAddOrder tick) ∨
    (registers tick = some tick.matchNum ∧ tick.orderRef ≠ 0 ∧ tick.matchNum ≠ 0 ∧
      tick.orderRef ≠ tick.matchNum ∧ isValidQuantity tick.qty = true ∧
      e.step tick = (e.touch tick).onOrderReplace tick) ∨
    (registers tick = none ∧ (e.step tick).2.isBookState = true) := by
  have hIn : ¬ kSymbols ≤ tick.symbolIdx := by omega
  cases hAccepted with
  | add hAdd hRef hQty hPrice =>
    refine .inl ⟨if_pos hAdd, hRef, hQty, ?_⟩
    rw [step, if_neg hIn]
    rw [if_pos hAdd, if_neg (by simp [hRef, hQty, hPrice])]
  | reduce hReduce hRef hQty =>
    refine .inr (.inr ?_)
    have hFields : ¬ ((tick.orderRef = 0 || !isValidQuantity tick.qty) = true) := by simp [hRef, hQty]
    rcases hReduce with hReduce | hReduce | hReduce <;> rw [registers, step, if_neg hIn] <;> simp only [hReduce]
    · refine ⟨rfl, ?_⟩
      rw [if_neg hFields]
      exact reduceOrder_isBookState
    · refine ⟨rfl, ?_⟩
      rw [if_neg hFields]
      exact reduceOrder_isBookState
    · refine ⟨rfl, ?_⟩
      rw [if_neg (by decide), if_neg (by decide), if_neg hFields]
      exact reduceOrder_isBookState
  | delete hDelete hRef =>
    refine .inr (.inr ?_)
    rw [registers, step, if_neg hIn]
    simp only [hDelete]
    refine ⟨rfl, ?_⟩
    rw [if_neg hRef]
    change ((e.touch tick).onOrderDelete tick).2.isBookState = true
    unfold onOrderDelete
    simp only
    split <;> rfl
  | replace hReplace hRef hNew hOther hQty hPrice =>
    refine .inr (.inl ⟨?_, hRef, hNew, hOther, hQty, ?_⟩)
    · rw [registers, hReplace]
      rfl
    rw [step, if_neg hIn]
    simp only [hReplace]
    rw [if_neg (by decide), if_neg (by decide), if_neg (by decide), if_neg (by decide), if_pos (by decide),
      if_neg (by simp [hRef, hNew, hOther, hQty, hPrice])]
  | trade hTrade hQty hPrice =>
    refine .inr (.inr ?_)
    rw [registers, step, if_neg hIn]
    simp only [hTrade]
    refine ⟨rfl, ?_⟩
    rw [if_neg (by decide), if_neg (by decide), if_neg (by decide), if_neg (by decide), if_neg (by decide),
      if_pos (by decide), if_neg (by simp [hQty, hPrice])]
    rfl
  | report hReport =>
    rcases hReport with hReport | hReport | hReport <;> rw [hReport] at hType <;> exact absurd hType (by decide)

/-! ## The reserved reference

A book without orders has room for any reference, so it refuses exactly those
that the map keeps for itself.
-/

section EmptyBook

variable {lob : Nat → Side → Nat → PriceLevel} {values : Nat → OrderLocation} (hEmpty : SameBook (init lob values) e)

include hEmpty

theorem empty_bookQueue (sym : Nat) (side : Side) (price : Int) : e.bookQueue sym side price = [] := by
  rw [hEmpty.bookQueue]
  exact sideQueue_eq_nil fun d hd => absurd hd (by cases side <;> exact Nat.not_lt_zero d)

section

variable (ref : UInt64)

theorem empty_lookup : e.orderMap.lookup ref = none := by
  rw [hEmpty.orderMap]
  exact init_lookup ref

theorem empty_hasRoom : e.orderMap.HasRoom ref := by
  rw [hEmpty.orderMap]
  exact ⟨(by decide : 0 < kMaxEntries), 0, by decide, rfl⟩

theorem placeOrder_empty (side : Side) (price : Int) (hSym : sym < kSymbols) (hQty : 0 < qty ∧ qty ≤ kMaxQuantity) :
    (OrderRefMap.Live ref ∧ ∃ e', e.placeOrder sym side ref price qty = (e', .applied) ∧
      (ref, qty) ∈ e'.bookQueue sym side price) ∨ (¬ OrderRefMap.Live ref ∧
      (e.placeOrder sym side ref price qty).2 = .mapRefused .invalidOrderLocation) := by
  have hInv := hEmpty.inv (init_inv lob _)
  have hPlaced := placeOrder_spec side price hInv hSym (empty_lookup hEmpty ref) hQty
  have hReason := @placeOrder_not_live e ref sym side price qty
  generalize e.placeOrder sym side ref price qty = result at hPlaced hReason ⊢
  cases hPlaced with
  | applied _ hBook hLive =>
    refine .inl ⟨hLive, _, rfl, ?_⟩
    rw [hBook, BookView.append, if_pos ⟨⟨rfl, rfl⟩, rfl⟩]
    exact List.mem_append_right _ List.mem_cons_self
  | maxDepth _ hDepth =>
    have hCount : e.levelCount sym side = 0 := by
      rw [hEmpty.levelCount]
      cases side <;> rfl
    rw [hCount] at hDepth
    exact absurd hDepth (by decide)
  | levelFull hFull =>
    rw [empty_bookQueue hEmpty] at hFull
    exact absurd hFull (by decide)
  | mapRefused _ _ _ hRoom =>
    have hRef : ¬ OrderRefMap.Live ref := fun hLive => hRoom ⟨hLive, empty_hasRoom hEmpty ref⟩
    exact .inr ⟨hRef, by rw [hReason hRef rfl]⟩

end

theorem onAddOrder_empty (tick : TickMsg) (hSym : tick.symbolIdx < kSymbols)
    (hQty : 0 < tick.qty ∧ tick.qty ≤ kMaxQuantity) :
    (OrderRefMap.Live tick.orderRef ∧
      (tick.orderRef, tick.qty) ∈ (e.onAddOrder tick).1.bookQueue tick.symbolIdx (sideOf tick.flags) tick.price) ∨
    (¬ OrderRefMap.Live tick.orderRef ∧ (e.onAddOrder tick).2 = .mapRefused .invalidOrderLocation) := by
  have hStart := hEmpty.trans (SameBook.setStats e { e.stats with adds := e.stats.adds + 1 })
  have hPlaced := placeOrder_empty hStart tick.orderRef (sideOf tick.flags) tick.price hSym hQty
  simp only [onAddOrder, empty_lookup hStart]
  rcases hPlaced with ⟨hLive, e', hEq, hMem⟩ | ⟨hRef, hEq⟩
  · rw [hEq]
    exact .inl ⟨hLive, hMem⟩
  · rw [if_neg (by rw [hEq]; exact Outcome.noConfusion)]
    exact .inr ⟨hRef, hEq⟩

end EmptyBook

theorem onOrderReplace_reserved (h : e.Inv noVacancy) {s : Nat} {t : Side} {p q : Int}
    (hMem : (tick.orderRef, q) ∈ e.bookQueue s t p) (hRef : ¬ OrderRefMap.Live tick.matchNum) :
    (e.onOrderReplace tick).2 = .mapRefused .invalidOrderLocation := by
  have hStart := (SameBook.setStats e { e.stats with replaces := e.stats.replaces + 1 }).inv h
  obtain ⟨d, i, hHolds, _⟩ := hStart.mem_bookQueue.mp hMem
  have hPreflight : ∀ m : OrderRefMap, m.canInsert tick.matchNum = .invalidOrderLocation := fun m => if_pos hRef
  simp only [onOrderReplace, hStart.locate_eq_some_iff.mpr hHolds]
  rw [hPreflight, if_pos (by decide)]

def firstAdd (tick : TickMsg) : TickMsg :=
  { msgType := Itch.kAddOrder, symbolIdx := tick.symbolIdx, orderRef := tick.orderRef, qty := 1, price := 1 }

theorem firstAdd_rests (hSym : tick.symbolIdx < kSymbols) (hRef : OrderRefMap.Live tick.orderRef) :
    (tick.orderRef, 1) ∈ (fresh.process (firstAdd tick)).bookQueue tick.symbolIdx (sideOf 0) 1 := by
  have hAccepted : Itch.Accepted (firstAdd tick) := .add (.inl rfl) hRef.1 rfl rfl
  have hAdd := onAddOrder_empty (SameBook.touch fresh (firstAdd tick)) (firstAdd tick) hSym
    ⟨Int.one_pos, (by decide : (1 : Int) ≤ kMaxQuantity)⟩
  rcases step_accepted fresh hAccepted hSym List.mem_cons_self with
    ⟨_, _, _, hEq⟩ | ⟨_, _, hNew, _⟩ | ⟨hRegisters, _⟩
  · rcases hAdd with ⟨_, hMem⟩ | ⟨hNot, _⟩
    · rw [process, hEq]
      exact hMem
    · exact absurd hRef hNot
  · exact absurd rfl hNew
  · cases hRegisters

theorem reserved_refused (hAccepted : Itch.Accepted tick) (hSym : tick.symbolIdx < kSymbols)
    (hType : tick.msgType ∈ bookTypes) (hReserved : registers tick = some kTombstone) :
    ∃ ticks, ((fresh.run ticks).step tick).2 = .mapRefused .invalidOrderLocation := by
  rcases step_accepted fresh hAccepted hSym hType with ⟨hRegisters, _, hQty, hEq⟩ |
    ⟨hRegisters, hOld, _, hOther, _, _⟩ | ⟨hRegisters, _⟩
  · have hRef := Option.some.inj (hRegisters.symm.trans hReserved)
    refine ⟨[], ?_⟩
    change (fresh.step tick).2 = _
    rw [hEq]
    rcases onAddOrder_empty (SameBook.touch fresh tick) tick hSym (isValidQuantity_iff.mp hQty) with
      ⟨hLive, _⟩ | ⟨_, hOutcome⟩
    · exact absurd hRef hLive.2
    · exact hOutcome
  · have hRef := Option.some.inj (hRegisters.symm.trans hReserved)
    have hRests := firstAdd_rests hSym ⟨hOld, fun hEq => hOther (hEq.trans hRef.symm)⟩
    have hInv : (fresh.process (firstAdd tick)).Inv noVacancy := step_inv (init_inv _ _) _
    have hTouch := SameBook.touch (fresh.process (firstAdd tick)) tick
    refine ⟨[firstAdd tick], ?_⟩
    change ((fresh.process (firstAdd tick)).step tick).2 = _
    rcases step_accepted (fresh.process (firstAdd tick)) hAccepted hSym hType with ⟨hAdd, _⟩ |
      ⟨_, _, _, _, _, hEq⟩ | ⟨hNone, _⟩
    · exact absurd (Option.some.inj (hAdd.symm.trans hRegisters)) hOther
    · rw [hEq]
      rw [← hTouch.bookQueue] at hRests
      exact onOrderReplace_reserved (hTouch.inv hInv) hRests (hRef ▸ not_live_tombstone)
    · rw [hNone] at hRegisters
      cases hRegisters
  · rw [hRegisters] at hReserved
    cases hReserved

/-- In every state of every session the book turns a decoded order event away for its state alone iff
the event brings no order under the reference that the order map keeps for itself. -/
theorem decoded_isBookState_iff (entries : List (UInt64 × UInt16)) (raw : List UInt8) (tick : TickMsg)
    (hDecode : Itch.decodeItch (SymbolTable.ofInserts entries) raw = some tick) (hType : tick.msgType ∈ Itch.bookTypes) :
    (∀ (lob : Nat → Side → Nat → PriceLevel) (values : Nat → OrderLocation) (ticks : List TickMsg),
      (((init lob values).run ticks).step tick).2.isBookState = true) ↔
    Itch.registers tick ≠ some OrderRefMap.kTombstone := by
  obtain ⟨hAccepted, hSym⟩ := decodeItch_accepted ofInserts_wf hDecode
  constructor
  · intro hAll hReserved
    obtain ⟨ticks, hRefused⟩ := reserved_refused hAccepted hSym hType hReserved
    have hBookState := hAll (fun _ _ _ => PriceLevel.cleared) (fun _ => ⟨0, .bid, 0, 0⟩) ticks
    rw [show ((init _ _).run ticks).step tick = (fresh.run ticks).step tick from rfl, hRefused] at hBookState
    cases hBookState
  intro hFree lob values ticks
  have hInv := run_inv (init_inv lob values) ticks
  have hTouch := SameBook.touch ((init lob values).run ticks) tick
  rcases step_accepted ((init lob values).run ticks) hAccepted hSym hType with ⟨hRegisters, hRef, hQty, hEq⟩ |
    ⟨hRegisters, _, hRef, _, hQty, hEq⟩ | ⟨_, hBookState⟩
  · rw [hEq]
    have hLive : OrderRefMap.Live tick.orderRef := ⟨hRef, fun hEq => hFree (hRegisters.trans (congrArg some hEq))⟩
    exact onAddOrder_isBookState (hTouch.inv hInv) hSym (isValidQuantity_iff.mp hQty) hLive
  · rw [hEq]
    have hLive : OrderRefMap.Live tick.matchNum := ⟨hRef, fun hEq => hFree (hRegisters.trans (congrArg some hEq))⟩
    exact onOrderReplace_isBookState (hTouch.inv hInv) (isValidQuantity_iff.mp hQty) hLive
  · exact hBookState

def luvTicker : List UInt8 := [0x4C, 0x55, 0x56, 0x20, 0x20, 0x20, 0x20, 0x20]

def luvSymbols : List (UInt64 × UInt16) := [(.ofNat (Bytes.ofBytes luvTicker), 3)]

def addMessage (ref : Nat) : List UInt8 :=
  [Itch.kAddOrder, 0, 0, 0, 0, 0, 0, 0, 0, 0, 1] ++ Bytes.toBytesBe 8 ref ++ ['B'.toUInt8] ++ Bytes.toBytesBe 4 5 ++
    luvTicker ++ Bytes.toBytesBe 4 100

theorem decoded_isBookState_add :
    ∃ tick, Itch.decodeItch (SymbolTable.ofInserts luvSymbols) (addMessage 7) = some tick ∧
      ∀ (lob : Nat → Side → Nat → PriceLevel) (values : Nat → OrderLocation) (ticks : List TickMsg),
        (((init lob values).run ticks).step tick).2.isBookState = true := by
  have hFields : (decodeItch (ofInserts luvSymbols) (addMessage 7)).map
      (fun tick => (tick.msgType, tick.orderRef)) = some (kAddOrder, 7) := by decide +kernel
  obtain ⟨tick, hDecode, hPair⟩ := Option.map_eq_some_iff.mp hFields
  obtain ⟨hType, hRef⟩ := Prod.mk.inj hPair
  refine ⟨tick, hDecode, (decoded_isBookState_iff _ _ _ hDecode (by rw [hType]; decide)).mpr ?_⟩
  rw [registers, if_pos (.inl hType), hRef]
  decide

/-- The decoder accepts an Add under the reserved reference, and the book refuses the reference. -/
theorem reservedAdd_refused :
    ∃ tick, Itch.decodeItch (SymbolTable.ofInserts luvSymbols) (addMessage 0xFFFFFFFFFFFFFFFF) = some tick ∧
      tick.msgType ∈ Itch.bookTypes ∧ (fresh.step tick).2 = .mapRefused .invalidOrderLocation ∧
      (fresh.step tick).2.isBookState = false := by
  have hFields : (decodeItch (ofInserts luvSymbols) (addMessage 0xFFFFFFFFFFFFFFFF)).map
      (fun tick => (tick.msgType, (fresh.step tick).2)) =
      some (kAddOrder, .mapRefused .invalidOrderLocation) := by decide +kernel
  obtain ⟨tick, hDecode, hPair⟩ := Option.map_eq_some_iff.mp hFields
  obtain ⟨hType, hOutcome⟩ := Prod.mk.inj hPair
  refine ⟨tick, hDecode, ?_, hOutcome, ?_⟩
  · rw [hType]
    decide
  · rw [hOutcome]
    rfl

end LobEngine

end LuvFlicker
