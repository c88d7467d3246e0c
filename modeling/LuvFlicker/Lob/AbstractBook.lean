import LuvFlicker.Lob.Orders

/-!
# The abstract book

A book without levels, slots or tables: a map from references to orders and, for
each symbol, side and price, the references in order of arrival. `Shows` relates
it to the queues that the engine's levels display.
-/

namespace LuvFlicker

open Config Function Numeric

structure BookOrder where
  symbolIdx : Nat
  side : Side
  price : Int
  qty : Int
  deriving DecidableEq

inductive BookEvent where
  | ignored
  | add (ref : UInt64) (order : BookOrder)
  | reduce (ref : UInt64) (qty : Int)
  | delete (ref : UInt64)
  | replace (ref newRef : UInt64) (price qty : Int)

def eventOf (tick : TickMsg) : BookEvent :=
  if kSymbols ≤ tick.symbolIdx then .ignored
  else if tick.msgType = Itch.kAddOrder ∨ tick.msgType = Itch.kAddOrderMPID then
    if tick.orderRef = 0 || !isValidQuantity tick.qty || !isValidPrice tick.price then .ignored
    else .add tick.orderRef ⟨tick.symbolIdx, LobEngine.sideOf tick.flags, tick.price, tick.qty⟩
  else if tick.msgType = Itch.kOrderExecuted ∨ tick.msgType = Itch.kOrderExecPrice then
    if tick.orderRef = 0 || !isValidQuantity tick.qty then .ignored
    else .reduce tick.orderRef tick.qty
  else if tick.msgType = Itch.kOrderCancel then
    if tick.orderRef = 0 || !isValidQuantity tick.qty then .ignored
    else .reduce tick.orderRef tick.qty
  else if tick.msgType = Itch.kOrderDelete then
    if tick.orderRef = 0 then .ignored else .delete tick.orderRef
  else if tick.msgType = Itch.kOrderReplace then
    if tick.orderRef = 0 || tick.matchNum = 0 || tick.orderRef = tick.matchNum ||
        !isValidQuantity tick.qty || !isValidPrice tick.price then .ignored
    else .replace tick.orderRef tick.matchNum tick.price tick.qty
  else .ignored

structure AbstractBook where
  orders : UInt64 → Option BookOrder
  queue : Nat → Side → Int → List UInt64

namespace AbstractBook

def empty : AbstractBook := ⟨fun _ => none, fun _ _ _ => []⟩

variable (b : AbstractBook)

def append (ref : UInt64) (order : BookOrder) : AbstractBook where
  orders := update b.orders ref (some order)
  queue := fun s t p =>
    if (s = order.symbolIdx ∧ t = order.side) ∧ p = order.price then b.queue s t p ++ [ref] else b.queue s t p

def remove (ref : UInt64) : AbstractBook where
  orders := update b.orders ref none
  queue := fun s t p => (b.queue s t p).filter (· ≠ ref)

def setQty (ref : UInt64) (order : BookOrder) (qty : Int) : AbstractBook :=
  { b with orders := update b.orders ref (some { order with qty := qty }) }

def apply : BookEvent → AbstractBook
  | .ignored => b
  | .add ref order => if b.orders ref = none ∧ ref ≠ OrderRefMap.kTombstone then b.append ref order else b
  | .reduce ref qty =>
    match b.orders ref with
    | none => b
    | some order =>
      if order.qty - min qty order.qty = 0 then b.remove ref
      else b.setQty ref order (order.qty - min qty order.qty)
  | .delete ref => if b.orders ref = none then b else b.remove ref
  | .replace ref newRef price qty =>
    match b.orders ref with
    | none => b
    | some order =>
      if b.orders newRef = none ∧ newRef ≠ OrderRefMap.kTombstone then
        (b.remove ref).append newRef { order with price := price, qty := qty }
      else b

def run (ticks : List TickMsg) : AbstractBook := ticks.foldl (fun b tick => b.apply (eventOf tick)) b

def qtyOf (ref : UInt64) : Int := ((b.orders ref).map BookOrder.qty).getD 0

def totalAt (sym : Nat) (side : Side) (price : Int) : Int :=
  ((b.queue sym side price).map b.qtyOf).sum

def occupied (sym : Nat) (side : Side) : Set Int := { price | b.queue sym side price ≠ [] }

/-- The occupied prices, best first. -/
structure Ladder (sym : Nat) (side : Side) (prices : List Int) : Prop where
  sorted : prices.Pairwise fun p q => LobEngine.outranks side p q = true
  mem_iff : ∀ price, price ∈ prices ↔ price ∈ b.occupied sym side

end AbstractBook

namespace LobEngine

structure Shows (q : BookView) (b : AbstractBook) : Prop where
  queue : ∀ s t p, b.queue s t p = (q s t p).map Prod.fst
  orders : ∀ ref order, b.orders ref = some order ↔ (ref, order.qty) ∈ q order.symbolIdx order.side order.price

namespace Shows

variable {q : BookView} {b : AbstractBook} {ref : UInt64} {order : BookOrder}

theorem orders_eq_none_iff (h : Shows q b) : b.orders ref = none ↔ ∀ s t p x, (ref, x) ∉ q s t p := by
  constructor
  · intro hNone s t p x hMem
    have hSome := (h.orders ref ⟨s, t, p, x⟩).mpr hMem
    rw [hNone] at hSome
    cases hSome
  · intro hNowhere
    cases hOrder : b.orders ref with
    | none => rfl
    | some order => exact absurd ((h.orders ref _).mp hOrder) (hNowhere _ _ _ _)

theorem empty : Shows (fun _ _ _ => []) AbstractBook.empty :=
  ⟨fun _ _ _ => rfl, fun ref order => by simp [AbstractBook.empty]⟩

theorem append (h : Shows q b) (hNew : b.orders ref = none) :
    Shows (q.append order.symbolIdx order.side order.price (ref, order.qty)) (b.append ref order) where
  queue := by
    intro s t p
    simp only [AbstractBook.append, BookView.append]
    split
    · rw [h.queue, List.map_append]
      rfl
    · exact h.queue s t p
  orders := by
    intro r o
    have hMem : ∀ x, (r, x) ∈ q.append order.symbolIdx order.side order.price (ref, order.qty)
        o.symbolIdx o.side o.price ↔ (r, x) ∈ q o.symbolIdx o.side o.price ∨
          ((o.symbolIdx = order.symbolIdx ∧ o.side = order.side) ∧ o.price = order.price) ∧
            r = ref ∧ x = order.qty := by
      intro x
      unfold BookView.append
      split <;> simp_all
    rw [hMem]
    by_cases hr : r = ref
    · subst hr
      simp only [AbstractBook.append, update_self, Option.some.injEq, true_and]
      constructor
      · rintro rfl
        exact .inr ⟨⟨⟨rfl, rfl⟩, rfl⟩, rfl⟩
      rintro (hOld | ⟨⟨⟨_, _⟩, _⟩, _⟩)
      · exact absurd hOld (h.orders_eq_none_iff.mp hNew _ _ _ _)
      cases o
      cases order
      simp_all
    · simp only [AbstractBook.append, update_of_ne hr, h.orders]
      simp [hr]

theorem remove (h : Shows q b) : Shows (q.erase ref) (b.remove ref) where
  queue := by
    intro s t p
    simp only [AbstractBook.remove, h.queue]
    rw [List.filter_map]
    rfl
  orders := by
    intro r o
    simp only [AbstractBook.remove, BookView.erase]
    by_cases hr : r = ref
    · subst hr
      simp
    · rw [update_of_ne hr, h.orders]
      simp [hr]

theorem setQty (h : Shows q b) (hOrder : b.orders ref = some order) (qty : Int) :
    Shows (q.setQty ref qty) (b.setQty ref order qty) where
  queue := by
    intro s t p
    simp only [AbstractBook.setQty, BookView.setQty, h.queue, List.map_map]
    refine List.map_congr_left fun _ _ => ?_
    simp only [Function.comp_apply]
    split
    next hRef => exact hRef
    · rfl
  orders := by
    intro r o
    simp only [AbstractBook.setQty, BookView.setQty, List.mem_map]
    by_cases hr : r = ref
    · subst hr
      rw [update_self, Option.some.injEq]
      constructor
      · rintro rfl
        exact ⟨_, (h.orders r order).mp hOrder, if_pos rfl⟩
      rintro ⟨⟨r', x⟩, hMem, hEq⟩
      split at hEq
      next hRef =>
        cases hEq
        obtain rfl : r' = r := hRef
        have hSome := (h.orders r' ⟨_, _, _, x⟩).mpr hMem
        rw [hOrder, Option.some.injEq] at hSome
        subst hSome
        rfl
      next hNe =>
        cases hEq
        exact absurd rfl hNe
    · rw [update_of_ne hr, h.orders]
      constructor
      · intro hMem
        exact ⟨_, hMem, if_neg hr⟩
      rintro ⟨⟨r', x⟩, hMem, hEq⟩
      split at hEq
      · cases hEq
        exact absurd rfl hr
      · cases hEq
        exact hMem

end Shows

end LobEngine

end LuvFlicker
