import LuvFlicker.Lob.OrderRefMap
import LuvFlicker.Lib.Block
import LuvFlicker.Lib.IndexList

/-!
# The limit order book engine

The book of each symbol and side is an array of price levels, best price first, of
which the first `levelCount` are in use. `process` dispatches a decoded event to its
handler.
-/

namespace LuvFlicker

open Config Numeric

namespace PriceLevel

variable (lvl : PriceLevel)

def nextOf (i : Nat) : Option Nat := (lvl.orders i).nextIdx

def prevOf (i : Nat) : Option Nat := (lvl.orders i).prevIdx

def setNext (i : Nat) (next : Option Nat) : PriceLevel := lvl.setSlot i { lvl.orders i with nextIdx := next }

def setPrev (i : Nat) (prev : Option Nat) : PriceLevel := lvl.setSlot i { lvl.orders i with prevIdx := prev }

def setHead (head : Option Nat) : PriceLevel := { lvl with headIdx := head }

variable (slotIdx : Nat)

def linkSlot : PriceLevel :=
  let lvl := lvl.setNext slotIdx none
  match lvl.headIdx with
  | none => (lvl.setPrev slotIdx none).setHead (some slotIdx)
  | some head =>
    let cur := IndexList.tail lvl.nextOf kMaxOrdersPerLevel head
    (lvl.setNext cur (some slotIdx)).setPrev slotIdx (some cur)

def unlinkSlot : PriceLevel :=
  let lvl :=
    match lvl.prevOf slotIdx with
    | some p => lvl.setNext p (lvl.nextOf slotIdx)
    | none => lvl.setHead (lvl.nextOf slotIdx)
  let lvl :=
    match lvl.nextOf slotIdx with
    | some n => lvl.setPrev n (lvl.prevOf slotIdx)
    | none => lvl
  (lvl.setPrev slotIdx none).setNext slotIdx none

def deactivateSlot : PriceLevel := lvl.setSlot slotIdx { lvl.orders slotIdx with flags := 0, orderId := 0, qty := 0 }

def slotFlags : Side → UInt32
  | .bid => OrderSlot.kFlagActive ||| OrderSlot.kFlagBid
  | .ask => OrderSlot.kFlagActive ||| 0

def fillSlot (side : Side) (ref : UInt64) (qty : Int) : PriceLevel :=
  lvl.setSlot slotIdx { lvl.orders slotIdx with orderId := ref, qty := qty, flags := slotFlags side }

def dropSlot : PriceLevel :=
  let lvl := (lvl.unlinkSlot slotIdx).deactivateSlot slotIdx
  { lvl with orderCount := lvl.orderCount - 1 }

def reduceSlot (delta : Int) : PriceLevel :=
  let lvl := lvl.setSlot slotIdx { lvl.orders slotIdx with qty := (lvl.orders slotIdx).qty - delta }
  { lvl with totalQty := lvl.totalQty - delta }

end PriceLevel

structure SymbolMeta where
  bidLevels : Nat := 0
  askLevels : Nat := 0
  lastTimestampNs : Nat := 0

structure LobStats where
  adds : Nat := 0
  executes : Nat := 0
  cancels : Nat := 0
  deletes : Nat := 0
  replaces : Nat := 0
  trades : Nat := 0
  rejected : Nat := 0

structure LobEngine where
  lob : Nat → Side → Nat → PriceLevel
  orderMap : OrderRefMap
  symbolMeta : Nat → SymbolMeta
  stats : LobStats

inductive Outcome where
  | applied
  | invalidSymbol
  | invalidField
  | unsupportedType
  | unknownOrder
  | duplicateOrder
  | maxDepth
  | levelFull
  | quantityOverflow
  | mapRefused (reason : MapResult)
  deriving DecidableEq, Repr

namespace LobEngine

def init (lob : Nat → Side → Nat → PriceLevel) (values : Nat → OrderLocation) : LobEngine where
  lob := lob
  orderMap := OrderRefMap.init values
  symbolMeta := fun _ => {}
  stats := {}

variable (e : LobEngine) (sym : Nat)

def levelCount : Side → Nat
  | .bid => (e.symbolMeta sym).bidLevels
  | .ask => (e.symbolMeta sym).askLevels

def setMeta (m : SymbolMeta) : LobEngine := { e with symbolMeta := Function.update e.symbolMeta sym m }

variable (side : Side)

def setLevelCount (n : Nat) : LobEngine :=
  match side with
  | .bid => e.setMeta sym { e.symbolMeta sym with bidLevels := n }
  | .ask => e.setMeta sym { e.symbolMeta sym with askLevels := n }

def setMap (m : OrderRefMap) : LobEngine := { e with orderMap := m }

section

variable (levels : Nat → PriceLevel)

def setSide : LobEngine :=
  { e with lob := fun s t => if s = sym ∧ t = side then levels else e.lob s t }

def setLevel (idx : Nat) (lvl : PriceLevel) : LobEngine := e.setSide sym side (Function.update (e.lob sym side) idx lvl)

/-! ## Price levels -/

def outranks : Side → Int → Int → Bool
  | .bid, a, b => b < a
  | .ask, a, b => a < b

def findLevelLoop (levels : Nat → PriceLevel) (side : Side) (price : Int) : Nat → Int → Int → Option Nat
  | 0, _, _ => none
  | fuel + 1, low, high =>
    if low ≤ high then
      let mid := low + (high - low) / 2
      let mp := (levels mid.toNat).price
      if mp = price then some mid.toNat
      else if outranks side price mp then findLevelLoop levels side price fuel low (mid - 1)
      else findLevelLoop levels side price fuel (mid + 1) high
    else none

def findLevel (price : Int) : Option Nat :=
  if e.levelCount sym side = 0 then none
  else findLevelLoop (e.lob sym side) side price (e.levelCount sym side + 1) 0 (e.levelCount sym side - 1)

def refreshSlot (levelIdx : Nat) (lvl : PriceLevel) (m : OrderRefMap) (slotIdx : Nat) : OrderRefMap :=
  if (lvl.orders slotIdx).isActive then m.setLocation (lvl.orders slotIdx).orderId ⟨sym, side, levelIdx, slotIdx⟩
  else m

def refreshLevel (m : OrderRefMap) (levelIdx : Nat) : OrderRefMap :=
  (List.range kMaxOrdersPerLevel).foldl (refreshSlot sym side levelIdx (levels levelIdx)) m

def refreshLevelLocations (first last : Nat) : LobEngine :=
  e.setMap ((List.range' first (last + 1 - first)).foldl (refreshLevel sym side (e.lob sym side)) e.orderMap)

def insertPos (side : Side) (count : Nat) (price : Int) : Nat :=
  (Scan.firstIndex (fun i => outranks side price (levels i).price) count).getD count

end

/-- Inserts an empty level at its sorted position, or `none` at the maximal depth. -/
def insertLevelImpl (price : Int) : Option (LobEngine × Nat) :=
  let count := e.levelCount sym side
  if kLevelsPerSide ≤ count then none
  else
    let pos := insertPos (e.lob sym side) side count price
    let e :=
      if pos < count then
        (e.setSide sym side (Block.memmove (e.lob sym side) (pos + 1) pos (count - pos))).refreshLevelLocations
          sym side (pos + 1) count
      else e
    let e := e.setLevel sym side pos { PriceLevel.cleared with price := price }
    some (e.setLevelCount sym side (count + 1), pos)

def removeLevelIfEmpty (lvlIdx : Nat) : LobEngine :=
  let count := e.levelCount sym side
  if 0 < (e.lob sym side lvlIdx).orderCount then e
  else if count = 0 then e
  else
    let last := count - 1
    let e :=
      if lvlIdx < last then
        (e.setSide sym side (Block.memmove (e.lob sym side) lvlIdx (lvlIdx + 1) (last - lvlIdx))).refreshLevelLocations
          sym side lvlIdx (last - 1)
      else e
    (e.setLevel sym side last PriceLevel.cleared).setLevelCount sym side last

/-! ## Orders -/

def clampedQty (requested available : Int) : Int :=
  if requested ≤ 0 || available ≤ 0 then 0
  else if requested < available then requested else available

section

variable (ref : UInt64)

def validLocation (loc : OrderLocation) : Bool :=
  loc.symbolIdx < kSymbols && loc.levelIdx < e.levelCount loc.symbolIdx loc.side && loc.slotIdx < kMaxOrdersPerLevel &&
    (let lvl := e.lob loc.symbolIdx loc.side loc.levelIdx
     let slot := lvl.orders loc.slotIdx
     slot.isActive && slot.orderId == ref && 0 ≤ slot.qty && 0 ≤ lvl.totalQty && 0 < lvl.orderCount)

def locate : Option OrderLocation :=
  match e.orderMap.lookup ref with
  | some loc => if e.validLocation ref loc then some loc else none
  | none => none

def retireOrder (loc : OrderLocation) : LobEngine :=
  let lvl := (e.lob loc.symbolIdx loc.side loc.levelIdx).dropSlot loc.slotIdx
  let e := e.setLevel loc.symbolIdx loc.side loc.levelIdx lvl
  let e := e.setMap (e.orderMap.remove ref)
  e.removeLevelIfEmpty loc.symbolIdx loc.side loc.levelIdx

def rollbackSlot (lvlIdx : Nat) (lvl : PriceLevel) (slotIdx : Nat) : LobEngine :=
  (e.setLevel sym side lvlIdx ((lvl.unlinkSlot slotIdx).deactivateSlot slotIdx)).removeLevelIfEmpty sym side lvlIdx

def placeAt (qty : Int) (lvlIdx : Nat) : LobEngine × Outcome :=
  match (e.lob sym side lvlIdx).allocSlot with
  | none => (e, .levelFull)
  | some slotIdx =>
    let lvl := ((e.lob sym side lvlIdx).fillSlot slotIdx side ref qty).linkSlot slotIdx
    match checkedAdd lvl.totalQty qty with
    | none => (e.rollbackSlot sym side lvlIdx lvl slotIdx, .quantityOverflow)
    | some newTotalQty =>
      let lvl := { lvl with totalQty := newTotalQty, orderCount := lvl.orderCount + 1 }
      let result := e.orderMap.insert ref ⟨sym, side, lvlIdx, slotIdx⟩
      if result.2 = .ok then ((e.setLevel sym side lvlIdx lvl).setMap result.1, .applied)
      else
        (e.rollbackSlot sym side lvlIdx
          { lvl with totalQty := lvl.totalQty - qty, orderCount := lvl.orderCount - 1 } slotIdx,
          .mapRefused result.2)

def placeOrder (price qty : Int) : LobEngine × Outcome :=
  match e.findLevel sym side price with
  | some lvlIdx => e.placeAt sym side ref qty lvlIdx
  | none =>
    match e.insertLevelImpl sym side price with
    | none => (e, .maxDepth)
    | some (e, lvlIdx) => e.placeAt sym side ref qty lvlIdx

end

/-! ## Message handlers -/

def setStats (stats : LobStats) : LobEngine := { e with stats := stats }

def countRejected : LobEngine := e.setStats { e.stats with rejected := e.stats.rejected + 1 }

def sideOf (flags : UInt8) : Side := if flags &&& TickFlags.kBuy != 0 then .bid else .ask

section

variable (tick : TickMsg)

def onAddOrder : LobEngine × Outcome :=
  let e := e.setStats { e.stats with adds := e.stats.adds + 1 }
  match e.orderMap.lookup tick.orderRef with
  | some _ => (e.countRejected, .duplicateOrder)
  | none =>
    let placed := e.placeOrder tick.symbolIdx (sideOf tick.flags) tick.orderRef tick.price tick.qty
    if placed.2 = .applied then placed else (placed.1.countRejected, placed.2)

def reduceOrder : LobEngine × Outcome :=
  match e.locate tick.orderRef with
  | none => (e, .unknownOrder)
  | some loc =>
    let lvl := e.lob loc.symbolIdx loc.side loc.levelIdx
    let delta := clampedQty tick.qty (lvl.orders loc.slotIdx).qty
    let lvl := lvl.reduceSlot loc.slotIdx delta
    let e := e.setLevel loc.symbolIdx loc.side loc.levelIdx lvl
    if (lvl.orders loc.slotIdx).qty ≤ 0 then (e.retireOrder tick.orderRef loc, .applied) else (e, .applied)

def onOrderExecuted : LobEngine × Outcome :=
  (e.setStats { e.stats with executes := e.stats.executes + 1 }).reduceOrder tick

def onOrderCancel : LobEngine × Outcome :=
  (e.setStats { e.stats with cancels := e.stats.cancels + 1 }).reduceOrder tick

def deleteOrder (ref : UInt64) (loc : OrderLocation) : LobEngine :=
  let lvl := e.lob loc.symbolIdx loc.side loc.levelIdx
  let lvl := { lvl with totalQty := lvl.totalQty - clampedQty (lvl.orders loc.slotIdx).qty lvl.totalQty }
  (e.setLevel loc.symbolIdx loc.side loc.levelIdx lvl).retireOrder ref loc

def onOrderDelete : LobEngine × Outcome :=
  let e := e.setStats { e.stats with deletes := e.stats.deletes + 1 }
  match e.locate tick.orderRef with
  | none => (e, .unknownOrder)
  | some loc => (e.deleteOrder tick.orderRef loc, .applied)

def replaceExit (placed : LobEngine × Outcome) : LobEngine × Outcome :=
  match placed.2 with
  | .applied | .mapRefused _ => placed
  | _ => (placed.1.countRejected, placed.2)

def onOrderReplace : LobEngine × Outcome :=
  let e := e.setStats { e.stats with replaces := e.stats.replaces + 1 }
  match e.locate tick.orderRef with
  | none => (e.countRejected, .unknownOrder)
  | some loc =>
    let preflight := e.orderMap.canInsert tick.matchNum
    if preflight ≠ .ok then (e.countRejected, .mapRefused preflight)
    else
      replaceExit ((e.deleteOrder tick.orderRef loc).placeOrder loc.symbolIdx loc.side tick.matchNum
        tick.price tick.qty)

def onTrade : LobEngine × Outcome := (e.setStats { e.stats with trades := e.stats.trades + 1 }, .applied)

def touch : LobEngine :=
  if 0 < tick.timestamp then
    e.setMeta tick.symbolIdx { e.symbolMeta tick.symbolIdx with lastTimestampNs := tick.timestamp }
  else e

def reject (outcome : Outcome) : LobEngine × Outcome := (e.countRejected, outcome)

def step : LobEngine × Outcome :=
  if kSymbols ≤ tick.symbolIdx then e.reject .invalidSymbol
  else
    let e := e.touch tick
    let type := tick.msgType
    if type = Itch.kAddOrder ∨ type = Itch.kAddOrderMPID then
      if tick.orderRef = 0 || !isValidQuantity tick.qty || !isValidPrice tick.price then
        e.reject .invalidField
      else e.onAddOrder tick
    else if type = Itch.kOrderExecuted ∨ type = Itch.kOrderExecPrice then
      if tick.orderRef = 0 || !isValidQuantity tick.qty then e.reject .invalidField
      else e.onOrderExecuted tick
    else if type = Itch.kOrderCancel then
      if tick.orderRef = 0 || !isValidQuantity tick.qty then e.reject .invalidField
      else e.onOrderCancel tick
    else if type = Itch.kOrderDelete then
      if tick.orderRef = 0 then e.reject .invalidField else e.onOrderDelete tick
    else if type = Itch.kOrderReplace then
      if tick.orderRef = 0 || tick.matchNum = 0 || tick.orderRef = tick.matchNum ||
          !isValidQuantity tick.qty || !isValidPrice tick.price then
        e.reject .invalidField
      else e.onOrderReplace tick
    else if type = Itch.kTrade then
      if !isValidQuantity tick.qty || !isValidPrice tick.price then e.reject .invalidField
      else e.onTrade
    else e.reject .unsupportedType

def process : LobEngine := (e.step tick).1

end

def run (ticks : List TickMsg) : LobEngine := ticks.foldl process e

/-! ## Queries -/

def bestBidPrice : Int :=
  if kSymbols ≤ sym then 0
  else if (e.symbolMeta sym).bidLevels = 0 then 0
  else (e.lob sym .bid 0).price

def bestAskPrice : Int :=
  if kSymbols ≤ sym then 0
  else if (e.symbolMeta sym).askLevels = 0 then 0
  else (e.lob sym .ask 0).price

def depthQty (levels : Nat → PriceLevel) (n : Nat) : Int :=
  (List.range n).foldl (fun total i => total + (levels i).totalQty) 0

def bidDepthQty (sym levels : Nat) : Int :=
  if kSymbols ≤ sym then 0
  else depthQty (e.lob sym .bid)
    (if levels < (e.symbolMeta sym).bidLevels then levels else (e.symbolMeta sym).bidLevels)

def askDepthQty (sym levels : Nat) : Int :=
  if kSymbols ≤ sym then 0
  else depthQty (e.lob sym .ask)
    (if levels < (e.symbolMeta sym).askLevels then levels else (e.symbolMeta sym).askLevels)

end LobEngine

end LuvFlicker
