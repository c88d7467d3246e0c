import LuvFlicker.Execution.Types
import LuvFlicker.Lib.Run
import LuvFlicker.Lib.Tally

/-!
# Conditional orders

The table of stop and pegged orders. A quote is held against the active entries in
table order; an entry whose condition is met is sent to the gateway, and leaves the
table if the gateway accepts it.
-/

namespace LuvFlicker

open Scan Run Tally Function List

inductive TriggerType where
  | kStopLoss
  | kStopLimit
  | kPeggedBid
  | kPeggedAsk
  | kPeggedMid
  deriving DecidableEq, Repr

structure ConditionalOrder where
  triggerId : UInt32 := 0
  symbolIdx : Nat := 0
  side : UInt8 := Exec.kBuy
  triggerType : TriggerType := .kStopLoss
  stopPrice : Int64 := 0
  limitPrice : Int64 := 0
  pegOffset : Int64 := 0
  qty : Int64 := 0
  clientOrderId : UInt32 := 0
  timeInForce : UInt8 := Exec.kDay
  active : Bool := false
  deriving DecidableEq, Repr

structure Quote where
  symbol : Nat
  bestBid : Int64
  bestAsk : Int64
  nowNs : UInt64 := 0
  deriving DecidableEq, Repr

namespace ConditionalOrder

variable (trig : ConditionalOrder) (quote : Quote)

def buyStop : Prop := trig.side = Exec.kBuy ∧ quote.bestAsk > 0 ∧ quote.bestAsk ≥ trig.stopPrice

def sellStop : Prop := trig.side = Exec.kSell ∧ quote.bestBid > 0 ∧ quote.bestBid ≤ trig.stopPrice

instance : Decidable (trig.buyStop quote) := inferInstanceAs (Decidable (_ ∧ _ ∧ _))

instance : Decidable (trig.sellStop quote) := inferInstanceAs (Decidable (_ ∧ _ ∧ _))

def orderPrice : Option Int64 :=
  match trig.triggerType with
  | .kStopLoss =>
    if trig.buyStop quote then some quote.bestAsk
    else if trig.sellStop quote then some quote.bestBid
    else none
  | .kStopLimit =>
    if trig.buyStop quote then some (if trig.limitPrice > 0 then trig.limitPrice else quote.bestAsk)
    else if trig.sellStop quote then some (if trig.limitPrice > 0 then trig.limitPrice else quote.bestBid)
    else none
  | .kPeggedBid => if quote.bestBid > 0 then some (quote.bestBid + trig.pegOffset) else none
  | .kPeggedAsk => if quote.bestAsk > 0 then some (quote.bestAsk + trig.pegOffset) else none
  | .kPeggedMid =>
    if quote.bestBid > 0 ∧ quote.bestAsk > 0 then some ((quote.bestBid + quote.bestAsk) / 2 + trig.pegOffset) else none

def intent (price : Int64) : OrderIntent where
  symbolIdx := trig.symbolIdx
  side := trig.side
  qty := trig.qty
  price := price
  alphaTimestampNs := quote.nowNs
  nowNs := quote.nowNs
  clientOrderId := trig.clientOrderId
  timeInForce := trig.timeInForce

def weight : Nat := if trig.active then 1 else 0

def Meets : Prop :=
  match trig.triggerType with
  | .kStopLoss | .kStopLimit => trig.buyStop quote ∨ trig.sellStop quote
  | .kPeggedBid => quote.bestBid > 0
  | .kPeggedAsk => quote.bestAsk > 0
  | .kPeggedMid => quote.bestBid > 0 ∧ quote.bestAsk > 0

variable {trig quote} {price : Int64}

theorem meets_of_orderPrice (h : trig.orderPrice quote = some price) : trig.Meets quote := by
  rw [orderPrice] at h
  rw [Meets]
  split at h
  · split_ifs at h with hBuy hSell
    · exact .inl hBuy
    · exact .inr hSell
  · split_ifs at h with hBuy hLimit hSell
    · exact .inl hBuy
    · exact .inl hBuy
    · exact .inr ‹_›
    · exact .inr ‹_›
  · split_ifs at h with hBid
    exact hBid
  · split_ifs at h with hAsk
    exact hAsk
  · split_ifs at h with hBoth
    exact hBoth

end ConditionalOrder

structure StopOrderTable where
  triggers : Nat → ConditionalOrder := fun _ => {}
  activeCount : Nat := 0

namespace StopOrderTable

/-! ## The table -/

section

variable (t : StopOrderTable)

def setTrigger (i : Nat) (order : ConditionalOrder) : StopOrderTable :=
  { t with triggers := update t.triggers i order }

def deactivate (i : Nat) : StopOrderTable :=
  { t.setTrigger i { t.triggers i with active := false } with activeCount := t.activeCount - 1 }

def place (i : Nat) (order : ConditionalOrder) : StopOrderTable :=
  { t.setTrigger i { order with active := true, triggerId := .ofNat (i + 1) } with activeCount := t.activeCount + 1 }

end

variable (n : Nat) (t : StopOrderTable)

def findFree : Option Nat := firstIndex (fun i => !(t.triggers i).active) n

def findTrigger (clientOrderId : UInt32) : Option Nat :=
  firstIndex (fun i => (t.triggers i).active && (t.triggers i).clientOrderId = clientOrderId) n

def registerTrigger (order : ConditionalOrder) : Bool × StopOrderTable :=
  if order.clientOrderId = 0 ∨ order.qty ≤ 0 ∨ order.symbolIdx ≥ Config.kSymbols then (false, t)
  else
    match t.findFree n with
    | none => (false, t)
    | some i => (true, t.place i order)

def cancelTrigger (clientOrderId : UInt32) : Bool × StopOrderTable :=
  if clientOrderId = 0 then (false, t)
  else
    match t.findTrigger n clientOrderId with
    | none => (false, t)
    | some i => (true, t.deactivate i)

def activeEntries : Nat := total n ConditionalOrder.weight t.triggers

end StopOrderTable

/-! ## Quotes -/

/-- The order of an entry that the gateway has accepted, with its packet. -/
structure Route where
  index : Nat
  packet : OutboundPacket

structure Routing (γ : Type) where
  table : StopOrderTable
  gateway : γ
  packets : Nat → OutboundPacket
  routed : Nat := 0
  routes : List Route := []

abbrev TryBuild (γ : Type) := OrderIntent → OutboundPacket → γ → (RiskDecision × OutboundPacket) × γ

namespace Routing

variable {γ : Type} (tryBuild : TryBuild γ) (quote : Quote)

def send (i : Nat) (price : Int64) (r : Routing γ) : Routing γ :=
  let ((decision, packet), gateway) := tryBuild ((r.table.triggers i).intent quote price) (r.packets r.routed) r.gateway
  let packets := update r.packets r.routed packet
  if decision.pass then
    ⟨r.table.deactivate i, gateway, packets, r.routed + 1, r.routes ++ [⟨i, packet⟩]⟩
  else { r with gateway := gateway, packets := packets }

def visit (i : Nat) (r : Routing γ) : Routing γ :=
  if !(r.table.triggers i).active ∨ (r.table.triggers i).symbolIdx ≠ quote.symbol then r
  else
    match (r.table.triggers i).orderPrice quote with
    | none => r
    | some price => if price > 0 then r.send tryBuild quote i price else r

def loop (maxPackets : Nat) : Nat → Nat → Routing γ → Routing γ
  | 0, _, r => r
  | n + 1, i, r => if r.routed < maxPackets then loop maxPackets n (i + 1) (r.visit tryBuild quote i) else r

end Routing

namespace StopOrderTable

def evaluateBbo {γ : Type} (tryBuild : TryBuild γ) (n : Nat) (t : StopOrderTable) (quote : Quote) (gateway : γ)
    (packets : Option (Nat → OutboundPacket)) (maxPackets : Nat) : Routing γ :=
  match packets with
  | none => ⟨t, gateway, fun _ => {}, 0, []⟩
  | some packets =>
    if quote.symbol ≥ Config.kSymbols ∨ t.activeCount = 0 ∨ maxPackets = 0 then ⟨t, gateway, packets, 0, []⟩
    else Routing.loop tryBuild quote maxPackets n 0 ⟨t, gateway, packets, 0, []⟩

/-! ## Counting -/

variable {n i : Nat} {t : StopOrderTable} {j : Nat}

theorem active_deactivate : ((t.deactivate i).triggers j).active = true ↔ j ≠ i ∧ (t.triggers j).active = true := by
  rcases eq_or_ne j i with rfl | hne
  · have hSelf : (t.deactivate j).triggers j = { t.triggers j with active := false } := update_self ..
    rw [hSelf]
    exact ⟨nofun, fun h => absurd rfl h.1⟩
  · have hOther : (t.deactivate i).triggers j = t.triggers j := update_of_ne hne ..
    rw [hOther, and_iff_right hne]

theorem active_place {order : ConditionalOrder} :
    ((t.place i order).triggers j).active = true ↔ j = i ∨ (t.triggers j).active = true := by
  rcases eq_or_ne j i with rfl | hne
  · have hSelf : (t.place j order).triggers j = { order with active := true, triggerId := .ofNat (j + 1) } :=
      update_self ..
    rw [hSelf]
    exact ⟨fun _ => .inl rfl, fun _ => rfl⟩
  · have hOther : (t.place i order).triggers j = t.triggers j := update_of_ne hne ..
    rw [hOther, or_iff_right hne]

theorem registerTrigger_cases (n : Nat) (t : StopOrderTable) (order : ConditionalOrder) :
    t.registerTrigger n order = (false, t) ∨
      ∃ i < n, (t.triggers i).active = false ∧ t.registerTrigger n order = (true, t.place i order) := by
  rw [registerTrigger]
  split
  · exact .inl rfl
  split
  · exact .inl rfl
  rename_i i hFree
  obtain ⟨hi, hInactive, _⟩ := (firstIndex_eq_some_iff ..).mp hFree
  rw [Bool.not_eq_true'] at hInactive
  exact .inr ⟨i, hi, hInactive, rfl⟩

theorem cancelTrigger_cases (n : Nat) (t : StopOrderTable) (clientOrderId : UInt32) :
    t.cancelTrigger n clientOrderId = (false, t) ∨
      ∃ i < n, (t.triggers i).active = true ∧ t.cancelTrigger n clientOrderId = (true, t.deactivate i) := by
  rw [cancelTrigger]
  split
  · exact .inl rfl
  split
  · exact .inl rfl
  next i hFound =>
    obtain ⟨hi, hActive, _⟩ := (firstIndex_eq_some_iff ..).mp hFound
    exact .inr ⟨i, hi, (Bool.and_eq_true_iff.mp hActive).1, rfl⟩

def Counted (n : Nat) (t : StopOrderTable) : Prop := t.activeCount = t.activeEntries n

theorem Counted.place (h : t.Counted n) (hi : i < n) (hFree : (t.triggers i).active = false)
    (order : ConditionalOrder) : (t.place i order).Counted n := by
  have hAdd : (t.place i order).activeEntries n + (t.triggers i).weight = t.activeEntries n + 1 := total_update_add hi
  have hNone : (t.triggers i).weight = 0 := if_neg (by rw [hFree]; exact Bool.false_ne_true)
  rw [hNone, add_zero] at hAdd
  rw [Counted, hAdd, ← h]
  rfl

theorem Counted.deactivate (h : t.Counted n) (hi : i < n) (hActive : (t.triggers i).active = true) :
    (t.deactivate i).Counted n := by
  have hAdd : (t.deactivate i).activeEntries n + (t.triggers i).weight = t.activeEntries n + 0 := total_update_add hi
  have hOne : (t.triggers i).weight = 1 := if_pos hActive
  rw [hOne, ← h] at hAdd
  rw [Counted, ← Nat.add_sub_cancel (n := (t.deactivate i).activeEntries n) (m := 1), hAdd]
  rfl

end StopOrderTable

/-! ## The loop -/

def PacketOf {γ : Type} (tryBuild : TryBuild γ) (quote : Quote) (trig : ConditionalOrder) (packet : OutboundPacket) :
    Prop :=
  ∃ price before gateway, trig.orderPrice quote = some price ∧ price > 0 ∧
    (tryBuild (trig.intent quote price) before gateway).1.1.pass = true ∧
    (tryBuild (trig.intent quote price) before gateway).1.2 = packet

structure RouteOf {γ : Type} (tryBuild : TryBuild γ) (quote : Quote) (start : StopOrderTable) (route : Route) :
    Prop where
  active : (start.triggers route.index).active = true
  symbol : (start.triggers route.index).symbolIdx = quote.symbol
  packet : PacketOf tryBuild quote (start.triggers route.index) route.packet

namespace Routing

variable {γ : Type} {tryBuild : TryBuild γ} {quote : Quote} {n i maxPackets : Nat} {start : StopOrderTable}
  {r : Routing γ}

def indices (r : Routing γ) : List Nat := r.routes.map Route.index

def given (r : Routing γ) : List OutboundPacket := (List.range r.routed).map r.packets

structure Inv (tryBuild : TryBuild γ) (quote : Quote) (n maxPackets : Nat) (start : StopOrderTable) (i : Nat)
    (r : Routing γ) : Prop where
  counted : r.table.Counted n
  le : r.routed ≤ maxPackets
  given : r.given = r.routes.map Route.packet
  below : ∀ j ∈ r.indices, j < i
  sorted : r.indices.Pairwise (· < ·)
  triggers : ∀ j, r.table.triggers j =
    if j ∈ r.indices then { start.triggers j with active := false } else start.triggers j
  sound : ∀ route ∈ r.routes, RouteOf tryBuild quote start route

section

variable (h : Inv tryBuild quote n maxPackets start i r)
include h

theorem Inv.trigger : r.table.triggers i = start.triggers i := by
  rw [h.triggers, if_neg fun hMem => lt_irrefl i (h.below i hMem)]

theorem Inv.mono : Inv tryBuild quote n maxPackets start (i + 1) r :=
  { h with below := fun j hj => Nat.lt_succ_of_lt (h.below j hj) }

end

theorem map_range_update (packets : Nat → OutboundPacket) (k : Nat) (packet : OutboundPacket) :
    (List.range k).map (update packets k packet) = (List.range k).map packets :=
  map_congr_left fun _ hj => update_of_ne (ne_of_lt (mem_range.mp hj)) ..

section

variable (h : Inv tryBuild quote n maxPackets start i r)

include h

theorem Inv.triggers_deactivate (packet : OutboundPacket) (j : Nat) : (r.table.deactivate i).triggers j =
      if j ∈ (r.routes ++ [Route.mk i packet]).map Route.index then { start.triggers j with active := false }
      else start.triggers j := by
  have hMem : j ∈ (r.routes ++ [Route.mk i packet]).map Route.index ↔ j ∈ r.indices ∨ j = i := by
    rw [map_append, mem_append, map_singleton, mem_singleton, indices]
  rcases eq_or_ne j i with rfl | hne
  · rw [if_pos (hMem.mpr (.inr rfl)), ← h.trigger]
    exact update_self ..
  have hOld : (r.table.deactivate i).triggers j = r.table.triggers j := update_of_ne hne ..
  rw [hOld, h.triggers]
  by_cases hIn : j ∈ r.indices
  · rw [if_pos hIn, if_pos (hMem.mpr (.inl hIn))]
  · rw [if_neg hIn, if_neg fun hNew => (hMem.mp hNew).elim hIn hne]

theorem Inv.send (hi : i < n) (hRoom : r.routed < maxPackets) (hActive : (r.table.triggers i).active = true)
    (hSymbol : (r.table.triggers i).symbolIdx = quote.symbol)
    (hPrice : (r.table.triggers i).orderPrice quote = some price) (hPos : price > 0) :
    Inv tryBuild quote n maxPackets start (i + 1) (r.send tryBuild quote i price) := by
  have hGiven := h.given
  rw [Routing.given] at hGiven
  rw [Routing.send]
  dsimp only
  split
  next hPass =>
    have hTrigger := h.trigger
    refine ⟨h.counted.deactivate hi hActive, hRoom, ?_, fun j hj => ?_, ?_, fun j => ?_, fun _ hRoute => ?_⟩
    · rw [Routing.given, map_append, ← hGiven]
      dsimp only
      rw [range_succ, map_append, map_range_update, map_singleton, update_self, map_singleton]
    · rw [indices, map_append, mem_append] at hj
      rcases hj with hOld | hNew
      · exact Nat.lt_succ_of_lt (h.below j hOld)
      · rw [mem_singleton.mp hNew]
        exact Nat.lt_succ_self i
    · rw [indices, map_append, pairwise_append]
      refine ⟨h.sorted, pairwise_singleton .., fun j hj k hk => ?_⟩
      rw [mem_singleton.mp hk]
      exact h.below j hj
    · exact h.triggers_deactivate _ j
    · rcases mem_append.mp hRoute with hOld | hNew
      · exact h.sound _ hOld
      rw [mem_singleton.mp hNew]
      rw [hTrigger] at hActive hSymbol hPrice hPass ⊢
      exact ⟨hActive, hSymbol, _, _, _, hPrice, hPos, hPass, rfl⟩
  · refine { h.mono with given := ?_ }
    rw [Routing.given]
    rw [map_range_update, hGiven]

theorem Inv.visit (hi : i < n) (hRoom : r.routed < maxPackets) :
    Inv tryBuild quote n maxPackets start (i + 1) (r.visit tryBuild quote i) := by
  rw [Routing.visit]
  split
  · exact h.mono
  rename_i hEntry
  rw [not_or, Bool.not_eq_true', Bool.not_eq_false, not_not] at hEntry
  split
  · exact h.mono
  rename_i price hPrice
  split
  next hPos => exact h.send hi hRoom hEntry.1 hEntry.2 hPrice hPos
  · exact h.mono

end

theorem Inv.loop (k : Nat) (h : Inv tryBuild quote n maxPackets start i r) (hEnd : i + k = n) :
    Inv tryBuild quote n maxPackets start n (Routing.loop tryBuild quote maxPackets k i r) := by
  induction k generalizing i r with
  | zero =>
    obtain rfl : i = n := hEnd
    exact h
  | succ k ih =>
    rw [Routing.loop]
    split
    next hRoom => exact ih (h.visit (by omega) hRoom) (by omega)
    · exact { h with below := fun j hj => lt_of_lt_of_le (h.below j hj) (by omega) }

end Routing

/-- What `evaluate_bbo` gives out: the packets of the entries it takes out of the table, in table order. -/
structure Evaluated {γ : Type} (tryBuild : TryBuild γ) (quote : Quote) (n maxPackets : Nat) (start : StopOrderTable)
    (r : Routing γ) : Prop where
  le : r.routed ≤ maxPackets
  given : r.given = r.routes.map Route.packet
  sorted : r.indices.Pairwise (· < ·)
  deactivated : ∀ j, j ∈ r.indices ↔ j < n ∧ (start.triggers j).active = true ∧ (r.table.triggers j).active = false
  sound : ∀ route ∈ r.routes, (start.triggers route.index).symbolIdx = quote.symbol ∧
    (start.triggers route.index).Meets quote ∧ PacketOf tryBuild quote (start.triggers route.index) route.packet

namespace StopOrderTable

variable {γ : Type} {tryBuild : TryBuild γ} {quote : Quote} {n maxPackets : Nat} {t : StopOrderTable}

theorem evaluateBbo_inv (h : t.Counted n) (gateway : γ) (packets : Option (Nat → OutboundPacket)) :
    Routing.Inv tryBuild quote n maxPackets t n (t.evaluateBbo tryBuild n quote gateway packets maxPackets) := by
  have hStart (packets : Nat → OutboundPacket) (i : Nat) :
      Routing.Inv tryBuild quote n maxPackets t i ⟨t, gateway, packets, 0, []⟩ :=
    ⟨h, Nat.zero_le _, rfl, nofun, List.Pairwise.nil, fun _ => rfl, nofun⟩
  cases packets with
  | none => exact hStart (fun _ => {}) n
  | some packets =>
    rw [evaluateBbo]
    split
    · exact hStart _ n
    · exact (hStart _ 0).loop n (zero_add n)

variable {r : Routing γ}

theorem evaluated_of_inv (h : Routing.Inv tryBuild quote n maxPackets t n r) :
    Evaluated tryBuild quote n maxPackets t r := by
  refine ⟨h.le, h.given, h.sorted, fun j => ?_, fun route hRoute => ?_⟩
  · rw [h.triggers]
    constructor
    · intro hMem
      obtain ⟨route, hRoute, rfl⟩ := mem_map.mp hMem
      rw [if_pos hMem]
      exact ⟨h.below _ hMem, (h.sound _ hRoute).active, rfl⟩
    · rintro ⟨_, hActive, hInactive⟩
      by_contra hOut
      rw [if_neg hOut, hActive] at hInactive
      cases hInactive
  · have hRouteOf := h.sound _ hRoute
    obtain ⟨_, _, _, hPrice, _⟩ := hRouteOf.packet
    exact ⟨hRouteOf.symbol, ConditionalOrder.meets_of_orderPrice hPrice, hRouteOf.packet⟩

end StopOrderTable

/-! ## Runs -/

/-- A call on the table. The gateway may be in any state when it is handed a quote. -/
inductive StopOrderCall (γ : Type) where
  | register (order : ConditionalOrder)
  | cancel (clientOrderId : UInt32)
  | evaluate (quote : Quote) (gateway : γ) (packets : Option (Nat → OutboundPacket)) (maxPackets : Nat)

/-- The table, with a serial number for each registration: the number of the entry in each place, and the numbers whose
order was accepted or that were cancelled. -/
structure Registered where
  table : StopOrderTable := {}
  serials : Nat → Nat := fun _ => 0
  registered : Nat := 0
  accepted : List Nat := []
  cancelled : List Nat := []

open StopOrderTable

namespace Registered

variable {γ : Type} (tryBuild : TryBuild γ) (n : Nat)

def register (order : ConditionalOrder) (s : Registered) : Registered :=
  let (taken, table) := s.table.registerTrigger n order
  { s with
    table := table
    serials := fun j => if !(s.table.triggers j).active ∧ (table.triggers j).active then s.registered else s.serials j
    registered := if taken then s.registered + 1 else s.registered }

def leaving (before after : StopOrderTable) : List Nat :=
  (List.range n).filter fun j => (before.triggers j).active && !(after.triggers j).active

def cancel (clientOrderId : UInt32) (s : Registered) : Registered :=
  let table := (s.table.cancelTrigger n clientOrderId).2
  { s with table := table, cancelled := s.cancelled ++ (leaving n s.table table).map s.serials }

def evaluate (r : Routing γ) (s : Registered) : Registered :=
  { s with table := r.table, accepted := s.accepted ++ r.indices.map s.serials }

def step : StopOrderCall γ → Registered → Unit × Registered
  | .register order, s => ((), s.register n order)
  | .cancel clientOrderId, s => ((), s.cancel n clientOrderId)
  | .evaluate quote gateway packets maxPackets, s =>
    ((), s.evaluate (s.table.evaluateBbo tryBuild n quote gateway packets maxPackets))

/-- What a call does to the table, and what the registrations have come to after it. -/
structure Sound (call : StopOrderCall γ) (s : Registered) : Prop where
  counted : (step tryBuild n call s).2.table.Counted n
  once : (step tryBuild n call s).2.accepted.Nodup
  cancelled : (step tryBuild n call s).2.accepted.Disjoint (step tryBuild n call s).2.cancelled
  evaluated : ∀ quote gateway packets maxPackets, call = .evaluate quote gateway packets maxPackets →
    Evaluated tryBuild quote n maxPackets s.table (s.table.evaluateBbo tryBuild n quote gateway packets maxPackets)

structure Inv (s : Registered) : Prop where
  counted : s.table.Counted n
  below : ∀ j < n, (s.table.triggers j).active = true → s.serials j < s.registered
  distinct : ∀ j < n, ∀ k < n, (s.table.triggers j).active = true → (s.table.triggers k).active = true →
    s.serials j = s.serials k → j = k
  fresh : ∀ j < n, (s.table.triggers j).active = true → s.serials j ∉ s.accepted ++ s.cancelled
  old : ∀ serial ∈ s.accepted ++ s.cancelled, serial < s.registered
  nodup : (s.accepted ++ s.cancelled).Nodup

variable {n} {s : Registered}

theorem Inv.init : Inv n {} where
  counted := Eq.symm (Finset.sum_eq_zero fun _ _ => rfl : total n ConditionalOrder.weight (fun _ => {}) = 0)
  below := nofun
  distinct := nofun
  fresh := nofun
  old := nofun
  nodup := nodup_nil

theorem Inv.leave (h : Inv n s) {table : StopOrderTable} {accepted cancelled : List Nat} (out : List Nat)
    (hCounted : table.Counted n) (hNodup : out.Nodup)
    (hOut : ∀ j, j ∈ out ↔ j < n ∧ (s.table.triggers j).active = true ∧ (table.triggers j).active = false)
    (hLess : ∀ j, (table.triggers j).active = true → (s.table.triggers j).active = true)
    (hPerm : (accepted ++ cancelled).Perm (s.accepted ++ s.cancelled ++ out.map s.serials)) :
    Inv n { s with table := table, accepted := accepted, cancelled := cancelled } := by
  have hMem (serial : Nat) : serial ∈ accepted ++ cancelled ↔
      serial ∈ s.accepted ++ s.cancelled ∨ ∃ j ∈ out, s.serials j = serial := by
    rw [hPerm.mem_iff, mem_append, mem_map]
  constructor
  · exact hCounted
  · exact fun j hj hHere => h.below j hj (hLess j hHere)
  · exact fun j hj k hk hHere hThere => h.distinct j hj k hk (hLess j hHere) (hLess k hThere)
  · intro j hj hHere hIn
    rcases (hMem _).mp hIn with hOld | ⟨k, hk, hSame⟩
    · exact h.fresh j hj (hLess j hHere) hOld
    obtain ⟨hBelow, hActive, hInactive⟩ := (hOut k).mp hk
    obtain rfl := h.distinct k hBelow j hj hActive (hLess j hHere) hSame
    cases hHere.symm.trans hInactive
  · intro serial hIn
    rcases (hMem serial).mp hIn with hOld | ⟨k, hk, rfl⟩
    · exact h.old _ hOld
    · obtain ⟨hBelow, hActive, _⟩ := (hOut k).mp hk
      exact h.below k hBelow hActive
  · rw [hPerm.nodup_iff, nodup_append']
    refine ⟨h.nodup, hNodup.map_on fun j hj k hk => ?_, fun serial hOld hNew => ?_⟩
    · obtain ⟨hBelow, hActive, _⟩ := (hOut j).mp hj
      obtain ⟨hBelow', hActive', _⟩ := (hOut k).mp hk
      exact h.distinct j hBelow k hBelow' hActive hActive'
    · obtain ⟨k, hk, rfl⟩ := mem_map.mp hNew
      obtain ⟨hBelow, hActive, _⟩ := (hOut k).mp hk
      exact h.fresh k hBelow hActive hOld

theorem mem_leaving {before after : StopOrderTable} : j ∈ leaving n before after ↔
    j < n ∧ (before.triggers j).active = true ∧ (after.triggers j).active = false := by
  rw [leaving, mem_filter, mem_range, Bool.and_eq_true, Bool.not_eq_true']

theorem Inv.cancel (h : Inv n s) (clientOrderId : UInt32) : Inv n (s.cancel n clientOrderId) := by
  have hTable := s.table.cancelTrigger_cases n clientOrderId
  refine h.leave _ ?_ (nodup_range.filter _) (fun j => mem_leaving) (fun j hActive => ?_)
    (append_assoc .. ▸ List.Perm.refl _)
  · rcases hTable with hSame | ⟨i, hi, hActive, hOut⟩
    · rw [hSame]
      exact h.counted
    · rw [hOut]
      exact h.counted.deactivate hi hActive
  · rcases hTable with hSame | ⟨i, hi, _, hOut⟩
    · rw [hSame] at hActive
      exact hActive
    · rw [hOut] at hActive
      exact (active_deactivate.mp hActive).2

theorem Inv.place (h : Inv n s) {i : Nat} (hi : i < n) (hFree : (s.table.triggers i).active = false)
    (order : ConditionalOrder) : Inv n { s with
      table := s.table.place i order
      serials := update s.serials i s.registered
      registered := s.registered + 1 } := by
  have hCases {j : Nat} (hActive : ((s.table.place i order).triggers j).active = true) :
      (j = i ∧ update s.serials i s.registered j = s.registered) ∨
        ((s.table.triggers j).active = true ∧ update s.serials i s.registered j = s.serials j) := by
    rcases eq_or_ne j i with rfl | hne
    · exact .inl ⟨rfl, update_self ..⟩
    · exact .inr ⟨(active_place.mp hActive).resolve_left hne, update_of_ne hne ..⟩
  constructor
  · exact h.counted.place hi hFree _
  · intro j hj hActive
    rcases hCases hActive with ⟨_, hSerial⟩ | ⟨hBefore, hSerial⟩
    · exact Nat.lt_succ_of_le (le_of_eq hSerial)
    · exact Nat.lt_succ_of_lt (hSerial.trans_lt (h.below j hj hBefore))
  · intro j hj k hk hActive hActive' hSame
    dsimp only at hSame
    rcases hCases hActive with ⟨rfl, hSerial⟩ | ⟨hBefore, hSerial⟩ <;>
      rcases hCases hActive' with ⟨rfl, hSerial'⟩ | ⟨hBefore', hSerial'⟩
    · rfl
    · have hBelow := h.below k hk hBefore'
      omega
    · have hBelow := h.below j hj hBefore
      omega
    · exact h.distinct j hj k hk hBefore hBefore' (by omega)
  · intro j hj hActive hIn
    rcases hCases hActive with ⟨_, hSerial⟩ | ⟨hBefore, hSerial⟩
    · exact lt_irrefl _ (h.old _ (hSerial ▸ hIn))
    · exact h.fresh j hj hBefore (hSerial ▸ hIn)
  · exact fun _ hIn => Nat.lt_succ_of_lt (h.old _ hIn)
  · exact h.nodup

theorem serials_register {i : Nat} (hFree : (s.table.triggers i).active = false) (order : ConditionalOrder) :
    (fun j => if !(s.table.triggers j).active ∧ ((s.table.place i order).triggers j).active then s.registered
      else s.serials j) = update s.serials i s.registered := by
  funext j
  rcases eq_or_ne j i with rfl | hne
  · rw [update_self]
    exact if_pos ⟨by rw [hFree]; rfl, active_place.mpr (.inl rfl)⟩
  rw [update_of_ne hne]
  refine if_neg fun ⟨hInactive, hActive⟩ => ?_
  rw [(active_place.mp hActive).resolve_left hne] at hInactive
  cases hInactive

theorem Inv.register (h : Inv n s) (order : ConditionalOrder) : Inv n (s.register n order) := by
  rw [Registered.register]
  rcases s.table.registerTrigger_cases n order with hSame | ⟨i, hi, hFree, hTaken⟩
  · have hSerials : (fun j => if !(s.table.triggers j).active ∧ (s.table.triggers j).active then s.registered
        else s.serials j) = s.serials := by
      funext j
      exact if_neg fun ⟨hInactive, hActive⟩ => by rw [hActive] at hInactive; cases hInactive
    rw [hSame]
    dsimp only
    rw [hSerials]
    exact h
  · rw [hTaken]
    dsimp only
    rw [serials_register hFree]
    exact h.place hi hFree _

variable {γ : Type} {tryBuild : TryBuild γ}

theorem Inv.evaluate (h : Inv n s) {quote : Quote} {maxPackets : Nat}
    (hRun : Routing.Inv tryBuild quote n maxPackets s.table n r) : Inv n (s.evaluate r) := by
  have hEvaluated := evaluated_of_inv hRun
  refine h.leave _ hRun.counted (hEvaluated.sorted.imp ne_of_lt) hEvaluated.deactivated (fun j hActive => ?_) ?_
  · rw [hRun.triggers] at hActive
    split at hActive
    · cases hActive
    · exact hActive
  · rw [append_assoc, append_assoc]
    exact List.Perm.append_left _ perm_append_comm

theorem Inv.step (h : Inv n s) (call : StopOrderCall γ) : Inv n (Registered.step tryBuild n call s).2 := by
  cases call with
  | register order => exact h.register _
  | cancel clientOrderId => exact h.cancel _
  | evaluate quote gateway packets maxPackets =>
    exact h.evaluate (evaluateBbo_inv h.counted _ _)

theorem sound_of_inv (h : Inv n s) (call : StopOrderCall γ) : Sound tryBuild n call s := by
  have hAfter : Inv n (Registered.step tryBuild n call s).2 := h.step call
  obtain ⟨hOnce, _, hDisjoint⟩ := nodup_append'.mp hAfter.nodup
  exact ⟨hAfter.counted, hOnce, hDisjoint, fun _ _ _ _ _ =>
    evaluated_of_inv (evaluateBbo_inv h.counted _ _)⟩

end Registered

/-- **Conditional orders are accepted at most once.** Whatever the gateway answers and whatever calls are made on the
table: the count is that of the active entries, a registration has at most one accepted order and none once it is
cancelled, and a quote gives out the packets of the entries it takes out of the table. -/
theorem stopOrders_sound {γ : Type} (tryBuild : TryBuild γ) (n : Nat) (calls : List (StopOrderCall γ)) :
    Always (Registered.step tryBuild n) (Registered.Sound tryBuild n) calls {} := by
  have hTrue : Always (Registered.step tryBuild n) (fun _ _ => True) calls {} :=
    always_of_forall (fun _ _ => trivial) _ _
  refine (hTrue.iff_of_invariant _ (fun call s _ hInv => ?_)
    (fun call s _ (_ : True) hInv => hInv.step call) Registered.Inv.init).mpr hTrue
  exact iff_true_intro (Registered.sound_of_inv hInv call)

end LuvFlicker
