import LuvFlicker.Execution.OrderFlow
import LuvFlicker.Execution.Packets
import LuvFlicker.Execution.Step
import LuvFlicker.Recovery.Append

/-!
# Replacements and their acknowledgement

A replacement asks the venue to go on under a new token. The slot of the order, its
entry in the reconciliation ledger and the records in the log keep the old one, and
a report under the new token finds nothing.
-/

namespace LuvFlicker

open Bytes Scan Function List ReconciliationLedger SymbolExecState RecoveryLedger GatewayEnv Ouch Account Int64

namespace Ouch

/-! ## Frames of the venue -/

def frame (type : UInt8) (orderId : UInt64) (rest : List UInt8) : List UInt8 :=
  toBytesBe 2 (9 + rest.length) ++ ([type] ++ (toBytesBe 8 orderId.toNat ++ rest))

def replacedFrame (orderId : UInt64) (qty price : Nat) : List UInt8 :=
  frame 0x55 orderId (toBytesBe 4 qty ++ toBytesBe 4 price)

def executedFrame (orderId : UInt64) (qty : Nat) : List UInt8 := frame 0x45 orderId (toBytesBe 4 qty)

def canceledFrame (orderId : UInt64) : List UInt8 := frame 0x43 orderId []

variable {rest : List UInt8}

theorem parse_frame (type : UInt8) (orderId : UInt64) (hRest : rest.length ≤ 8) : parse (frame type orderId rest) =
      if orderId = 0 then none
      else (parseBody ([type] ++ (toBytesBe 8 orderId.toNat ++ rest)) (9 + rest.length) orderId).map
        fun event => (event, 9 + rest.length + 2) := by
  have hLength : beField (frame type orderId rest) 0 2 = 9 + rest.length := by
    rw [frame, beField_toBytesBe, Nat.mod_eq_of_lt (by omega)]
  have hSize : (frame type orderId rest).length = 9 + rest.length + 2 := by
    simp only [frame, length_append, length_toBytesBe, length_singleton]
    omega
  have hBody : (frame type orderId rest).drop 2 = [type] ++ (toBytesBe 8 orderId.toNat ++ rest) :=
    drop_left' (length_toBytesBe 2 _)
  have hToken : UInt64.ofNat (beField ([type] ++ (toBytesBe 8 orderId.toNat ++ rest)) 1 8) = orderId := by
    rw [show 1 = [type].length from rfl, beField_skip, beField_toBytesBe, ofNat_uint64]
  rw [parse, if_neg (by omega), hLength, hBody]
  dsimp only
  rw [if_neg (by rw [kMaxBodyLength, kReplacedLength]; omega), hToken]

variable {qty price : Nat} {orderId : UInt64}

theorem be32_body (type : UInt8) (orderId : UInt64) (rest : List UInt8) (h : qty < 2 ^ 32) :
    be32 ([type] ++ (toBytesBe 8 orderId.toNat ++ (toBytesBe 4 qty ++ rest))) 9 = Int64.ofNat qty := by
  have hFront : ([type] ++ toBytesBe 8 orderId.toNat).length = 9 := by
    rw [length_append, length_toBytesBe, length_singleton]
  rw [be32, ← append_assoc, ← hFront, beField_skip, beField_toBytesBe, Nat.mod_eq_of_lt (by exact h)]

theorem be32_body_next (type : UInt8) (orderId : UInt64) (qty : Nat) (h : price < 2 ^ 32) :
    be32 ([type] ++ (toBytesBe 8 orderId.toNat ++ (toBytesBe 4 qty ++ toBytesBe 4 price))) 13 = Int64.ofNat price := by
  have hFront : ([type] ++ (toBytesBe 8 orderId.toNat ++ toBytesBe 4 qty)).length = 13 := by simp
  rw [be32, ← append_assoc (toBytesBe 8 _), ← append_assoc, ← hFront, beField_skip,
    ← append_nil (toBytesBe 4 _), beField_toBytesBe, Nat.mod_eq_of_lt (by exact h)]

theorem ofNat_pos {n : Nat} (h : 0 < n) (h' : n < 2 ^ 32) : ¬ Int64.ofNat n ≤ 0 := by
  rw [le_iff_toInt_le, toInt_ofNat_of_lt (by omega), toInt_zero]
  omega

variable {body : List UInt8}

theorem parseBody_replaced {bodyLength : Nat} {orderId : UInt64} (h : byteAt body 0 = 0x55) :
    parseBody body bodyLength orderId = if bodyLength ≠ kReplacedLength ∨ be32 body 9 ≤ 0 ∨ be32 body 13 ≤ 0 then none
      else some { type := .kReplaced, orderId := orderId, quantity := be32 body 9, price := be32 body 13 } := by
  rw [parseBody, h]
  rfl

theorem parseBody_executed {bodyLength : Nat} {orderId : UInt64} (h : byteAt body 0 = 0x45) :
    parseBody body bodyLength orderId = if bodyLength ≠ kExecutedLength ∨ be32 body 9 ≤ 0 then none
      else some { type := .kExecuted, orderId := orderId, quantity := be32 body 9 } := by
  rw [parseBody, h]
  rfl

section

variable (hId : orderId ≠ 0) (hQty : 0 < qty ∧ qty < 2 ^ 32)
include hId hQty

theorem parse_replacedFrame (hPrice : 0 < price ∧ price < 2 ^ 32) : parse (replacedFrame orderId qty price) =
      some ({ type := .kReplaced, orderId := orderId, quantity := .ofNat qty, price := .ofNat price }, 19) := by
  have hRest : (toBytesBe 4 qty ++ toBytesBe 4 price).length = 8 := by
    rw [length_append, length_toBytesBe, length_toBytesBe]
  rw [replacedFrame, parse_frame 0x55 _ hRest.le, if_neg hId,
    parseBody_replaced rfl, be32_body 0x55 _ _ hQty.2, be32_body_next 0x55 _ qty hPrice.2, if_neg]
  · rfl
  · rw [not_or, not_or]
    exact ⟨fun hLength => hLength rfl, ofNat_pos hQty.1 hQty.2, ofNat_pos hPrice.1 hPrice.2⟩

theorem parse_executedFrame : parse (executedFrame orderId qty) =
      some ({ type := .kExecuted, orderId := orderId, quantity := .ofNat qty }, 15) := by
  have hFirst := be32_body 0x45 orderId [] hQty.2
  rw [append_nil] at hFirst
  rw [executedFrame, parse_frame 0x45 _ (by rw [length_toBytesBe]; decide), if_neg hId,
    parseBody_executed rfl, hFirst, if_neg]
  · rfl
  · rw [not_or]
    exact ⟨fun hLength => hLength rfl, ofNat_pos hQty.1 hQty.2⟩

end

theorem parse_canceledFrame (hId : orderId ≠ 0) :
    parse (canceledFrame orderId) = some ({ type := .kCanceled, orderId := orderId }, 11) := by
  rw [canceledFrame, parse_frame 0x43 _ (by decide), if_neg hId]
  rfl

variable {g : ExecutionGateway} {env : GatewayEnv} {symbol : Nat} {orderId : UInt64}

section

variable (hId : orderId ≠ 0)
include hId

theorem consume_replacedFrame (hQty : 0 < qty ∧ qty < 2 ^ 32) (hPrice : 0 < price ∧ price < 2 ^ 32) :
    consume (replacedFrame orderId qty price) symbol env g =
      (((g.applyReplaceReport env symbol orderId (.ofNat qty) (.ofNat price)).1, 19),
        (g.applyReplaceReport env symbol orderId (.ofNat qty) (.ofNat price)).2) := by
  rw [consume, parse_replacedFrame hId hQty hPrice]

theorem consume_executedFrame (hQty : 0 < qty ∧ qty < 2 ^ 32) : consume (executedFrame orderId qty) symbol env g =
      (((g.applyExecutionReport env symbol ⟨orderId, qty, false⟩).1.1, 15),
        (g.applyExecutionReport env symbol ⟨orderId, qty, false⟩).2) := by
  have hValue : (Int64.ofNat qty).toInt = qty := toInt_ofNat_of_lt (by omega)
  rw [consume, parse_executedFrame hId hQty]
  dsimp only
  rw [hValue]

theorem consume_canceledFrame : consume (canceledFrame orderId) symbol env g =
      (((g.applyCancelReport env symbol orderId).1, 11), (g.applyCancelReport env symbol orderId).2) := by
  rw [consume, parse_canceledFrame hId]

end

end Ouch

/-- Surroundings in which an open log takes a whole record. -/
def GatewayEnv.Writes (env : GatewayEnv) : Prop :=
  RecoveryLedger.progress env.io.writes RecoveryRecord.size = RecoveryRecord.size ∧ env.io.synced = true

theorem GatewayEnv.writes_default : ({} : GatewayEnv).Writes := ⟨by decide, rfl⟩

namespace SymbolExecState

end SymbolExecState

namespace ExecutionGateway

variable {g : ExecutionGateway} {env : GatewayEnv} {symbol slot : Nat} {orderId : UInt64}

def LogOpen (g : ExecutionGateway) : Prop := ∀ ledger, g.recovery = some ledger → ledger.isOpen = true

variable {event : RecoveryEvent}

theorem logOpen_of_appendRecovery {io : AppendIo} (h : (g.appendRecovery event io).1 = true) : g.LogOpen := by
  intro ledger hLedger
  rw [appendRecovery, hLedger] at h
  dsimp only at h
  rw [appendWithSide] at h
  split at h
  · cases h
  next hArgs => simpa using (not_or.mp hArgs).1

theorem appendRecovery_of_open (hOpen : g.LogOpen) (hWrites : env.Writes)
    (hId : event.orderId ≠ 0) (hQty : 0 < event.quantity) :
    (g.appendRecovery event env.io).1 = true ∧ (g.appendRecovery event env.io).2.LogOpen := by
  rw [appendRecovery]
  cases hRecovery : g.recovery with
  | none => exact ⟨rfl, hOpen⟩
  | some ledger =>
    have hLedger := hOpen _ hRecovery
    have hArgs : ¬ ((!ledger.isOpen) = true ∨ event.orderId = 0 ∨ event.quantity ≤ 0) := by
      rw [hLedger, not_or, not_or]
      exact ⟨Bool.false_ne_true, hId, Int64.not_le.mpr hQty⟩
    dsimp only
    rw [appendWithSide, if_neg hArgs, writeAll_eq, RecoveryRecord.length_bytes]
    rw [decide_eq_true hWrites.1, hWrites.2]
    refine ⟨rfl, fun other hOther => ?_⟩
    cases hOther
    exact hLedger

theorem applyExecutionReport_of_matches {report : ExecutionReport} (h : g.Matches symbol report slot)
    (hLogged : (g.logFill env symbol report slot).1 = true) (hApplied : (g.reconciliation.apply report).1 = true) :
    (g.applyExecutionReport env symbol report).1.1 = true := by
  have hChecks : ¬ (report.filledQuantity ≤ 0 ∨ report.filledQuantity > ((g.states symbol).orders slot).qty ∨
      (!g.reconciliation.contains report.orderId) = true) := by
    rw [h.contains, not_or, not_or]
    exact ⟨not_le.mpr h.pos, not_lt.mpr h.le, Bool.false_ne_true⟩
  rw [logFill] at hLogged
  rw [applyExecutionReport, if_neg (not_le.mpr h.symbol_lt), h.found]
  dsimp only
  rw [if_neg hChecks, hLogged, if_neg (by simp), reconciliation_appendRecovery, hApplied, if_neg (by simp)]

theorem applyCancelReport_of_open (h : g.Open symbol orderId slot) (hContains : g.reconciliation.contains orderId = true)
    (hLogged : (g.logCancel env symbol slot).1 = true) : (g.applyCancelReport env symbol orderId).1 = true := by
  obtain ⟨_, cell, hFind⟩ := contains_iff.mp hContains
  obtain ⟨entries, _, hCancel⟩ := cancel_of_some hFind
  have hCancelled : (g.reconciliation.cancel orderId).1 = true := by rw [hCancel]
  rw [logCancel, cancelEvent] at hLogged
  rw [applyCancelReport, if_neg (not_le.mpr h.symbol_lt), h.found]
  dsimp only at hLogged ⊢
  rw [if_neg h.not_done, hContains, if_neg (by simp), hLogged, if_neg (by simp), reconciliation_appendRecovery,
    hCancelled, if_neg (by simp)]

variable {g' : ExecutionGateway}

theorem orders_of_accounts {account : Account}
    (h : g'.accounts = update g.accounts symbol account) : (g'.states symbol).orders = account.orders := by
  have hAt := congrArg Account.orders (congrFun h symbol)
  rw [update_self] at hAt
  exact hAt

/-! ## The acknowledgement -/

def acknowledge (env : GatewayEnv) (intent : OrderReplaceIntent) (g : ExecutionGateway) :
    (Bool × Nat) × ExecutionGateway :=
  Ouch.consume (Ouch.replacedFrame intent.replacementOrderId.toUInt64 intent.newQty.toInt.toNat
    intent.newPrice.toInt.toNat) intent.symbolIdx env g

/-- The order of the slot is amended by the acknowledgement, and reports under the new token are applied to it. -/
structure Reached (g : ExecutionGateway) (intent : OrderReplaceIntent) (slot : Nat) : Prop where
  acknowledged : ∀ env : GatewayEnv, env.Writes → (acknowledge env intent g).1.1 = true ∧
    ((acknowledge env intent g).2.states intent.symbolIdx).orders slot =
      { (g.states intent.symbolIdx).orders slot with qty := intent.newQty.toInt, price := intent.newPrice.toInt }
  executed : ∀ env env' : GatewayEnv, env.Writes → env'.Writes → ∀ qty : Nat, 0 < qty → qty ≤ intent.newQty.toInt →
    let report := Ouch.consume (Ouch.executedFrame intent.replacementOrderId.toUInt64 qty) intent.symbolIdx env'
      (acknowledge env intent g).2
    report.1.1 = true ∧ ((report.2.states intent.symbolIdx).orders slot).qty = intent.newQty.toInt - qty ∧
      ((report.2.states intent.symbolIdx).orders slot).filledQty =
        ((g.states intent.symbolIdx).orders slot).filledQty + qty
  canceled : ∀ env env' : GatewayEnv, env.Writes → env'.Writes →
    let report := Ouch.consume (Ouch.canceledFrame intent.replacementOrderId.toUInt64) intent.symbolIdx env'
      (acknowledge env intent g).2
    report.1.1 = true ∧ (report.2.states intent.symbolIdx).orders slot = {}

/-- The replacement keeps its token, the log is open, and no terminal order of the token stands before the live one. -/
structure KeepsToken (g : ExecutionGateway) (intent : OrderReplaceIntent) (slot : Nat) : Prop where
  token : intent.replacementOrderId = intent.originalOrderId
  first : (g.states intent.symbolIdx).findOrder intent.originalOrderId.toUInt64 = some slot
  log : g.LogOpen

variable {intent : OrderReplaceIntent}

theorem ofNat_toNat_of_pos {v : Int64} (h : 0 < v.toInt) : Int64.ofNat v.toInt.toNat = v := by
  have hLt := v.toInt_lt
  apply toInt_inj.mp
  rw [toInt_ofNat_of_lt (by omega)]
  omega

theorem Replacement.accounts_of_true {newQty newPrice : Int64} {result : Bool × ExecutionGateway}
    (h : Replacement g env symbol orderId newQty newPrice result) (hOk : result.1 = true)
    (hFound : (g.states symbol).findLive orderId = some slot) :
    g.Amends symbol orderId newQty newPrice slot ∧
    (result.2.states symbol).orders = update (g.states symbol).orders slot
      { (g.states symbol).orders slot with qty := newQty.toInt, price := newPrice.toInt } ∧
    result.2.reconciliation = (g.reconciliation.replace orderId newQty.toInt).2 ∧
    (g.logReplace env symbol slot newQty newPrice).1 = true ∧
    result.2.recovery = (g.logReplace env symbol slot newQty newPrice).2.recovery := by
  cases h with
  | refused => cases hOk
  | replaced replaced =>
    cases hFound.symm.trans replaced.amends.found
    exact ⟨replaced.amends, orders_of_accounts replaced.accounts, replaced.reconciliation, replaced.log.result,
      replaced.log.recovery⟩

theorem Replaces.pos (h : g.Replaces intent) : 0 < intent.newQty.toInt ∧ 0 < intent.newPrice.toInt := by
  obtain ⟨test, hQty, hPrice, hPass⟩ := h.passed
  have hPassed := PreTradeRisk.passed_of_evaluate hPass
  rw [← hQty, ← hPrice]
  exact ⟨hPassed.qty_pos, hPassed.price_pos⟩

theorem acknowledge_eq (hReplaces : g.Replaces intent) (hId : intent.replacementOrderId.toUInt64 ≠ 0) :
    acknowledge env intent g =
      (((g.applyReplaceReport env intent.symbolIdx intent.replacementOrderId.toUInt64 intent.newQty intent.newPrice).1,
          19),
        (g.applyReplaceReport env intent.symbolIdx intent.replacementOrderId.toUInt64 intent.newQty
          intent.newPrice).2) := by
  obtain ⟨hQty, hPrice⟩ := hReplaces.pos
  obtain ⟨⟨_, hQtyLe⟩, _, hPriceLe⟩ := hReplaces.fits
  rw [acknowledge, consume_replacedFrame hId ⟨by omega, by omega⟩ ⟨by omega, by omega⟩, ofNat_toNat_of_pos hQty,
    ofNat_toNat_of_pos hPrice]

theorem id_ne_zero_of_acknowledge (h : (acknowledge env intent g).1.1 = true) :
    intent.replacementOrderId.toUInt64 ≠ 0 := by
  intro hZero
  rw [acknowledge, consume, replacedFrame,
    parse_frame _ _ (by rw [length_append, length_toBytesBe, length_toBytesBe]), if_pos hZero] at h
  cases h

theorem findOrder_amended {st st' : SymbolExecState} {newQty newPrice : Int} {orderId : UInt64}
    (h : st'.orders = update st.orders slot { st.orders slot with qty := newQty, price := newPrice }) :
    st'.findOrder orderId = st.findOrder orderId := by
  rw [findOrder]
  congr 1
  funext i
  rw [h]
  rcases eq_or_ne i slot with rfl | hne
  · rw [update_self]
  · rw [update_of_ne hne]

theorem LogOpen.congr (h : g.LogOpen) (hRecovery : g'.recovery = g.recovery) : g'.LogOpen := by
  intro ledger hLedger
  rw [hRecovery] at hLedger
  exact h _ hLedger

structure Acknowledged (g : ExecutionGateway) (intent : OrderReplaceIntent) (slot : Nat) (g' : ExecutionGateway) :
    Prop where
  orders : (g'.states intent.symbolIdx).orders = update (g.states intent.symbolIdx).orders slot
    { (g.states intent.symbolIdx).orders slot with qty := intent.newQty.toInt, price := intent.newPrice.toInt }
  first : (g'.states intent.symbolIdx).findOrder intent.originalOrderId.toUInt64 = some slot
  entry : ∃ cell, g'.reconciliation.find intent.originalOrderId.toUInt64 = some cell ∧
    (g'.reconciliation.entries cell).remaining = intent.newQty.toInt
  log : g'.LogOpen

section

variable (hReplaces : g.Replaces intent)
    (hFound : (g.states intent.symbolIdx).findLive intent.originalOrderId.toUInt64 = some slot)
include hReplaces hFound

theorem keepsToken_of_reached (h : g.Reached intent slot) : g.KeepsToken intent slot := by
  obtain ⟨hAck, hAmended⟩ := h.acknowledged {} writes_default
  obtain ⟨hCancel, hEmpty⟩ := h.canceled {} {} writes_default writes_default
  have hId := id_ne_zero_of_acknowledge hAck
  obtain ⟨_, hOrderId, hLive⟩ := findLive_spec hFound
  rw [consume_canceledFrame hId] at hCancel hEmpty
  have hSpec := applyCancelReport_spec (acknowledge {} intent g).2 {} intent.symbolIdx
    intent.replacementOrderId.toUInt64
  generalize applyCancelReport (acknowledge {} intent g).2 {} intent.symbolIdx
    intent.replacementOrderId.toUInt64 = result at hSpec hCancel hEmpty
  cases hSpec with
  | refused => cases hCancel
  | @cancelled _ reached drops =>
    obtain ⟨opened, accounts, _, _⟩ := drops
    have hReached : reached = slot := by
      by_contra hne
      rw [orders_of_accounts accounts, drop_orders, update_of_ne (Ne.symm hne), accounts_orders, hAmended] at hEmpty
      have hState := congrArg ActiveOrder.isLive hEmpty
      cases hState.symm.trans hLive
    subst hReached
    have hToken : intent.replacementOrderId = intent.originalOrderId := by
      have hAt := (findOrder_spec opened.found).2.1
      rw [hAmended] at hAt
      exact UInt32.toUInt64_inj.mp (hAt.symm.trans hOrderId)
    rw [acknowledge_eq hReplaces hId, hToken] at hAck
    obtain ⟨_, hOrders, _, hLogged, _⟩ := (applyReplaceReport_spec g {} _ _ _ _).accounts_of_true hAck hFound
    have hFirst := opened.found
    rw [acknowledge_eq hReplaces hId, hToken, findOrder_amended hOrders] at hFirst
    exact ⟨hToken, hFirst, logOpen_of_appendRecovery hLogged⟩

theorem acknowledged_of_keepsToken (hKeeps : g.KeepsToken intent slot) (hWrites : env.Writes) :
    (acknowledge env intent g).1.1 = true ∧ Acknowledged g intent slot (acknowledge env intent g).2 := by
  obtain ⟨hQty, hPrice⟩ := hReplaces.pos
  obtain ⟨hId, cell, hFind⟩ := contains_iff.mp hReplaces.contains
  obtain ⟨_, hOrderId, _⟩ := findLive_spec hFound
  have hAmends : g.Amends intent.symbolIdx intent.originalOrderId.toUInt64 intent.newQty intent.newPrice slot :=
    ⟨hReplaces.symbol_lt, hFound, hReplaces.contains, hQty, hPrice⟩
  have hEventQty : ofInt intent.newQty.toInt = intent.newQty := ofInt_toInt _
  obtain ⟨hLogged, hOpen⟩ : (g.logReplace env _ slot _ intent.newPrice).1 = true ∧
      (g.logReplace env _ slot _ _).2.LogOpen := by
    refine appendRecovery_of_open hKeeps.log hWrites ?_ ?_
    · rwa [orderEvent, hOrderId]
    · rw [orderEvent, hEventQty]
      exact lt_iff_toInt_lt.mpr hQty
  have hOk := applyReplaceReport_of_amends hAmends hLogged
  obtain ⟨_, hOrders, hLedger, _, hRecovery⟩ := (applyReplaceReport_spec g env _ _ _ _).accounts_of_true hOk hFound
  rw [replace_of_some hId hQty hFind] at hLedger
  rw [acknowledge_eq hReplaces (by rwa [hKeeps.token]), hKeeps.token]
  refine ⟨hOk, hOrders, ?_, ⟨cell, ?_, ?_⟩, hOpen.congr hRecovery⟩
  · rw [findOrder_amended hOrders, hKeeps.first]
  · rw [hLedger, ← hFind, ReconciliationLedger.find]
    congr 1
    funext i
    rw [setEntry, setEntries]
    dsimp only
    rcases eq_or_ne i cell with rfl | hne
    · rw [update_self, ((layout _).find_lt hFind).2]
    · rw [update_of_ne hne]
  · rw [hLedger]
    exact congrArg _ (update_self cell _ g.reconciliation.entries)

end

namespace Acknowledged

variable {g' : ExecutionGateway} (h : Acknowledged g intent slot g')
include h

theorem order : (g'.states intent.symbolIdx).orders slot =
    { (g.states intent.symbolIdx).orders slot with qty := intent.newQty.toInt, price := intent.newPrice.toInt } := by
  rw [h.orders, update_self]

variable (hSymbol : intent.symbolIdx < Config.kSymbols) (hId : intent.originalOrderId.toUInt64 ≠ 0)
include hSymbol hId

theorem executed (hWrites : env.Writes) {qty : Nat} (hPos : 0 < qty)
    (hLe : qty ≤ intent.newQty.toInt) (hFits : qty < 2 ^ 32) :
    let result := g'.applyExecutionReport env intent.symbolIdx ⟨intent.originalOrderId.toUInt64, qty, false⟩
    result.1.1 = true ∧ ((result.2.states intent.symbolIdx).orders slot).qty = intent.newQty.toInt - qty ∧
      ((result.2.states intent.symbolIdx).orders slot).filledQty =
        ((g.states intent.symbolIdx).orders slot).filledQty + qty := by
  obtain ⟨cell, hFind, hRemaining⟩ := h.entry
  have hOrderId := (findOrder_spec h.first).2.1
  have hPosInt : (0 : Int) < qty := Int.natCast_pos.mpr hPos
  have hValue : (ofInt qty).toInt = qty := toInt_ofInt_of_le (by omega) (by omega)
  have hMatches : g'.Matches intent.symbolIdx ⟨intent.originalOrderId.toUInt64, qty, false⟩ slot := by
    refine ⟨hSymbol, h.first, hPosInt, ?_, contains_iff.mpr ⟨hId, cell, hFind⟩⟩
    rw [h.order]
    exact hLe
  have hApplied : (g'.reconciliation.apply ⟨intent.originalOrderId.toUInt64, qty, false⟩).1 = true := by
    rw [apply_of_fits ⟨hId, hFind, hPosInt, hRemaining.symm ▸ hLe⟩]
    split_ifs <;> rfl
  have hLogged : (g'.logFill env intent.symbolIdx ⟨intent.originalOrderId.toUInt64, qty, false⟩ slot).1 = true := by
    refine (appendRecovery_of_open h.log hWrites ?_ ?_).1
    · rwa [fillEvent, orderEvent, hOrderId]
    · rw [fillEvent, orderEvent, lt_iff_toInt_lt, hValue]
      exact hPosInt
  have hOk := applyExecutionReport_of_matches hMatches hLogged hApplied
  have hSpec := applyExecutionReport_spec g' env intent.symbolIdx ⟨intent.originalOrderId.toUInt64, qty, false⟩
  intro result
  change Execution g' env intent.symbolIdx _ result at hSpec
  change result.1.1 = true at hOk
  generalize result = result at hSpec hOk
  cases hSpec with
  | refused | unapplied => cases hOk
  | filled fills =>
    cases h.first.symm.trans fills.matched.found
    refine ⟨rfl, ?_⟩
    rw [orders_of_accounts fills.accounts]
    split_ifs
    · rw [finish_orders, update_self, filledOrder, accounts_orders, h.order]
      exact ⟨rfl, rfl⟩
    · rw [fill, setOrder_orders, update_self, filledOrder, accounts_orders, h.order]
      exact ⟨rfl, rfl⟩

theorem canceled (hLive : ((g.states intent.symbolIdx).orders slot).isLive = true)
    (hQty : 0 < intent.newQty.toInt) (hWrites : env.Writes) :
    (g'.applyCancelReport env intent.symbolIdx intent.originalOrderId.toUInt64).1 = true ∧
      ((g'.applyCancelReport env intent.symbolIdx intent.originalOrderId.toUInt64).2.states
        intent.symbolIdx).orders slot = {} := by
  obtain ⟨cell, hFind, _⟩ := h.entry
  have hOrderId := (findOrder_spec h.first).2.1
  have hContains := contains_iff.mpr ⟨hId, cell, hFind⟩
  have hOpen : g'.Open intent.symbolIdx intent.originalOrderId.toUInt64 slot := by
    refine ⟨hSymbol, h.first, ?_⟩
    rw [h.order]
    exact ActiveOrder.state_ne_done hLive
  have hLogged : (g'.logCancel env intent.symbolIdx slot).1 = true := by
    refine (appendRecovery_of_open h.log hWrites ?_ ?_).1
    · rwa [cancelEvent, orderEvent, hOrderId]
    · rw [cancelEvent, orderEvent, h.order, ofInt_toInt]
      exact lt_iff_toInt_lt.mpr hQty
  have hOk := applyCancelReport_of_open hOpen hContains hLogged
  have hSpec := applyCancelReport_spec g' env intent.symbolIdx intent.originalOrderId.toUInt64
  generalize g'.applyCancelReport env intent.symbolIdx intent.originalOrderId.toUInt64 = result at hSpec hOk
  cases hSpec with
  | refused => cases hOk
  | cancelled drops =>
    cases h.first.symm.trans drops.opened.found
    refine ⟨rfl, ?_⟩
    rw [orders_of_accounts drops.accounts, drop_orders, update_self]

end Acknowledged

theorem reached_of_keepsToken (hReplaces : g.Replaces intent)
    (hFound : (g.states intent.symbolIdx).findLive intent.originalOrderId.toUInt64 = some slot)
    (hKeeps : g.KeepsToken intent slot) : g.Reached intent slot := by
  obtain ⟨hId, _⟩ := contains_iff.mp hReplaces.contains
  obtain ⟨_, _, hLive⟩ := findLive_spec hFound
  have hQtyLe := hReplaces.fits.1.2
  refine ⟨fun env hWrites => ?_, fun env env' hWrites hWrites' qty hPos hLe => ?_, fun env env' hWrites hWrites' => ?_⟩
  · obtain ⟨hOk, hAck⟩ := acknowledged_of_keepsToken hReplaces hFound hKeeps hWrites
    exact ⟨hOk, hAck.order⟩
  · obtain ⟨_, hAck⟩ := acknowledged_of_keepsToken hReplaces hFound hKeeps hWrites
    rw [hKeeps.token, consume_executedFrame hId ⟨hPos, by omega⟩]
    exact hAck.executed hReplaces.symbol_lt hId hWrites' hPos hLe (by omega)
  · obtain ⟨_, hAck⟩ := acknowledged_of_keepsToken hReplaces hFound hKeeps hWrites
    rw [hKeeps.token, consume_canceledFrame hId]
    exact hAck.canceled hReplaces.symbol_lt hId hLive hReplaces.pos.1 hWrites'

/-- **Replaced orders under their new token.** After an accepted replacement, the acknowledgement and the later reports
under the token the venue was asked to use reach the order only if that token is the old one. -/
theorem reached_iff_keepsToken (g : ExecutionGateway) (env : GatewayEnv) (intent : OrderReplaceIntent)
    (packet : OutboundPacket) {slot : Nat} (hAccepted : (g.tryReplace env intent packet).1.1.pass = true)
    (hSlot : (g.states intent.symbolIdx).findLive intent.originalOrderId.toUInt64 = some slot) :
    (g.tryReplace env intent packet).2.Reached intent slot ↔ g.KeepsToken intent slot := by
  obtain ⟨hReplaces, _, hState⟩ := built_of_tryReplace g env _ _ hAccepted
  rw [hState]
  have hAfter : (g.setBreaker (g.breaker.allow intent.nowNs).2).Replaces intent :=
    ⟨hReplaces.symbol_lt, hReplaces.contains, hReplaces.found, hReplaces.passed⟩
  constructor
  · intro hReached
    have hKeeps := keepsToken_of_reached hAfter hSlot hReached
    exact ⟨hKeeps.token, hKeeps.first, hKeeps.log⟩
  · intro hKeeps
    exact reached_of_keepsToken hAfter hSlot ⟨hKeeps.token, hKeeps.first, hKeeps.log⟩

def sameToken : OrderReplaceIntent := { amendment 3 with replacementOrderId := 1 }

theorem sameToken_reached : ((working 3).tryReplace {} sameToken {}).2.Reached sameToken 0 := by
  refine (reached_iff_keepsToken (working 3) {} sameToken {} (by decide +kernel) (by decide +kernel)).mpr
    ⟨rfl, by decide +kernel, fun ledger hLedger => ?_⟩
  cases hLedger

/-- The acknowledgement of an accepted replacement of the order 1 by 2 is refused and halts the symbol; the order stays
as it was. -/
theorem newToken_halts : ((working 3).tryReplace {} (amendment 3) {}).1.1.pass = true ∧
      (acknowledge {} (amendment 3) ((working 3).tryReplace {} (amendment 3) {}).2).1.1 = false ∧
      ((acknowledge {} (amendment 3) ((working 3).tryReplace {} (amendment 3) {}).2).2.states 3).risk.halted = true ∧
      ((acknowledge {} (amendment 3) ((working 3).tryReplace {} (amendment 3) {}).2).2.states 3).orders 0 =
        ((working 3).states 3).orders 0 := by
  decide +kernel

end ExecutionGateway

end LuvFlicker
