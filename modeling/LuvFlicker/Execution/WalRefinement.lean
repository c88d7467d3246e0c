import LuvFlicker.Execution.Accounting
import LuvFlicker.Recovery.Replay

/-!
# The log refines the live orders

With a log attached from the start and all writes succeeding, replaying the log
after any call gives the live orders, as long as no venue reject ends one: that
path changes the orders without a record.
-/

namespace LuvFlicker

open Exec Scan Run Tally RecoveryLedger Function List Config RecoveryRecord ActiveOrder RecoveryEventType Account
open RecoveryRecord (size)

structure OrderView where
  orderId : UInt64
  remaining : Int
  price : Int
  side : UInt8

def ActiveOrder.view (o : ActiveOrder) : OrderView := ⟨o.orderId, o.qty, o.price, o.side⟩

def RecoveredOrder.view (o : RecoveredOrder) : OrderView := ⟨o.orderId, o.remaining.toInt, o.price.toInt, o.side⟩

def ActiveOrder.openView (o : ActiveOrder) : Multiset OrderView := if o.isLive then {o.view} else 0

variable {o : ActiveOrder}

theorem ActiveOrder.openView_of_live (h : o.isLive = true) : o.openView = {o.view} := if_pos h

theorem ActiveOrder.openView_of_not_live (h : o.isLive = false) : o.openView = 0 := by
  rw [openView, h]
  rfl

def Account.views (a : Account) : Multiset OrderView := total kMaxActiveOrders ActiveOrder.openView a.orders

namespace ExecutionGateway

def liveViews (g : ExecutionGateway) : Multiset OrderView := total kSymbols Account.views g.accounts

variable {g g' : ExecutionGateway} {symbol slot : Nat}

theorem mem_liveViews {v : OrderView} : v ∈ g.liveViews ↔ ∃ symbol < kSymbols, ∃ i < kMaxActiveOrders,
    ((g.states symbol).orders i).isLive = true ∧ ((g.states symbol).orders i).view = v := by
  have hOpen : ∀ o : ActiveOrder, v ∈ o.openView ↔ o.isLive = true ∧ o.view = v := by
    intro o
    unfold openView
    split_ifs with hLive
    · simp [hLive, eq_comm]
    · simp [hLive]
  simp only [liveViews, views, total, Multiset.mem_sum, Finset.mem_range, hOpen]
  rfl

variable {account : Account}

theorem liveViews_write {order : ActiveOrder} (hSymbol : symbol < kSymbols)
    (hSlot : slot < kMaxActiveOrders) (hAccounts : g'.accounts = update g.accounts symbol account)
    (hOrders : account.orders = update (g.accounts symbol).orders slot order) :
    g'.liveViews + ((g.accounts symbol).orders slot).openView = g.liveViews + order.openView := by
  have hOuter : total kSymbols views (update g.accounts symbol account) +
      (g.accounts symbol).views = total kSymbols views g.accounts + account.views :=
    total_update_add hSymbol
  have hInner : total kMaxActiveOrders openView
        (update (g.accounts symbol).orders slot order) + ((g.accounts symbol).orders slot).openView =
      (g.accounts symbol).views + order.openView := total_update_add hSlot
  rw [← hAccounts] at hOuter
  rw [← hOrders] at hInner
  refine add_right_cancel (b := (g.accounts symbol).views) ?_
  calc g'.liveViews + ((g.accounts symbol).orders slot).openView + (g.accounts symbol).views
      = total kSymbols views g'.accounts + (g.accounts symbol).views +
          ((g.accounts symbol).orders slot).openView := add_right_comm ..
    _ = g.liveViews + account.views + ((g.accounts symbol).orders slot).openView := by rw [hOuter, liveViews]
    _ = g.liveViews + ((g.accounts symbol).views + order.openView) := by rw [add_assoc, ← hInner, views]
    _ = g.liveViews + order.openView + (g.accounts symbol).views := by rw [add_comm (g.accounts symbol).views, add_assoc]

theorem card_liveViews : Multiset.card g.liveViews = ∑ symbol ∈ Finset.range kSymbols, (g.liveSlots symbol).card := by
  have hOpen : ∀ o : ActiveOrder, Multiset.card o.openView = if o.isLive then 1 else 0 := by
    intro o
    unfold openView
    split_ifs <;> rfl
  simp only [liveViews, views, total, Multiset.card_sum, hOpen, Finset.sum_boole]
  rfl

theorem liveViews_clear (hFree : ((g.accounts symbol).orders slot).isLive = false)
    (hAccounts : g'.accounts = update g.accounts symbol ((g.accounts symbol).setOrder slot {})) :
    g'.liveViews = g.liveViews := by
  have hViews : ((g.accounts symbol).setOrder slot {}).views = (g.accounts symbol).views :=
    total_update_of_eq (openView_of_not_live hFree).symm
  rw [liveViews, hAccounts, total_update_of_eq hViews, liveViews]

attribute [irreducible] liveViews

/-! ## The log after a call -/

def Completes (io : AppendIo) : Prop := progress io.writes size = size ∧ io.synced = true

instance (io : AppendIo) : Decidable (Completes io) := inferInstanceAs (Decidable (_ ∧ _))

variable {l : RecoveryLedger} {capacity : Nat} {output : List RecoveredOrder} {event : RecoveryEvent} {io : AppendIo}

theorem recovery_of_logged (hRecovery : g.recovery = some l) (hOpen : l.isOpen = true) (hIo : Completes io)
    {ok : Bool} (h : Logged g io event ok g') :
    g'.recovery = some (if ok then l.pushed event else l) := by
  have hStray : stray ⟨event, io⟩ = 0 := (stray_eq_zero_iff _).mpr (.inr (.inr (.inr hIo)))
  have hResult := h.result
  rw [h.recovery]
  simp only [appendRecovery, hRecovery] at hResult ⊢
  rcases appendStep_cases ⟨event, io⟩ hOpen with ⟨written, hStep, hLength⟩ | ⟨hStep, _⟩
  · have hNone : written = [] := length_eq_zero_iff.mp (hLength.trans hStray)
    rw [appendStep] at hStep
    rw [hStep] at hResult ⊢
    rw [← hResult, hNone, append_nil]
    rfl
  · rw [appendStep] at hStep
    rw [hStep] at hResult ⊢
    rw [← hResult]
    rfl

structure Recovers (l : RecoveryLedger) (capacity : Nat) (g : ExecutionGateway) (output : List RecoveredOrder) :
    Prop where
  replay : l.replay capacity = some output
  views : ↑(output.map RecoveredOrder.view) = g.liveViews
  nodup : (output.map RecoveredOrder.orderId).Nodup

structure Mirrored (capacity : Nat) (g : ExecutionGateway) : Prop where
  sound : g.Sound
  log : ∃ l output, g.recovery = some l ∧ InStep l ∧ Recovers l capacity g output
  fits : ∀ symbol i, ((g.accounts symbol).orders i).isLive = true →
    ∃ qty price : Int64, ((g.accounts symbol).orders i).qty = qty.toInt ∧
      ((g.accounts symbol).orders i).price = price.toInt

theorem Recovers.exists_order
    (h : Recovers l capacity g output) (hSymbol : symbol < kSymbols) (hSlot : slot < kMaxActiveOrders)
    (hLive : ((g.accounts symbol).orders slot).isLive = true) :
    ∃ order ∈ output, order.view = ((g.accounts symbol).orders slot).view := by
  have hMem := mem_liveViews.mpr ⟨_, hSymbol, slot, hSlot, hLive, rfl⟩
  rw [← h.views] at hMem
  exact mem_map.mp hMem

theorem Recovers.not_mem_ids (hSound : g.Sound)
    (h : Recovers l capacity g output) {id : UInt64} (hId : ¬ g.reconciliation.Stores id) :
    id ∉ output.map RecoveredOrder.orderId := by
  intro hMem
  obtain ⟨order, hOrder, rfl⟩ := mem_map.mp hMem
  have hView : order.view ∈ g.liveViews := by
    rw [← h.views]
    exact mem_map_of_mem hOrder
  obtain ⟨s, _, i, _, hLive, hSame⟩ := mem_liveViews.mp hView
  exact hSound.id_ne_of_not_stores hId hLive (congrArg OrderView.orderId hSame)

theorem Recovers.push {output' : List RecoveredOrder}
    (h : Recovers l capacity g output) (hStep : InStep l) (hCapacity : 0 < capacity)
    (hApply : RecoveryLedger.apply (ofEvent l.sequence event) capacity output = some output')
    (hViews : ↑(output'.map RecoveredOrder.view) = g'.liveViews)
    (hNodup : (output'.map RecoveredOrder.orderId).Nodup) : Recovers (l.pushed event) capacity g' output' := by
  refine ⟨?_, hViews, hNodup⟩
  rw [hStep.replay_pushed hCapacity, h.replay]
  exact hApply

/-! ## One call -/

section Numbers

theorem toInt_ofInt_of_le_toInt {x : Int} {q : Int64} (hPos : 0 < x) (hLe : x ≤ q.toInt) :
    (Int64.ofInt x).toInt = x := by
  have hMax := q.toInt_lt
  refine Int64.toInt_ofInt_of_le ?_ ?_ <;> omega

theorem toInt_sub_of_le {x y : Int64} (hPos : 0 ≤ y.toInt) (hLe : y.toInt ≤ x.toInt) :
    (x - y).toInt = x.toInt - y.toInt := by
  have hMax := x.toInt_lt
  rw [Int64.toInt_sub]
  refine Int.bmod_eq_of_le ?_ ?_ <;> omega

end Numbers

variable {order : RecoveredOrder}

theorem fields_of_view (h : order.view = o.view) :
    order.orderId = o.orderId ∧ order.remaining.toInt = o.qty ∧ order.price.toInt = o.price ∧ order.side = o.side := by
  simpa only [RecoveredOrder.view, view, OrderView.mk.injEq] using h

theorem fillRecord_spec {sequence : UInt64} {o : ActiveOrder} (report : ExecutionReport) (timestampNs : UInt64) :
    (ofEvent sequence (fillEvent o report timestampNs)).orderId = o.orderId ∧
    (ofEvent sequence (fillEvent o report timestampNs)).quantity = .ofInt report.filledQuantity ∧
    (ofEvent sequence (fillEvent o report timestampNs)).type =
      if report.terminal ∧ o.qty - report.filledQuantity > 0 then kTerminalFill.code
      else kFill.code := by
  refine ⟨rfl, rfl, ?_⟩
  simp [ofEvent, fillEvent, orderEvent, apply_ite code]

structure Durable (capacity : Nat) (call : GatewayCall) (g : ExecutionGateway) : Prop where
  lost : NoLostId call g
  terminal : NoTerminalFill call g
  side : ∀ intent packet, call.op = .tryBuild intent packet → ((step call g).1.acceptedId call).isSome = true →
    intent.side &&& 1 = intent.side
  reject : ∀ symbol orderId slot, call.op = .rejectReport symbol orderId → ¬ g.Open symbol orderId slot
  io : Completes call.env.io
  room : ∑ symbol ∈ Finset.range kSymbols, ((step call g).2.liveSlots symbol).card ≤ capacity

variable {call : GatewayCall} {capacity : Nat} {l : RecoveryLedger} {output : List RecoveredOrder}

theorem fits_write {order : ActiveOrder} (h : ∀ s i, ((g.accounts s).orders i).isLive = true → ∃ qty price : Int64,
      ((g.accounts s).orders i).qty = qty.toInt ∧ ((g.accounts s).orders i).price = price.toInt)
    (hAccounts : g'.accounts = update g.accounts symbol account)
    (hOrders : account.orders = update (g.accounts symbol).orders slot order)
    (hOrder : order.isLive = true → ∃ qty price : Int64, order.qty = qty.toInt ∧ order.price = price.toInt) (s i : Nat)
    (hLive : ((g'.accounts s).orders i).isLive = true) : ∃ qty price : Int64,
      ((g'.accounts s).orders i).qty = qty.toInt ∧ ((g'.accounts s).orders i).price = price.toInt := by
  rw [hAccounts] at hLive ⊢
  rcases orders_update (f := g.accounts) hOrders s i with ⟨_, hNew⟩ | ⟨_, hOld⟩
  · rw [hNew] at hLive ⊢
    exact hOrder hLive
  · rw [hOld] at hLive ⊢
    exact h s i hLive

theorem Recovers.exchange (h : Recovers l capacity g output) (hStep : InStep l) (hCapacity : 0 < capacity)
    {old new : ActiveOrder} {output' rest : List RecoveredOrder}
    (added : List RecoveredOrder)
    (hApply : RecoveryLedger.apply (ofEvent l.sequence event) capacity output = some output')
    (hOld : output.Perm (order :: rest)) (hNew : output'.Perm (added ++ rest)) (hOrder : old.openView = {order.view})
    (hAdded : new.openView = ↑(added.map RecoveredOrder.view))
    (hIds : (added.map RecoveredOrder.orderId).Sublist [order.orderId])
    (hWrite : g'.liveViews + old.openView = g.liveViews + new.openView) :
    Recovers (l.pushed event) capacity g' output' := by
  refine h.push hStep hCapacity hApply ?_ ?_
  · refine add_right_cancel (b := old.openView) ?_
    rw [hWrite, ← h.views, hOrder, hAdded, Multiset.coe_eq_coe.mpr (hOld.map _), Multiset.coe_eq_coe.mpr (hNew.map _),
      map_append, map_cons, ← Multiset.coe_add, ← Multiset.cons_coe, ← Multiset.singleton_add]
    abel
  · have hIdsOld := (hOld.map _).nodup_iff.mp h.nodup
    refine (hNew.map _).nodup_iff.mpr (hIdsOld.sublist ?_)
    rw [map_append]
    exact hIds.append_right _

section Live

variable (h : Recovers l capacity g output) (hStep : InStep l) (hCapacity : 0 < capacity)
  (hSymbol : symbol < kSymbols) (hSlot : slot < kMaxActiveOrders)
  (hLive : ((g.accounts symbol).orders slot).isLive = true)

include h hStep hCapacity hSymbol hSlot hLive

variable (timestampNs : UInt64)

theorem Recovers.drop (hAccounts : g'.accounts = update g.accounts symbol ((g.accounts symbol).drop slot)) :
    ∃ output', Recovers (l.pushed (orderEvent .kCancel ((g.accounts symbol).orders slot)
      ((g.accounts symbol).orders slot).qty ((g.accounts symbol).orders slot).price timestampNs)) capacity g' output' := by
  obtain ⟨order, hMem, hView⟩ := h.exists_order hSymbol hSlot hLive
  generalize hEvent : orderEvent .kCancel ((g.accounts symbol).orders slot) ((g.accounts symbol).orders slot).qty
    ((g.accounts symbol).orders slot).price timestampNs = event
  have hId : order.orderId = (ofEvent l.sequence event).orderId := by
    rw [← hEvent]
    exact congrArg OrderView.orderId hView
  have hType : (ofEvent l.sequence event).type = kCancel.code := by
    rw [← hEvent]
    rfl
  obtain ⟨output', _, hApply, hOld, hNew⟩ := apply_cancel h.nodup hMem hId hType
  refine ⟨_, h.exchange hStep hCapacity [] hApply hOld hNew ?_ rfl (nil_sublist _)
    (liveViews_write hSymbol hSlot hAccounts rfl)⟩
  rw [openView_of_live hLive, hView]

theorem Recovers.amend {newQty newPrice : Int64} (hQty : 0 < newQty.toInt)
    (hPrice : 0 < newPrice.toInt) (hAccounts : g'.accounts = update g.accounts symbol
      ((g.accounts symbol).amend slot newQty.toInt newPrice.toInt)) :
    ∃ output', Recovers (l.pushed (orderEvent .kReplace ((g.accounts symbol).orders slot) newQty.toInt newPrice.toInt
      timestampNs)) capacity g' output' := by
  obtain ⟨order, hMem, hView⟩ := h.exists_order hSymbol hSlot hLive
  generalize hEvent : orderEvent .kReplace ((g.accounts symbol).orders slot) newQty.toInt newPrice.toInt timestampNs =
    event
  have hId : order.orderId = (ofEvent l.sequence event).orderId := by
    rw [← hEvent]
    exact congrArg OrderView.orderId hView
  have hType : (ofEvent l.sequence event).type = kReplace.code := by
    rw [← hEvent]
    rfl
  have hQty' : (ofEvent l.sequence event).quantity = newQty := by
    rw [← hEvent]
    exact Int64.ofInt_toInt _
  have hPrice' : (ofEvent l.sequence event).price = newPrice := by
    rw [← hEvent]
    exact Int64.ofInt_toInt _
  obtain ⟨output', _, hApply, hOld, hNew⟩ := apply_replace h.nodup hMem hId hType
    (by rw [hQty']; exact Int64.lt_iff_toInt_lt.mpr hQty) (by rw [hPrice']; exact Int64.lt_iff_toInt_lt.mpr hPrice)
  rw [hQty', hPrice'] at hNew
  refine ⟨_, h.exchange hStep hCapacity [_] hApply hOld hNew ?_ ?_ (List.Sublist.refl _)
    (liveViews_write hSymbol hSlot hAccounts rfl)⟩
  · rw [openView_of_live hLive, hView]
  obtain ⟨hSameId, _, _, hSide⟩ := fields_of_view hView
  rw [openView_of_live (by exact hLive)]
  simp [view, RecoveredOrder.view, hSameId, hSide]

theorem Recovers.fill {report : ExecutionReport} {qty : Int64}
    (hQty : ((g.accounts symbol).orders slot).qty = qty.toInt) (hPos : 0 < report.filledQuantity)
    (hLe : report.filledQuantity ≤ ((g.accounts symbol).orders slot).qty)
    (hAccounts : g'.accounts = update g.accounts symbol
      (if g.Finishes symbol report slot then (g.accounts symbol).finish slot report.filledQuantity
        else (g.accounts symbol).fill slot report.filledQuantity)) :
    ∃ output', Recovers (l.pushed (fillEvent ((g.accounts symbol).orders slot) report timestampNs)) capacity g'
      output' := by
  obtain ⟨order, hMem, hView⟩ := h.exists_order hSymbol hSlot hLive
  obtain ⟨hSameId, hRemaining, hPrice, hSide⟩ := fields_of_view hView
  have hOldView : ((g.accounts symbol).orders slot).openView = {order.view} := by rw [openView_of_live hLive, hView]
  obtain ⟨hId, hQuantity, hType⟩ := fillRecord_spec report _
  generalize fillEvent ((g.accounts symbol).orders slot) report timestampNs = event at hId hQuantity hType ⊢
  generalize hRecord : ofEvent l.sequence event = record at hId hQuantity hType
  have hFilled : record.quantity.toInt = report.filledQuantity := by
    rw [hQuantity]
    exact toInt_ofInt_of_le_toInt hPos (hLe.trans_eq hQty)
  have hFits : record.quantity ≤ order.remaining := by
    rw [Int64.le_iff_toInt_le, hFilled, hRemaining]
    exact hLe
  have hRest : (order.remaining - record.quantity).toInt =
      ((g.accounts symbol).orders slot).qty - report.filledQuantity := by
    rw [toInt_sub_of_le (by omega) (Int64.le_iff_toInt_le.mp hFits), hFilled, hRemaining]
  split_ifs at hType with hTerminal
  · -- a terminal report with a rest is logged as such and retires the order
    rw [if_pos (by exact .inl hTerminal.1)] at hAccounts
    obtain ⟨output', rest, hApply, hOld, hNew⟩ := apply_terminalFill h.nodup hMem (hSameId.trans hId.symm) hType
      (Int64.lt_iff_toInt_lt.mpr (by rw [hFilled]; exact hPos)) hFits
    rw [← hRecord] at hApply
    exact ⟨_, h.exchange hStep hCapacity [] hApply hOld hNew hOldView rfl (nil_sublist _)
      (liveViews_write hSymbol hSlot hAccounts rfl)⟩
  · obtain ⟨output', rest, hApply, hOld, hNew⟩ := apply_fill h.nodup hMem (hSameId.trans hId.symm) hType hFits
    rw [← hRecord] at hApply
    have hDone : order.remaining - record.quantity = 0 ↔ g.Finishes symbol report slot := by
      rw [← Int64.toInt_inj, hRest, Int64.toInt_zero]
      constructor
      · exact .inr
      rintro (hFlag | hZero)
      · have hNone := not_and.mp hTerminal hFlag
        omega
      · exact hZero
    simp only [hDone] at hNew
    split_ifs at hAccounts hNew with hFinish
    · exact ⟨_, h.exchange hStep hCapacity [] hApply hOld hNew hOldView rfl (nil_sublist _)
        (liveViews_write hSymbol hSlot hAccounts rfl)⟩
    refine ⟨output', h.exchange hStep hCapacity [_] hApply hOld hNew hOldView ?_ (List.Sublist.refl _)
      (liveViews_write hSymbol hSlot hAccounts rfl)⟩
    rw [openView_of_live (by rfl)]
    simp [view, RecoveredOrder.view, filledOrder, hSameId, hRest, hPrice, hSide]

end Live

theorem Recovers.enter (h : Recovers l capacity g output) (hStep : InStep l) (hSound : g.Sound) {intent : OrderIntent}
    (hSymbol : intent.symbolIdx < kSymbols) (hSlot : slot < kMaxActiveOrders)
    (hFree : ((g.accounts intent.symbolIdx).orders slot).isLive = false)
    (hFresh : ¬ g.reconciliation.Stores intent.clientOrderId.toUInt64) (hSide : intent.side &&& 1 = intent.side)
    (hAccounts : g'.accounts = update g.accounts intent.symbolIdx ((g.accounts intent.symbolIdx).enter slot intent))
    (hRoom : Multiset.card g'.liveViews ≤ capacity) :
    ∃ output', Recovers (l.pushed (addEvent intent)) capacity g' output' := by
  have hViews : g'.liveViews = g.liveViews + {intent.order.view} := by
    have hWrite := liveViews_write hSymbol hSlot hAccounts rfl
    rw [openView_of_not_live hFree, add_zero] at hWrite
    exact hWrite
  have hLength : output.length = Multiset.card g.liveViews := by rw [← h.views, Multiset.coe_card, length_map]
  have hLess : output.length < capacity := by
    rw [hViews, Multiset.card_add, Multiset.card_singleton] at hRoom
    omega
  have hIds := h.not_mem_ids hSound hFresh
  refine ⟨_, h.push hStep (by omega) (apply_add rfl hIds hLess) ?_ ?_⟩
  · rw [map_append, ← Multiset.coe_add, h.views, hViews]
    refine congrArg _ ?_
    simp [RecoveredOrder.view, view, OrderIntent.order, ofEvent, addEvent, hSide]
  rw [map_append]
  refine nodup_append.mpr ⟨h.nodup, nodup_singleton _, ?_⟩
  rintro _ hId _ hNew rfl
  rw [mem_singleton.mp hNew] at hId
  exact hIds hId

theorem recovery_of_quiet (hRecovery : g.recovery = some l) (hOpen : l.isOpen = true)
    (hIo : Completes io) (h : Unlogged g io g') : g'.recovery = some l := by
  rcases h with hSame | ⟨event, hLogged⟩
  · exact hSame.trans hRecovery
  · exact recovery_of_logged hRecovery hOpen hIo hLogged

theorem Mirrored.step (h : Mirrored capacity g) (hCapacity : 0 < capacity) (hDurable : Durable capacity call g) :
    Mirrored capacity (ExecutionGateway.step call g).2 := by
  have hSound := h.sound.step hDurable.lost hDurable.terminal
  have hMove := h.sound.move hDurable.lost hDurable.terminal
  have hRoom := hDurable.room
  have hIo := hDurable.io
  have hSide := hDurable.side
  obtain ⟨l, _, hRecovery, hStep, hRecovers⟩ := h.log
  rw [← card_liveViews] at hRoom
  generalize ExecutionGateway.step call g = result at hMove hSound hRoom hSide
  cases hMove with
  | idle _ accounts _ _ log =>
    refine ⟨hSound, ⟨l, _, recovery_of_quiet hRecovery hStep.isOpen hIo log, hStep, hRecovers.replay, ?_,
      hRecovers.nodup⟩, ?_⟩
    · rw [hRecovers.views, liveViews, liveViews, accounts]
    · rw [accounts]
      exact h.fits
  | cleared _ _ free accounts _ _ log =>
    refine ⟨hSound, ⟨l, _, recovery_of_quiet hRecovery hStep.isOpen hIo log, hStep, hRecovers.replay, ?_,
      hRecovers.nodup⟩, fits_write h.fits accounts rfl fun hLive => absurd hLive Bool.false_ne_true⟩
    rw [hRecovers.views, liveViews_clear free accounts]
  | admitted op accepted _ admits fresh =>
    obtain ⟨reserves, accounts, _, _, log⟩ := admits
    obtain ⟨hSlot, hFree, _⟩ := SymbolExecState.findFree_spec reserves.free
    obtain ⟨output', hRecovers'⟩ := hRecovers.enter hStep h.sound reserves.symbol_lt hSlot hFree fresh
      (hSide _ _ op (accepted ▸ rfl)) accounts hRoom
    exact ⟨hSound, ⟨_, _, recovery_of_logged hRecovery hStep.isOpen hIo log, hStep.pushed _, hRecovers'⟩,
      fits_write h.fits accounts rfl fun _ => ⟨_, _, rfl, rfl⟩⟩
  | @filled _ g' symbol report slot op _ _ fills live =>
    obtain ⟨matched, _, accounts, _, _, log⟩ := fills
    obtain ⟨qty, _, hQty, hPrice⟩ := h.fits _ _ live
    obtain ⟨output', hRecovers'⟩ := hRecovers.fill hStep hCapacity matched.symbol_lt matched.order.1 live
      _ hQty matched.pos matched.le accounts
    refine ⟨hSound, ⟨_, _, recovery_of_logged hRecovery hStep.isOpen hIo log, hStep.pushed _, hRecovers'⟩, ?_⟩
    split_ifs at accounts with hFinish
    · exact fits_write h.fits accounts rfl fun hLive => absurd hLive Bool.false_ne_true
    have hPos := matched.pos
    have hLe := matched.le
    have hOpen := (not_or.mp hFinish).2
    have hRest : 0 < ((g.accounts symbol).orders slot).qty - report.filledQuantity := by
      rw [accounts_orders]
      omega
    have hFits : ((g.accounts symbol).orders slot).qty - report.filledQuantity ≤ qty.toInt := by omega
    exact fits_write h.fits accounts rfl fun _ =>
      ⟨_, _, (toInt_ofInt_of_le_toInt hRest hFits).symm, hPrice⟩
  | dropped _ drops _ _ log =>
    obtain ⟨opened, accounts, _, _⟩ := drops
    rcases log with hOp | log
    · exact absurd opened (hDurable.reject _ _ _ hOp)
    obtain ⟨hSlot, _, live⟩ := opened.order
    obtain ⟨output', hRecovers'⟩ := hRecovers.drop hStep hCapacity opened.symbol_lt hSlot live _ accounts
    exact ⟨hSound, ⟨_, _, recovery_of_logged hRecovery hStep.isOpen hIo log, hStep.pushed _, hRecovers'⟩,
      fits_write h.fits accounts rfl fun hLive => absurd hLive Bool.false_ne_true⟩
  | amended op _ replaced =>
    obtain ⟨amends, accounts, _, _, log⟩ := replaced
    obtain ⟨hSlot, _, live⟩ := amends.order
    obtain ⟨output', hRecovers'⟩ := hRecovers.amend hStep hCapacity amends.symbol_lt hSlot live _
      amends.qty_pos amends.price_pos accounts
    exact ⟨hSound, ⟨_, _, recovery_of_logged hRecovery hStep.isOpen hIo log, hStep.pushed _, hRecovers'⟩,
      fits_write h.fits accounts rfl fun _ => ⟨_, _, rfl, rfl⟩⟩

/-- The replay of the log succeeds and returns the live orders, each once. -/
def ReplaysLive (capacity : Nat) (g : ExecutionGateway) : Prop :=
  ∃ l output, g.recovery = some l ∧ l.replay capacity = some output ∧ (output.map RecoveredOrder.orderId).Nodup ∧
    ∀ id remaining price side,
      (∃ o ∈ output, o.orderId = id ∧ o.remaining.toInt = remaining ∧ o.price.toInt = price ∧ o.side = side) ↔
      ∃ symbol < kSymbols, ∃ i < kMaxActiveOrders, ((g.states symbol).orders i).isLive = true ∧
        ((g.states symbol).orders i).orderId = id ∧ ((g.states symbol).orders i).qty = remaining ∧
        ((g.states symbol).orders i).price = price ∧ ((g.states symbol).orders i).side = side

theorem Mirrored.replaysLive (h : Mirrored capacity g) : ReplaysLive capacity g := by
  obtain ⟨l, output, hRecovery, _, hRecovers⟩ := h.log
  refine ⟨l, _, hRecovery, hRecovers.replay, hRecovers.nodup, fun id remaining price side => ?_⟩
  have hMem : (⟨id, remaining, price, side⟩ : OrderView) ∈ output.map RecoveredOrder.view ↔
      (⟨id, remaining, price, side⟩ : OrderView) ∈ g.liveViews := by
    rw [← hRecovers.views, Multiset.mem_coe]
  rw [mem_liveViews, mem_map] at hMem
  simpa only [RecoveredOrder.view, view, OrderView.mk.injEq] using hMem

/-- In every durable run without a venue reject of a live order, replaying the log gives the live orders. -/
theorem run_replaysLive (rateLimit : Nat) (limits : Nat → ValidLimits) (breaker : CircuitBreaker) (capacity : Nat)
    (hCapacity : 0 < capacity) (calls : List GatewayCall)
    (h : Always step (Durable capacity) calls (init rateLimit limits breaker (some (opened [])))) :
    ReplaysLive capacity (final step calls (init rateLimit limits breaker (some (opened [])))) := by
  have hViews : (init rateLimit limits breaker (some (opened []))).liveViews = 0 := by
    rw [liveViews]
    exact total_eq_zero fun _ => total_eq_zero fun _ => rfl
  have hIntact : Intact [] := ⟨rfl, fun _ hIndex => absurd hIndex (Nat.not_lt_zero _)⟩
  have hStart : Mirrored capacity (init rateLimit limits breaker (some (opened []))) :=
    ⟨sound_init .., ⟨_, [], rfl, inStep_opened hIntact, replay_empty hCapacity, hViews.symm, nodup_nil⟩,
      fun _ _ hLive => absurd hLive Bool.false_ne_true⟩
  exact (h.invariant _ (fun _ _ hDurable hMirrored => hMirrored.step hCapacity hDurable) hStart).replaysLive

theorem sum_card_liveSlots_le {g : ExecutionGateway} :
    ∑ symbol ∈ Finset.range kSymbols, (g.liveSlots symbol).card ≤ 32768 := by
  have hSlots : ∀ symbol ∈ Finset.range kSymbols, (g.liveSlots symbol).card ≤ 64 := fun symbol _ =>
    (Finset.card_filter_le ..).trans (Finset.card_range _).le
  exact (Finset.sum_le_card_nsmul _ _ 64 hSlots).trans (by rw [Finset.card_range]; decide)

def loggedStart : ExecutionGateway := init 100 (fun _ => .default) {} (some (opened []))

def loggedCalls : List GatewayCall :=
  [submission kBuy 185 10 true, fillReport 185 4 false, ⟨.replaceReport 0 185 20 101, {}⟩, ⟨.cancelReport 0 185, {}⟩]

theorem run_replaysLive_loggedCalls :
    Always step (Durable 32768) loggedCalls loggedStart ∧ ReplaysLive 32768 (final step loggedCalls loggedStart) := by
  have hRun : Always step (Durable 32768) loggedCalls loggedStart := by
    refine ⟨⟨not_lost_start 185, trivial, ?_, ?_, by decide, sum_card_liveSlots_le⟩,
      ⟨trivial, ?_, ?_, ?_, by decide, sum_card_liveSlots_le⟩,
      ⟨trivial, trivial, ?_, ?_, by decide, sum_card_liveSlots_le⟩,
      ⟨trivial, trivial, ?_, ?_, by decide, sum_card_liveSlots_le⟩, trivial⟩
    case refine_3 =>
      intro slot hMatches hDone
      have hSlot : some slot = some 0 := hMatches.found.symm.trans (by decide +kernel)
      rw [Option.some.inj hSlot] at hDone
      exact absurd hDone (by decide +kernel)
    case refine_1 =>
      rintro _ _ hOp -
      cases hOp
      rfl
    all_goals exact nofun
  exact ⟨hRun, run_replaysLive _ _ _ _ (by decide) _ hRun⟩

/-- The venue rejects a live order: the order is gone, its record is not. -/
theorem rejected_order_replays : ¬ ReplaysLive 32768
    (final step [submission kBuy 185 10 true, ⟨.rejectReport 0 185, {}⟩] loggedStart) := by
  rintro ⟨l, _, hRecovery, hReplay, _, hIff⟩
  have hLog : (final step [submission kBuy 185 10 true, ⟨.rejectReport 0 185, {}⟩] loggedStart).recovery.bind
      (·.replay 32768) = some [⟨185, 10, 100, 0, 0⟩] := by decide +kernel
  rw [hRecovery, Option.bind_some, hReplay] at hLog
  obtain ⟨symbol, _, i, _, hLive, _⟩ :=
    (hIff 185 10 100 0).mp ⟨_, by rw [Option.some.inj hLog]; exact mem_singleton_self _, rfl, rfl, rfl, rfl⟩
  cases symbol with
  | zero =>
    revert i
    decide +kernel
  | succ symbol => exact absurd hLive Bool.false_ne_true

end ExecutionGateway

end LuvFlicker
