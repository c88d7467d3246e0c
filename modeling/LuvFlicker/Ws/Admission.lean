import LuvFlicker.Lib.Tickets
import LuvFlicker.Ws.Threads

/-!
# Admission, reservations and shutdown

The admission words count the callers that hold a lease; the reservations count
the tickets that are out, wherever they are: with a caller, in the queue, in the
worker's hands, in a slot, or in the hands of the owner at shutdown.
-/

namespace LuvFlicker.Ws

open Tally Tickets Function Enqueue Multiset Spsc.Ring Server Ledger Option

universe u

variable {F : Type u} {limits : Limits} {s : Server F}

/-! ## What the threads hold -/

def Enqueue.leases : Enqueue → Nat
  | .idle | .acquiring _ => 0
  | .leased | .reserving _ | .refused | .holding _ | .rejected _ | .pushed _ | .signalled => 1

def Publish.leases : Publish F → Nat
  | .idle | .acquiring _ => 0
  | .leased | .pushed _ | .leaving => 1

def Enqueue.tickets : Enqueue → Multiset Nat
  | .holding ticket | .rejected ticket => {ticket}
  | .idle | .acquiring _ | .leased | .reserving _ | .refused | .pushed _ | .signalled => 0

theorem Enqueue.tickets_eq_zero {caller : Enqueue} (h : caller.leases = 0) : caller.tickets = 0 := by
  cases caller <;> first | rfl | cases h

variable {caller next : Enqueue}

theorem Enqueue.Local.leases_eq (h : Enqueue.Local caller next) : caller.leases = next.leases := by
  cases h <;> rfl

theorem Enqueue.Local.tickets_eq (h : Enqueue.Local caller next) : caller.tickets = next.tickets := by
  cases h <;> rfl

theorem Publish.Local.leases_eq {caller next : Publish F} (h : Publish.Local caller next) :
    caller.leases = next.leases := by
  cases h <;> rfl

def Closing.tickets : Closing → Multiset Nat
  | .none => 0
  | .vacated ticket | .retired ticket => {ticket}

def Closing.vacancies : Closing → Nat
  | .vacated _ => 1
  | .none | .retired _ => 0

def Phase.tickets : Phase → Multiset Nat
  | .accepting _ ticket | .refusing _ ticket => {ticket}
  | _ => 0

def Phase.uncounted : Phase → Nat
  | .placed _ => 1
  | _ => 0

variable {phase : Phase}

theorem Phase.uncounted_eq_zero (h : phase.mayClose = true) : phase.uncounted = 0 := by
  cases phase <;> first | rfl | cases h

def workerTickets : Option Worker → Multiset Nat
  | none => 0
  | some w => w.phase.tickets + w.closing.tickets

def workerVacancies : Option Worker → Nat
  | none => 0
  | some w => w.closing.vacancies

def workerUncounted : Option Worker → Nat
  | none => 0
  | some w => w.phase.uncounted

def slotTickets : Option Nat → Multiset Nat
  | none => 0
  | some ticket => {ticket}

def slotCount : Option Nat → Nat
  | none => 0
  | some _ => 1

def Counts (counter : UInt32) (missing total : Nat) : Prop :=
  ∃ count, counter = UInt32.ofNat count ∧ count + missing = total

namespace Counts

variable {counter : UInt32} {missing total : Nat}

theorem congr {missing' total' : Nat} (hMissing : missing' = missing) (hTotal : total' = total)
    (h : Counts counter missing total) : Counts counter missing' total' := hMissing ▸ hTotal ▸ h

theorem up (h : Counts counter (missing + 1) total) : Counts (counter + 1) missing total := by
  obtain ⟨count, rfl, hTotal⟩ := h
  exact ⟨_, (UInt32.ofNat_add _ 1).symm, by omega⟩

theorem down (h : Counts counter 0 (total + 1)) : Counts (counter - 1) 0 total := by
  obtain ⟨count, rfl, hTotal⟩ := h
  obtain rfl : count = total + 1 := hTotal
  refine ⟨_, ?_, rfl⟩
  rw [UInt32.ofNat_add _ 1]
  exact UInt32.add_sub_cancel ..

end Counts

namespace Control

def tickets : Control → Multiset Nat
  | .abandonRelease ticket | .pendingRelease ticket => {ticket}
  | .sweep _ closing => closing.tickets
  | _ => 0

def vacancies : Control → Nat
  | .sweep _ closing => closing.vacancies
  | _ => 0

def upgradeClosed : Control → Bool
  | .openPublish | .up | .stopCloseUpgrade => false
  | _ => true

def publishClosed : Control → Bool
  | .up | .stopCloseUpgrade | .stopClosePublish => false
  | _ => true

def upgradeQuiet : Control → Bool
  | .openPublish | .up | .stopCloseUpgrade | .stopClosePublish | .drainUpgrade => false
  | _ => true

def publishQuiet : Control → Bool
  | .up | .stopCloseUpgrade | .stopClosePublish | .drainUpgrade | .drainPublish => false
  | _ => true

def manned : Control → Bool
  | .openUpgrade | .openPublish | .up | .stopCloseUpgrade | .stopClosePublish | .drainUpgrade | .drainPublish | .halt
  | .signal | .join => true
  | _ => false

def started : Control → Bool
  | .startCloseUpgrade | .startClosePublish | .prepare | .openUpgrade | .openPublish | .up => true
  | _ => false

def emptied : Control → Bool
  | .fills | .clearActive | .clearReserved | .down | .startCloseUpgrade | .startClosePublish | .prepare | .abandon
  | .abandonRelease _ => true
  | _ => false

def bare : Control → Bool
  | .clearActive | .clearReserved | .down => true
  | _ => false

def Swept (slot : Nat) : Control → Prop
  | .sweep next .none => slot < next
  | .sweep next (.vacated _) | .sweep next (.retired _) => slot ≤ next
  | .pending | .pendingRelease _ | .fills | .clearActive | .clearReserved | .down | .startCloseUpgrade
  | .startClosePublish | .prepare | .abandon | .abandonRelease _ => True
  | _ => False

variable {control : Control}

theorem of_bare (h : control.bare = true) :
    control.manned = false ∧ control.emptied = true ∧ control.tickets = 0 ∧ control.vacancies = 0 := by
  cases control <;> first | exact ⟨rfl, rfl, rfl, rfl⟩ | cases h

theorem swept_of_bare (h : control.bare = true) (slot : Nat) : control.Swept slot := by
  cases control <;> trivial

theorem upgradeClosed_of_quiet (h : control.upgradeQuiet = true) : control.upgradeClosed = true := by
  cases control <;> first | rfl | cases h

theorem publishClosed_of_quiet (h : control.publishQuiet = true) : control.publishClosed = true := by
  cases control <;> first | rfl | cases h

theorem upgradeQuiet_of_emptied (h : control.emptied = true) : control.upgradeQuiet = true := by
  cases control <;> first | rfl | cases h

theorem not_swept_of_manned (h : control.manned = true) (slot : Nat) : ¬ control.Swept slot := by
  cases control <;> first | exact id | cases h

theorem not_emptied_of_manned (h : control.manned = true) : control.emptied ≠ true := by
  cases control <;> first | exact Bool.false_ne_true | cases h

end Control

namespace Server

section

variable (limits : Limits)

section

variable (s : Server F)

def upgradeLeases : Nat := total limits.enqueuers Enqueue.leases s.enqueuers

def publishLeases : Nat := total limits.publishers Publish.leases s.publishers

def outstanding : Multiset Nat :=
  total limits.enqueuers Enqueue.tickets s.enqueuers + s.upgrades.contents + workerTickets s.worker +
    s.control.tickets + total limits.maxConnections slotTickets s.connections

def live : Nat := total limits.maxConnections slotCount s.connections

structure Inv : Prop where
  upgrade : Gate.Guards s.control.upgradeClosed s.control.upgradeQuiet s.upgradeAdmission (s.upgradeLeases limits)
  publish : Gate.Guards s.control.publishClosed s.control.publishQuiet s.publishAdmission (s.publishLeases limits)
  running : s.control.started = true → s.running = true
  manned : s.worker.isSome = true → s.control.manned = true ∧ s.wakePipe.isSome = true
  swept : ∀ slot < limits.maxConnections, s.control.Swept slot → s.connections slot = none
  emptied : s.control.emptied = true → s.upgrades.contents = []
  ledger : Ledger limits.maxConnections (s.outstanding limits) s.reserved s.issued s.released
  closing : ∀ worker, s.worker = some worker → worker.closing = .none ∨ worker.phase.mayClose = true
  active : Counts s.active (workerUncounted s.worker) (s.live limits + workerVacancies s.worker + s.control.vacancies)

end

theorem inv_new (slots : Nat → F) : Inv limits (new slots) := by
  have hLeases : (new slots).upgradeLeases limits = 0 := total_eq_zero fun _ => rfl
  have hPublish : (new slots).publishLeases limits = 0 := total_eq_zero fun _ => rfl
  have hTickets : (new slots).outstanding limits = 0 := by
    have hCallers : total limits.enqueuers tickets (new slots).enqueuers = 0 := total_eq_zero fun _ => rfl
    have hSlots : total limits.maxConnections slotTickets (new slots).connections = 0 := total_eq_zero fun _ => rfl
    have hQueue : (new slots).upgrades.contents = [] := contents_new ..
    rw [outstanding, hCallers, hSlots, hQueue]
    rfl
  have hLive : (new slots).live limits = 0 := total_eq_zero fun _ => rfl
  refine ⟨?_, ?_, ?_, ?_, fun _ _ _ => rfl, fun _ => contents_new .., ?_, ?_, 0, rfl, ?_⟩
  · rw [hLeases]
    exact ⟨⟨true, rfl, fun _ => rfl⟩, by decide, fun _ => rfl⟩
  · rw [hPublish]
    exact ⟨⟨true, rfl, fun _ => rfl⟩, by decide, fun _ => rfl⟩
  · intro h
    cases h
  · intro h
    cases h
  · rw [hTickets]
    exact ⟨rfl, Nat.zero_le _, rfl⟩
  · intro worker h
    cases h
  · rw [hLive]
    rfl

end

/-! ## Callers -/

variable {i : Nat} {caller : Enqueue}

theorem upgradeLeases_set {old : Enqueue} (hi : i < limits.enqueuers) (hCaller : s.enqueuers i = old) :
    (s.setEnqueuer i caller).upgradeLeases limits + old.leases = s.upgradeLeases limits + caller.leases := by
  rw [← hCaller]
  exact total_update_add hi

theorem upgradeLeases_same (h : caller.leases = (s.enqueuers i).leases) :
    (s.setEnqueuer i caller).upgradeLeases limits = s.upgradeLeases limits := total_update_of_eq h

theorem outstanding_same (h : caller.tickets = (s.enqueuers i).tickets) :
    (s.setEnqueuer i caller).outstanding limits = s.outstanding limits := by
  have hTotal : total limits.enqueuers tickets (s.setEnqueuer i caller).enqueuers =
      total limits.enqueuers tickets s.enqueuers := total_update_of_eq h
  unfold outstanding
  rw [hTotal]
  rfl

theorem outstanding_set (hi : i < limits.enqueuers) :
    (s.setEnqueuer i caller).outstanding limits + (s.enqueuers i).tickets = s.outstanding limits + caller.tickets := by
  have hTotal : total limits.enqueuers tickets (s.setEnqueuer i caller).enqueuers + (s.enqueuers i).tickets =
      total limits.enqueuers tickets s.enqueuers + caller.tickets := total_update_add hi
  calc
    (s.setEnqueuer i caller).outstanding limits + (s.enqueuers i).tickets =
        total limits.enqueuers tickets (s.setEnqueuer i caller).enqueuers + (s.enqueuers i).tickets +
          s.upgrades.contents + workerTickets s.worker + s.control.tickets +
          total limits.maxConnections slotTickets s.connections := by
      change _ + s.upgrades.contents + workerTickets s.worker + s.control.tickets +
        total limits.maxConnections slotTickets s.connections + _ = _
      abel
    _ = s.outstanding limits + caller.tickets := by
      rw [hTotal, outstanding]
      abel

theorem outstanding_lost (hi : i < limits.enqueuers) {ticket : Nat} (hHeld : (s.enqueuers i).tickets = {ticket})
    (hNone : caller.tickets = 0) : {ticket} + (s.setEnqueuer i caller).outstanding limits = s.outstanding limits := by
  rw [add_comm, ← hHeld, outstanding_set hi, hNone, add_zero]

theorem leases_le_upgradeLeases (s : Server F) (hi : i < limits.enqueuers) :
    (s.enqueuers i).leases ≤ s.upgradeLeases limits :=
  Finset.single_le_sum (f := fun j => (s.enqueuers j).leases) (fun _ _ => Nat.zero_le _) (Finset.mem_range.mpr hi)

theorem maxConnections_lt {limits : Limits} : limits.maxConnections < 2 ^ 32 := limits.max_le.trans_lt (by decide)

section

variable (h : Inv limits s)
include h

theorem Inv.setEnqueuer (hLeases : caller.leases = (s.enqueuers i).leases)
    (hTickets : caller.tickets = (s.enqueuers i).tickets) : Inv limits (s.setEnqueuer i caller) :=
  { h with
    upgrade := .congr (upgradeLeases_same hLeases) h.upgrade
    ledger := .congr (outstanding_same hTickets) h.ledger }

theorem Inv.signalWorker : Inv limits (s.signalWorker limits) :=
  { h with manned := fun hWorker => ⟨(h.manned hWorker).1, isSome_map.trans (h.manned hWorker).2⟩ }

theorem Inv.not_upgradeQuiet (hi : i < limits.enqueuers)
    (hLease : (s.enqueuers i).leases = 1) : s.control.upgradeQuiet ≠ true := by
  intro hQuiet
  have hPos := leases_le_upgradeLeases s hi
  rw [h.upgrade.none_left hQuiet] at hPos
  omega

theorem Inv.callers_tickets (hQuiet : s.control.upgradeQuiet = true) :
    total limits.enqueuers tickets s.enqueuers = 0 := by
  apply Finset.sum_eq_zero
  intro i hi
  have hPos := leases_le_upgradeLeases s (Finset.mem_range.mp hi)
  rw [h.upgrade.none_left hQuiet] at hPos
  exact tickets_eq_zero (Nat.le_zero.mp hPos)

end

variable {ring : Spsc.Ring Nat 10}

theorem outstanding_pushed {ticket : Nat} (hPush : s.upgrades.tryPush ticket = some ring) :
    ({ s with upgrades := ring } : Server F).outstanding limits = s.outstanding limits + {ticket} := by
  have hContents : (ring.contents : Multiset Nat) = s.upgrades.contents + {ticket} := by
    rw [contents_push hPush]
    rfl
  unfold outstanding
  simp only [hContents]
  abel

theorem outstanding_popped {limits : Limits} {ticket : Nat} (hPop : s.upgrades.tryPop = some (ticket, ring)) :
    ({ s with upgrades := ring } : Server F).outstanding limits + {ticket} = s.outstanding limits := by
  have hContents : (s.upgrades.contents : Multiset Nat) = ring.contents + {ticket} := by
    rw [contents_pop hPop, ← cons_coe, ← singleton_add, add_comm]
  unfold outstanding
  simp only [hContents]
  abel

variable {s' : Server F}

theorem enqueue_inv (h : Inv limits s) (hi : i < limits.enqueuers)
    (hMove : EnqueueMoves limits s i s') : Inv limits s' := by
  cases hMove with
  | think hLocal => exact h.setEnqueuer hLocal.leases_eq.symm hLocal.tickets_eq.symm
  | lease hCaller hGate =>
    exact { h with
      upgrade := .congr (upgradeLeases_set hi hCaller) (h.upgrade.acquire Control.upgradeClosed_of_quiet hGate)
      ledger := .congr (outstanding_same (congrArg tickets hCaller).symm) h.ledger }
  | reserve hCaller hRoom =>
    rw [h.ledger.toNat_counter maxConnections_lt] at hRoom
    have hNone := congrArg tickets hCaller
    have hGained := @outstanding_set _ _ { s with reserved := s.reserved + 1, issued := s.issued + 1 } i
      (.holding s.issued) hi
    rw [hNone, add_comm, add_comm (outstanding _ _)] at hGained
    exact { h with
      upgrade := .congr (upgradeLeases_same (congrArg leases hCaller).symm) h.upgrade
      ledger := .congr ((zero_add _).symm.trans hGained) (h.ledger.draw hRoom) }
  | @push ticket ring hCaller hPush =>
    have hLost := @outstanding_lost _ _ { s with upgrades := ring } i (.pushed ticket) hi _ (congrArg _ hCaller) rfl
    rw [outstanding_pushed hPush, add_comm] at hLost
    exact { h with
      upgrade := .congr (upgradeLeases_same (congrArg leases hCaller).symm) h.upgrade
      emptied := fun hEmptied =>
        absurd (Control.upgradeQuiet_of_emptied hEmptied) (h.not_upgradeQuiet hi (congrArg _ hCaller))
      ledger := .congr (add_right_cancel hLost) h.ledger }
  | giveBack hCaller =>
    exact { h with
      upgrade := .congr (upgradeLeases_same (congrArg leases hCaller).symm) h.upgrade
      ledger := giveBack (.congr (outstanding_lost hi (congrArg _ hCaller) rfl) h.ledger) }
  | signal hCaller => exact h.signalWorker.setEnqueuer (congrArg leases hCaller).symm (congrArg tickets hCaller).symm
  | leave hCaller =>
    have hLease : (s.enqueuers i).leases = 1 ∧ (s.enqueuers i).tickets = 0 := by
      rcases hCaller with hCaller | hCaller <;> rw [hCaller] <;> exact ⟨rfl, rfl⟩
    have hLeases := @upgradeLeases_set _ _ { s with upgradeAdmission := s.upgradeAdmission - 1 } i .idle _ hi rfl
    rw [hLease.1] at hLeases
    exact { h with
      upgrade := Gate.Guards.release (.congr hLeases h.upgrade)
      ledger := .congr (outstanding_same hLease.2.symm) h.ledger }

theorem publishLeases_set {old caller : Publish F} (hi : i < limits.publishers) (hCaller : s.publishers i = old) :
    (s.setPublisher i caller).publishLeases limits + old.leases = s.publishLeases limits + caller.leases := by
  rw [← hCaller]
  exact total_update_add hi

theorem Inv.setPublisher {caller : Publish F} (h : Inv limits s) (hLeases : caller.leases = (s.publishers i).leases) :
    Inv limits (s.setPublisher i caller) :=
  { h with publish := .congr (total_update_of_eq hLeases) h.publish }

theorem leases_le_publishLeases (s : Server F) (hi : i < limits.publishers) :
    (s.publishers i).leases ≤ s.publishLeases limits :=
  Finset.single_le_sum (f := fun j => (s.publishers j).leases) (fun _ _ => Nat.zero_le _) (Finset.mem_range.mpr hi)

theorem publish_inv (h : Inv limits s) (hi : i < limits.publishers)
    (hMove : PublishMoves limits s i s') : Inv limits s' := by
  cases hMove with
  | think hLocal => exact h.setPublisher hLocal.leases_eq.symm
  | lease hCaller hGate =>
    exact { h with
      publish := .congr (publishLeases_set hi hCaller) (h.publish.acquire Control.publishClosed_of_quiet hGate) }
  | @push fill ring hCaller _ =>
    have hPushed : Inv limits { s with events := ring } := { h with }
    exact hPushed.setPublisher (congrArg Publish.leases hCaller).symm
  | signal hCaller => exact h.signalWorker.setPublisher (congrArg Publish.leases hCaller).symm
  | leave hCaller => exact { h with publish := Gate.Guards.release (.congr (publishLeases_set hi hCaller) h.publish) }

/-! ## The worker -/

variable {phase next : Phase}

theorem Turns.tickets_eq (h : Turns s phase next) : next.tickets = phase.tickets := by
  cases h <;> rfl

theorem Turns.uncounted_eq (h : Turns s phase next) : next.uncounted = phase.uncounted := by
  cases h <;> rfl

variable {closing : Closing}

theorem outstanding_setWorker (limits : Limits) (s : Server F)
    (hWorker : s.worker = some ⟨phase, closing⟩) (next : Phase) (closing' : Closing) :
    (s.setWorker next closing').outstanding limits + (phase.tickets + closing.tickets) =
      s.outstanding limits + (next.tickets + closing'.tickets) := by
  have hOut : s.outstanding limits = total limits.enqueuers tickets s.enqueuers + s.upgrades.contents +
      (phase.tickets + closing.tickets) + s.control.tickets +
      total limits.maxConnections slotTickets s.connections := by
    rw [outstanding, hWorker]
    rfl
  rw [hOut]
  change total limits.enqueuers tickets s.enqueuers + s.upgrades.contents +
    (next.tickets + closing'.tickets) + s.control.tickets +
    total limits.maxConnections slotTickets s.connections + _ = _
  abel

variable {closing closing' : Closing}

theorem outstanding_worked (hWorker : s.worker = some ⟨phase, closing⟩)
    (hTickets : next.tickets + closing'.tickets = phase.tickets + closing.tickets) :
    (s.setWorker next closing').outstanding limits = s.outstanding limits := by
  have hSet := outstanding_setWorker limits s hWorker next closing'
  rw [hTickets] at hSet
  exact add_right_cancel hSet

theorem Inv.counts {uncounted vacancies : Nat} (h : Inv limits s)
    (hWorker : s.worker = some ⟨phase, closing⟩) (hUncounted : uncounted = phase.uncounted)
    (hVacancies : vacancies = closing.vacancies) :
    Counts s.active uncounted (s.live limits + vacancies + s.control.vacancies) := by
  have hActive := h.active
  rw [hWorker] at hActive
  rw [hUncounted, hVacancies]
  exact hActive

variable {slot : Nat}

section

variable (s : Server F) (hSlot : slot < limits.maxConnections) (connection : Option Nat)
include hSlot

theorem outstanding_connections :
    ({ s with connections := update s.connections slot connection } : Server F).outstanding limits +
      slotTickets (s.connections slot) = s.outstanding limits + slotTickets connection := by
  have hTotal : total limits.maxConnections slotTickets (update s.connections slot connection) +
      slotTickets (s.connections slot) = total limits.maxConnections slotTickets s.connections +
      slotTickets connection := total_update_add hSlot
  unfold outstanding
  rw [add_assoc, hTotal, ← add_assoc]

theorem live_connections : ({ s with connections := update s.connections slot connection } : Server F).live limits +
      slotCount (s.connections slot) = s.live limits + slotCount connection := total_update_add hSlot

end

theorem freeSlot_spec (h : s.freeSlot limits = some slot) :
    slot < limits.maxConnections ∧ s.connections slot = none := by
  obtain ⟨hSlot, hFree, _⟩ := (Scan.firstIndex_eq_some_iff _ _ _).mp h
  exact ⟨hSlot, isNone_iff_eq_none.mp hFree⟩

variable {connections : Nat → Option Nat}

theorem Inv.work {upgrades : Spsc.Ring Nat 10}
    {events : Spsc.Ring F 10} {active reserved : UInt32} {released : Multiset Nat}
    (h : Inv limits s) (hWorker : s.worker = some ⟨phase, closing⟩) (hClosing : closing' = .none ∨ next.mayClose = true)
    (hLedger : Ledger limits.maxConnections
      (({ s with upgrades := upgrades, connections := connections } : Server F).setWorker next closing' |>.outstanding
        limits) reserved s.issued released) (hActive : Counts active next.uncounted
      (total limits.maxConnections slotCount connections + closing'.vacancies + s.control.vacancies)) : Inv limits
      ({ s with upgrades := upgrades, events := events, connections := connections, active := active,
                reserved := reserved, released := released }.setWorker next closing') := by
  have hManned := h.manned (by rw [hWorker]; rfl)
  exact { h with
    manned := fun _ => hManned
    swept := fun slot _ hSwept => absurd hSwept (Control.not_swept_of_manned hManned.1 slot)
    emptied := fun hEmptied => absurd hEmptied (Control.not_emptied_of_manned hManned.1)
    ledger := hLedger
    closing := fun worker hEq => by
      obtain rfl := Option.some.inj hEq
      exact hClosing
    active := hActive }

theorem work_inv (h : Inv limits s) (hMove : WorkMoves limits s s') : Inv limits s' := by
  cases hMove with
  | rest => exact h
  | turn hWorker hTurn =>
    exact h.work hWorker (.inl rfl) (.congr (outstanding_worked hWorker (congrArg _ hTurn.tickets_eq)) h.ledger)
      (h.counts hWorker hTurn.uncounted_eq rfl)
  | drain hWorker => exact { h with manned := fun hSome => ⟨(h.manned hSome).1, rfl⟩ }
  | popFill hWorker =>
    exact h.work hWorker (.inl rfl) (.congr (outstanding_worked hWorker rfl) h.ledger) (h.counts hWorker rfl rfl)
  | @popUpgrade processed ticket ring hWorker hPop =>
    have hTickets := outstanding_setWorker limits { s with upgrades := ring } hWorker (.accepting processed ticket) .none
    simp only [Phase.tickets, Closing.tickets, add_zero, outstanding_popped hPop] at hTickets
    exact h.work hWorker (.inl rfl) (.congr hTickets h.ledger) (h.counts hWorker rfl rfl)
  | @place processed ticket slot hWorker hFree =>
    obtain ⟨hSlot, hNone⟩ := freeSlot_spec hFree
    have hTickets := outstanding_setWorker limits
      { s with connections := update s.connections slot (some ticket) } hWorker (.placed processed) .none
    have hTaken := outstanding_connections s hSlot (some ticket)
    have hLive := live_connections s hSlot (some ticket)
    rw [hNone] at hTaken hLive
    simp only [slotTickets, Phase.tickets, Closing.tickets, add_zero] at hTaken hTickets
    rw [hTaken] at hTickets
    refine h.work hWorker (.inl rfl) (.congr (add_right_cancel hTickets) h.ledger) ?_
    obtain ⟨count, hCount, hSum⟩ := h.counts hWorker rfl rfl
    refine ⟨_, hCount, ?_⟩
    simp only [slotCount, Phase.uncounted, live] at hLive hSum ⊢
    omega
  | @refused processed ticket hWorker =>
    have hTickets := outstanding_setWorker limits _ hWorker (.upgrades (processed + 1)) .none
    simp only [Phase.tickets, Closing.tickets, add_zero] at hTickets
    refine h.work hWorker (.inl rfl) (giveBack (.congr ?_ h.ledger)) (h.counts hWorker rfl rfl)
    rw [← singleton_add, add_comm]
    exact hTickets
  | count hWorker =>
    exact h.work hWorker (.inl rfl) (.congr (outstanding_worked hWorker rfl) h.ledger) (h.counts hWorker rfl rfl).up
  | @vacate phase slot ticket hWorker hMay hSlot hLive =>
    have hTickets := outstanding_setWorker limits (s.vacate slot) hWorker phase (.vacated ticket)
    have hLeft := outstanding_connections s hSlot none
    have hCount := live_connections s hSlot none
    rw [hLive] at hLeft hCount
    simp only [slotTickets, Closing.tickets, add_zero] at hLeft hTickets
    refine h.work hWorker (.inr hMay) (.congr ?_ h.ledger) ?_
    · -- the ticket of the slot is now the one being closed
      apply add_right_cancel (b := phase.tickets)
      calc
        ((s.vacate slot).setWorker phase (.vacated ticket)).outstanding limits + phase.tickets =
            (s.vacate slot).outstanding limits + {ticket} + phase.tickets := by
          rw [hTickets]
          abel
        _ = s.outstanding limits + phase.tickets := congrArg (· + phase.tickets) hLeft
    · obtain ⟨count, hActive, hSum⟩ := h.counts hWorker rfl rfl
      refine ⟨count, hActive, ?_⟩
      simp only [slotCount, Closing.vacancies, live] at hCount hSum ⊢
      omega
  | uncount hWorker =>
    have hMay := (h.closing _ hWorker).resolve_left Closing.noConfusion
    have hZero := Phase.uncounted_eq_zero hMay
    refine h.work hWorker (.inr hMay) (.congr (outstanding_worked hWorker rfl) h.ledger) (.congr hZero rfl ?_)
    apply Counts.down
    refine .congr hZero.symm ?_ (h.counts hWorker rfl rfl)
    simp only [Closing.vacancies, live]
    omega
  | @retire phase ticket hWorker =>
    have hTickets := outstanding_setWorker limits _ hWorker phase .none
    refine h.work hWorker (.inl rfl) (giveBack (.congr ?_ h.ledger)) (h.counts hWorker rfl rfl)
    simp only [Closing.tickets, add_zero] at hTickets
    apply add_right_cancel (b := phase.tickets)
    have hSum (out : Multiset Nat) : {ticket} + out + phase.tickets = out + (phase.tickets + {ticket}) := by abel
    exact (hSum _).trans hTickets

/-! ## The owner -/

theorem outstanding_setControl (limits : Limits) (s : Server F) (control : Control) :
    (s.setControl control).outstanding limits + s.control.tickets = s.outstanding limits + control.tickets := by
  unfold outstanding
  change total limits.enqueuers tickets s.enqueuers + s.upgrades.contents + workerTickets s.worker +
    control.tickets + total limits.maxConnections slotTickets s.connections + _ = _
  abel

variable {control : Control}

theorem outstanding_handed {ticket : Nat}
    (hPop : s.upgrades.tryPop = some (ticket, ring)) (hNone : s.control.tickets = 0)
    (hHeld : control.tickets = {ticket}) :
    (({ s with upgrades := ring } : Server F).setControl control).outstanding limits = s.outstanding limits := by
  have hTickets := outstanding_setControl limits { s with upgrades := ring } control
  rw [hNone, hHeld, outstanding_popped hPop, add_zero] at hTickets
  exact hTickets

theorem outstanding_vacated {slot ticket : Nat} (hSlot : slot < limits.maxConnections)
    (hLive : s.connections slot = some ticket) (hNone : s.control.tickets = 0) (hHeld : control.tickets = {ticket}) :
    ((s.vacate slot).setControl control).outstanding limits = s.outstanding limits := by
  have hTickets := outstanding_setControl limits (s.vacate slot) control
  have hLeft := outstanding_connections s hSlot none
  rw [hLive] at hLeft
  rw [show (s.vacate slot).control.tickets = 0 from hNone, hHeld, add_zero] at hTickets
  exact hTickets.trans (hLeft.trans (add_zero _))

theorem Inv.worker_eq_none (h : Inv limits s) (hControl : s.control.manned = false) : s.worker = none := by
  cases hWorker : s.worker with
  | none => rfl
  | some worker =>
    have hManned := (h.manned (by rw [hWorker]; rfl)).1
    rw [hControl] at hManned
    cases hManned

theorem total_free {M : Type} [AddCommMonoid M] {weight : Option Nat → M} (hWeight : weight none = 0)
    (hFree : ∀ slot < limits.maxConnections, connections slot = none) :
    total limits.maxConnections weight connections = 0 :=
  Finset.sum_eq_zero fun slot hSlot => by rw [hFree slot (Finset.mem_range.mp hSlot), hWeight]

section

variable (h : Inv limits s)

include h

theorem ledger_release {ticket : Nat} (hHeld : s.control.tickets = {ticket}) (hNone : control.tickets = 0) :
    Ledger limits.maxConnections (((s.release ticket).setControl control).outstanding limits) (s.reserved - 1) s.issued
      (ticket ::ₘ s.released) := by
  have hTickets := outstanding_setControl limits (s.release ticket) control
  apply giveBack
  refine .congr ?_ h.ledger
  rw [hNone, add_zero] at hTickets
  rw [← singleton_add, add_comm, ← hHeld]
  exact hTickets

theorem sweep_inv (hControl : s.control = .sweep slot closing) : Inv limits (s.sweep limits slot closing) := by
  obtain ⟨_, _, _, _, _, _, connections, _, _, _, _, worker, control, _, _⟩ := s
  obtain rfl : control = .sweep slot _ := hControl
  obtain rfl : worker = none := h.worker_eq_none rfl
  cases closing with
  | vacated ticket =>
    exact { h with
      active := Counts.down (.congr rfl (by rfl) h.active) }
  | retired ticket =>
    exact { h with
      swept := fun other hOther hSwept => h.swept _ hOther (Nat.le_of_lt_succ hSwept)
      ledger := ledger_release h rfl rfl }
  | none =>
    simp only [sweep]
    split
    next hSlot =>
      cases hLive : connections slot with
      | none =>
        refine { h with swept := fun other hOther hSwept => ?_ }
        rcases Nat.lt_succ_iff_lt_or_eq.mp hSwept with hBefore | rfl
        · exact h.swept _ hOther hBefore
        · exact hLive
      | some ticket =>
        refine { h with
          swept := fun other hOther hSwept => ?_
          ledger := .congr (outstanding_vacated hSlot hLive rfl rfl) h.ledger
          active := ?_ }
        · rcases eq_or_ne other slot with rfl | hne
          · exact update_self ..
          · have hBefore : other < slot := lt_of_le_of_ne hSwept hne
            exact (update_of_ne hne ..).trans (h.swept _ hOther hBefore)
        · have hCount : total limits.maxConnections slotCount (update connections slot none) +
              slotCount (connections slot) = total limits.maxConnections slotCount connections + 0 :=
            total_update_add hSlot
          rw [hLive] at hCount
          exact .congr rfl hCount h.active
    next hEnd =>
      exact { h with
        swept := fun other hOther _ => h.swept _ hOther (lt_of_lt_of_le hOther (not_lt.mp hEnd)) }

theorem prepare_inv (hControl : s.control = .prepare) :
    Inv limits ({ s with connections := fun _ => none, wakePipe := some 0, worker := some ⟨.top, .none⟩ }.setControl
      .openUpgrade) := by
  obtain ⟨_, _, _, _, _, _, connections, _, _, _, _, worker, control, _, _⟩ := s
  obtain rfl : control = .prepare := hControl
  obtain rfl : worker = none := h.worker_eq_none rfl
  have hFree (slot : Nat) (hSlot : slot < limits.maxConnections) : connections slot = none := h.swept slot hSlot trivial
  have hTickets : total limits.maxConnections slotTickets connections = 0 := total_free rfl hFree
  have hLive : total limits.maxConnections slotCount connections = 0 := total_free rfl hFree
  have hNew : total limits.maxConnections slotTickets (fun _ => none) = 0 := total_eq_zero fun _ => rfl
  have hNone : total limits.maxConnections slotCount (fun _ => none) = 0 := total_eq_zero fun _ => rfl
  exact { h with
    manned := fun _ => ⟨rfl, rfl⟩
    swept := fun _ _ => False.elim
    emptied := Bool.noConfusion
    ledger := .congr (congrArg (_ + ·) (hNew.trans hTickets.symm)) h.ledger
    closing := fun _ hWorker => .inl (by obtain rfl := Option.some.inj hWorker; rfl)
    active := .congr rfl (congrArg (· + 0 + 0) (hNone.trans hLive.symm)) h.active }

theorem join_inv (hControl : s.control = .join) (hWorker : s.worker = none ∨ s.worker = some ⟨.exited, .none⟩) :
    Inv limits ({ s with worker := none }.setControl (.sweep 0 .none)) := by
  obtain ⟨_, _, _, _, _, _, _, _, _, _, _, worker, control, _, _⟩ := s
  obtain rfl : control = .join := hControl
  rcases hWorker with hWorker | hWorker
  · obtain rfl : worker = none := hWorker
    exact { h with
      manned := Bool.noConfusion
      swept := fun slot _ hSwept => absurd hSwept (Nat.not_lt_zero slot) }
  · obtain rfl : worker = some ⟨_, _⟩ := hWorker
    exact { h with
      manned := Bool.noConfusion
      swept := fun slot _ hSwept => absurd hSwept (Nat.not_lt_zero slot)
      closing := fun _ hWorker => nomatch hWorker }

theorem pending_inv (hControl : s.control = .pending) : Inv limits (match s.upgrades.tryPop with
        | none => s.setControl .fills
        | some (ticket, ring) => { s with upgrades := ring }.setControl (.pendingRelease ticket)) := by
  obtain ⟨_, _, _, _, upgrades, _, _, _, _, _, _, _, control, _, _⟩ := s
  obtain rfl : control = .pending := hControl
  cases hPop : upgrades.tryPop with
  | none => exact { h with emptied := fun _ => (tryPop_eq_none_iff _).mp hPop }
  | some popped =>
    obtain ⟨ticket, ring⟩ := popped
    exact { h with
      emptied := Bool.noConfusion
      ledger := .congr (outstanding_handed hPop rfl rfl) h.ledger }

theorem bare_outstanding (hBare : s.control.bare = true) : s.outstanding limits = 0 ∧ s.active = 0 := by
  obtain ⟨hManned, hEmptied, hTickets, hVacancies⟩ := Control.of_bare hBare
  have hFree (slot : Nat) (hSlot : slot < limits.maxConnections) : s.connections slot = none :=
    h.swept slot hSlot (Control.swept_of_bare hBare slot)
  have hWorker := h.worker_eq_none hManned
  have hSlots : total limits.maxConnections slotTickets s.connections = 0 := total_free rfl hFree
  have hLive : s.live limits = 0 := total_free rfl hFree
  constructor
  · rw [outstanding, h.callers_tickets (Control.upgradeQuiet_of_emptied hEmptied), h.emptied hEmptied, hWorker,
      hTickets, hSlots]
    rfl
  obtain ⟨count, hCount, hSum⟩ := h.active
  rw [hWorker, hLive, hVacancies] at hSum
  obtain rfl : count = 0 := hSum
  exact hCount

end

theorem manage_inv (call : Call) (ok : Bool) (h : Inv limits s) : Inv limits (s.manage limits call ok) := by
  obtain ⟨_, _, reserved, active, upgrades, events, _, _, running, _, _, _, control, _, _⟩ := s
  cases control with
  | down =>
    cases call with
    | start =>
      cases running with
      | true => exact h
      | false => exact { h with running := fun _ => rfl }
    | stop =>
      exact { h with
        upgrade := h.upgrade.mono Bool.noConfusion Bool.noConfusion
        publish := h.publish.mono Bool.noConfusion Bool.noConfusion
        running := Bool.noConfusion
        manned := fun hWorker => Bool.noConfusion (h.manned hWorker).1
        swept := fun _ _ => False.elim
        emptied := Bool.noConfusion }
  | up =>
    cases call with
    | start =>
      obtain rfl : running = true := h.running rfl
      exact h
    | stop => exact { h with running := Bool.noConfusion }
  | startCloseUpgrade | stopCloseUpgrade => exact { h with upgrade := h.upgrade.shut }
  | startClosePublish | stopClosePublish => exact { h with publish := h.publish.shut }
  | prepare =>
    cases ok with
    | false => exact { h with running := Bool.noConfusion }
    | true => exact prepare_inv h rfl
  | abandon =>
    have hPop : upgrades.tryPop = none := (tryPop_eq_none_iff _).mpr (h.emptied rfl)
    simp only [manage, hPop]
    exact { h with running := Bool.noConfusion }
  | abandonRelease ticket | pendingRelease ticket => exact { h with ledger := ledger_release h rfl rfl }
  | openUpgrade => exact { h with upgrade := h.upgrade.opened }
  | openPublish => exact { h with publish := h.publish.opened }
  | drainUpgrade =>
    simp only [manage]
    split
    next hZero => exact { h with upgrade := h.upgrade.drained hZero }
    · exact h
  | drainPublish =>
    simp only [manage]
    split
    next hZero => exact { h with publish := h.publish.drained hZero }
    · exact h
  | halt => exact { h with running := Bool.noConfusion }
  | signal =>
    exact { h with
      manned := fun hWorker => ⟨rfl, isSome_map.trans (h.manned hWorker).2⟩ }
  | join =>
    simp only [manage]
    split
    · exact join_inv h rfl (.inl rfl)
    · exact join_inv h rfl (.inr rfl)
    · exact h
  | sweep slot closing => exact sweep_inv h rfl
  | pending => exact pending_inv h rfl
  | fills =>
    simp only [manage]
    cases events.tryPop with
    | none => exact { h with manned := fun hWorker => Bool.noConfusion (h.manned hWorker).1 }
    | some popped => exact { h with }
  | clearActive =>
    obtain rfl : active = 0 := (bare_outstanding h rfl).2
    exact { h with }
  | clearReserved =>
    have hCounter : reserved = _ := h.ledger.counter_eq
    rw [(bare_outstanding h rfl).1] at hCounter
    obtain rfl : reserved = 0 := hCounter
    exact { h with }

end Server

theorem step_inv (action : Action F) (s : Server F) (h : s.Inv limits) : (step limits action s).2.Inv limits := by
  cases action with
  | enqueue caller spurious =>
    rw [step]
    split
    next hCaller => exact enqueue_inv h hCaller (enqueue_moves _ _ _ s)
    · exact h
  | publish caller fill spurious =>
    rw [step]
    split
    next hCaller => exact publish_inv h hCaller (publish_moves _ _ fill _ s)
    · exact h
  | work choice => exact work_inv h (work_moves _ _ s)
  | manage call ok => exact manage_inv call ok h

theorem run_inv (limits : Limits) (slots : Nat → F) (actions : List (Action F)) :
    (Run.final (step limits) actions (new slots)).Inv limits :=
  Run.final_invariant step_inv _ (inv_new _ _)

/-! ## What follows for the counters, the queue, the slots and the leases -/

theorem card_total {α : Type} (n : Nat) (weight : α → Multiset Nat) (f : Nat → α) :
    (total n weight f).card = total n (fun x => (weight x).card) f := map_sum cardHom _ _

theorem card_slotTickets (n : Nat) (connections : Nat → Option Nat) :
    (total n slotTickets connections).card = total n slotCount connections := by
  rw [card_total]
  apply Finset.sum_congr rfl
  intro slot _
  cases connections slot <;> rfl

namespace Server

theorem card_outstanding (limits : Limits) (s : Server F) : (s.outstanding limits).card =
    (total limits.enqueuers tickets s.enqueuers).card + s.upgrades.contents.length +
      (workerTickets s.worker).card + s.control.tickets.card + s.live limits := by
  rw [outstanding, card_add, card_add, card_add, card_add, coe_card, card_slotTickets, live]

theorem vacancies_le (closing : Closing) : closing.vacancies ≤ closing.tickets.card := by
  cases closing with
  | none | vacated => exact le_rfl
  | retired ticket => exact Nat.zero_le 1

section

variable (h : Inv limits s)

include h

theorem active_le_outstanding : ∃ count, s.active = UInt32.ofNat count ∧ count ≤ (s.outstanding limits).card := by
  obtain ⟨count, hCount, hSum⟩ := h.active
  refine ⟨_, hCount, ?_⟩
  have hWorker : workerVacancies s.worker ≤ (workerTickets s.worker).card := by
    cases s.worker with
    | none => exact le_rfl
    | some worker =>
      rw [workerTickets, card_add]
      exact le_add_left (vacancies_le worker.closing)
  have hControl : s.control.vacancies ≤ s.control.tickets.card := by
    cases s.control <;> first | exact Nat.zero_le _ | exact vacancies_le _
  rw [card_outstanding]
  omega

theorem push_succeeds (ticket : Nat) : s.upgrades.tryPush ticket ≠ none := by
  have hCard := h.ledger.card_le
  have hMax : limits.maxConnections ≤ 1000 := limits.max_le
  rw [card_outstanding] at hCard
  rw [Ne, tryPush_eq_none_iff, isFull_iff]
  omega

variable {processed ticket : Nat}

theorem freeSlot_exists
    (hWorker : s.worker = some ⟨.accepting processed ticket, closing⟩) : s.freeSlot limits ≠ none := by
  intro hNone
  have hTaken := (Scan.firstIndex_eq_none_iff _).mp hNone
  have hLive : s.live limits = limits.maxConnections := by
    rw [live, total]
    rw [Finset.sum_congr rfl (g := fun _ => 1)]
    · rw [Finset.sum_const, Finset.card_range, smul_eq_mul, mul_one]
    intro slot hSlot
    have hSome := hTaken slot (Finset.mem_range.mp hSlot)
    cases hConnection : s.connections slot with
    | none =>
      rw [hConnection] at hSome
      cases hSome
    | some ticket => rfl
  have hHand : 1 ≤ (workerTickets s.worker).card := by
    rw [hWorker, workerTickets, card_add]
    exact Nat.le_add_right 1 _
  have hCard := h.ledger.card_le
  rw [card_outstanding] at hCard
  omega

theorem count_tickets {ticket : Nat} (hTicket : ticket < s.issued) :
    (s.outstanding limits).count ticket + s.released.count ticket = 1 := by
  rw [← count_add, h.ledger.all]
  exact count_eq_one_of_mem (nodup_range _) (mem_range.mpr hTicket)

end

structure Sound (limits : Limits) (s : Server F) : Prop where
  active_le : s.active.toNat ≤ s.reserved.toNat
  reserved_le : s.reserved.toNat ≤ limits.maxConnections
  pushes : ∀ caller < limits.enqueuers, ∀ ticket, s.enqueuers caller = .holding ticket →
    s.upgrades.tryPush ticket ≠ none
  taken : ∀ processed ticket, s.worker = some ⟨.accepting processed ticket, .none⟩ →
    ∀ choice : Choice, choice.close = none → (∃ slot < limits.maxConnections, s.connections slot = none ∧
          (s.work limits choice).connections slot = some ticket) ∨
        (s.work limits choice).worker = some ⟨.refusing processed ticket, .none⟩
  once : ∀ ticket < s.issued, (s.outstanding limits).count ticket + s.released.count ticket = 1
  settled : s.control = .down → ∀ ticket < s.issued, s.released.count ticket = 1
  no_upgrade_lease : s.control.upgradeQuiet = true → ∀ caller < limits.enqueuers, (s.enqueuers caller).leases = 0
  no_publish_lease : s.control.publishQuiet = true → ∀ caller < limits.publishers, (s.publishers caller).leases = 0

theorem Inv.sound (h : Inv limits s) : Sound limits s := by
  have hReserved := h.ledger.toNat_counter (maxConnections_lt)
  refine ⟨?_, ?_, fun _ _ ticket _ => push_succeeds h _, fun processed ticket hWorker choice hChoice => ?_,
    fun ticket => count_tickets h, ?_, ?_, ?_⟩
  · obtain ⟨count, hCount, hLe⟩ := active_le_outstanding h
    rw [hReserved, hCount]
    exact (Nat.mod_le _ _).trans hLe
  · rw [hReserved]
    exact h.ledger.card_le
  · obtain ⟨slot, hFree⟩ := ne_none_iff_exists'.mp (freeSlot_exists h hWorker)
    obtain ⟨hSlot, hNone⟩ := freeSlot_spec hFree
    simp only [Server.work, hWorker, hChoice, advance, hFree]
    split
    · exact .inl ⟨slot, hSlot, hNone, update_self ..⟩
    · exact .inr rfl
  · intro hDown ticket hTicket
    have hOnce := count_tickets h hTicket
    rwa [(bare_outstanding h (by rw [hDown]; rfl)).1, count_zero, zero_add] at hOnce
  · intro hQuiet caller hCaller
    have hLe := leases_le_upgradeLeases s hCaller
    rw [h.upgrade.none_left hQuiet] at hLe
    exact Nat.le_zero.mp hLe
  · intro hQuiet caller hCaller
    have hLe := leases_le_publishLeases s hCaller
    rw [h.publish.none_left hQuiet] at hLe
    exact Nat.le_zero.mp hLe

end Server

theorem admission_sound (limits : Limits) (slots : Nat → F) (actions : List (Action F)) :
    (Run.final (step limits) actions (Server.new slots)).Sound limits := (run_inv _ _ _).sound

end LuvFlicker.Ws
