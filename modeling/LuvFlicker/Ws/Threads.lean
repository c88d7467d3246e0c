import LuvFlicker.Lib.Gate
import LuvFlicker.Lib.Run
import LuvFlicker.Lib.Scan
import LuvFlicker.Lib.Spsc
import LuvFlicker.Lib.Tally

/-!
# The threads of the WebSocket server

Callers of `enqueue_upgrade` and `publish`, the worker, and the thread that calls
`start` and `stop`, with what they share: the admission words, the connection
counters, the two queues, the connection slots and the wake-up pipe.
-/

namespace LuvFlicker.Ws

open Function

universe u

variable {F : Type u}

def kMaxConnections : Nat := 1000
def kMaxFillsPerTurn : Nat := 128
def kMaxUpgradesPerTurn : Nat := 16

structure Limits where
  maxConnections : Nat
  max_le : maxConnections ≤ kMaxConnections
  pipeCapacity : Nat
  pipe_pos : 0 < pipeCapacity
  enqueuers : Nat
  publishers : Nat

/-- Where a caller stands in `enqueue_upgrade`, after its arguments were checked. -/
inductive Enqueue where
  | idle
  | acquiring (observed : UInt32)
  | leased
  | reserving (observed : UInt32)
  | refused
  | holding (ticket : Nat)
  | rejected (ticket : Nat)
  | pushed (ticket : Nat)
  | signalled

inductive Publish (F : Type u) where
  | idle
  | acquiring (observed : UInt32)
  | leased
  | pushed (fill : F)
  | leaving

inductive Enqueue.Local : Enqueue → Enqueue → Prop where
  | load {word : UInt32} : Local .idle (.acquiring word)
  | turnedAway {observed : UInt32} : Local (.acquiring observed) .idle
  | retry {observed word : UInt32} : Local (.acquiring observed) (.acquiring word)
  | loadReserved {reserved : UInt32} : Local .leased (.reserving reserved)
  | exhausted {observed : UInt32} : Local (.reserving observed) .refused
  | reload {observed reserved : UInt32} : Local (.reserving observed) (.reserving reserved)
  | full {ticket : Nat} : Local (.holding ticket) (.rejected ticket)

inductive Publish.Local : Publish F → Publish F → Prop where
  | load {word : UInt32} : Local .idle (.acquiring word)
  | turnedAway {observed : UInt32} : Local (.acquiring observed) .idle
  | retry {observed word : UInt32} : Local (.acquiring observed) (.acquiring word)
  | full : Local .leased .leaving

/-- Where a thread stands in `close`: the slot is cleared, then `active_` and `reserved_` go down. -/
inductive Closing where
  | none
  | vacated (ticket : Nat)
  | retired (ticket : Nat)

inductive Phase where
  | top
  | draining
  | fills (processed : Nat)
  | broadcasting (processed : Nat)
  | upgrades (processed : Nat)
  | accepting (processed ticket : Nat)
  | refusing (processed ticket : Nat)
  | placed (processed : Nat)
  | accepted (processed : Nat)
  | testFills
  | testUpgrades
  | maintaining (remains : Bool)
  | polling (remains : Bool) (timeout : Nat)
  | serving
  | exited

def Phase.mayClose : Phase → Bool
  | .broadcasting _ | .accepted _ | .maintaining _ | .serving => true
  | _ => false

structure Worker where
  phase : Phase
  closing : Closing

/-- Where the owner of the server stands between and in `start` and `stop`. -/
inductive Control where
  | down
  | startCloseUpgrade
  | startClosePublish
  | prepare
  | abandon
  | abandonRelease (ticket : Nat)
  | openUpgrade
  | openPublish
  | up
  | stopCloseUpgrade
  | stopClosePublish
  | drainUpgrade
  | drainPublish
  | halt
  | signal
  | join
  | sweep (slot : Nat) (closing : Closing)
  | pending
  | pendingRelease (ticket : Nat)
  | fills
  | clearActive
  | clearReserved

structure Server (F : Type u) where
  upgradeAdmission : UInt32
  publishAdmission : UInt32
  reserved : UInt32
  active : UInt32
  upgrades : Spsc.Ring Nat 10
  events : Spsc.Ring F 10
  connections : Nat → Option Nat
  wakePipe : Option Nat
  running : Bool
  enqueuers : Nat → Enqueue
  publishers : Nat → Publish F
  worker : Option Worker
  control : Control
  issued : Nat
  released : Multiset Nat

namespace Server

def new (slots : Nat → F) : Server F where
  upgradeAdmission := Gate.closedBit
  publishAdmission := Gate.closedBit
  reserved := 0
  active := 0
  upgrades := .new (fun _ => 0) (by decide)
  events := .new slots (by decide)
  connections _ := none
  wakePipe := none
  running := false
  enqueuers _ := .idle
  publishers _ := .idle
  worker := none
  control := .down
  issued := 0
  released := 0

variable (s : Server F)

def setEnqueuer (i : Nat) (caller : Enqueue) : Server F := { s with enqueuers := update s.enqueuers i caller }

def setPublisher (i : Nat) (caller : Publish F) : Server F := { s with publishers := update s.publishers i caller }

def signalWorker (limits : Limits) : Server F :=
  { s with wakePipe := s.wakePipe.map fun bytes => if bytes < limits.pipeCapacity then bytes + 1 else bytes }

def release (ticket : Nat) : Server F := { s with reserved := s.reserved - 1, released := ticket ::ₘ s.released }

def vacate (slot : Nat) : Server F := { s with connections := update s.connections slot none }

def setWorker (phase : Phase) (closing : Closing) : Server F := { s with worker := some ⟨phase, closing⟩ }

def setControl (control : Control) : Server F := { s with control := control }

/-! ## Callers -/

variable (limits : Limits)

def enqueue (i : Nat) (spurious : Bool) (s : Server F) : Server F :=
  match s.enqueuers i with
  | .idle => s.setEnqueuer i (.acquiring s.upgradeAdmission)
  | .acquiring observed =>
    match Gate.attempt s.upgradeAdmission observed spurious with
    | .refused => s.setEnqueuer i .idle
    | .acquired word => { s with upgradeAdmission := word }.setEnqueuer i .leased
    | .retry word => s.setEnqueuer i (.acquiring word)
  | .leased => s.setEnqueuer i (.reserving s.reserved)
  | .reserving observed =>
    if limits.maxConnections ≤ observed.toNat then s.setEnqueuer i .refused
    else if s.reserved = observed ∧ spurious = false then
      { s with reserved := observed + 1, issued := s.issued + 1 }.setEnqueuer i (.holding s.issued)
    else s.setEnqueuer i (.reserving s.reserved)
  | .refused => { s with upgradeAdmission := s.upgradeAdmission - 1 }.setEnqueuer i .idle
  | .holding ticket =>
    match s.upgrades.tryPush ticket with
    | none => s.setEnqueuer i (.rejected ticket)
    | some ring => { s with upgrades := ring }.setEnqueuer i (.pushed ticket)
  | .rejected ticket => (s.release ticket).setEnqueuer i .refused
  | .pushed _ => (s.signalWorker limits).setEnqueuer i .signalled
  | .signalled => { s with upgradeAdmission := s.upgradeAdmission - 1 }.setEnqueuer i .idle

def publish (i : Nat) (fill : F) (spurious : Bool) (s : Server F) : Server F :=
  match s.publishers i with
  | .idle => s.setPublisher i (.acquiring s.publishAdmission)
  | .acquiring observed =>
    match Gate.attempt s.publishAdmission observed spurious with
    | .refused => s.setPublisher i .idle
    | .acquired word => { s with publishAdmission := word }.setPublisher i .leased
    | .retry word => s.setPublisher i (.acquiring word)
  | .leased =>
    match s.events.tryPush fill with
    | none => s.setPublisher i .leaving
    | some ring => { s with events := ring }.setPublisher i (.pushed fill)
  | .pushed _ => (s.signalWorker limits).setPublisher i .leaving
  | .leaving => { s with publishAdmission := s.publishAdmission - 1 }.setPublisher i .idle

inductive EnqueueMoves (limits : Limits) (s : Server F) (i : Nat) : Server F → Prop where
  | think {caller : Enqueue} (h : Enqueue.Local (s.enqueuers i) caller) :
      EnqueueMoves limits s i (s.setEnqueuer i caller)
  | lease {observed word : UInt32} {spurious : Bool} (h : s.enqueuers i = .acquiring observed)
      (hGate : Gate.attempt s.upgradeAdmission observed spurious = .acquired word) :
      EnqueueMoves limits s i ({ s with upgradeAdmission := word }.setEnqueuer i .leased)
  | reserve (h : s.enqueuers i = .reserving s.reserved) (hRoom : s.reserved.toNat < limits.maxConnections) :
      EnqueueMoves limits s i
        ({ s with reserved := s.reserved + 1, issued := s.issued + 1 }.setEnqueuer i (.holding s.issued))
  | push {ticket : Nat} {ring : Spsc.Ring Nat 10} (h : s.enqueuers i = .holding ticket)
      (hPush : s.upgrades.tryPush ticket = some ring) :
      EnqueueMoves limits s i ({ s with upgrades := ring }.setEnqueuer i (.pushed ticket))
  | giveBack {ticket : Nat} (h : s.enqueuers i = .rejected ticket) :
      EnqueueMoves limits s i ((s.release ticket).setEnqueuer i .refused)
  | signal {ticket : Nat} (h : s.enqueuers i = .pushed ticket) :
      EnqueueMoves limits s i ((s.signalWorker limits).setEnqueuer i .signalled)
  | leave (h : s.enqueuers i = .refused ∨ s.enqueuers i = .signalled) :
      EnqueueMoves limits s i ({ s with upgradeAdmission := s.upgradeAdmission - 1 }.setEnqueuer i .idle)

theorem enqueue_moves (i : Nat) (spurious : Bool) (s : Server F) :
    EnqueueMoves limits s i (s.enqueue limits i spurious) := by
  rw [enqueue]
  cases hCaller : s.enqueuers i with
  | idle => exact .think (hCaller ▸ .load)
  | acquiring observed =>
    dsimp only
    cases hGate : Gate.attempt s.upgradeAdmission observed spurious with
    | refused => exact .think (hCaller ▸ .turnedAway)
    | acquired word => exact .lease hCaller hGate
    | retry word => exact .think (hCaller ▸ .retry)
  | leased => exact .think (hCaller ▸ .loadReserved)
  | reserving observed =>
    dsimp only
    split
    · exact .think (hCaller ▸ .exhausted)
    rename_i hRoom
    split
    next hSwap =>
      obtain ⟨rfl, _⟩ := hSwap
      exact .reserve hCaller (not_le.mp hRoom)
    · exact .think (hCaller ▸ .reload)
  | refused => exact .leave (.inl hCaller)
  | holding ticket =>
    dsimp only
    cases hPush : s.upgrades.tryPush ticket with
    | none => exact .think (hCaller ▸ .full)
    | some ring => exact .push hCaller hPush
  | rejected ticket => exact .giveBack hCaller
  | pushed ticket => exact .signal hCaller
  | signalled => exact .leave (.inr hCaller)

inductive PublishMoves (limits : Limits) (s : Server F) (i : Nat) : Server F → Prop where
  | think {caller : Publish F} (h : Publish.Local (s.publishers i) caller) :
      PublishMoves limits s i (s.setPublisher i caller)
  | lease {observed word : UInt32} {spurious : Bool} (h : s.publishers i = .acquiring observed)
      (hGate : Gate.attempt s.publishAdmission observed spurious = .acquired word) :
      PublishMoves limits s i ({ s with publishAdmission := word }.setPublisher i .leased)
  | push {fill : F} {ring : Spsc.Ring F 10} (h : s.publishers i = .leased) (hPush : s.events.tryPush fill = some ring) :
      PublishMoves limits s i ({ s with events := ring }.setPublisher i (.pushed fill))
  | signal {fill : F} (h : s.publishers i = .pushed fill) :
      PublishMoves limits s i ((s.signalWorker limits).setPublisher i .leaving)
  | leave (h : s.publishers i = .leaving) :
      PublishMoves limits s i ({ s with publishAdmission := s.publishAdmission - 1 }.setPublisher i .idle)

theorem publish_moves (i : Nat) (fill : F) (spurious : Bool) (s : Server F) :
    PublishMoves limits s i (s.publish limits i fill spurious) := by
  rw [publish]
  cases hCaller : s.publishers i with
  | idle => exact .think (hCaller ▸ .load)
  | acquiring observed =>
    dsimp only
    cases hGate : Gate.attempt s.publishAdmission observed spurious with
    | refused => exact .think (hCaller ▸ .turnedAway)
    | acquired word => exact .lease hCaller hGate
    | retry word => exact .think (hCaller ▸ .retry)
  | leased =>
    dsimp only
    cases hPush : s.events.tryPush fill with
    | none => exact .think (hCaller ▸ .full)
    | some ring => exact .push hCaller hPush
  | pushed fill => exact .signal hCaller
  | leaving => exact .leave hCaller

/-! ## The worker -/

/-- What is left to the environment in a step of the worker: a connection to close where the worker may close one,
whether a call succeeds or a poll was ended by the pipe, and the timeout the clock gives. -/
structure Choice where
  close : Option Nat
  ok : Bool
  timeout : Nat

def freeSlot : Option Nat := Scan.firstIndex (fun slot => (s.connections slot).isNone) limits.maxConnections

section

variable (choice : Choice)

def advance (phase : Phase) (s : Server F) : Server F :=
  match phase with
  | .top => if s.running then s.setWorker .draining .none else s.setWorker .exited .none
  | .draining =>
    match s.wakePipe with
    | none => s.setWorker (.fills 0) .none
    | some bytes =>
      if bytes = 0 then s.setWorker (.fills 0) .none else { s with wakePipe := some (bytes - min 64 bytes) }
  | .fills processed =>
    if processed < kMaxFillsPerTurn then
      match s.events.tryPop with
      | none => s.setWorker (.upgrades 0) .none
      | some (_, ring) => { s with events := ring }.setWorker (.broadcasting processed) .none
    else s.setWorker (.upgrades 0) .none
  | .broadcasting processed => s.setWorker (.fills (processed + 1)) .none
  | .upgrades processed =>
    if processed < kMaxUpgradesPerTurn then
      match s.upgrades.tryPop with
      | none => s.setWorker .testFills .none
      | some (ticket, ring) => { s with upgrades := ring }.setWorker (.accepting processed ticket) .none
    else s.setWorker .testFills .none
  | .accepting processed ticket =>
    match s.freeSlot limits with
    | none => s.setWorker (.refusing processed ticket) .none
    | some slot =>
      if choice.ok then
        { s with connections := update s.connections slot (some ticket) }.setWorker (.placed processed) .none
      else s.setWorker (.refusing processed ticket) .none
  | .refusing processed ticket => (s.release ticket).setWorker (.upgrades (processed + 1)) .none
  | .placed processed => { s with active := s.active + 1 }.setWorker (.accepted processed) .none
  | .accepted processed => s.setWorker (.upgrades (processed + 1)) .none
  | .testFills => if s.events.isEmpty then s.setWorker .testUpgrades .none else s.setWorker (.maintaining true) .none
  | .testUpgrades =>
    if s.upgrades.isEmpty then s.setWorker (.maintaining false) .none else s.setWorker (.maintaining true) .none
  | .maintaining remains => s.setWorker (.polling remains (if remains then 0 else choice.timeout)) .none
  | .polling _ _ => if choice.ok then s.setWorker .top .none else s.setWorker .serving .none
  | .serving => s.setWorker .top .none
  | .exited => s

def work (s : Server F) : Server F :=
  match s.worker with
  | none => s
  | some ⟨phase, .vacated ticket⟩ => { s with active := s.active - 1 }.setWorker phase (.retired ticket)
  | some ⟨phase, .retired ticket⟩ => (s.release ticket).setWorker phase .none
  | some ⟨phase, .none⟩ =>
    match choice.close with
    | none => s.advance limits choice phase
    | some slot =>
      if phase.mayClose ∧ slot < limits.maxConnections then
        match s.connections slot with
        | none => s
        | some ticket => (s.vacate slot).setWorker phase (.vacated ticket)
      else s

inductive Turns (s : Server F) : Phase → Phase → Prop where
  | enter : Turns s .top .draining
  | leave : Turns s .top .exited
  | drained : Turns s .draining (.fills 0)
  | fillsDone {processed : Nat} : Turns s (.fills processed) (.upgrades 0)
  | broadcast {processed : Nat} : Turns s (.broadcasting processed) (.fills (processed + 1))
  | upgradesDone {processed : Nat} : Turns s (.upgrades processed) .testFills
  | refuse {processed ticket : Nat} : Turns s (.accepting processed ticket) (.refusing processed ticket)
  | accepted {processed : Nat} : Turns s (.accepted processed) (.upgrades (processed + 1))
  | fillsLeft : Turns s .testFills (.maintaining true)
  | noFills (h : s.events.contents = []) : Turns s .testFills .testUpgrades
  | upgradesLeft : Turns s .testUpgrades (.maintaining true)
  | noUpgrades (h : s.upgrades.contents = []) : Turns s .testUpgrades (.maintaining false)
  | wait {remains : Bool} {timeout : Nat} (h : remains = true → timeout = 0) :
      Turns s (.maintaining remains) (.polling remains timeout)
  | woken {remains : Bool} {timeout : Nat} : Turns s (.polling remains timeout) .top
  | ready {remains : Bool} {timeout : Nat} : Turns s (.polling remains timeout) .serving
  | served : Turns s .serving .top

inductive WorkMoves (limits : Limits) (s : Server F) : Server F → Prop where
  | rest : WorkMoves limits s s
  | turn {phase next : Phase} (h : s.worker = some ⟨phase, .none⟩) (hTurn : Turns s phase next) :
      WorkMoves limits s (s.setWorker next .none)
  | drain {left : Nat} (h : s.worker = some ⟨.draining, .none⟩) : WorkMoves limits s { s with wakePipe := some left }
  | popFill {processed : Nat} {fill : F} {ring : Spsc.Ring F 10} (h : s.worker = some ⟨.fills processed, .none⟩)
      (hPop : s.events.tryPop = some (fill, ring)) :
      WorkMoves limits s ({ s with events := ring }.setWorker (.broadcasting processed) .none)
  | popUpgrade {processed ticket : Nat} {ring : Spsc.Ring Nat 10} (h : s.worker = some ⟨.upgrades processed, .none⟩)
      (hPop : s.upgrades.tryPop = some (ticket, ring)) :
      WorkMoves limits s ({ s with upgrades := ring }.setWorker (.accepting processed ticket) .none)
  | place {processed ticket slot : Nat} (h : s.worker = some ⟨.accepting processed ticket, .none⟩)
      (hFree : s.freeSlot limits = some slot) :
      WorkMoves limits s ({ s with connections := update s.connections slot (some ticket) }.setWorker
        (.placed processed) .none)
  | refused {processed ticket : Nat} (h : s.worker = some ⟨.refusing processed ticket, .none⟩) :
      WorkMoves limits s ((s.release ticket).setWorker (.upgrades (processed + 1)) .none)
  | count {processed : Nat} (h : s.worker = some ⟨.placed processed, .none⟩) :
      WorkMoves limits s ({ s with active := s.active + 1 }.setWorker (.accepted processed) .none)
  | vacate {phase : Phase} {slot ticket : Nat} (h : s.worker = some ⟨phase, .none⟩)
      (hMay : phase.mayClose = true) (hSlot : slot < limits.maxConnections)
      (hLive : s.connections slot = some ticket) :
      WorkMoves limits s ((s.vacate slot).setWorker phase (.vacated ticket))
  | uncount {phase : Phase} {ticket : Nat} (h : s.worker = some ⟨phase, .vacated ticket⟩) :
      WorkMoves limits s ({ s with active := s.active - 1 }.setWorker phase (.retired ticket))
  | retire {phase : Phase} {ticket : Nat} (h : s.worker = some ⟨phase, .retired ticket⟩) :
      WorkMoves limits s ((s.release ticket).setWorker phase .none)

theorem advance_moves {phase : Phase} {s : Server F}
    (h : s.worker = some ⟨phase, .none⟩) : WorkMoves limits s (s.advance limits choice phase) := by
  cases phase with
  | top =>
    simp only [advance]
    split
    · exact .turn h .enter
    · exact .turn h .leave
  | draining =>
    simp only [advance]
    cases hPipe : s.wakePipe with
    | none => exact .turn h .drained
    | some bytes =>
      dsimp only
      split
      · exact .turn h .drained
      · exact .drain h
  | fills processed =>
    simp only [advance]
    split
    · cases hPop : s.events.tryPop with
      | none => exact .turn h .fillsDone
      | some popped => exact .popFill h hPop
    · exact .turn h .fillsDone
  | broadcasting processed => exact .turn h .broadcast
  | upgrades processed =>
    simp only [advance]
    split
    · cases hPop : s.upgrades.tryPop with
      | none => exact .turn h .upgradesDone
      | some popped => exact .popUpgrade h hPop
    · exact .turn h .upgradesDone
  | accepting processed ticket =>
    simp only [advance]
    cases hFree : s.freeSlot limits with
    | none => exact .turn h .refuse
    | some slot =>
      dsimp only
      split
      · exact .place h hFree
      · exact .turn h .refuse
  | refusing processed ticket => exact .refused h
  | placed processed => exact .count h
  | accepted processed => exact .turn h .accepted
  | testFills =>
    simp only [advance]
    split
    next hEmpty => exact .turn h (.noFills ((Spsc.Ring.isEmpty_iff _).mp hEmpty))
    · exact .turn h .fillsLeft
  | testUpgrades =>
    simp only [advance]
    split
    next hEmpty => exact .turn h (.noUpgrades ((Spsc.Ring.isEmpty_iff _).mp hEmpty))
    · exact .turn h .upgradesLeft
  | maintaining remains => exact .turn h (.wait fun hRemains => if_pos hRemains)
  | polling remains timeout =>
    simp only [advance]
    split
    · exact .turn h .woken
    · exact .turn h .ready
  | serving => exact .turn h .served
  | exited => exact .rest

theorem work_moves (s : Server F) : WorkMoves limits s (s.work limits choice) := by
  rw [work]
  cases hWorker : s.worker with
  | none => exact .rest
  | some w =>
    obtain ⟨_, closing⟩ := w
    cases closing with
    | vacated ticket => exact .uncount hWorker
    | retired ticket => exact .retire hWorker
    | none =>
      cases choice.close with
      | none => exact advance_moves _ _ hWorker
      | some slot =>
        dsimp only
        split
        next hMay =>
          cases hLive : s.connections slot with
          | none => exact .rest
          | some ticket => exact .vacate hWorker hMay.1 hMay.2 hLive
        · exact .rest

end

/-! ## The owner -/

inductive Call where
  | start
  | stop

def sweep (slot : Nat) (closing : Closing) (s : Server F) : Server F :=
  match closing with
  | .vacated ticket => { s with active := s.active - 1 }.setControl (.sweep slot (.retired ticket))
  | .retired ticket => (s.release ticket).setControl (.sweep (slot + 1) .none)
  | .none =>
    if slot < limits.maxConnections then
      match s.connections slot with
      | none => s.setControl (.sweep (slot + 1) .none)
      | some ticket => (s.vacate slot).setControl (.sweep slot (.vacated ticket))
    else s.setControl .pending

/-- `start` and `stop`; `ok` is whether the storage, the pipe and the thread could be had. -/
def manage (call : Call) (ok : Bool) (s : Server F) : Server F :=
  match s.control with
  | .down | .up =>
    match call with
    | .start => if s.running then s else { s with running := true }.setControl .startCloseUpgrade
    | .stop => s.setControl .stopCloseUpgrade
  | .startCloseUpgrade =>
    { s with upgradeAdmission := Gate.close s.upgradeAdmission }.setControl .startClosePublish
  | .startClosePublish => { s with publishAdmission := Gate.close s.publishAdmission }.setControl .prepare
  | .prepare =>
    if ok then
      { s with connections := fun _ => none, wakePipe := some 0, worker := some ⟨.top, .none⟩ }.setControl .openUpgrade
    else s.setControl .abandon
  | .abandon =>
    match s.upgrades.tryPop with
    | none => { s with running := false }.setControl .down
    | some (ticket, ring) => { s with upgrades := ring }.setControl (.abandonRelease ticket)
  | .abandonRelease ticket => (s.release ticket).setControl .abandon
  | .openUpgrade => { s with upgradeAdmission := 0 }.setControl .openPublish
  | .openPublish => { s with publishAdmission := 0 }.setControl .up
  | .stopCloseUpgrade => { s with upgradeAdmission := Gate.close s.upgradeAdmission }.setControl .stopClosePublish
  | .stopClosePublish => { s with publishAdmission := Gate.close s.publishAdmission }.setControl .drainUpgrade
  | .drainUpgrade => if Gate.refs s.upgradeAdmission = 0 then s.setControl .drainPublish else s
  | .drainPublish => if Gate.refs s.publishAdmission = 0 then s.setControl .halt else s
  | .halt => { s with running := false }.setControl .signal
  | .signal => (s.signalWorker limits).setControl .join
  | .join =>
    match s.worker with
    | none | some ⟨.exited, .none⟩ => { s with worker := none }.setControl (.sweep 0 .none)
    | some _ => s
  | .sweep slot closing => s.sweep limits slot closing
  | .pending =>
    match s.upgrades.tryPop with
    | none => s.setControl .fills
    | some (ticket, ring) => { s with upgrades := ring }.setControl (.pendingRelease ticket)
  | .pendingRelease ticket => (s.release ticket).setControl .pending
  | .fills =>
    match s.events.tryPop with
    | none => { s with wakePipe := none }.setControl .clearActive
    | some (_, ring) => { s with events := ring }
  | .clearActive => { s with active := 0 }.setControl .clearReserved
  | .clearReserved => { s with reserved := 0 }.setControl .down

end Server

/-! ## Runs -/

inductive Action (F : Type u) where
  | enqueue (caller : Nat) (spurious : Bool)
  | publish (caller : Nat) (fill : F) (spurious : Bool)
  | work (choice : Server.Choice)
  | manage (call : Server.Call) (ok : Bool)

def step (limits : Limits) : Action F → Server F → Unit × Server F
  | .enqueue caller spurious, s => ((), if caller < limits.enqueuers then s.enqueue limits caller spurious else s)
  | .publish caller fill spurious, s =>
    ((), if caller < limits.publishers then s.publish limits caller fill spurious else s)
  | .work choice, s => ((), s.work limits choice)
  | .manage call ok, s => ((), s.manage limits call ok)

end LuvFlicker.Ws
