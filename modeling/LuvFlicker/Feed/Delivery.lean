import LuvFlicker.Feed.Dpdk

/-!
# What the packet feed delivers

Two questions about the ticks in the ring: whether a feed that calls itself
healthy has committed all that the accepted packets carry, and whether an
unbroken stream of packets arrives completely.
-/

namespace LuvFlicker.DpdkFeed

open List Config Run SequenceTracker

variable {s : DpdkFeed} {a : Arrival} {ticks : TickChannel} {symbols : SymbolTable}

/-! ## One packet -/

inductive Processed (a : Arrival) (s : DpdkFeed) (ticks : TickChannel) : Nat × DpdkFeed × TickChannel → Prop
  | ignored (hCheck : s.checkPacket a.packet = none) : Processed a s ticks (0, s, ticks)
  | refused {header : MoldUdp64.Header} {payload : List UInt8} {s' : DpdkFeed}
      (hCheck : s.checkPacket a.packet = some (header, payload)) (hOther : ¬ s.sequence.Expects header.sequence)
      (hTripped : s'.sequenceHealthy = false) : Processed a s ticks (0, s', ticks)
  | delivered {header : MoldUdp64.Header} {payload : List UInt8}
      (hCheck : s.checkPacket a.packet = some (header, payload)) (hNext : s.sequence.Expects header.sequence) :
      Processed a s ticks ((deliver s.symbols a.drains (MoldUdp64.messages payload) 0 ticks).1,
          { s with sequence := (s.sequence.observe header.sequence).2 },
          (deliver s.symbols a.drains (MoldUdp64.messages payload) 0 ticks).2)

theorem processPacket_processed (a : Arrival) (s : DpdkFeed) (ticks : TickChannel) :
    Processed a s ticks (processPacket a (s, ticks)) := by
  cases hCheck : s.checkPacket a.packet with
  | none =>
    simp only [processPacket, hCheck]
    exact .ignored hCheck
  | some checked =>
    obtain ⟨header, payload⟩ := checked
    simp only [processPacket, hCheck]
    by_cases hExpects : s.sequence.Expects header.sequence
    · have hResult := (observe_of_expects hExpects).1
      rw [if_neg (by rcases hResult with hResult | hResult <;> rw [hResult] <;> decide)]
      exact .delivered hCheck hExpects
    · rw [if_pos (observe_of_not_expects hExpects)]
      exact .refused hCheck hExpects rfl

theorem checkPacket_of_unhealthy (h : s.sequenceHealthy = false) (packet : Packet) : s.checkPacket packet = none := by
  unfold checkPacket
  split
  · rfl
  · rw [if_pos (.inl (by rw [h]; exact Bool.false_ne_true))]

theorem final_of_unhealthy (h : s.sequenceHealthy = false) (arrivals : List Arrival) :
    final processPacket arrivals (s, ticks) = (s, ticks) := by
  induction arrivals with
  | nil => rfl
  | cons a arrivals ih =>
    have hSame : processPacket a (s, ticks) = (0, s, ticks) := by simp [processPacket, checkPacket_of_unhealthy h]
    rw [final_cons, hSame]
    exact ih

theorem final_poll (bursts : List (List Arrival)) (state : DpdkFeed × TickChannel) :
    final poll bursts state = final processPacket bursts.flatten state := by
  induction bursts generalizing state with
  | nil => rfl
  | cons burst bursts ih =>
    rw [final_cons, ih, flatten_cons, final_append]
    rfl

/-! ## Packets that pass the checks -/

/-- A packet with a well-formed MoldUDP64 payload at the offset the feed is configured for. -/
structure WirePacket (payloadOffset : Nat) where
  packet : Packet
  sequence : UInt64
  messages : List (List UInt8)
  contiguous : packet.contiguous = true
  mapped : packet.mapped = true
  offset_le : payloadOffset ≤ packet.bytes.length
  carries : MoldUdp64.Carries (packet.bytes.drop payloadOffset) sequence messages

variable {payloadOffset : Nat}

theorem checkPacket_wire (w : WirePacket payloadOffset) (hOffset : s.payloadOffset = payloadOffset)
    (h : s.sequenceHealthy = true) :
    s.checkPacket w.packet = some (⟨w.sequence, w.messages.length⟩, w.packet.bytes.drop payloadOffset) := by
  have hSize := w.carries.size
  rw [length_drop, MoldUdp64.kHeaderSize] at hSize
  unfold checkPacket
  rw [hOffset, if_neg (not_not.mpr w.contiguous), if_neg (by rw [h]; simp; omega), if_neg (not_not.mpr w.mapped)]
  simp [w.carries.parseHeader, w.carries.validateMessageBlock]

theorem processPacket_wire (w : WirePacket payloadOffset) (drains : Nat → Nat)
    (ticks : TickChannel) (hOffset : s.payloadOffset = payloadOffset) (h : s.sequenceHealthy = true) :
    (s.sequence.Expects w.sequence → processPacket ⟨w.packet, drains⟩ (s, ticks) =
      ((deliver s.symbols drains w.messages 0 ticks).1,
        { s with sequence := (s.sequence.observe w.sequence).2 }, (deliver s.symbols drains w.messages 0 ticks).2)) ∧
    (¬ s.sequence.Expects w.sequence → (processPacket ⟨w.packet, drains⟩ (s, ticks)).2.1.sequenceHealthy = false) := by
  have hCheck := checkPacket_wire w hOffset h
  have hProcessed := processPacket_processed ⟨w.packet, drains⟩ s ticks
  generalize processPacket ⟨w.packet, drains⟩ (s, ticks) = result at hProcessed ⊢
  cases hProcessed with
  | ignored hNone =>
    rw [hCheck] at hNone
    cases hNone
  | refused hSome hOther hTripped =>
    rw [hCheck] at hSome
    cases hSome
    exact ⟨fun hNext => absurd hNext hOther, fun _ => hTripped⟩
  | delivered hSome hNext =>
    rw [hCheck] at hSome
    cases hSome
    rw [w.carries.messages]
    exact ⟨fun _ => rfl, fun hOther => absurd hNext hOther⟩

/-! ## The decode loop -/

/-- No claim of the loop fails while a message that decodes is left. -/
def Lossless (symbols : SymbolTable) (drains : Nat → Nat) : List (List UInt8) → Nat → TickChannel → Prop
  | [], _, _ => True
  | raw :: rest, k, ticks =>
    if (ticks.drain (drains k)).isFull then ∀ left ∈ raw :: rest, Itch.decodeItch symbols left = none
    else Lossless symbols drains rest (k + 1) (decodeInto symbols raw (ticks.drain (drains k))).2

theorem deliver_committed_iff (symbols : SymbolTable) (drains : Nat → Nat) (messages : List (List UInt8)) (k : Nat)
    (ticks : TickChannel) :
    (deliver symbols drains messages k ticks).2.committed =
      ticks.committed ++ messages.filterMap (Itch.decodeItch symbols) ↔ Lossless symbols drains messages k ticks := by
  induction messages generalizing k ticks with
  | nil => simp [deliver, Lossless]
  | cons raw rest ih =>
    rw [deliver, Lossless]
    by_cases hFull : (ticks.drain (drains k)).isFull = true
    · rw [if_pos hFull, if_pos hFull, Spsc.Channel.committed_drain, self_eq_append_right, filterMap_eq_nil_iff]
    rw [if_neg hFull, if_neg hFull, ← ih, committed_decodeInto (Bool.eq_false_iff.mpr hFull)]
    cases hDecode : Itch.decodeItch symbols raw with
    | none | some => simp [hDecode]

theorem deliver_sublist (drains : Nat → Nat) (messages : List (List UInt8)) (k : Nat) (ticks : TickChannel) :
    (deliver symbols drains messages k ticks).2.committed <+
      ticks.committed ++ messages.filterMap (Itch.decodeItch symbols) := by
  induction messages generalizing k ticks with
  | nil => simp [deliver]
  | cons raw rest ih =>
    rw [deliver]
    split
    next => simp
    next hRoom =>
      have hRest := ih (k + 1) (decodeInto symbols raw (ticks.drain (drains k))).2
      rw [committed_decodeInto (Bool.eq_false_iff.mpr hRoom)] at hRest
      cases hDecode : Itch.decodeItch symbols raw with
      | none | some => simpa [hDecode] using hRest

theorem lossless_of_draining {drains : Nat → Nat} (h : ∀ k, 2 ^ kTickBits ≤ drains k)
    (messages : List (List UInt8)) (k : Nat) (ticks : TickChannel) : Lossless symbols drains messages k ticks := by
  induction messages generalizing k ticks with
  | nil => trivial
  | cons raw rest ih =>
    rw [Lossless, if_neg (by rw [Spsc.Channel.isFull_drain (h k)]; exact Bool.false_ne_true)]
    exact ih _ _

/-! ## No silent loss -/

def owed (a : Arrival) (s : DpdkFeed) : List TickMsg :=
  match s.checkPacket a.packet with
  | none => []
  | some (header, payload) =>
    if s.sequence.Expects header.sequence then (MoldUdp64.messages payload).filterMap (Itch.decodeItch s.symbols)
    else []

variable (arrivals : List Arrival)

def owedAfter (state : DpdkFeed × TickChannel) (before : List TickMsg) : List TickMsg :=
  Run.history processPacket (fun a state _ before => before ++ owed a state.1) arrivals state before

theorem owedAfter_snoc (front : List Arrival) (a : Arrival) (state : DpdkFeed × TickChannel) (before : List TickMsg) :
    owedAfter (front ++ [a]) state before =
      owedAfter front state before ++ owed a (final processPacket front state).1 := by
  rw [owedAfter, history_append]
  rfl

/-- The packet is not accepted, or the ring has room whenever the loop needs it. -/
def Fits (a : Arrival) (state : DpdkFeed × TickChannel) : Prop :=
  match state.1.checkPacket a.packet with
  | none => True
  | some (header, payload) =>
    state.1.sequence.Expects header.sequence → Lossless state.1.symbols a.drains (MoldUdp64.messages payload) 0 state.2

theorem processPacket_committed (a : Arrival) (s : DpdkFeed) (ticks : TickChannel) :
    (Fits a (s, ticks) → (processPacket a (s, ticks)).2.2.committed = ticks.committed ++ owed a s) ∧
    (¬ Fits a (s, ticks) → (processPacket a (s, ticks)).2.1.sequenceHealthy = true ∧
      (processPacket a (s, ticks)).2.2.committed ≠ ticks.committed ++ owed a s) := by
  have hProcessed := processPacket_processed a s ticks
  generalize processPacket a (s, ticks) = result at hProcessed ⊢
  cases hProcessed with
  | ignored hCheck =>
    simp only [Fits, owed, hCheck]
    exact ⟨fun _ => (append_nil _).symm, fun h => absurd trivial h⟩
  | refused hCheck hOther _ =>
    simp only [Fits, owed, hCheck, if_neg hOther]
    exact ⟨fun _ => (append_nil _).symm, fun h => absurd (fun hNext => absurd hNext hOther) h⟩
  | @delivered header payload hCheck hNext =>
    simp only [Fits, owed, hCheck, if_pos hNext]
    have hIff := deliver_committed_iff s.symbols a.drains (MoldUdp64.messages payload) 0 ticks
    refine ⟨fun h => hIff.mpr (h hNext), fun h => ⟨?_, fun hEq => h fun _ => hIff.mp hEq⟩⟩
    change s.sequenceHealthy = true
    by_contra hUnhealthy
    rw [checkPacket_of_unhealthy (Bool.eq_false_iff.mpr hUnhealthy)] at hCheck
    cases hCheck

theorem processPacket_sublist (a : Arrival) (s : DpdkFeed) (ticks : TickChannel) :
    (processPacket a (s, ticks)).2.2.committed <+ ticks.committed ++ owed a s := by
  have hProcessed := processPacket_processed a s ticks
  generalize processPacket a (s, ticks) = result at hProcessed ⊢
  cases hProcessed with
  | ignored | refused => exact sublist_append_left _ _
  | delivered hCheck hNext =>
    simp only [owed, hCheck, if_pos hNext]
    exact deliver_sublist ..

theorem final_sublist {state : DpdkFeed × TickChannel} {before : List TickMsg}
    (h : state.2.committed <+ before) :
    (final processPacket arrivals state).2.committed <+ owedAfter arrivals state before := by
  induction arrivals generalizing state before with
  | nil => exact h
  | cons a arrivals ih => exact ih ((processPacket_sublist a _ _).trans (h.append_right _))

/-- No tick is made up, doubled or out of order, however slowly the ring is drained. -/
theorem polls_sublist (bursts : List (List Arrival)) (state : DpdkFeed × TickChannel) :
    (final poll bursts state).2.committed <+ owedAfter bursts.flatten state state.2.committed := by
  rw [final_poll]
  exact final_sublist _ (.refl _)

theorem complete_iff (state : DpdkFeed × TickChannel) (before : List TickMsg)
    (hBefore : state.2.committed = before) :
    (∀ front, front <+: arrivals → (final processPacket front state).1.sequenceHealthy = true →
      (final processPacket front state).2.committed = owedAfter front state before) ↔
    Run.Always processPacket Fits arrivals state := by
  induction arrivals generalizing state before with
  | nil =>
    constructor
    · exact fun _ => trivial
    intro _ front hFront _
    obtain rfl := prefix_nil.mp hFront
    exact hBefore
  | cons a arrivals ih =>
    obtain ⟨s, ticks⟩ := state
    obtain ⟨hFits, hLoses⟩ := processPacket_committed a s ticks
    constructor
    · intro hAll
      have hStep : Fits a (s, ticks) := by
        by_contra hNot
        obtain ⟨hHealthy, hNe⟩ := hLoses hNot
        refine hNe ?_
        have hFirst := hAll [a] (prefix_append [a] _) hHealthy
        rw [hBefore]
        exact hFirst
      refine ⟨hStep, (ih _ _ ((hFits hStep).trans (by rw [hBefore]))).mp fun front hFront hHealthy => ?_⟩
      exact hAll _ (cons_prefix_cons.mpr ⟨rfl, hFront⟩) hHealthy
    · rintro ⟨hStep, hRest⟩ front hFront hHealthy
      have hNext := (ih _ _ ((hFits hStep).trans (by rw [hBefore]))).mpr hRest
      cases front with
      | nil => exact hBefore
      | cons b front =>
        obtain ⟨rfl, hTail⟩ := cons_prefix_cons.mp hFront
        exact hNext front hTail hHealthy

/-- A feed that is healthy has committed every message that the accepted packets carry and the decoder
takes, at every point of every run, iff at every packet the ring has room when the loop needs it. -/
theorem noSilentLoss_iff (payloadOffset : Nat) (symbols : SymbolTable) (slots : Nat → TickMsg)
    (arrivals : List Arrival) :
    (∀ front, front <+: arrivals →
      (Run.final processPacket front ({ payloadOffset, symbols }, .new slots)).1.sequenceHealthy = true →
      (Run.final processPacket front ({ payloadOffset, symbols }, .new slots)).2.committed =
        owedAfter front ({ payloadOffset, symbols }, .new slots) []) ↔
    Run.Always processPacket Fits arrivals ({ payloadOffset, symbols }, .new slots) :=
  complete_iff _ _ [] (Spsc.Channel.committed_new _)

/-! ### A ring that nobody drains -/

def deleteMessage : List UInt8 := [Itch.kOrderDelete, 0, 3, 0, 0, 0, 0, 0, 0, 0, 1, 0, 0, 0, 0, 0, 0, 0, 7]

def deletePacket (sequence : UInt64) : WirePacket 42 where
  packet := ⟨true, true, List.replicate 42 0 ++ MoldUdp64.encode sequence [deleteMessage]⟩
  sequence := sequence
  messages := [deleteMessage]
  contiguous := rfl
  mapped := rfl
  offset_le := by simp
  carries := by
    rw [drop_left' (length_replicate ..)]
    exact MoldUdp64.encode_carries sequence (by decide) (by decide)

theorem deleteMessage_decodes : ∃ tick, Itch.decodeItch .empty deleteMessage = some tick := by
  rw [← Option.isSome_iff_exists]
  decide

def undrained (k : Nat) : Arrival := ⟨(deletePacket (.ofNat k)).packet, fun _ => 0⟩

structure Filled (k : Nat) (s : DpdkFeed) (ticks : TickChannel) : Prop where
  healthy : s.sequenceHealthy = true
  offset : s.payloadOffset = 42
  symbols : s.symbols = .empty
  expects : s.sequence.Expects (.ofNat k)
  taken : ticks.taken = []
  stored : ticks.ring.contents.length = min k (2 ^ kTickBits)

theorem deliver_deleteMessage (ticks : TickChannel) :
    (deliver .empty (fun _ => 0) [deleteMessage] 0 ticks).2.taken = ticks.taken ∧
    (deliver .empty (fun _ => 0) [deleteMessage] 0 ticks).2.ring.contents.length =
      min (ticks.ring.contents.length + 1) (2 ^ kTickBits) := by
  obtain ⟨tick, hTick⟩ := deleteMessage_decodes
  have hLe := ticks.ring.length_contents_le
  have hDeliver : deliver .empty (fun _ => 0) [deleteMessage] 0 ticks = if ticks.isFull then (0, ticks)
      else ((decodeInto .empty deleteMessage ticks).1 + 0, (decodeInto .empty deleteMessage ticks).2) := rfl
  rw [hDeliver]
  by_cases hFull : ticks.isFull = true
  · rw [if_pos hFull, (Spsc.Ring.isFull_iff _).mp hFull]
    exact ⟨rfl, (min_eq_right (Nat.le_succ _)).symm⟩
  obtain ⟨ticks', hPush, hTaken, hContents⟩ := Spsc.Channel.tryPush_of_room (Bool.eq_false_iff.mpr hFull) tick
  have hShort : ticks.ring.contents.length ≠ 2 ^ kTickBits := fun hEq => hFull ((Spsc.Ring.isFull_iff _).mpr hEq)
  rw [if_neg hFull]
  simp only [decodeInto, hTick, hPush]
  refine ⟨hTaken, ?_⟩
  rw [hContents, length_append, length_singleton, min_eq_left (by omega)]

theorem Filled.step {k : Nat} (h : Filled k s ticks) :
    Filled (k + 1) (processPacket (undrained k) (s, ticks)).2.1 (processPacket (undrained k) (s, ticks)).2.2 ∧
    (owed (undrained k) s).length = 1 := by
  obtain ⟨tick, hTick⟩ := deleteMessage_decodes
  have hProcess := (processPacket_wire (deletePacket (.ofNat k)) (fun _ => 0) ticks h.offset h.healthy).1 h.expects
  have hTracker := observe_of_expects h.expects
  have hDelivered := deliver_deleteMessage ticks
  have hCheck := checkPacket_wire (deletePacket (.ofNat k)) h.offset h.healthy
  constructor
  · rw [show processPacket (undrained k) (s, ticks) = _ from hProcess, h.symbols,
      show (deletePacket (.ofNat k)).messages = [deleteMessage] from rfl]
    refine ⟨h.healthy, h.offset, rfl, fun _ => ?_, hDelivered.1.trans h.taken, ?_⟩
    · rw [UInt64.ofNat_add]
      exact hTracker.2.2.symm
    · rw [hDelivered.2, h.stored]
      omega
  · have hOwed : owed (undrained k) s = [deleteMessage].filterMap (Itch.decodeItch .empty) := by
      simp only [owed, show (undrained k).packet = (deletePacket (.ofNat k)).packet from rfl, hCheck]
      rw [if_pos (show s.sequence.Expects (deletePacket (.ofNat k)).sequence from h.expects),
        (deletePacket (.ofNat k)).carries.messages, h.symbols]
      rfl
    rw [hOwed]
    rfl

theorem filled_after (count : Nat) :
    Filled count (final processPacket ((List.range count).map undrained) ({ symbols := .empty }, .new fun _ => {})).1
      (final processPacket ((List.range count).map undrained) ({ symbols := .empty }, .new fun _ => {})).2 ∧
    (owedAfter ((List.range count).map undrained) ({ symbols := .empty }, .new fun _ => {}) []).length = count := by
  induction count with
  | zero => exact ⟨⟨rfl, rfl, rfl, nofun, rfl, rfl⟩, rfl⟩
  | succ count ih =>
    obtain ⟨hFilled, hOwed⟩ := ih
    obtain ⟨hStep, hOne⟩ := hFilled.step
    rw [range_succ, map_append, map_singleton, final_append, owedAfter_snoc, length_append, hOwed, hOne]
    exact ⟨hStep, rfl⟩

/-- One packet more than the ring has slots, and nobody drains it: the feed is healthy and has lost a
message that it accepted. -/
theorem undrained_loses_silently : (Run.final processPacket ((List.range 4194305).map undrained)
      ({ symbols := .empty }, .new fun _ => {})).1.sequenceHealthy = true ∧
    (Run.final processPacket ((List.range 4194305).map undrained)
      ({ symbols := .empty }, .new fun _ => {})).2.committed.length = 4194304 ∧
    (owedAfter ((List.range 4194305).map undrained) ({ symbols := .empty }, .new fun _ => {}) []).length = 4194305 := by
  obtain ⟨hFilled, hOwed⟩ := filled_after 4194305
  refine ⟨hFilled.healthy, ?_, hOwed⟩
  rw [Spsc.Channel.committed, hFilled.taken, nil_append, hFilled.stored]
  decide

end LuvFlicker.DpdkFeed
