import LuvFlicker.Feed.Delivery

/-!
# Unbroken streams

In an unbroken MoldUDP64 stream the sequence number of a packet is that of its
predecessor plus the number of messages there. The tracker of the feed counts
packets instead, so the two agree as long as every packet carries one message.
-/

namespace LuvFlicker.DpdkFeed

open List

structure StreamPacket (payloadOffset : Nat) extends WirePacket payloadOffset where
  drains : Nat → Nat
  draining : ∀ k, 2 ^ Config.kTickBits ≤ drains k

variable {payloadOffset : Nat} {s : DpdkFeed} {ticks : TickChannel} {symbols : SymbolTable}

def StreamPacket.arrival (w : StreamPacket payloadOffset) : Arrival := ⟨w.packet, w.drains⟩

section

variable (stream : List (StreamPacket payloadOffset))

/-- Every packet continues where its predecessor ended. -/
def GapFree : Prop :=
  stream.IsChain fun w v => v.sequence = w.sequence + .ofNat w.messages.length

instance : Decidable (GapFree stream) :=
  inferInstanceAs (Decidable (stream.IsChain _))

end

def streamTicks (symbols : SymbolTable) (stream : List (StreamPacket payloadOffset)) : List TickMsg :=
  stream.flatMap fun w => w.messages.filterMap (Itch.decodeItch symbols)

def afterStream (symbols : SymbolTable) (slots : Nat → TickMsg) (stream : List (StreamPacket payloadOffset)) :
    DpdkFeed × TickChannel :=
  Run.final processPacket (stream.map StreamPacket.arrival) ({ payloadOffset, symbols }, .new slots)

structure Ready (payloadOffset : Nat) (symbols : SymbolTable) (stream : List (StreamPacket payloadOffset))
    (s : DpdkFeed) : Prop where
  healthy : s.sequenceHealthy = true
  offset : s.payloadOffset = payloadOffset
  symbols_eq : s.symbols = symbols
  expects : ∀ w ∈ stream.head?, s.sequence.Expects w.sequence

variable {w v : StreamPacket payloadOffset} {stream : List (StreamPacket payloadOffset)}

open StreamPacket

theorem Ready.step (h : Ready payloadOffset symbols (w :: stream) s) (ticks : TickChannel) :
    ∃ s', (processPacket w.arrival (s, ticks)).2.1 = s' ∧ s'.sequenceHealthy = true ∧
      s'.payloadOffset = payloadOffset ∧ s'.symbols = symbols ∧ s'.sequence.initialized = true ∧
      s'.sequence.next = w.sequence + 1 ∧
      (processPacket w.arrival (s, ticks)).2.2.committed =
        ticks.committed ++ w.messages.filterMap (Itch.decodeItch symbols) := by
  have hExpects := h.expects w rfl
  have hProcess := (processPacket_wire _ w.drains ticks h.offset h.healthy).1 hExpects
  obtain ⟨_, hInit, hNext⟩ := SequenceTracker.observe_of_expects hExpects
  rw [arrival, hProcess]
  refine ⟨_, rfl, h.healthy, h.offset, h.symbols_eq, hInit, hNext, ?_⟩
  rw [h.symbols_eq]
  exact (deliver_committed_iff _ _ _ 0 _).mpr (lossless_of_draining w.draining _ _ _)

theorem count_eq_one_iff (hCount : w.messages.length < 256 ^ 2) :
    w.sequence + .ofNat w.messages.length = w.sequence + 1 ↔ w.messages.length = 1 := by
  rw [UInt64.add_right_inj, ← UInt64.toNat_inj]
  change w.messages.length % 2 ^ 64 = 1 ↔ _
  omega

theorem StreamPacket.count_lt (w : StreamPacket payloadOffset) : w.messages.length < 256 ^ 2 := by
  rw [← w.carries.count_eq]
  exact Bytes.beField_lt _

section

variable (h : Ready payloadOffset symbols stream s) (hChain : GapFree stream)
include h hChain

theorem Ready.delivers (hOne : ∀ w ∈ stream.dropLast, w.messages.length = 1) (ticks : TickChannel) :
    (Run.final processPacket (stream.map arrival) (s, ticks)).1.sequenceHealthy = true ∧
    (Run.final processPacket (stream.map arrival) (s, ticks)).2.committed =
      ticks.committed ++ streamTicks symbols stream := by
  induction stream generalizing s ticks with
  | nil => exact ⟨h.healthy, (append_nil _).symm⟩
  | cons w stream ih =>
    obtain ⟨s', hState, hHealthy, hOffset, hSymbols, _, hNext, hCommitted⟩ := h.step _
    have hReady : Ready payloadOffset symbols stream s' := by
      refine ⟨hHealthy, hOffset, hSymbols, fun v hv _ => ?_⟩
      cases stream with
      | nil => cases hv
      | cons v' stream =>
        obtain rfl := Option.some.inj hv
        rw [hNext, (isChain_cons_cons.mp hChain).1, count_eq_one_iff w.count_lt]
        exact hOne w mem_cons_self
    have hRest : ∀ v ∈ stream.dropLast, v.messages.length = 1 := by
      intro v hv
      cases stream with
      | nil => cases hv
      | cons v' stream => exact hOne v (mem_cons_of_mem _ hv)
    have hTail : GapFree stream := List.IsChain.tail hChain
    obtain ⟨hEnd, hTicks⟩ := ih hReady hTail hRest _
    rw [← hState] at hEnd hTicks
    refine ⟨hEnd, hTicks.trans ?_⟩
    rw [hCommitted, append_assoc]
    rfl

theorem Ready.trips (hOther : ∃ w ∈ stream.dropLast, w.messages.length ≠ 1) (ticks : TickChannel) :
    (Run.final processPacket (stream.map arrival) (s, ticks)).1.sequenceHealthy = false := by
  induction stream generalizing s ticks with
  | nil =>
    obtain ⟨w, hMem, _⟩ := hOther
    cases hMem
  | cons w stream ih =>
    obtain ⟨s', hState, hHealthy, hOffset, hSymbols, hInit, hNext, _⟩ := h.step _
    cases stream with
    | nil =>
      obtain ⟨w, hMem, _⟩ := hOther
      cases hMem
    | cons v stream =>
      obtain ⟨hSequence, hTail⟩ := isChain_cons_cons.mp hChain
      rw [map_cons, Run.final_cons]
      generalize hResult : (processPacket w.arrival (s, ticks)).2 = result at hState ⊢
      obtain ⟨s'', ticks'⟩ := result
      obtain rfl : s'' = s' := hState
      by_cases hOne : w.messages.length = 1
      · refine ih ⟨hHealthy, hOffset, hSymbols, fun _ hv _ => ?_⟩ hTail ?_ _
        · obtain rfl := Option.some.inj hv
          rw [hNext, hSequence, count_eq_one_iff w.count_lt]
          exact hOne
        obtain ⟨u, hMem, hu⟩ := hOther
        rcases mem_cons.mp hMem with rfl | hMem
        · exact absurd hOne hu
        · exact ⟨u, hMem, hu⟩
      · have hUnexpected : ¬ s''.sequence.Expects v.sequence := by
          intro hExpects
          rw [SequenceTracker.Expects, hNext, hSequence, count_eq_one_iff w.count_lt] at hExpects
          exact hOne (hExpects hInit)
        have hTripped := (processPacket_wire _ v.drains ticks' hOffset hHealthy).2 hUnexpected
        rw [map_cons, Run.final_cons]
        generalize hAfter : (processPacket v.arrival (s'', ticks')).2 = after
        obtain ⟨s₂, _⟩ := after
        have hOpen : s₂.sequenceHealthy = false := by
          rw [show processPacket ⟨v.packet, v.drains⟩ (s'', ticks') = processPacket v.arrival (s'', ticks') from rfl,
            hAfter] at hTripped
          exact hTripped
        rw [final_of_unhealthy hOpen]
        exact hOpen

end

/-- At every point of an unbroken stream the feed is healthy and has committed every message that the
decoder takes, in order and once, iff every packet but the last carries exactly one message. -/
theorem stream_delivered_iff (symbols : SymbolTable) (slots : Nat → TickMsg)
    (stream : List (StreamPacket payloadOffset)) (hGapFree : GapFree stream) :
    (∀ front, front <+: stream → (afterStream symbols slots front).1.sequenceHealthy = true ∧
      (afterStream symbols slots front).2.committed = streamTicks symbols front) ↔
    ∀ w ∈ stream.dropLast, w.messages.length = 1 := by
  have hReady : ∀ front, Ready payloadOffset symbols front { payloadOffset, symbols } :=
    fun front => ⟨rfl, rfl, rfl, fun w _ hInit => by cases hInit⟩
  constructor
  · intro hAll
    by_contra hNot
    simp only [not_forall] at hNot
    obtain ⟨w, hMem, hOther⟩ := hNot
    have hTripped := (hReady _).trips hGapFree ⟨w, hMem, hOther⟩ (.new slots)
    rw [show Run.final processPacket _ _ = afterStream symbols slots stream from rfl,
      (hAll _ (prefix_refl _)).1] at hTripped
    cases hTripped
  · intro hOne front hFront
    have hChain : GapFree front := List.IsChain.prefix hGapFree hFront
    have hFrontOne : ∀ w ∈ front.dropLast, w.messages.length = 1 := by
      intro w hMem
      obtain ⟨rest, rfl⟩ := hFront
      cases rest with
      | nil => exact hOne w (by rwa [append_nil])
      | cons v rest =>
        refine hOne w ?_
        rw [dropLast_append_of_ne_nil (cons_ne_nil v rest)]
        exact mem_append_left _ (mem_of_mem_dropLast hMem)
    obtain ⟨hHealthy, hCommitted⟩ := (hReady _).delivers hChain hFrontOne _
    rw [show Spsc.Channel.committed (TickChannel.new slots) = [] from Spsc.Channel.committed_new _] at hCommitted
    exact ⟨hHealthy, hCommitted⟩

def deletes (sequence : UInt64) (count : Nat) (hCount : count < 256 ^ 2) : StreamPacket 42 where
  packet := ⟨true, true, List.replicate 42 0 ++ MoldUdp64.encode sequence (List.replicate count deleteMessage)⟩
  sequence := sequence
  messages := List.replicate count deleteMessage
  contiguous := rfl
  mapped := rfl
  offset_le := by simp
  carries := by
    rw [drop_left' (length_replicate ..)]
    refine MoldUdp64.encode_carries sequence (by rwa [length_replicate]) fun raw hMem => ?_
    rw [eq_of_mem_replicate hMem]
    decide
  drains := fun _ => 2 ^ Config.kTickBits
  draining := fun _ => le_refl _

/-- Two packets of one message each arrive completely. -/
theorem stream_delivered_singles :
    (afterStream .empty (fun _ => {}) [deletes 1 1 (by decide), deletes 2 1 (by decide)]).1.sequenceHealthy = true ∧
    (afterStream .empty (fun _ => {}) [deletes 1 1 (by decide), deletes 2 1 (by decide)]).2.committed =
      streamTicks .empty [deletes 1 1 (by decide), deletes 2 1 (by decide)] :=
  (stream_delivered_iff .empty (fun _ => {}) _ (by decide)).mpr (by decide) _ (prefix_refl _)

/-- A packet of two messages and its successor, which the tracker takes for a gap. -/
theorem pair_not_delivered : GapFree [deletes 1 2 (by decide), deletes 3 1 (by decide)] ∧
    (afterStream .empty (fun _ => {}) [deletes 1 2 (by decide), deletes 3 1 (by decide)]).1.sequenceHealthy = false ∧
    (afterStream .empty (fun _ => {}) [deletes 1 2 (by decide), deletes 3 1 (by decide)]).2.committed.length = 2 ∧
    (streamTicks .empty [deletes 1 2 (by decide), deletes 3 1 (by decide)]).length = 3 := by
  decide +kernel

end LuvFlicker.DpdkFeed
