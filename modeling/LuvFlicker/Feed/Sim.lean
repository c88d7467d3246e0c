import LuvFlicker.Feed.Generator
import LuvFlicker.Lib.Spsc

/-!
# The simulated feed

`SimFeedSource` in its two modes. A poll in synthetic mode takes the next message of
the generated buffer; in replay mode it reads the next one of a file of length-
prefixed messages.
-/

namespace LuvFlicker

open Bytes

namespace Config

def kTickBits : Nat := 22

end Config

/-- The tick ring with what its consumer has taken. -/
abbrev TickChannel := Spsc.Channel TickMsg Config.kTickBits

def TickChannel.new (slots : Nat → TickMsg) : TickChannel := Spsc.Channel.new slots (by decide)

def decodeInto (symbols : SymbolTable) (raw : List UInt8) (ticks : TickChannel) : Nat × TickChannel :=
  match Itch.decodeItch symbols raw with
  | none => (0, ticks)
  | some tick =>
    match ticks.tryPush tick with
    | none => (0, ticks)
    | some ticks => (1, ticks)

theorem committed_decodeInto {ticks : TickChannel} (hRoom : ticks.isFull = false) (symbols : SymbolTable)
    (raw : List UInt8) :
    (decodeInto symbols raw ticks).2.committed = ticks.committed ++ (Itch.decodeItch symbols raw).toList := by
  unfold decodeInto
  cases Itch.decodeItch symbols raw with
  | none => exact (List.append_nil _).symm
  | some tick =>
    obtain ⟨_, hPush, _⟩ := Spsc.Channel.tryPush_of_room hRoom tick
    simp only [hPush]
    exact Spsc.Channel.committed_push hPush

structure Pacing where
  nsPerMsg : UInt64
  lastEmitNs : UInt64
  messagesSinceBurst : UInt32 := 0
  burstRemaining : UInt32 := 0

namespace Pacing

def init (cfg : SimConfig) (nowNs : UInt64) : Pacing where
  nsPerMsg := if cfg.targetRateHz > 0 then 1000000000 / cfg.targetRateHz else 0
  lastEmitNs := nowNs

def pass (pacing : Pacing) (nowNs : UInt64) : Option Pacing :=
  if pacing.burstRemaining = 0 ∧ pacing.nsPerMsg > 0 then
    if nowNs - pacing.lastEmitNs < pacing.nsPerMsg then none else some { pacing with lastEmitNs := nowNs }
  else some pacing

def noteAttempt (cfg : SimConfig) (pacing : Pacing) : Pacing :=
  if pacing.burstRemaining ≠ 0 then { pacing with burstRemaining := pacing.burstRemaining - 1 }
  else if cfg.burstSize > 0 ∧ cfg.burstInterval > 0 then
    if pacing.messagesSinceBurst + 1 ≥ cfg.burstInterval then
      { pacing with messagesSinceBurst := 0, burstRemaining := cfg.burstSize }
    else { pacing with messagesSinceBurst := pacing.messagesSinceBurst + 1 }
  else pacing

end Pacing

structure SimFeed where
  cfg : SimConfig
  symbols : SymbolTable
  rng : Xoshiro256
  prebuf : List (List UInt8) := []
  prebufIdx : Nat := 0
  pendingIdx : List Nat := []
  reorderCapacity : Nat := 0
  reorderSourceRemaining : Nat := 0
  pacing : Pacing
  replay : List UInt8 := []
  replayCursor : Nat := 0

/-- What happens around one poll: the clock it reads, and how many ticks the consumer takes before it
and between its look at the fill level and its claim of a slot. -/
structure Poll where
  nowNs : UInt64
  drained : Nat
  meanwhile : Nat

namespace SimFeed

/-! ## Initialisation -/

def initSynthetic (cfg : SimConfig) (nowNs : UInt64) : Option SimFeed :=
  if cfg.prebufCount = 0 then none
  else
    match cfg.generateSyntheticMessages with
    | none => none
    | some (messages, rng) =>
      some
        { cfg := cfg
          symbols := .ofInserts cfg.entries
          rng := rng
          prebuf := messages
          reorderCapacity :=
            if cfg.reorderWindow < cfg.prebufCount then cfg.reorderWindow.toNat else cfg.prebufCount.toNat
          pacing := .init cfg nowNs }

def initReplay (cfg : SimConfig) (file : List UInt8) (nowNs : UInt64) : Option SimFeed :=
  if file = [] then none
  else
    some { cfg := cfg, symbols := .empty, rng := .ofSeed 0, pacing := .init cfg nowNs, replay := file }

def init (cfg : SimConfig) (file : List UInt8) (nowNs : UInt64) : Option SimFeed :=
  if ¬ (0 ≤ cfg.dropRate ∧ cfg.dropRate ≤ 1) then none
  else
    match cfg.mode with
    | .kSynthetic => initSynthetic cfg nowNs
    | .kReplay => initReplay cfg file nowNs

/-! ## Polling -/

variable (s : SimFeed)

def noteAttempt : SimFeed := { s with pacing := s.pacing.noteAttempt s.cfg }

def shouldDrop : Bool × SimFeed :=
  if s.cfg.dropRate ≤ 0 then (false, s)
  else if s.cfg.dropRate ≥ 1 then (true, s)
  else
    let drawn := s.rng.below 1000
    ((drawn.1.toNat : ℚ) < s.cfg.dropRate * 1000, { s with rng := drawn.2 })

def advanceIdx : SimFeed := { s with prebufIdx := (s.prebufIdx + 1) % s.prebuf.length }

def fillPending : Nat → SimFeed → SimFeed
  | 0, s => s
  | count + 1, s => fillPending count { s.advanceIdx with pendingIdx := s.pendingIdx ++ [s.prebufIdx] }

def nextSyntheticIndex : Nat × SimFeed :=
  if s.reorderCapacity = 0 then (s.prebufIdx, s.advanceIdx)
  else
    let s :=
      if s.pendingIdx = [] then
        { fillPending s.reorderCapacity s with reorderSourceRemaining := s.prebuf.length - s.reorderCapacity }
      else if s.reorderSourceRemaining ≠ 0 then
        { fillPending 1 s with reorderSourceRemaining := s.reorderSourceRemaining - 1 }
      else s
    let drawn := s.rng.below (.ofNat s.pendingIdx.length)
    let choice := drawn.1.toNat
    let last := s.pendingIdx.getLastD 0
    (s.pendingIdx.getD choice 0, { s with rng := drawn.2, pendingIdx := (s.pendingIdx.set choice last).dropLast })

def takeSynthetic (p : Poll) (s : SimFeed) (ticks : TickChannel) : Nat × SimFeed × TickChannel :=
  let (sourceIdx, s) := s.nextSyntheticIndex
  let raw := s.prebuf.getD sourceIdx []
  let (drop, s) := s.noteAttempt.shouldDrop
  if drop then (0, s, ticks)
  else
    let ticks := ticks.drain p.meanwhile
    if ticks.isFull then (0, s, ticks)
    else
      let (count, ticks) := decodeInto s.symbols raw ticks
      (count, s, ticks)

def seek (cursor : Nat) : SimFeed := { s with replayCursor := cursor }

def startOver : SimFeed := if s.replayCursor + 2 > s.replay.length then s.seek 0 else s

def takeReplay (p : Poll) (s : SimFeed) (ticks : TickChannel) : Nat × SimFeed × TickChannel :=
  let s := s.startOver
  if s.replayCursor + 2 > s.replay.length then (0, s, ticks)
  else
    let msgLen := beField s.replay s.replayCursor 2
    if msgLen = 0 ∨ s.replayCursor + 2 + msgLen > s.replay.length then (0, s.seek 0, ticks)
    else
      let raw := (s.replay.drop (s.replayCursor + 2)).take msgLen
      let next := s.replayCursor + 2 + msgLen
      let (drop, s) := s.noteAttempt.shouldDrop
      if drop then (0, s.seek next, ticks)
      else
        let ticks := ticks.drain p.meanwhile
        if ticks.isFull then (0, s, ticks)
        else
          let (count, ticks) := decodeInto s.symbols raw ticks
          (count, s.seek next, ticks)

def gate (take : Poll → SimFeed → TickChannel → Nat × SimFeed × TickChannel) (p : Poll) (s : SimFeed)
    (ticks : TickChannel) : Nat × SimFeed × TickChannel :=
  let ticks := ticks.drain p.drained
  match s.pacing.pass p.nowNs with
  | none => (0, s, ticks)
  | some pacing =>
    let s := { s with pacing := pacing }
    if ticks.isFull then (0, s, ticks) else take p s ticks

def pollSynthetic : Poll → SimFeed → TickChannel → Nat × SimFeed × TickChannel := gate takeSynthetic

def pollReplay : Poll → SimFeed → TickChannel → Nat × SimFeed × TickChannel := gate takeReplay

def poll (p : Poll) (state : SimFeed × TickChannel) : Nat × SimFeed × TickChannel :=
  match state.1.cfg.mode with
  | .kSynthetic => pollSynthetic p state.1 state.2
  | .kReplay => pollReplay p state.1 state.2

end SimFeed

end LuvFlicker
