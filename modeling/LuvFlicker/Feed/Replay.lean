import LuvFlicker.Feed.Sim
import LuvFlicker.Lib.Run

/-!
# Replaying a recorded feed

The messages of a synthetic source, written to a file with their lengths, are read
back one by one in the same order.
-/

namespace LuvFlicker

open Bytes Option Itch Spsc.Channel List

namespace SimFeed

/-! ## The two sources side by side -/

structure Mirrors (messages : List (List UInt8)) (table : SymbolTable) (i : Nat) (s r : SimFeed) : Prop where
  mode : s.cfg.mode = .kSynthetic
  cfg : r.cfg = { s.cfg with mode := .kReplay }
  drop : s.cfg.dropRate = 0
  reorder : s.reorderCapacity = 0
  symbols : s.symbols = table
  noSymbols : r.symbols = .empty
  prebuf : s.prebuf = messages
  idx : s.prebufIdx = i
  lt : i < messages.length
  file : r.replay = framed messages
  cursor : r.replayCursor = framedOffset messages i ∨ (i = 0 ∧ r.replayCursor = (framed messages).length)
  pacing : r.pacing = s.pacing

variable {messages : List (List UInt8)} {table : SymbolTable} {i : Nat} {s r : SimFeed}

section

variable (h : Mirrors messages table i s r)
include h

theorem Mirrors.withPacing (pacing : Pacing) :
    Mirrors messages table i { s with pacing := pacing } { r with pacing := pacing } :=
  { h with pacing := rfl }

omit h in
theorem shouldDrop_off (h : s.cfg.dropRate = 0) : s.shouldDrop = (false, s) := if_pos h.le

theorem Mirrors.startOver (hLength : (messages.get ⟨i, h.lt⟩).length < 256 ^ 2) :
    r.startOver = r.seek (framedOffset messages i) := by
  obtain ⟨_, _, _⟩ := framed_reads h.lt hLength
  have hFile := congrArg length h.file
  rcases h.cursor with hAt | ⟨rfl, hAt⟩
  · rw [SimFeed.startOver, if_neg (by omega), ← hAt]
    rfl
  · rw [SimFeed.startOver, if_pos (by omega)]
    rfl

theorem Mirrors.advance : Mirrors messages table ((i + 1) % messages.length) s.advanceIdx
      (r.seek (framedOffset messages i + 2 + (messages.get ⟨i, h.lt⟩).length)) := by
  have hLt := h.lt
  have hMod : (i + 1) % messages.length < messages.length := Nat.mod_lt _ (by omega)
  refine { h with idx := ?_, lt := hMod, cursor := ?_ }
  · change (s.prebufIdx + 1) % s.prebuf.length = _
    rw [h.idx, h.prebuf]
  rw [← framedOffset_succ h.lt]
  rcases lt_or_ge (i + 1) messages.length with hMore | _
  · rw [Nat.mod_eq_of_lt hMore]
    exact .inl rfl
  · have hEnd : i + 1 = messages.length := by omega
    rw [hEnd]
    exact .inr ⟨Nat.mod_self _, framedOffset_length⟩

end

inductive Polled (messages : List (List UInt8)) (table : SymbolTable) (i : Nat) (s : SimFeed) (p : Poll)
    (ticks : TickChannel) : Nat × SimFeed × TickChannel → Nat × SimFeed × TickChannel → Prop
  | held {s' r' : SimFeed} (hHeld : s.pacing.pass p.nowNs = none ∨ (ticks.drain p.drained).isFull = true)
      (hNext : Mirrors messages table i s' r') :
      Polled messages table i s p ticks (0, s', ticks.drain p.drained) (0, r', ticks.drain p.drained)
  | emitted {s' r' : SimFeed} {ticks' : TickChannel} (hRoom : ticks'.isFull = false)
      (hSame : ticks'.committed = ticks.committed)
      (hNext : Mirrors messages table ((i + 1) % messages.length) s' r') :
      Polled messages table i s p ticks
        ((decodeInto table (messages.getD i []) ticks').1, s', (decodeInto table (messages.getD i []) ticks').2)
        ((decodeInto .empty (messages.getD i []) ticks').1, r', (decodeInto .empty (messages.getD i []) ticks').2)

variable {ticks : TickChannel}

section

variable (h : Mirrors messages table i s r)
include h

theorem takeSynthetic_eq (p : Poll) (hRoom : ticks.isFull = false) : takeSynthetic p s ticks =
      ((decodeInto table (messages.getD i []) (ticks.drain p.meanwhile)).1, s.advanceIdx.noteAttempt,
        (decodeInto table (messages.getD i []) (ticks.drain p.meanwhile)).2) := by
  have hIndex : s.nextSyntheticIndex = (i, s.advanceIdx) := by rw [nextSyntheticIndex, if_pos h.reorder, h.idx]
  have hDrop : s.advanceIdx.noteAttempt.shouldDrop = (false, s.advanceIdx.noteAttempt) := shouldDrop_off h.drop
  have hStill := isFull_drain_of_room hRoom p.meanwhile
  have hSymbols : s.advanceIdx.noteAttempt.symbols = table := h.symbols
  have hPrebuf : s.advanceIdx.prebuf = messages := h.prebuf
  simp [takeSynthetic, hIndex, hDrop, hStill, hSymbols, hPrebuf]

theorem takeReplay_eq (hLength : (messages.get ⟨i, h.lt⟩).length < 256 ^ 2)
    (hPos : 0 < (messages.get ⟨i, h.lt⟩).length) (p : Poll) (hRoom : ticks.isFull = false) :
    takeReplay p r ticks = ((decodeInto .empty (messages.get ⟨i, h.lt⟩) (ticks.drain p.meanwhile)).1,
        r.noteAttempt.seek (framedOffset messages i + 2 + (messages.get ⟨i, h.lt⟩).length),
        (decodeInto .empty (messages.get ⟨i, h.lt⟩) (ticks.drain p.meanwhile)).2) := by
  obtain ⟨hLen, hRaw, _⟩ := framed_reads h.lt hLength
  have hStill := isFull_drain_of_room hRoom p.meanwhile
  have hNext : ∀ cursor, (r.seek (framedOffset messages i)).noteAttempt.seek cursor = r.noteAttempt.seek cursor :=
    fun _ => rfl
  have hFile : (r.seek (framedOffset messages i)).replay = framed messages := h.file
  have hAt : (r.seek (framedOffset messages i)).replayCursor = framedOffset messages i := rfl
  have hSymbols : (r.seek (framedOffset messages i)).noteAttempt.symbols = .empty := h.noSymbols
  have hDrop : (r.seek (framedOffset messages i)).noteAttempt.shouldDrop =
      (false, (r.seek (framedOffset messages i)).noteAttempt) :=
    shouldDrop_off ((congrArg _ h.cfg).trans h.drop)
  rw [takeReplay, h.startOver hLength]
  simp only [hFile, hAt, hLen, hRaw, hDrop, hStill, hSymbols, hNext, Bool.false_eq_true, if_false]
  rw [if_neg (by omega), if_neg (by omega)]

theorem poll_polled (hMessages : ∀ raw ∈ messages, SimConfig.Generated raw)
    (p : Poll) (ticks : TickChannel) : Polled messages table i s p ticks (poll p (s, ticks)) (poll p (r, ticks)) := by
  have hGenerated := hMessages _ (get_mem _ ⟨i, h.lt⟩)
  have hGet : messages.get ⟨i, h.lt⟩ = messages.getD i [] := by simp [h.lt]
  have hMode : r.cfg.mode = .kReplay := congrArg _ h.cfg
  simp only [poll, h.mode, hMode, pollSynthetic, pollReplay, gate, h.pacing]
  cases hPass : s.pacing.pass p.nowNs with
  | none => exact .held (.inl hPass) h
  | some pacing =>
    have hPaced := h.withPacing pacing
    simp only
    by_cases hFull : (ticks.drain p.drained).isFull = true
    · rw [if_pos hFull, if_pos hFull]
      exact .held (.inr hFull) hPaced
    have hRoom := Bool.eq_false_iff.mpr hFull
    rw [if_neg hFull, if_neg hFull, takeSynthetic_eq hPaced p hRoom,
      takeReplay_eq hPaced hGenerated.length_lt hGenerated.length_pos p hRoom, hGet]
    refine .emitted (isFull_drain_of_room hRoom _) ?_ ?_
    · rw [committed_drain, committed_drain]
    have hNext := hPaced.advance
    rw [hGet] at hNext
    refine { hNext with pacing := ?_ }
    rw [h.cfg]
    rfl

end

/-! ## The decoder with and without symbols -/

variable {raw : List UInt8}

theorem decodeItch_empty_add (hType : byteAt raw 0 = kAddOrder) : decodeItch .empty raw = none := by
  have hAdd : ∀ out, decodeAddOrder .empty raw out = none := by
    intro out
    rw [decodeAddOrder]
    exact if_pos rfl
  unfold decodeItch
  simp only
  split_ifs
  · rfl
  · rfl
  · rfl
  · rw [decodeBody, if_pos (.inl hType), hAdd]

theorem decodeItch_congr (hGenerated : SimConfig.Generated raw)
    (hType : byteAt raw 0 ≠ kAddOrder) (t t' : SymbolTable) : decodeItch t raw = decodeItch t' raw := by
  have hBody : ∃ decode : TickMsg → Option TickMsg, ∀ t timestamp,
      decodeBody t raw { msgType := byteAt raw 0, timestamp := timestamp } =
        decode { msgType := byteAt raw 0, timestamp := timestamp } := by
    rcases hGenerated.type with hAdd | hExecuted | hCancel | hDelete
    · exact absurd hAdd hType
    · refine ⟨decodeOrderExecuted raw, fun t timestamp => ?_⟩
      simp only [decodeBody, hExecuted]
      rw [if_neg (by decide), if_pos trivial]
    · refine ⟨decodeOrderCancel raw, fun t timestamp => ?_⟩
      simp only [decodeBody, hCancel]
      rw [if_neg (by decide), if_neg (by decide), if_neg (by decide), if_pos trivial]
    · refine ⟨decodeOrderDelete raw, fun t timestamp => ?_⟩
      simp only [decodeBody, hDelete]
      rw [if_neg (by decide), if_neg (by decide), if_neg (by decide), if_neg (by decide), if_pos trivial]
  obtain ⟨decode, hDecode⟩ := hBody
  rw [decodeItch, decodeItch]
  simp [hDecode]

theorem decode_agrees_iff (hGenerated : SimConfig.Generated raw) (table : SymbolTable) :
    decodeItch table raw = decodeItch .empty raw ↔
      (byteAt raw 0 = kAddOrder → decodeItch table raw = none) := by
  by_cases hType : byteAt raw 0 = kAddOrder
  · rw [decodeItch_empty_add hType]
    exact ⟨fun h _ => h, fun h => h hType⟩
  · exact ⟨fun _ hAdd => absurd hAdd hType, fun _ => decodeItch_congr hGenerated hType _ _⟩

/-! ## Whole runs -/

def committedAfter (schedule : List Poll) (s : SimFeed) (ticks : TickChannel) : List TickMsg :=
  (Run.final poll schedule (s, ticks)).2.committed

theorem decodeInto_congr {symbols symbols' : SymbolTable}
    (h : decodeItch symbols raw = decodeItch symbols' raw) (ticks : TickChannel) :
    decodeInto symbols raw ticks = decodeInto symbols' raw ticks := by
  rw [decodeInto, decodeInto, h]

variable {messages : List (List UInt8)}

theorem getD_mem (h : i < messages.length) : messages.getD i [] ∈ messages := by
  simp [h]

theorem Mirrors.committedAfter_eq (h : Mirrors messages table i s r)
    (hMessages : ∀ raw ∈ messages, SimConfig.Generated raw)
    (hAgree : ∀ raw ∈ messages, decodeItch table raw = decodeItch .empty raw) (schedule : List Poll)
    (ticks : TickChannel) : committedAfter schedule s ticks = committedAfter schedule r ticks := by
  induction schedule generalizing i s r ticks with
  | nil => rfl
  | cons p schedule ih =>
    have hEmit := decodeInto_congr (hAgree _ (getD_mem h.lt))
    have hPolled := poll_polled h hMessages p ticks
    unfold committedAfter
    rw [Run.final_cons, Run.final_cons]
    generalize poll p (s, ticks) = left at hPolled ⊢
    generalize poll p (r, ticks) = right at hPolled ⊢
    cases hPolled with
    | held _ hNext => exact ih hNext _
    | emitted _ _ hNext =>
      rw [hEmit]
      exact ih hNext _

def unhurried (s : SimFeed) : Poll := ⟨s.pacing.lastEmitNs + s.pacing.nsPerMsg, 2 ^ Config.kTickBits, 0⟩

theorem unhurried_drains (s : SimFeed) : 2 ^ Config.kTickBits ≤ s.unhurried.drained := by
  rw [unhurried]

theorem unhurried_passes (s : SimFeed) : s.pacing.pass s.unhurried.nowNs ≠ none := by
  unfold Pacing.pass
  split
  · rw [unhurried, UInt64.add_comm, UInt64.add_sub_cancel, if_neg (UInt64.lt_irrefl _)]
    exact some_ne_none _
  · exact some_ne_none _

section

variable (h : Mirrors messages table i s r) (hMessages : ∀ raw ∈ messages, SimConfig.Generated raw)
    (hSame : ∀ schedule, committedAfter schedule s ticks = committedAfter schedule r ticks)
include h hMessages hSame

theorem Mirrors.agrees_now : decodeItch table (messages.getD i []) = decodeItch .empty (messages.getD i []) ∧
    ∃ s' r' ticks', Mirrors messages table ((i + 1) % messages.length) s' r' ∧
      ∀ schedule, committedAfter schedule s' ticks' = committedAfter schedule r' ticks' := by
  have hPolled := poll_polled h hMessages s.unhurried ticks
  have hFirst := fun schedule => hSame (s.unhurried :: schedule)
  simp only [committedAfter, Run.final_cons] at hFirst
  generalize poll s.unhurried (s, ticks) = left at hPolled hFirst
  generalize poll s.unhurried (r, ticks) = right at hPolled hFirst
  cases hPolled with
  | held hHeld _ =>
    rcases hHeld with hSoon | hFull
    · exact absurd hSoon (unhurried_passes s)
    · rw [isFull_drain (unhurried_drains s)] at hFull
      cases hFull
  | emitted hRoom _ hNext =>
    have hOnce := hFirst []
    rw [Run.final_nil, Run.final_nil, committed_decodeInto hRoom, committed_decodeInto hRoom] at hOnce
    have hDecode := congrArg head? (append_cancel_left hOnce)
    rw [head?_toList, head?_toList] at hDecode
    rw [decodeInto_congr hDecode] at hFirst
    exact ⟨hDecode, _, _, _, hNext, hFirst⟩

theorem Mirrors.agrees_later (k : Nat) (hk : i + k < messages.length) :
    decodeItch table (messages.getD (i + k) []) = decodeItch .empty (messages.getD (i + k) []) := by
  induction k generalizing i s r ticks with
  | zero => exact (h.agrees_now hMessages hSame).1
  | succ k ih =>
    obtain ⟨_, _, _, _, hNext, hRest⟩ := h.agrees_now hMessages hSame
    rw [Nat.mod_eq_of_lt (by omega)] at hNext
    have hLater := ih hNext hRest (by omega)
    rwa [add_right_comm] at hLater

end

theorem Mirrors.committedAfter_eq_iff (h : Mirrors messages table 0 s r)
    (hMessages : ∀ raw ∈ messages, SimConfig.Generated raw) (ticks : TickChannel) :
    (∀ schedule, committedAfter schedule s ticks = committedAfter schedule r ticks) ↔
      ∀ raw ∈ messages, byteAt raw 0 = kAddOrder → decodeItch table raw = none := by
  constructor
  · intro hSame raw hMem
    obtain ⟨k, hk, rfl⟩ := mem_iff_getElem.mp hMem
    refine (decode_agrees_iff (hMessages _ hMem) _).mp ?_
    have hAgree := h.agrees_later hMessages hSame k (by omega)
    rwa [zero_add, getD_eq_getElem?_getD, getElem?_eq_getElem hk] at hAgree
  · intro hRefused schedule
    refine h.committedAfter_eq hMessages (fun raw hMem => ?_) _ _
    exact (decode_agrees_iff (hMessages raw hMem) _).mpr (hRefused raw hMem)

/-! ## From the initialisation on -/

variable {source : SimFeed} {cfg : SimConfig} {nowNs : UInt64}

theorem initSynthetic_eq_some (h : initSynthetic cfg nowNs = some source) :
    cfg.prebufCount ≠ 0 ∧ source.cfg = cfg ∧ source.symbols = .ofInserts cfg.entries ∧ source.prebufIdx = 0 ∧
      source.pacing = .init cfg nowNs ∧ source.prebuf.length = cfg.prebufCount.toNat ∧
      (∀ raw ∈ source.prebuf, SimConfig.Generated raw) ∧ (cfg.reorderWindow = 0 → source.reorderCapacity = 0) := by
  unfold initSynthetic at h
  split at h
  · cases h
  rename_i hCount
  split at h
  · cases h
  rename_i messages rng hMessages
  obtain rfl := Option.some.inj h
  obtain ⟨hLength, hAll⟩ := cfg.genMessages_generated _ _ _ _ _ _ hMessages
  refine ⟨hCount, rfl, rfl, rfl, rfl, hLength, hAll, fun hReorder => ?_⟩
  have hPos : cfg.reorderWindow < cfg.prebufCount := by
    rw [hReorder]
    exact UInt32.pos_iff_ne_zero.mpr hCount
  rw [if_pos hPos, hReorder]
  rfl

theorem framed_ne_nil (h : 0 < messages.length) : framed messages ≠ [] := by
  intro hNil
  have hSplit := congrArg length (framed_split h)
  rw [hNil] at hSplit
  simp at hSplit
  omega

theorem init_mirrors (hMode : cfg.mode = .kSynthetic)
    (hDrop : cfg.dropRate = 0) (hReorder : cfg.reorderWindow = 0) (hInit : init cfg [] nowNs = some source) :
    (∀ raw ∈ source.prebuf, SimConfig.Generated raw) ∧
    ∃ replay, init { cfg with mode := .kReplay } (framed source.prebuf) nowNs = some replay ∧
      Mirrors source.prebuf source.symbols 0 source replay := by
  have hRate : ¬ ¬ (0 ≤ cfg.dropRate ∧ cfg.dropRate ≤ 1) := by
    rw [hDrop]
    decide
  rw [init, if_neg hRate] at hInit
  simp only [hMode] at hInit
  obtain ⟨hCount, hCfg, _, hIdx, hPacing, hLength, hAll, hCapacity⟩ := initSynthetic_eq_some hInit
  have hPos : 0 < source.prebuf.length := by
    rw [hLength]
    exact Nat.pos_of_ne_zero fun hZero => hCount (UInt32.toNat_inj.mp hZero)
  refine ⟨hAll, _, (if_neg hRate).trans (if_neg (framed_ne_nil hPos)), ?_⟩
  exact
    { mode := by rw [hCfg, hMode]
      cfg := by rw [hCfg]
      drop := by rw [hCfg, hDrop]
      reorder := hCapacity hReorder
      symbols := rfl
      noSymbols := rfl
      prebuf := rfl
      idx := hIdx
      lt := hPos
      file := rfl
      cursor := .inl rfl
      pacing := hPacing.symm }

/-- Replaying the recording of a synthetic source commits the same events as the source, poll by poll,
iff the source commits no Add: its own table refuses every Add message of the buffer. -/
theorem replay_reproduces_iff (cfg : SimConfig) (nowNs : UInt64) (slots : Nat → TickMsg) (source : SimFeed)
    (hMode : cfg.mode = .kSynthetic) (hDrop : cfg.dropRate = 0) (hReorder : cfg.reorderWindow = 0)
    (hInit : init cfg [] nowNs = some source) :
    (∃ replay, init { cfg with mode := .kReplay } (framed source.prebuf) nowNs = some replay ∧
      ∀ schedule, committedAfter schedule source (.new slots) = committedAfter schedule replay (.new slots)) ↔
    ∀ raw ∈ source.prebuf, byteAt raw 0 = Itch.kAddOrder → Itch.decodeItch source.symbols raw = none := by
  obtain ⟨hAll, replay, hReplay, hMirrors⟩ := init_mirrors hMode hDrop hReorder hInit
  rw [← hMirrors.committedAfter_eq_iff hAll _]
  constructor
  · rintro ⟨_, hReplay', hSame⟩
    obtain rfl := Option.some.inj (hReplay.symm.trans hReplay')
    exact hSame
  · exact fun hSame => ⟨_, hReplay, hSame⟩

def oneMessage (seed : UInt64) : SimConfig :=
  { syntheticSymbols := 1, targetRateHz := 0, seed := seed, prebufCount := 1 }

/-- The buffer of the seed 2 holds a Cancel, which needs no symbol. -/
theorem replay_reproduces_cancel : ∃ source, init (oneMessage 2) [] 0 = some source ∧
      ∃ replay, init { oneMessage 2 with mode := .kReplay } (framed source.prebuf) 0 = some replay ∧
        ∀ schedule, committedAfter schedule source (.new fun _ => {}) =
          committedAfter schedule replay (.new fun _ => {}) := by
  have hTypes : (init (oneMessage 2) [] 0).map (fun source => source.prebuf.map (byteAt · 0)) =
      some [Itch.kOrderCancel] := by decide +kernel
  obtain ⟨source, hInit, hPrebuf⟩ := map_eq_some_iff.mp hTypes
  refine ⟨source, hInit, (replay_reproduces_iff (oneMessage 2) 0 (fun _ => {}) source rfl rfl rfl hInit).mpr ?_⟩
  intro _ hMem hType
  have hMapped := List.mem_map_of_mem (f := (byteAt · 0)) hMem
  rw [hPrebuf, hType] at hMapped
  exact absurd hMapped (by decide)

/-- The buffer of the seed 0 holds an Add: the source commits it, the replay of its recording does not. -/
theorem replay_loses_add : ∃ source replay, init (oneMessage 0) [] 0 = some source ∧
      init { oneMessage 0 with mode := .kReplay } (framed source.prebuf) 0 = some replay ∧
      (committedAfter [⟨0, 0, 0⟩] source (.new fun _ => {})).length = 1 ∧
      (committedAfter [⟨0, 0, 0⟩] replay (.new fun _ => {})).length = 0 := by
  have hLengths : ((init (oneMessage 0) [] 0).bind fun source =>
      (init { oneMessage 0 with mode := .kReplay } (framed source.prebuf) 0).map fun replay =>
        ((committedAfter [⟨0, 0, 0⟩] source (.new fun _ => {})).length,
          (committedAfter [⟨0, 0, 0⟩] replay (.new fun _ => {})).length)) = some (1, 0) := by decide +kernel
  obtain ⟨source, hSource, hRest⟩ := bind_eq_some_iff.mp hLengths
  obtain ⟨replay, hReplay, hPair⟩ := map_eq_some_iff.mp hRest
  obtain ⟨hFirst, hSecond⟩ := Prod.mk.inj hPair
  exact ⟨source, replay, hSource, hReplay, hFirst, hSecond⟩

end SimFeed

end LuvFlicker
