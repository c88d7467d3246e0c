import LuvFlicker.Lib.Run

/-!
# Limit up, limit down

A pause is due once the quotes have been outside the normal condition for long
enough. An episode that starts at a limit is given up when the quotes straddle the
band by the time the pause is due: the engine then only looks for straddles that
began as such.
-/

namespace LuvFlicker.Luld

open Run

inductive LuldTier where
  | tier1
  | tier2

inductive LuldState where
  | normal
  | straddle
  | limitState
  | tradingPause
  deriving DecidableEq

structure LuldConfig where
  tier : LuldTier := .tier1
  straddleTimeoutNs : UInt64 := 15000000000
  isMarketOpenOrClosePeriod : Bool := false

structure LuldBands where
  referencePrice : UInt64 := 0
  lowerBand : UInt64 := 0
  upperBand : UInt64 := 0
  state : LuldState := .normal
  straddleStartNs : UInt64 := 0
  pauseTriggered : Bool := false

namespace LuldBands

variable (config : LuldConfig)

def recalculateBands (b : LuldBands) : LuldBands :=
  if b.referencePrice = 0 then { b with lowerBand := 0, upperBand := 0 }
  else
    let p := b.referencePrice
    let bp : UInt64 :=
      match config.tier with
      | .tier1 => if p > 30000 then 500 else if p ≥ 7500 then 2000 else 7500
      | .tier2 => if p > 30000 then 1000 else if p ≥ 7500 then 2000 else 7500
    let bp := if config.isMarketOpenOrClosePeriod then bp * 2 else bp
    let delta := p * bp / 10000
    let delta := if p ≤ 7500 ∧ delta > 1500 then 1500 else delta
    { b with lowerBand := if p > delta then p - delta else 0, upperBand := p + delta }

def setReferencePrice (refPrice : UInt64) (b : LuldBands) : LuldBands :=
  recalculateBands config { b with referencePrice := refPrice }

def resumeTrading (newRefPrice : UInt64) (b : LuldBands) : LuldBands :=
  setReferencePrice config newRefPrice { b with state := .normal, pauseTriggered := false, straddleStartNs := 0 }

def atLimit (bestBid bestAsk : UInt64) (b : LuldBands) : Bool :=
  bestBid ≥ b.upperBand ∨ bestAsk ≤ b.lowerBand ∧ bestAsk > 0

def within (bestBid bestAsk : UInt64) (b : LuldBands) : Bool := bestBid > b.lowerBand ∧ bestAsk < b.upperBand

def pause (b : LuldBands) : LuldBands := { b with state := .tradingPause, pauseTriggered := true }

def updateNbbo (bestBid bestAsk nowNs : UInt64) (b : LuldBands) : LuldBands :=
  if b.referencePrice = 0 then b
  else if b.state = .tradingPause then b
  else if b.atLimit bestBid bestAsk then
    if b.state ≠ .limitState ∧ b.state ≠ .straddle then { b with state := .limitState, straddleStartNs := nowNs }
    else if nowNs ≥ b.straddleStartNs + config.straddleTimeoutNs then b.pause
    else b
  else if b.within bestBid bestAsk then { b with state := .normal, straddleStartNs := 0 }
  else if b.state = .normal then { b with state := .straddle, straddleStartNs := nowNs }
  else if b.state = .straddle ∧ nowNs ≥ b.straddleStartNs + config.straddleTimeoutNs then b.pause
  else b

end LuldBands

inductive LuldOp where
  | update (bestBid bestAsk nowNs : UInt64)
  | setReference (refPrice : UInt64)
  | resume (newRefPrice : UInt64)

/-! ## What the quotes have been -/

/-- The engine, with the time since which the quotes have been outside the normal condition, and whether that has
lasted for the timeout at some update since the last resume. -/
structure Watched where
  bands : LuldBands := {}
  since : Option UInt64 := none
  sustained : Bool := false

variable (config : LuldConfig)

def lasts (start nowNs : UInt64) : Bool := start.toNat + config.straddleTimeoutNs.toNat ≤ nowNs.toNat

namespace LuldOp

def watch (op : LuldOp) (w : Watched) : Unit × Watched :=
  match op with
  | .update bestBid bestAsk nowNs =>
    let outside := w.bands.atLimit bestBid bestAsk || !w.bands.within bestBid bestAsk
    ((),
      { bands := w.bands.updateNbbo config bestBid bestAsk nowNs
        since := if outside then some (w.since.getD nowNs) else none
        sustained := w.sustained || outside && lasts config (w.since.getD nowNs) nowNs })
  | .setReference refPrice => ((), { w with bands := w.bands.setReferencePrice config refPrice })
  | .resume newRefPrice => ((), { bands := w.bands.resumeTrading config newRefPrice })

/-- References are not zero, and no timestamp is so large that the timeout wraps. -/
def Fits : LuldOp → Prop
  | .update _ _ nowNs => nowNs.toNat + config.straddleTimeoutNs.toNat < 2 ^ 64
  | .setReference price | .resume price => price ≠ 0

/-- The engine is paused exactly if the quotes were outside for long enough, and only a resume ends a pause. -/
def Exact (op : LuldOp) (w : Watched) : Prop :=
  ((op.watch config w).2.bands.state = .tradingPause ↔ (op.watch config w).2.sustained = true) ∧
    (w.bands.state = .tradingPause → (op.watch config w).2.bands.state = .tradingPause ∨ ∃ price, op = .resume price)

/-- No episode that began at a limit is due for a pause while the quotes straddle. -/
def Clean (op : LuldOp) (w : Watched) : Prop :=
  match op with
  | .update bestBid bestAsk nowNs =>
    ¬ (w.bands.state = .limitState ∧ w.bands.atLimit bestBid bestAsk = false ∧
      w.bands.within bestBid bestAsk = false ∧ lasts config w.bands.straddleStartNs nowNs = true)
  | .setReference _ | .resume _ => True

end LuldOp

/-! ## Runs -/

/-- The timer of the engine runs since the quotes are outside, unless it is paused. -/
structure Timed (w : Watched) : Prop where
  reference : w.bands.referencePrice ≠ 0
  paused : w.bands.state = .tradingPause ↔ w.sustained = true
  normal : w.bands.state = .normal → w.since = none
  outside : w.bands.state = .straddle ∨ w.bands.state = .limitState → w.since = some w.bands.straddleStartNs
  fits : ∀ start, w.since = some start → start.toNat + config.straddleTimeoutNs.toNat < 2 ^ 64

variable {config} {w : Watched} {price : UInt64}

theorem due_iff {start : UInt64} (h : start.toNat + config.straddleTimeoutNs.toNat < 2 ^ 64) (nowNs : UInt64) :
    nowNs ≥ start + config.straddleTimeoutNs ↔ lasts config start nowNs = true := by
  rw [ge_iff_le, UInt64.le_iff_toNat_le, UInt64.toNat_add, Nat.mod_eq_of_lt h, lasts, decide_eq_true_iff]

open LuldBands

variable (config price) in
theorem setReferencePrice_fields (b : LuldBands) : (b.setReferencePrice config price).state = b.state ∧
    (b.setReferencePrice config price).straddleStartNs = b.straddleStartNs ∧
    (b.setReferencePrice config price).referencePrice = price := by
  rw [setReferencePrice, recalculateBands]
  split <;> exact ⟨rfl, rfl, rfl⟩

open LuldOp

theorem Timed.update (h : Timed config w) (hTimeout : 0 < config.straddleTimeoutNs.toNat) {bestBid bestAsk nowNs : UInt64}
    (hNow : nowNs.toNat + config.straddleTimeoutNs.toNat < 2 ^ 64) :
    ((update bestBid bestAsk nowNs).Exact config w ↔ (update bestBid bestAsk nowNs).Clean config w) ∧
      ((update bestBid bestAsk nowNs).Clean config w →
        Timed config ((update bestBid bestAsk nowNs).watch config w).2) := by
  obtain ⟨_, _, _, _, hFits⟩ := h
  have hFresh : lasts config nowNs nowNs = false := by
    rw [lasts, decide_eq_false_iff_not]
    omega
  have hDue := fun start hStart => due_iff (hFits start hStart) nowNs
  simp only [LuldOp.Exact, LuldOp.Clean, watch, updateNbbo]
  generalize w.bands.atLimit bestBid bestAsk = limit
  generalize w.bands.within bestBid bestAsk = within
  cases hState : w.bands.state with
  | normal => cases limit <;> cases within <;> grind [Timed]
  | straddle | limitState => cases limit <;> cases within <;> grind [pause, Timed]
  | tradingPause => cases hSince : w.since <;> grind [Timed]

theorem timed_normal {b : LuldBands} (hState : b.state = .normal) (hPrice : price ≠ 0) :
    Timed config { bands := b.setReferencePrice config price } := by
  obtain ⟨_, -, _⟩ := setReferencePrice_fields config price b
  constructor <;> grind

theorem Timed.step {op : LuldOp} (hTimeout : 0 < config.straddleTimeoutNs.toNat) (hFits : op.Fits config)
    (h : Timed config w) :
    (op.Exact config w ↔ op.Clean config w) ∧ (op.Clean config w → Timed config (op.watch config w).2) := by
  cases op with
  | update bestBid bestAsk nowNs => exact h.update hTimeout hFits
  | setReference price =>
    have hFields := setReferencePrice_fields config price w.bands
    have hNext : Timed config ((setReference price).watch config w).2 := by
      obtain ⟨hState, hStart, hReference⟩ := hFields
      refine ⟨fun hZero => hFits (hReference.symm.trans hZero), ?_, ?_, ?_, h.fits⟩ <;> simp only [watch, hState, hStart]
      · exact h.paused
      · exact h.normal
      · exact h.outside
    exact ⟨iff_of_true ⟨hNext.paused, fun hPaused => .inl (hFields.1.trans hPaused)⟩ trivial, fun _ => hNext⟩
  | resume price =>
    have hNext : Timed config ((resume price).watch config w).2 := timed_normal rfl hFits
    exact ⟨iff_of_true ⟨hNext.paused, fun _ => .inr ⟨_, rfl⟩⟩ trivial, fun _ => hNext⟩

def start (config : LuldConfig) (refPrice : UInt64) : Watched := { bands := LuldBands.setReferencePrice config refPrice {} }

/-- The engine pauses exactly after a sustained breach in the runs in which no episode that began at a limit is due
while the quotes straddle. -/
theorem pauses_iff (config : LuldConfig) (hTimeout : 0 < config.straddleTimeoutNs) (refPrice : UInt64)
    (hReference : refPrice ≠ 0) (ops : List LuldOp) (hFits : ∀ op ∈ ops, op.Fits config) :
    Always (LuldOp.watch config) (LuldOp.Exact config) ops (start config refPrice) ↔
      Always (LuldOp.watch config) (LuldOp.Clean config) ops (start config refPrice) := by
  exact (always_of_forall_mem hFits _).iff_of_invariant _ (fun op w hOp h => (h.step hTimeout hOp).1)
    (fun op w hOp hClean h => (h.step hTimeout hOp).2 hClean) (timed_normal rfl hReference)

/-- A limit that lasts for the fifteen seconds. -/
theorem pauses_iff_limit :
    Always (LuldOp.watch {}) (LuldOp.Exact {}) [.update 12000 12001 1, .update 12000 12001 15000000001] (start {} 10000) ↔
      Always (LuldOp.watch {}) (LuldOp.Clean {}) [.update 12000 12001 1, .update 12000 12001 15000000001]
        (start {} 10000) :=
  pauses_iff {} (by decide) 10000 (by decide) _ (by simp [LuldOp.Fits])

/-- A limit at first, and a straddle when the fifteen seconds are over. -/
theorem straddle_behind_limit_misses :
    ¬ Always (LuldOp.watch {}) (LuldOp.Exact {}) [.update 12000 12001 1, .update 8000 10000 15000000001]
        (start {} 10000) := by
  rintro ⟨-, ⟨hPaused, -⟩, -⟩
  exact absurd hPaused (by decide +kernel)

end LuvFlicker.Luld
