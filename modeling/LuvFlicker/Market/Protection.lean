import LuvFlicker.Lib.Run
import LuvFlicker.Execution.Risk

/-!
# Market maker protection

The window restarts at the first trade behind its end. Trades on the two sides of a
restart are never added up, although they may lie within one window's length, and
trades of the window in front of an interval can hide an excess within it.
-/

namespace LuvFlicker.Mmp

open Run List PreTradeRisk

structure MmpConfig where
  windowNs : UInt64 := 500000000
  maxTradedVolume : Int := 10000
  maxTradedNotional : Int := 100000000
  maxDeltaVolume : Int := 5000

structure Trade where
  tsNs : UInt64
  side : UInt8
  qty : Int
  price : Int

structure MarketMakerProtection where
  windowStartTsNs : UInt64 := 0
  volumeInWindow : Int := 0
  notionalInWindow : Int := 0
  deltaInWindow : Int := 0
  tripped : Bool := false
  tripTsNs : UInt64 := 0

variable (config : MmpConfig)

namespace MarketMakerProtection

def slides (tsNs : UInt64) (m : MarketMakerProtection) : Bool := tsNs > m.windowStartTsNs + config.windowNs

def slide (tsNs : UInt64) (m : MarketMakerProtection) : MarketMakerProtection :=
  if m.slides config tsNs then
    { m with windowStartTsNs := tsNs, volumeInWindow := 0, notionalInWindow := 0, deltaInWindow := 0 }
  else m

def record (trade : Trade) (m : MarketMakerProtection) : MarketMakerProtection :=
  { m with
    volumeInWindow := wrap (m.volumeInWindow + trade.qty)
    notionalInWindow := wrap (m.notionalInWindow + wrap (trade.qty * trade.price))
    deltaInWindow :=
      wrap (if trade.side = Exec.kBuy then m.deltaInWindow + trade.qty else m.deltaInWindow - trade.qty) }

def breached (m : MarketMakerProtection) : Bool :=
  let absDelta := if m.deltaInWindow < 0 then wrap (-m.deltaInWindow) else m.deltaInWindow
  m.volumeInWindow > config.maxTradedVolume ∨ m.notionalInWindow > config.maxTradedNotional ∨
    absDelta > config.maxDeltaVolume

def onTrade (trade : Trade) (m : MarketMakerProtection) : Bool × MarketMakerProtection :=
  if m.tripped then (false, m)
  else
    let m := (m.slide config trade.tsNs).record trade
    if m.breached config then (false, { m with tripped := true, tripTsNs := trade.tsNs }) else (true, m)

end MarketMakerProtection

/-! ## The trades of a window -/

open MarketMakerProtection

section

variable (trades : List Trade)

def volume : Int := (trades.map Trade.qty).sum

def notional : Int := (trades.map fun t => t.qty * t.price).sum

def delta : Int := (trades.map fun t => if t.side = Exec.kBuy then t.qty else -t.qty).sum

def Exceeds : Prop :=
  volume trades > config.maxTradedVolume ∨ notional trades > config.maxTradedNotional ∨
    |delta trades| > config.maxDeltaVolume

structure Watched where
  mmp : MarketMakerProtection
  window : List Trade := []

def watch (trade : Trade) (w : Watched) : Unit × Watched :=
  ((), ⟨(w.mmp.onTrade config trade).2, w.window ++ [trade]⟩)

structure Counts (m : MarketMakerProtection) (trades : List Trade) : Prop where
  volume : m.volumeInWindow = volume trades
  notional : m.notionalInWindow = notional trades
  delta : m.deltaInWindow = delta trades

/-- The earlier trades of the window do not offset those of an interval behind them. -/
structure Unmasked (earlier : List Trade) : Prop where
  volume : 0 ≤ volume earlier
  notional : 0 ≤ notional earlier
  delta : 0 ≤ delta earlier * delta trades

def sums : List Int := [volume trades, notional trades, delta trades, -delta trades]

end

/-- The first trade finds the counters empty or empties them, no later one restarts the window, and nothing overflows. -/
structure Tracked (trade : Trade) (w : Watched) : Prop where
  opens : w.window = [] → Counts (w.mmp.slide config trade.tsNs) w.window
  keeps : w.window ≠ [] → w.mmp.slides config trade.tsNs = false
  fits : ∀ x ∈ trade.qty * trade.price :: sums (w.window ++ [trade]), fitsInt64 x = true

/-- Unless it has tripped, the protection has counted the trades of the window, and they are within the limits. -/
def Guarded (w : Watched) : Prop :=
  w.window ≠ [] → w.mmp.tripped = false → Counts w.mmp w.window ∧ ¬ Exceeds config w.window

variable {config} {m : MarketMakerProtection} {trade : Trade} {trades : List Trade} {w : Watched}

theorem Counts.record (h : Counts m trades)
    (hFits : ∀ x ∈ trade.qty * trade.price :: sums (trades ++ [trade]), fitsInt64 x = true) :
    Counts (m.record trade) (trades ++ [trade]) := by
  simp only [sums, forall_mem_cons] at hFits
  obtain ⟨hProduct, hVolume, hNotional, hDelta, -⟩ := hFits
  constructor <;> simp only [MarketMakerProtection.record]
  · rw [h.volume, ← wrap_of_fits hVolume]
    simp [Mmp.volume]
  · rw [wrap_of_fits hProduct, h.notional, ← wrap_of_fits hNotional]
    simp [Mmp.notional]
  · rw [h.delta, ← wrap_of_fits hDelta]
    split_ifs with hSide <;> simp [Mmp.delta, hSide, Int.sub_eq_add_neg]

theorem Counts.breached_iff (h : Counts m trades) (hDelta : fitsInt64 (-Mmp.delta trades) = true) :
    m.breached config = true ↔ Exceeds config trades := by
  rw [breached, h.volume, h.notional, h.delta, wrap_of_fits hDelta, Exceeds]
  grind

theorem Guarded.step (hTracked : Tracked config trade w) (h : Guarded config w) :
    Guarded config (watch config trade w).2 := by
  intro _ hTripped
  rw [watch, onTrade] at hTripped ⊢
  cases hBefore : w.mmp.tripped with
  | true => simp [hBefore] at hTripped
  | false =>
    have hCounts : Counts (w.mmp.slide config trade.tsNs) w.window := by
      by_cases hEmpty : w.window = []
      · exact hTracked.opens hEmpty
      · rw [slide, hTracked.keeps hEmpty]
        exact (h hEmpty hBefore).1
    have hNext := hCounts.record hTracked.fits
    have hBreached := @Counts.breached_iff config _ _ hNext (hTracked.fits _ (by simp [sums]))
    simp only [hBefore, Bool.false_eq_true, if_false] at hTripped ⊢
    split_ifs at hTripped ⊢ with hBreach
    exact ⟨hNext, fun hExceeds => hBreach (hBreached.mpr hExceeds)⟩

theorem final_watch (trades before : List Trade) (m : MarketMakerProtection) :
    final (watch config) trades ⟨m, before⟩ = ⟨final (onTrade config) trades m, before ++ trades⟩ := by
  induction trades generalizing before m with
  | nil => rw [append_nil, final_nil, final_nil]
  | cons trade trades ih => rw [final_cons, watch, ih, append_assoc, singleton_append, final_cons]

theorem Exceeds.append {earlier : List Trade} (h : Exceeds config trades) (hUnmasked : Unmasked trades earlier) :
    Exceeds config (earlier ++ trades) := by
  have hVolume : volume (earlier ++ trades) = volume earlier + volume trades := by simp [volume]
  have hNotional : notional (earlier ++ trades) = notional earlier + notional trades := by simp [notional]
  have hDelta : |delta trades| ≤ |delta (earlier ++ trades)| := by
    have hSum : delta (earlier ++ trades) = delta earlier + delta trades := by simp [delta]
    rw [← sq_le_sq, hSum]
    nlinarith [hUnmasked.delta, sq_nonneg (delta earlier)]
  rcases h with h | h | h
  · exact .inl (by linarith [hUnmasked.volume])
  · exact .inr (.inl (by linarith [hUnmasked.notional]))
  · exact .inr (.inr (h.trans_le hDelta))

/-- An excess within an interval trips the protection if the interval lies within one window, whose trades in front of
the interval do not hide it. -/
theorem tripped_of_excess (config : MmpConfig) (before opening earlier : List Trade) (trade : Trade)
    (hTracked : Always (watch config) (Tracked config) (opening ++ (earlier ++ [trade]))
      ⟨final (onTrade config) before {}, []⟩)
    (hUnmasked : Unmasked (earlier ++ [trade]) opening) (hExceeds : Exceeds config (earlier ++ [trade])) :
    (final (onTrade config) (before ++ (opening ++ (earlier ++ [trade]))) {}).tripped = true := by
  have hGuarded := hTracked.invariant (Guarded _) (fun _ _ hTracked h => h.step hTracked) (absurd rfl)
  rw [final_watch, ← final_append] at hGuarded
  by_contra hOpen
  exact (hGuarded (by simp) (Bool.eq_false_of_not_eq_true hOpen)).2 (hExceeds.append hUnmasked)

/-- Two buys within half a second, behind a third one in the same window. -/
theorem tripped_of_excess_second :
    (final (onTrade {}) ([] ++ ([⟨600000000, 0, 1, 1⟩] ++ ([⟨600000001, 0, 3000, 1⟩] ++ [⟨600000002, 0, 3000, 1⟩])))
      {}).tripped = true := by
  refine tripped_of_excess {} [] _ _ _ ⟨⟨fun _ => ⟨rfl, rfl, rfl⟩, absurd rfl, ?_⟩, ⟨nofun, fun _ => rfl, ?_⟩,
    ⟨nofun, fun _ => rfl, ?_⟩, trivial⟩ ⟨?_, ?_, ?_⟩ (.inr (.inr ?_))
  all_goals decide

/-- The second buy is a tenth of a second behind the first one, in a new window; and a sale hides the buys behind it. -/
theorem restart_misses_excess :
    Exceeds {} [⟨450000000, 0, 3000, 1⟩, ⟨550000000, 0, 3000, 1⟩] ∧
      (final (onTrade {}) [⟨450000000, 0, 3000, 1⟩, ⟨550000000, 0, 3000, 1⟩] {}).tripped = false ∧
    Exceeds {} [⟨200, 0, 3000, 1⟩, ⟨300, 0, 3000, 1⟩] ∧
      (final (onTrade {}) [⟨100, 1, 3000, 1⟩, ⟨200, 0, 3000, 1⟩, ⟨300, 0, 3000, 1⟩] {}).tripped = false :=
  ⟨.inr (.inr (by decide)), by decide, .inr (.inr (by decide)), by decide⟩

end LuvFlicker.Mmp
