import LuvFlicker.Execution.Types

/-!
# Protected quotes

The validator keeps the latest quote of the first sixteen venues it hears of. A
quote of any other venue is dropped without a trace, and an execution that trades
through it passes.
-/

namespace LuvFlicker.RegNms

open Exec List Numeric

structure ProtectedBBO where
  venueId : UInt8 := 0
  bestBid : Int64 := 0
  bestAsk : Int64 := 0
  bidSize : Int64 := 0
  askSize : Int64 := 0
  quoteTsNs : UInt64 := 0
  deriving DecidableEq

structure NbboState where
  nationalBestBid : Int64 := 0
  nationalBestAsk : Int64 := .maxValue
  bestBidVenue : UInt8 := 0
  bestAskVenue : UInt8 := 0
  totalBidSize : Int := 0
  totalAskSize : Int := 0

def kMaxProtectedVenues : Nat := 16

/-- The search from the front of the table, with the number of places left in it. -/
def update (quote : ProtectedBBO) : Nat → List ProtectedBBO → List ProtectedBBO
  | room, [] => if 0 < room then [quote] else []
  | room, v :: venues => if v.venueId = quote.venueId then quote :: venues else v :: update quote (room - 1) venues

def updateVenueBbo (venues : List ProtectedBBO) (quote : ProtectedBBO) : List ProtectedBBO :=
  update quote kMaxProtectedVenues venues

namespace NbboState

def bid (nbbo : NbboState) (v : ProtectedBBO) : NbboState :=
  if v.bestBid > nbbo.nationalBestBid then { nbbo with nationalBestBid := v.bestBid, bestBidVenue := v.venueId }
  else nbbo

def ask (nbbo : NbboState) (v : ProtectedBBO) : NbboState :=
  if v.bestAsk < nbbo.nationalBestAsk ∧ v.bestAsk > 0 then
    { nbbo with nationalBestAsk := v.bestAsk, bestAskVenue := v.venueId }
  else nbbo

end NbboState

section

variable (venues : List ProtectedBBO)

def best : NbboState := venues.foldl (fun nbbo v => (nbbo.bid v).ask v) {}

/-- The size shown at a price. There is none if the sum overflows. -/
def depth (price size : ProtectedBBO → Int64) (venues : List ProtectedBBO) (national : Int64) : Option Int :=
  venues.foldlM (fun total v => if price v = national then checkedAdd total (size v).toInt else some total) 0

def computeNbbo : Option NbboState := do
  let nbbo := best venues
  let totalBidSize ← depth (·.bestBid) (·.bidSize) venues nbbo.nationalBestBid
  let totalAskSize ← depth (·.bestAsk) (·.askSize) venues nbbo.nationalBestAsk
  return { nbbo with totalBidSize := totalBidSize, totalAskSize := totalAskSize }

def validateExecution (side : UInt8) (localExecPrice : Int64) (isIso : Bool) : Option Bool := do
  if isIso then return true
  let nbbo ← computeNbbo venues
  if side = kBuy then return !decide (nbbo.nationalBestAsk < .maxValue ∧ localExecPrice > nbbo.nationalBestAsk)
  else return !decide (nbbo.nationalBestBid > 0 ∧ localExecPrice < nbbo.nationalBestBid)

end

/-! ## The quotes that were reported -/

variable (history : List ProtectedBBO)

def latest (venueId : UInt8) : Option ProtectedBBO :=
  history.reverse.find? (·.venueId = venueId)

def listed : List UInt8 :=
  history.foldl (fun ids v => if v.venueId ∈ ids ∨ ids.length ≥ 16 then ids else ids ++ [v.venueId]) []

variable (side : UInt8)

def Better (price : Int64) (v : ProtectedBBO) : Prop :=
  if side = kBuy then v.bestAsk > 0 ∧ v.bestAsk < price else v.bestBid > 0 ∧ v.bestBid > price

def Through (price : Int64) : Prop :=
  ∃ venueId v, latest history venueId = some v ∧ Better side price v

def SeenThrough (price : Int64) : Prop :=
  ∃ venueId ∈ listed history, ∃ v, latest history venueId = some v ∧ Better side price v

def table : List ProtectedBBO := history.foldl updateVenueBbo []

theorem table_append (v : ProtectedBBO) :
    table (history ++ [v]) = updateVenueBbo (table history) v := by
  rw [table, foldl_append]
  rfl

theorem latest_append (v : ProtectedBBO) (venueId : UInt8) :
    latest (history ++ [v]) venueId = if v.venueId = venueId then some v else latest history venueId := by
  rw [latest, reverse_append, reverse_singleton, singleton_append]
  split
  next hSame => exact find?_cons_of_pos (decide_eq_true hSame)
  next hOther => exact find?_cons_of_neg (by simpa using hOther)

theorem update_ids (quote : ProtectedBBO) (room : Nat) (venues : List ProtectedBBO) :
    (update quote room venues).map (·.venueId) =
      if quote.venueId ∈ venues.map (·.venueId) ∨ venues.length ≥ room then venues.map (·.venueId)
      else venues.map (·.venueId) ++ [quote.venueId] := by
  induction venues generalizing room with
  | nil =>
    rw [update]
    split
    next hRoom => rw [if_neg (by simpa using hRoom.ne')]; rfl
    next hRoom => rw [if_pos (.inr (not_lt.mp hRoom))]
  | cons v venues ih =>
    rw [update]
    split
    next hHere =>
      have hMem : quote.venueId ∈ (v :: venues).map (·.venueId) := mem_map.mpr ⟨v, mem_cons_self, hHere⟩
      rw [if_pos (.inl hMem), map_cons, map_cons, hHere]
    next hOther =>
      have hSize : venues.length + 1 ≥ room ↔ venues.length ≥ room - 1 := by omega
      simp only [map_cons, ih, mem_cons, Ne.symm hOther, false_or, length_cons, hSize]
      split <;> rfl

variable {venues : List ProtectedBBO}

theorem mem_update {quote v : ProtectedBBO} {room : Nat}
    (hNodup : (venues.map (·.venueId)).Nodup) (h : v ∈ update quote room venues) :
    v = quote ∨ v ∈ venues ∧ v.venueId ≠ quote.venueId := by
  induction venues generalizing room with
  | nil =>
    rw [update] at h
    split at h
    · exact .inl (mem_singleton.mp h)
    · cases h
  | cons first venues ih =>
    rw [map_cons, nodup_cons] at hNodup
    rw [update] at h
    split at h
    next hHere =>
      rcases mem_cons.mp h with rfl | hOld
      · exact .inl rfl
      · refine .inr ⟨mem_cons_of_mem _ hOld, fun hSame => hNodup.1 ?_⟩
        rw [hHere, ← hSame]
        exact mem_map_of_mem hOld
    next hOther =>
      rcases mem_cons.mp h with rfl | hOld
      · exact .inr ⟨mem_cons_self, hOther⟩
      · exact (ih hNodup.2 hOld).imp_right fun ⟨hMem, hOther⟩ => ⟨mem_cons_of_mem _ hMem, hOther⟩

theorem table_ids :
    (table history).map (·.venueId) = listed history ∧ (listed history).Nodup := by
  induction history using List.reverseRecOn with
  | nil => exact ⟨rfl, nodup_nil⟩
  | append_singleton history v ih =>
    obtain ⟨hIds, hNodup⟩ := ih
    have hLength := congrArg List.length hIds
    rw [length_map] at hLength
    rw [table_append, updateVenueBbo, update_ids, listed, foldl_append, foldl_cons, hIds, hLength]
    refine ⟨rfl, ?_⟩
    split
    · exact hNodup
    next hNew =>
      exact (perm_append_singleton _ _).nodup_iff.mpr (nodup_cons.mpr ⟨fun hMem => hNew (.inl hMem), hNodup⟩)

theorem latest_of_mem : ∀ v ∈ table history, latest history v.venueId = some v := by
  induction history using List.reverseRecOn with
  | nil => exact nofun
  | append_singleton history quote ih =>
    intro v hv
    obtain ⟨hIds, hNodup⟩ := table_ids _
    rw [table_append] at hv
    rw [latest_append]
    rcases mem_update (hIds ▸ hNodup) hv with rfl | ⟨hOld, hOther⟩
    · rw [if_pos rfl]
    · rw [if_neg hOther.symm, ih v hOld]

open NbboState

section

variable (nbbo : NbboState) (v : ProtectedBBO) (price : Int64)

theorem ask_bid_lt_iff : ((nbbo.bid v).ask v).nationalBestAsk < price ↔
    nbbo.nationalBestAsk < price ∨ v.bestAsk > 0 ∧ v.bestAsk < price := by
  have hBid : (nbbo.bid v).nationalBestAsk = nbbo.nationalBestAsk := by
    rw [bid]
    split <;> rfl
  rw [ask, hBid]
  split
  next hLower =>
    refine ⟨fun h => .inr ⟨hLower.2, h⟩, ?_⟩
    rintro (hOld | hNew)
    · exact Int64.lt_trans hLower.1 hOld
    · exact hNew.2
  next hKept =>
    rw [hBid]
    refine ⟨.inl, ?_⟩
    rintro (hOld | ⟨hPos, hNew⟩)
    · exact hOld
    · exact Int64.lt_of_le_of_lt (Int64.not_lt.mp fun hLower => hKept ⟨hLower, hPos⟩) hNew

theorem lt_ask_bid_iff : price < ((nbbo.bid v).ask v).nationalBestBid ↔
    price < nbbo.nationalBestBid ∨ price < v.bestBid := by
  have hAsk : ((nbbo.bid v).ask v).nationalBestBid = (nbbo.bid v).nationalBestBid := by
    rw [ask]
    split <;> rfl
  rw [hAsk, bid]
  split
  next hHigher =>
    refine ⟨.inr, ?_⟩
    rintro (hOld | hNew)
    · exact Int64.lt_trans hOld hHigher
    · exact hNew
  next hKept =>
    refine ⟨.inl, ?_⟩
    rintro (hOld | hNew)
    · exact hOld
    · exact Int64.lt_of_lt_of_le hNew (Int64.not_lt.mp hKept)

variable (venues : List ProtectedBBO)

theorem best_ask : (venues.foldl (fun nbbo v => (nbbo.bid v).ask v) nbbo).nationalBestAsk < price ↔
      nbbo.nationalBestAsk < price ∨ ∃ v ∈ venues, v.bestAsk > 0 ∧ v.bestAsk < price := by
  induction venues generalizing nbbo with
  | nil => simp
  | cons v venues ih => rw [foldl_cons, ih, ask_bid_lt_iff, exists_mem_cons_iff, or_assoc]

theorem best_bid : price < (venues.foldl (fun nbbo v => (nbbo.bid v).ask v) nbbo).nationalBestBid ↔
      price < nbbo.nationalBestBid ∨ ∃ v ∈ venues, price < v.bestBid := by
  induction venues generalizing nbbo with
  | nil => simp
  | cons v venues ih => rw [foldl_cons, ih, lt_ask_bid_iff, exists_mem_cons_iff, or_assoc]

end

theorem false_iff_better {nbbo : NbboState} (hNbbo : computeNbbo venues = some nbbo)
    (side : UInt8) (price : Int64) : ∃ passes, validateExecution venues side price false = some passes ∧
      (passes = false ↔ ∃ v ∈ venues, Better side price v) := by
  obtain ⟨_, -, hNext⟩ := Option.bind_eq_some_iff.mp hNbbo
  obtain ⟨_, -, hNext⟩ := Option.bind_eq_some_iff.mp hNext
  obtain rfl := Option.some.inj hNext
  rw [validateExecution, hNbbo]
  by_cases hSide : side = kBuy
  · refine ⟨_, if_pos hSide, ?_⟩
    have hMax : ¬ Int64.maxValue < price := Int64.not_lt.mpr (Int64.le_maxValue _)
    have hAsk : (best venues).nationalBestAsk < price ↔ _ := best_ask {} price venues
    rw [or_iff_right hMax] at hAsk
    simp only [Better, if_pos hSide, Bool.not_eq_false', decide_eq_true_eq]
    rw [← hAsk]
    exact ⟨And.right, fun hLt => ⟨Int64.lt_of_lt_of_le hLt (Int64.le_maxValue _), hLt⟩⟩
  · refine ⟨_, if_neg hSide, ?_⟩
    simp only [Better, if_neg hSide, Bool.not_eq_false', decide_eq_true_eq]
    constructor
    · -- the best bid is the bid of a venue, or the initial 0
      rintro ⟨hPos, hLt⟩
      rcases Int64.le_total price 0 with hLow | hHigh
      · obtain hZero | ⟨v, hv, hBid⟩ := (best_bid {} 0 venues).mp hPos
        · cases hZero
        · exact ⟨v, hv, hBid, Int64.lt_of_le_of_lt hLow hBid⟩
      · obtain hNegative | ⟨v, hv, hBid⟩ := (best_bid {} price venues).mp hLt
        · exact absurd hNegative (Int64.not_lt.mpr hHigh)
        · exact ⟨v, hv, Int64.lt_of_le_of_lt hHigh hBid, hBid⟩
    · rintro ⟨v, hv, hPos, hLt⟩
      exact ⟨(best_bid {} 0 venues).mpr (.inr ⟨v, hv, hPos⟩), (best_bid {} price venues).mpr (.inr ⟨v, hv, hLt⟩)⟩

/-- The validator answers as the quotes that were reported call for. -/
def Right (price : Int64) : Prop :=
  (Through history side price → validateExecution (table history) side price false = some false) ∧
    (¬ Through history side price → validateExecution (table history) side price false = some true)

def Fits (total : Int) : Prop := kInt64Min ≤ total ∧ total ≤ kInt64Max

/-- The sizes shown at a price add up, one after the other. -/
def Adds (price size : ProtectedBBO → Int64) (venues : List ProtectedBBO) (national : Int64) (total : Int) : Prop :=
  ∀ shown, shown <+: venues.filter (price · = national) → Fits (total + (shown.map fun v => (size v).toInt).sum)

variable {total : Int}

theorem checkedAdd_cases (h : Fits total) (size : Int) : checkedAdd total size = none ∧ ¬ Fits (total + size) ∨
      checkedAdd total size = some (total + size) ∧ Fits (total + size) := by
  rw [Fits] at h
  simp only [checkedAdd, Fits, Bool.or_eq_true, Bool.and_eq_true, decide_eq_true_eq]
  split_ifs with hOver
  · exact .inl ⟨rfl, by omega⟩
  · exact .inr ⟨rfl, by omega⟩

theorem depth_isSome_iff (price size : ProtectedBBO → Int64) (venues : List ProtectedBBO) (national : Int64)
    (hTotal : Fits total) :
    (venues.foldlM (fun total v => if price v = national then checkedAdd total (size v).toInt else some total)
      total).isSome = true ↔ Adds price size venues national total := by
  induction venues generalizing total with
  | nil => simpa [Adds] using hTotal
  | cons v venues ih =>
    by_cases hPrice : price v = national
    · rw [foldlM_cons, if_pos hPrice, Adds, filter_cons_of_pos (by simpa using hPrice)]
      rcases checkedAdd_cases hTotal (size v).toInt with ⟨hNone, hOver⟩ | ⟨hSome, hFits⟩
      · rw [hNone]
        refine iff_of_false nofun fun hAll => hOver ?_
        simpa using hAll [v] ⟨_, rfl⟩
      rw [hSome]
      refine (ih hFits).trans ⟨fun h shown hShown => ?_, fun h shown hShown => ?_⟩
      · cases shown with
        | nil => simpa using hTotal
        | cons w shown =>
          obtain ⟨rfl, hRest⟩ := cons_prefix_cons.mp hShown
          simpa [add_assoc] using h _ hRest
      · simpa [add_assoc] using h _ (cons_prefix_cons.mpr ⟨rfl, hShown⟩)
    · simpa [hPrice, Adds] using ih hTotal

def Sized (venues : List ProtectedBBO) : Prop := Adds (·.bestBid) (·.bidSize) venues (best venues).nationalBestBid 0 ∧
    Adds (·.bestAsk) (·.askSize) venues (best venues).nationalBestAsk 0

theorem computeNbbo_isSome_iff (venues : List ProtectedBBO) : (computeNbbo venues).isSome = true ↔ Sized venues := by
  have hZero : Fits 0 := ⟨by decide, by decide⟩
  have hBid := depth_isSome_iff (·.bestBid) (·.bidSize) venues (best venues).nationalBestBid hZero
  have hAsk := depth_isSome_iff (·.bestAsk) (·.askSize) venues (best venues).nationalBestAsk hZero
  rw [Sized, ← hBid, ← hAsk, ← depth, ← depth, computeNbbo]
  cases depth (·.bestBid) (·.bidSize) venues (best venues).nationalBestBid with
  | none => exact iff_of_false nofun fun h => nomatch h.1
  | some totalBidSize =>
    cases depth (·.bestAsk) (·.askSize) venues (best venues).nationalBestAsk with
    | none => exact iff_of_false nofun fun h => nomatch h.2
    | some totalAskSize => exact iff_of_true rfl ⟨rfl, rfl⟩

theorem seenThrough_iff (price : Int64) :
    SeenThrough history side price ↔ ∃ v ∈ table history, Better side price v := by
  rw [SeenThrough, ← (table_ids history).1]
  constructor
  · rintro ⟨_, hListed, v, hLatest, hBetter⟩
    obtain ⟨w, hw, rfl⟩ := mem_map.mp hListed
    cases hLatest.symm.trans (latest_of_mem history w hw)
    exact ⟨v, hw, hBetter⟩
  · rintro ⟨v, hv, hBetter⟩
    exact ⟨v.venueId, mem_map_of_mem hv, v, latest_of_mem history v hv, hBetter⟩

/-- The validator is right exactly if the sizes at the best prices add up, and a better quote of a venue that has no
place in the table comes with one of a venue that has. -/
theorem validates_iff (price : Int64) :
    Right history side price ↔ Sized (table history) ∧
      (Through history side price → SeenThrough history side price) := by
  rw [seenThrough_iff, ← computeNbbo_isSome_iff]
  cases hNbbo : computeNbbo (table history) with
  | none =>
    have hNone : validateExecution (table history) side price false = none := by
      rw [validateExecution, hNbbo]
      rfl
    rw [Right, hNone]
    by_cases hThrough : Through history side price <;> simp [hThrough]
  | some nbbo =>
    obtain ⟨passes, hPasses, hBetter⟩ := false_iff_better hNbbo side price
    have hLatest := latest_of_mem history
    have hSeen : (∃ v ∈ table history, Better side price v) → Through history side price :=
      fun ⟨v, hv, hBetter⟩ => ⟨_, v, hLatest v hv, hBetter⟩
    rw [Right, hPasses]
    cases passes with
    | false => exact iff_of_true ⟨fun _ => rfl, fun h => absurd (hSeen (hBetter.mp rfl)) h⟩ ⟨rfl, fun _ => hBetter.mp rfl⟩
    | true =>
      constructor
      · exact fun hRight => ⟨rfl, fun hThrough => nomatch hRight.1 hThrough⟩
      · exact fun h => ⟨fun hThrough => (nomatch hBetter.mpr (h.2 hThrough)), fun _ => rfl⟩

/-- The seventeenth venue asks 90; a buy at 100 passes. -/
theorem seventeenth_venue_missed :
    let history := (List.range 16).map (fun i => { venueId := .ofNat i, bestAsk := 100 }) ++
      [{ venueId := 16, bestAsk := 90 }]
    latest history 16 = some { venueId := 16, bestAsk := 90 } ∧
      validateExecution (table history) kBuy 100 false = some true ∧ ¬ Right history kBuy 100 := by
  refine ⟨by decide +kernel, by decide +kernel, fun hRight => ?_⟩
  have hFalse := hRight.1 ⟨16, { venueId := 16, bestAsk := 90 }, by decide +kernel, by rw [Better]; decide +kernel⟩
  exact absurd hFalse (by decide +kernel)

end LuvFlicker.RegNms
