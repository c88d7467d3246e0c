import LuvFlicker.Lib.Run
import LuvFlicker.Lib.Scan
import LuvFlicker.Lib.Tally

/-!
# Netting of trades

The clearing house keeps one net position for each broker and symbol in a table of
fixed size. A trade moves quantity from the seller to the buyer and cash the other
way.
-/

namespace LuvFlicker.Clearing

open Run Scan Tally Function

def kMaxBrokers : Nat := 64

structure TradeRecord where
  buyBrokerId : UInt32 := 0
  sellBrokerId : UInt32 := 0
  symbolIdx : UInt16 := 0
  price : Int := 0
  qty : Int := 0
  deriving DecidableEq

structure BrokerNetPosition where
  brokerId : UInt32 := 0
  symbolIdx : UInt16 := 0
  netQty : Int := 0
  netCash : Int := 0
  grossTrades : Nat := 0
  deriving DecidableEq

structure ClearingHouseEngine where
  brokers : Nat → BrokerNetPosition := fun _ => {}
  numBrokers : Nat := 0

namespace ClearingHouseEngine

def isFor (brokerId : UInt32) (symbolIdx : UInt16) (position : BrokerNetPosition) : Bool :=
  position.brokerId = brokerId ∧ position.symbolIdx = symbolIdx

def findOrCreate (brokerId : UInt32) (symbolIdx : UInt16) (s : ClearingHouseEngine) :
    Option (Nat × ClearingHouseEngine) :=
  match firstIndex (fun i => isFor brokerId symbolIdx (s.brokers i)) s.numBrokers with
  | some i => some (i, s)
  | none =>
    if s.numBrokers < kMaxBrokers then
      some (s.numBrokers,
        { brokers := update s.brokers s.numBrokers { brokerId := brokerId, symbolIdx := symbolIdx }
          numBrokers := s.numBrokers + 1 })
    else none

def book (i : Nat) (qty cash : Int) (s : ClearingHouseEngine) : ClearingHouseEngine :=
  let position := s.brokers i
  { s with
    brokers := update s.brokers i
      { position with
        netQty := position.netQty + qty, netCash := position.netCash + cash
        grossTrades := position.grossTrades + 1 } }

def recordAndNetTrade (trade : TradeRecord) (s : ClearingHouseEngine) : Bool × ClearingHouseEngine :=
  if trade.qty ≤ 0 ∨ trade.price ≤ 0 then (false, s)
  else
    let settlementCash := (trade.qty * trade.price).tdiv 10000
    match s.findOrCreate trade.buyBrokerId trade.symbolIdx with
    | none => (false, s)
    | some (buyer, s) =>
      let s := s.book buyer trade.qty (-settlementCash)
      match s.findOrCreate trade.sellBrokerId trade.symbolIdx with
      | none => (false, s)
      | some (seller, s) => (true, s.book seller (-trade.qty) settlementCash)

/-! ## Balances -/

section

variable (s : ClearingHouseEngine)

def netQty (symbolIdx : UInt16) : Int :=
  total s.numBrokers (fun position => if position.symbolIdx = symbolIdx then position.netQty else 0) s.brokers

def netCash : Int := total s.numBrokers (·.netCash) s.brokers

def ZeroSum : Prop := (∀ symbolIdx, s.netQty symbolIdx = 0) ∧ s.netCash = 0

end

variable {s s' : ClearingHouseEngine} {brokerId : UInt32} {symbolIdx : UInt16} {i : Nat}

structure Found (brokerId : UInt32) (symbolIdx : UInt16) (s : ClearingHouseEngine) (i : Nat) (s' : ClearingHouseEngine) :
    Prop where
  lt : i < s'.numBrokers
  symbol : (s'.brokers i).symbolIdx = symbolIdx
  broker : (s'.brokers i).brokerId = brokerId
  capacity : s.numBrokers ≤ kMaxBrokers → s'.numBrokers ≤ kMaxBrokers
  qty : ∀ symbol, s'.netQty symbol = s.netQty symbol
  cash : s'.netCash = s.netCash

theorem total_create {weight : BrokerNetPosition → Int} {new : BrokerNetPosition} (h : weight new = 0)
    (s : ClearingHouseEngine) :
    total (s.numBrokers + 1) weight (update s.brokers s.numBrokers new) = total s.numBrokers weight s.brokers := by
  rw [total, Finset.sum_range_succ, update_self, h, add_zero]
  refine Finset.sum_congr rfl fun j hj => ?_
  rw [update_of_ne (Finset.mem_range.mp hj).ne]

theorem found_of_findOrCreate (h : s.findOrCreate brokerId symbolIdx = some (i, s')) :
    Found brokerId symbolIdx s i s' := by
  rw [findOrCreate] at h
  split at h
  next hFirst =>
    cases h
    obtain ⟨hLt, hFor, -⟩ := (firstIndex_eq_some_iff _ _ _).mp hFirst
    obtain ⟨hBroker, hSymbol⟩ := of_decide_eq_true hFor
    exact ⟨hLt, hSymbol, hBroker, id, fun _ => rfl, rfl⟩
  · split at h
    next hRoom =>
      cases h
      have hNew : update s.brokers s.numBrokers { brokerId := brokerId, symbolIdx := symbolIdx } s.numBrokers =
          { brokerId := brokerId, symbolIdx := symbolIdx } := update_self ..
      refine ⟨Nat.lt_succ_self _, congrArg _ hNew, congrArg _ hNew, fun _ => hRoom,
        fun _ => total_create ?_ s, total_create rfl s⟩
      exact ite_self 0
    · cases h

theorem findOrCreate_eq_none_iff : s.findOrCreate brokerId symbolIdx = none ↔
    (∀ i < s.numBrokers, isFor brokerId symbolIdx (s.brokers i) = false) ∧ kMaxBrokers ≤ s.numBrokers := by
  rw [findOrCreate]
  split
  next hFirst =>
    refine iff_of_false nofun fun h => ?_
    obtain ⟨hLt, hFor, -⟩ := (firstIndex_eq_some_iff _ _ _).mp hFirst
    exact Bool.false_ne_true ((h.1 _ hLt).symm.trans hFor)
  next hNone =>
    rw [firstIndex_eq_none_iff] at hNone
    split
    next hRoom => exact iff_of_false nofun fun h => not_le_of_gt hRoom h.2
    next hFull => exact iff_of_true rfl ⟨hNone, not_lt.mp hFull⟩

theorem brokers_book (i : Nat) (qty cash : Int) (s : ClearingHouseEngine) : (s.book i qty cash).brokers i =
      { s.brokers i with
        netQty := (s.brokers i).netQty + qty, netCash := (s.brokers i).netCash + cash
        grossTrades := (s.brokers i).grossTrades + 1 } := update_self ..

theorem brokers_book_of_ne {j : Nat} (h : j ≠ i) {qty cash : Int} : (s.book i qty cash).brokers j = s.brokers j :=
  update_of_ne h ..

theorem netQty_book (hi : i < s.numBrokers) (qty cash : Int) (symbol : UInt16) :
    (s.book i qty cash).netQty symbol = s.netQty symbol + if (s.brokers i).symbolIdx = symbol then qty else 0 := by
  rw [netQty, book, total_update hi, netQty]
  split
  · ring
  · ring

theorem netCash_book (hi : i < s.numBrokers) (qty cash : Int) : (s.book i qty cash).netCash = s.netCash + cash := by
  rw [netCash, book, total_update hi, netCash]
  ring

/-! ## One trade -/

def Lists (s : ClearingHouseEngine) (brokerId : UInt32) (symbolIdx : UInt16) : Prop :=
  ∃ i < s.numBrokers, isFor brokerId symbolIdx (s.brokers i) = true

instance (s : ClearingHouseEngine) (brokerId : UInt32) (symbolIdx : UInt16) : Decidable (s.Lists brokerId symbolIdx) :=
  inferInstanceAs (Decidable (∃ i < s.numBrokers, isFor brokerId symbolIdx (s.brokers i) = true))

/-- The buyer of a valid trade has a place in the table, and there is none left for the seller. -/
def NoPlaceForSeller (trade : TradeRecord) (s : ClearingHouseEngine) : Prop :=
  0 < trade.qty ∧ 0 < trade.price ∧ trade.sellBrokerId ≠ trade.buyBrokerId ∧
    ¬ s.Lists trade.sellBrokerId trade.symbolIdx ∧
    s.numBrokers + (if s.Lists trade.buyBrokerId trade.symbolIdx then 0 else 1) = kMaxBrokers

theorem not_lists_iff : ¬ s.Lists brokerId symbolIdx ↔
    ∀ i < s.numBrokers, isFor brokerId symbolIdx (s.brokers i) = false := by
  simp only [Lists, not_exists, not_and, Bool.not_eq_true]

theorem lists_of_findOrCreate (h : s.findOrCreate brokerId symbolIdx = some (i, s')) {other : UInt32}
    (hOther : other ≠ brokerId) :
    (s'.Lists other symbolIdx ↔ s.Lists other symbolIdx) ∧
      s'.numBrokers = s.numBrokers + if s.Lists brokerId symbolIdx then 0 else 1 := by
  rw [findOrCreate] at h
  split at h
  next hFirst =>
    cases h
    obtain ⟨hLt, hFor, -⟩ := (firstIndex_eq_some_iff _ _ _).mp hFirst
    rw [if_pos ⟨i, hLt, hFor⟩]
    exact ⟨Iff.rfl, rfl⟩
  rename_i hNone
  rw [firstIndex_eq_none_iff] at hNone
  split at h
  · cases h
    rw [if_neg (not_lists_iff.mpr hNone)]
    refine ⟨⟨?_, ?_⟩, rfl⟩
    · rintro ⟨j, hj, hFor⟩
      rcases Nat.lt_succ_iff_lt_or_eq.mp hj with hOld | rfl
      · refine ⟨j, hOld, ?_⟩
        dsimp only at hFor
        rwa [update_of_ne hOld.ne] at hFor
      · dsimp only at hFor
        rw [update_self] at hFor
        exact absurd (of_decide_eq_true hFor).1.symm hOther
    · rintro ⟨j, hj, hFor⟩
      refine ⟨j, Nat.lt_succ_of_lt hj, ?_⟩
      dsimp only
      rwa [update_of_ne hj.ne]
  · cases h

theorem lists_book {i : Nat} {qty cash : Int} (s : ClearingHouseEngine) :
    (s.book i qty cash).Lists brokerId symbolIdx ↔ s.Lists brokerId symbolIdx := by
  have hSame (j : Nat) :
      isFor brokerId symbolIdx ((s.book i qty cash).brokers j) = isFor brokerId symbolIdx (s.brokers j) := by
    rcases eq_or_ne j i with rfl | hj
    · rw [brokers_book]
      rfl
    · rw [brokers_book_of_ne hj]
  simp only [Lists, hSame]
  rfl

inductive Netted (trade : TradeRecord) (s : ClearingHouseEngine) : Bool × ClearingHouseEngine → Prop
  | refused (hRoom : ¬ NoPlaceForSeller trade s) : Netted trade s (false, s)
  | half (hFull : NoPlaceForSeller trade s) {s' : ClearingHouseEngine} (hQty : s'.netQty trade.symbolIdx =
      s.netQty trade.symbolIdx + trade.qty) : Netted trade s (false, s')
  | done (hRoom : ¬ NoPlaceForSeller trade s) {s' : ClearingHouseEngine}
      (hCapacity : s.numBrokers ≤ kMaxBrokers → s'.numBrokers ≤ kMaxBrokers)
      (hQty : ∀ symbol, s'.netQty symbol = s.netQty symbol) (hCash : s'.netCash = s.netCash) : Netted trade s (true, s')

theorem netted (hCapacity : s.numBrokers ≤ kMaxBrokers) (trade : TradeRecord) :
    Netted trade s (s.recordAndNetTrade trade) := by
  rw [recordAndNetTrade]
  split
  next hInvalid =>
    refine .refused fun hPlace => ?_
    have hQty := hPlace.1
    have hPrice := hPlace.2.1
    omega
  rename_i hValid
  rw [not_or, not_le, not_le] at hValid
  cases hBuy : s.findOrCreate trade.buyBrokerId trade.symbolIdx with
  | none =>
    obtain ⟨hNot, hFull⟩ := findOrCreate_eq_none_iff.mp hBuy
    refine .refused fun hPlace => ?_
    have hCount := hPlace.2.2.2.2
    rw [if_neg (not_lists_iff.mpr hNot)] at hCount
    omega
  | some bought =>
    obtain ⟨buyer, s'⟩ := bought
    have hBuyer := found_of_findOrCreate hBuy
    have hCapacity' := hBuyer.capacity hCapacity
    dsimp only
    generalize (trade.qty * trade.price).tdiv 10000 = cash
    cases hSell : (s'.book buyer trade.qty (-cash)).findOrCreate trade.sellBrokerId trade.symbolIdx with
    | none =>
      obtain ⟨hNot, hFull⟩ := findOrCreate_eq_none_iff.mp hSell
      -- the buyer has an entry by now, so the seller is another broker
      have hOther : trade.sellBrokerId ≠ trade.buyBrokerId := by
        intro hSame
        have hAbsent := hNot _ hBuyer.lt
        rw [brokers_book, isFor, decide_eq_false_iff_not] at hAbsent
        exact hAbsent ⟨hBuyer.broker.trans hSame.symm, hBuyer.symbol⟩
      obtain ⟨hLists, hCount⟩ := lists_of_findOrCreate hBuy hOther
      refine .half ⟨hValid.1, hValid.2, hOther, ?_, ?_⟩ ?_
      · rw [← hLists, ← lists_book, not_lists_iff]
        exact hNot
      · rw [← hCount]
        exact le_antisymm hCapacity' hFull
      · rw [netQty_book hBuyer.lt, hBuyer.qty, if_pos hBuyer.symbol]
    | some sold =>
      obtain ⟨_, _⟩ := sold
      have hSeller := found_of_findOrCreate hSell
      refine .done (fun hPlace => ?_) (fun _ => hSeller.capacity hCapacity') (fun _ => ?_) ?_
      · obtain ⟨-, -, hOther, hNot, hFull⟩ := hPlace
        obtain ⟨hLists, hCount⟩ := lists_of_findOrCreate hBuy hOther
        rw [← hLists, ← lists_book, not_lists_iff] at hNot
        rw [← hCount] at hFull
        exact nomatch (findOrCreate_eq_none_iff.mpr ⟨hNot, hFull.ge⟩).symm.trans hSell
      · rw [netQty_book hSeller.lt, hSeller.qty, netQty_book hBuyer.lt, hBuyer.qty, hSeller.symbol, hBuyer.symbol]
        split
        · ring
        · ring
      · rw [netCash_book hSeller.lt, hSeller.cash, netCash_book hBuyer.lt, hBuyer.cash]
        ring

/-! ## Runs of trades -/

/-- After the call the positions add up to zero, and they are as before if the trade was refused. -/
def Settles (trade : TradeRecord) (s : ClearingHouseEngine) : Prop :=
  ZeroSum (s.recordAndNetTrade trade).2 ∧ ((s.recordAndNetTrade trade).1 = false → (s.recordAndNetTrade trade).2 = s)

theorem settles_iff (hCapacity : s.numBrokers ≤ kMaxBrokers) (hZero : s.ZeroSum) (trade : TradeRecord) :
    Settles trade s ↔ ¬ NoPlaceForSeller trade s := by
  have hNetted := netted hCapacity trade
  rw [Settles]
  generalize s.recordAndNetTrade trade = out at hNetted
  cases hNetted with
  | refused hRoom => exact iff_of_true ⟨hZero, fun _ => rfl⟩ hRoom
  | half hFull hQty =>
    refine iff_of_false (fun h => ?_) (not_not.mpr hFull)
    have hSum := h.1.1 trade.symbolIdx
    rw [hQty, hZero.1, zero_add] at hSum
    exact hFull.1.ne' hSum
  | done hRoom hCapacity hQty hCash =>
    refine iff_of_true ⟨⟨fun _ => ?_, ?_⟩, nofun⟩ hRoom
    · rw [hQty, hZero.1]
    · rw [hCash, hZero.2]

/-- Every call of a run settles exactly if no call finds a place for the buyer and none for the seller. -/
theorem trades_settle_iff (trades : List TradeRecord) : Always recordAndNetTrade Settles trades {} ↔
      Always recordAndNetTrade (fun trade s => ¬ NoPlaceForSeller trade s) trades {} := by
  have hAll : Always recordAndNetTrade (fun _ _ => True) trades {} := always_of_forall (fun _ _ => trivial) _ _
  refine hAll.iff_of_invariant (fun s => s.numBrokers ≤ kMaxBrokers ∧ s.ZeroSum) (fun trade s _ hInv => ?_)
    (fun trade s _ hRoom hInv => ?_) ?_
  · exact settles_iff hInv.1 hInv.2 _
  · refine ⟨?_, ((settles_iff hInv.1 hInv.2 _).mpr hRoom).1⟩
    have hNetted := netted hInv.1 trade
    generalize s.recordAndNetTrade trade = out at hNetted
    cases hNetted with
    | refused => exact hInv.1
    | half hFull => exact absurd hFull hRoom
    | done _ hKeeps => exact hKeeps hInv.1
  · exact ⟨Nat.zero_le _, fun _ => rfl, rfl⟩

def selfTrade (brokerId : Nat) : TradeRecord :=
  { buyBrokerId := .ofNat brokerId, sellBrokerId := .ofNat brokerId, price := 10000, qty := 1 }

/-- With one place left the buyer gets it, the seller gets none, and the refused trade stays booked on one side. -/
theorem last_place_unsettles :
    let trade : TradeRecord := { buyBrokerId := 100, sellBrokerId := 101, price := 10000, qty := 5 }
    let s := final recordAndNetTrade ((List.range 63).map selfTrade) {}
    (s.recordAndNetTrade trade).1 = false ∧ (s.recordAndNetTrade trade).2.netQty 0 = 5 ∧
      ¬ Settles trade s := by
  have hRun : let trade : TradeRecord := { buyBrokerId := 100, sellBrokerId := 101, price := 10000, qty := 5 }
      let s := final recordAndNetTrade ((List.range 63).map selfTrade) {}
      (s.recordAndNetTrade trade).1 = false ∧ (s.recordAndNetTrade trade).2.netQty 0 = 5 := by
    decide +kernel
  refine ⟨hRun.1, hRun.2, fun hSettles => ?_⟩
  have hSum := hSettles.1.1 0
  rw [hRun.2] at hSum
  exact absurd hSum (by decide)

end ClearingHouseEngine

end LuvFlicker.Clearing
