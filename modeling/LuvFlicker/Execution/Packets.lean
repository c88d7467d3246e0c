import LuvFlicker.Execution.Gateway
import LuvFlicker.Lib.Block

/-!
# What the outbound packets carry

An accepted order or replacement has passed the limits, and these keep its quantity
and its price within 32 bits: the packet carries them as they are.
-/

namespace LuvFlicker

open Bytes Block Config List Int64 PreTradeRisk Ouch UInt8

namespace Ouch

/-! ## Fields of a packet -/

def wire (packet : OutboundPacket) : List UInt8 := slice packet.bytes 0 packet.len.toNat

variable {n offset : Nat}

theorem wire_mk {bytes : Nat → UInt8} (h : n < 2 ^ 16) : wire ⟨.ofNat n, bytes⟩ = slice bytes 0 n := by
  have hLen : (UInt16.ofNat n).toNat = n := UInt16.toNat_ofNat_of_lt' h
  exact congrArg _ hLen

variable (dst : Nat → UInt8)

theorem store_eq_memcpy (offset : Nat) (src : List UInt8) : store dst offset src = memcpy dst offset src := by
  funext i
  rw [store, memcpy]
  split
  next hIn =>
    rw [if_pos hIn.1, getD_eq_getElem?_getD, getElem?_eq_getElem (by omega), Option.getD_some, Option.getD_some]
  rename_i hOut
  split
  · rw [getElem?_eq_none (by omega), Option.getD_none]
  · rfl

variable {offset start n : Nat}

theorem slice_store_of_le (src : List UInt8) (h : start + n ≤ offset) :
    slice (store dst offset src) start n = slice dst start n := by
  rw [store_eq_memcpy, slice_memcpy_of_le dst src h]

theorem slice_store_of_ge (src : List UInt8)
    (h : offset + src.length ≤ start) : slice (store dst offset src) start n = slice dst start n := by
  rw [store_eq_memcpy, slice_memcpy_of_ge dst n src h]

theorem slice_store (offset : Nat) (src : List UInt8) (h : src.length = n) :
    slice (store dst offset src) offset n = src := by
  rw [store_eq_memcpy, ← h, slice_memcpy]

theorem slice_storeU32Be_of_le (v : UInt32) (h : start + n ≤ offset) :
    slice (storeU32Be dst offset v) start n = slice dst start n :=
  slice_store_of_le dst _ h

theorem slice_storeU32Be_of_ge (v : UInt32) (h : offset + 4 ≤ start) :
    slice (storeU32Be dst offset v) start n = slice dst start n :=
  slice_store_of_ge dst _ h

theorem shifted_eq_toBytesBe (v : UInt32) :
    [(v >>> 24).toUInt8, (v >>> 16).toUInt8, (v >>> 8).toUInt8, v.toUInt8] = toBytesBe 4 v.toNat := by
  have hByte (k : UInt32) (hk : k.toNat < 32) : (v >>> k).toUInt8 = UInt8.ofNat (v.toNat / 2 ^ k.toNat) := by
    apply UInt8.toNat_inj.mp
    rw [UInt32.toNat_toUInt8, UInt32.toNat_shiftRight, Nat.mod_eq_of_lt hk, Nat.shiftRight_eq_div_pow,
      UInt8.toNat_ofNat']
  rw [hByte 24 (by decide), hByte 16 (by decide), hByte 8 (by decide)]
  simp [toBytesBe, toBytes, Nat.div_div_eq_div_mul]

theorem slice_storeU32Be (offset : Nat) (v : UInt32) :
    slice (storeU32Be dst offset v) offset 4 = toBytesBe 4 v.toNat := by
  rw [storeU32Be, shifted_eq_toBytesBe, slice_store dst _ _ (length_toBytesBe 4 _)]

theorem take_drop_slice (f : Nat → UInt8) {width : Nat} (h : offset + width ≤ n) :
    ((slice f 0 n).drop offset).take width = slice f offset width := by
  rw [drop_slice, take_slice f (by omega), zero_add]

variable {f : Nat → UInt8}

theorem beField_slice {v : UInt32} (hWithin : offset + 4 ≤ n)
    (h : slice f offset 4 = toBytesBe 4 v.toNat) : beField (slice f 0 n) offset 4 = v.toNat := by
  have hLt : v.toNat < 256 ^ 4 := v.toNat_lt
  rw [beField, take_drop_slice f hWithin, h, toBytesBe, reverse_reverse, ofBytes_toBytes, Nat.mod_eq_of_lt hLt]

theorem byteAt_slice {byte : UInt8} (hWithin : offset < n)
    (h : slice f offset 1 = [byte]) : byteAt (slice f 0 n) offset = byte := by
  rw [byteAt, getD_eq_getElem?_getD, getElem?_slice, if_pos hWithin, zero_add]
  exact head_eq_of_cons_eq h

/-! ## Enter orders -/

def sideLetter (side : UInt8) : UInt8 := if side &&& 1 = Exec.kBuy then 'B'.toUInt8 else 'S'.toUInt8

/-- The fields of an enter order at their offsets are those of the intent. -/
structure CarriesOrder (raw : List UInt8) (intent : OrderIntent) : Prop where
  length : raw.length = kEnterOrderLen
  msgType : byteAt raw kMsgTypeOffset = 'O'.toUInt8
  token : beField raw kTokenOffset 4 = intent.clientOrderId.toNat
  side : byteAt raw kSideOffset = sideLetter intent.side
  qty : (beField raw kQtyOffset 4 : Int) = intent.qty.toInt
  symbol : (raw.drop kSymbolOffset).take 8 = makeSymbol intent.symbolIdx
  price : (beField raw kPriceOffset 4 : Int) = intent.price.toInt
  timeInForce : beField raw kTimeInForceOffset 4 = intent.timeInForce.toNat

theorem slice_template {sym : Nat} {side : UInt8} : slice (initTemplate sym side) kMsgTypeOffset 1 = ['O'.toUInt8] ∧
      slice (initTemplate sym side) kSideOffset 1 = [if side = Exec.kBuy then 'B'.toUInt8 else 'S'.toUInt8] ∧
      slice (initTemplate sym side) kSymbolOffset 8 = makeSymbol sym := by
  refine ⟨?_, ?_, ?_⟩
  all_goals
    simp (disch := decide) only [initTemplate, slice_store_of_le, slice_storeU32Be_of_le]
    exact slice_store _ _ _ rfl

theorem clampU32_of_fits {v : Int64} (h : 0 ≤ v.toInt) (h' : v.toInt ≤ 0xFFFFFFFF) :
    ((clampU32 v).toNat : Int) = v.toInt := by
  have hNonneg : 0 ≤ v := le_iff_toInt_le.mpr h
  have hNat := toUInt64_toNat_of_nonneg hNonneg
  have hLast : (0xFFFFFFFF : UInt64).toNat = 0xFFFFFFFF := rfl
  have hFits : v.toUInt64 ≤ 0xFFFFFFFF := by
    rw [UInt64.le_iff_toNat_le]
    omega
  rw [clampU32, if_pos ⟨hNonneg, hFits⟩, UInt64.toNat_toUInt32, Nat.mod_eq_of_lt (by omega), hNat]

/-- The number is not clamped. -/
def Fits (v : Int64) : Prop := 0 ≤ v.toInt ∧ v.toInt ≤ 0xFFFFFFFF

variable {intent : OrderIntent}

theorem carriesOrder_of_build {out packet : OutboundPacket} (hQty : Fits intent.qty)
    (hPrice : Fits intent.price) (h : buildEnterOrder intent out = some packet) : CarriesOrder (wire packet) intent := by
  rw [buildEnterOrder] at h
  split at h
  · cases h
  cases h
  obtain ⟨hType, hSide, hSymbol⟩ := slice_template
  have hTemplate (start n : Nat) (hWithin : start + n ≤ kEnterOrderLen) :
      slice (fun i => if i < kEnterOrderLen then initTemplate intent.symbolIdx (intent.side &&& 1) i else out.bytes i)
        start n = slice (initTemplate intent.symbolIdx (intent.side &&& 1)) start n :=
    slice_congr fun k _ => if_pos (by omega)
  rw [wire_mk (by decide)]
  constructor
  · exact length_slice ..
  · refine byteAt_slice (by decide) ?_
    simp (disch := decide) only [slice_storeU32Be_of_le]
    rw [hTemplate _ _ (by decide), hType]
  · refine beField_slice (by decide) ?_
    simp (disch := decide) only [slice_storeU32Be_of_le]
    exact slice_storeU32Be ..
  · refine byteAt_slice (by decide) ?_
    simp (disch := decide) only [slice_storeU32Be_of_le, slice_storeU32Be_of_ge]
    rw [hTemplate _ _ (by decide), hSide, sideLetter]
  · rw [← clampU32_of_fits hQty.1 hQty.2]
    refine congrArg _ (beField_slice (by decide) ?_)
    simp (disch := decide) only [slice_storeU32Be_of_le]
    exact slice_storeU32Be ..
  · refine (take_drop_slice _ (by decide)).trans ?_
    simp (disch := decide) only [slice_storeU32Be_of_le, slice_storeU32Be_of_ge]
    rw [hTemplate _ _ (by decide), hSymbol]
  · rw [← clampU32_of_fits hPrice.1 hPrice.2]
    refine congrArg _ (beField_slice (by decide) ?_)
    simp (disch := decide) only [slice_storeU32Be_of_le]
    exact slice_storeU32Be ..
  · refine (beField_slice (by decide) (slice_storeU32Be ..)).trans ?_
    exact toNat_toUInt32 _

/-! ## Replacements -/

structure CarriesReplacement (raw : List UInt8) (intent : OrderReplaceIntent) : Prop where
  length : raw.length = kReplaceOrderLen
  msgType : byteAt raw kReplaceMsgTypeOffset = 'U'.toUInt8
  existing : beField raw kReplaceExistingTokenOffset 4 = intent.originalOrderId.toNat
  replacement : beField raw kReplaceReplacementTokenOffset 4 = intent.replacementOrderId.toNat
  qty : (beField raw kReplaceQtyOffset 4 : Int) = intent.newQty.toInt
  price : (beField raw kReplacePriceOffset 4 : Int) = intent.newPrice.toInt
  timeInForce : beField raw kReplaceTimeInForceOffset 4 = intent.timeInForce.toNat

variable {intent : OrderReplaceIntent} {packet : OutboundPacket}

theorem carriesReplacement_of_build (hQty : Fits intent.newQty)
    (hPrice : Fits intent.newPrice) (h : buildReplaceOrder intent = some packet) :
    CarriesReplacement (wire packet) intent := by
  rw [buildReplaceOrder] at h
  split at h
  · cases h
  cases h
  rw [wire_mk (by decide)]
  constructor
  · exact length_slice ..
  · refine byteAt_slice (by decide) ?_
    simp (disch := decide) only [slice_storeU32Be_of_le, slice_store_of_le]
    exact slice_store _ _ _ rfl
  · refine beField_slice (by decide) ?_
    simp (disch := decide) only [slice_storeU32Be_of_le, slice_store_of_le]
    exact slice_storeU32Be ..
  · refine beField_slice (by decide) ?_
    simp (disch := decide) only [slice_storeU32Be_of_le, slice_store_of_le]
    exact slice_storeU32Be ..
  · rw [← clampU32_of_fits hQty.1 hQty.2]
    refine congrArg _ (beField_slice (by decide) ?_)
    simp (disch := decide) only [slice_storeU32Be_of_le, slice_store_of_le]
    exact slice_storeU32Be ..
  · rw [← clampU32_of_fits hPrice.1 hPrice.2]
    refine congrArg _ (beField_slice (by decide) ?_)
    simp (disch := decide) only [slice_storeU32Be_of_le, slice_store_of_le]
    exact slice_storeU32Be ..
  · rw [← toNat_toUInt32]
    refine beField_slice (by decide) ?_
    simp (disch := decide) only [slice_store_of_le]
    exact slice_storeU32Be ..

/-! ## Reading back -/

theorem digit_inj {m : Nat} (h : digit m = digit n) : m % 10 = n % 10 := by
  have hNat := congrArg UInt8.toNat h
  rw [digit, digit, toNat_ofNat', toNat_ofNat'] at hNat
  omega

theorem makeSymbol_inj {m : Nat} (hm : m < kSymbols) (hn : n < kSymbols) (h : makeSymbol m = makeSymbol n) : m = n := by
  rw [kSymbols] at hm hn
  simp only [makeSymbol, cons.injEq, true_and, and_true] at h
  have hHundreds := digit_inj h.1
  have hTens := digit_inj h.2.1
  have hOnes := digit_inj h.2.2
  omega

theorem and_one_cases (side : UInt8) : side &&& 1 = 0 ∨ side &&& 1 = 1 := by
  have hMod := Nat.and_one_is_mod side.toNat
  rcases Nat.mod_two_eq_zero_or_one side.toNat with hEven | hOdd
  · exact .inl (UInt8.toNat_inj.mp (hMod.trans hEven))
  · exact .inr (UInt8.toNat_inj.mp (hMod.trans hOdd))

theorem sideLetter_inj {s t : UInt8} (h : sideLetter s = sideLetter t) : s &&& 1 = t &&& 1 := by
  rw [sideLetter, sideLetter] at h
  rcases and_one_cases s with hs | hs
  · rcases and_one_cases t with ht | ht
    · rw [hs, ht]
    · rw [hs, ht] at h
      exact absurd h (by decide)
  · rcases and_one_cases t with ht | ht
    · rw [hs, ht] at h
      exact absurd h (by decide)
    · rw [hs, ht]

/-- Two orders that the same bytes carry differ at most in the upper bits of the side and in their times. -/
structure SameOrder (a b : OrderIntent) : Prop where
  symbol : a.symbolIdx = b.symbolIdx
  side : a.side &&& 1 = b.side &&& 1
  token : a.clientOrderId = b.clientOrderId
  qty : a.qty = b.qty
  price : a.price = b.price
  timeInForce : a.timeInForce = b.timeInForce

/-- Two replacements that the same bytes carry differ at most in the symbol and in their times. -/
structure SameReplacement (a b : OrderReplaceIntent) : Prop where
  original : a.originalOrderId = b.originalOrderId
  replacement : a.replacementOrderId = b.replacementOrderId
  qty : a.newQty = b.newQty
  price : a.newPrice = b.newPrice
  timeInForce : a.timeInForce = b.timeInForce

variable {raw : List UInt8}

theorem CarriesOrder.unique {a b : OrderIntent} (ha : CarriesOrder raw a) (hb : CarriesOrder raw b)
    (haSymbol : a.symbolIdx < kSymbols) (hbSymbol : b.symbolIdx < kSymbols) : SameOrder a b where
  symbol := makeSymbol_inj haSymbol hbSymbol (ha.symbol.symm.trans hb.symbol)
  side := sideLetter_inj (ha.side.symm.trans hb.side)
  token := UInt32.toNat_inj.mp (ha.token.symm.trans hb.token)
  qty := toInt_inj.mp (ha.qty.symm.trans hb.qty)
  price := toInt_inj.mp (ha.price.symm.trans hb.price)
  timeInForce := UInt8.toNat_inj.mp (ha.timeInForce.symm.trans hb.timeInForce)

theorem CarriesReplacement.unique {a b : OrderReplaceIntent} (ha : CarriesReplacement raw a)
    (hb : CarriesReplacement raw b) : SameReplacement a b where
  original := UInt32.toNat_inj.mp (ha.existing.symm.trans hb.existing)
  replacement := UInt32.toNat_inj.mp (ha.replacement.symm.trans hb.replacement)
  qty := toInt_inj.mp (ha.qty.symm.trans hb.qty)
  price := toInt_inj.mp (ha.price.symm.trans hb.price)
  timeInForce := UInt8.toNat_inj.mp (ha.timeInForce.symm.trans hb.timeInForce)

end Ouch

/-! ## Accepted orders -/

theorem PreTradeRisk.fits_of_evaluate {risk : RiskState} {limits : ValidLimits}
    (h : (evaluate risk limits.val intent).pass = true) : Ouch.Fits intent.qty ∧ Ouch.Fits intent.price := by
  have hPassed := passed_of_evaluate h
  have hQty := hPassed.qty_pos
  have hQtyLe := hPassed.qty_le
  have hPrice := hPassed.price_pos
  have hValid := limits.property
  simp only [RiskLimits.isValid, Bool.and_eq_true, Numeric.isValidQuantity_iff, Numeric.kMaxQuantity] at hValid
  simp only [evaluate, Bool.and_eq_true] at h
  have hRange := h.1.1.2.1
  simp only [validPrice, Bool.and_eq_true, decide_eq_true_eq] at hRange
  have hNat := toUInt64_toNat_of_nonneg (le_iff_toInt_le.mpr (le_of_lt hPrice))
  have hLast : intent.price.toUInt64.toNat ≤ 0xFFFFFFFF := UInt64.le_iff_toNat_le.mp hRange.2
  exact ⟨⟨by omega, by omega⟩, by omega, by omega⟩

namespace ExecutionGateway

variable {g : ExecutionGateway} {env : GatewayEnv}

section

variable (g : ExecutionGateway) (env : GatewayEnv) (intent : OrderIntent)

theorem packet_of_submit {decision : RiskDecision}
    {packet : OutboundPacket} : (g.submit env intent decision packet).1.1.pass = true →
      (g.submit env intent decision packet).1.2 = packet := by
  rw [submit]
  dsimp only
  split
  · nofun
  split
  · nofun
  split
  · nofun
  split
  · nofun
  · intro _
    rfl

theorem built_of_tryBuild (packet : OutboundPacket) :
    (g.tryBuild env intent packet).1.1.pass = true → intent.symbolIdx < kSymbols ∧ (g.evaluate intent).pass = true ∧
      buildEnterOrder intent { packet with len := 0 } = some (g.tryBuild env intent packet).1.2 := by
  rw [tryBuild]
  dsimp only
  split
  · nofun
  rename_i hSymbol
  split
  · nofun
  split
  · nofun
  split
  next hFail =>
    intro h
    rw [Bool.and_eq_true] at h
    rw [h.1] at hFail
    cases hFail
  rename_i hPass
  split
  next hFull =>
    intro h
    rw [Bool.and_eq_true, decide_eq_true_iff] at h
    exact absurd h.2 hFull
  split
  · nofun
  rename_i built hBuilt
  intro h
  refine ⟨not_le.mp hSymbol, ?_, ?_⟩
  · rw [Bool.not_eq_true', Bool.not_eq_false] at hPass
    exact hPass
  · rw [packet_of_submit _ _ _ h]
    exact hBuilt

end

structure Replaces (g : ExecutionGateway) (intent : OrderReplaceIntent) : Prop where
  symbol_lt : intent.symbolIdx < kSymbols
  contains : g.reconciliation.contains intent.originalOrderId.toUInt64 = true
  found : ∃ slot, (g.states intent.symbolIdx).findLive intent.originalOrderId.toUInt64 = some slot
  passed : ∃ test : OrderIntent, test.qty = intent.newQty ∧ test.price = intent.newPrice ∧
    (g.evaluate test).pass = true

theorem built_of_tryReplace (g : ExecutionGateway) (env : GatewayEnv) (intent : OrderReplaceIntent)
    (packet : OutboundPacket) : (g.tryReplace env intent packet).1.1.pass = true → g.Replaces intent ∧
      buildReplaceOrder intent = some (g.tryReplace env intent packet).1.2 ∧
      (g.tryReplace env intent packet).2 = g.setBreaker (g.breaker.allow intent.nowNs).2 := by
  rw [tryReplace]
  dsimp only
  split
  · nofun
  rename_i hSymbol
  split
  · nofun
  split
  · nofun
  rename_i hContains
  split
  · nofun
  rename_i slot hFound
  split
  next hFail =>
    intro h
    rw [h] at hFail
    cases hFail
  rename_i hPass
  split
  · nofun
  rename_i built hBuilt
  split
  · nofun
  intro _
  rw [Bool.not_eq_true', Bool.not_eq_false] at hPass hContains
  exact ⟨⟨not_le.mp hSymbol, hContains, ⟨slot, hFound⟩, _, rfl, rfl, hPass⟩, hBuilt, rfl⟩

theorem carriesOrder_of_tryBuild (h : (g.tryBuild env intent packet).1.1.pass = true) :
    Ouch.CarriesOrder (wire (g.tryBuild env intent packet).1.2) intent := by
  obtain ⟨_, hPass, hBuilt⟩ := built_of_tryBuild g env _ _ h
  obtain ⟨hQty, hPrice⟩ := fits_of_evaluate hPass
  exact carriesOrder_of_build hQty hPrice hBuilt

theorem Replaces.fits (h : g.Replaces intent) : Ouch.Fits intent.newQty ∧ Ouch.Fits intent.newPrice := by
  obtain ⟨_, hQty, hPrice, hPass⟩ := h.passed
  rw [← hQty, ← hPrice]
  exact fits_of_evaluate hPass

theorem carriesReplacement_of_tryReplace (h : (g.tryReplace env intent packet).1.1.pass = true) :
    Ouch.CarriesReplacement (wire (g.tryReplace env intent packet).1.2) intent := by
  obtain ⟨hReplaces, hBuilt, _⟩ := built_of_tryReplace g env _ _ h
  obtain ⟨hQty, hPrice⟩ := hReplaces.fits
  exact carriesReplacement_of_build hQty hPrice hBuilt

/-- **Accepted packets are lossless.** The packet of an accepted order carries its fields unclamped, and two accepted
orders with the same packet are the same up to the upper bits of the side; a replacement carries both tokens, the
quantity, the price and the time in force, and is determined by its packet up to the symbol. -/
theorem packets_lossless (g g' : ExecutionGateway) (env env' : GatewayEnv) (packet packet' : OutboundPacket) :
    (∀ a : OrderIntent, (g.tryBuild env a packet).1.1.pass = true →
      Ouch.CarriesOrder (Ouch.wire (g.tryBuild env a packet).1.2) a ∧
      ∀ b : OrderIntent, (g'.tryBuild env' b packet').1.1.pass = true →
        Ouch.wire (g.tryBuild env a packet).1.2 = Ouch.wire (g'.tryBuild env' b packet').1.2 → Ouch.SameOrder a b) ∧
    (∀ a : OrderReplaceIntent, (g.tryReplace env a packet).1.1.pass = true →
      Ouch.CarriesReplacement (Ouch.wire (g.tryReplace env a packet).1.2) a ∧
      ∀ b : OrderReplaceIntent, (g'.tryReplace env' b packet').1.1.pass = true →
        Ouch.wire (g.tryReplace env a packet).1.2 = Ouch.wire (g'.tryReplace env' b packet').1.2 →
          Ouch.SameReplacement a b) := by
  constructor
  · intro a ha
    have hCarries := carriesOrder_of_tryBuild ha
    refine ⟨hCarries, fun b hb hWire => ?_⟩
    rw [hWire] at hCarries
    exact hCarries.unique (carriesOrder_of_tryBuild hb) (built_of_tryBuild g env a _ ha).1
      (built_of_tryBuild g' env' b _ hb).1
  · intro a ha
    have hCarries := carriesReplacement_of_tryReplace ha
    refine ⟨hCarries, fun b hb hWire => ?_⟩
    rw [hWire] at hCarries
    exact hCarries.unique (carriesReplacement_of_tryReplace hb)

def idle : ExecutionGateway := init 100 (fun _ => .default) {} none

def buyOrder (symbol : Nat) (side : UInt8) : OrderIntent :=
  { symbolIdx := symbol, side := side, qty := 10, price := 101, clientOrderId := 1 }

theorem buyOrder_lossless : (idle.tryBuild {} (buyOrder 3 0) {}).1.1.pass = true ∧
      Ouch.CarriesOrder (Ouch.wire (idle.tryBuild {} (buyOrder 3 0) {}).1.2) (buyOrder 3 0) := by
  have hPass : (idle.tryBuild {} (buyOrder 3 0) {}).1.1.pass = true := by decide +kernel
  exact ⟨hPass, ((packets_lossless idle idle {} {} {} {}).1 (buyOrder 3 0) hPass).1⟩

def working (symbol : Nat) : ExecutionGateway := (idle.tryBuild {} (buyOrder symbol 0) {}).2

def amendment (symbol : Nat) : OrderReplaceIntent :=
  { symbolIdx := symbol, originalOrderId := 1, replacementOrderId := 2, newQty := 20, newPrice := 99 }

/-- The sides 0 and 2 give one packet, and so do replacements of the order 1 on two symbols. -/
theorem sides_share_packet :
    (idle.tryBuild {} (buyOrder 3 0) {}).1.1.pass = true ∧ (idle.tryBuild {} (buyOrder 3 2) {}).1.1.pass = true ∧
      Ouch.wire (idle.tryBuild {} (buyOrder 3 0) {}).1.2 = Ouch.wire (idle.tryBuild {} (buyOrder 3 2) {}).1.2 ∧
      ((working 3).tryReplace {} (amendment 3) {}).1.1.pass = true ∧
      ((working 4).tryReplace {} (amendment 4) {}).1.1.pass = true ∧
      Ouch.wire ((working 3).tryReplace {} (amendment 3) {}).1.2 =
        Ouch.wire ((working 4).tryReplace {} (amendment 4) {}).1.2 := by
  decide +kernel

end ExecutionGateway

end LuvFlicker
