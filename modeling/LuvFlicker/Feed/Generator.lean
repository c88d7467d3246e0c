import LuvFlicker.Feed.Itch

/-!
# Synthetic messages

The simulated feed fills its buffer with random ITCH messages. A generator step
fails where the source has no defined behaviour: an empty range of a uniform
draw, or a signed overflow in its bounds.
-/

namespace LuvFlicker

open Bytes Numeric

/-! ## The random numbers -/

structure Xoshiro256 where
  s0 : UInt64
  s1 : UInt64
  s2 : UInt64
  s3 : UInt64

namespace Xoshiro256

def kGolden : UInt64 := 0x9E3779B97F4A7C15

def splitMix (seed : UInt64) : UInt64 :=
  let z := (seed ^^^ (seed >>> 30)) * 0xBF58476D1CE4E5B9
  let z := (z ^^^ (z >>> 27)) * 0x94D049BB133111EB
  z ^^^ (z >>> 31)

def ofSeed (seed : UInt64) : Xoshiro256 where
  s0 := splitMix (seed + kGolden)
  s1 := splitMix (seed + kGolden + kGolden)
  s2 := splitMix (seed + kGolden + kGolden + kGolden)
  s3 := splitMix (seed + kGolden + kGolden + kGolden + kGolden)

def rotl (x : UInt64) (k : UInt64) : UInt64 := (x <<< k) ||| (x >>> (64 - k))

def next (g : Xoshiro256) : UInt64 × Xoshiro256 :=
  let result := rotl (g.s1 * 5) 7 * 9
  let t := g.s1 <<< 17
  let s2 := g.s2 ^^^ g.s0
  let s3 := g.s3 ^^^ g.s1
  let s1 := g.s1 ^^^ s2
  let s0 := g.s0 ^^^ s3
  (result, ⟨s0, s1, s2 ^^^ t, rotl s3 45⟩)

def below (g : Xoshiro256) (range : UInt64) : UInt64 × Xoshiro256 := (g.next.1 % range, g.next.2)

end Xoshiro256

/-- A generator step: it draws random numbers, or has no defined behaviour. -/
abbrev Gen := StateT Xoshiro256 Option

namespace Gen

def next : Gen UInt64 := fun g => some g.next

def below (range : UInt64) : Gen UInt64 := fun g => if range = 0 then none else some (g.below range)

def uniform (lo hi : Int) : Gen Int := do
  if ¬ (kInt64Min ≤ hi - lo ∧ hi - lo ≤ kInt64Max) then failure
  let drawn ← below (UInt64.ofInt (hi - lo) + 1)
  let value := lo + drawn.toInt64.toInt
  if ¬ (kInt64Min ≤ value ∧ value ≤ kInt64Max) then failure
  return value

def uniformU32 (lo hi : UInt32) : Gen UInt32 := do
  let drawn ← below (hi - lo + 1).toUInt64
  return lo + drawn.toUInt32

def Ensures {α : Type} (x : Gen α) (P : α → Prop) : Prop := ∀ g a g', x g = some (a, g') → P a

namespace Ensures

variable {α β : Type} {P : β → Prop}

theorem pure {b : β} (h : P b) : Ensures (Pure.pure b : Gen β) P := by
  intro g a _ hRun
  obtain ⟨rfl, _⟩ := Prod.mk.inj (Option.some.inj hRun)
  exact h

variable {f : α → Gen β}

theorem bind {x : Gen α} (h : ∀ a, Ensures (f a) P) : Ensures (x >>= f) P := by
  intro g b g' hRun
  obtain ⟨⟨a, g₁⟩, _, hRest⟩ := Option.bind_eq_some_iff.mp hRun
  exact h a g₁ b g' hRest

theorem bind_of {Q : α → Prop} {x : Gen α} (hx : Ensures x Q) (h : ∀ a, Q a → Ensures (f a) P) :
    Ensures (x >>= f) P := by
  intro g b g' hRun
  obtain ⟨⟨a, g₁⟩, hFirst, hRest⟩ := Option.bind_eq_some_iff.mp hRun
  exact h a (hx g a g₁ hFirst) g₁ b g' hRest

theorem ite {c : Prop} [Decidable c] {x y : Gen β} (hx : Ensures x P) (hy : Ensures y P) :
    Ensures (if c then x else y) P := by
  split
  · exact hx
  · exact hy

end Ensures

end Gen

/-! ## The configuration -/

inductive SimMode where
  | kSynthetic
  | kReplay
  deriving DecidableEq, Repr

structure SimConfig where
  mode : SimMode := .kSynthetic
  syntheticSymbols : UInt32 := 128
  targetRateHz : UInt64 := 1000000
  seed : UInt64 := 0xDEADBEEFCAFEBABE
  prebufCount : UInt32 := 65536
  dropRate : ℚ := 0
  reorderWindow : UInt32 := 0
  burstSize : UInt32 := 0
  burstInterval : UInt32 := 0
  minPrice : Int64 := 1000000
  maxPrice : Int64 := 5000000
  minQty : Int64 := 1
  maxQty : Int64 := 10000

namespace SimConfig

def decimal (i : Nat) : List UInt8 :=
  let digits := (List.range 10).map fun k => UInt8.ofNat (0x30 + i / 10 ^ (9 - k) % 10)
  (digits.take 7).dropWhile (· = 0x30) ++ digits.drop 7

def ticker (i : Nat) : List UInt8 := (('S'.toUInt8 :: decimal i) ++ [0x20, 0x20, 0x20, 0x20]).take 8

def tickerKey (i : Nat) : UInt64 := .ofNat (ofBytes (ticker i))

section

variable (cfg : SimConfig)

def entries : List (UInt64 × UInt16) :=
  (List.range cfg.syntheticSymbols.toNat).map fun i => (tickerKey i, .ofNat i)

/-! ## The messages -/

def header (msgType : UInt8) (locate : UInt16) (ts : UInt64) : List UInt8 :=
  msgType :: (toBytesBe 2 locate.toNat ++ toBytesBe 2 0 ++ toBytesBe 6 ts.toNat)

def u32Be (value : Int) : List UInt8 := toBytesBe 4 (UInt32.ofInt value).toNat

def u64Be (value : UInt64) : List UInt8 := toBytesBe 8 value.toNat

def genSymbol : Gen UInt16 :=
  return (← Gen.uniformU32 0 (cfg.syntheticSymbols - 1)).toUInt16

def genRef (orderRefMax : UInt64) : Gen UInt64 := do
  if orderRefMax > 1 then return UInt64.ofInt (← Gen.uniform 1 (orderRefMax - 1).toInt64.toInt)
  return 1

def genAddOrder (ts orderRef : UInt64) : Gen (List UInt8) := do
  let symIdx ← cfg.genSymbol
  let side ← Gen.next
  let shares ← Gen.uniform cfg.minQty.toInt cfg.maxQty.toInt
  let price ← Gen.uniform cfg.minPrice.toInt cfg.maxPrice.toInt
  return header Itch.kAddOrder symIdx ts ++ u64Be orderRef ++
    [if side &&& 1 ≠ 0 then 'B'.toUInt8 else 'S'.toUInt8] ++ u32Be shares ++ ticker symIdx.toNat ++ u32Be price

section

variable (ts orderRefMax : UInt64)

def genOrderExecuted : Gen (List UInt8) := do
  let symIdx ← cfg.genSymbol
  let ref ← genRef orderRefMax
  let execShares ← Gen.uniform 1 (cfg.maxQty.toInt.tdiv 2)
  let matchNum ← Gen.next
  return header Itch.kOrderExecuted symIdx ts ++ u64Be ref ++ u32Be execShares ++ u64Be matchNum

def genOrderCancel : Gen (List UInt8) := do
  let symIdx ← cfg.genSymbol
  let ref ← genRef orderRefMax
  let cancelShares ← Gen.uniform 1 cfg.maxQty.toInt
  return header Itch.kOrderCancel symIdx ts ++ u64Be ref ++ u32Be cancelShares

def genOrderDelete : Gen (List UInt8) := do
  let symIdx ← cfg.genSymbol
  let ref ← genRef orderRefMax
  return header Itch.kOrderDelete symIdx ts ++ u64Be ref

end

def genMessage (ts orderRefSeq : UInt64) : Gen (List UInt8 × UInt64) := do
  let roll ← Gen.uniformU32 0 99
  if roll < 60 then return (← cfg.genAddOrder ts orderRefSeq, orderRefSeq + 1)
  else if roll < 75 then return (← cfg.genOrderExecuted ts orderRefSeq, orderRefSeq)
  else if roll < 90 then return (← cfg.genOrderCancel ts orderRefSeq, orderRefSeq)
  else return (← cfg.genOrderDelete ts orderRefSeq, orderRefSeq)

end

/-- The loop of `generate_synthetic_messages`, with the number of messages to go. -/
def genMessages (cfg : SimConfig) : Nat → UInt64 → UInt64 → Gen (List (List UInt8))
  | 0, _, _ => return []
  | count + 1, ts, orderRefSeq => do
    let (raw, orderRefSeq) ← cfg.genMessage ts orderRefSeq
    let gap ← Gen.uniform 100 10000
    let rest ← genMessages cfg count (ts + UInt64.ofInt gap) orderRefSeq
    return raw :: rest

def kSessionStartNs : UInt64 := 34200000000000

def generateSyntheticMessages (cfg : SimConfig) : Option (List (List UInt8) × Xoshiro256) :=
  cfg.genMessages cfg.prebufCount.toNat kSessionStartNs 1 (.ofSeed cfg.seed)

/-! ## What the buffer holds -/

structure Generated (raw : List UInt8) : Prop where
  type : byteAt raw 0 = Itch.kAddOrder ∨ byteAt raw 0 = Itch.kOrderExecuted ∨ byteAt raw 0 = Itch.kOrderCancel ∨
    byteAt raw 0 = Itch.kOrderDelete
  length_pos : 0 < raw.length
  length_lt : raw.length < 256 ^ 2

open Gen

variable (cfg : SimConfig)

theorem genMessage_generated (ts orderRefSeq : UInt64) :
    Ensures (cfg.genMessage ts orderRefSeq) fun message => Generated message.1 := by
  refine .bind fun _ => .ite ?_ (.ite ?_ (.ite ?_ ?_))
  all_goals refine .bind_of (Q := Generated) ?_ fun _ h => .pure h
  · refine .bind fun symIdx => .bind fun _ => .bind fun _ => .bind fun _ => .pure ⟨.inl rfl, ?_, ?_⟩
    · simp
    have hTicker : (ticker symIdx.toNat).length ≤ 8 := by
      rw [ticker, List.length_take]
      exact min_le_left ..
    simp [header, u64Be, u32Be]
    omega
  · refine .bind fun _ => .bind fun _ => .bind fun _ => .bind fun _ => .pure ⟨.inr (.inl rfl), ?_, ?_⟩
    · simp [header]
    · simp [header, u64Be, u32Be]
  · refine .bind fun _ => .bind fun _ => .bind fun _ => .pure ⟨.inr (.inr (.inl rfl)), ?_, ?_⟩
    · simp [header]
    · simp [header, u64Be, u32Be]
  · refine .bind fun _ => .bind fun _ => .pure ⟨.inr (.inr (.inr rfl)), ?_, ?_⟩
    · simp [header]
    · simp [header, u64Be]

theorem genMessages_generated (count : Nat) (ts orderRefSeq : UInt64) :
    Ensures (cfg.genMessages count ts orderRefSeq) fun messages =>
      messages.length = count ∧ ∀ raw ∈ messages, Generated raw := by
  induction count generalizing ts orderRefSeq with
  | zero => exact Ensures.pure ⟨rfl, fun raw hMem => absurd hMem List.not_mem_nil⟩
  | succ count ih =>
    refine Ensures.bind_of (cfg.genMessage_generated ts _) fun _ hMessage =>
      Ensures.bind fun _ => Ensures.bind_of (ih _ _) fun _ hRest => Ensures.pure ⟨?_, ?_⟩
    · rw [List.length_cons, hRest.1]
    intro raw hMem
    rcases List.mem_cons.mp hMem with rfl | hMem
    · exact hMessage
    · exact hRest.2 raw hMem

end SimConfig

end LuvFlicker
