import LuvFlicker.Execution.Types

/-!
# Outbound packets

The fixed-offset binary packets of the venue protocol: the enter-order template
of a symbol and side with its patched fields, and the replace-order packet.
-/

namespace LuvFlicker.Ouch

def kEnterOrderLen : Nat := 48
def kReplaceOrderLen : Nat := 32

def kMsgTypeOffset : Nat := 0
def kTokenOffset : Nat := 1
def kSideOffset : Nat := 5
def kQtyOffset : Nat := 6
def kSymbolOffset : Nat := 10
def kPriceOffset : Nat := 18
def kTimeInForceOffset : Nat := 22
def kFirmOffset : Nat := 26
def kDisplayOffset : Nat := 30
def kCapacityOffset : Nat := 31
def kIntermarketSweepOffset : Nat := 32
def kMinQtyOffset : Nat := 33
def kCrossTypeOffset : Nat := 37
def kCustomerTypeOffset : Nat := 38

def kReplaceMsgTypeOffset : Nat := 0
def kReplaceExistingTokenOffset : Nat := 1
def kReplaceReplacementTokenOffset : Nat := 5
def kReplaceQtyOffset : Nat := 9
def kReplacePriceOffset : Nat := 13
def kReplaceTimeInForceOffset : Nat := 17
def kReplaceDisplayOffset : Nat := 21

def store (dst : Nat → UInt8) (offset : Nat) (src : List UInt8) : Nat → UInt8 := fun i =>
  if offset ≤ i ∧ i < offset + src.length then src.getD (i - offset) 0 else dst i

def storeU32Be (dst : Nat → UInt8) (offset : Nat) (v : UInt32) : Nat → UInt8 :=
  store dst offset [(v >>> 24).toUInt8, (v >>> 16).toUInt8, (v >>> 8).toUInt8, v.toUInt8]

def clampU32 (v : Int64) : UInt32 :=
  if 0 ≤ v ∧ v.toUInt64 ≤ 0xFFFFFFFF then v.toUInt64.toUInt32 else if v < 0 then 0 else 0xFFFFFFFF

def digit (n : Nat) : UInt8 := .ofNat (48 + n % 10)

def makeSymbol (sym : Nat) : List UInt8 := ['S'.toUInt8, digit (sym / 100), digit (sym / 10), digit sym, 32, 32, 32, 32]

def initTemplate (sym : Nat) (side : UInt8) : Nat → UInt8 :=
  let t := fun _ => 0
  let t := store t kMsgTypeOffset ['O'.toUInt8]
  let t := store t kSideOffset [if side = Exec.kBuy then 'B'.toUInt8 else 'S'.toUInt8]
  let t := store t kSymbolOffset (makeSymbol sym)
  let t := storeU32Be t kTimeInForceOffset 0
  let t := store t kFirmOffset ['L'.toUInt8, 'U'.toUInt8, 'V'.toUInt8, ' '.toUInt8]
  let t := store t kDisplayOffset ['Y'.toUInt8]
  let t := store t kCapacityOffset ['A'.toUInt8]
  let t := store t kIntermarketSweepOffset ['N'.toUInt8]
  let t := storeU32Be t kMinQtyOffset 0
  let t := store t kCrossTypeOffset ['N'.toUInt8]
  store t kCustomerTypeOffset [' '.toUInt8]

def buildEnterOrder (intent : OrderIntent) (out : OutboundPacket) : Option OutboundPacket :=
  if intent.symbolIdx ≥ Config.kSymbols then none
  else
    let template := initTemplate intent.symbolIdx (intent.side &&& 1)
    -- the copied template ends before the bytes of the packet do
    let bytes := fun i => if i < kEnterOrderLen then template i else out.bytes i
    let bytes := storeU32Be bytes kTokenOffset intent.clientOrderId
    let bytes := storeU32Be bytes kQtyOffset (clampU32 intent.qty)
    let bytes := storeU32Be bytes kPriceOffset (clampU32 intent.price)
    let bytes := storeU32Be bytes kTimeInForceOffset intent.timeInForce.toUInt32
    some ⟨.ofNat kEnterOrderLen, bytes⟩

def buildReplaceOrder (intent : OrderReplaceIntent) : Option OutboundPacket :=
  if intent.symbolIdx ≥ Config.kSymbols then none
  else
    let bytes := fun _ => 0
    let bytes := store bytes kReplaceMsgTypeOffset ['U'.toUInt8]
    let bytes := storeU32Be bytes kReplaceExistingTokenOffset intent.originalOrderId
    let bytes := storeU32Be bytes kReplaceReplacementTokenOffset intent.replacementOrderId
    let bytes := storeU32Be bytes kReplaceQtyOffset (clampU32 intent.newQty)
    let bytes := storeU32Be bytes kReplacePriceOffset (clampU32 intent.newPrice)
    let bytes := storeU32Be bytes kReplaceTimeInForceOffset intent.timeInForce.toUInt32
    let bytes := store bytes kReplaceDisplayOffset ['Y'.toUInt8]
    some ⟨.ofNat kReplaceOrderLen, bytes⟩

end LuvFlicker.Ouch
