import Mathlib.Tactic

/-!
# Tickets for a bounded number of places

Tickets are drawn in order and given back one by one; a 32-bit counter holds how
many are out. Every ticket drawn is out or was given back, once.
-/

namespace LuvFlicker.Tickets

open Multiset

structure Ledger (places : Nat) (out : Multiset Nat) (counter : UInt32) (issued : Nat) (returned : Multiset Nat) :
    Prop where
  counter_eq : counter = UInt32.ofNat out.card
  card_le : out.card ≤ places
  all : out + returned = Multiset.range issued

variable {places issued : Nat} {out out' returned : Multiset Nat} {counter : UInt32}

namespace Ledger

theorem toNat_counter (h : Ledger places out counter issued returned) (hPlaces : places < 2 ^ 32) :
    counter.toNat = out.card := by
  have hCard := h.card_le
  rw [h.counter_eq, UInt32.toNat_ofNat', Nat.mod_eq_of_lt (by omega)]

theorem congr (hEq : out' = out) (h : Ledger places out counter issued returned) :
    Ledger places out' counter issued returned := hEq ▸ h

theorem draw (h : Ledger places out counter issued returned) (hRoom : out.card < places) :
    Ledger places (issued ::ₘ out) (counter + 1) (issued + 1) returned where
  counter_eq := by
    rw [h.counter_eq, card_cons, UInt32.ofNat_add _ 1]
    rfl
  card_le := by rwa [card_cons]
  all := by rw [cons_add, h.all, range_succ]

theorem giveBack {ticket : Nat} (h : Ledger places (ticket ::ₘ out) counter issued returned) :
    Ledger places out (counter - 1) issued (ticket ::ₘ returned) where
  counter_eq := by
    rw [h.counter_eq, card_cons, UInt32.ofNat_add _ 1]
    exact UInt32.add_sub_cancel ..
  card_le := by
    have hCard := h.card_le
    rw [card_cons] at hCard
    omega
  all := by rw [add_cons, ← cons_add, h.all]

end Ledger

end LuvFlicker.Tickets
