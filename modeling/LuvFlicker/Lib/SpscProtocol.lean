import LuvFlicker.Lib.Run
import LuvFlicker.Lib.Spsc

/-!
# The accesses of a single-producer single-consumer ring

A push and a pop as the accesses they make to the memory they share: each thread
loads its own index, then the index of the other one, then uses a slot and stores
its own index.
-/

namespace LuvFlicker.SpscProtocol

open Function List Run

universe u v w

variable {α : Type u} {bits : Nat}

/-! ## The queue, one call at a time -/

inductive Response (α : Type u) where
  | silent
  | full
  | pushed (a : α)
  | empty
  | popped (a : α)

def Response.given : Response α → List α
  | .pushed a => [a]
  | .silent | .full | .empty | .popped _ => []

def Response.got : Response α → List α
  | .popped a => [a]
  | .silent | .full | .empty | .pushed _ => []

def pushes (responses : List (Response α)) : List α := responses.flatMap Response.given

def pops (responses : List (Response α)) : List α := responses.flatMap Response.got

/-- The calls of a bounded queue that are taken one after the other. -/
inductive Serves (capacity : Nat) : Response α → List α → List α → Prop where
  | silent (q : List α) : Serves capacity .silent q q
  | full {q : List α} (h : q.length = capacity) : Serves capacity .full q q
  | pushed {q : List α} (a : α) (h : q.length < capacity) : Serves capacity (.pushed a) q (q ++ [a])
  | empty : Serves capacity .empty [] []
  | popped (a : α) (q : List α) : Serves capacity (.popped a) (a :: q) q

variable {q q' : List α} {capacity : Nat}

theorem Serves.length_of_full (h : Serves capacity .full q q') : q.length = capacity := by
  cases h with
  | full hLength => exact hLength

theorem Serves.eq_nil_of_empty (h : Serves capacity .empty q q') : q = [] := by
  cases h
  rfl

inductive Served (capacity : Nat) : List (Response α) → List α → List α → Prop where
  | nil (q : List α) : Served capacity [] q q
  | cons {r : Response α} {rest : List (Response α)} {q q' q'' : List α} (first : Serves capacity r q q')
      (others : Served capacity rest q' q'') : Served capacity (r :: rest) q q''

/-! ## The shared memory -/

/-- The two indices and the slots, with the slots as the last store of the head published them and as the consumer's
last load of the head made them visible. -/
structure Memory (α : Type u) where
  head : UInt64
  tail : UInt64
  slots : Nat → α
  published : Nat → α
  seen : Nat → α

namespace Memory

open Spsc.Ring (cell)

def new (slots : Nat → α) : Memory α := ⟨0, 0, slots, slots, slots⟩

variable (m : Memory α)

def isFull (bits : Nat) (head : UInt64) : Bool := 2 ^ bits ≤ (head - m.tail).toNat

def write (bits : Nat) (head : UInt64) (a : α) : Memory α :=
  { m with slots := update m.slots (cell bits head) a }

def publish (head : UInt64) : Memory α := { m with head := head, published := m.slots }

def observe : Memory α := { m with seen := m.published }

def read (bits : Nat) (tail : UInt64) : α := m.seen (cell bits tail)

def retire (tail : UInt64) : Memory α := { m with tail := tail }

end Memory

/-- How far the producer is: it has loaded its index, has found room for it, has written the item. -/
inductive Producer (α : Type u) where
  | idle
  | loaded (head : UInt64)
  | claimed (head : UInt64)
  | written (head : UInt64) (a : α)

/-- How far the consumer is: it has loaded its index, has found an item, has copied the item. -/
inductive Consumer (α : Type u) where
  | idle
  | loaded (tail : UInt64)
  | peeked (tail : UInt64)
  | copied (tail : UInt64) (a : α)

structure Threads (α : Type u) where
  memory : Memory α
  producer : Producer α
  consumer : Consumer α

inductive Moves (bits : Nat) : Threads α → Response α → Threads α → Prop where
  | rest (t : Threads α) : Moves bits t .silent t
  | load_head {m : Memory α} {p : Producer α} {c : Consumer α} : Moves bits ⟨m, p, c⟩ .silent ⟨m, .loaded m.head, c⟩
  | full {m : Memory α} {c : Consumer α} {head : UInt64} (h : m.isFull bits head = true) :
      Moves bits ⟨m, .loaded head, c⟩ .full ⟨m, .idle, c⟩
  | claim {m : Memory α} {c : Consumer α} {head : UInt64} (h : m.isFull bits head = false) :
      Moves bits ⟨m, .loaded head, c⟩ .silent ⟨m, .claimed head, c⟩
  | write {m : Memory α} {c : Consumer α} {head : UInt64} (a : α) :
      Moves bits ⟨m, .claimed head, c⟩ .silent ⟨m.write bits head a, .written head a, c⟩
  | fill {m : Memory α} {c : Consumer α} {head : UInt64} (a : α) :
      Moves bits ⟨m, .claimed head, c⟩ .silent ⟨m.write bits head a, .claimed head, c⟩
  | publish {m : Memory α} {c : Consumer α} {head : UInt64} {a : α} :
      Moves bits ⟨m, .written head a, c⟩ (.pushed a) ⟨m.publish (head + 1), .idle, c⟩
  | commit {m : Memory α} {c : Consumer α} {head : UInt64} :
      Moves bits ⟨m, .claimed head, c⟩ (.pushed (m.slots (Spsc.Ring.cell bits head))) ⟨m.publish (m.head + 1), .idle, c⟩
  | load_tail {m : Memory α} {p : Producer α} {c : Consumer α} : Moves bits ⟨m, p, c⟩ .silent ⟨m, p, .loaded m.tail⟩
  | empty {m : Memory α} {p : Producer α} {tail : UInt64} (h : m.head = tail) :
      Moves bits ⟨m, p, .loaded tail⟩ .empty ⟨m.observe, p, .idle⟩
  | peek {m : Memory α} {p : Producer α} {tail : UInt64} (h : m.head ≠ tail) :
      Moves bits ⟨m, p, .loaded tail⟩ .silent ⟨m.observe, p, .peeked tail⟩
  | copy {m : Memory α} {p : Producer α} {tail : UInt64} :
      Moves bits ⟨m, p, .peeked tail⟩ .silent ⟨m, p, .copied tail (m.read bits tail)⟩
  | retire {m : Memory α} {p : Producer α} {tail : UInt64} {a : α} :
      Moves bits ⟨m, p, .copied tail a⟩ (.popped a) ⟨m.retire (tail + 1), p, .idle⟩
  | consume {m : Memory α} {p : Producer α} {tail : UInt64} :
      Moves bits ⟨m, p, .peeked tail⟩ (.popped (m.read bits tail)) ⟨m.retire (m.tail + 1), p, .idle⟩

/-! ## Counters -/

section Counters

open Spsc.Ring

theorem cell_ofNat (h : bits < 64) (n : Nat) : cell bits (UInt64.ofNat n) = n % 2 ^ bits := by
  rw [cell, UInt64.toNat_ofNat', Nat.mod_mod_of_dvd _ (pow_dvd h)]

theorem ofNat_succ (n : Nat) : UInt64.ofNat n + 1 = UInt64.ofNat (n + 1) := (UInt64.ofNat_add n 1).symm

theorem toNat_ofNat_sub {m n : Nat} (hLe : n ≤ m) (hLt : m < n + 2 ^ 64) :
    (UInt64.ofNat m - UInt64.ofNat n).toNat = m - n := by
  rw [UInt64.toNat_sub, UInt64.toNat_ofNat', UInt64.toNat_ofNat']
  omega

end Counters

/-! ## The invariant -/

def Producer.Sound (p : Producer α) (bits : Nat) (m : Memory α) (room : Prop) : Prop :=
  match p with
  | .idle => True
  | .loaded head => head = m.head
  | .claimed head => head = m.head ∧ room
  | .written head a => head = m.head ∧ room ∧ m.slots (Spsc.Ring.cell bits head) = a

def Consumer.Sound (c : Consumer α) (bits : Nat) (m : Memory α) (front : Option α) : Prop :=
  match c with
  | .idle => True
  | .loaded tail => tail = m.tail
  | .peeked tail => tail = m.tail ∧ front = some (m.read bits tail)
  | .copied tail a => tail = m.tail ∧ front = some a

structure Inv (bits : Nat) (t : Threads α) (pushed taken : List α) : Prop where
  bits_lt : bits < 64
  head_eq : t.memory.head = UInt64.ofNat pushed.length
  tail_eq : t.memory.tail = UInt64.ofNat taken.length
  order : taken <+: pushed
  bounded : pushed.length ≤ taken.length + 2 ^ bits
  held : ∀ k a, taken.length ≤ k → pushed[k]? = some a →
    t.memory.slots (k % 2 ^ bits) = a ∧ t.memory.published (k % 2 ^ bits) = a
  producer : t.producer.Sound bits t.memory (pushed.length < taken.length + 2 ^ bits)
  consumer : t.consumer.Sound bits t.memory pushed[taken.length]?

theorem Inv.start (h : bits < 64) (slots : Nat → α) : Inv bits ⟨Memory.new slots, .idle, .idle⟩ [] [] where
  bits_lt := h
  head_eq := rfl
  tail_eq := rfl
  order := prefix_rfl
  bounded := Nat.zero_le _
  held _ _ _ hItem := by cases hItem
  producer := trivial
  consumer := trivial

namespace Inv

variable {t : Threads α} {m : Memory α} {p : Producer α} {c : Consumer α} {pushed taken : List α} {head tail : UInt64}

section

variable (h : Inv bits t pushed taken)

include h

theorem taken_le : taken.length ≤ pushed.length := h.order.length_le

theorem near : pushed.length < taken.length + 2 ^ 64 := by
  have hPow := Spsc.Ring.pow_lt h.bits_lt
  have hBounded := h.bounded
  omega

theorem cell_head : Spsc.Ring.cell bits t.memory.head = pushed.length % 2 ^ bits := by
  rw [h.head_eq, cell_ofNat h.bits_lt]

end

section

variable (h : Inv bits ⟨m, .loaded head, c⟩ pushed taken)
include h

theorem isFull_iff : m.isFull bits head = true ↔ pushed.length = taken.length + 2 ^ bits := by
  have hBounded := h.bounded
  have hTaken := h.taken_le
  have hHead := h.producer.trans h.head_eq
  have hTail := h.tail_eq
  rw [Memory.isFull, decide_eq_true_eq, hHead, hTail, toNat_ofNat_sub hTaken h.near]
  omega

end

section

variable (h : Inv bits ⟨m, p, .loaded tail⟩ pushed taken)
include h

theorem isEmpty_iff : m.head = tail ↔ taken = pushed := by
  have hTail := h.consumer.trans h.tail_eq
  have hHead := h.head_eq
  rw [hTail, hHead]
  constructor
  · intro hEq
    have hSub := toNat_ofNat_sub h.taken_le h.near
    rw [hEq, UInt64.sub_self, UInt64.toNat_zero] at hSub
    have hLe := h.taken_le
    exact h.order.eq_of_length (by omega)
  · intro hEq
    rw [hEq]

theorem taken_lt (hSome : m.head ≠ tail) : taken.length < pushed.length := by
  apply lt_of_le_of_ne h.taken_le
  intro hEq
  exact hSome (h.isEmpty_iff.mpr (h.order.eq_of_length hEq))

end

theorem head_slot_ne (h : Inv bits t pushed taken) (hRoom : pushed.length < taken.length + 2 ^ bits)
    {k : Nat} (hFrom : taken.length ≤ k) (hTo : k < pushed.length) :
    Spsc.Ring.cell bits t.memory.head ≠ k % 2 ^ bits := by
  rw [h.cell_head]
  intro hEq
  have hLe := Nat.le_of_dvd (by omega) ((Nat.modEq_iff_dvd' hTo.le).mp hEq.symm)
  omega

section

variable (h : Inv bits ⟨m, p, c⟩ pushed taken) (hRoom : pushed.length < taken.length + 2 ^ bits)
include h hRoom

theorem held_write
    (hHead : head = m.head) (a : α) (k : Nat) (b : α) (hFrom : taken.length ≤ k) (hItem : pushed[k]? = some b) :
    (m.write bits head a).slots (k % 2 ^ bits) = b ∧ m.published (k % 2 ^ bits) = b := by
  obtain ⟨hTo, _⟩ := List.getElem?_eq_some_iff.mp hItem
  obtain ⟨hSlot, hPublished⟩ := h.held k b hFrom hItem
  rw [hHead]
  exact ⟨(update_of_ne (h.head_slot_ne hRoom hFrom hTo).symm ..).trans hSlot, hPublished⟩

omit h hRoom in
theorem front_append {x : α} (hFront : pushed[taken.length]? = some x) (a : α) :
    (pushed ++ [a])[taken.length]? = some x := by
  obtain ⟨hLt, _⟩ := List.getElem?_eq_some_iff.mp hFront
  rw [getElem?_append_left hLt, hFront]

theorem publish :
    Inv bits ⟨m.publish (m.head + 1), .idle, c⟩ (pushed ++ [m.slots (Spsc.Ring.cell bits m.head)]) taken := by
  have hSlot := h.cell_head
  have hHead := h.head_eq
  refine ⟨h.bits_lt, ?_, h.tail_eq, h.order.trans (prefix_append ..), ?_, ?_, trivial, ?_⟩
  · rw [length_append, length_singleton, ← ofNat_succ, ← hHead]
    rfl
  · rw [length_append, length_singleton]
    omega
  · intro k b hFrom hItem
    rcases lt_or_ge k pushed.length with hOld | hNew
    · rw [getElem?_append_left hOld] at hItem
      obtain ⟨hSlot, _⟩ := h.held k b hFrom hItem
      exact ⟨hSlot, hSlot⟩
    -- the new item: its slot was written before the store
    rw [getElem?_append_right hNew] at hItem
    obtain ⟨hLast, hValue⟩ := List.getElem?_eq_some_iff.mp hItem
    rw [length_singleton] at hLast
    have hk : k = pushed.length := by omega
    subst hk
    rw [getElem_singleton, hSlot] at hValue
    exact ⟨hValue, hValue⟩
  · cases c with
    | idle => trivial
    | loaded tail => exact h.consumer
    | peeked | copied => exact ⟨h.consumer.1, front_append h.consumer.2 _⟩

end

variable {a : α}

theorem retire (h : Inv bits ⟨m, p, c⟩ pushed taken) (hFront : pushed[taken.length]? = some a) :
    Inv bits ⟨m.retire (m.tail + 1), p, .idle⟩ pushed (taken ++ [a]) := by
  have hTail := h.tail_eq
  have hOrder : taken ++ [a] <+: pushed := by
    obtain ⟨rest, rfl⟩ := h.order
    rw [getElem?_append_right le_rfl, tsub_self] at hFront
    cases rest with
    | nil => cases hFront
    | cons b rest =>
      obtain rfl := Option.some.inj hFront
      exact ⟨rest, by rw [append_assoc, singleton_append]⟩
  have hBounded := h.bounded
  have hLength : (taken ++ [a]).length = taken.length + 1 := by rw [length_append, length_singleton]
  refine ⟨h.bits_lt, h.head_eq, ?_, hOrder, ?_, ?_, ?_, trivial⟩
  · rw [hLength, ← ofNat_succ, ← hTail]
    rfl
  · omega
  · intro k b _ hItem
    exact h.held k b (by omega) hItem
  · cases p with
    | idle => trivial
    | loaded head => exact h.producer
    | claimed head =>
      obtain ⟨hHead, hRoom⟩ := h.producer
      exact ⟨hHead, by omega⟩
    | written head b =>
      obtain ⟨hHead, hRoom, hSlot⟩ := h.producer
      exact ⟨hHead, by omega, hSlot⟩

end Inv

/-! ## One access -/

def waiting (pushed taken : List α) : List α := pushed.drop taken.length

theorem waiting_append {pushed taken : List α} (h : taken.length ≤ pushed.length) (a : α) :
    waiting (pushed ++ [a]) taken = waiting pushed taken ++ [a] := drop_append_of_le_length h

theorem waiting_cons {pushed taken : List α} (h : pushed[taken.length]? = some a) :
    waiting pushed taken = a :: waiting pushed (taken ++ [a]) := by
  obtain ⟨hLt, hValue⟩ := List.getElem?_eq_some_iff.mp h
  rw [waiting, waiting, length_append, length_singleton, drop_eq_getElem_cons hLt, hValue]

/-- What an access with this response may leave: the invariant with the item it adds or takes, and the queue as the
call leaves it. -/
structure Sound (bits : Nat) (r : Response α) (t : Threads α) (pushed taken : List α) : Prop where
  inv : Inv bits t (pushed ++ r.given) (taken ++ r.got)
  serves : Serves (2 ^ bits) r (waiting pushed taken) (waiting (pushed ++ r.given) (taken ++ r.got))

variable {t : Threads α} {r : Response α}

theorem Sound.of_quiet {pushed taken : List α} (h : Inv bits t pushed taken) (hGiven : r.given = []) (hGot : r.got = [])
    (hServes : Serves (2 ^ bits) r (waiting pushed taken) (waiting pushed taken)) : Sound bits r t pushed taken := by
  constructor
  all_goals rwa [hGiven, hGot, append_nil, append_nil]

theorem Sound.silent {pushed taken : List α} (h : Inv bits t pushed taken) :
    Sound bits .silent t pushed taken := .of_quiet h rfl rfl (.silent _)

theorem Sound.pushed {pushed taken : List α} (h : Inv bits t (pushed ++ [a]) taken)
    (hTaken : taken.length ≤ pushed.length) (hRoom : pushed.length < taken.length + 2 ^ bits) :
    Sound bits (.pushed a) t pushed taken := by
  constructor
  · rwa [show (Response.pushed a).got = [] from rfl, append_nil]
  rw [show (Response.pushed a).got = [] from rfl, append_nil]
  have hServes : Serves (2 ^ bits) (.pushed a) (waiting pushed taken) (waiting pushed taken ++ [a]) := by
    apply Serves.pushed
    rw [waiting, length_drop]
    omega
  rwa [← waiting_append hTaken] at hServes

theorem Sound.popped {pushed taken : List α} (h : Inv bits t pushed (taken ++ [a]))
    (hFront : pushed[taken.length]? = some a) : Sound bits (.popped a) t pushed taken := by
  constructor
  · rwa [show (Response.popped a).given = [] from rfl, append_nil]
  · rw [show (Response.popped a).given = [] from rfl, append_nil, waiting_cons hFront]
    exact .popped a _

theorem Moves.sound {t t' : Threads α} {pushed taken : List α} (hMove : Moves bits t r t')
    (h : Inv bits t pushed taken) : Sound bits r t' pushed taken := by
  cases hMove with
  | rest => exact .silent h
  | load_head => exact .silent { h with producer := rfl }
  | load_tail => exact .silent { h with consumer := rfl }
  | full hFull =>
    have hLength := h.isFull_iff.mp hFull
    have hServes : (waiting pushed taken).length = 2 ^ bits := by
      rw [waiting, length_drop, hLength, Nat.add_sub_cancel_left]
    exact .of_quiet { h with producer := trivial } rfl rfl (.full hServes)
  | claim hRoom =>
    refine .silent { h with producer := ⟨h.producer, lt_of_le_of_ne h.bounded ?_⟩ }
    rw [Ne, ← h.isFull_iff, hRoom]
    exact Bool.false_ne_true
  | write a =>
    obtain ⟨hHead, hRoom⟩ := h.producer
    exact .silent { h with
      held := h.held_write hRoom hHead a
      producer := ⟨hHead, hRoom, update_self ..⟩ }
  | fill a =>
    obtain ⟨hHead, hRoom⟩ := h.producer
    exact .silent { h with held := h.held_write hRoom hHead a }
  | publish =>
    obtain ⟨hHead, hRoom, hItem⟩ := h.producer
    rw [← hItem, hHead]
    exact .pushed (h.publish hRoom) h.taken_le hRoom
  | commit =>
    obtain ⟨hHead, hRoom⟩ := h.producer
    rw [hHead]
    exact .pushed (h.publish hRoom) h.taken_le hRoom
  | empty hEmpty =>
    have hAll := h.isEmpty_iff.mp hEmpty
    have hNone : waiting pushed taken = [] := by rw [hAll, waiting, drop_length]
    exact .of_quiet { h with consumer := trivial } rfl rfl (hNone ▸ .empty)
  | @peek m p tail hSome =>
    have hFront := getElem?_eq_getElem (h.taken_lt hSome)
    have hSlot : Spsc.Ring.cell bits tail = taken.length % 2 ^ bits := by
      rw [h.consumer, h.tail_eq, cell_ofNat h.bits_lt]
    apply Sound.silent
    refine { h with consumer := ⟨h.consumer, ?_⟩ }
    rw [hFront, Memory.read, hSlot]
    exact congrArg some (h.held _ _ le_rfl hFront).2.symm
  | copy => exact .silent { h with consumer := h.consumer }
  | retire =>
    obtain ⟨hTail, hFront⟩ := h.consumer
    rw [hTail]
    exact .popped (h.retire hFront) hFront
  | consume => exact .popped (h.retire h.consumer.2) h.consumer.2

/-! ## Runs -/

section Runs

variable {σ : Type v} {ι : Type w} {step : ι → σ → Response α × σ} {threads : σ → Threads α}

theorem served_of_moves (hStep : ∀ i s, Moves bits (threads s) (step i s).1 (threads (step i s).2)) (inputs : List ι)
    {s : σ} {pushed taken : List α} (h : Inv bits (threads s) pushed taken) :
    Inv bits (threads (final step inputs s)) (pushed ++ pushes (run step inputs s).1)
        (taken ++ pops (run step inputs s).1) ∧
      Served (2 ^ bits) (run step inputs s).1 (waiting pushed taken)
        (waiting (pushed ++ pushes (run step inputs s).1) (taken ++ pops (run step inputs s).1)) := by
  induction inputs generalizing s pushed taken with
  | nil =>
    rw [run, pushes, pops, flatMap_nil, flatMap_nil, append_nil, append_nil]
    exact ⟨h, .nil _⟩
  | cons i rest ih =>
    have hFirst := (hStep i s).sound h
    obtain ⟨hInv, hServed⟩ := ih hFirst.inv
    rw [run, pushes, pops, flatMap_cons, flatMap_cons, ← append_assoc, ← append_assoc]
    exact ⟨hInv, .cons hFirst.serves hServed⟩

/-- The accesses of two threads, in any order, are the calls of one bounded queue. `writes` is the slot an access
writes. -/
structure Linearizable (bits : Nat) (step : ι → σ → Response α × σ) (slots : σ → Nat → α) (writes : ι → σ → Option Nat)
    (start : σ) : Prop where
  served : ∀ inputs, ∃ q, Served (2 ^ bits) (Run.run step inputs start).1 [] q
  fifo : ∀ inputs, pops (Run.run step inputs start).1 <+: pushes (Run.run step inputs start).1
  full : ∀ inputs i, (step i (Run.final step inputs start)).1 = .full →
    (pushes (Run.run step inputs start).1).length = (pops (Run.run step inputs start).1).length + 2 ^ bits
  empty : ∀ inputs i, (step i (Run.final step inputs start)).1 = .empty →
    pops (Run.run step inputs start).1 = pushes (Run.run step inputs start).1
  stored : ∀ inputs k a, (pops (Run.run step inputs start).1).length ≤ k →
    (pushes (Run.run step inputs start).1)[k]? = some a → slots (Run.final step inputs start) (k % 2 ^ bits) = a
  unwritten : ∀ inputs i slot, writes i (Run.final step inputs start) = some slot →
    ∀ k, (pops (Run.run step inputs start).1).length ≤ k → k < (pushes (Run.run step inputs start).1).length →
      slot ≠ k % 2 ^ bits
  frame : ∀ i s slot, writes i s ≠ some slot → slots (step i s).2 slot = slots s slot

theorem linearizable_of_moves (threads : σ → Threads α) (hBits : bits < 64)
    (hStep : ∀ i s, Moves bits (threads s) (step i s).1 (threads (step i s).2)) {writes : ι → σ → Option Nat}
    (hWrites : ∀ i s slot, writes i s = some slot →
      ∃ head, (threads s).producer = .claimed head ∧ slot = Spsc.Ring.cell bits head)
    (hFrame : ∀ i s slot, writes i s ≠ some slot →
      (threads (step i s).2).memory.slots slot = (threads s).memory.slots slot)
    {start : σ} {initial : Nat → α} (hStart : threads start = ⟨Memory.new initial, .idle, .idle⟩) :
    Linearizable bits step (fun s => (threads s).memory.slots) writes start := by
  have hRun (inputs : List ι) := served_of_moves hStep inputs (hStart ▸ Inv.start hBits _)
  simp only [nil_append] at hRun
  refine ⟨fun inputs => ⟨_, (hRun _).2⟩, fun inputs => (hRun _).1.order, ?_, ?_, ?_, ?_, hFrame⟩
  · intro inputs i hFull
    have hServes := ((hStep i _).sound (hRun inputs).1).serves
    have hTaken := (hRun inputs).1.taken_le
    rw [hFull] at hServes
    have hLength := hServes.length_of_full
    rw [waiting, length_drop] at hLength
    omega
  · intro inputs i hEmpty
    have hServes := ((hStep i _).sound (hRun inputs).1).serves
    rw [hEmpty] at hServes
    exact (hRun _).1.order.eq_of_length_le (drop_eq_nil_iff.mp hServes.eq_nil_of_empty)
  · intro inputs k a hFrom hItem
    exact ((hRun _).1.held k a hFrom hItem).1
  · intro inputs i slot hSlot k hFrom hTo
    obtain ⟨head, hClaimed, rfl⟩ := hWrites i _ slot hSlot
    have hProducer := (hRun inputs).1.producer
    rw [hClaimed] at hProducer
    obtain ⟨rfl, hRoom⟩ := hProducer
    exact (hRun _).1.head_slot_ne hRoom hFrom hTo

end Runs

/-! ## The ring that takes its calls one after the other -/

def Answers (r : Spsc.Ring α bits) : Response α → Spsc.Ring α bits → Prop
  | .silent, r' => r' = r
  | .full, r' => (∀ a, r.tryPush a = none) ∧ r' = r
  | .pushed a, r' => r.tryPush a = some r'
  | .empty, r' => r.tryPop = none ∧ r' = r
  | .popped a, r' => r.tryPop = some (a, r')

inductive Answered : Spsc.Ring α bits → List (Response α) → Spsc.Ring α bits → Prop where
  | nil (r : Spsc.Ring α bits) : Answered r [] r
  | cons {r r' r'' : Spsc.Ring α bits} {response : Response α} {rest : List (Response α)}
      (first : Answers r response r') (others : Answered r' rest r'') : Answered r (response :: rest) r''

variable {r : Spsc.Ring α bits}

theorem Serves.answers {response : Response α} (hContents : r.contents = q)
    (h : Serves (2 ^ bits) response q q') : ∃ r', Answers r response r' ∧ r'.contents = q' := by
  cases h with
  | silent => exact ⟨r, rfl, hContents⟩
  | full hLength =>
    have hFull := r.isFull_iff.mpr (hContents ▸ hLength)
    exact ⟨r, ⟨fun a => (r.tryPush_eq_none_iff a).mpr hFull, rfl⟩, hContents⟩
  | pushed a hRoom =>
    cases hPush : r.tryPush a with
    | none =>
      rw [r.tryPush_eq_none_iff, r.isFull_iff, hContents] at hPush
      exact absurd hPush hRoom.ne
    | some r' => exact ⟨r', hPush, by rw [Spsc.Ring.contents_push hPush, hContents]⟩
  | empty => exact ⟨r, ⟨r.tryPop_eq_none_iff.mpr hContents, rfl⟩, hContents⟩
  | popped a =>
    cases hPop : r.tryPop with
    | none =>
      rw [r.tryPop_eq_none_iff, hContents] at hPop
      cases hPop
    | some popped =>
      obtain ⟨rfl, hRest⟩ := List.cons.inj ((Spsc.Ring.contents_pop hPop).symm.trans hContents)
      exact ⟨_, hPop, hRest⟩

theorem Served.answered {responses : List (Response α)}
    (hContents : r.contents = q) (h : Served (2 ^ bits) responses q q') :
    ∃ r', Answered r responses r' ∧ r'.contents = q' := by
  induction h generalizing r with
  | nil => exact ⟨r, .nil r, hContents⟩
  | cons first _ ih =>
    obtain ⟨r', hFirst, hNext⟩ := first.answers hContents
    obtain ⟨r'', hOthers, hEnd⟩ := ih hNext
    exact ⟨r'', .cons hFirst hOthers, hEnd⟩

end LuvFlicker.SpscProtocol
