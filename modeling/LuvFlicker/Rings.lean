import LuvFlicker.Lib.SpscProtocol

/-!
# The rings between the threads

The three single-producer single-consumer rings of the engine as the accesses their
calls make: an index is loaded or stored in one access, a slot is written or copied
in one access, and the accesses of the two threads come in any order.
-/

namespace LuvFlicker

open SpscProtocol

universe u

variable {α : Type u}

/-! ## SPSCRing -/

namespace SPSCRing

/-- The next access of a thread. A caller with a claimed slot may write it, commit it or claim again; a caller with a
peeked slot may consume it or peek again. -/
inductive Turn (α : Type u) where
  | tryClaim
  | write (a : α)
  | commit
  | tryPeek
  | consume

def access (bits : Nat) : Turn α → Threads α → Response α × Threads α
  | .tryClaim, t =>
    match t.producer with
    | .loaded head =>
      if t.memory.isFull bits head then (.full, { t with producer := .idle })
      else (.silent, { t with producer := .claimed head })
    | _ => (.silent, { t with producer := .loaded t.memory.head })
  | .write a, t =>
    match t.producer with
    | .claimed head => (.silent, { t with memory := t.memory.write bits head a })
    | _ => (.silent, t)
  | .commit, t =>
    match t.producer with
    | .claimed head =>
      (.pushed (t.memory.slots (Spsc.Ring.cell bits head)),
        { t with memory := t.memory.publish (t.memory.head + 1), producer := .idle })
    | _ => (.silent, t)
  | .tryPeek, t =>
    match t.consumer with
    | .loaded tail =>
      if t.memory.head = tail then (.empty, { t with memory := t.memory.observe, consumer := .idle })
      else (.silent, { t with memory := t.memory.observe, consumer := .peeked tail })
    | _ => (.silent, { t with consumer := .loaded t.memory.tail })
  | .consume, t =>
    match t.consumer with
    | .peeked tail =>
      (.popped (t.memory.read bits tail), { t with memory := t.memory.retire (t.memory.tail + 1), consumer := .idle })
    | _ => (.silent, t)

def writes (bits : Nat) : Turn α → Threads α → Option Nat
  | .write _, ⟨_, .claimed head, _⟩ => some (Spsc.Ring.cell bits head)
  | _, _ => none

def new (slots : Nat → α) : Threads α := ⟨Memory.new slots, .idle, .idle⟩

variable (bits : Nat) (turn : Turn α) (t : Threads α)

theorem access_moves : Moves bits t (access bits turn t).1 (access bits turn t).2 := by
  obtain ⟨m, p, c⟩ := t
  cases turn with
  | tryClaim =>
    cases p with
    | loaded head =>
      cases hFull : m.isFull bits head with
      | true =>
        simp only [access, hFull]
        exact .full hFull
      | false =>
        simp only [access, hFull]
        exact .claim hFull
    | idle | claimed | written => exact .load_head
  | write a =>
    cases p with
    | claimed head => exact .fill a
    | idle | loaded | written => exact .rest _
  | commit =>
    cases p with
    | claimed head => exact .commit
    | idle | loaded | written => exact .rest _
  | tryPeek =>
    cases c with
    | loaded tail =>
      rcases eq_or_ne m.head tail with hEmpty | hSome
      · simp only [access, hEmpty]
        exact .empty hEmpty
      · simp only [access, hSome]
        exact .peek hSome
    | idle | peeked | copied => exact .load_tail
  | consume =>
    cases c with
    | peeked tail => exact .consume
    | idle | loaded | copied => exact .rest _

theorem writes_spec (slot : Nat) (h : writes bits turn t = some slot) :
    ∃ head, t.producer = .claimed head ∧ slot = Spsc.Ring.cell bits head := by
  obtain ⟨m, p, c⟩ := t
  cases turn with
  | write a =>
    cases p with
    | claimed head => exact ⟨head, rfl, (Option.some.inj h).symm⟩
    | idle | loaded | written => cases h
  | tryClaim | commit | tryPeek | consume => cases h

theorem access_slots (slot : Nat) (h : writes bits turn t ≠ some slot) :
    (access bits turn t).2.memory.slots slot = t.memory.slots slot := by
  obtain ⟨m, p, c⟩ := t
  cases turn with
  | write a =>
    cases p with
    | claimed head => exact Function.update_of_ne (fun hEq => h (congrArg some hEq.symm)) ..
    | idle | loaded | written => rfl
  | tryClaim =>
    cases p with
    | loaded head =>
      cases hFull : m.isFull bits head <;> simp only [access, hFull, if_true, Bool.false_eq_true, if_false]
    | idle | claimed | written => rfl
  | commit => cases p <;> rfl
  | tryPeek =>
    cases c with
    | loaded tail =>
      rcases eq_or_ne m.head tail with hEmpty | hSome
      · simp only [access, hEmpty]
        rfl
      · simp only [access, hSome]
        rfl
    | idle | peeked | copied => rfl
  | consume => cases c <;> rfl

end SPSCRing

/-! ## Queues with one call for a push and one for a pop -/

inductive Pushing (α : Type u) where
  | idle
  | loaded (value : α) (head : UInt64)
  | room (value : α) (head : UInt64)
  | stored (value : α) (head : UInt64)

inductive Popping (α : Type u) where
  | idle
  | loaded (tail : UInt64)
  | found (tail : UInt64)
  | copied (tail : UInt64) (value : α)

structure QueueCalls (α : Type u) where
  memory : Memory α
  push : Pushing α
  pop : Popping α

namespace QueueCalls

/-- The next access of a thread; the value is the argument of the push that starts with it. -/
inductive Turn (α : Type u) where
  | push (value : α)
  | pop

def access (bits : Nat) : Turn α → QueueCalls α → Response α × QueueCalls α
  | .push value, q =>
    match q.push with
    | .idle => (.silent, { q with push := .loaded value q.memory.head })
    | .loaded value head =>
      if q.memory.isFull bits head then (.full, { q with push := .idle })
      else (.silent, { q with push := .room value head })
    | .room value head => (.silent, { q with memory := q.memory.write bits head value, push := .stored value head })
    | .stored value head => (.pushed value, { q with memory := q.memory.publish (head + 1), push := .idle })
  | .pop, q =>
    match q.pop with
    | .idle => (.silent, { q with pop := .loaded q.memory.tail })
    | .loaded tail =>
      if q.memory.head = tail then (.empty, { q with memory := q.memory.observe, pop := .idle })
      else (.silent, { q with memory := q.memory.observe, pop := .found tail })
    | .found tail => (.silent, { q with pop := .copied tail (q.memory.read bits tail) })
    | .copied tail value => (.popped value, { q with memory := q.memory.retire (tail + 1), pop := .idle })

def writes (bits : Nat) : Turn α → QueueCalls α → Option Nat
  | .push _, ⟨_, .room _ head, _⟩ => some (Spsc.Ring.cell bits head)
  | _, _ => none

def new (slots : Nat → α) : QueueCalls α := ⟨Memory.new slots, .idle, .idle⟩

def producer : Pushing α → Producer α
  | .idle => .idle
  | .loaded _ head => .loaded head
  | .room _ head => .claimed head
  | .stored value head => .written head value

def consumer : Popping α → Consumer α
  | .idle => .idle
  | .loaded tail => .loaded tail
  | .found tail => .peeked tail
  | .copied tail value => .copied tail value

def threads (q : QueueCalls α) : Threads α := ⟨q.memory, producer q.push, consumer q.pop⟩

section

variable (bits : Nat) (turn : Turn α) (q : QueueCalls α)

theorem access_moves : Moves bits q.threads (access bits turn q).1 (access bits turn q).2.threads := by
  obtain ⟨m, pushing, popping⟩ := q
  cases turn with
  | push value =>
    cases pushing with
    | idle => exact .load_head
    | loaded value head =>
      cases hFull : m.isFull bits head with
      | true =>
        simp only [access, hFull]
        exact .full hFull
      | false =>
        simp only [access, hFull]
        exact .claim hFull
    | room value head => exact .write _
    | stored value head => exact .publish
  | pop =>
    cases popping with
    | idle => exact .load_tail
    | loaded tail =>
      rcases eq_or_ne m.head tail with hEmpty | hSome
      · simp only [access, hEmpty]
        exact .empty hEmpty
      · simp only [access, hSome]
        exact .peek hSome
    | found tail => exact .copy
    | copied tail value => exact .retire

theorem writes_spec (slot : Nat) (h : writes bits turn q = some slot) :
    ∃ head, q.threads.producer = .claimed head ∧ slot = Spsc.Ring.cell bits head := by
  obtain ⟨m, pushing, _⟩ := q
  cases turn with
  | push value =>
    cases pushing with
    | room value head => exact ⟨head, rfl, (Option.some.inj h).symm⟩
    | idle | loaded | stored => cases h
  | pop => cases h

theorem access_slots (slot : Nat)
    (h : writes bits turn q ≠ some slot) : (access bits turn q).2.memory.slots slot = q.memory.slots slot := by
  obtain ⟨m, pushing, popping⟩ := q
  cases turn with
  | push value =>
    cases pushing with
    | room value head => exact Function.update_of_ne (fun hEq => h (congrArg some hEq.symm)) ..
    | loaded value head =>
      cases hFull : m.isFull bits head <;> simp only [access, hFull, if_true, Bool.false_eq_true, if_false]
    | idle | stored => rfl
  | pop =>
    cases popping with
    | loaded tail =>
      rcases eq_or_ne m.head tail with hEmpty | hSome
      · simp only [access, hEmpty]
        rfl
      · simp only [access, hSome]
        rfl
    | idle | found | copied => rfl

end

theorem linearizable {bits : Nat} (h : bits < 64) (slots : Nat → α) :
    Linearizable bits (access bits) (fun q => q.memory.slots) (writes bits) (new slots) :=
  linearizable_of_moves _ h (access_moves bits) (writes_spec bits) (access_slots bits) rfl

end QueueCalls

def StaticSpscQueue.access (bits : Nat) : QueueCalls.Turn α → QueueCalls α → Response α × QueueCalls α :=
  QueueCalls.access bits

def SpscRingBuffer.access (bits : Nat) : QueueCalls.Turn α → QueueCalls α → Response α × QueueCalls α :=
  QueueCalls.access bits

/-- The capacities are the powers of two of a 32-bit and of a 64-bit template argument. -/
theorem rings_linearizable (slots : Nat → α) :
    (∀ bits : Fin 32, Linearizable bits (SPSCRing.access bits) (fun t => t.memory.slots) (SPSCRing.writes bits)
        (SPSCRing.new slots)) ∧
      (∀ bits : Fin 32, Linearizable bits (StaticSpscQueue.access bits) (fun q => q.memory.slots)
        (QueueCalls.writes bits) (QueueCalls.new slots)) ∧
      ∀ bits : Fin 64, Linearizable bits (SpscRingBuffer.access bits) (fun q => q.memory.slots)
        (QueueCalls.writes bits) (QueueCalls.new slots) := by
  refine ⟨fun bits => ?_, fun bits => ?_, fun bits => QueueCalls.linearizable bits.isLt _⟩
  · have hBits : bits.val < 64 := bits.isLt.trans (by decide)
    exact linearizable_of_moves id hBits (SPSCRing.access_moves bits) (SPSCRing.writes_spec bits)
      (SPSCRing.access_slots bits) rfl
  · exact QueueCalls.linearizable (bits.isLt.trans (by decide)) _

theorem QueueCalls.run_answered (bits : Fin 64) (slots : Nat → α) (turns : List (Turn α)) :
    ∃ r, Answered (Spsc.Ring.new slots bits.isLt) (Run.run (access bits) turns (new slots)).1 r := by
  obtain ⟨q, hServed⟩ := (linearizable bits.isLt _).served _
  obtain ⟨r, hAnswered, _⟩ := hServed.answered (Spsc.Ring.contents_new _ bits.isLt)
  exact ⟨r, hAnswered⟩

end LuvFlicker
