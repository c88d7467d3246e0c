import LuvFlicker.Lib.Run
import LuvFlicker.Session.Guard

/-!
# Authenticity of a session

The key holder issues signatures for messages, a message being a sequence number
with a payload. An adversary submits what it likes, but a right signature only for a
payload that has been signed.
-/

namespace LuvFlicker.Session

open Run SessionSecurityGuard

structure World where
  guard : SessionSecurityGuard := {}
  issued : List (UInt64 × List UInt8) := []

inductive WorldOp where
  | issue (seqNum : UInt64) (payload : List UInt8)
  | inbound (call : Inbound)
  | terminate

section Adversary

variable (hmac : List UInt8 → List UInt8 → Mac) (config : SessionSecurityConfig)

namespace WorldOp

variable (op : WorldOp)

def step (w : World) : Option AuthResult × World :=
  match op with
  | .issue seqNum payload => (none, { w with issued := (seqNum, payload) :: w.issued })
  | .inbound call =>
    let out := w.guard.validateInboundMessage hmac config call
    (some out.1, { w with guard := out.2 })
  | .terminate => (none, { w with guard := w.guard.terminateSession })

/-- A right signature is known only of payloads that have been signed. -/
def Unforgeable (w : World) : Prop :=
  match op with
  | .inbound call => Signed hmac config call → ∃ seqNum, (seqNum, call.payload) ∈ w.issued
  | _ => True

/-- What is accepted carries a signature and has been issued. -/
def Authentic (w : World) : Prop :=
  match op with
  | .inbound call =>
    (w.guard.validateInboundMessage hmac config call).1 = .success →
      call.hmacSignature ≠ none ∧ (call.seqNum, call.payload) ∈ w.issued
  | _ => True

/-- The signature was issued for the same payload under other sequence numbers. -/
def Captured (call : Inbound) (issued : List (UInt64 × List UInt8)) : Prop :=
  Signed hmac config call ∧ (∃ other ≠ call.seqNum, (other, call.payload) ∈ issued) ∧
    (call.seqNum, call.payload) ∉ issued

/-- A call that gets as far as the signature carries one, which is not taken from another message. -/
def Bound (w : World) : Prop :=
  match op with
  | .inbound call => Passes config call w.guard → call.hmacSignature ≠ none ∧ ¬ Captured hmac config call w.issued
  | _ => True

end WorldOp

variable {hmac config}

theorem authentic_iff_bound {op : WorldOp} {w : World} (hAdversary : op.Unforgeable hmac config w) :
    op.Authentic hmac config w ↔ op.Bound hmac config w := by
  cases op with
  | issue | terminate => exact Iff.rfl
  | inbound call =>
    rw [WorldOp.Authentic, success_iff]
    constructor
    · intro hAuthentic hPasses
      constructor
      · intro hNone
        exact (hAuthentic ⟨hPasses, .inl hNone⟩).1 hNone
      · rintro ⟨hSigned, -, hUnissued⟩
        exact hUnissued (hAuthentic ⟨hPasses, .inr hSigned⟩).2
    · rintro hBound ⟨hPasses, hAccepted⟩
      obtain ⟨hSome, hCaptured⟩ := hBound hPasses
      have hSigned := hAccepted.resolve_left hSome
      obtain ⟨other, hOther⟩ := hAdversary hSigned
      refine ⟨hSome, Classical.byContradiction fun hUnissued => ?_⟩
      refine hCaptured ⟨hSigned, ⟨_, ?_, hOther⟩, hUnissued⟩
      rintro rfl
      exact hUnissued hOther

end Adversary

/-- Against an adversary that cannot forge signatures, only issued messages are accepted exactly in the runs in which
every message that gets as far as its signature carries one and not the one of another message. -/
theorem authentic_run_iff (hmac : List UInt8 → List UInt8 → Mac) (config : SessionSecurityConfig)
    (ops : List WorldOp) (hAdversary : Always (WorldOp.step hmac config) (WorldOp.Unforgeable hmac config) ops {}) :
    Always (WorldOp.step hmac config) (WorldOp.Authentic hmac config) ops {} ↔
      Always (WorldOp.step hmac config) (WorldOp.Bound hmac config) ops {} :=
  hAdversary.iff_of_invariant (fun _ => True) (fun _ _ h _ => authentic_iff_bound h) (fun _ _ _ _ _ => trivial) trivial

def lengthMac (_ payload : List UInt8) : Mac := fun _ => payload.length.toUInt8

def firstMessage : List WorldOp :=
  [.issue 1 [7], .inbound { seqNum := 1, payload := [7], hmacSignature := some fun _ => 1 }]

theorem firstMessage_authentic :
    Always (WorldOp.step lengthMac {}) (WorldOp.Authentic lengthMac {}) firstMessage {} := by
  have hIssued : (1, [7]) ∈ ([(1, [7])] : List (UInt64 × List UInt8)) := List.mem_cons_self
  have hAdversary : Always (WorldOp.step lengthMac {}) (WorldOp.Unforgeable lengthMac {}) firstMessage {} :=
    ⟨trivial, fun _ => ⟨1, hIssued⟩, trivial⟩
  refine (authentic_run_iff lengthMac {} firstMessage hAdversary).mpr ?_
  exact ⟨trivial, fun _ => ⟨nofun, fun hCaptured => hCaptured.2.2 hIssued⟩, trivial⟩

def unsignedMessage : List WorldOp := [.inbound { seqNum := 1, payload := [7] }]

def capturedMessage : List WorldOp :=
  [.issue 1 [7], .inbound { seqNum := 2, payload := [7], hmacSignature := some fun _ => 1 }]

/-- A message without a signature is accepted, and so is a captured one under another sequence number. -/
theorem unsigned_and_captured_accepted :
    (Always (WorldOp.step lengthMac {}) (WorldOp.Unforgeable lengthMac {}) unsignedMessage {} ∧
      (run (WorldOp.step lengthMac {}) unsignedMessage {}).1 = [some .success]) ∧
    Always (WorldOp.step lengthMac {}) (WorldOp.Unforgeable lengthMac {}) capturedMessage {} ∧
      (run (WorldOp.step lengthMac {}) capturedMessage {}).1 = [none, some .success] ∧
      ¬ Always (WorldOp.step lengthMac {}) (WorldOp.Authentic lengthMac {}) capturedMessage {} := by
  refine ⟨⟨⟨nofun, trivial⟩, by decide +kernel⟩, ⟨trivial, fun _ => ⟨1, List.mem_cons_self⟩, trivial⟩,
    by decide +kernel, ?_⟩
  rintro ⟨-, hAuthentic, -⟩
  have hIssued := (hAuthentic (by decide +kernel)).2
  exact absurd hIssued (by decide +kernel)

end LuvFlicker.Session
