import LuvFlicker.Http.Dispatch

/-!
# Requests with an effect are authenticated

A connection submits to the bridge or to the WebSocket server only what
`dispatch_client` has routed there, and routing starts with the authorization
header.
-/

namespace LuvFlicker.Http

open BearerKeyStore Bytes Run Text

variable {config : ListenerConfig} {keys : BearerKeyStore} {stored : List (List UInt8)} {peer : Peer}

theorem PeerOk.authenticated (h : PeerOk config keys peer) (hKeys : keys.Holds stored) (hCalls : peer.calls ≠ []) :
    Authenticated stored peer.received := by
  obtain ⟨routed, hRouted, hEffect⟩ := h.calls hCalls
  obtain ⟨_, _, hMeasure, -, rfl⟩ := h.routed _ hRouted
  obtain ⟨hEnd, -, -⟩ := measure_complete hMeasure
  obtain ⟨value, token, hHeader, hBearer, hToken⟩ :=
    bearer_of_authorized hKeys (crlf_prefix_of_strstr hEnd) (authorized_of_effect hEffect)
  obtain ⟨rest, hRest⟩ := @cstr_isPrefix peer.received
  have hFirst := strstr_append hEnd rest
  have hLong := (strstr_eq_some_iff.mp hEnd).1.length_le
  rw [List.length_append, length_crlf, List.length_drop] at hLong
  rw [hRest] at hFirst
  refine ⟨_, value, token, hFirst, ?_, hBearer, hToken⟩
  rwa [← hRest, List.take_append_of_le_length (by omega)]

/-- The calls of a connection are authenticated by the bytes received on it, and the key store accepts the keys that were
stored and no others. -/
theorem effects_authenticated (config : ListenerConfig) (tokens : List (List UInt8)) (ops : List ServerOp) :
    (∀ fd, let peer := (final (ServerOp.step config (final BearerKeyStore.add tokens {})) ops {}).peers fd
      peer.calls ≠ [] → Authenticated (BearerKeyStore.stored tokens) peer.received) ∧
    ∀ token, (final BearerKeyStore.add tokens {}).validate token = true ↔ token ∈ BearerKeyStore.stored tokens := by
  have hKeys := holds_stored tokens
  refine ⟨fun fd hCalls => ?_, hKeys.validate_iff⟩
  exact ((inv_run ops).peers fd).authenticated hKeys hCalls

def sampleKey : List UInt8 := ascii "k1"

def sampleRequest : List UInt8 := ascii "GET /api/v1/positions HTTP/1.1\r\nauthorization: BEARER \tk1\r\n\r\n"

def sampleAround : Surroundings :=
  { orderNs := 0, retained := true, upgradeResult := .kAccepted, bridgeTakes := true, waitNs := 0,
    write := ⟨0, .blocked⟩ }

theorem sample_authenticated :
    let peer := (final (ServerOp.step {} (final BearerKeyStore.add [sampleKey] {}))
      [.accept true sampleRequest 0 0, .readable 0 sampleAround [.bytes 20, .bytes 100]] {}).peers 0
    peer.calls ≠ [] ∧ Authenticated (BearerKeyStore.stored [sampleKey]) peer.received := by
  have hCalls : ((final (ServerOp.step {} (final BearerKeyStore.add [sampleKey] {}))
      [.accept true sampleRequest 0 0, .readable 0 sampleAround [.bytes 20, .bytes 100]] {}).peers 0).calls ≠ [] := by
    decide +kernel
  exact ⟨hCalls, (effects_authenticated {} [sampleKey] _).1 0 hCalls⟩

end LuvFlicker.Http
