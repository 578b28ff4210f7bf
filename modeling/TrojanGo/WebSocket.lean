import TrojanGo.Http
import TrojanGo.Header

/-!
# The WebSocket server

`AcceptConn` sniffs with `http.ReadRequest` through a 512-byte rewind connection, redirects what is
not an upgrade to the configured path, and hands an upgrade through `rw` to `ServeHTTP`
(`acceptConn_carries`). It then waits on a hand-off the `Handler` sends on unguarded, so a
`Handler` that has not sent when `AcceptConn` stops selecting never can (`stuck_steps`).
-/

set_option autoImplicit false

namespace TrojanGo.WebSocket
open TrojanGo.Stream TrojanGo.Rewind TrojanGo.Http TrojanGo.Header Conn

/-- The fields of `websocket.Server` that `AcceptConn` reads. -/
structure Server where
  enabled : Bool
  hostname : String
  path : String
  redirAddr : HostPort

/-- How the sniff in `AcceptConn` ends: a redirect (with the error returned after it), an
upgrade to hand to `ServeHTTP` with the request and `rw`, or an error alone. -/
inductive Sniffed (σ : Type) where
  | redirect (redirectTo : HostPort) (conn : Handed σ) (err : GoError)
  | upgrade (req : Request) (rw : Reader (RewindConn σ))
  | fail (err : GoError)

variable {σ : Type}

/-- `AcceptConn` up to `ServeHTTP`: `accepted` is what the layer below returned, `remoteAddr`
the text of `conn.RemoteAddr()`, and `toLower` is `strings.ToLower`. -/
def acceptConn [Conn σ] (s : Server) (readRequest : ReadRequest) (toLower : String → String)
    (remoteAddr : String) (accepted : Except GoError σ) : Sniffed σ :=
  match accepted with
  | .error _ => .fail (.common "websocket failed to accept connection from underlying server")
  | .ok conn =>
    if !s.enabled then
      .redirect s.redirAddr (.raw conn)
        (.common ("websocket is disabled. redirecting http request from " ++ remoteAddr))
    else
      let r := readRequest.run (newReader ((newRewindConn conn).setBufferSize 512))
      let rewindConn := r.2.rd.rewind.stopBuffering
      match r.1 with
      | .error err =>
        .redirect s.redirAddr (.rewound rewindConn)
          (newErrorBase ("not a valid http request: " ++ remoteAddr) (some err))
      | .ok req =>
        if toLower req.upgrade ≠ "websocket" ∨ req.path ≠ s.path then
          .redirect s.redirAddr (.rewound rewindConn)
            (newErrorBase ("not a valid websocket handshake request: " ++ remoteAddr) none)
        else .upgrade req r.2

/-- What a sniff hands on carries: a redirect the whole `stream`; an upgrade, after the bytes
`received` the parser took, the rest of it. -/
def Sniffed.Carries [Conn σ] (stream received : Bytes) : Sniffed σ → Prop
  | .redirect _ c _ => c.content = stream
  | .upgrade _ rw => received ++ Conn.content rw = stream
  | .fail _ => True

/-- Every redirect carries the stream the layer below handed over; an upgrade hands
`ServeHTTP` exactly what follows the bytes the request parser took. -/
theorem acceptConn_carries [Conn σ] (s : Server) (readRequest : ReadRequest)
    (toLower : String → String) (remoteAddr : String) (conn : σ) :
    (acceptConn s readRequest toLower remoteAddr (.ok conn)).Carries (Conn.content conn)
      (readRequest.received (newReader ((newRewindConn conn).setBufferSize 512))) := by
  have hp := peek_rewind_bufio readRequest 512 conn
  dsimp only [acceptConn]
  split
  · rfl
  · split
    · simpa [Sniffed.Carries, Handed.content] using hp
    · split
      · simpa [Sniffed.Carries, Handed.content] using hp
      · exact received_run readRequest (newReader ((newRewindConn conn).setBufferSize 512))

/-- `strings.HasPrefix`. -/
def hasPrefix (s pre : String) : Bool := pre.toList.isPrefixOf s.toList

/-- The options `websocket.NewServer` reads: `RemoteHost`, `RemotePort`, and the `Enabled`,
`Host` and `Path` of `Websocket`. -/
structure Config where
  remoteHost : String
  remotePort : Nat
  enabled : Bool
  host : String
  path : String

/-- `websocket.NewServer`, with `r` what `rand.Intn(10)` returns: the server and its handshake
timeout in seconds. -/
def newServer (cfg : Config) (r : Nat) : Except GoError (Server × Nat) :=
  if cfg.enabled && !hasPrefix cfg.path "/" then
    .error (.common "websocket path must start with \"/\"")
  else
    let remoteHost := if cfg.remoteHost = "" then cfg.host else cfg.remoteHost
    let remotePort := if cfg.remotePort = 0 then 80 else cfg.remotePort
    .ok (⟨cfg.enabled, cfg.host, cfg.path, ⟨remoteHost, remotePort⟩⟩, r + 5)

theorem newServer_error (cfg : Config) (r : Nat) (err : GoError) :
    newServer cfg r = .error err ↔
      cfg.enabled = true ∧ hasPrefix cfg.path "/" = false ∧
        err = .common "websocket path must start with \"/\"" := by
  unfold newServer
  cases cfg.enabled <;> cases hasPrefix cfg.path "/" <;> simp [eq_comm]

theorem newServer_ok {cfg : Config} {r : Nat} (hr : r < 10) {s : Server} {timeout : Nat}
    (h : newServer cfg r = .ok (s, timeout)) :
    (s.enabled = true → hasPrefix s.path "/" = true) ∧ s.redirAddr.port ≠ 0 ∧
      5 ≤ timeout ∧ timeout ≤ 14 := by
  unfold newServer at h
  split at h
  · cases h
  · rename_i hp
    cases h
    refine ⟨fun he => by cases hq : hasPrefix cfg.path "/" <;> simp_all, ?_, by omega, by omega⟩
    dsimp only
    split <;> omega

theorem newServer_upgrade_path [Conn σ] {cfg : Config} {r : Nat} (hr : r < 10) {s : Server}
    {timeout : Nat} (h : newServer cfg r = .ok (s, timeout)) (readRequest : ReadRequest)
    (toLower : String → String) (remoteAddr : String) (conn : σ) {req : Request}
    {rw : Reader (RewindConn σ)} (hu : acceptConn s readRequest toLower remoteAddr (.ok conn) = .upgrade req rw) :
    hasPrefix req.path "/" = true := by
  unfold acceptConn at hu
  dsimp only at hu
  split at hu
  · cases hu
  · rename_i hen
    split at hu
    · cases hu
    · split at hu
      · cases hu
      · rename_i hpath
        cases hu
        simp only [Bool.not_eq_true', Bool.not_eq_false] at hen
        simp only [ne_eq, not_or, not_not] at hpath
        rw [hpath.2]
        exact (newServer_ok hr h).1 hen

/-! ### The hand-off -/

inductive AcceptSt where
  | selecting
  | woken (bySignal : Bool)
  | returnedConn
  | returnedErr
  deriving DecidableEq, Repr

inductive HandlerSt where
  | handshaking
  | sending
  | waitingCtx
  | finished
  deriving DecidableEq, Repr

structure St where
  accept : AcceptSt
  handler : HandlerSt
  timerFired : Bool
  wsConn : Bool
  cancelled : Bool
  connClosed : Bool
  received : Bool
  deriving DecidableEq, Repr

def init : St := ⟨.selecting, .handshaking, false, false, false, false, false⟩

/-- One move of one party. `cancel` is the context ending from outside (the server closing,
or the returned connection's `Close`). -/
inductive Step : St → St → Prop
  | handshakeFail (s : St) : s.handler = .handshaking →
      Step s { s with handler := .finished, connClosed := true }
  | store (s : St) : s.handler = .handshaking → Step s { s with handler := .sending, wsConn := true }
  | signal (s : St) : s.handler = .sending → s.accept = .selecting →
      Step s { s with handler := .waitingCtx, accept := .woken true, received := true }
  | fire (s : St) : s.timerFired = false → Step s { s with timerFired := true }
  | timeout (s : St) : s.accept = .selecting → s.timerFired = true →
      Step s { s with accept := .woken false }
  | check (s : St) (b : Bool) : s.accept = .woken b →
      Step s (if s.wsConn then { s with accept := .returnedConn }
        else { s with accept := .returnedErr, cancelled := true })
  | cancel (s : St) : Step s { s with cancelled := true }
  | handlerDone (s : St) : s.handler = .waitingCtx → s.cancelled = true →
      Step s { s with handler := .finished, connClosed := true }

inductive Steps : St → St → Prop
  | refl (s : St) : Steps s s
  | tail {s t u : St} : Steps s t → Step t u → Steps s u

/-- `AcceptConn` has returned while the `Handler` is at its send with the connection open. -/
def Stranded (s : St) : Prop :=
  (s.accept = .returnedConn ∨ s.accept = .returnedErr) ∧ s.handler = .sending ∧
    s.connClosed = false

theorem stuck_step {s t : St} (h : Step s t) (hs : Stranded s) : Stranded t := by
  obtain ⟨ha, hh, hc⟩ := hs
  cases h with
  | fire | cancel => exact ⟨ha, hh, hc⟩
  | check b h => rcases ha with ha | ha <;> simp [ha] at h
  | _ => simp_all

/-- Once stranded, the `Handler` never leaves its send and the connection stays open. -/
theorem stuck_steps {s t : St} (h : Steps s t) (hs : Stranded s) : Stranded t := by
  induction h with
  | refl => exact hs
  | tail _ hst ih => exact stuck_step hst ih

theorem step_returnedConn {s t : St} (h : Step s t) (hs : s.accept = .returnedConn → s.wsConn = true) :
    t.accept = .returnedConn → t.wsConn = true := by
  cases h with
  | check b =>
    split
    · simp_all
    · simp
  | _ => simp_all

theorem steps_returnedConn {t : St} (h : Steps init t) : t.accept = .returnedConn → t.wsConn = true := by
  induction h with
  | refl => nofun
  | tail _ hst ih => exact step_returnedConn hst ih

/-- The timer fires before the `Handler` runs: `AcceptConn` returns the handshake error, the
`Handler` then stores `wsConn` and stays at its send for good, the connection open. When the
`Handler` stores `wsConn` first and the timer fires before its send, `AcceptConn` returns the
`InboundConn` without the signal, and the `Handler` is stranded the same way. -/
theorem handoff_strands_handler :
    Steps init ⟨.returnedErr, .sending, true, true, true, false, false⟩ ∧
      (∀ t, Steps ⟨.returnedErr, .sending, true, true, true, false, false⟩ t →
        t.handler = .sending ∧ t.connClosed = false) ∧
      Steps init ⟨.returnedConn, .sending, true, true, false, false, false⟩ := by
  refine ⟨?_, fun t ht => (stuck_steps ht ⟨.inr rfl, rfl, rfl⟩).2, ?_⟩
  · exact .tail (.tail (.tail (.tail (.refl _) (.fire _ rfl)) (.timeout _ rfl rfl))
      (.check _ false rfl)) (.store _ rfl)
  · exact .tail (.tail (.tail (.tail (.refl _) (.store _ rfl)) (.fire _ rfl)) (.timeout _ rfl rfl))
      (.check _ false rfl)

end TrojanGo.WebSocket
