import TrojanGo.Http
import TrojanGo.Header

/-!
# The TLS server

`isDomainNameMatched` never looks at the byte before a wildcard's suffix, so a wildcard also
matches a name glued to that suffix (`isDomainNameMatched_glued_suffix`). The connection task
runs the handshake through a 2048-byte rewind connection, redirecting a stream that is not TLS,
and sniffs the decrypted stream for HTTP through a 1024-byte one (`handleConn_carries`).
-/

set_option autoImplicit false

namespace TrojanGo.Tls
open TrojanGo.Stream TrojanGo.Rewind TrojanGo.Http TrojanGo.Header Conn

/-! ### Names -/

/-- `strings.HasPrefix(s, prefix)`. -/
def hasPrefix (s pre : Bytes) : Bool := pre.length ≤ s.length && s.take pre.length == pre

/-- `strings.HasSuffix(s, suffix)`. -/
def hasSuffix (s suf : Bytes) : Bool :=
  suf.length ≤ s.length && s.drop (s.length - suf.length) == suf

def dot : UInt8 := 0x2E

/-- `isDomainNameMatched(pattern, domainName)`; `domainPrefixLen` is a Go `int`. -/
def isDomainNameMatched (pattern domainName : Bytes) : Bool :=
  if hasPrefix pattern (ascii "*.") then
    let suffix := pattern.drop 2
    let domainPrefixLen : Int := domainName.length - suffix.length - 1
    hasSuffix domainName suffix && decide (domainPrefixLen > 0) &&
      !(domainName.take domainPrefixLen.toNat).contains dot
  else pattern == domainName

theorem hasSuffix_iff (s suf : Bytes) : hasSuffix s suf = true ↔ suf <:+ s := by
  constructor
  · intro h
    simp only [hasSuffix, Bool.and_eq_true, decide_eq_true_eq, beq_iff_eq] at h
    rw [← h.2]
    exact List.drop_suffix _ _
  · rintro ⟨t, rfl⟩
    simp [hasSuffix]

theorem hasPrefix_wildcard (s : Bytes) : hasPrefix (ascii "*." ++ s) (ascii "*.") = true := by
  simp [hasPrefix]

theorem isDomainNameMatched_wildcard (s d : Bytes) :
    isDomainNameMatched (ascii "*." ++ s) d = true ↔ ∃ l c, l ≠ [] ∧ dot ∉ l ∧ d = l ++ c :: s := by
  have hs : (ascii "*." ++ s).drop 2 = s := rfl
  simp only [isDomainNameMatched, hasPrefix_wildcard, if_true, hs, Bool.and_eq_true,
    decide_eq_true_eq, Bool.not_eq_true', hasSuffix_iff]
  constructor
  · rintro ⟨⟨⟨t, rfl⟩, hp⟩, hc⟩
    have ht : t ≠ [] := by rintro rfl; simp at hp
    refine ⟨t.dropLast, t.getLast ht, ?_, ?_, ?_⟩
    · rw [← List.length_pos, List.length_dropLast]
      simp only [List.length_append, Int.natCast_add, Int.add_sub_cancel, gt_iff_lt] at hp
      omega
    · have hn : (((t ++ s).length : Int) - s.length - 1).toNat = t.length - 1 := by simp
      rw [hn, List.take_append_of_le_length (by omega), ← List.dropLast_eq_take] at hc
      simpa using hc
    · rw [← List.singleton_append, ← List.append_assoc, List.dropLast_append_getLast]
  · rintro ⟨l, c, hl, hd, rfl⟩
    have hn : (((l ++ c :: s).length : Int) - s.length - 1).toNat = l.length := by simp; omega
    refine ⟨⟨⟨l ++ [c], by simp⟩, ?_⟩, ?_⟩
    · have := List.length_pos.mpr hl
      simp only [List.length_append, List.length_cons, Int.natCast_add, Int.Nat.cast_ofNat_Int,
        gt_iff_lt]
      omega
    · rw [hn, List.take_left]
      simpa using hd

/-- `*.example.com` matches `abexample.com`, which is no label followed by `.example.com`. -/
theorem isDomainNameMatched_glued_suffix :
    isDomainNameMatched (ascii "*.example.com") (ascii "abexample.com") = true ∧
      ¬∃ l, l ≠ [] ∧ dot ∉ l ∧ ascii "abexample.com" = l ++ ascii ".example.com" := by
  refine ⟨by decide, ?_⟩
  rintro ⟨l, -, -, h⟩
  exact absurd ⟨l, h.symm⟩ (by decide : ¬ascii ".example.com" <:+ ascii "abexample.com")

theorem isDomainNameMatched_exact {p : Bytes} (h : hasPrefix p (ascii "*.") = false) (d : Bytes) :
    isDomainNameMatched p d = true ↔ p = d := by
  simp [isDomainNameMatched, h]

/-! ### The connection task -/

/-- `strings.Contains(s, substr)`. -/
def containsText (s substr : String) : Bool := decide (substr.toList <:+: s.toList)

/-- `connChan` and `wsChan` of `tls.Server`. -/
inductive Chan where
  | connChan
  | wsChan
  deriving DecidableEq, Repr

/-- The fields of `tls.Server` the connection task reads; `nextHTTP` is the `int32` that
`AcceptConn` sets to 1 for a WebSocket overlay. -/
structure Server where
  fallbackAddress : Option HostPort
  httpResp : Option Bytes
  nextHTTP : Int
  deriving DecidableEq

/-- Where the task leaves a connection: redirected before or after the handshake, answered
with the plain response and closed, closed, or sent on a channel. -/
inductive Outcome (σ τ : Type) where
  | redirect (redirectTo : Option HostPort) (conn : RewindConn σ)
  | writeClose (resp : Bytes)
  | close
  | deliver (ch : Chan) (conn : RewindConn τ)
  | redirectTls (redirectTo : Option HostPort) (conn : RewindConn τ)

inductive Kind where
  | redirect (toSet : Bool)
  | closed
  | deliver (ch : Chan)
  deriving DecidableEq, Repr

variable {σ τ : Type}

def Outcome.kind : Outcome σ τ → Kind
  | .redirect a _ | .redirectTls a _ => .redirect a.isSome
  | .writeClose _ | .close => .closed
  | .deliver ch _ => .deliver ch

/-- The task `tls.Server.acceptLoop` starts for one connection. The handshake is
`tlsConn.Handshake()` as a reader (its error text, or none); `tlsConn` is the TLS connection
over the handshake's rewind connection, whose reads yield the decrypted stream. -/
def handleConn [Conn σ] (s : Server) (handshake : Reading (Option String))
    (tlsConn : RewindConn σ → τ) [Conn τ] (readRequest : ReadRequest) (conn : σ) : Outcome σ τ :=
  let hs := handshake.run ((newRewindConn conn).setBufferSize 2048)
  let handshakeRewindConn := hs.2.stopBuffering
  match hs.1 with
  | some err =>
    if containsText err "first record does not look like a TLS handshake" then
      match s.fallbackAddress, s.httpResp with
      | some a, _ => .redirect (some a) handshakeRewindConn.rewind
      | none, some resp => .writeClose resp
      | none, none => .close
    else .close
  | none =>
    let r := readRequest.run
      (newReader ((newRewindConn (tlsConn handshakeRewindConn)).setBufferSize 1024))
    let rewindConn := r.2.rd.rewind.stopBuffering
    match r.1 with
    | .error _ => .deliver .connChan rewindConn
    | .ok _ =>
      if s.nextHTTP ≠ 1 then .redirectTls s.fallbackAddress rewindConn
      else .deliver .wsChan rewindConn

def Outcome.Carries [Conn σ] [Conn τ] (raw dec : Bytes) : Outcome σ τ → Prop
  | .redirect _ c => Conn.content c = raw
  | .deliver _ c | .redirectTls _ c => Conn.content c = dec
  | .writeClose _ | .close => True

section Task
variable [Conn σ] [Conn τ] (s : Server) (handshake : Reading (Option String))
  (tlsConn : RewindConn σ → τ) (readRequest : ReadRequest) (u : σ)

/-- Whatever the handshake and the sniff read, a connection redirected before the handshake
carries the stream the task received, and one handed on after it the decrypted stream. -/
theorem handleConn_carries :
    (handleConn s handshake tlsConn readRequest u).Carries (Conn.content u)
      (Conn.content (tlsConn (handshake.run ((newRewindConn u).setBufferSize 2048)).2.stopBuffering)) := by
  dsimp only [handleConn]
  split
  · split
    · split
      · simpa [Outcome.Carries] using peek_rewind handshake 2048 u
      all_goals trivial
    · trivial
  · have := peek_rewind_bufio readRequest 1024
      (tlsConn (handshake.run ((newRewindConn u).setBufferSize 2048)).2.stopBuffering)
    split
    · simpa [Outcome.Carries] using this
    · split <;> simpa [Outcome.Carries] using this

theorem handleConn_redirect {a : Option HostPort} {c : RewindConn σ}
    (h : handleConn s handshake tlsConn readRequest u = .redirect a c) :
    a.isSome ∧ a = s.fallbackAddress := by
  dsimp only [handleConn] at h
  split at h
  · split at h
    · split at h
      · cases h
        simp_all
      all_goals cases h
    · cases h
  · split at h
    · cases h
    · split at h <;> cases h

theorem handleConn_redirectTls (hh : (handshake.run ((newRewindConn u).setBufferSize 2048)).1 = none)
    {req : Request} (hr : (readRequest.run (newReader ((newRewindConn (tlsConn
      (handshake.run ((newRewindConn u).setBufferSize 2048)).2.stopBuffering)).setBufferSize 1024))).1 =
        .ok req)
    (hn : s.nextHTTP ≠ 1) :
    ∃ c, handleConn s handshake tlsConn readRequest u = .redirectTls s.fallbackAddress c := by
  dsimp only [handleConn]
  simp only [hh, hr, ne_eq, hn, not_false_eq_true, if_true]
  exact ⟨_, rfl⟩

end Task

/-! ### Configuration -/

/-- The options of the TLS configuration that decide the fallback. -/
structure Config where
  remoteHost : String
  fallbackHost : String
  fallbackPort : Nat
  httpResponseFileName : String

/-- The fallback part of `tls.NewServer`; `net.Dial` to the fallback address (its error) and
`ioutil.ReadFile` are parameters. -/
def newServer (cfg : Config) (dial : HostPort → Option GoError)
    (readFile : String → Except GoError Bytes) : Except GoError Server :=
  if cfg.fallbackPort ≠ 0 then
    let host := if cfg.fallbackHost = "" then cfg.remoteHost else cfg.fallbackHost
    let fallbackAddress : HostPort := ⟨host, cfg.fallbackPort⟩
    match dial fallbackAddress with
    | some err => .error (newErrorBase "invalid fallback address" (some err))
    | none => .ok ⟨some fallbackAddress, none, 0⟩
  else if cfg.httpResponseFileName ≠ "" then
    match readFile cfg.httpResponseFileName with
    | .error err => .error (newErrorBase "invalid response file" (some err))
    | .ok body => .ok ⟨none, some body, 0⟩
  else .ok ⟨none, none, 0⟩

theorem newServer_fallback {cfg : Config} {dial : HostPort → Option GoError}
    {readFile : String → Except GoError Bytes} {s : Server} (h : newServer cfg dial readFile = .ok s) :
    (s.fallbackAddress.isSome ↔ cfg.fallbackPort ≠ 0) ∧ s.nextHTTP = 0 := by
  dsimp only [newServer] at h
  split_ifs at h <;> (try split at h) <;> cases h <;> simp_all

end TrojanGo.Tls
