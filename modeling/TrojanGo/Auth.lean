import TrojanGo.Header

/-!
# Trojan authentication

`InboundConn.Auth` reads the hash with a single `Read`, then two bytes, the request header and two
more bytes with `io.ReadFull`, never comparing the pairs with CRLF. What it accepts is a known
hash, any two bytes, a header and any two bytes (`auth_sound`), and it accepts every such frame
whose hash arrives in the first read (`auth_complete`).
-/

set_option autoImplicit false

namespace TrojanGo.Auth
open TrojanGo.Stream TrojanGo.Header Conn

/-- A call made on the connection's user (`statistic.User`, outside this repository). -/
inductive UserCall where
  | addIP (ip : String) (ok : Bool)
  | delIP (ip : String)
  | addTraffic (sent recv : Nat)
  deriving DecidableEq, Repr

/-- What `Auth` asks outside the connection: `AuthUser`, the user's `AddIP`, the peer's
address and `net.SplitHostPort` on it. -/
structure Env where
  authUser : Bytes → Bool
  addIP : Bytes → String → Bool
  remoteAddr : String
  splitHostPort : String → Except String String

/-- `trojan.InboundConn`. The user is named by its hash; `calls` lists the calls made on it
through this connection. -/
structure InboundConn (σ : Type) where
  sent : UInt64
  recv : UInt64
  conn : σ
  user : Option Bytes
  hash : Bytes
  metadata : Option Metadata
  ip : String
  calls : List UserCall

/-- `&InboundConn{Conn: rewindConn, auth: s.auth}`. -/
def InboundConn.mk' {σ : Type} (conn : σ) : InboundConn σ :=
  ⟨0, 0, conn, none, [], none, "", []⟩

@[simp] theorem mk'_conn {σ : Type} (conn : σ) : (InboundConn.mk' conn).conn = conn := rfl

@[simp] theorem mk'_calls {σ : Type} (conn : σ) : (InboundConn.mk' conn).calls = [] := rfl

variable {σ : Type}

/-- The frame after an accepted user: two bytes, the request header, two bytes. The code
points `c.metadata` at an empty `Metadata` before `ReadFrom`; after a failure nothing reads it,
so here it is set once the header is read. -/
def readFrame (c : InboundConn σ) : Reading (Option GoError × InboundConn σ) :=
  handle (readFullE 2) (fun e => (some e, c)) fun _ =>
  handle readFrom (fun e => (some e, c)) fun m =>
  let c := { c with metadata := some m }
  handle (readFullE 2) (fun e => (some e, c)) fun _ =>
  pure (none, c)

/-- `InboundConn.Auth` as a reader; the connection it reads is threaded by `run`. -/
def authSteps (env : Env) (c : InboundConn σ) : Reading (Option GoError × InboundConn σ) := do
  let (d, err) ← readOnce 56
  if err.isSome ∨ d.length ≠ 56 then
    return (some (newErrorBase "failed to read hash" (err.map .io)), c)
  else if !env.authUser (Buf 56 d) then
    return (some (.common ("invalid hash:" ++ goString (Buf 56 d))), c)
  else
  let c := { c with hash := Buf 56 d, user := some (Buf 56 d) }
  match env.splitHostPort env.remoteAddr with
  | .error e =>
    return (some (newErrorBase ("failed to parse host:" ++ env.remoteAddr) (some (.common e))), c)
  | .ok ip =>
    let ok := env.addIP (Buf 56 d) ip
    let c := { c with ip := ip, calls := c.calls ++ [.addIP ip ok] }
    if !ok then return (some (.common "ip limit reached"), c)
    else readFrame c

/-- `InboundConn.Auth()`: `nil` or the error, and the connection after it. -/
def InboundConn.auth [Conn σ] (env : Env) (c : InboundConn σ) : Option GoError × InboundConn σ :=
  let r := (authSteps env c).run c.conn
  (r.1.1, { r.1.2 with conn := r.2 })

theorem auth_fst [Conn σ] (env : Env) (c : InboundConn σ) :
    (c.auth env).1 = ((authSteps env c).run c.conn).1.1 := rfl

theorem auth_snd [Conn σ] (env : Env) (c : InboundConn σ) :
    (c.auth env).2 =
      { ((authSteps env c).run c.conn).1.2 with conn := ((authSteps env c).run c.conn).2 } :=
  rfl

def InboundConn.withConn {τ : Type} (c : InboundConn σ) (x : τ) : InboundConn τ :=
  ⟨c.sent, c.recv, x, c.user, c.hash, c.metadata, c.ip, c.calls⟩

/-- `InboundConn.Read`: the underlying read, added to `recv` and reported to the user. -/
def InboundConn.read [Conn σ] (c : InboundConn σ) (k : Nat) : ReadResult (InboundConn σ) :=
  let r := Conn.read c.conn k
  ⟨r.data, r.err,
    { c with
      conn := r.next
      recv := c.recv + UInt64.ofNat r.data.length
      calls := c.calls ++ [.addTraffic 0 r.data.length] }⟩

/-- `InboundConn.Write`, once the underlying write returned `n` and `err`: `n` added to `sent`
and reported to the user. -/
def InboundConn.write (c : InboundConn σ) (n : Nat) (err : Option GoError) :
    (Nat × Option GoError) × InboundConn σ :=
  ((n, err), { c with sent := c.sent + UInt64.ofNat n, calls := c.calls ++ [.addTraffic n 0] })

/-- `InboundConn.Close`: `DelIP` on the user, then the underlying close. -/
def InboundConn.close (c : InboundConn σ) : InboundConn σ :=
  { c with calls := c.calls ++ [.delIP c.ip] }

section Accept
variable [Conn σ]

theorem readFrame_ok {τ : Type} {c : InboundConn τ} {s : σ}
    (h : ((readFrame c).run s).1.1 = none) :
    ∃ x m y, content s = x ++ m.encode ++ y ++ content ((readFrame c).run s).2 ∧ x.length = 2 ∧
      y.length = 2 ∧ ((readFrame c).run s).1.2 = { c with metadata := some m } := by
  unfold readFrame at h ⊢
  rcases h1 : (readFullE 2).run.run s with ⟨_ | x, s1⟩
  · rw [run_handle_error h1] at h; cases h
  rw [run_handle_ok h1] at h ⊢
  rcases h2 : readFrom.run.run s1 with ⟨_ | m, s2⟩
  · rw [run_handle_error h2] at h; cases h
  rw [run_handle_ok h2] at h ⊢
  rcases h3 : (readFullE 2).run.run s2 with ⟨_ | y, s3⟩
  · rw [run_handle_error h3] at h; cases h
  rw [run_handle_ok h3]
  refine ⟨x.1, m, y.1, ?_, x.2, y.2, rfl⟩
  rw [readFullE_ok h1, readFrom_sound h2, readFullE_ok h3]
  simp

theorem readFrame_calls {τ : Type} (c : InboundConn τ) (s : σ) :
    ((readFrame c).run s).1.2.calls = c.calls := by
  let P : Option GoError × InboundConn τ → Prop := fun r => r.2.calls = c.calls
  exact run_handle_of (P := P) s (fun _ => rfl) fun _ s => run_handle_of (P := P) s (fun _ => rfl)
    fun _ s => run_handle_of (P := P) s (fun _ => rfl) fun _ _ => rfl

theorem readFrame_withConn {τ ρ : Type} (c : InboundConn τ) (x : ρ) (s : σ) :
    (readFrame (c.withConn x)).run s =
      ((((readFrame c).run s).1.1, ((readFrame c).run s).1.2.withConn x), ((readFrame c).run s).2) := by
  unfold readFrame
  rcases h1 : (readFullE 2).run.run s with ⟨_ | _, s1⟩
  · rw [run_handle_error h1, run_handle_error h1]
  rw [run_handle_ok h1, run_handle_ok h1]
  rcases h2 : readFrom.run.run s1 with ⟨_ | m, s2⟩
  · rw [run_handle_error h2, run_handle_error h2]
  rw [run_handle_ok h2, run_handle_ok h2]
  rcases h3 : (readFullE 2).run.run s2 with ⟨_ | _, s3⟩
  · rw [run_handle_error h3, run_handle_error h3]; rfl
  rw [run_handle_ok h3, run_handle_ok h3]; rfl

theorem authSteps_withConn {τ ρ : Type} (env : Env) (c : InboundConn τ) (x : ρ) (s : σ) :
    (authSteps env (c.withConn x)).run s =
      ((((authSteps env c).run s).1.1, ((authSteps env c).run s).1.2.withConn x),
        ((authSteps env c).run s).2) := by
  simp only [authSteps, run_bind, readOnce, Reading.run, Reading.bind]
  split_ifs
  · rfl
  · rfl
  · split
    · rfl
    · split_ifs
      · rfl
      · exact readFrame_withConn (σ := σ) { c with hash := _, user := _, ip := _, calls := _ } x _

theorem authSteps_cases {τ : Type} (env : Env) (c : InboundConn τ) (s : σ) :
    (((authSteps env c).run s).1.1.isSome ∧ ((authSteps env c).run s).2 = (read s 56).next ∧
      (((authSteps env c).run s).1.2.calls = c.calls ∨
        ∃ ip ok, ((authSteps env c).run s).1.2.calls = c.calls ++ [.addIP ip ok])) ∨
    ∃ ip, (read s 56).data.length = 56 ∧ env.authUser (read s 56).data = true ∧
      env.splitHostPort env.remoteAddr = .ok ip ∧ env.addIP (read s 56).data ip = true ∧
      (authSteps env c).run s = (readFrame
        { c with hash := (read s 56).data, user := some (read s 56).data, ip := ip,
                 calls := c.calls ++ [.addIP ip true] }).run (read s 56).next := by
  rcases hr : (authSteps env c).run s with ⟨⟨e, c'⟩, s'⟩
  simp only [authSteps, run_bind, readOnce, Reading.run, Reading.bind] at hr
  split_ifs at hr with h1 h2
  · cases hr
    exact .inl ⟨rfl, rfl, .inl rfl⟩
  · cases hr
    exact .inl ⟨rfl, rfl, .inl rfl⟩
  split at hr
  · cases hr
    exact .inl ⟨rfl, rfl, .inl rfl⟩
  rename_i ip hip
  split_ifs at hr with h3
  · cases hr
    exact .inl ⟨rfl, rfl, .inr ⟨ip, _, rfl⟩⟩
  have hd : (read s 56).data.length = 56 := by
    simp only [not_or, not_not] at h1
    exact h1.2
  rw [buf_of_length hd] at h2 h3 hr
  have ha : env.addIP (read s 56).data ip = true := by simpa using h3
  rw [ha] at hr
  exact .inr ⟨ip, hd, by simpa using h2, hip, ha, hr.symm⟩

theorem authSteps_calls {τ : Type} (env : Env) (c : InboundConn τ) (s : σ) :
    ((authSteps env c).run s).1.2.calls = c.calls ∨
      ∃ ip ok, ((authSteps env c).run s).1.2.calls = c.calls ++ [.addIP ip ok] := by
  rcases authSteps_cases env c s with ⟨-, -, h⟩ | ⟨ip, -, -, -, -, hr⟩
  · exact h
  · exact .inr ⟨ip, true, by rw [hr, readFrame_calls]⟩

/-- What `Auth` accepts: a hash the authenticator knows, from a peer its user admits, then
any two bytes, a request header and any two bytes. -/
theorem auth_sound {env : Env} {c : InboundConn σ} (h : (c.auth env).1 = none) :
    ∃ hash x m y ip, content c.conn = hash ++ x ++ m.encode ++ y ++ content (c.auth env).2.conn ∧
      hash.length = 56 ∧ x.length = 2 ∧ y.length = 2 ∧ env.authUser hash = true ∧
      env.splitHostPort env.remoteAddr = .ok ip ∧ env.addIP hash ip = true ∧
      (c.auth env).2.metadata = some m ∧ (c.auth env).2.calls = c.calls ++ [.addIP ip true] ∧
      (c.auth env).2.ip = ip := by
  rw [auth_fst] at h
  rcases authSteps_cases env c c.conn with ⟨he, -⟩ | ⟨ip, hd, hu, hip, ha, hr⟩
  · simp [h] at he
  rw [hr] at h
  obtain ⟨x, m, y, hc, hx, hy, hm⟩ := readFrame_ok h
  refine ⟨(read c.conn 56).data, x, m, y, ip, ?_, hd, hx, hy, hu, hip, ha, ?_⟩
  · rw [auth_snd, hr, ← read_content c.conn 56, hc]
    simp
  · simp [auth_snd, hr, hm]

theorem auth_counters {env : Env} {c : InboundConn σ} (h : (c.auth env).1 = none) :
    (c.auth env).2.sent = c.sent ∧ (c.auth env).2.recv = c.recv := by
  rw [auth_fst] at h
  rcases authSteps_cases env c c.conn with ⟨he, -⟩ | ⟨ip, -, -, -, -, hr⟩
  · simp [h] at he
  rw [hr] at h
  obtain ⟨-, m, -, -, -, -, hm⟩ := readFrame_ok h
  simp [auth_snd, hr, hm]

theorem readFrame_complete [Reliable σ] {τ : Type} (c : InboundConn τ) {s : σ} {x y p : Bytes}
    {m : Metadata} (hs : content s = x ++ m.encode ++ y ++ p) (hx : x.length = 2)
    (hy : y.length = 2) :
    ∃ s', (readFrame c).run s = ((none, { c with metadata := some m }), s') ∧ content s' = p := by
  obtain ⟨s1, h1, hc1⟩ := readFullE_complete 2 (by simpa using hs) hx
  obtain ⟨s2, h2, hc2⟩ := readFrom_complete m hc1
  obtain ⟨s3, h3, hc3⟩ := readFullE_complete 2 hc2 hy
  refine ⟨s3, ?_, hc3⟩
  unfold readFrame
  rw [run_handle_ok h1, run_handle_ok h2, run_handle_ok h3]
  rfl

/-- `\r\n`. -/
def crlf : Bytes := [0x0D, 0x0A]

theorem authSteps_complete [Reliable σ] {τ : Type} (env : Env) (c : InboundConn τ) {s : σ}
    {hash p : Bytes} {m : Metadata} {ip : String}
    (hs : content s = hash ++ crlf ++ m.encode ++ crlf ++ p) (hh : hash.length = 56)
    (hr : (read s 56).data.length = 56) (hauth : env.authUser hash = true)
    (hip : env.splitHostPort env.remoteAddr = .ok ip) (hadd : env.addIP hash ip = true) :
    ((authSteps env c).run s).1.1 = none ∧ ((authSteps env c).run s).1.2.metadata = some m ∧
      content ((authSteps env c).run s).2 = p := by
  have hc := read_content s 56
  rw [hs, List.append_assoc, List.append_assoc, List.append_assoc] at hc
  obtain ⟨hd, hn⟩ := List.append_inj hc (hr.trans hh.symm)
  have he : (read s 56).err = none := by
    by_contra hne
    have := Reliable.read_err s 56 hne
    rw [hs] at this
    simp [← List.length_eq_zero, hh] at this
  obtain ⟨s', hf, hp⟩ := readFrame_complete
    { c with hash := hash, user := some hash, ip := ip, calls := c.calls ++ [.addIP ip true] }
    (show content _ = crlf ++ m.encode ++ crlf ++ p by rw [hn]; simp) rfl rfl
  simp only [authSteps, run_bind, readOnce, Reading.run, Reading.bind, he, hr, hd,
    buf_of_length hh, hauth, hip, hadd]
  simp [hh, hf, hp]

theorem auth_complete [Reliable σ] {env : Env} {c : InboundConn σ} {hash p : Bytes}
    {m : Metadata} {ip : String} (hs : content c.conn = hash ++ crlf ++ m.encode ++ crlf ++ p)
    (hh : hash.length = 56) (hr : (read c.conn 56).data.length = 56)
    (hauth : env.authUser hash = true) (hip : env.splitHostPort env.remoteAddr = .ok ip)
    (hadd : env.addIP hash ip = true) :
    (c.auth env).1 = none ∧ (c.auth env).2.metadata = some m ∧
      content (c.auth env).2.conn = p := by
  simpa only [auth_fst, auth_snd] using authSteps_complete env c hs hh hr hauth hip hadd

theorem auth_consumed [Reliable σ] {τ : Type} (env : Env) (c : InboundConn τ) {s : σ}
    {hash x y p : Bytes} {m : Metadata} (hs : content s = hash ++ x ++ m.encode ++ y ++ p)
    (hh : hash.length = 56) (hx : x.length = 2) (hy : y.length = 2) :
    (content s).length ≤ (content ((authSteps env c).run s).2).length + 60 + m.encode.length := by
  have hc := read_content s 56
  rcases authSteps_cases env c s with ⟨-, hn, -⟩ | ⟨ip, hd, -, -, -, hr⟩
  · have hl := read_length s 56
    have hlen := congrArg List.length hc
    simp only [List.length_append] at hlen
    rw [hn]
    omega
  rw [hs, List.append_assoc, List.append_assoc, List.append_assoc] at hc
  obtain ⟨-, hn⟩ := List.append_inj hc (hd.trans hh.symm)
  have hf (c' : InboundConn τ) : content ((readFrame c').run (read s 56).next).2 = p := by
    obtain ⟨s', hf, hp⟩ := readFrame_complete c' (show content _ = x ++ m.encode ++ y ++ p by
      rw [hn]; simp) hx hy
    rw [hf, hp]
  rw [hr, hf, hs]
  simp only [List.append_assoc, List.length_append, ge_iff_le]
  omega

end Accept

/-! ### Two frames -/

def hashA : Bytes := ascii "d63dc919e201d7bc4c825630d2cf25fdc93d4b2f0d46706d29038d01"

def envA : Env :=
  ⟨fun h => h = hashA, fun _ _ => true, "203.0.113.7:40000", fun _ => .ok "203.0.113.7"⟩

def connectA : Metadata := ⟨Connect, ⟨.domainName (ascii "example.com") (by decide), 443⟩⟩

def zeroSeparated : Wire :=
  ⟨[hashA ++ [0, 0] ++ connectA.encode ++ [0, 0] ++ ascii "GET /"], by decide⟩

/-- `Auth` accepts a frame whose separators are not CRLF: it returns `nil` having consumed
`hash ++ 00 00 ++ header ++ 00 00`. -/
theorem auth_accepts_zero_separators :
    ((InboundConn.mk' zeroSeparated).auth envA).1 = none ∧
      ((InboundConn.mk' zeroSeparated).auth envA).2.metadata = some connectA ∧
      content zeroSeparated = hashA ++ [0, 0] ++ connectA.encode ++ [0, 0] ++
        content ((InboundConn.mk' zeroSeparated).auth envA).2.conn ∧
      ([0, 0] : Bytes) ≠ crlf := by
  decide

def splitHash : Wire :=
  ⟨[hashA.take 20, hashA.drop 20 ++ crlf ++ connectA.encode ++ crlf ++ ascii "GET /"], by decide⟩

/-- `Auth` rejects a well-formed frame when the first read returns only part of the hash. -/
theorem auth_rejects_split_hash :
    content splitHash = hashA ++ crlf ++ connectA.encode ++ crlf ++ ascii "GET /" ∧
      ((InboundConn.mk' splitHash).auth envA).1 = some (.common "failed to read hash") := by
  decide

end TrojanGo.Auth
