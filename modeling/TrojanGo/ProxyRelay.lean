import Mathlib.Logic.Relation
import Mathlib.Order.WellFounded
import TrojanGo.Stream

/-!
# The handler of each relayed connection

A relay handler dials the sink, starts two copies that each send their error on `errChan`
(capacity 2), and selects on `errChan` and the context. A copy's send never blocks
(`send_never_blocks`); once the context ends or a copy returns, every maximal run of the
goroutines ends with all three returned and the connections closed (`handler_drains`), and with
capacity 1 a copy could block for good (`capacity_one_leaks`).
-/

set_option autoImplicit false

namespace TrojanGo.ProxyRelay
open TrojanGo.Stream Relation

inductive Side where
  | inbound
  | outbound
  deriving DecidableEq, Repr

inductive Dir where
  | first
  | second
  deriving DecidableEq, Repr

inductive ConnSt where
  | absent
  | opened
  | closed
  deriving DecidableEq, Repr

inductive Pc where
  | dial
  | goFirst
  | goSecond
  | select
  | closeOutbound
  | closeInbound
  | done
  deriving DecidableEq, Repr

inductive Copy where
  | idle
  | copying
  | sending (err : Option GoError)
  | exited
  deriving DecidableEq, Repr

/-- A handler with its two copies: the handler's position, the copies', what `errChan` holds,
what the handler received from it, its two connections and whether `p.ctx` is done. -/
structure St where
  pc : Pc
  first : Copy
  second : Copy
  errChan : List (Option GoError)
  received : Option (Option GoError)
  inbound : ConnSt
  outbound : ConnSt
  ctxDone : Bool
  deriving DecidableEq, Repr

/-- `make(chan error, 2)`. -/
def errChanSize : Nat := 2

def init (ctxDone : Bool) : St := ⟨.dial, .idle, .idle, [], none, .opened, .absent, ctxDone⟩

namespace St

def copy (s : St) : Dir → Copy
  | .first => s.first
  | .second => s.second

def setCopy (s : St) : Dir → Copy → St
  | .first, c => { s with first := c }
  | .second, c => { s with second := c }

def conn (s : St) : Side → ConnSt
  | .inbound => s.inbound
  | .outbound => s.outbound

variable (s : St) (d : Dir) (c : Copy)

@[simp] theorem setCopy_pc : (s.setCopy d c).pc = s.pc := by cases d <;> rfl
@[simp] theorem setCopy_errChan : (s.setCopy d c).errChan = s.errChan := by cases d <;> rfl
@[simp] theorem setCopy_received : (s.setCopy d c).received = s.received := by cases d <;> rfl
@[simp] theorem setCopy_inbound : (s.setCopy d c).inbound = s.inbound := by cases d <;> rfl
@[simp] theorem setCopy_outbound : (s.setCopy d c).outbound = s.outbound := by cases d <;> rfl
@[simp] theorem setCopy_ctxDone : (s.setCopy d c).ctxDone = s.ctxDone := by cases d <;> rfl
@[simp] theorem copy_setCopy_self : (s.setCopy d c).copy d = c := by cases d <;> rfl

theorem copy_setCopy_of_ne {d d' : Dir} (h : d' ≠ d) : (s.setCopy d c).copy d' = s.copy d' := by
  cases d <;> cases d' <;> first | rfl | exact absurd rfl h

end St

/-- The goroutines' own moves: each is possible without any peer acting. -/
inductive Move (reads : Dir → Side) (cap : Nat) : St → St → Prop
  /-- `DialConn` returns a connection: `defer outbound.Close()`. -/
  | dialOk (s : St) : s.pc = .dial → Move reads cap s { s with pc := .goFirst, outbound := .opened }
  /-- `DialConn` fails: log and return, which runs `inbound.Close()`. -/
  | dialErr (s : St) : s.pc = .dial → Move reads cap s { s with pc := .closeInbound }
  | goFirst (s : St) : s.pc = .goFirst → Move reads cap s { s with pc := .goSecond, first := .copying }
  | goSecond (s : St) : s.pc = .goSecond →
      Move reads cap s { s with pc := .select, second := .copying }
  /-- A copy's read fails on the connection it reads, which the handler has closed. -/
  | copyClosed (s : St) (d : Dir) (err : GoError) : s.copy d = .copying →
      s.conn (reads d) = .closed → Move reads cap s (s.setCopy d (.sending (some err)))
  /-- `errChan <- err` completes: the channel has room. -/
  | send (s : St) (d : Dir) (err : Option GoError) : s.copy d = .sending err →
      s.errChan.length < cap →
      Move reads cap s ({ s with errChan := s.errChan ++ [err] }.setCopy d .exited)
  /-- `case err = <-errChan`, then return. -/
  | recv (s : St) (err : Option GoError) (rest : List (Option GoError)) : s.pc = .select →
      s.errChan = err :: rest →
      Move reads cap s { s with pc := .closeOutbound, errChan := rest, received := some err }
  /-- `case <-p.ctx.Done()`, then return. -/
  | cancelled (s : St) : s.pc = .select → s.ctxDone = true →
      Move reads cap s { s with pc := .closeOutbound }
  | closeOutbound (s : St) : s.pc = .closeOutbound →
      Move reads cap s { s with pc := .closeInbound, outbound := .closed }
  | closeInbound (s : St) : s.pc = .closeInbound →
      Move reads cap s { s with pc := .done, inbound := .closed }

/-- Every move of a handler: its own, a copy returning by itself (end of stream, or an error on
either connection), and the end of `p.ctx` (`Proxy.Close` calls `p.cancel()`). -/
inductive Step (reads : Dir → Side) (cap : Nat) : St → St → Prop
  | move {s t : St} : Move reads cap s t → Step reads cap s t
  | copyEnd (s : St) (d : Dir) (err : Option GoError) : s.copy d = .copying →
      Step reads cap s (s.setCopy d (.sending err))
  | cancel (s : St) : s.ctxDone = false → Step reads cap s { s with ctxDone := true }

/-- `relayConnLoop`: `copyConn(a, b)` is `io.Copy(a, b)`, which reads `b`. -/
def connReads : Dir → Side
  | .first => .outbound
  | .second => .inbound

/-- `relayPacketLoop`: `copyPacket(a, b)` reads `a` and writes `b`. -/
def packetReads : Dir → Side
  | .first => .inbound
  | .second => .outbound

/-- The handler goroutine of `Proxy.relayConnLoop`, with its two `copyConn`s. -/
def relayConnHandler : St → St → Prop := Step connReads errChanSize

/-- The handler goroutine of `Proxy.relayPacketLoop`, with its two `copyPacket`s. -/
def relayPacketHandler : St → St → Prop := Step packetReads errChanSize

def Reachable (reads : Dir → Side) (s : St) : Prop :=
  ∃ c, ReflTransGen (Step reads errChanSize) (init c) s

/-! ### The invariant -/

def Copy.started : Copy → Bool
  | .idle => false
  | _ => true

@[simp] theorem Copy.started_eq_false {c : Copy} : c.started = false ↔ c = .idle := by
  cases c <;> simp [Copy.started]

def Copy.returned : Copy → Bool
  | .sending _ => true
  | .exited => true
  | _ => false

def Copy.sent : Copy → Nat
  | .exited => 1
  | _ => 0

def St.sent (s : St) : Nat := (s.copy .first).sent + (s.copy .second).sent

def St.taken (s : St) : Nat := if s.received.isSome then 1 else 0

def St.spawned (s : St) : Dir → Bool
  | d => match s.pc, d with
    | .dial, _ => false
    | .goFirst, _ => false
    | .goSecond, .first => true
    | .goSecond, .second => false
    | .select, _ => true
    | .closeOutbound, _ => true
    | _, _ => s.outbound != .absent

def Conns (s : St) : Prop :=
  match s.pc with
  | .dial => s.inbound = .opened ∧ s.outbound = .absent ∧ s.received = none
  | .goFirst | .goSecond | .select =>
      s.inbound = .opened ∧ s.outbound = .opened ∧ s.received = none
  | .closeOutbound => s.inbound = .opened ∧ s.outbound = .opened
  | .closeInbound => s.inbound = .opened ∧ s.outbound ≠ .opened
  | .done => s.inbound = .closed ∧ s.outbound ≠ .opened

/-- `errChan` holds what the copies sent and the handler did not take; the copies started are
those the handler has reached the `go` of. -/
structure Inv (s : St) : Prop where
  chan : s.errChan.length + s.taken = s.sent
  spawned : ∀ d, (s.copy d).started = s.spawned d
  conns : Conns s

theorem inv_init (c : Bool) : Inv (init c) :=
  ⟨rfl, fun d => by cases d <;> rfl, ⟨rfl, rfl, rfl⟩⟩

theorem sent_setCopy (s : St) (d : Dir) (c : Copy) :
    (s.setCopy d c).sent + (s.copy d).sent = s.sent + c.sent := by
  cases d <;> simp only [St.sent, St.setCopy, St.copy] <;> omega

theorem spawned_setCopy (s : St) (d : Dir) (c : Copy) : (s.setCopy d c).spawned = s.spawned := by
  cases d <;> rfl

theorem spawned_setCopy_copy {s : St} (hs : ∀ d, (s.copy d).started = s.spawned d) {d : Dir}
    {c : Copy} (hc : c.started = (s.copy d).started) (d' : Dir) :
    ((s.setCopy d c).copy d').started = (s.setCopy d c).spawned d' := by
  rw [spawned_setCopy]
  by_cases h : d' = d
  · subst h; rw [St.copy_setCopy_self, hc, hs]
  · rw [St.copy_setCopy_of_ne _ _ h, hs]

theorem conns_setCopy (s : St) (d : Dir) (c : Copy) : Conns (s.setCopy d c) ↔ Conns s := by
  simp only [Conns, St.setCopy_pc, St.setCopy_inbound, St.setCopy_outbound, St.setCopy_received]

theorem Inv.copyEnd {s : St} (hs : Inv s) {d : Dir} (hd : s.copy d = .copying)
    (err : Option GoError) : Inv (s.setCopy d (.sending err)) := by
  refine ⟨?_, spawned_setCopy_copy hs.spawned (by rw [hd]; rfl), (conns_setCopy s d _).mpr hs.conns⟩
  have := sent_setCopy s d (.sending err)
  have := hs.chan
  simp only [St.taken, St.setCopy_errChan, St.setCopy_received, hd, Copy.sent] at *
  omega

theorem Inv.send {s : St} (hs : Inv s) {d : Dir} {err : Option GoError}
    (hd : s.copy d = .sending err) :
    Inv ({ s with errChan := s.errChan ++ [err] }.setCopy d .exited) := by
  obtain ⟨hchan, hsp, hconns⟩ := hs
  refine ⟨?_, fun d' => ?_, (conns_setCopy _ d _).mpr hconns⟩
  · cases d <;> simp only [St.copy] at hd <;>
      simp only [St.setCopy, St.sent, St.taken, St.copy, List.length_append, List.length_singleton,
        hd, Copy.sent] at hchan ⊢ <;> omega
  · have := hsp d'
    cases d <;> cases d' <;> simp only [St.copy] at hd <;>
      simp_all [St.setCopy, St.copy, St.spawned, Copy.started]

theorem inv_move {reads : Dir → Side} {cap : Nat} {s t : St} (h : Move reads cap s t)
    (hs : Inv s) : Inv t := by
  cases h with
  | copyClosed d err hd _ => exact hs.copyEnd hd _
  | send d err hd _ => exact hs.send hd
  | dialOk hpc | dialErr hpc | goFirst hpc | goSecond hpc | cancelled hpc _
  | closeOutbound hpc | closeInbound hpc =>
    obtain ⟨hchan, hsp, hconns⟩ := hs
    simp only [Conns, hpc] at hconns
    have h1 := hsp .first
    have h2 := hsp .second
    refine ⟨?_, fun d => ?_, ?_⟩
    · simp_all [St.taken, St.sent, St.copy, St.spawned, Copy.sent]
    · have := hsp d
      cases d <;> simp_all [St.spawned, St.copy, Copy.started]
    · simp_all [Conns]
  | recv err rest hpc he =>
    obtain ⟨hchan, hsp, hconns⟩ := hs
    simp only [Conns, hpc] at hconns
    refine ⟨?_, fun d => ?_, ?_⟩
    · simp only [St.taken, he, List.length_cons, hconns.2.2] at hchan ⊢
      simpa [St.sent] using hchan
    · simpa [St.spawned, hpc] using hsp d
    · simp [Conns, hconns.1, hconns.2.1]

theorem inv_step {reads : Dir → Side} {cap : Nat} {s t : St} (h : Step reads cap s t)
    (hs : Inv s) : Inv t := by
  cases h with
  | move h => exact inv_move h hs
  | copyEnd d err hd => exact hs.copyEnd hd err
  | cancel _ => exact ⟨hs.chan, hs.spawned, hs.conns⟩

theorem inv_steps {reads : Dir → Side} {cap : Nat} {s t : St}
    (h : ReflTransGen (Step reads cap) s t) (hs : Inv s) : Inv t := by
  induction h with
  | refl => exact hs
  | tail _ hst ih => exact inv_step hst ih

theorem Reachable.inv {reads : Dir → Side} {s : St} (h : Reachable reads s) : Inv s :=
  let ⟨c, hc⟩ := h
  inv_steps hc (inv_init c)

theorem Reachable.step {reads : Dir → Side} {s t : St} (hs : Reachable reads s)
    (h : Step reads errChanSize s t) : Reachable reads t :=
  let ⟨c, hc⟩ := hs
  ⟨c, hc.tail h⟩

/-! ### No blocked send -/

theorem Inv.errChan_lt {s : St} (hs : Inv s) {d : Dir} {err : Option GoError}
    (hd : s.copy d = .sending err) : s.errChan.length < errChanSize := by
  have h := hs.chan
  have hother : ∀ d', (s.copy d').sent ≤ 1 := fun d' => by cases s.copy d' <;> simp [Copy.sent]
  cases d <;> simp only [St.sent, St.copy, errChanSize] at h hd hother ⊢ <;>
    have := hother .first <;> have := hother .second <;> simp only [St.copy, hd, Copy.sent] at * <;>
    omega

/-- In every state a handler of `relayConnLoop` or `relayPacketLoop` reaches, a copy at
`errChan <- err` completes its send at once: the channel of capacity 2 is never full then. -/
theorem send_never_blocks {reads : Dir → Side} {s : St} (hs : Reachable reads s) {d : Dir}
    {err : Option GoError} (hd : s.copy d = .sending err) :
    ∃ t, Move reads errChanSize s t ∧ t.copy d = .exited ∧ t.errChan = s.errChan ++ [err] :=
  ⟨_, .send s d err hd (hs.inv.errChan_lt hd), St.copy_setCopy_self _ _ _, St.setCopy_errChan _ _ _⟩

def firstReturned : St := ⟨.select, .sending none, .copying, [], none, .opened, .opened, false⟩

theorem firstReturned_reachable : Reachable connReads firstReturned :=
  ⟨false, .tail (.tail (.tail (.single (.move (.dialOk _ rfl))) (.move (.goFirst _ rfl)))
    (.move (.goSecond _ rfl))) (.copyEnd _ .first none rfl)⟩

theorem send_never_blocks_firstReturned :
    Reachable connReads firstReturned ∧ firstReturned.copy .first = .sending none ∧
      ∃ t, Move connReads errChanSize firstReturned t ∧ t.copy .first = .exited ∧
        t.errChan = firstReturned.errChan ++ [none] :=
  ⟨firstReturned_reachable, rfl, send_never_blocks firstReturned_reachable rfl⟩

/-! ### Every run ends -/

def Pc.rank : Pc → Nat
  | .dial => 10
  | .goFirst => 9
  | .goSecond => 6
  | .select => 3
  | .closeOutbound => 2
  | .closeInbound => 1
  | .done => 0

def Copy.rank : Copy → Nat
  | .idle => 3
  | .copying => 2
  | .sending _ => 1
  | .exited => 0

def St.rank (s : St) : Nat :=
  s.pc.rank + (s.copy .first).rank + (s.copy .second).rank + (if s.ctxDone then 0 else 1)

theorem rank_setCopy (s : St) (d : Dir) (c : Copy) :
    (s.setCopy d c).rank + (s.copy d).rank = s.rank + c.rank := by
  cases d <;> simp only [St.rank, St.setCopy, St.copy] <;> omega

theorem move_rank {reads : Dir → Side} {cap : Nat} {s t : St} (h : Move reads cap s t) :
    t.rank < s.rank := by
  cases h with
  | copyClosed d err hd _ =>
    have := rank_setCopy s d (.sending (some err))
    rw [hd] at this
    simp only [Copy.rank] at this
    omega
  | send d err hd _ =>
    have := rank_setCopy { s with errChan := s.errChan ++ [err] } d .exited
    have hd' : ({ s with errChan := s.errChan ++ [err] } : St).copy d = .sending err := by
      cases d <;> exact hd
    have hr : ({ s with errChan := s.errChan ++ [err] } : St).rank = s.rank := rfl
    rw [hd', hr] at this
    simp only [Copy.rank] at this
    omega
  | _ => simp_all [St.rank, Pc.rank, St.copy, Copy.rank] <;> omega

theorem step_rank {reads : Dir → Side} {cap : Nat} {s t : St} (h : Step reads cap s t) :
    t.rank < s.rank := by
  cases h with
  | move h => exact move_rank h
  | copyEnd d err hd =>
    have := rank_setCopy s d (.sending err)
    rw [hd] at this
    simp only [Copy.rank] at this
    omega
  | cancel hc => simp [St.rank, St.copy, hc]

theorem step_wellFounded (reads : Dir → Side) (cap : Nat) :
    WellFounded fun t s => Step reads cap s t :=
  Subrelation.wf (fun h => step_rank h) (measure St.rank).wf

theorem exists_maximal_moves (reads : Dir → Side) (cap : Nat) (s : St) :
    ∃ t, ReflTransGen (Move reads cap) s t ∧ ∀ u, ¬ Move reads cap t u := by
  induction s using (step_wellFounded reads cap).induction with
  | _ s ih =>
  by_cases h : ∃ u, Move reads cap s u
  · obtain ⟨u, hu⟩ := h
    obtain ⟨t, ht, hmax⟩ := ih u (.move hu)
    exact ⟨t, .head hu ht, hmax⟩
  · exact ⟨s, .refl, fun u hu => h ⟨u, hu⟩⟩

/-! ### Where a handler can stop -/

def Waiting (s : St) : Prop :=
  s.pc = .select ∧ s.ctxDone = false ∧ s.errChan = [] ∧ ∀ d, s.copy d = .copying

/-- The handler and both copies have returned (a copy never started counts as returned); the
inbound connection is closed and the outbound one closed or never dialled. -/
def Ended (s : St) : Prop :=
  s.pc = .done ∧ s.inbound = .closed ∧ s.outbound ≠ .opened ∧
    ∀ d, s.copy d = .idle ∨ s.copy d = .exited

theorem stuck_cases {reads : Dir → Side} {cap : Nat} {s : St} (hs : Inv s) (hcap : 2 ≤ cap)
    (hstuck : ∀ t, ¬ Move reads cap s t) : Ended s ∨ Waiting s := by
  have hsend : ∀ d err, s.copy d ≠ .sending err := fun d err hd =>
    hstuck _ (.send s d err hd (Nat.lt_of_lt_of_le (hs.errChan_lt hd) hcap))
  obtain ⟨hchan, hsp, hconns⟩ := hs
  cases hpc : s.pc with
  | dial => exact absurd (.dialOk s hpc) (hstuck _)
  | goFirst => exact absurd (.goFirst s hpc) (hstuck _)
  | goSecond => exact absurd (.goSecond s hpc) (hstuck _)
  | closeOutbound => exact absurd (.closeOutbound s hpc) (hstuck _)
  | closeInbound => exact absurd (.closeInbound s hpc) (hstuck _)
  | select =>
    simp only [Conns, hpc] at hconns
    have he : s.errChan = [] := by
      cases he : s.errChan with
      | nil => rfl
      | cons e rest => exact absurd (.recv s e rest hpc he) (hstuck _)
    refine .inr ⟨hpc, ?_, he, fun d => ?_⟩
    · cases hc : s.ctxDone
      · rfl
      · exact absurd (.cancelled s hpc hc) (hstuck _)
    · have hd := hsp d
      cases hc : s.copy d with
      | idle => cases d <;> simp [hc, St.spawned, hpc, Copy.started] at hd
      | copying => rfl
      | sending err => exact absurd hc (hsend d err)
      | exited =>
        have h0 : s.sent = 0 := by simpa [St.taken, he, hconns.2.2] using hchan.symm
        cases d <;> simp only [St.copy] at hc <;> simp [St.sent, St.copy, hc, Copy.sent] at h0
  | done =>
    simp only [Conns, hpc] at hconns
    refine .inl ⟨hpc, hconns.1, hconns.2, fun d => ?_⟩
    cases hc : s.copy d with
    | idle => exact .inl rfl
    | exited => exact .inr rfl
    | sending err => exact absurd hc (hsend d err)
    | copying =>
      have hd := hsp d
      rw [hc] at hd
      have hout : s.outbound = .closed := by
        cases d <;> cases ho : s.outbound <;> simp_all [St.spawned, Copy.started]
      have hclosed : s.conn (reads d) = .closed := by
        cases reads d
        · exact hconns.1
        · exact hout
      exact absurd (.copyClosed s d (.common "use of closed network connection") hc hclosed)
        (hstuck _)

def Triggered (s : St) : Prop :=
  s.ctxDone = true ∨ ∃ d, (s.copy d).returned = true

theorem move_ctxDone {reads : Dir → Side} {cap : Nat} {s t : St} (h : Move reads cap s t) :
    t.ctxDone = s.ctxDone := by
  cases h <;> simp

theorem step_triggered {reads : Dir → Side} {cap : Nat} {s t : St} (h : Step reads cap s t)
    (hinv : Inv s) (hs : Triggered s) : Triggered t := by
  have hcopy : ∀ d, (s.copy d).returned = true → (t.copy d).returned = true := fun d hd => by
    have hstarted : (s.copy d).started = true := by
      cases hc : s.copy d <;> simp_all [Copy.returned, Copy.started]
    cases h with
    | move h =>
      cases h with
      | copyClosed d' err hd' _ | send d' err hd' _ =>
        by_cases hdd : d = d'
        · subst hdd; cases d <;> rfl
        · rw [St.copy_setCopy_of_ne _ _ hdd]; exact hd
      | goFirst hpc | goSecond hpc =>
        have := hinv.spawned d
        cases d <;> simp_all [St.spawned, St.copy]
      | _ => cases d <;> exact hd
    | copyEnd d' err hd' =>
      by_cases hdd : d = d'
      · subst hdd; rw [hd'] at hd; cases hd
      · rw [St.copy_setCopy_of_ne _ _ hdd]; exact hd
    | cancel _ => cases d <;> exact hd
  have hctx : s.ctxDone = true → t.ctxDone = true := fun hc => by
    cases h with
    | move h => rw [move_ctxDone h, hc]
    | copyEnd => simpa using hc
    | cancel => rfl
  exact hs.imp hctx fun ⟨d, hd⟩ => ⟨d, hcopy d hd⟩

theorem steps_triggered {reads : Dir → Side} {cap : Nat} {s t : St}
    (h : ReflTransGen (Step reads cap) s t) (hinv : Inv s) (hs : Triggered s) : Triggered t := by
  induction h with
  | refl => exact hs
  | tail hst hstep ih => exact step_triggered hstep (inv_steps hst hinv) ih

theorem Triggered.not_waiting {s : St} (hs : Triggered s) : ¬ Waiting s := by
  rintro ⟨-, hc, -, hcopy⟩
  rcases hs with h | ⟨d, hd⟩
  · simp [hc] at h
  · simp [hcopy d, Copy.returned] at hd

/-- Once the context has ended (`Proxy.Close`) or a copy has returned, the handler of
`relayConnLoop` or `relayPacketLoop` ends by its goroutines' own moves: some run of them ends with
the handler and both copies returned, the inbound connection closed and the outbound one closed
or never dialled, and so does every run of them that goes as far as it can. -/
theorem handler_drains {reads : Dir → Side} {s : St} (hs : Reachable reads s)
    (htrig : Triggered s) :
    (∃ t, ReflTransGen (Move reads errChanSize) s t ∧ Ended t) ∧
      ∀ t, ReflTransGen (Move reads errChanSize) s t →
        (∀ u, ¬ Move reads errChanSize t u) → Ended t := by
  have hend : ∀ t, ReflTransGen (Move reads errChanSize) s t →
      (∀ u, ¬ Move reads errChanSize t u) → Ended t := fun t ht hmax => by
    have hsteps := ht.mono fun _ _ => Step.move
    exact (stuck_cases (inv_steps hsteps hs.inv) le_rfl hmax).resolve_right
      (steps_triggered hsteps hs.inv htrig).not_waiting
  obtain ⟨t, ht, hmax⟩ := exists_maximal_moves reads errChanSize s
  exact ⟨⟨t, ht, hend t ht hmax⟩, hend⟩

theorem handler_drains_firstReturned :
    Reachable connReads firstReturned ∧ Triggered firstReturned ∧
      (∃ t, ReflTransGen (Move connReads errChanSize) firstReturned t ∧ Ended t) ∧
      ∀ t, ReflTransGen (Move connReads errChanSize) firstReturned t →
        (∀ u, ¬ Move connReads errChanSize t u) → Ended t :=
  ⟨firstReturned_reachable, .inr ⟨.first, rfl⟩,
    handler_drains firstReturned_reachable (.inr ⟨.first, rfl⟩)⟩

/-! ### The channel's capacity -/

/-- With `make(chan error, 1)`, a handler whose context ends before either copy returns would
leave its second copy blocked at its send for good: every continuation keeps it there. -/
theorem capacity_one_leaks (reads : Dir → Side) :
    ∃ s, ReflTransGen (Step reads 1) (init false) s ∧ s.pc = .done ∧
      ∀ t, ReflTransGen (Step reads 1) s t → t.copy .second = .sending none := by
  let P : St → Prop := fun t =>
    t.pc = .done ∧ 1 ≤ t.errChan.length ∧ t.first = .exited ∧ t.second = .sending none
  have hP : ∀ t u, Step reads 1 t u → P t → P u := by
    rintro t u h ⟨hpc, hlen, h1, h2⟩
    cases h with
    | move h =>
      cases h with
      | copyClosed d _ hd _ => cases d <;> simp_all [St.copy]
      | send d _ hd hlt => cases d <;> simp_all [St.copy]
      | _ => simp_all
    | copyEnd d _ hd => cases d <;> simp_all [St.copy]
    | cancel _ => exact ⟨hpc, hlen, h1, h2⟩
  refine ⟨⟨.done, .exited, .sending none, [none], none, .closed, .closed, true⟩, ?_, rfl, ?_⟩
  · exact .tail (.tail (.tail (.tail (.tail (.tail (.tail (.tail (.tail (.single
      (.move (.dialOk _ rfl))) (.move (.goFirst _ rfl))) (.move (.goSecond _ rfl))) (.cancel _ rfl))
      (.move (.cancelled _ rfl rfl))) (.move (.closeOutbound _ rfl))) (.move (.closeInbound _ rfl)))
      (.copyEnd _ .first none rfl)) (.move (.send _ .first none rfl (by decide))))
      (.copyEnd _ .second none rfl)
  · intro t ht
    have : P t := by
      induction ht with
      | refl => exact ⟨rfl, le_rfl, rfl, rfl⟩
      | tail _ hst ih => exact hP _ _ hst ih
    exact this.2.2.2

end TrojanGo.ProxyRelay
