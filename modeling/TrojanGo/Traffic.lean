import Mathlib.Logic.Relation
import TrojanGo.Auth

/-!
# Traffic counters under concurrent calls

`InboundConn.Read` and `Write` make the underlying call, add its `n` with `atomic.AddUint64` and
report it with `AddTraffic`, and calls from two goroutines interleave. Every reachable state keeps
each counter, plus what the calls in progress still have to add, equal to what the underlying
calls returned (`traffic_counted`), so a counter lags while a call is in progress (`traffic_lags`).
-/

set_option autoImplicit false

namespace TrojanGo.Traffic
open TrojanGo.Stream TrojanGo.Header TrojanGo.Auth Conn Relation

inductive Dir where
  | sent
  | recv
  deriving DecidableEq, Repr

inductive Pc where
  | add
  | report
  deriving DecidableEq, Repr

/-- A `Read` or `Write` call in progress: its counter, the `n` its underlying call returned and
its next step. -/
structure Call where
  dir : Dir
  n : Nat
  pc : Pc
  deriving DecidableEq, Repr

variable {σ : Type}

def Dir.counter : Dir → InboundConn σ → UInt64
  | .sent, c => c.sent
  | .recv, c => c.recv

/-- `atomic.AddUint64(&c.sent, uint64(n))`, or the same on `c.recv`. -/
def Dir.add : Dir → InboundConn σ → Nat → InboundConn σ
  | .sent, c, n => { c with sent := c.sent + UInt64.ofNat n }
  | .recv, c, n => { c with recv := c.recv + UInt64.ofNat n }

/-- `c.user.AddTraffic(n, 0)`, or `c.user.AddTraffic(0, n)`. -/
def Dir.addTraffic : Dir → Nat → UserCall
  | .sent, n => .addTraffic n 0
  | .recv, n => .addTraffic 0 n

def trafficOf (d : Dir) : UserCall → Nat
  | .addTraffic sent recv => match d with
    | .sent => sent
    | .recv => recv
  | _ => 0

def reported (d : Dir) : List UserCall → Nat
  | [] => 0
  | c :: cs => trafficOf d c + reported d cs

def Call.amount (d : Dir) (pc : Pc) (t : Call) : Nat := if t.dir = d ∧ t.pc = pc then t.n else 0

def pending (d : Dir) (pc : Pc) : List Call → Nat
  | [] => 0
  | t :: ts => t.amount d pc + pending d pc ts

/-- A connection with the calls in progress on it, in no particular order, the `n` of every
underlying `Write` so far, and the bytes of every underlying `Read` in the order they returned. -/
structure St (σ : Type) where
  conn : InboundConn σ
  active : List Call
  written : List Nat
  received : Bytes

def St.total (s : St σ) : Dir → Nat
  | .sent => s.written.foldl (· + ·) 0
  | .recv => s.received.length

def init (c : InboundConn σ) : St σ := ⟨c, [], [], []⟩

@[simp] theorem pending_nil (d : Dir) (pc : Pc) : pending d pc [] = 0 := rfl

@[simp] theorem pending_cons (d : Dir) (pc : Pc) (t : Call) (l : List Call) :
    pending d pc (t :: l) = t.amount d pc + pending d pc l := rfl

@[simp] theorem pending_append (d : Dir) (pc : Pc) (l₁ l₂ : List Call) :
    pending d pc (l₁ ++ l₂) = pending d pc l₁ + pending d pc l₂ := by
  induction l₁ with
  | nil => simp [pending]
  | cons t l ih => simp [pending, ih, Nat.add_assoc]

@[simp] theorem reported_append (d : Dir) (l₁ l₂ : List UserCall) :
    reported d (l₁ ++ l₂) = reported d l₁ + reported d l₂ := by
  induction l₁ with
  | nil => simp [reported]
  | cons c l ih => simp [reported, ih, Nat.add_assoc]

@[simp] theorem reported_singleton (d : Dir) (c : UserCall) : reported d [c] = trafficOf d c := rfl

theorem toNat_add_ofNat (x : UInt64) (n : Nat) :
    (x + UInt64.ofNat n).toNat = (x.toNat + n) % UInt64.size := by
  show (x.toBitVec + (UInt64.ofNat n).toBitVec).toNat = _
  simp [BitVec.toNat_add, UInt64.toNat, UInt64.ofNat, UInt64.size]

variable [Conn σ]

/-- The steps of the calls on one connection, any of which may come next. -/
inductive Step : St σ → St σ → Prop
  /-- A `Read(p)` with `len(p) = k` makes its underlying call. -/
  | read (s : St σ) (k : Nat) :
    Step s { s with
      conn := { s.conn with conn := (Conn.read s.conn.conn k).next }
      active := s.active ++ [⟨.recv, (Conn.read s.conn.conn k).data.length, .add⟩]
      received := s.received ++ (Conn.read s.conn.conn k).data }
  /-- A `Write` makes its underlying call, which returns `n`. -/
  | write (s : St σ) (n : Nat) :
    Step s { s with active := s.active ++ [⟨.sent, n, .add⟩], written := s.written ++ [n] }
  /-- A call in progress adds its `n` to its counter. -/
  | add (s : St σ) (t₁ t₂ : List Call) (d : Dir) (n : Nat)
      (h : s.active = t₁ ++ ⟨d, n, .add⟩ :: t₂) :
    Step s { s with conn := d.add s.conn n, active := t₁ ++ ⟨d, n, .report⟩ :: t₂ }
  /-- A call in progress reports its `n` to the user and returns. -/
  | report (s : St σ) (t₁ t₂ : List Call) (d : Dir) (n : Nat)
      (h : s.active = t₁ ++ ⟨d, n, .report⟩ :: t₂) :
    Step s { s with
      conn := { s.conn with calls := s.conn.calls ++ [d.addTraffic n] }
      active := t₁ ++ t₂ }

theorem read_steps (s : St σ) (k : Nat) :
    ReflTransGen Step s { s with
      conn := (s.conn.read k).next
      received := s.received ++ (Conn.read s.conn.conn k).data } := by
  have h := ReflTransGen.tail (.tail (.single (Step.read s k)) (Step.add _ s.active [] _ _ rfl))
    (Step.report _ s.active [] _ _ rfl)
  rw [List.append_nil] at h
  exact h

theorem write_steps (s : St σ) (n : Nat) (err : Option GoError) :
    ReflTransGen Step s { s with conn := (s.conn.write n err).2, written := s.written ++ [n] } := by
  have h := ReflTransGen.tail (.tail (.single (Step.write s n)) (Step.add _ s.active [] _ _ rfl))
    (Step.report _ s.active [] _ _ rfl)
  rw [List.append_nil] at h
  exact h

structure Inv (c₀ : InboundConn σ) (s : St σ) : Prop where
  counter : ∀ d, ((d.counter s.conn).toNat + pending d .add s.active) % UInt64.size =
    ((d.counter c₀).toNat + s.total d) % UInt64.size
  reports : ∀ d, reported d s.conn.calls + pending d .add s.active + pending d .report s.active =
    reported d c₀.calls + s.total d
  stream : content c₀.conn = s.received ++ content s.conn.conn

theorem inv_init (c₀ : InboundConn σ) : Inv c₀ (init c₀) :=
  ⟨fun d => by cases d <;> rfl, fun d => by cases d <;> rfl, rfl⟩

theorem inv_step {c₀ : InboundConn σ} {s s' : St σ} (hi : Inv c₀ s) (h : Step s s') :
    Inv c₀ s' := by
  obtain ⟨hc, hr, hs⟩ := hi
  cases h with
  | read k =>
    refine ⟨fun d => ?_, fun d => ?_, by rw [hs, List.append_assoc, read_content]⟩
    all_goals
      have hc := hc d
      have hr := hr d
      cases d <;> simp [Dir.counter, St.total, Call.amount, UInt64.size] at hc hr ⊢ <;> omega
  | write n =>
    refine ⟨fun d => ?_, fun d => ?_, hs⟩
    all_goals
      have hc := hc d
      have hr := hr d
      cases d <;> simp [Dir.counter, St.total, Call.amount, UInt64.size] at hc hr ⊢ <;> omega
  | add t₁ t₂ d n h =>
    refine ⟨fun d' => ?_, fun d' => ?_, by cases d <;> exact hs⟩
    all_goals
      have hc := hc d'
      have hr := hr d'
      rw [h] at hc hr
      cases d <;> cases d' <;>
        simp [Dir.counter, Dir.add, St.total, Call.amount, toNat_add_ofNat, UInt64.size] at hc hr ⊢ <;>
          omega
  | report t₁ t₂ d n h =>
    refine ⟨fun d' => ?_, fun d' => ?_, hs⟩
    all_goals
      have hc := hc d'
      have hr := hr d'
      rw [h] at hc hr
      cases d <;> cases d' <;>
        simp [Dir.counter, Dir.addTraffic, trafficOf, St.total, Call.amount, UInt64.size] at hc hr ⊢ <;>
          omega

theorem inv_reachable {c₀ : InboundConn σ} {s : St σ} (h : ReflTransGen Step (init c₀) s) :
    Inv c₀ s := by
  induction h with
  | refl => exact inv_init c₀
  | tail _ hst ih => exact inv_step ih hst

def framed : Wire := ⟨[hashA ++ crlf ++ connectA.encode ++ crlf ++ ascii "GET /"], by decide⟩

/-- The counters of a connection `Auth` accepted, under every interleaving of the calls on it.
In each direction, the counter plus what calls in progress have still to add is the sum of the
`n` the underlying calls returned, modulo 2^64, and the `AddTraffic` amounts plus what is still
to be reported are that sum. The bytes `Read` counted are those after the Auth frame, in order.
Once no call is in progress, each counter is that sum modulo 2^64 and the reports add up to it. -/
theorem traffic_counted {env : Env} {u : σ} (ha : ((InboundConn.mk' u).auth env).1 = none)
    {s : St σ} (h : ReflTransGen Step (init ((InboundConn.mk' u).auth env).2) s) :
    (∀ d, ((d.counter s.conn).toNat + pending d .add s.active) % UInt64.size =
      s.total d % UInt64.size ∧
      reported d s.conn.calls + pending d .add s.active + pending d .report s.active =
        s.total d) ∧
    (∃ (hash x : Bytes) (m : Metadata) (y : Bytes),
      content u = hash ++ x ++ m.encode ++ y ++ s.received ++ content s.conn.conn ∧
      hash.length = 56 ∧ x.length = 2 ∧ y.length = 2) ∧
    (s.active = [] → ∀ d, (d.counter s.conn).toNat = s.total d % UInt64.size ∧
      reported d s.conn.calls = s.total d) := by
  obtain ⟨hc, hr, hs⟩ := inv_reachable h
  obtain ⟨hash, x, m, y, ip, hu, hh, hx, hy, -, -, -, -, hcalls, -⟩ := auth_sound ha
  have h0 : ∀ d : Dir, d.counter ((InboundConn.mk' u).auth env).2 = 0 := fun d => by
    cases d
    exacts [(auth_counters ha).1, (auth_counters ha).2]
  have hcount : ∀ d, ((d.counter s.conn).toNat + pending d .add s.active) % UInt64.size =
      s.total d % UInt64.size := fun d => by
    simpa [h0] using hc d
  have hrep : ∀ d, reported d s.conn.calls + pending d .add s.active + pending d .report s.active =
      s.total d := fun d => by
    simpa [hcalls, trafficOf] using hr d
  refine ⟨fun d => ⟨hcount d, hrep d⟩, ⟨hash, x, m, y, by rw [← mk'_conn u, hu, hs]; simp, hh, hx, hy⟩,
    fun hq d => ⟨?_, by simpa [hq] using hrep d⟩⟩
  have := hcount d
  simp only [hq, pending_nil, Nat.add_zero] at this
  rw [← this]
  exact (Nat.mod_eq_of_lt (d.counter s.conn).toNat_lt_size).symm

theorem traffic_counted_framed :
    let c := ((InboundConn.mk' framed).auth envA).2
    let s : St Wire := { init c with conn := (c.read 5).next, received := (Conn.read c.conn 5).data }
    (Dir.recv.counter s.conn).toNat = s.total .recv % UInt64.size ∧
      reported .recv s.conn.calls = s.total .recv :=
  (traffic_counted (by decide) (read_steps _ 5)).2.2 rfl .recv

/-- After `Auth` accepts `framed`, a `Read` whose underlying call has returned the five bytes
`GET /` has not yet added them: `recv` is still 0. -/
theorem traffic_lags :
    ((InboundConn.mk' framed).auth envA).1 = none ∧
      ∃ s, ReflTransGen Step (init ((InboundConn.mk' framed).auth envA).2) s ∧
        s.received = ascii "GET /" ∧ s.conn.recv = 0 :=
  ⟨by decide, _, .single (Step.read _ 5), by decide, by decide⟩

end TrojanGo.Traffic
