import TrojanGo.Stream

/-!
# Shutdown of the inter-layer channels

Each connection's task ends with a send on a channel of capacity 32, which the layer above drains
with `AcceptConn` until its context is done. Every reachable state keeps the channel within its
capacity (`inv_steps`); once the consumer has stopped over a full channel a plain send never
completes (`blocked_steps`), while the guarded send of `mux` can always give up (`guarded_drains`).
-/

set_option autoImplicit false

namespace TrojanGo.Shutdown

/-- `ch <- conn`, or `select { case ch <- conn: case <-ctx.Done(): }`. -/
inductive Send where
  | plain
  | guarded
  deriving DecidableEq, Repr

/-- One channel with its producers and its consumer: tasks at their send, connections in the
channel, connections `AcceptConn` returned, sends given up, whether the context is done and
whether the consumer has stopped. -/
structure St where
  waiting : Nat
  buffered : Nat
  delivered : Nat
  abandoned : Nat
  ctxDone : Bool
  consumerDone : Bool
  deriving DecidableEq, Repr

/-- `make(chan tunnel.Conn, 32)`. -/
def capacity : Nat := 32

def init : St := ⟨0, 0, 0, 0, false, false⟩

/-- One move: a task reaches its send, a send completes or is given up, `AcceptConn` returns
a connection, the consumer stops after the context ends, the context ends. -/
inductive Step (send : Send) : St → St → Prop
  | arrive (s : St) : Step send s { s with waiting := s.waiting + 1 }
  | put (s : St) : 0 < s.waiting → s.buffered < capacity →
      Step send s { s with waiting := s.waiting - 1, buffered := s.buffered + 1 }
  | abandon (s : St) : send = .guarded → 0 < s.waiting → s.ctxDone = true →
      Step send s { s with waiting := s.waiting - 1, abandoned := s.abandoned + 1 }
  | take (s : St) : s.consumerDone = false → 0 < s.buffered →
      Step send s { s with buffered := s.buffered - 1, delivered := s.delivered + 1 }
  | stop (s : St) : s.consumerDone = false → s.ctxDone = true →
      Step send s { s with consumerDone := true }
  | cancel (s : St) : Step send s { s with ctxDone := true }

inductive Steps (send : Send) : St → St → Prop
  | refl (s : St) : Steps send s s
  | tail {s t u : St} : Steps send s t → Step send t u → Steps send s u

variable {send : Send}

theorem Steps.trans {s t u : St} (h1 : Steps send s t) (h2 : Steps send t u) : Steps send s u := by
  induction h2 with
  | refl => exact h1
  | tail _ h ih => exact .tail ih h

theorem steps_arrive (s : St) (n : Nat) : Steps send s { s with waiting := s.waiting + n } := by
  induction n with
  | zero => exact .refl _
  | succ n ih => exact .tail ih (.arrive _)

theorem steps_put (s : St) (n : Nat) (hw : n ≤ s.waiting) (hb : s.buffered + n ≤ capacity) :
    Steps send s { s with waiting := s.waiting - n, buffered := s.buffered + n } := by
  induction n with
  | zero => exact .refl _
  | succ n ih =>
    refine .tail (ih (by omega) (by omega)) ?_
    have : Step send _ _ := Step.put { s with waiting := s.waiting - n, buffered := s.buffered + n }
      (by simp only; omega) (by simp only; omega)
    simpa [Nat.sub_sub, Nat.add_assoc] using this

def Inv (s : St) : Prop :=
  s.buffered ≤ capacity ∧ (s.consumerDone = true → s.ctxDone = true)

theorem inv_step {s t : St} (h : Step send s t) (hs : Inv s) : Inv t := by
  obtain ⟨hb, hc⟩ := hs
  cases h with
  | put _ h => exact ⟨h, hc⟩
  | take => exact ⟨by simp only; omega, hc⟩
  | stop _ h => exact ⟨hb, fun _ => h⟩
  | cancel => exact ⟨hb, fun _ => rfl⟩
  | arrive | abandon => exact ⟨hb, hc⟩

theorem inv_steps {t : St} (h : Steps send init t) : Inv t := by
  induction h with
  | refl => exact ⟨Nat.zero_le _, nofun⟩
  | tail _ hst ih => exact inv_step hst ih

def Blocked (s : St) : Prop :=
  s.ctxDone = true ∧ s.consumerDone = true ∧ s.buffered = capacity ∧ 0 < s.waiting

theorem blocked_step {s t : St} (h : Step .plain s t) (hs : Blocked s) : Blocked t := by
  obtain ⟨hc, hd, hb, hw⟩ := hs
  cases h with
  | arrive => exact ⟨hc, hd, hb, by simp⟩
  | put _ h => simp [hb, capacity] at h
  | abandon h => cases h
  | take h | stop h => simp [hd] at h
  | cancel => exact ⟨rfl, hd, hb, hw⟩

theorem blocked_steps {s t : St} (h : Steps .plain s t) (hs : Blocked s) : Blocked t := by
  induction h with
  | refl => exact hs
  | tail _ hst ih => exact blocked_step hst ih

/-- With the guarded send every task at its send can give up once the context is done. -/
theorem guarded_drains (s : St) (hc : s.ctxDone = true) :
    Steps .guarded s { s with waiting := 0, abandoned := s.abandoned + s.waiting } := by
  suffices ∀ n ≤ s.waiting,
      Steps .guarded s { s with waiting := s.waiting - n, abandoned := s.abandoned + n } by
    simpa using this s.waiting le_rfl
  intro n hn
  induction n with
  | zero => exact .refl _
  | succ n ih =>
    refine .tail (ih (by omega)) ?_
    have := Step.abandon { s with waiting := s.waiting - n, abandoned := s.abandoned + n } rfl
      (by simp only; omega) hc
    simpa [Nat.sub_sub, Nat.add_assoc] using this

/-- Thirty-three connections reach the Trojan server's `connChan` while nothing consumes it,
and the server is closed: the consumer stops, and the last task stays at its send for
good, above 32 connections nobody will take. The guarded send of the mux server would give
up instead. -/
theorem shutdown_strands_producer :
    Steps .plain init ⟨1, 32, 0, 0, true, true⟩ ∧
      (∀ t, Steps .plain ⟨1, 32, 0, 0, true, true⟩ t → 0 < t.waiting ∧ t.buffered = 32) ∧
      Steps .guarded ⟨1, 32, 0, 0, true, true⟩ ⟨0, 32, 0, 1, true, true⟩ := by
  refine ⟨?_, fun t ht => ?_, guarded_drains _ rfl⟩
  · exact .tail (.tail ((steps_arrive init 33).trans (steps_put _ 32 (by decide) (by decide)))
      (.cancel _)) (.stop _ rfl rfl)
  · obtain ⟨-, -, hb, hw⟩ := blocked_steps ht ⟨rfl, rfl, rfl, by decide⟩
    exact ⟨hw, hb⟩

end TrojanGo.Shutdown
