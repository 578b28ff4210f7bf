import TrojanGo.Stream

/-!
# Accept loops

Every server layer and the proxy accept in a loop that looks at its context after an error. The
loops differ only in what an error does (`acceptLoops_exit`): the transport loop returns, the TLS
loop calls `log.Fatal` unless the context is done, and the Trojan, mux and proxy loops return only
once it is done.
-/

set_option autoImplicit false

namespace TrojanGo.AcceptLoop

structure Event where
  ok : Bool
  ctxDone : Bool
  deriving DecidableEq, Repr

inductive Exit where
  | returned (ctxDone : Bool)
  | fatal
  | running
  deriving DecidableEq, Repr

inductive OnError where
  | stop
  | fatal
  | retry
  deriving DecidableEq, Repr

/-- An accept loop whose error branch is `onErr ctxDone`; a result without error starts a
task and the loop accepts again. -/
def loop (onErr : Bool → OnError) : List Event → Exit
  | [] => .running
  | e :: es =>
    if e.ok then loop onErr es
    else match onErr e.ctxDone with
      | .stop => .returned e.ctxDone
      | .fatal => .fatal
      | .retry => loop onErr es

/-- `select { case <-ctx.Done(): return; default: }` then `continue`. -/
def retryUnlessDone (ctxDone : Bool) : OnError := if ctxDone then .stop else .retry

/-- `transport.Server.acceptLoop`: log and sleep unless the context is done, then return. -/
def Transport.acceptLoop : List Event → Exit := loop fun _ => .stop

/-- `tls.Server.acceptLoop`: `log.Fatal` unless the context is done, then return. -/
def Tls.acceptLoop : List Event → Exit := loop fun d => if d then .stop else .fatal

def TrojanServer.acceptLoop : List Event → Exit := loop retryUnlessDone

def Mux.acceptConnWorker : List Event → Exit := loop retryUnlessDone

/-- The loop `Proxy.relayConnLoop` runs for each source. -/
def Proxy.relayConnLoop : List Event → Exit := loop retryUnlessDone

/-- The loop `Proxy.relayPacketLoop` runs for each source. -/
def Proxy.relayPacketLoop : List Event → Exit := loop retryUnlessDone

/-- A loop that ends only on cancellation: it returns only with its context done, never ends
the process, and after an error while the context is live it accepts again. -/
def EndsOnCancel (acceptLoop : List Event → Exit) : Prop :=
  ∀ es, (∀ d, acceptLoop es = .returned d → d = true) ∧ acceptLoop es ≠ .fatal ∧
    ∀ e, e.ok = false → e.ctxDone = false → acceptLoop (e :: es) = acceptLoop es

theorem retryUnlessDone_ends (es : List Event) :
    (∀ d, loop retryUnlessDone es = .returned d → d = true) ∧
      loop retryUnlessDone es ≠ .fatal := by
  induction es with
  | nil => simp [loop]
  | cons e es ih =>
    simp only [loop, retryUnlessDone]
    split_ifs with h1 h2 <;> simp_all

theorem retryUnlessDone_endsOnCancel : EndsOnCancel (loop retryUnlessDone) := by
  refine fun es => ⟨(retryUnlessDone_ends es).1, (retryUnlessDone_ends es).2, fun e h1 h2 => ?_⟩
  simp [loop, retryUnlessDone, h1, h2]

def firstError : List Event → Option Bool
  | [] => none
  | e :: es => if e.ok then firstError es else some e.ctxDone

theorem loop_of_no_retry (onErr : Bool → OnError) (h : ∀ d, onErr d ≠ .retry)
    (es : List Event) :
    loop onErr es = match firstError es with
      | none => .running
      | some d => match onErr d with
        | .stop => .returned d
        | .fatal => .fatal
        | .retry => .running := by
  induction es with
  | nil => rfl
  | cons e es ih =>
    simp only [loop, firstError]
    split_ifs
    · exact ih
    · have := h e.ctxDone
      split <;> simp_all

/-- A transient accept error while the server is live: the transport loop returns for good
and the TLS loop ends the process. -/
theorem acceptLoops_end_while_live :
    Transport.acceptLoop [⟨false, false⟩] = .returned false ∧
      Tls.acceptLoop [⟨false, false⟩] = .fatal := by
  decide

/-- The Trojan, mux and proxy loops end only on their own cancellation and retry after an
error while live; the transport loop returns at its first error, whatever the context, and
the TLS loop returns at its first error, after `log.Fatal` when the context is live. -/
theorem acceptLoops_exit :
    EndsOnCancel TrojanServer.acceptLoop ∧ EndsOnCancel Mux.acceptConnWorker ∧
      EndsOnCancel Proxy.relayConnLoop ∧ EndsOnCancel Proxy.relayPacketLoop ∧
      (∀ es, Transport.acceptLoop es = match firstError es with
        | none => .running
        | some d => .returned d) ∧
      (∀ es, Tls.acceptLoop es = match firstError es with
        | none => .running
        | some d => if d then .returned true else .fatal) := by
  refine ⟨retryUnlessDone_endsOnCancel, retryUnlessDone_endsOnCancel,
    retryUnlessDone_endsOnCancel, retryUnlessDone_endsOnCancel, fun es => ?_, fun es => ?_⟩
  · rw [Transport.acceptLoop, loop_of_no_retry (fun _ => .stop) (fun _ => nofun)]
  · rw [Tls.acceptLoop,
      loop_of_no_retry (fun d => if d then .stop else .fatal) (fun d => by cases d <;> decide)]
    split
    · rfl
    · rename_i d _
      cases d <;> rfl

end TrojanGo.AcceptLoop
