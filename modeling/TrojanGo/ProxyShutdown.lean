import TrojanGo.ProxyRelay

/-!
# The proxy from `Run` to `Close`

`Proxy.Run` starts a `relayConnLoop` and a `relayPacketLoop` per source, each starting a handler
per connection, and `Proxy.Close` cancels the context and closes every source. In any
interleaving, every maximal run after `Close` ends with every loop returned and every handler
ended with its connections closed, and such a run exists (`close_drains`).
-/

set_option autoImplicit false

namespace TrojanGo.ProxyShutdown
open TrojanGo.ProxyRelay Relation

inductive Kind where
  | conn
  | packet
  deriving DecidableEq, Repr

def Kind.reads : Kind → Dir → Side
  | .conn => connReads
  | .packet => packetReads

/-- A proxy after `Run`: whether `Close` has been called, its loops with whether each still
accepts, and the handlers of the connections they accepted. -/
structure Sys where
  closed : Bool
  loops : List (Kind × Bool)
  handlers : List (Kind × St)

/-- `Proxy.Run` over `n` sources: `relayConnLoop` and `relayPacketLoop` each start a loop per
source. -/
def run (n : Nat) : Sys :=
  ⟨false, List.replicate n (.conn, true) ++ List.replicate n (.packet, true), []⟩

/-- `Proxy.Close`: `p.cancel()`, which every handler sees, then `p.sink.Close()` and
`source.Close()` for every source. -/
def Sys.close (s : Sys) : Sys :=
  ⟨true, s.loops, s.handlers.map fun h => (h.1, { h.2 with ctxDone := true })⟩

inductive SysMove : Sys → Sys → Prop
  | handler (s : Sys) (pre post : List (Kind × St)) (k : Kind) (h h' : St) :
      s.handlers = pre ++ (k, h) :: post → Move k.reads errChanSize h h' →
      SysMove s { s with handlers := pre ++ (k, h') :: post }
  /-- `AcceptConn` fails on a closed source; `case <-p.ctx.Done(): return`. -/
  | loopReturn (s : Sys) (pre post : List (Kind × Bool)) (k : Kind) : s.closed = true →
      s.loops = pre ++ (k, true) :: post →
      SysMove s { s with loops := pre ++ (k, false) :: post }

/-- Every move of the proxy: its own, a loop accepting a connection and starting its handler, a
copy's `io.Copy` returning by itself, and `Proxy.Close`. -/
inductive SysStep : Sys → Sys → Prop
  | move {s t : Sys} : SysMove s t → SysStep s t
  | accept (s : Sys) (k : Kind) : (k, true) ∈ s.loops →
      SysStep s { s with handlers := s.handlers ++ [(k, init s.closed)] }
  | copyEnd (s : Sys) (pre post : List (Kind × St)) (k : Kind) (h : St) (d : Dir)
      (err : Option TrojanGo.Stream.GoError) : s.handlers = pre ++ (k, h) :: post →
      h.copy d = .copying → SysStep s { s with handlers := pre ++ (k, h.setCopy d (.sending err)) :: post }
  | close (s : Sys) : s.closed = false → SysStep s s.close

def SysReachable (s : Sys) : Prop := ∃ n, ReflTransGen SysStep (run n) s

/-! ### Every handler is a handler's reachable state -/

def SysInv (s : Sys) : Prop := ∀ h ∈ s.handlers, Reachable h.1.reads h.2 ∧ h.2.ctxDone = s.closed

theorem mem_replace {α : Type} {pre post : List α} {x y y' : α} (hx : x ∈ pre ++ y' :: post) :
    x = y' ∨ x ∈ pre ++ y :: post := by
  simp only [List.mem_append, List.mem_cons] at hx ⊢
  tauto

theorem SysInv.replace {s : Sys} (hs : SysInv s) {pre post : List (Kind × St)} {k : Kind} {h h' : St}
    (he : s.handlers = pre ++ (k, h) :: post) (hstep : Step k.reads errChanSize h h')
    (hctx : h'.ctxDone = h.ctxDone) (closed : Bool) (hclosed : closed = s.closed) :
    ∀ x ∈ pre ++ (k, h') :: post, Reachable x.1.reads x.2 ∧ x.2.ctxDone = closed := by
  have hh := hs (k, h) (he ▸ List.mem_append_right _ (List.mem_cons_self _ _))
  intro x hx
  rcases mem_replace (y := (k, h)) hx with rfl | hx
  · exact ⟨hh.1.step hstep, hctx.trans (hh.2.trans hclosed.symm)⟩
  · exact (hs x (he ▸ hx)).imp_right (·.trans hclosed.symm)

theorem sysInv_step {s t : Sys} (h : SysStep s t) (hs : SysInv s) : SysInv t := by
  cases h with
  | move h =>
    cases h with
    | handler pre post k h h' he hm => exact hs.replace he (.move hm) (move_ctxDone hm) _ rfl
    | loopReturn => exact hs
  | accept k _ =>
    intro x hx
    rcases List.mem_append.mp hx with hx | hx
    · exact hs x hx
    · rw [List.mem_singleton.mp hx]; exact ⟨⟨s.closed, .refl⟩, rfl⟩
  | copyEnd pre post k h d err he hd =>
    exact hs.replace he (.copyEnd h d err hd) (St.setCopy_ctxDone _ _ _) _ rfl
  | close hc =>
    intro x hx
    obtain ⟨y, hy, rfl⟩ := List.mem_map.mp hx
    have := hs y hy
    exact ⟨this.1.step (.cancel _ (this.2.trans hc)), rfl⟩

theorem sysReachable_inv {s : Sys} (h : SysReachable s) : SysInv s := by
  obtain ⟨n, hn⟩ := h
  induction hn with
  | refl => intro x hx; cases hx
  | tail _ hst ih => exact sysInv_step hst ih

/-! ### The proxy's own moves end -/

def handlersRank : List (Kind × St) → Nat
  | [] => 0
  | h :: hs => h.2.rank + handlersRank hs

def acceptingLoops : List (Kind × Bool) → Nat
  | [] => 0
  | l :: ls => (if l.2 then 1 else 0) + acceptingLoops ls

theorem handlersRank_append (l l' : List (Kind × St)) :
    handlersRank (l ++ l') = handlersRank l + handlersRank l' := by
  induction l with
  | nil => simp [handlersRank]
  | cons h l ih =>
    show h.2.rank + handlersRank (l ++ l') = h.2.rank + handlersRank l + handlersRank l'
    rw [ih]; omega

theorem acceptingLoops_append (l l' : List (Kind × Bool)) :
    acceptingLoops (l ++ l') = acceptingLoops l + acceptingLoops l' := by
  induction l with
  | nil => simp [acceptingLoops]
  | cons h l ih =>
    show _ + acceptingLoops (l ++ l') = _ + acceptingLoops l + acceptingLoops l'
    rw [ih]; omega

def Sys.rank (s : Sys) : Nat := handlersRank s.handlers + acceptingLoops s.loops

theorem sysMove_rank {s t : Sys} (h : SysMove s t) : t.rank < s.rank := by
  cases h with
  | handler pre post k h h' he hm =>
    have := move_rank hm
    simp only [Sys.rank, he, handlersRank_append, handlersRank]
    omega
  | loopReturn pre post k _ he =>
    simp [Sys.rank, he, acceptingLoops_append, acceptingLoops]

theorem exists_maximal_sysMoves (s : Sys) :
    ∃ t, ReflTransGen SysMove s t ∧ ∀ u, ¬ SysMove t u := by
  induction s using (Subrelation.wf (fun h => sysMove_rank h)
    (measure Sys.rank).wf : WellFounded fun t s => SysMove s t).induction with
  | _ s ih =>
  by_cases h : ∃ u, SysMove s u
  · obtain ⟨u, hu⟩ := h
    obtain ⟨t, ht, hmax⟩ := ih u hu
    exact ⟨t, .head hu ht, hmax⟩
  · exact ⟨s, .refl, fun u hu => h ⟨u, hu⟩⟩

/-- Every loop has returned, and every handler has ended with its connections closed. -/
def AllEnded (s : Sys) : Prop := (∀ l ∈ s.loops, l.2 = false) ∧ ∀ h ∈ s.handlers, Ended h.2

theorem allEnded_of_stuck {s : Sys} (hs : SysInv s) (hc : s.closed = true)
    (hstuck : ∀ t, ¬ SysMove s t) : AllEnded s := by
  refine ⟨fun l hl => ?_, fun h hh => ?_⟩
  · obtain ⟨pre, post, he⟩ := List.append_of_mem hl
    cases hl2 : l.2
    · rfl
    · obtain ⟨k, b⟩ := l
      cases hl2
      exact absurd (.loopReturn s pre post k hc he) (hstuck _)
  · obtain ⟨pre, post, he⟩ := List.append_of_mem hh
    have hinv := hs h hh
    have hmoves : ∀ t, ¬ Move h.1.reads errChanSize h.2 t := fun t hm =>
      hstuck _ (.handler s pre post h.1 h.2 t he hm)
    refine (stuck_cases hinv.1.inv le_rfl hmoves).resolve_right fun hw => ?_
    have := hw.2.1
    rw [hinv.2, hc] at this
    cases this

theorem sysMoves_closed {s t : Sys} (h : ReflTransGen SysMove s t) : t.closed = s.closed := by
  induction h with
  | refl => rfl
  | tail _ hm ih => cases hm <;> exact ih

/-- After `Proxy.Close`, whatever the proxy did before and however its goroutines interleave,
its own moves end it: some run of them leaves every relay loop returned and every handler
returned with both copies, its inbound connection closed and its outbound one closed or never
dialled, and every run of them that goes as far as it can does the same. -/
theorem close_drains {s : Sys} (hs : SysReachable s) (hc : s.closed = true) :
    (∃ t, ReflTransGen SysMove s t ∧ AllEnded t) ∧
      ∀ t, ReflTransGen SysMove s t → (∀ u, ¬ SysMove t u) → AllEnded t := by
  have hend : ∀ t, ReflTransGen SysMove s t → (∀ u, ¬ SysMove t u) → AllEnded t :=
    fun t ht hmax => by
      have hsteps := ht.mono fun _ _ => SysStep.move
      exact allEnded_of_stuck (sysReachable_inv (let ⟨n, hn⟩ := hs; ⟨n, hn.trans hsteps⟩))
        ((sysMoves_closed ht).trans hc) hmax
  obtain ⟨t, ht, hmax⟩ := exists_maximal_sysMoves s
  exact ⟨⟨t, ht, hend t ht hmax⟩, hend⟩

def closedAfterAccept : Sys :=
  ⟨true, [(.conn, true), (.packet, true)], [(.conn, { init false with ctxDone := true })]⟩

theorem close_drains_closedAfterAccept :
    SysReachable closedAfterAccept ∧ closedAfterAccept.closed = true ∧
      (∃ t, ReflTransGen SysMove closedAfterAccept t ∧ AllEnded t) ∧
      ∀ t, ReflTransGen SysMove closedAfterAccept t → (∀ u, ¬ SysMove t u) → AllEnded t :=
  have hr : SysReachable closedAfterAccept :=
    ⟨1, .tail (.single (.accept _ .conn (by decide))) (.close _ rfl)⟩
  ⟨hr, rfl, close_drains hr rfl⟩

end TrojanGo.ProxyShutdown
