import Mathlib.Data.List.Infix

/-!
# Connections as byte streams

A connection is what is still to be read from it, handed out by `read` in pieces of at most the
size asked for; the peer decides the pieces. Code that only reads is a `Reading`, a tree of read
requests that runs against any connection, so one proof about runs covers every reader and every
chunking (`received_run`).
-/

set_option autoImplicit false

namespace TrojanGo.Stream

abbrev Bytes := List UInt8

/-- The read errors that matter here: end of stream, `io.ErrUnexpectedEOF`, and the
rewind buffer's overflow. -/
inductive IOError where
  | eof
  | unexpectedEOF
  | bufferOverflow
  deriving DecidableEq, Repr

def IOError.message : IOError → String
  | .eof => "EOF"
  | .unexpectedEOF => "unexpected EOF"
  | .bufferOverflow => "rewind buffer overflow"

/-- A Go `error` as this repository makes them: a read error, or a `common.Error` and its
text (`src/common/error.go`). -/
inductive GoError where
  | io (e : IOError)
  | common (info : String)
  deriving DecidableEq, Repr

def GoError.message : GoError → String
  | .io e => e.message
  | .common info => info

/-- `common.NewError(info).Base(err)`: the text of `err`, if any, after `" | "`. -/
def newErrorBase (info : String) : Option GoError → GoError
  | some e => .common (info ++ " | " ++ e.message)
  | none => .common info

/-- `string(b)` for an error text. -/
def goString (b : Bytes) : String := String.mk (b.map fun x => Char.ofNat x.toNat)

def ascii (s : String) : Bytes := s.toList.map fun ch => UInt8.ofNat ch.toNat

/-- What `Read(p)` returns (`n` is `data.length`) and the connection after it. -/
structure ReadResult (σ : Type) where
  data : Bytes
  err : Option IOError
  next : σ

/-- A `net.Conn` as a reader. A read hands out a prefix of the remaining `content`,
never more than asked, and a read of a positive size that reports no error hands
out at least one byte. -/
class Conn (σ : Type) where
  content : σ → Bytes
  read : σ → Nat → ReadResult σ
  read_content (s : σ) (k : Nat) : (read s k).data ++ content (read s k).next = content s
  read_length (s : σ) (k : Nat) : (read s k).data.length ≤ k
  read_progress (s : σ) (k : Nat) : 0 < k → (read s k).err = none → (read s k).data ≠ []

open Conn

/-- A connection whose reads fail only once nothing is left. -/
class Reliable (σ : Type) [Conn σ] : Prop where
  read_err (s : σ) (k : Nat) : (read s k).err ≠ none → content s = []

/-! ### TCP -/

/-- A TCP connection: the peer's segments in arrival order, then EOF. -/
structure Wire where
  segments : List Bytes
  nonempty : ∀ b ∈ segments, b ≠ []

/-- `Read(p)` on a socket returns what the first pending segment holds, up to `len(p)`. -/
def Wire.read (w : Wire) (k : Nat) : ReadResult Wire :=
  if k = 0 then ⟨[], none, w⟩ else
  match w with
  | ⟨[], h⟩ => ⟨[], some .eof, ⟨[], h⟩⟩
  | ⟨b :: bs, h⟩ =>
    if hb : b.length ≤ k then ⟨b, none, ⟨bs, fun x hx => h x (List.mem_cons_of_mem _ hx)⟩⟩
    else ⟨b.take k, none, ⟨b.drop k :: bs, by
      intro x hx
      rcases List.mem_cons.mp hx with rfl | hx
      · intro he
        have := congrArg List.length he
        simp only [List.length_drop, List.length_nil] at this
        omega
      · exact h x (List.mem_cons_of_mem _ hx)⟩⟩

instance : Conn Wire where
  content w := w.segments.flatten
  read := Wire.read
  read_content := by
    rintro ⟨_ | ⟨b, bs⟩, h⟩ k <;> simp only [Wire.read] <;> split_ifs <;>
      simp [← List.append_assoc, List.take_append_drop]
  read_length := by
    rintro ⟨_ | ⟨b, bs⟩, h⟩ k <;> simp only [Wire.read] <;> split_ifs <;>
      simp [*, Nat.min_le_left]
  read_progress := by
    rintro ⟨_ | ⟨b, bs⟩, h⟩ k hk <;> simp only [Wire.read] <;> split_ifs <;> simp_all

instance : Reliable Wire where
  read_err := by
    rintro ⟨_ | ⟨b, bs⟩, h⟩ k hk
    · rfl
    · simp only [Conn.read, Wire.read] at hk
      split_ifs at hk <;> simp at hk

/-! ### Readers -/

/-- Code that reads: it finishes with a value, or asks for `k` bytes and continues with
what the read returned. -/
inductive Reading (α : Type) where
  | pure (a : α)
  | read (k : Nat) (next : Bytes → Option IOError → Reading α)

def Reading.bind {α β : Type} : Reading α → (α → Reading β) → Reading β
  | .pure a, f => f a
  | .read k next, f => .read k fun d e => (next d e).bind f

instance : Monad Reading where
  pure := .pure
  bind := .bind

def Reading.run {α σ : Type} [Conn σ] : Reading α → σ → α × σ
  | .pure a, s => (a, s)
  | .read k next, s =>
    (next (Conn.read s k).data (Conn.read s k).err).run (Conn.read s k).next

/-- The bytes a reader's reads returned, in order. -/
def Reading.received {α σ : Type} [Conn σ] : Reading α → σ → Bytes
  | .pure _, _ => []
  | .read k next, s => (Conn.read s k).data ++
    (next (Conn.read s k).data (Conn.read s k).err).received (Conn.read s k).next

section Run
variable {α β σ : Type} [Conn σ]

@[simp] theorem run_pure (a : α) (s : σ) : (pure a : Reading α).run s = (a, s) := rfl

theorem run_bind (p : Reading α) (f : α → Reading β) (s : σ) :
    (p >>= f).run s = (f (p.run s).1).run (p.run s).2 := by
  induction p generalizing s with
  | pure a => rfl
  | read k next ih => exact ih _ _ _

/-- A reader only consumes: what it received followed by what it leaves is what it found. -/
theorem received_run (p : Reading α) (s : σ) : p.received s ++ content (p.run s).2 = content s := by
  induction p generalizing s with
  | pure a => rfl
  | read k next ih =>
    rw [Reading.received, Reading.run, List.append_assoc, ih, read_content]

theorem run_suffix (p : Reading α) (s : σ) : content (p.run s).2 <:+ content s :=
  ⟨p.received s, received_run p s⟩

end Run

/-- `c.Conn.Read(buf)` with `len(buf) = k`. -/
def readOnce (k : Nat) : Reading (Bytes × Option IOError) :=
  .read k fun d e => .pure (d, e)

/-- The loop of `io.ReadAtLeast`: read into the unfilled tail until it is full or a read
fails. A read that fails with nothing reports at least one byte, so `need` rounds are
enough (`fill_run`). -/
def fill : (rounds need : Nat) → Reading (Bytes × Option IOError)
  | 0, _ => pure ([], none)
  | r+1, need => if need = 0 then pure ([], none) else
      .read need fun d e => match e with
        | some e => pure (d, some e)
        | none => if need ≤ d.length then pure (d, none) else do
            let (d', e') ← fill r (need - d.length)
            pure (d ++ d', e')

/-- `io.ReadFull(r, buf)` with `len(buf) = k`: the bytes read and the error, `nil` once the
buffer is full and `io.ErrUnexpectedEOF` for EOF after a partial fill. -/
def readFull (k : Nat) : Reading (Bytes × Option IOError) := do
  let (d, e) ← fill k k
  pure (if k ≤ d.length then (d, none)
    else if d ≠ [] ∧ e = some .eof then (d, some .unexpectedEOF) else (d, e))

/-- The contents of a Go byte array of length `k` after `d` was read into it. -/
def Buf (k : Nat) (d : Bytes) : Bytes := (d ++ List.replicate k 0).take k

@[simp] theorem buf_length (k : Nat) (d : Bytes) : (Buf k d).length = k := by
  simp [Buf]

theorem buf_of_length {k : Nat} {d : Bytes} (h : d.length = k) : Buf k d = d := by
  subst h
  simp [Buf]

theorem buf_take {k : Nat} {d : Bytes} (h : d.length ≤ k) : (Buf k d).take d.length = d := by
  simp [Buf, List.take_take, min_eq_left h]

section Full
variable {σ : Type} [Conn σ]

theorem fill_succ {r need : Nat} (hn : need ≠ 0) (s : σ) :
    (fill (r + 1) need).run s = match (read s need).err with
      | some e => (((read s need).data, some e), (read s need).next)
      | none =>
        if need ≤ (read s need).data.length then (((read s need).data, none), (read s need).next)
        else
          let x := (fill r (need - (read s need).data.length)).run (read s need).next
          (((read s need).data ++ x.1.1, x.1.2), x.2) := by
  simp only [fill, hn, if_false, Reading.run]
  cases (read s need).err with
  | some e => rfl
  | none => split_ifs <;> simp [run_bind]

theorem fill_run {r need : Nat} {s s' : σ} {d : Bytes} {e : Option IOError} (h : need ≤ r)
    (hr : (fill r need).run s = ((d, e), s')) :
    d ++ content s' = content s ∧ d.length ≤ need ∧ (e = none → d.length = need) := by
  induction r generalizing need s d e with
  | zero =>
    obtain rfl : need = 0 := by omega
    simp only [fill, run_pure, Prod.mk.injEq] at hr
    obtain ⟨⟨rfl, rfl⟩, rfl⟩ := hr
    simp
  | succ r ih =>
    by_cases hn : need = 0
    · subst hn
      simp only [fill, if_true, run_pure, Prod.mk.injEq] at hr
      obtain ⟨⟨rfl, rfl⟩, rfl⟩ := hr
      simp
    have hc := read_content s need
    have hl := read_length s need
    rw [fill_succ hn] at hr
    cases he : (read s need).err with
    | some x =>
      simp only [he, Prod.mk.injEq] at hr
      obtain ⟨⟨rfl, rfl⟩, rfl⟩ := hr
      exact ⟨hc, hl, nofun⟩
    | none =>
      have hpos := List.length_pos.mpr (read_progress s need (by omega) he)
      rcases hx : (fill r (need - (read s need).data.length)).run (read s need).next with
        ⟨⟨d', e'⟩, s''⟩
      simp only [he, hx] at hr
      split_ifs at hr <;> simp only [Prod.mk.injEq] at hr <;> obtain ⟨⟨rfl, rfl⟩, rfl⟩ := hr
      · exact ⟨hc, hl, fun _ => by omega⟩
      · obtain ⟨h1, h2, h3⟩ := ih (by omega) hx
        refine ⟨by rw [List.append_assoc, h1, hc], by simp only [List.length_append]; omega,
          fun h => ?_⟩
        simp only [List.length_append, h3 h]; omega

theorem fill_err [Reliable σ] {r need : Nat} {s s' : σ} {d : Bytes} {e : Option IOError}
    (hr : (fill r need).run s = ((d, e), s')) (he : e ≠ none) : content s' = [] := by
  induction r generalizing need s d e with
  | zero => simp only [fill, run_pure, Prod.mk.injEq] at hr; exact absurd hr.1.2.symm he
  | succ r ih =>
    by_cases hn : need = 0
    · simp only [fill, hn, if_true, run_pure, Prod.mk.injEq] at hr; exact absurd hr.1.2.symm he
    rw [fill_succ hn] at hr
    cases hx : (read s need).err with
    | some x =>
      simp only [hx, Prod.mk.injEq] at hr
      have hc := read_content s need
      rw [Reliable.read_err s need (by simp [hx]), List.append_eq_nil] at hc
      rw [← hr.2]
      exact hc.2
    | none =>
      rcases hy : (fill r (need - (read s need).data.length)).run (read s need).next with
        ⟨⟨d', e'⟩, s''⟩
      simp only [hx, hy] at hr
      split_ifs at hr <;> simp only [Prod.mk.injEq] at hr
      · exact absurd hr.1.2.symm he
      · obtain ⟨⟨-, rfl⟩, rfl⟩ := hr
        exact ih hy he

theorem readFull_run {k : Nat} {s s' : σ} {d : Bytes} {e : Option IOError}
    (hr : (readFull k).run s = ((d, e), s')) :
    d ++ content s' = content s ∧ d.length ≤ k ∧ (e = none ↔ d.length = k) := by
  simp only [readFull, run_bind] at hr
  rcases hx : (fill k k).run s with ⟨⟨d', e'⟩, s''⟩
  obtain ⟨h1, h2, h3⟩ := fill_run le_rfl hx
  rw [hx] at hr
  simp only [run_pure, Prod.mk.injEq] at hr
  obtain ⟨hde, rfl⟩ := hr
  split_ifs at hde with hk hu
  · obtain ⟨rfl, rfl⟩ := Prod.mk.inj hde
    exact ⟨h1, h2, by simp only [true_iff]; omega⟩
  · obtain ⟨rfl, rfl⟩ := Prod.mk.inj hde
    exact ⟨h1, h2, by simp only [reduceCtorEq, false_iff]; omega⟩
  · obtain ⟨rfl, rfl⟩ := Prod.mk.inj hde
    exact ⟨h1, h2, h3, fun h => absurd h.ge hk⟩

theorem readFull_err [Reliable σ] {k : Nat} {s s' : σ} {d : Bytes} {e : Option IOError}
    (hr : (readFull k).run s = ((d, e), s')) (he : e ≠ none) : content s' = [] := by
  simp only [readFull, run_bind] at hr
  rcases hx : (fill k k).run s with ⟨⟨d', e'⟩, s''⟩
  rw [hx] at hr
  simp only [run_pure, Prod.mk.injEq] at hr
  obtain ⟨hde, rfl⟩ := hr
  refine fill_err hx fun he' => he ?_
  rw [if_pos ((fill_run le_rfl hx).2.2 he').ge] at hde
  exact (Prod.mk.inj hde).2.symm

theorem readFull_complete [Reliable σ] {k : Nat} {s : σ} {d rest : Bytes}
    (hs : content s = d ++ rest) (hd : d.length = k) :
    ∃ s', (readFull k).run s = ((d, none), s') ∧ content s' = rest := by
  rcases hr : (readFull k).run s with ⟨⟨d', e⟩, s'⟩
  obtain ⟨h1, h2, h3⟩ := readFull_run hr
  have hok : e = none := by
    by_contra he
    rw [readFull_err hr he, List.append_nil, hs] at h1
    have hl := congrArg List.length h1
    simp only [List.length_append] at hl
    exact he (h3.mpr (by omega))
  have hlen : d'.length = d.length := by rw [h3.mp hok, hd]
  rw [hs, hok] at *
  obtain ⟨rfl, rfl⟩ := List.append_inj h1 hlen
  exact ⟨s', rfl, rfl⟩

end Full

/-! ### Readers that fail -/

/-- `io.ReadFull(r, buf)` followed by `if err != nil { return err }`: the full buffer. -/
def readFullE (k : Nat) : ExceptT GoError Reading {b : Bytes // b.length = k} :=
  ExceptT.mk do
    let (d, e) ← readFull k
    pure (match e with
      | some e => .error (.io e)
      | none => .ok ⟨Buf k d, buf_length k d⟩)

/-- `a, err := x; if err != nil { return onErr(err) }`, then `k a`. -/
def handle {α β : Type} (x : ExceptT GoError Reading α) (onErr : GoError → β)
    (k : α → Reading β) : Reading β :=
  x.run >>= fun r => match r with
    | .error e => pure (onErr e)
    | .ok a => k a

section RunE
variable {α β σ : Type} [Conn σ]

theorem run_handle_ok {x : ExceptT GoError Reading α} {onErr : GoError → β}
    {k : α → Reading β} {s s' : σ} {a : α} (h : x.run.run s = (.ok a, s')) :
    (handle x onErr k).run s = (k a).run s' := by
  rw [handle, run_bind, h]

theorem run_handle_error {x : ExceptT GoError Reading α} {onErr : GoError → β}
    {k : α → Reading β} {s s' : σ} {e : GoError} (h : x.run.run s = (.error e, s')) :
    (handle x onErr k).run s = (onErr e, s') := by
  rw [handle, run_bind, h]
  rfl

theorem run_handle_of {P : β → Prop} {x : ExceptT GoError Reading α} {onErr : GoError → β}
    {k : α → Reading β} (s : σ) (he : ∀ e, P (onErr e))
    (hk : ∀ a (s' : σ), P ((k a).run s').1) :
    P ((handle x onErr k).run s).1 := by
  rcases h : x.run.run s with ⟨_ | a, s'⟩
  · rw [run_handle_error h]
    exact he _
  · rw [run_handle_ok h]
    exact hk a s'

theorem runE_bind_ok {x : ExceptT GoError Reading α} {f : α → ExceptT GoError Reading β}
    {s s' : σ} {a : α} (h : x.run.run s = (.ok a, s')) :
    (x >>= f).run.run s = (f a).run.run s' := by
  rw [ExceptT.run_bind, run_bind, h]

theorem runE_bind_error {x : ExceptT GoError Reading α} {f : α → ExceptT GoError Reading β}
    {s s' : σ} {e : GoError} (h : x.run.run s = (.error e, s')) :
    (x >>= f).run.run s = (.error e, s') := by
  rw [ExceptT.run_bind, run_bind, h]
  rfl

theorem runE_bind_eq_ok {x : ExceptT GoError Reading α} {f : α → ExceptT GoError Reading β}
    {s s'' : σ} {b : β} (h : (x >>= f).run.run s = (.ok b, s'')) :
    ∃ a s', x.run.run s = (.ok a, s') ∧ (f a).run.run s' = (.ok b, s'') := by
  rcases hx : x.run.run s with ⟨_ | a, s'⟩
  · rw [runE_bind_error hx] at h
    cases h
  · exact ⟨a, s', rfl, by rwa [runE_bind_ok hx] at h⟩

@[simp] theorem runE_pure (a : α) (s : σ) :
    (pure a : ExceptT GoError Reading α).run.run s = (.ok a, s) := rfl

@[simp] theorem runE_throw (e : GoError) (s : σ) :
    (throw e : ExceptT GoError Reading α).run.run s = (.error e, s) := rfl

theorem readFullE_ok {k : Nat} {s s' : σ} {b : {b : Bytes // b.length = k}}
    (h : (readFullE k).run.run s = (.ok b, s')) : content s = b.1 ++ content s' := by
  simp only [readFullE, ExceptT.run_mk, run_bind] at h
  rcases hr : (readFull k).run s with ⟨⟨d, e⟩, s''⟩
  rw [hr] at h
  obtain ⟨h1, -, h3⟩ := readFull_run hr
  cases e with
  | some e => cases h
  | none =>
    simp only [run_pure, Prod.mk.injEq, Except.ok.injEq] at h
    obtain ⟨rfl, rfl⟩ := h
    show content s = Buf k d ++ content s''
    rw [buf_of_length (h3.mp rfl), h1]

theorem readFullE_complete [Reliable σ] (k : Nat) {s : σ} {d rest : Bytes}
    (hs : content s = d ++ rest) (hd : d.length = k) :
    ∃ s', (readFullE k).run.run s = (.ok ⟨d, hd⟩, s') ∧ content s' = rest := by
  obtain ⟨s', hr, hc⟩ := readFull_complete hs hd
  refine ⟨s', ?_, hc⟩
  simp only [readFullE, ExceptT.run_mk, run_bind, hr, run_pure]
  subst hd
  simp [buf_of_length]

end RunE

end TrojanGo.Stream
