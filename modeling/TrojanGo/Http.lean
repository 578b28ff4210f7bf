import TrojanGo.Rewind

/-!
# Buffered readers and HTTP requests

`bufio.NewReader` puts a 4096-byte buffer over a connection, and a read into an empty buffer asks
for a whole buffer below. A buffered reader is a `Conn`, so `http.ReadRequest` is a `Reading` and
the layers that sniff for HTTP take it as a parameter. Through a rewind buffer smaller than the
first piece below, the parser's first read fails (`first_read_overflows`).
-/

set_option autoImplicit false

namespace TrojanGo.Http
open TrojanGo.Stream TrojanGo.Rewind Conn

/-- `bufio.Reader`: the buffered bytes `buf[r:w]`, the reader below and the error of the
last fill. -/
structure Reader (σ : Type) where
  buf : Bytes
  rd : σ
  err : Option IOError

def defaultBufSize : Nat := 4096

/-- The fields of an `http.Request` this repository reads: `URL.Path` and the `Upgrade`
header. -/
structure Request where
  path : String
  upgrade : String
  deriving DecidableEq, Repr

/-- `http.ReadRequest(r)`: a reader of the buffered reader, the request or the error. -/
abbrev ReadRequest := Reading (Except GoError Request)

variable {σ : Type}

def newReader (rd : σ) : Reader σ := ⟨[], rd, none⟩

/-- `n = copy(p, b.buf[b.r:b.w]); b.r += n`. -/
def Reader.copyOut (b : Reader σ) (k : Nat) : ReadResult (Reader σ) :=
  ⟨b.buf.take k, none, { b with buf := b.buf.drop k }⟩

def Reader.direct (r : ReadResult σ) : ReadResult (Reader σ) :=
  ⟨r.data, r.err, ⟨[], r.next, none⟩⟩

/-- `n, b.err = b.rd.Read(b.buf)`, then `if n == 0 { return 0, b.readErr() }` or the copy. -/
def Reader.filled (r : ReadResult σ) (k : Nat) : ReadResult (Reader σ) :=
  if r.data = [] then Reader.direct r else Reader.copyOut ⟨r.data, r.next, r.err⟩ k

def Reader.read [Conn σ] (b : Reader σ) (k : Nat) : ReadResult (Reader σ) :=
  if k = 0 then (if b.buf = [] then ⟨[], b.err, { b with err := none }⟩ else ⟨[], none, b⟩)
  else if b.buf ≠ [] then b.copyOut k
  else if b.err.isSome then ⟨[], b.err, { b with err := none }⟩
  else if defaultBufSize ≤ k then Reader.direct (Conn.read b.rd k)
  else Reader.filled (Conn.read b.rd defaultBufSize) k

section Read
variable [Conn σ]

def Reader.content (b : Reader σ) : Bytes := b.buf ++ Conn.content b.rd

theorem read_zero (b : Reader σ) :
    b.read 0 = if b.buf = [] then ⟨[], b.err, { b with err := none }⟩ else ⟨[], none, b⟩ := rfl

theorem read_buffered (b : Reader σ) {k : Nat} (hk : k ≠ 0) (hb : b.buf ≠ []) :
    b.read k = b.copyOut k := by
  rw [Reader.read, if_neg hk, if_pos hb]

theorem read_empty (b : Reader σ) {k : Nat} (hk : k ≠ 0) (hb : b.buf = []) :
    b.read k = if b.err.isSome then ⟨[], b.err, { b with err := none }⟩
      else if defaultBufSize ≤ k then Reader.direct (Conn.read b.rd k)
      else Reader.filled (Conn.read b.rd defaultBufSize) k := by
  rw [Reader.read, if_neg hk, if_neg (not_not.mpr hb)]

theorem copyOut_content (b : Reader σ) (k : Nat) :
    (b.copyOut k).data ++ (b.copyOut k).next.content = b.content := by
  simp [Reader.copyOut, Reader.content, ← List.append_assoc]

theorem filled_content (r : ReadResult σ) (k : Nat) :
    (Reader.filled r k).data ++ (Reader.filled r k).next.content = r.data ++ Conn.content r.next := by
  unfold Reader.filled
  split
  · rfl
  · exact copyOut_content _ k

theorem read_content_reader (b : Reader σ) (k : Nat) :
    (b.read k).data ++ (b.read k).next.content = b.content := by
  by_cases hk : k = 0
  · subst hk; rw [read_zero]; split <;> rfl
  by_cases hb : b.buf = []
  · have hc : b.content = Conn.content b.rd := by rw [Reader.content, hb]; rfl
    rw [read_empty b hk hb, hc]
    split
    · rw [← hc]; rfl
    split
    · exact read_content b.rd k
    · rw [filled_content]; exact read_content b.rd _
  · rw [read_buffered b hk hb]; exact copyOut_content b k

theorem read_length_reader (b : Reader σ) (k : Nat) : (b.read k).data.length ≤ k := by
  by_cases hk : k = 0
  · subst hk; rw [read_zero]; split <;> exact le_rfl
  by_cases hb : b.buf = []
  · rw [read_empty b hk hb]
    split
    · exact Nat.zero_le _
    split
    · exact read_length b.rd k
    · unfold Reader.filled
      split
      · simp [Reader.direct, *]
      · exact List.length_take_le _ _
  · rw [read_buffered b hk hb]; exact List.length_take_le _ _

theorem read_progress_reader (b : Reader σ) (k : Nat) (hk : 0 < k) (he : (b.read k).err = none) :
    (b.read k).data ≠ [] := by
  by_cases hb : b.buf = []
  · rw [read_empty b hk.ne' hb] at he ⊢
    revert he
    split
    · intro he; simp_all
    split
    · exact read_progress b.rd k hk
    · unfold Reader.filled
      split
      · exact fun he => absurd ‹_› (read_progress b.rd defaultBufSize (by decide) he)
      · intro; simpa [Reader.copyOut, hk.ne']
  · rw [read_buffered b hk.ne' hb]; simpa [Reader.copyOut, hk.ne']

instance : Conn (Reader σ) where
  content := Reader.content
  read := Reader.read
  read_content := read_content_reader
  read_length := read_length_reader
  read_progress := read_progress_reader

@[simp] theorem content_newReader (rd : σ) : Conn.content (newReader rd) = Conn.content rd := rfl

theorem read_rd (b : Reader σ) (k : Nat) :
    (Conn.read b k).next.rd = b.rd ∨ ∃ k', (Conn.read b k).next.rd = (Conn.read b.rd k').next := by
  show (b.read k).next.rd = b.rd ∨ ∃ k', (b.read k).next.rd = (Conn.read b.rd k').next
  by_cases hk : k = 0
  · subst hk; rw [read_zero]; split <;> exact .inl rfl
  by_cases hb : b.buf = []
  · rw [read_empty b hk hb]
    split
    · exact .inl rfl
    split
    · exact .inr ⟨k, rfl⟩
    · unfold Reader.filled; split <;> exact .inr ⟨_, rfl⟩
  · rw [read_buffered b hk hb]; exact .inl rfl

/-! ### Over a rewind connection -/

theorem read_keeps_rd {s : Bytes} {b : Reader (RewindConn σ)} (k : Nat) (h : Keeps s b.rd) :
    Keeps s (Conn.read b k).next.rd := by
  rcases read_rd b k with he | ⟨k', he⟩ <;> rw [he]
  · exact h
  · exact read_keeps k' h

theorem run_keeps_rd {α : Type} {s : Bytes} (p : Reading α) {b : Reader (RewindConn σ)}
    (h : Keeps s b.rd) : Keeps s (p.run b).2.rd := by
  induction p generalizing b with
  | pure a => exact h
  | read k next ih => exact ih _ _ (read_keeps_rd k h)

theorem peek_rewind_bufio {α : Type} (p : Reading α) (n : Nat) (u : σ) :
    Conn.content (p.run (newReader ((newRewindConn u).setBufferSize n))).2.rd.rewind =
      Conn.content u :=
  keeps_rewind (run_keeps_rd p (setBufferSize_keeps n u))

end Read

end TrojanGo.Http
