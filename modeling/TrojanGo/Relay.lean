import TrojanGo.Header

/-!
# The packet relay

Each pass of `copyPacket(a, b)` reads a datagram into a fresh `MaxPacketSize` buffer and writes
`buf[:n]` with its metadata; a read error, a write error or a read of zero bytes ends the loop
with a message on `errChan`. A direction writes the datagrams in order until the first read or
write error or empty datagram, which ends it with `nil` (`copyPacket_relays`).
-/

set_option autoImplicit false

namespace TrojanGo.Relay
open TrojanGo.Stream TrojanGo.Header

/-- `MaxPacketSize`, the size of the buffer of each read. -/
def maxPacketSize : Nat := 1024 * 8

/-- What `a.ReadWithMetadata(buf)` gives on a `MaxPacketSize` buffer: the datagram it copied
into `buf`, which fits there, its metadata and the error. -/
structure PacketRead where
  data : Bytes
  metadata : Metadata
  err : Option GoError
  fits : data.length ≤ maxPacketSize

/-- What one pass of the `copyPacket` loop meets: its read, and the error its write returns. -/
structure Round where
  read : PacketRead
  writeErr : Option GoError

/-- `copyPacket(a, b)` over its passes: the `b.WriteWithMetadata` calls in order, and what it
sends on `errChan`, or `none` while it still runs. -/
def copyPacket : List Round → List (Bytes × Metadata) × Option (Option GoError)
  | [] => ([], none)
  | r :: rs =>
    let buf := Buf maxPacketSize r.read.data
    let n := r.read.data.length
    match r.read.err with
    | some err => ([], some (some err))
    | none =>
      if n = 0 then ([], some none)
      else
        match r.writeErr with
        | some err => ([(buf.take n, r.read.metadata)], some (some err))
        | none => ((buf.take n, r.read.metadata) :: (copyPacket rs).1, (copyPacket rs).2)

def Round.written (r : Round) : Bytes × Metadata := (r.read.data, r.read.metadata)

def Round.Forwarded (r : Round) : Prop :=
  r.read.err = none ∧ r.read.data ≠ [] ∧ r.writeErr = none

instance : DecidablePred Round.Forwarded := fun _ =>
  inferInstanceAs (Decidable (_ ∧ _ ∧ _))

theorem PacketRead.buf_take_data (p : PacketRead) :
    (Buf maxPacketSize p.data).take p.data.length = p.data :=
  buf_take p.fits

theorem copyPacket_cons_forwarded {r : Round} (h : r.Forwarded) (rs : List Round) :
    copyPacket (r :: rs) = (r.written :: (copyPacket rs).1, (copyPacket rs).2) := by
  obtain ⟨he, hd, hw⟩ := h
  simp only [copyPacket, he, hw, List.length_eq_zero, hd, if_false, r.read.buf_take_data]
  rfl

theorem copyPacket_append {pre : List Round} (h : ∀ r ∈ pre, r.Forwarded) (rest : List Round) :
    copyPacket (pre ++ rest) =
      (pre.map Round.written ++ (copyPacket rest).1, (copyPacket rest).2) := by
  induction pre with
  | nil => rfl
  | cons r pre ih =>
    rw [List.cons_append, copyPacket_cons_forwarded (h r (List.mem_cons_self _ _)),
      ih fun r' hr' => h r' (List.mem_cons_of_mem _ hr')]
    rfl

theorem copyPacket_forwards {rounds : List Round} (h : ∀ r ∈ rounds, r.Forwarded) :
    copyPacket rounds = (rounds.map Round.written, none) := by
  simpa [copyPacket] using copyPacket_append h []

theorem copyPacket_read_error {pre : List Round} (h : ∀ r ∈ pre, r.Forwarded) {r : Round}
    {err : GoError} (he : r.read.err = some err) (rest : List Round) :
    copyPacket (pre ++ r :: rest) = (pre.map Round.written, some (some err)) := by
  rw [copyPacket_append h, copyPacket, he]
  simp

theorem copyPacket_write_error {pre : List Round} (h : ∀ r ∈ pre, r.Forwarded) {r : Round}
    {err : GoError} (he : r.read.err = none) (hd : r.read.data ≠ []) (hw : r.writeErr = some err)
    (rest : List Round) :
    copyPacket (pre ++ r :: rest) = (pre.map Round.written ++ [r.written], some (some err)) := by
  simp only [copyPacket_append h, copyPacket, he, hw, List.length_eq_zero, hd, if_false,
    r.read.buf_take_data]
  rfl

theorem copyPacket_stops_at_empty {pre : List Round} (h : ∀ r ∈ pre, r.Forwarded) {r : Round}
    (he : r.read.err = none) (hd : r.read.data = []) (rest : List Round) :
    copyPacket (pre ++ r :: rest) = (pre.map Round.written, some none) := by
  rw [copyPacket_append h, copyPacket, he]
  simp [hd]

/-- Every sequence of passes is forwarded passes, then perhaps a first pass that is not: the
forwarded datagrams are written in order, and that pass ends the loop with its read error, with
its datagram written and the write error, or, on an empty datagram, with `nil`. -/
theorem copyPacket_relays {pre : List Round} (h : ∀ r ∈ pre, r.Forwarded) :
    copyPacket pre = (pre.map Round.written, none) ∧
      (∀ r rest err, r.read.err = some err →
        copyPacket (pre ++ r :: rest) = (pre.map Round.written, some (some err))) ∧
      (∀ r rest err, r.read.err = none → r.read.data ≠ [] → r.writeErr = some err →
        copyPacket (pre ++ r :: rest) = (pre.map Round.written ++ [r.written], some (some err))) ∧
      (∀ r rest, r.read.err = none → r.read.data = [] →
        copyPacket (pre ++ r :: rest) = (pre.map Round.written, some none)) :=
  ⟨copyPacket_forwards h, fun _ rest _ he => copyPacket_read_error h he rest,
    fun _ rest _ he hd hw => copyPacket_write_error h he hd hw rest,
    fun _ rest he hd => copyPacket_stops_at_empty h he hd rest⟩

def datagram (b : Bytes) (hb : b.length ≤ maxPacketSize) : Round :=
  ⟨⟨b, ⟨Connect, ⟨.ipv4 [127, 0, 0, 1] rfl, 53⟩⟩, none, hb⟩, none⟩

/-- Three datagrams, the second empty, with every read and write succeeding: only the first is
written, and the loop reports `nil`, which ends the session. -/
theorem copyPacket_drops_after_empty :
    copyPacket [datagram [1] (by decide), datagram [] (by decide), datagram [3] (by decide)] =
      ([([1], ⟨Connect, ⟨.ipv4 [127, 0, 0, 1] rfl, 53⟩⟩)], some none) :=
  rfl

theorem copyPacket_relays_one :
    (∀ r ∈ [datagram [1] (by decide)], r.Forwarded) ∧
      copyPacket [datagram [1] (by decide)] = ([([1], ⟨Connect, ⟨.ipv4 [127, 0, 0, 1] rfl, 53⟩⟩)], none) ∧
      (∀ r rest err, r.read.err = some err → copyPacket ([datagram [1] (by decide)] ++ r :: rest) =
        ([([1], ⟨Connect, ⟨.ipv4 [127, 0, 0, 1] rfl, 53⟩⟩)], some (some err))) ∧
      (∀ r rest err, r.read.err = none → r.read.data ≠ [] → r.writeErr = some err →
        copyPacket ([datagram [1] (by decide)] ++ r :: rest) =
          ([([1], ⟨Connect, ⟨.ipv4 [127, 0, 0, 1] rfl, 53⟩⟩), r.written], some (some err))) ∧
      (∀ r rest, r.read.err = none → r.read.data = [] →
        copyPacket ([datagram [1] (by decide)] ++ r :: rest) =
          ([([1], ⟨Connect, ⟨.ipv4 [127, 0, 0, 1] rfl, 53⟩⟩)], some none)) :=
  ⟨by decide, @copyPacket_relays [datagram [1] (by decide)] (by decide)⟩

end TrojanGo.Relay
