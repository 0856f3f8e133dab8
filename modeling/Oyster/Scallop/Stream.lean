import Mathlib.Data.List.Basic

/-!
`ScallopStream` of `scallop.rs` with its poll functions. The base stream is the script of answers
that one poll call gets from it, and it stays pending once the script ends. Every function also
returns the bytes that went to or came from the base stream.
-/

namespace Oyster.Scallop

abbrev Bytes := List UInt8

/-- `to_be_bytes` of a `u16`. -/
def u16ToBe (n : ℕ) : Bytes := [UInt8.ofNat (n / 256), UInt8.ofNat n]

def u16FromBe : Bytes → ℕ
  | [hi, lo] => hi.toNat * 256 + lo.toNat
  | _ => 0

theorem u16FromBe_toBe {n : ℕ} (h : n < 65536) : u16FromBe (u16ToBe n) = n := by
  simp only [u16ToBe, u16FromBe, UInt8.toNat_ofNat']
  omega

@[simp] theorem u16ToBe_length (n : ℕ) : (u16ToBe n).length = 2 := rfl

theorem u16ToBe_fromBe {bs : Bytes} (h : bs.length = 2) : u16ToBe (u16FromBe bs) = bs := by
  match bs, h with
  | [hi, lo], _ =>
    have hlo := lo.toNat_lt
    simp only [u16FromBe, u16ToBe]
    congr
    · apply UInt8.toNat_inj.1
      rw [UInt8.toNat_ofNat']
      have := hi.toNat_lt
      omega
    · apply UInt8.toNat_inj.1
      rw [UInt8.toNat_ofNat']
      omega

theorem u16FromBe_lt (bs : Bytes) : u16FromBe bs < 65536 := by
  unfold u16FromBe
  split
  next hi lo =>
    have := hi.toNat_lt
    have := lo.toNat_lt
    omega
  · omega

/-- The noise states that `ScallopStream` and the handshake use: a message or a payload, and the
room for the result. An error is `none`. -/
structure Noiser (S : Type) where
  readMessage : S → Bytes → ℕ → Option (Bytes × S)
  writeMessage : S → Bytes → ℕ → Option (Bytes × S)

inductive ReadMode where
  | length
  | body
  | read
deriving DecidableEq

structure ScallopStream (S : Type) where
  noise : S
  rbuf : Bytes
  pending : ℕ
  mode : ReadMode
  readEnd : ℕ
  readStart : ℕ
  wbuf : Bytes
  writeStart : ℕ
  writeEnd : ℕ

inductive Poll (α : Type) where
  | pending
  | error
  | ready (a : α)

/-- What the base stream answers to a read: no bytes are its end. -/
inductive ReadAnswer where
  | pending
  | error
  | data (bs : Bytes)

inductive WriteAnswer where
  | pending
  | error
  | accepted (n : ℕ)

namespace ScallopStream

variable {S : Type}

/-- The stream that a handshake returns: it reads the length of a record first. -/
def new (noise : S) : ScallopStream S where
  noise := noise
  rbuf := [0, 0]
  pending := 2
  mode := .length
  readEnd := 0
  readStart := 0
  wbuf := []
  writeStart := 0
  writeEnd := 0

/-- How the loop over the base stream ends: with nothing pending and the rest of the script, or
with what the poll returns. -/
inductive Fill (S : Type) where
  | full (s : ScallopStream S) (script : List ReadAnswer) (taken : Bytes)
  | stop (s : ScallopStream S) (poll : Poll Unit) (taken : Bytes)

def put (s : ScallopStream S) (bs : Bytes) : ScallopStream S :=
  let start := s.rbuf.length - s.pending
  { s with
    rbuf := s.rbuf.take start ++ bs ++ s.rbuf.drop (start + bs.length)
    pending := s.pending - bs.length }

/-- `while pending != 0`: read more of the base stream. -/
def fill (s : ScallopStream S) (taken : Bytes) : List ReadAnswer → Fill S
  | [] => if s.pending = 0 then .full s [] taken else .stop s .pending taken
  | answer :: script =>
    if s.pending = 0 then .full s (answer :: script) taken
    else match answer with
      | .pending => .stop s .pending taken
      | .error => .stop s .error taken
      | .data bs =>
        -- the base stream cannot fill more than the buffer it is given
        let bs := bs.take s.pending
        if bs = [] then .stop s (.ready ()) taken
        else (s.put bs).fill (taken ++ bs) script

/-- A poll of the read side: what it returns, the bytes for the caller, the bytes taken from the
base stream, and whether it stopped there. -/
structure ReadResult (S : Type) where
  poll : Poll Unit
  out : Bytes
  stream : ScallopStream S
  taken : Bytes
  stopped : Bool

/-- Send the body upstream, as far as the buffer of the caller goes. -/
def serve (s : ScallopStream S) (capacity : ℕ) (taken : Bytes) : ReadResult S :=
  if capacity < s.readEnd - s.readStart then
    ⟨.ready (), (s.rbuf.drop s.readStart).take capacity,
      { s with readStart := s.readStart + capacity }, taken, false⟩
  else
    ⟨.ready (), (s.rbuf.drop s.readStart).take (s.readEnd - s.readStart),
      { s with rbuf := [0, 0], pending := 2, mode := .length }, taken, false⟩

/-- The body is a noise message, read in place. -/
def openBody (n : Noiser S) (s : ScallopStream S) (capacity : ℕ) (taken : Bytes) : ReadResult S :=
  match n.readMessage s.noise s.rbuf s.rbuf.length with
  | none => ⟨.error, [], s, taken, false⟩
  | some (plain, noise) =>
    { s with
      noise := noise
      rbuf := plain ++ s.rbuf.drop plain.length
      readStart := 0
      readEnd := plain.length
      mode := .read }.serve capacity taken

/-- Set up to read the record whose length has arrived. -/
def parseLength (s : ScallopStream S) : ScallopStream S :=
  let recordLength := u16FromBe (s.rbuf.take 2)
  { s with pending := recordLength, mode := .body, rbuf := List.replicate recordLength 0 }

/-- The loop of `poll_read`, unrolled: each mode leads to the next one, and `Read` returns. -/
def pollRead (n : Noiser S) (s : ScallopStream S) (capacity : ℕ) (script : List ReadAnswer) :
    ReadResult S :=
  match s.fill [] script with
  | .stop s poll taken => ⟨poll, [], s, taken, true⟩
  | .full s script taken =>
    match s.mode with
    | .read => s.serve capacity taken
    | .body => s.openBody n capacity taken
    | .length =>
      match s.parseLength.fill taken script with
      | .stop s poll taken => ⟨poll, [], s, taken, true⟩
      | .full s _ taken => s.openBody n capacity taken

/-- A poll of the write side: what it returns and the bytes given to the base stream. -/
structure WriteResult (S α : Type) where
  poll : Poll α
  stream : ScallopStream S
  sent : Bytes

/-- What is queued for the base stream. -/
def queued (s : ScallopStream S) : Bytes := (s.wbuf.take s.writeEnd).drop s.writeStart

/-- `while write_start != write_end`: send existing messages first. -/
def drain (s : ScallopStream S) (sent : Bytes) : List WriteAnswer → WriteResult S Unit
  | [] => ⟨if s.writeStart = s.writeEnd then .ready () else .pending, s, sent⟩
  | answer :: script =>
    if s.writeStart = s.writeEnd then ⟨.ready (), s, sent⟩
    else match answer with
      | .pending => ⟨.pending, s, sent⟩
      | .error => ⟨.error, s, sent⟩
      | .accepted size =>
        -- the base stream cannot take more than it is given
        let size := min size s.queued.length
        { s with writeStart := s.writeStart + size }.drain (sent ++ s.queued.take size) script

def pollFlush (s : ScallopStream S) (script : List WriteAnswer) (flush : Poll Unit) :
    WriteResult S Unit :=
  match s.drain [] script with
  | ⟨.ready _, s, sent⟩ => ⟨flush, s, sent⟩
  | r => r

/-- Queues up to 64000 bytes as one record; the result is how many. -/
def queue (n : Noiser S) (s : ScallopStream S) (buf sent : Bytes) : WriteResult S ℕ :=
  let len := min buf.length 64000
  match n.writeMessage s.noise (buf.take len) (len + 998) with
  | none => ⟨.error, s, sent⟩
  | some (msg, noise) =>
    let newBuf := u16ToBe msg.length ++ msg
    ⟨.ready len, { s with
      noise := noise
      wbuf := newBuf ++ List.replicate (len + 1000 - newBuf.length) 0
      writeStart := 0
      writeEnd := msg.length + 2 }, sent⟩

def pollWrite (n : Noiser S) (s : ScallopStream S) (buf : Bytes) (script : List WriteAnswer)
    (flush : Poll Unit) : WriteResult S ℕ :=
  match s.pollFlush script flush with
  | ⟨.ready _, s, sent⟩ => s.queue n buf sent
  | ⟨.pending, s, sent⟩ => ⟨.pending, s, sent⟩
  | ⟨.error, s, sent⟩ => ⟨.error, s, sent⟩

/-- The base stream is shut down only once everything is flushed. -/
def pollShutdown (s : ScallopStream S) (script : List WriteAnswer) (flush shutdown : Poll Unit) :
    WriteResult S Unit :=
  match s.pollFlush script flush with
  | ⟨.ready _, s, sent⟩ => ⟨shutdown, s, sent⟩
  | r => r

end ScallopStream

end Oyster.Scallop
