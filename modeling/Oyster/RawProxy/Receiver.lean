import Mathlib.Data.List.Basic
import Oyster.Lib.BigEndian
import Oyster.RawProxy.Sender

/-!
`vsock_to_ip_raw_incoming` and `vsock_to_ip_raw_outgoing` read packets off a vsock connection by
their total-length field and write those that pass a filter to a raw socket. The buffer is made
once for each call of `handle_conn`, and what earlier packets left in it stays.
-/

namespace Oyster.RawProxy

/-- `u16::from_be_bytes(buf[2..4])` -/
def totalLength (buf : List UInt8) : ℕ := BigEndian.decode ((buf.drop 2).take 2)

/-- Which receiver, with what it reads from its machine. -/
inductive Direction where
  | incoming (ip : String)
  /-- the four bytes of the interface's address, as they lie in memory -/
  | outgoing (ifaddr : List UInt8)
deriving DecidableEq, Repr

def dottedDst (buf : List UInt8) : String :=
  ((buf.drop 16).take 4).foldl
    (fun acc val => if acc != "" then acc ++ "." ++ toString val else acc ++ toString val) ""

/-- Masks and networks that no packet of the enclave may be sent to. -/
def reserved : List (BitVec 32 × BitVec 32) :=
  [(0xff000000, 0x00000000),
    (0xff000000, 0x0a000000),
    (0xffc00000, 0x64400000),
    (0xff000000, 0x7f000000),
    (0xffff0000, 0xa9fe0000),
    (0xfff00000, 0xac100000),
    (0xffffff00, 0xc0000000),
    (0xffffff00, 0xc0000200),
    (0xffffff00, 0xc0586300),
    (0xffff0000, 0xc0a80000),
    (0xfffe0000, 0xc6120000),
    (0xffffff00, 0xc6336400),
    (0xffffff00, 0xcb007100),
    (0xf0000000, 0xe0000000),
    (0xffffff00, 0xe9fc0000),
    (0xf0000000, 0xf0000000),
    (0xffffffff, 0xffffffff)]

def isReserved (dstAddr : BitVec 32) : Bool :=
  reserved.any fun (mask, network) => dstAddr &&& mask == network

/-- The packet at the front of the buffer is written to the raw socket. -/
def Direction.forwards (buf : List UInt8) : Direction → Bool
  | .incoming ip => dottedDst buf == ip
  | .outgoing ifaddr =>
    let dstAddr := BitVec.ofNat 32 (BigEndian.decode ((buf.drop 16).take 4))
    let ipHeaderSize := ((buf[0]?.getD 0).toNat % 16) * 4
    let srcPort := BigEndian.decode ((buf.drop ipHeaderSize).take 2)
    (buf.drop 12).take 4 == ifaddr && !isReserved dstAddr &&
      (srcPort == 80 || srcPort == 443 || (1024 ≤ srcPort && srcPort ≤ 61439))

/-- What a failed `send_to` is returned as; the outgoing receiver reports it as an error of a
queue that it does not have. -/
def Direction.ipSendError (err : SocketError) : Direction → ProxyError
  | .incoming _ => .ipError err
  | .outgoing _ => .nfqError err

inductive ReceiverPoint where
  /-- `accept_vsock_conn_with_backoff` -/
  | accept
  /-- `new_ip_socket_with_backoff` -/
  | openIp
  /-- `got` bytes of the packet are in the buffer -/
  | read (buf : List UInt8) (got : ℕ)
  | send (buf : List UInt8) (size totalSent : ℕ)
  | panicked
deriving DecidableEq, Repr

/-- `main`, on the error that `handle_conn` returns. -/
def receiverMain : ProxyError → ReceiverPoint
  | .ipError _ => .openIp
  | .vsockError _ => .accept
  -- `unreachable!`
  | .nfqError _ => .panicked

/-- The start of `handle_conn`. -/
def handleConn : ReceiverPoint := .read (List.replicate 65535 0) 0

/-- The head of the loop `while total_sent < size`. -/
def sendToLoop (buf : List UInt8) (size totalSent : ℕ) : ReceiverPoint :=
  if totalSent < size then .send buf size totalSent else .read buf 0

/-- What the `read_exact` that is under way still asks for. -/
def wanted (buf : List UInt8) (got : ℕ) : ℕ :=
  if got < 4 then 4 - got else totalLength buf - got

def readInto (buf : List UInt8) (got : ℕ) (chunk : List UInt8) : List UInt8 :=
  buf.take got ++ chunk ++ buf.drop (got + chunk.length)

/-- Where `handle_conn` is with `got` bytes of the packet, and the packet if these are all. -/
def advance (d : Direction) (buf : List UInt8) (got : ℕ) : ReceiverPoint × Option (List UInt8) :=
  let size := totalLength buf
  if got < 4 then (.read buf got, none)
  -- `buf[4..size]`
  else if size < 4 then (.panicked, none)
  else if got < size then (.read buf got, none)
  else
    (if d.forwards buf then sendToLoop buf size 0 else .read buf 0, some (buf.take size))

inductive ReceiverAction where
  | silent
  | accept
  /-- the bytes come in on the connection; they may complete a packet -/
  | receive (chunk : List UInt8) (packet : Option (List UInt8))
  /-- the bytes are handed to the raw socket -/
  | sendTo (bytes : List UInt8)

inductive Receiver.Step (d : Direction) : ReceiverPoint → ReceiverAction → ReceiverPoint → Prop
  | accept : Step d .accept .accept handleConn
  | openIp : Step d .openIp .silent handleConn
  | receive {buf : List UInt8} {got : ℕ} {chunk : List UInt8} :
      chunk ≠ [] → chunk.length ≤ wanted buf got →
      Step d (.read buf got)
        (.receive chunk (advance d (readInto buf got chunk) (got + chunk.length)).2)
        (advance d (readInto buf got chunk) (got + chunk.length)).1
  | readFailed {buf : List UInt8} {got : ℕ} :
      Step d (.read buf got) .silent (receiverMain (.vsockError .readError))
  | send {buf : List UInt8} {size totalSent sent : ℕ} : sent ≤ size - totalSent →
      Step d (.send buf size totalSent) (.sendTo ((buf.take size).drop totalSent))
        (sendToLoop buf size (totalSent + sent))
  | sendFailed {buf : List UInt8} {size totalSent : ℕ} :
      Step d (.send buf size totalSent) (.sendTo ((buf.take size).drop totalSent))
        (receiverMain (d.ipSendError .writeError))

/-- An IPv4 packet whose length is that of its total-length field. -/
structure IsPacket (p : List UInt8) : Prop where
  length : p.length = totalLength p
  header : 20 ≤ p.length

theorem IsPacket.ne_nil {p : List UInt8} (h : IsPacket p) : p ≠ [] := by
  have hlen := h.header
  apply List.ne_nil_of_length_pos
  omega

theorem take_readInto {buf chunk : List UInt8} {got : ℕ} (hgot : got ≤ buf.length) :
    (readInto buf got chunk).take (got + chunk.length) = buf.take got ++ chunk := by
  have hlen : (buf.take got ++ chunk).length = got + chunk.length := by
    rw [List.length_append, List.length_take, Nat.min_eq_left hgot]
  rw [readInto, List.take_append_of_le_length (by omega), List.take_of_length_le (by omega)]

theorem length_readInto {buf chunk : List UInt8} {got : ℕ} (h : got + chunk.length ≤ buf.length) :
    (readInto buf got chunk).length = buf.length := by
  simp only [readInto, List.length_append, List.length_take, List.length_drop]
  omega

theorem totalLength_congr {a b : List UInt8} (h : a.take 4 = b.take 4) :
    totalLength a = totalLength b := by
  have hdrop : (a.drop 2).take 2 = (b.drop 2).take 2 := by
    rw [List.take_drop, List.take_drop, h]
  rw [totalLength, totalLength, hdrop]

theorem totalLength_le (p : List UInt8) : totalLength p ≤ 65535 := by
  have hlt := BigEndian.decode_lt ((p.drop 2).take 2)
  have hlen : ((p.drop 2).take 2).length ≤ 2 := List.length_take_le 2 _
  have hpow : 256 ^ ((p.drop 2).take 2).length ≤ 256 ^ 2 :=
    Nat.pow_le_pow_right (by decide) hlen
  have htwo : (256 : ℕ) ^ 2 = 65536 := by decide
  rw [totalLength]
  omega

end Oyster.RawProxy
