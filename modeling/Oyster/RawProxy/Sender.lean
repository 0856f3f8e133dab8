import Mathlib.Data.Nat.Notation

/-!
`ip_to_vsock_raw_outgoing` and `ip_to_vsock_raw_incoming` take packets from an nfqueue and write
them to a vsock connection, one after the other and with nothing in between. On an error the
erroring resource is made anew, and the packet in hand is gone.
-/

namespace Oyster.RawProxy

inductive SocketError where
  | readError
  | writeError
  | verdictError
deriving DecidableEq, Repr

inductive ProxyError where
  | ipError (source : SocketError)
  | vsockError (source : SocketError)
  | nfqError (source : SocketError)
deriving DecidableEq, Repr

inductive SenderPoint where
  /-- `new_vsock_socket_with_backoff` -/
  | connect
  /-- `new_nfq_with_backoff` -/
  | openQueue
  | recv
  | send (buf : List UInt8) (totalSent : ℕ)
  | verdict
  | unreachable
deriving DecidableEq, Repr

/-- `main`, on the error that `handle_conn` returns. -/
def senderMain : ProxyError → SenderPoint
  | .nfqError _ => .openQueue
  | .vsockError _ => .connect
  | .ipError _ => .unreachable

/-- The head of the loop `while total_sent < size`. -/
def sendLoop (buf : List UInt8) (totalSent : ℕ) : SenderPoint :=
  if totalSent < buf.length then .send buf totalSent else .verdict

structure Sender where
  /-- the packets that the nfqueue has still to deliver -/
  queue : List (List UInt8)
  point : SenderPoint
deriving DecidableEq, Repr

inductive SenderAction where
  | silent
  | connect
  /-- the bytes go out on the connection; they may be the last ones of a packet -/
  | send (chunk : List UInt8) (completed : Option (List UInt8))

inductive Sender.Step : Sender → SenderAction → Sender → Prop
  | connect {queue : List (List UInt8)} : Step ⟨queue, .connect⟩ .connect ⟨queue, .recv⟩
  -- connected, but not shut down for reading: the next attempt connects again
  | connectFailed {queue : List (List UInt8)} :
      Step ⟨queue, .connect⟩ .connect ⟨queue, .connect⟩
  -- what a queue holds when it is closed is dropped
  | openQueue {queue queue' : List (List UInt8)} : queue' <:+ queue →
      Step ⟨queue, .openQueue⟩ .silent ⟨queue', .recv⟩
  | recv {buf : List UInt8} {queue : List (List UInt8)} :
      Step ⟨buf :: queue, .recv⟩ .silent ⟨queue, sendLoop buf 0⟩
  | recvFailed {queue : List (List UInt8)} :
      Step ⟨queue, .recv⟩ .silent ⟨queue, senderMain (.nfqError .readError)⟩
  | send {queue : List (List UInt8)} {buf : List UInt8} {totalSent size : ℕ} :
      size ≤ buf.length - totalSent →
      Step ⟨queue, .send buf totalSent⟩
        (.send ((buf.drop totalSent).take size)
          (if totalSent + size < buf.length then none else some buf))
        ⟨queue, sendLoop buf (totalSent + size)⟩
  | sendFailed {queue : List (List UInt8)} {buf : List UInt8} {totalSent : ℕ} :
      Step ⟨queue, .send buf totalSent⟩ .silent ⟨queue, senderMain (.vsockError .writeError)⟩
  | verdict {queue : List (List UInt8)} : Step ⟨queue, .verdict⟩ .silent ⟨queue, .recv⟩
  | verdictFailed {queue : List (List UInt8)} :
      Step ⟨queue, .verdict⟩ .silent ⟨queue, senderMain (.nfqError .verdictError)⟩

end Oyster.RawProxy
