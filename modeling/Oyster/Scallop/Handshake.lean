import Oyster.Lib.Pipe
import Oyster.Scallop.Stream

/-!
The client and the server of `scallop.rs` as programs over a pipe. The noise library is a
parameter, and what the auth store and the auther do is asked of the own side.
-/

namespace Oyster.Scallop

open Pipe

abbrev FixedBytes (n : ℕ) := {bs : Bytes // bs.length = n}

abbrev Key := FixedBytes 32

abbrev Pcrs := FixedBytes 48 × FixedBytes 48 × FixedBytes 48

/-- What the handshake uses of the noise library. -/
structure Noise where
  Handshake : Type
  Transport : Type
  buildInitiator : Bytes → Bytes → Option Handshake
  buildResponder : Bytes → Bytes → Option Handshake
  handshake : Noiser Handshake
  transport : Noiser Transport
  remoteStatic : Handshake → Option Bytes
  intoTransportMode : Handshake → Option Transport
  transportRemoteStatic : Transport → Option Bytes

inductive ScallopError where
  | initFailed
  | transportError
  | noiseError
  | protocolError (message : String)
deriving DecidableEq

/-- A call that does not return a stream returns an error or panics. -/
inductive Fail where
  | error (e : ScallopError)
  | panic
deriving DecidableEq

/-- The calls on the auth store and the auther, and the flush of the base stream. -/
inductive SideOp where
  | contains (key : Key)
  | verify (attestation : Bytes) (key : Key)
  | set (key : Key) (pcrs : Pcrs)
  | newAuth
  | flush

/-- A flush may fail. -/
abbrev SideAns : SideOp → Type
  | .contains _ => Bool
  | .verify _ _ => Option Pcrs
  | .set _ _ => Unit
  | .newAuth => Bytes
  | .flush => Bool

abbrev Handshaking (α : Type) := ExceptT Fail (Party SideAns) α

def ask (op : SideOp) : Handshaking (SideAns op) := ExceptT.lift (Prog.perform (Op.loc op))

def orFail {α : Type} (e : Fail) : Option α → Handshaking α
  | none => throw e
  | some a => pure a

def ensure (p : Prop) [Decidable p] (e : Fail) : Handshaking Unit := if p then pure () else throw e

def protocolError (message : String) : Fail := .error (.protocolError message)

/-- The stream fails as a transport error. -/
def io {α : Type} (x : Party SideAns (Option α)) : Handshaking α := do
  let a ← ExceptT.lift x
  orFail (.error .transportError) a

def readU16 : Handshaking ℕ := do
  let bs ← io (recvExact 2)
  return u16FromBe bs

variable {S : Type}

/-- Reads a message into a buffer of `src` bytes and its payload into one of `dst` bytes. -/
def noiseRead (n : Noiser S) (noise : S) (src dst : ℕ) : Handshaking (Bytes × S) := do
  let len ← readU16
  -- the slice `src[0..len]` panics
  ensure (len ≤ src) .panic
  let msg ← io (recvExact len)
  orFail (.error .noiseError) (n.readMessage noise msg dst)

/-- Writes a message behind `head`, both in a buffer of `size` bytes. -/
def noiseWrite (n : Noiser S) (noise : S) (payload head : Bytes) (size : ℕ) : Handshaking S := do
  let (msg, noise) ← orFail (.error .transportError)
    (n.writeMessage noise payload (size - (head.length + 2)))
  io (sendAll (head ++ u16ToBe msg.length ++ msg))
  let flushed ← ask .flush
  ensure (flushed = true) (.error .transportError)
  return noise

/-- The remote static key as 32 bytes. -/
def staticKey : Option Bytes → Handshaking Key
  | none => throw .panic
  | some bs => if h : bs.length = 32 then pure ⟨bs, h⟩ else throw .panic

def shouldAskAuth (authStore : Bool) (key : Key) : Handshaking Bool :=
  if authStore then do
    let known ← ask (.contains key)
    return !known
  else return false

/-- The payload that `auther` sends, which is checked for its size. -/
def authPayload : Handshaking Bytes := do
  let payload ← ask .newAuth
  ensure (payload.length ≤ 60000) (protocolError "auth payload too big")
  return payload

/-- Only a remote that verifies is put into the auth store. -/
def verifyAuth (attestation : Bytes) (key : Key) : Handshaking Unit := do
  let pcrs ← ask (.verify attestation key)
  let pcrs ← orFail (protocolError "invalid attestation") pcrs
  ask (.set key pcrs)

/-- `b"NoiseSocketInit1\x00\x00"` -/
def prologue : Bytes :=
  [78, 111, 105, 115, 101, 83, 111, 99, 107, 101, 116, 73, 110, 105, 116, 49, 0, 0]

/-- The auth request in the second handshake message. -/
def parseAuthRequest (payload : Bytes) : Handshaking Bool := do
  ensure (payload.length = 3 ∧ payload.getD 0 0 = 0 ∧ payload.getD 1 0 = 1)
    (protocolError "invalid second payload length")
  ensure (payload.getD 2 0 ≤ 1) (protocolError "invalid auth request in second payload")
  return payload.getD 2 0 = 1

/-- `CLIENTFIN` is encrypted from and into buffers of `size` bytes. -/
def encodeClientFin (n : Noiser S) (noise : S) (size : ℕ) (payload : Bytes)
    (shouldAskAuth : Bool) : Handshaking S := do
  ensure (3 + payload.length ≤ size) .panic
  noiseWrite n noise ((if shouldAskAuth then 1 else 0) :: (u16ToBe payload.length ++ payload)) []
    size

/-- Only an attestation has buffers of its own. -/
def sendClientFin (n : Noiser S) (noise : S) (shouldSendAuth shouldAsk : Bool) : Handshaking S :=
  if shouldSendAuth then do
    let payload ← authPayload
    encodeClientFin n noise 65000 payload shouldAsk
  else encodeClientFin n noise 1024 [] shouldAsk

/-- Reads `SERVERFIN` if it was asked for, and authenticates the server. -/
def readServerFin (n : Noiser S) (noise : S) (key : Key) (shouldAsk : Bool) : Handshaking S :=
  if shouldAsk then do
    let (payload, noise) ← noiseRead n noise 65000 65000
    ensure (2 ≤ payload.length) (protocolError "invalid SERVERFIN length")
    ensure (u16FromBe (payload.take 2) = payload.length - 2)
      (protocolError "invalid SERVERFIN payload length")
    verifyAuth (payload.drop 2) key
    return noise
  else return noise

/-- `new_client_async_Noise_IX_25519_ChaChaPoly_BLAKE2b` -/
def newClient (N : Noise) (secret : Bytes) (authStore auther : Bool) :
    Handshaking (ScallopStream N.Transport) := do
  let noise ← orFail (.error .initFailed) (N.buildInitiator secret prologue)
  -- the negotiation length is zero
  let noise ← noiseWrite N.handshake noise [] [0, 0] 1024
  let len ← readU16
  ensure (len = 0) (protocolError "non zero second negotiation length")
  let (payload, noise) ← noiseRead N.handshake noise 1024 1024
  let shouldSendAuth ← parseAuthRequest payload
  ensure (shouldSendAuth = true → auther = true)
    (protocolError "auth requested but no auther available")
  let key ← staticKey (N.remoteStatic noise)
  let shouldAsk ← shouldAskAuth authStore key
  let noise ← orFail (.error .noiseError) (N.intoTransportMode noise)
  let noise ← sendClientFin N.transport noise shouldSendAuth shouldAsk
  let noise ← readServerFin N.transport noise key shouldAsk
  return .new noise

/-- Verifies auth if we asked for it. -/
def verifyAsked (shouldAsk : Bool) (attestation : Bytes) (key : Key) : Handshaking Unit :=
  if shouldAsk then verifyAuth attestation key else return ()

/-- Reads `CLIENTFIN` into the buffers of the handshake, and authenticates the client. -/
def readClientFin (n : Noiser S) (noise : S) (key : Key) (shouldAsk : Bool) :
    Handshaking (Bool × S) := do
  let (payload, noise) ← noiseRead n noise 1024 1024
  ensure (3 ≤ payload.length) (protocolError "invalid CLIENTFIN length")
  ensure (u16FromBe ((payload.drop 1).take 2) = payload.length - 3)
    (protocolError "invalid CLIENTFIN payload length")
  verifyAsked shouldAsk (payload.drop 3) key
  ensure (payload.getD 0 0 ≤ 1) (protocolError "invalid auth request in third payload")
  return (payload.getD 0 0 = 1, noise)

/-- Writes `SERVERFIN` into buffers that have room for every payload of the checked size. -/
def sendServerFin (n : Noiser S) (noise : S) (shouldSendAuth : Bool) : Handshaking S :=
  if shouldSendAuth then do
    let payload ← authPayload
    noiseWrite n noise (u16ToBe payload.length ++ payload) [] 65000
  else return noise

/-- `new_server_async_Noise_IX_25519_ChaChaPoly_BLAKE2b` -/
def newServer (N : Noise) (secret : Bytes) (authStore auther : Bool) :
    Handshaking (ScallopStream N.Transport) := do
  let noise ← orFail (.error .initFailed) (N.buildResponder secret prologue)
  let len ← readU16
  ensure (len = 0) (protocolError "non zero first negotiation length")
  let (payload, noise) ← noiseRead N.handshake noise 1024 1024
  ensure (payload.length = 0) (protocolError "non zero first handshake payload")
  let key ← staticKey (N.remoteStatic noise)
  let shouldAsk ← shouldAskAuth authStore key
  let noise ← noiseWrite N.handshake noise [0, 1, if shouldAsk then 1 else 0] [0, 0] 1024
  let noise ← orFail (.error .noiseError) (N.intoTransportMode noise)
  let (shouldSendAuth, noise) ← readClientFin N.transport noise key shouldAsk
  ensure (shouldSendAuth = true → auther = true)
    (protocolError "auth requested but no auther available")
  let noise ← sendServerFin N.transport noise shouldSendAuth
  return .new noise

end Oyster.Scallop
