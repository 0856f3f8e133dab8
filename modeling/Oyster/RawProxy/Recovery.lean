import Oyster.RawProxy.Untrusted

namespace Oyster.RawProxy

/-- The four programs, with what the receivers read from their machines. -/
inductive Program where
  | ipToVsockRawIncoming
  | ipToVsockRawOutgoing
  | vsockToIpRawIncoming (ip : String)
  | vsockToIpRawOutgoing (ifaddr : List UInt8)
deriving DecidableEq, Repr

inductive Proxy where
  | sender (s : Sender)
  | receiver (point : ReceiverPoint)
deriving DecidableEq, Repr

inductive Program.Step : Program → Proxy → Proxy → Prop
  | ipToVsockRawIncoming {s s' : Sender} {action : SenderAction} :
      s.Step action s' → Step .ipToVsockRawIncoming (.sender s) (.sender s')
  | ipToVsockRawOutgoing {s s' : Sender} {action : SenderAction} :
      s.Step action s' → Step .ipToVsockRawOutgoing (.sender s) (.sender s')
  | vsockToIpRawIncoming {ip : String} {point point' : ReceiverPoint} {action : ReceiverAction} :
      Receiver.Step (.incoming ip) point action point' →
      Step (.vsockToIpRawIncoming ip) (.receiver point) (.receiver point')
  | vsockToIpRawOutgoing {ifaddr : List UInt8} {point point' : ReceiverPoint}
      {action : ReceiverAction} :
      Receiver.Step (.outgoing ifaddr) point action point' →
      Step (.vsockToIpRawOutgoing ifaddr) (.receiver point) (.receiver point')

/-- Where `main` goes on with the error. -/
def Proxy.failed (err : ProxyError) : Proxy → Proxy
  | .sender s => .sender { s with point := senderMain err }
  | .receiver _ => .receiver (receiverMain err)

def Proxy.Calls : Proxy → Prop
  | .sender s => s.point = .recv
  | .receiver point => point = handleConn

variable {r : Resource} {err : ProxyError}

def filled : List UInt8 := goodPacket ++ (List.replicate 65535 0).drop goodPacket.length

def sending : ReceiverPoint := .send filled goodPacket.length 0

end Oyster.RawProxy
