import Mathlib.Data.List.Flatten
import Mathlib.Logic.Function.Basic
import Oyster.Lib.Frames
import Oyster.Lib.Run
import Oyster.RawProxy.Receiver

/-!
A sender and a receiver, and the connections between them. A connection delivers the bytes sent
on it in order, up to where the receiver leaves it; the receiver takes the connections in the
order in which they were made, and may miss some. What it reads as packets are the packets whose
last byte the sender sent and the receiver read.
-/

namespace Oyster.RawProxy

open Frames

structure Net where
  sender : Sender
  receiver : ReceiverPoint
  /-- the number of connections made; the sender's is the last one -/
  made : ℕ
  /-- what was sent on each connection, and how much of it was read -/
  bytes : ℕ → List UInt8
  read : ℕ → ℕ
  /-- the receiver's connection, and the first one that it can still accept -/
  conn : ℕ
  next : ℕ

inductive Event where
  | sender (conn : ℕ) (action : SenderAction)
  | receiver (conn : ℕ) (action : ReceiverAction)

namespace Net

def start (packets : List (List UInt8)) : Net where
  sender := ⟨packets, .connect⟩
  receiver := .accept
  made := 0
  bytes _ := []
  read _ := 0
  conn := 0
  next := 0

inductive Step (d : Direction) : Net → Event → Net → Prop
  | localSender {s : Net} {sender : Sender} :
      s.sender.Step .silent sender →
      Step d s (.sender (s.made - 1) .silent) { s with sender }
  | connect {s : Net} {sender : Sender} :
      s.sender.Step .connect sender →
      Step d s (.sender (s.made - 1) .connect) { s with sender, made := s.made + 1 }
  | send {s : Net} {sender : Sender} {chunk : List UInt8} {completed : Option (List UInt8)} :
      s.sender.Step (.send chunk completed) sender →
      Step d s (.sender (s.made - 1) (.send chunk completed))
        { s with
          sender
          bytes := Function.update s.bytes (s.made - 1) (s.bytes (s.made - 1) ++ chunk) }
  | localReceiver {s : Net} {receiver : ReceiverPoint} :
      Receiver.Step d s.receiver .silent receiver →
      Step d s (.receiver s.conn .silent) { s with receiver }
  | sendTo {s : Net} {receiver : ReceiverPoint} {out : List UInt8} :
      Receiver.Step d s.receiver (.sendTo out) receiver →
      Step d s (.receiver s.conn (.sendTo out)) { s with receiver }
  | accept {s : Net} {receiver : ReceiverPoint} {conn : ℕ} :
      Receiver.Step d s.receiver .accept receiver → s.next ≤ conn → conn < s.made →
      Step d s (.receiver conn .accept) { s with receiver, conn, next := conn + 1 }
  | receive {s : Net} {receiver : ReceiverPoint} {chunk : List UInt8}
      {packet : Option (List UInt8)} :
      Receiver.Step d s.receiver (.receive chunk packet) receiver →
      chunk <+: (s.bytes s.conn).drop (s.read s.conn) →
      Step d s (.receiver s.conn (.receive chunk packet))
        { s with
          receiver
          read := Function.update s.read s.conn (s.read s.conn + chunk.length) }

end Net

/-- The packet whose last bytes are sent, with the connection. -/
def Event.completed : Event → List (ℕ × List UInt8)
  | .sender conn (.send _ packet) => packet.toList.map fun p => (conn, p)
  | .sender _ .silent | .sender _ .connect | .receiver _ _ => []

/-- The packet that the receiver has read. -/
def Event.extracted : Event → List (List UInt8)
  | .receiver _ (.receive _ packet) => packet.toList
  | .receiver _ .silent | .receiver _ .accept | .receiver _ (.sendTo _) | .sender _ _ => []

def completed (es : List Event) : List (ℕ × List UInt8) := es.flatMap Event.completed

def extracted (es : List Event) : List (List UInt8) := es.flatMap Event.extracted

def onConn (conn : ℕ) (done : List (ℕ × List UInt8)) : List (List UInt8) :=
  done.filterMap fun (c, p) => if c = conn then some p else none

/-- The packets whose bytes were completely sent on a connection. -/
def sentOn (conn : ℕ) (es : List Event) : List (List UInt8) := onConn conn (completed es)

theorem completed_concat (es : List Event) (e : Event) :
    completed (es ++ [e]) = completed es ++ e.completed := by
  rw [completed, completed, List.flatMap_append, List.flatMap_singleton]

theorem extracted_concat (es : List Event) (e : Event) :
    extracted (es ++ [e]) = extracted es ++ e.extracted := by
  rw [extracted, extracted, List.flatMap_append, List.flatMap_singleton]

theorem onConn_concat_self (conn : ℕ) (done : List (ℕ × List UInt8)) (p : List UInt8) :
    onConn conn (done ++ [(conn, p)]) = onConn conn done ++ [p] := by
  simp [onConn]

theorem onConn_concat_ne {conn c : ℕ} (h : c ≠ conn) (done : List (ℕ × List UInt8))
    (p : List UInt8) : onConn c (done ++ [(conn, p)]) = onConn c done := by
  simp [onConn, h.symm]

/-- The packet that a sender has taken and not sent completely, and its bytes that are sent. -/
def inHand : SenderPoint → List (List UInt8)
  | .send buf _ => [buf]
  | .connect | .openQueue | .recv | .verdict | .unreachable => []

def onWire : SenderPoint → List UInt8
  | .send buf totalSent => buf.take totalSent
  | .connect | .openQueue | .recv | .verdict | .unreachable => []

structure SenderInv (packets : List (List UInt8)) (done : List (ℕ × List UInt8)) (s : Net) :
    Prop where
  /-- no packet is sent twice, or before an earlier one -/
  delivered : (done.map Prod.snd ++ (inHand s.sender.point ++ s.sender.queue)).Sublist packets
  sending : ∀ buf n, s.sender.point = .send buf n → n < buf.length
  connected : s.sender.point ≠ .connect → 0 < s.made
  current : s.sender.point ≠ .connect →
    s.bytes (s.made - 1) = (onConn (s.made - 1) done).flatten ++ onWire s.sender.point
  stream : ∀ c, Stream IsPacket (s.bytes c) (onConn c done)
  fresh : ∀ c, s.made ≤ c → s.bytes c = [] ∧ onConn c done = []
  ordered : done.map Prod.snd = (List.range s.made).flatMap fun c => onConn c done

variable {packets : List (List UInt8)} {done : List (ℕ × List UInt8)} {s : Net}

theorem senderInv_start (packets : List (List UInt8)) : SenderInv packets [] (.start packets) where
  delivered := List.Sublist.refl packets
  sending buf n h := by cases h
  connected h := absurd rfl h
  current h := absurd rfl h
  stream c := .nil
  fresh c _ := ⟨rfl, rfl⟩
  ordered := rfl

theorem inHand_sendLoop_sublist (buf : List UInt8) (n : ℕ) :
    (inHand (sendLoop buf n)).Sublist [buf] := by
  unfold sendLoop
  split
  · exact .refl _
  · exact List.nil_sublist _

theorem SenderInv.move (h : SenderInv packets done s) {queue : List (List UInt8)}
    {point : SenderPoint} (hstart : s.sender.point ≠ .connect)
    (hqueue : (inHand point ++ queue).Sublist (inHand s.sender.point ++ s.sender.queue))
    (hpoint : ∀ buf n, point = .send buf n → n < buf.length)
    (hwire : point ≠ .connect → onWire point = onWire s.sender.point) :
    SenderInv packets done { s with sender := ⟨queue, point⟩ } where
  delivered := (List.Sublist.append_left hqueue _).trans h.delivered
  sending := hpoint
  connected _ := h.connected hstart
  current hne := by
    rw [hwire hne]
    exact h.current hstart
  stream := h.stream
  fresh := h.fresh
  ordered := h.ordered

theorem SenderInv.silent (h : SenderInv packets done s) {sender : Sender}
    (hst : s.sender.Step .silent sender) : SenderInv packets done { s with sender } := by
  obtain ⟨⟨queue, point⟩, receiver, made, bytes, read, conn, next⟩ := s
  cases hst with
  | openQueue hq =>
    exact h.move (by simp) hq.sublist (by simp) fun _ => rfl
  | @recv buf queue =>
    refine h.move (by simp) ?_ (fun b n hb => ?_) fun _ => ?_
    · exact List.Sublist.append_right (inHand_sendLoop_sublist buf 0) queue
    · rw [sendLoop] at hb
      split at hb
      · cases hb
        assumption
      · cases hb
    · rw [sendLoop]
      split <;> rfl
  | recvFailed => exact h.move (by simp) (.refl _) (by simp [senderMain]) fun _ => rfl
  | @sendFailed _ buf n =>
    refine h.move (by simp) ?_ (by simp [senderMain]) fun hne => absurd rfl hne
    exact List.sublist_append_right [buf] queue
  | verdict => exact h.move (by simp) (.refl _) (by simp) fun _ => rfl
  | verdictFailed => exact h.move (by simp) (.refl _) (by simp [senderMain]) fun _ => rfl

theorem SenderInv.connect (h : SenderInv packets done s) {sender : Sender}
    (hst : s.sender.Step .connect sender) :
    SenderInv packets done { s with sender, made := s.made + 1 } := by
  obtain ⟨⟨queue, point⟩, receiver, made, bytes, read, conn, next⟩ := s
  have hbytes : bytes made = [] := (h.fresh made (Nat.le_refl made)).1
  have hdone : onConn made done = [] := (h.fresh made (Nat.le_refl made)).2
  have hordered : done.map Prod.snd = (List.range (made + 1)).flatMap fun c => onConn c done := by
    rw [List.range_succ, List.flatMap_append, List.flatMap_singleton, hdone, List.append_nil]
    exact h.ordered
  cases hst with
  | connect =>
    refine ⟨h.delivered, by simp, fun _ => Nat.succ_pos _, fun _ => ?_, h.stream,
      fun c hc => h.fresh c (Nat.le_of_succ_le hc), hordered⟩
    dsimp only
    rw [Nat.add_sub_cancel, hbytes, hdone]
    rfl
  | connectFailed =>
    exact ⟨h.delivered, by simp, fun hne => absurd rfl hne, fun hne => absurd rfl hne, h.stream,
      fun c hc => h.fresh c (Nat.le_of_succ_le hc), hordered⟩

theorem SenderInv.receiver (h : SenderInv packets done s) (receiver : ReceiverPoint)
    (read : ℕ → ℕ) (conn next : ℕ) :
    SenderInv packets done { s with receiver, read, conn, next } where
  delivered := h.delivered
  sending := h.sending
  connected := h.connected
  current := h.current
  stream := h.stream
  fresh := h.fresh
  ordered := h.ordered

theorem SenderInv.send (hp : ∀ p ∈ packets, IsPacket p) (h : SenderInv packets done s)
    {sender : Sender} {chunk : List UInt8} {packet : Option (List UInt8)}
    (hst : s.sender.Step (.send chunk packet) sender) :
    SenderInv packets (done ++ packet.toList.map fun p => (s.made - 1, p))
      { s with
        sender
        bytes := Function.update s.bytes (s.made - 1) (s.bytes (s.made - 1) ++ chunk) } := by
  obtain ⟨⟨queue, point⟩, receiver, made, bytes, read, conn, next⟩ := s
  cases hst with
  | @send _ buf n size hsize =>
    have hmade : 0 < made := h.connected (by simp)
    have hn : n < buf.length := h.sending buf n rfl
    have hcurrent : bytes (made - 1) = (onConn (made - 1) done).flatten ++ buf.take n :=
      h.current (by simp)
    have hsent : bytes (made - 1) ++ (buf.drop n).take size =
        (onConn (made - 1) done).flatten ++ buf.take (n + size) := by
      rw [hcurrent, List.append_assoc, List.take_add]
    have hgood : IsPacket buf :=
      hp buf (h.delivered.subset (List.mem_append_right _ List.mem_cons_self))
    have hall := good_of_stream (h.stream (made - 1))
    dsimp only
    rw [hsent]
    by_cases hlt : n + size < buf.length
    · rw [if_pos hlt, sendLoop, if_pos hlt]
      simp only [Option.toList_none, List.map_nil, List.append_nil]
      refine ⟨h.delivered, fun b m hb => ?_, fun _ => hmade, fun _ => ?_, fun c => ?_,
        fun c hc => ?_, h.ordered⟩
      · cases hb
        exact hlt
      · exact Function.update_self ..
      · by_cases hc : c = made - 1
        · subst hc
          dsimp only
          rw [Function.update_self]
          exact .append hall (.cut _ hgood hlt)
        · dsimp only
          rw [Function.update_of_ne hc]
          exact h.stream c
      · dsimp only at hc ⊢
        rw [Function.update_of_ne (by omega)]
        exact h.fresh c hc
    · -- the last bytes of the packet
      rw [if_neg hlt, sendLoop, if_neg hlt, List.take_of_length_le (by omega)]
      simp only [Option.toList_some, List.map_cons, List.map_nil]
      refine ⟨?_, by simp, fun _ => hmade, fun _ => ?_, fun c => ?_, fun c hc => ?_, ?_⟩
      · simpa [inHand] using h.delivered
      · dsimp only
        rw [Function.update_self, onConn_concat_self]
        simp [onWire]
      · by_cases hc : c = made - 1
        · subst hc
          dsimp only
          rw [Function.update_self, onConn_concat_self]
          have hwhole : (onConn (made - 1) done ++ [buf]).flatten ++ [] =
              (onConn (made - 1) done).flatten ++ buf := by simp
          rw [← hwhole]
          refine .append (fun p hmem => ?_) .nil
          rcases List.mem_append.1 hmem with hmem | hmem
          · exact hall p hmem
          · exact List.mem_singleton.1 hmem ▸ hgood
        · dsimp only
          rw [Function.update_of_ne hc, onConn_concat_ne hc]
          exact h.stream c
      · dsimp only at hc ⊢
        have hne : c ≠ made - 1 := by omega
        rw [Function.update_of_ne hne, onConn_concat_ne hne]
        exact h.fresh c hc
      · -- the sender's connection is the last one
        have hrange : List.range made = List.range (made - 1) ++ [made - 1] := by
          rw [← List.range_succ]
          congr 1
          omega
        have hordered := h.ordered
        dsimp only at hordered ⊢
        rw [hrange, List.flatMap_append, List.flatMap_singleton] at hordered ⊢
        rw [List.map_append, hordered, onConn_concat_self, ← List.append_assoc]
        congr 2
        apply List.flatMap_congr
        intro c hc
        have hlt := List.mem_range.1 hc
        exact (onConn_concat_ne (by omega) done buf).symm

/-- What the receiver has read of a packet that is not complete. -/
def inBuffer : ReceiverPoint → List UInt8
  | .read buf got => buf.take got
  | .accept | .openIp | .send _ _ _ | .panicked => []

/-- The buffer has room for every packet. -/
def Buffered : ReceiverPoint → Prop
  | .read buf got => buf.length = 65535 ∧ got ≤ 65535
  | .send buf _ _ => buf.length = 65535
  | .accept | .openIp | .panicked => True

def ReceiverPoint.Attached (point : ReceiverPoint) : Prop := point ≠ .accept ∧ point ≠ .panicked

structure ReceiverInv (done : List (ℕ × List UInt8)) (out : List (List UInt8)) (s : Net) :
    Prop where
  read_le : ∀ c, s.read c ≤ (s.bytes c).length
  unread : ∀ c, s.next ≤ c → s.read c = 0
  next_le : s.next ≤ s.made
  conn : s.receiver.Attached → s.conn + 1 = s.next
  buffered : Buffered s.receiver
  /-- what was read on the connection are packets, and then the beginning of one -/
  aligned : s.receiver.Attached → (s.bytes s.conn).take (s.read s.conn) =
    (within (s.read s.conn) (onConn s.conn done)).flatten ++ inBuffer s.receiver
  extracted : out = (List.range s.made).flatMap fun c => within (s.read c) (onConn c done)

variable {out : List (List UInt8)} {d : Direction}

theorem receiverInv_start (packets : List (List UInt8)) : ReceiverInv [] [] (.start packets) where
  read_le _ := Nat.zero_le _
  unread _ _ := rfl
  next_le := Nat.le_refl 0
  conn h := absurd rfl h.1
  buffered := trivial
  aligned h := absurd rfl h.1
  extracted := rfl

theorem ReceiverInv.sender (h : ReceiverInv done out s) {sender : Sender} {made : ℕ}
    {bytes : ℕ → List UInt8} {done' : List (ℕ × List UInt8)}
    (hbytes : ∀ c, s.bytes c <+: bytes c)
    (hwithin : ∀ c, within (s.read c) (onConn c done') = within (s.read c) (onConn c done))
    (hmade : s.made ≤ made) (hfresh : ∀ c, s.made ≤ c → onConn c done = []) :
    ReceiverInv done' out { s with sender, made, bytes } where
  read_le c := (h.read_le c).trans (hbytes c).length_le
  unread := h.unread
  next_le := h.next_le.trans hmade
  conn := h.conn
  buffered := h.buffered
  aligned hat := by
    dsimp only
    rw [hwithin, ← h.aligned hat]
    obtain ⟨rest, hrest⟩ := hbytes s.conn
    rw [← hrest, List.take_append_of_le_length (h.read_le s.conn)]
  extracted := by
    obtain ⟨more, rfl⟩ := Nat.exists_eq_add_of_le hmade
    dsimp only
    rw [h.extracted, List.range_add, List.flatMap_append]
    simp only [hwithin]
    have hnew : (List.map (fun x => s.made + x) (List.range more)).flatMap
        (fun c => within (s.read c) (onConn c done)) = [] := by
      apply List.flatMap_eq_nil_iff.2
      intro c hc
      obtain ⟨x, _, rfl⟩ := List.mem_map.1 hc
      rw [hfresh _ (Nat.le_add_right _ x), within]
    rw [hnew, List.append_nil]

theorem ReceiverInv.send (hs : SenderInv packets done s) (h : ReceiverInv done out s)
    {sender : Sender} {chunk : List UInt8} {packet : Option (List UInt8)}
    (hst : s.sender.Step (.send chunk packet) sender) :
    ReceiverInv (done ++ packet.toList.map fun p => (s.made - 1, p)) out
      { s with
        sender
        bytes := Function.update s.bytes (s.made - 1) (s.bytes (s.made - 1) ++ chunk) } := by
  refine h.sender (fun c => ?_) (fun c => ?_) (Nat.le_refl _) fun c hc => (hs.fresh c hc).2
  · by_cases hc : c = s.made - 1
    · subst hc
      rw [Function.update_self]
      exact List.prefix_append _ _
    · rw [Function.update_of_ne hc]
  · cases packet with
    | none => simp
    | some p =>
      simp only [Option.toList_some, List.map_cons, List.map_nil]
      by_cases hc : c = s.made - 1
      · subst hc
        rw [onConn_concat_self]
        apply within_concat
        -- the packet was not complete, so no more of it can have been read
        have hread := h.read_le (s.made - 1)
        obtain ⟨⟨queue, point⟩, receiver, made, bytes, read, conn, next⟩ := s
        generalize hchunk : SenderAction.send chunk (some p) = action at hst
        cases hst with
        | @send _ buf n size hsize =>
          have hn : n < buf.length := hs.sending buf n rfl
          have hcurrent : bytes (made - 1) = (onConn (made - 1) done).flatten ++ buf.take n :=
            hs.current (by simp)
          injection hchunk with _ hpacket
          split at hpacket
          · cases hpacket
          · injection hpacket with hpacket
            dsimp only at hread ⊢
            rw [hcurrent, List.length_append, List.length_take] at hread
            rw [hpacket]
            omega
        | _ => cases hchunk
      · rw [onConn_concat_ne hc]

theorem ReceiverInv.move (h : ReceiverInv done out s) {receiver : ReceiverPoint}
    (hat : receiver.Attached → s.receiver.Attached ∧ inBuffer receiver = inBuffer s.receiver)
    (hbuf : Buffered receiver) : ReceiverInv done out { s with receiver } where
  read_le := h.read_le
  unread := h.unread
  next_le := h.next_le
  conn hr := h.conn (hat hr).1
  buffered := hbuf
  aligned hr := by
    dsimp only
    rw [(hat hr).2]
    exact h.aligned (hat hr).1
  extracted := h.extracted

theorem buffered_handleConn : Buffered handleConn := by
  exact ⟨List.length_replicate, Nat.zero_le _⟩

theorem inBuffer_read_zero (buf : List UInt8) : inBuffer (.read buf 0) = [] :=
  List.take_zero (l := buf)

theorem inBuffer_handleConn : inBuffer handleConn = [] := inBuffer_read_zero _

theorem attached_sendToLoop (buf : List UInt8) (size n : ℕ) :
    (sendToLoop buf size n).Attached ∧ inBuffer (sendToLoop buf size n) = [] := by
  unfold sendToLoop
  split
  · exact ⟨⟨by simp, by simp⟩, rfl⟩
  · exact ⟨⟨by simp, by simp⟩, inBuffer_read_zero buf⟩

theorem buffered_sendToLoop {buf : List UInt8} (h : buf.length = 65535) (size n : ℕ) :
    Buffered (sendToLoop buf size n) := by
  unfold sendToLoop
  split
  · exact h
  · exact ⟨h, Nat.zero_le _⟩

theorem ReceiverInv.silent (h : ReceiverInv done out s) {receiver : ReceiverPoint}
    (hst : Receiver.Step d s.receiver .silent receiver) :
    ReceiverInv done out { s with receiver } := by
  obtain ⟨sender, point, made, bytes, read, conn, next⟩ := s
  cases hst with
  | openIp =>
    refine h.move (fun _ => ⟨⟨by simp, by simp⟩, ?_⟩) buffered_handleConn
    exact inBuffer_handleConn
  | readFailed => exact h.move (fun hat => absurd rfl hat.1) trivial

theorem ReceiverInv.sendTo (h : ReceiverInv done out s) {receiver : ReceiverPoint}
    {bs : List UInt8} (hst : Receiver.Step d s.receiver (.sendTo bs) receiver) :
    ReceiverInv done out { s with receiver } := by
  obtain ⟨sender, point, made, bytes, read, conn, next⟩ := s
  cases hst with
  | @send buf size n sent =>
    refine h.move (fun _ => ⟨⟨by simp, by simp⟩, ?_⟩) (buffered_sendToLoop h.buffered _ _)
    exact (attached_sendToLoop buf size _).2
  | sendFailed =>
    -- with a new raw socket the incoming receiver stays on its connection
    cases d with
    | incoming => exact h.move (fun _ => ⟨⟨by simp, by simp⟩, rfl⟩) trivial
    | outgoing => exact h.move (fun hat => absurd rfl hat.2) trivial

theorem ReceiverInv.accept (h : ReceiverInv done out s) {receiver : ReceiverPoint} {conn : ℕ}
    (hst : Receiver.Step d s.receiver .accept receiver) (hnext : s.next ≤ conn)
    (hmade : conn < s.made) (hgood : ∀ p ∈ onConn conn done, p ≠ []) :
    ReceiverInv done out { s with receiver, conn, next := conn + 1 } := by
  obtain ⟨sender, point, made, bytes, read, old, next⟩ := s
  cases hst
  refine ⟨h.read_le, fun c hc => h.unread c ?_, hmade, fun _ => rfl, buffered_handleConn,
    fun _ => ?_, h.extracted⟩
  · dsimp only at hnext hc ⊢
    omega
  · have hread : read conn = 0 := h.unread conn hnext
    dsimp only
    rw [hread, within_zero hgood, inBuffer_handleConn]
    simp

theorem flatMap_range_concat {α : Type} {f g : ℕ → List α} {x : List α} {k n : ℕ} (hk : k < n)
    (hbefore : ∀ c < k, g c = f c) (hat : g k = f k ++ x)
    (hafter : ∀ c, k < c → f c = [] ∧ g c = []) :
    (List.range n).flatMap g = (List.range n).flatMap f ++ x := by
  induction n with
  | zero => omega
  | succ n ih =>
    rw [List.range_succ, List.flatMap_append, List.flatMap_append, List.flatMap_singleton,
      List.flatMap_singleton]
    by_cases hn : k = n
    · subst hn
      rw [hat, List.append_assoc]
      congr 1
      apply List.flatMap_congr
      intro c hc
      exact hbefore c (List.mem_range.1 hc)
    · obtain ⟨hf, hg⟩ := hafter n (by omega)
      rw [ih (by omega), hf, hg, List.append_nil, List.append_nil]

theorem totalLength_of_part {q : List UInt8} (hq : IsPacket q) {buf : List UInt8} {got : ℕ}
    (hgot : 4 ≤ got) (hpart : buf.take got = q.take got) : totalLength buf = q.length := by
  rw [hq.length]
  apply totalLength_congr
  have htake := congrArg (List.take 4) hpart
  rwa [List.take_take, List.take_take, Nat.min_eq_left hgot] at htake

/-- With more of one packet in the buffer: the packet, or a longer part of it. -/
theorem advance_part {q : List UInt8} (hq : IsPacket q) {buf : List UInt8} {got : ℕ}
    (hbuf : buf.length = 65535) (hgot : got ≤ q.length) (hpart : buf.take got = q.take got) :
    (advance d buf got).2 = (if got = q.length then some q else none) ∧
      (advance d buf got).1.Attached ∧ Buffered (advance d buf got).1 ∧
      inBuffer (advance d buf got).1 = if got = q.length then [] else q.take got := by
  have hheader := hq.header
  have hmax : q.length ≤ 65535 := hq.length ▸ totalLength_le q
  unfold advance
  by_cases hfour : got < 4
  · rw [if_pos hfour, if_neg (by omega), if_neg (by omega)]
    exact ⟨rfl, ⟨by simp, by simp⟩, ⟨hbuf, by omega⟩, hpart⟩
  · have hsize := totalLength_of_part hq (by omega) hpart
    dsimp only
    rw [if_neg hfour, hsize, if_neg (by omega)]
    by_cases hlt : got < q.length
    · rw [if_pos hlt, if_neg (by omega), if_neg (by omega)]
      exact ⟨rfl, ⟨by simp, by simp⟩, ⟨hbuf, by omega⟩, hpart⟩
    · have hend : got = q.length := by omega
      rw [if_neg hlt, if_pos hend, if_pos hend]
      rw [hend, List.take_length] at hpart
      refine ⟨congrArg some hpart, ?_⟩
      split
      · have hat := attached_sendToLoop buf q.length 0
        exact ⟨hat.1, buffered_sendToLoop hbuf _ _, hat.2⟩
      · exact ⟨⟨by simp, by simp⟩, ⟨hbuf, Nat.zero_le _⟩, inBuffer_read_zero buf⟩

theorem ReceiverInv.receive (hs : SenderInv packets done s) (h : ReceiverInv done out s)
    {receiver : ReceiverPoint} {chunk : List UInt8} {packet : Option (List UInt8)}
    (hst : Receiver.Step d s.receiver (.receive chunk packet) receiver)
    (hchunk : chunk <+: (s.bytes s.conn).drop (s.read s.conn)) :
    ReceiverInv done (out ++ packet.toList)
      { s with
        receiver
        read := Function.update s.read s.conn (s.read s.conn + chunk.length) } := by
  obtain ⟨sender, point, made, bytes, read, conn, next⟩ := s
  cases hst with
  | @receive buf got chunk hne hwanted =>
    have hat : (ReceiverPoint.read buf got).Attached := ⟨by simp, by simp⟩
    obtain ⟨hbuf, hgotmax⟩ : buf.length = 65535 ∧ got ≤ 65535 := h.buffered
    have haligned : (bytes conn).take (read conn) =
        (within (read conn) (onConn conn done)).flatten ++ buf.take got := h.aligned hat
    have hread : read conn ≤ (bytes conn).length := h.read_le conn
    have hlen : read conn + chunk.length ≤ (bytes conn).length := by
      have hle := hchunk.length_le
      rw [List.length_drop] at hle
      dsimp only at hle
      omega
    have hpos := List.length_pos_of_ne_nil hne
    obtain ⟨q, hq, hlt, hnext⟩ := (hs.stream conn).next (fun p hp => hp.ne_nil)
      (show read conn < (bytes conn).length by omega)
    dsimp only at hlt hnext
    -- what is in the buffer is the beginning of that packet
    have hgot : got = read conn - (within (read conn) (onConn conn done)).flatten.length := by
      have hlength := congrArg List.length haligned
      simp only [List.length_take, List.length_append] at hlength
      omega
    have hstart := within_length_le (read conn) (onConn conn done)
    have hpart : buf.take got = q.take got := by
      have hsame := (hnext (read conn) (Nat.le_refl _) hread (by omega)).1
      rw [haligned, ← hgot] at hsame
      exact List.append_cancel_left hsame
    have hheader := hq.header
    have hmore : got + chunk.length ≤ q.length := by
      unfold wanted at hwanted
      split at hwanted
      · omega
      · rw [totalLength_of_part hq (by omega) hpart] at hwanted
        omega
    have hmax : q.length ≤ 65535 := hq.length ▸ totalLength_le q
    obtain ⟨htake, hwithin⟩ := hnext (read conn + chunk.length) (by omega) hlen (by omega)
    have hsum : read conn + chunk.length -
        (within (read conn) (onConn conn done)).flatten.length = got + chunk.length := by omega
    rw [hsum] at htake
    have hpart' : (readInto buf got chunk).take (got + chunk.length) =
        q.take (got + chunk.length) := by
      rw [take_readInto (by omega)]
      have hsame : (within (read conn) (onConn conn done)).flatten ++ (buf.take got ++ chunk) =
          (within (read conn) (onConn conn done)).flatten ++ q.take (got + chunk.length) := by
        rw [← htake, ← List.append_assoc, ← haligned, List.take_add]
        congr 1
        exact List.prefix_iff_eq_take.1 hchunk
      exact List.append_cancel_left hsame
    obtain ⟨hpacket, hattached, hbuffered, hin⟩ := advance_part (d := d) hq
      (by rw [length_readInto (by omega), hbuf]) hmore hpart'
    have hend : read conn + chunk.length =
        (within (read conn) (onConn conn done)).flatten.length + q.length ↔
        got + chunk.length = q.length := by omega
    simp only [hend] at hwithin
    have hconn : conn + 1 = next := h.conn hat
    have hmade : next ≤ made := h.next_le
    have hzero (c : ℕ) (hc : next ≤ c) : read c = 0 := h.unread c hc
    refine ⟨fun c => ?_, fun c hc => ?_, hmade, fun _ => hconn, hbuffered, fun _ => ?_, ?_⟩
    · by_cases hc : c = conn
      · subst hc
        simpa using hlen
      · simpa [hc] using h.read_le c
    · dsimp only at hc ⊢
      rw [Function.update_of_ne (by omega)]
      exact hzero c hc
    · dsimp only
      rw [Function.update_self, htake, hwithin, hin]
      by_cases hdone : got + chunk.length = q.length
      · rw [if_pos hdone, if_pos hdone, hdone]
        simp
      · rw [if_neg hdone, if_neg hdone]
    · have hext := h.extracted
      dsimp only at hext ⊢
      rw [hext, hpacket]
      refine (flatMap_range_concat (k := conn) (by omega) (fun c hc => ?_) ?_ fun c hc => ?_).symm
      · rw [Function.update_of_ne (by omega)]
      · rw [Function.update_self, hwithin]
        by_cases hdone : got + chunk.length = q.length
        · rw [if_pos hdone, if_pos hdone]
          rfl
        · rw [if_neg hdone, if_neg hdone]
          simp
      · have hnil : within 0 (onConn c done) = [] :=
          within_zero fun p hp => (good_of_stream (hs.stream c) p hp).ne_nil
        rw [Function.update_of_ne (by omega), hzero c (by omega)]
        exact ⟨hnil, hnil⟩

structure Inv (packets : List (List UInt8)) (es : List Event) (s : Net) : Prop where
  sender : SenderInv packets (completed es) s
  receiver : ReceiverInv (completed es) (extracted es) s

theorem inv_step (hp : ∀ p ∈ packets, IsPacket p) {es : List Event} {e : Event} {s s' : Net}
    (h : Inv packets es s) (hst : Net.Step d s e s') : Inv packets (es ++ [e]) s' := by
  obtain ⟨hs, hr⟩ := h
  refine ⟨?_, ?_⟩ <;> rw [completed_concat] <;> try rw [extracted_concat]
  · cases hst with
    | localSender hst => simpa only [Event.completed, List.append_nil] using hs.silent hst
    | connect hst => simpa only [Event.completed, List.append_nil] using hs.connect hst
    | send hst => exact hs.send hp hst
    | localReceiver | sendTo | accept | receive =>
      simpa only [Event.completed, List.append_nil] using hs.receiver _ _ _ _
  · have hfresh (c : ℕ) (hc : s.made ≤ c) := (hs.fresh c hc).2
    cases hst with
    | localSender hst =>
      simpa only [Event.completed, Event.extracted, List.append_nil] using
        hr.sender (fun c => List.prefix_rfl) (fun c => rfl) (Nat.le_refl _) hfresh
    | connect hst =>
      simpa only [Event.completed, Event.extracted, List.append_nil] using
        hr.sender (fun c => List.prefix_rfl) (fun c => rfl) (Nat.le_succ _) hfresh
    | send hst =>
      simpa only [Event.completed, Event.extracted, List.append_nil] using hr.send hs hst
    | localReceiver hst =>
      simpa only [Event.completed, Event.extracted, List.append_nil] using hr.silent hst
    | sendTo hst =>
      simpa only [Event.completed, Event.extracted, List.append_nil] using hr.sendTo hst
    | @accept receiver conn hst hnext hmade =>
      have hgood (p : List UInt8) (hmem : p ∈ onConn conn (completed es)) : p ≠ [] :=
        (good_of_stream (hs.stream conn) p hmem).ne_nil
      simpa only [Event.completed, Event.extracted, List.append_nil] using
        hr.accept hst hnext hmade hgood
    | receive hst hchunk =>
      simpa only [Event.completed, Event.extracted, List.append_nil] using
        hr.receive hs hst hchunk

theorem inv_run (hp : ∀ p ∈ packets, IsPacket p) {es : List Event} {s : Net}
    (h : Run (Net.Step d) (.start packets) es s) : Inv packets es s := by
  have hstart : Inv packets [] (.start packets) :=
    ⟨senderInv_start packets, receiverInv_start packets⟩
  have hrun : Inv packets ([] ++ es) s :=
    Run.history (fun _ _ _ _ hinv hst => inv_step hp hinv hst) h hstart
  rwa [List.nil_append] at hrun

/-- The receiver's packets are those that were completely sent and read, in order and each once;
no error of either side shifts or merges any. -/
theorem framing_exact (d : Direction) {packets : List (List UInt8)}
    (hp : ∀ p ∈ packets, IsPacket p) {es : List Event} {s : Net}
    (h : Run (Net.Step d) (.start packets) es s) :
    extracted es = ((List.range s.made).flatMap fun c => within (s.read c) (sentOn c es)) ∧
      (extracted es).Sublist ((completed es).map Prod.snd) ∧
      ((completed es).map Prod.snd).Sublist packets ∧
      (completed es).map Prod.snd = ((List.range s.made).flatMap fun c => sentOn c es) ∧
      ∀ c, Stream IsPacket (s.bytes c) (sentOn c es) ∧ s.read c ≤ (s.bytes c).length := by
  obtain ⟨hs, hr⟩ := inv_run hp h
  refine ⟨hr.extracted, ?_, ?_, hs.ordered, fun c => ⟨hs.stream c, hr.read_le c⟩⟩
  · rw [hr.extracted, hs.ordered]
    exact List.Sublist.flatMap_right _ fun c _ => (within_initial _ _).sublist
  · exact (List.sublist_append_left _ _).trans hs.delivered

def twoPackets : List (List UInt8) :=
  [[69, 0, 0, 20] ++ List.replicate 16 0, [69, 0, 0, 21] ++ List.replicate 17 0]

/-- The send of the first packet fails in the middle of it, on the second connection; the second
packet goes over the third one and is read in two parts. -/
theorem framing_exact_sample :
    ∃ es s, Run (Net.Step (.incoming "0.0.0.0")) (.start twoPackets) es s ∧
      extracted es = twoPackets.drop 1 ∧ s.bytes 1 = [69, 0, 0, 20] ++ List.replicate 6 0 ∧
      extracted es = ((List.range s.made).flatMap fun c => within (s.read c) (sentOn c es)) ∧
      (extracted es).Sublist ((completed es).map Prod.snd) ∧
      ((completed es).map Prod.snd).Sublist twoPackets ∧
      (completed es).map Prod.snd = ((List.range s.made).flatMap fun c => sentOn c es) ∧
      ∀ c, Stream IsPacket (s.bytes c) (sentOn c es) ∧ s.read c ≤ (s.bytes c).length := by
  have hpackets : ∀ p ∈ twoPackets, IsPacket p := by
    intro p hp
    rcases List.mem_pair.1 hp with rfl | rfl
    all_goals exact ⟨by decide, by decide⟩
  have hrun : ∃ es s, Run (Net.Step (.incoming "0.0.0.0")) (.start twoPackets) es s ∧
      extracted es = twoPackets.drop 1 ∧ s.bytes 1 = [69, 0, 0, 20] ++ List.replicate 6 0 := by
    refine ⟨_, _, .cons (.connect .connectFailed) (.cons (.connect .connect)
      (.cons (.localSender .recv)
      (.cons (.send (@Sender.Step.send _ _ _ 10 (by decide)))
      (.cons (.localSender .sendFailed)
      (.cons (.connect .connect)
      (.cons (.localSender .recv)
      (.cons (.send (@Sender.Step.send _ _ _ 21 (by decide)))
      (.cons (@Net.Step.accept _ _ _ 1 .accept (by decide) (by decide))
      (.cons (.receive (@Receiver.Step.receive _ _ _ [69, 0, 0, 20] (by decide) (by decide))
        (by decide))
      (.cons (.receive (@Receiver.Step.receive _ _ _ (List.replicate 6 0) (by decide)
        (by decide)) (by decide))
      (.cons (.localReceiver .readFailed)
      (.cons (@Net.Step.accept _ _ _ 2 .accept (by decide) (by decide))
      (.cons (.receive (@Receiver.Step.receive _ _ _ [69, 0, 0, 21] (by decide) (by decide))
        (by decide))
      (.cons (.receive (@Receiver.Step.receive _ _ _ (List.replicate 17 0) (by decide)
        (by decide)) (by decide)) (.nil _))))))))))))))), ?_, ?_⟩
    · decide
    · decide
  obtain ⟨es, s, hrun, hout, hcut⟩ := hrun
  exact ⟨es, s, hrun, hout, hcut, framing_exact _ hpackets hrun⟩

end Oyster.RawProxy
