import Oyster.Lib.Flow
import Oyster.Lib.Run
import Oyster.TcpProxy.Address

/-!
A client's connection is taken by a proxy that listens on an ip address and carried over vsock to
one that listens there, which connects to the server. Each proxy runs a `transfer` for the
connection: two copies at once, each of which shuts its destination once its source has ended.

The bytes of either direction pass six places: the socket of the sender, the hand of one transfer,
the vsock connection, the hand of the other one, the socket of the receiver, and what that has
read. The steps of the client, the transfers and the server come in any order.
-/

namespace Oyster.TcpProxy

open Oyster.Flow

/-- What `transfer` of a proxy that listens on an ip address does before it copies, by the
original destination of the connection. -/
structure IpSide where
  dial : Option SocketAddr → Option VsockAddr
  header : Option SocketAddr → Option Bytes

def ipToVsock (serverAddr : VsockAddr) : IpSide where
  dial _ := some serverAddr
  header _ := some []

def ipToVsockTransparent (serverAddr : VsockAddr) : IpSide where
  dial origDst := origDst.map fun _ => serverAddr
  header origDst := origDst.bind header

def portToVsockTransparent (cid : ℕ) : IpSide where
  dial origDst := origDst.map fun origDst => ⟨cid, origDst.port.toNat⟩
  header _ := some []

/-- What `transfer` of a proxy that listens on vsock reads before it connects, and where to. -/
structure VsockSide (A : Type) where
  headerLen : ℕ
  target : Bytes → A

def vsockToIp {A : Type} (serverAddr : A) : VsockSide A where
  headerLen := 0
  target _ := serverAddr

def vsockToIpTransparent : VsockSide SocketAddr where
  headerLen := 6
  target := readHeader

/-- A connection: the two proxies, its original destination, and the room of the places that the
bytes of either direction pass. -/
structure Conn (A : Type) where
  outer : IpSide
  inner : VsockSide A
  origDst : Option SocketAddr
  upRoom : ℕ → ℕ∞
  downRoom : ℕ → ℕ∞

/-- Where the transfer of the ip side is. -/
inductive Outer where
  | accepted
  | header
  | copying
  | done
  | failed
deriving DecidableEq

/-- Where the transfer of the vsock side is. -/
inductive Inner (A : Type) where
  | waiting
  | header
  | connecting (addr : A)
  | copying
  | done
  | failed

/-- The transfers, the vsock address that was dialled and the server that was connected to, the
two lines of bytes, all that the client and the server have sent, and what is ahead of the bytes
of the client. -/
structure Net (A : Type) where
  outer : Outer := .accepted
  inner : Inner A := .waiting
  dialled : Option VsockAddr := none
  server : Option A := none
  up : Line UInt8
  down : Line UInt8
  sentUp : Bytes := []
  sentDown : Bytes := []
  ahead : Bytes

variable {A : Type}

def fresh (cap : ℕ∞) : Place UInt8 := ⟨cap, [], false⟩

def Conn.first (c : Conn A) : Bytes := (c.outer.header c.origDst).getD []

/-- What the transfer has to write first is in its hand. The line to the server goes as far as
there are connections. -/
def Conn.start (c : Conn A) : Net A where
  up := [fresh (c.upRoom 0), ⟨c.upRoom 1, c.first, false⟩]
  down := (List.range 5).map (fresh ∘ c.downRoom) ++ [fresh ⊤]
  ahead := c.first

inductive Event where
  | ends
  | goes
  | fails
deriving DecidableEq

/-- A reset connection loses what was on it, and the one that fails drops both of its own. -/
inductive Step (c : Conn A) : Net A → Event → Net A → Prop
  -- the client and the server
  | clientSends {n : Net A} {p : Place UInt8} {l : Line UInt8} {xs : Bytes} :
      n.up = p :: l → p.closed = false →
      Step c n .ends { n with up := send xs n.up, sentUp := n.sentUp ++ xs }
  | clientFinishes {n : Net A} :
      Step c n .ends { n with up := finish n.up }
  | serverSends {n : Net A} {p : Place UInt8} {l : Line UInt8} {xs : Bytes} {addr : A} :
      n.server = some addr → n.down = p :: l → p.closed = false →
      Step c n .ends { n with down := send xs n.down, sentDown := n.sentDown ++ xs }
  | serverFinishes {n : Net A} {addr : A} :
      n.server = some addr → Step c n .ends { n with down := finish n.down }
  | serverReads {n : Net A} {l : Line UInt8} :
      Flows 4 n.up l → Step c n .goes { n with up := l }
  | clientReads {n : Net A} {l : Line UInt8} :
      Flows 4 n.down l → Step c n .goes { n with down := l }
  -- the transfer of the ip side
  | dial {n : Net A} {addr : VsockAddr} :
      n.outer = .accepted → c.outer.dial c.origDst = some addr →
      Step c n .goes { n with
        outer := .header, dialled := some addr
        up := n.up ++ [fresh (c.upRoom 2), fresh (c.upRoom 3)] }
  | writeHeader {n : Net A} {l : Line UInt8} :
      n.outer = .header → Flows 1 n.up l → Step c n .goes { n with up := l }
  | headerWritten {n : Net A} {header : Bytes} {p q : Place UInt8} {l : Line UInt8} :
      n.outer = .header → c.outer.header c.origDst = some header → n.up = p :: q :: l →
      q.items = [] → Step c n .goes { n with outer := .copying }
  | outerUp {n : Net A} {i : ℕ} {l : Line UInt8} :
      n.outer = .copying → i = 0 ∨ i = 1 → Flows i n.up l → Step c n .goes { n with up := l }
  | outerDown {n : Net A} {i : ℕ} {l : Line UInt8} :
      n.outer = .copying → i = 2 ∨ i = 3 → Flows i n.down l → Step c n .goes { n with down := l }
  | outerDone {n : Net A} :
      n.outer = .copying → closedAt 2 n.up → closedAt 4 n.down →
      Step c n .goes { n with outer := .done }
  | outerRefused {n : Net A} {l : Line UInt8} :
      n.outer = .accepted → Cut 3 n.down l →
      Step c n .fails { n with outer := .failed, down := l }
  | outerFails {n : Net A} {l l' : Line UInt8} :
      n.outer = .header ∨ n.outer = .copying → Cut 1 n.up l → Cut 3 n.down l' →
      Step c n .fails { n with outer := .failed, up := l, down := l' }
  -- the transfer of the vsock side
  | accept {n : Net A} {addr : VsockAddr} :
      n.inner = .waiting → n.dialled = some addr → Step c n .goes { n with inner := .header }
  | readHeader {n : Net A} {l : Line UInt8} :
      n.inner = .header → Flows 2 n.up l → (received l).length ≤ c.inner.headerLen →
      ended l = false → Step c n .goes { n with up := l }
  | headerRead {n : Net A} {header : Bytes} {l : Line UInt8} :
      n.inner = .header → Strip header 3 n.up l → header.length = c.inner.headerLen →
      Step c n .goes { n with
        inner := .connecting (c.inner.target header), up := l, ahead := [] }
  | connect {n : Net A} {addr : A} :
      n.inner = .connecting addr →
      Step c n .goes { n with
        inner := .copying, server := some addr
        up := n.up ++ [fresh (c.upRoom 4), fresh ⊤] }
  | innerUp {n : Net A} {i : ℕ} {l : Line UInt8} :
      n.inner = .copying → i = 2 ∨ i = 3 → Flows i n.up l → Step c n .goes { n with up := l }
  | innerDown {n : Net A} {i : ℕ} {l : Line UInt8} :
      n.inner = .copying → i = 0 ∨ i = 1 → Flows i n.down l → Step c n .goes { n with down := l }
  | innerDone {n : Net A} :
      n.inner = .copying → closedAt 4 n.up → closedAt 2 n.down →
      Step c n .goes { n with inner := .done }
  | innerRefused {n : Net A} {l : Line UInt8} :
      n.inner = .header ∨ (∃ addr, n.inner = .connecting addr) → Cut 1 n.down l →
      Step c n .fails { n with inner := .failed, down := l }
  | innerFails {n : Net A} {l l' : Line UInt8} :
      n.inner = .copying → Cut 3 n.up l → Cut 1 n.down l' →
      Step c n .fails { n with inner := .failed, up := l, down := l' }

/-- A state of some run. -/
def Reached (c : Conn A) (n : Net A) : Prop := ∃ es, Run (Step c) c.start es n

/-- Neither transfer has failed. -/
def Net.Sound (n : Net A) : Prop := n.outer ≠ .failed ∧ n.inner ≠ .failed

variable {c : Conn A} {n n' : Net A} {e : Event}

theorem Step.down (h : Step c n e n') :
    Moves n.sentDown n.down n'.sentDown n'.down ∨
      ∃ i, Cut i n.down n'.down ∧ n'.sentDown = n.sentDown ∧ ¬n'.Sound := by
  cases h with
  | serverSends _ hdown hopen => exact .inl (hdown ▸ .send hopen)
  | serverFinishes =>
    refine .inl ?_
    cases n.down with
    | nil => exact .stay
    | cons => exact .finish
  | clientReads h => exact .inl (.flows h)
  | outerDown _ _ h => exact .inl (.flows h)
  | innerDown _ _ h => exact .inl (.flows h)
  | outerRefused _ h => exact .inr ⟨3, h, rfl, fun hs => hs.1 rfl⟩
  | outerFails _ _ h => exact .inr ⟨3, h, rfl, fun hs => hs.1 rfl⟩
  | innerRefused _ h => exact .inr ⟨1, h, rfl, fun hs => hs.2 rfl⟩
  | innerFails _ _ h => exact .inr ⟨1, h, rfl, fun hs => hs.2 rfl⟩
  | _ => exact .inl .stay

theorem Step.up (h : Step c n e n') :
    (Moves n.sentUp n.up n'.sentUp n'.up ∧ n'.ahead = n.ahead) ∨
      (∃ i, Cut i n.up n'.up ∧ n'.sentUp = n.sentUp ∧ n'.ahead = n.ahead ∧ ¬n'.Sound) ∨
      ∃ header, n.inner = .header ∧ Strip header 3 n.up n'.up ∧
        header.length = c.inner.headerLen ∧ n'.sentUp = n.sentUp ∧ n'.ahead = [] := by
  have hfresh : ∀ x y : ℕ∞, Fresh [fresh x, fresh y] := by simp [Fresh, fresh]
  cases h with
  | clientSends hup hopen => exact .inl ⟨hup ▸ .send hopen, rfl⟩
  | clientFinishes =>
    refine .inl ⟨?_, rfl⟩
    cases n.up with
    | nil => exact .stay
    | cons => exact .finish
  | serverReads h => exact .inl ⟨.flows h, rfl⟩
  | dial => exact .inl ⟨.grow (hfresh _ _), rfl⟩
  | writeHeader _ h => exact .inl ⟨.flows h, rfl⟩
  | outerUp _ _ h => exact .inl ⟨.flows h, rfl⟩
  | outerFails _ h => exact .inr (.inl ⟨1, h, rfl, rfl, fun hs => hs.1 rfl⟩)
  | readHeader _ h => exact .inl ⟨.flows h, rfl⟩
  | headerRead hinner h hlen => exact .inr (.inr ⟨_, hinner, h, hlen, rfl, rfl⟩)
  | connect => exact .inl ⟨.grow (hfresh _ _), rfl⟩
  | innerUp _ _ h => exact .inl ⟨.flows h, rfl⟩
  | innerFails _ h => exact .inr (.inl ⟨3, h, rfl, rfl, fun hs => hs.2 rfl⟩)
  | _ => exact .inl ⟨.stay, rfl⟩

/-- There is no way back from a failure. -/
theorem Step.sound (h : Step c n e n') (hs : n'.Sound) : n.Sound := by
  obtain ⟨hout, hinn⟩ := hs
  cases h with
  | dial h | headerWritten h | outerDone h => exact ⟨by rw [h]; nofun, hinn⟩
  | accept h | headerRead h | connect h | innerDone h => exact ⟨hout, by rw [h]; nofun⟩
  | outerRefused | outerFails => exact absurd rfl hout
  | innerRefused | innerFails => exact absurd rfl hinn
  | _ => exact ⟨hout, hinn⟩

structure Shape (n : Net A) : Prop where
  accepted : n.outer = .accepted → n.dialled = none
  undialled : n.dialled = none → n.inner = .waiting
  early : (n.inner = .waiting ∨ n.inner = .header ∨ ∃ addr, n.inner = .connecting addr) →
    n.server = none
  late : n.inner = .copying ∨ n.inner = .done → n.server ≠ none
  up : n.up.length = 2 + 2 * n.dialled.toList.length + 2 * n.server.toList.length
  down : n.down.length = 6

theorem shape_start : Shape c.start where
  accepted _ := rfl
  undialled _ := rfl
  early _ := rfl
  late := by simp [Conn.start]
  up := rfl
  down := rfl

theorem Step.shape (h : Step c n e n') (hs : Shape n) : Shape n' := by
  obtain ⟨hacc, hund, hearly, hlate, hup, hdown⟩ := hs
  cases h with
  | clientSends | clientFinishes => exact ⟨hacc, hund, hearly, hlate, by simpa using hup, hdown⟩
  | serverSends | serverFinishes => exact ⟨hacc, hund, hearly, hlate, hup, by simpa using hdown⟩
  | serverReads h | writeHeader _ h | outerUp _ _ h | readHeader _ h | innerUp _ _ h =>
    exact ⟨hacc, hund, hearly, hlate, h.length.trans hup, hdown⟩
  | clientReads h | outerDown _ _ h | innerDown _ _ h =>
    exact ⟨hacc, hund, hearly, hlate, hup, h.length.trans hdown⟩
  | dial hout =>
    refine ⟨nofun, nofun, hearly, hlate, ?_, hdown⟩
    have hnone := hacc hout
    rw [hnone] at hup
    simp [hup]
    omega
  | headerWritten | outerDone => exact ⟨nofun, hund, hearly, hlate, hup, hdown⟩
  | outerRefused _ h => exact ⟨nofun, hund, hearly, hlate, hup, h.length.trans hdown⟩
  | outerFails _ h h' =>
    exact ⟨nofun, hund, hearly, hlate, h.length.trans hup, h'.length.trans hdown⟩
  | accept hin hdial =>
    refine ⟨hacc, fun hnone => ?_, fun _ => hearly (.inl hin), nofun, hup, hdown⟩
    exact nomatch hdial.symm.trans hnone
  | headerRead hin h =>
    refine ⟨hacc, fun hnone => ?_, fun _ => hearly (.inr (.inl hin)), nofun,
      h.length.trans hup, hdown⟩
    exact nomatch hin.symm.trans (hund hnone)
  | connect hin =>
    have hnone := hearly (.inr (.inr ⟨_, hin⟩))
    refine ⟨hacc, fun hnone => ?_, nofun, nofun, ?_, hdown⟩
    · exact nomatch hin.symm.trans (hund hnone)
    · rw [hnone] at hup
      simp [hup]
  | innerDone hin =>
    refine ⟨hacc, fun hnone => ?_, nofun, fun _ => hlate (.inl hin), hup, hdown⟩
    exact nomatch hin.symm.trans (hund hnone)
  | innerRefused hin h =>
    refine ⟨hacc, fun hnone => ?_, nofun, nofun, hup, h.length.trans hdown⟩
    rcases hin with hin | ⟨_, hin⟩
    all_goals exact nomatch hin.symm.trans (hund hnone)
  | innerFails hin h h' =>
    refine ⟨hacc, fun hnone => ?_, nofun, nofun, h.length.trans hup, h'.length.trans hdown⟩
    exact nomatch hin.symm.trans (hund hnone)

end Oyster.TcpProxy
