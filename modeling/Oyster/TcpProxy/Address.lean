import Mathlib.Algebra.Order.Ring.Nat
import Mathlib.Data.List.TakeDrop
import Oyster.Lib.Decimal

namespace Oyster.TcpProxy

open Decimal

abbrev Bytes := List UInt8

structure VsockAddr where
  cid : ℕ
  port : ℕ
deriving DecidableEq, Repr

inductive VsockAddrParseError where
  | splitError
  | cidParseError (e : IntErrorKind)
  | portParseError (e : IntErrorKind)
deriving DecidableEq, Repr

/-- `split_once`: at the first of them. -/
def splitOnce (delimiter : Char) : List Char → Option (List Char × List Char)
  | [] => none
  | c :: cs =>
    if c = delimiter then some ([], cs)
    else (splitOnce delimiter cs).map fun (before, after) => (c :: before, after)

/-- `str::parse::<u32>`. -/
def parseU32 (src : List Char) : Except IntErrorKind ℕ := fromStr (2 ^ 32) src

def splitVsock (addr : String) : Except VsockAddrParseError VsockAddr := do
  let (cid, port) ← match splitOnce ':' addr.toList with
    | none => .error .splitError
    | some parts => .ok parts
  let cid ← (parseU32 cid).mapError .cidParseError
  let port ← (parseU32 port).mapError .portParseError
  return ⟨cid, port⟩

inductive ErrorKind where
  | invalidUtf8
  | valueValidation
deriving DecidableEq, Repr

/-- `VsockAddrParser::parse_ref` of the init server. A value that is no UTF-8 is `none`. -/
def parseRef (value : Option String) : Except ErrorKind (ℕ × ℕ) := do
  let value ← match value with
    | none => .error .invalidUtf8
    | some value => .ok value
  let (cid, port) ← match splitOnce ':' value.toList with
    | none => .error .valueValidation
    | some parts => .ok parts
  let cid ← (parseU32 cid).mapError fun _ => .valueValidation
  let port ← (parseU32 port).mapError fun _ => .valueValidation
  return (cid, port)

/-- The four octets. -/
structure Ipv4Addr where
  a : UInt8
  b : UInt8
  c : UInt8
  d : UInt8
deriving DecidableEq, Repr

/-- `u32::from(Ipv4Addr)`. -/
def Ipv4Addr.toU32 (ip : Ipv4Addr) : ℕ :=
  ip.a.toNat * 2 ^ 24 + ip.b.toNat * 2 ^ 16 + ip.c.toNat * 2 ^ 8 + ip.d.toNat

/-- `Ipv4Addr::from(u32)`. -/
def Ipv4Addr.ofU32 (bits : ℕ) : Ipv4Addr :=
  ⟨.ofNat (bits >>> 24), .ofNat (bits >>> 16), .ofNat (bits >>> 8), .ofNat bits⟩

inductive SocketAddr where
  | v4 (ip : Ipv4Addr) (port : UInt16)
  | v6 (segments : List UInt16) (port : UInt16) (flowinfo scopeId : UInt32)
deriving DecidableEq, Repr

def SocketAddr.port : SocketAddr → UInt16
  | v4 _ port | v6 _ port _ _ => port

/-- A little-endian number, as it is in memory. -/
def ofLe (bs : Bytes) : ℕ := bs.foldr (fun b n => b.toNat + 256 * n) 0

/-- `from_be` of a number that was read as little-endian. -/
def swap (bs : Bytes) : ℕ := ofLe bs.reverse

def afInet : ℕ := 2

def afInet6 : ℕ := 10

/-- `mk_addr` over the bytes of a `sockaddr_storage`; `none` is a failed assertion. -/
def mkAddr (storage : Bytes) (len : ℕ) : Option (Except String SocketAddr) :=
  let field (i n : ℕ) := (storage.drop i).take n
  if ofLe (field 0 2) = afInet then
    -- `sockaddr_in`: the port and the address in network order
    if 16 ≤ len then
      let bits := swap (field 4 4)
      some (.ok (.v4 ⟨.ofNat (bits >>> 24), .ofNat (bits >>> 16), .ofNat (bits >>> 8),
        .ofNat bits⟩ (.ofNat (swap (field 2 2)))))
    else none
  else if ofLe (field 0 2) = afInet6 then
    if 28 ≤ len then
      let segment (i : ℕ) := UInt16.ofNat (swap (field (8 + 2 * i) 2))
      some (.ok (.v6 ((List.range 8).map segment) (.ofNat (swap (field 2 2)))
        (.ofNat (ofLe (field 4 4))) (.ofNat (ofLe (field 24 4)))))
    else none
  else some (.error "invalid argument")

/-- `get_original_dst` over what `getsockopt` answers: the storage and its length, or an error. An
assertion that fails ends the connection as well. -/
def getOriginalDst (answer : Option (Bytes × ℕ)) : Option SocketAddr :=
  answer.bind fun (storage, len) => (mkAddr storage len).bind Except.toOption

/-- What the kernel writes for an address of the internet family, in the room of a
`sockaddr_storage`. -/
def sockaddrIn (ip : Ipv4Addr) (port : UInt16) : Bytes :=
  [2, 0] ++ [.ofNat (port.toNat / 256), .ofNat port.toNat] ++ [ip.a, ip.b, ip.c, ip.d] ++
    List.replicate 120 0

/-- `write_u32_le` of the address and `write_u16_le` of the port. -/
def toLe (n : ℕ) : ℕ → Bytes
  | 0 => []
  | k + 1 => .ofNat n :: toLe (n / 256) k

/-- The original destination ahead of the data; there is none for the other family. -/
def header : SocketAddr → Option Bytes
  | .v4 ip port => some (toLe ip.toU32 4 ++ toLe port.toNat 2)
  | .v6 .. => none

/-- `read_u32_le` and `read_u16_le`. -/
def readHeader (bs : Bytes) : SocketAddr :=
  .v4 (.ofU32 (ofLe (bs.take 4))) (.ofNat (ofLe (bs.drop 4)))

variable {delimiter : Char} {cs before after : List Char} {addr : String}

theorem splitOnce_eq_none : splitOnce delimiter cs = none ↔ delimiter ∉ cs := by
  induction cs with
  | nil => simp [splitOnce]
  | cons c cs ih =>
    rw [splitOnce, List.mem_cons, not_or, ← ih]
    by_cases h : c = delimiter
    · simp [h]
    · simp [h, Ne.symm h]

theorem splitOnce_eq_some :
    splitOnce delimiter cs = some (before, after) ↔
      cs = before ++ delimiter :: after ∧ delimiter ∉ before := by
  induction cs generalizing before after with
  | nil => simp [splitOnce]
  | cons c cs ih =>
    rw [splitOnce]
    by_cases h : c = delimiter
    · subst h
      cases before with
      | nil => simp
      | cons b before =>
        simp only [↓reduceIte, Option.some.injEq, Prod.mk.injEq, List.nil_eq, reduceCtorEq,
          List.cons_append, List.cons.injEq, List.mem_cons, false_and, not_or]
        exact iff_of_false id fun h => h.2.1 h.1.1
    · rw [if_neg h]
      cases before with
      | nil => simp [h]
      | cons b before =>
        simp only [Option.map_eq_some_iff, Prod.exists, Prod.mk.injEq, List.cons.injEq, ih,
          List.cons_append, List.mem_cons, not_or]
        constructor
        · rintro ⟨_, _, ⟨rfl, hmem⟩, ⟨rfl, rfl⟩, rfl⟩
          exact ⟨⟨rfl, rfl⟩, Ne.symm h, hmem⟩
        · rintro ⟨⟨rfl, rfl⟩, -, hmem⟩
          exact ⟨before, after, ⟨rfl, hmem⟩, ⟨rfl, rfl⟩, rfl⟩

theorem Numeral.not_mem {src : List Char} {n : ℕ} (h : Numeral src n) : ':' ∉ src := by
  obtain ⟨digits, hsrc, -, hdigits, -⟩ := h
  have hcolon : ':' ∉ digits := fun hmem => absurd (hdigits _ hmem) (by decide)
  rcases hsrc with rfl | rfl
  · exact hcolon
  · simp [hcolon]

def Written (addr : List Char) (v : VsockAddr) : Prop :=
  ∃ cid port, addr = cid ++ ':' :: port ∧ Numeral cid v.cid ∧ Numeral port v.port ∧
    v.cid < 2 ^ 32 ∧ v.port < 2 ^ 32

theorem parseU32_ok {src : List Char} {n : ℕ} :
    parseU32 src = .ok n ↔ Numeral src n ∧ n < 2 ^ 32 := fromStr_ok (by decide)

theorem parts_ok {cid port : List Char} {n m : ℕ} (hs : splitOnce ':' cs = some (cid, port)) :
    Written cs ⟨n, m⟩ ↔ parseU32 cid = .ok n ∧ parseU32 port = .ok m := by
  obtain ⟨rfl, hcid⟩ := splitOnce_eq_some.1 hs
  rw [parseU32_ok, parseU32_ok]
  constructor
  · rintro ⟨cid', port', heq, hn, hm, hlt, hlt'⟩
    -- a numeral has no colon, so these are the same parts
    have hparts := splitOnce_eq_some.2 ⟨heq, Numeral.not_mem hn⟩
    rw [hs] at hparts
    cases hparts
    exact ⟨⟨hn, hlt⟩, hm, hlt'⟩
  · rintro ⟨⟨hn, hlt⟩, hm, hlt'⟩
    exact ⟨cid, port, rfl, hn, hm, hlt, hlt'⟩

theorem Written.splitOnce {v : VsockAddr} (h : Written cs v) :
    ∃ parts, splitOnce ':' cs = some parts := by
  obtain ⟨cid, port, hcs, hn, -⟩ := h
  exact ⟨(cid, port), splitOnce_eq_some.2 ⟨hcs, Numeral.not_mem hn⟩⟩

/-- Accepted is exactly what is written as a cid and a port that fit, and both parsers of such
addresses read the same from it. -/
theorem splitVsock_exact (addr : String) (v : VsockAddr) :
    (splitVsock addr = .ok v ↔ Written addr.toList v) ∧
      (parseRef (some addr) = .ok (v.cid, v.port) ↔ Written addr.toList v) ∧
      (splitVsock addr = .error .splitError ↔ ':' ∉ addr.toList) := by
  obtain ⟨n, m⟩ := v
  cases hs : splitOnce ':' addr.toList with
  | none =>
    have hnot : ¬Written addr.toList ⟨n, m⟩ := by
      intro h
      obtain ⟨parts, hparts⟩ := h.splitOnce
      exact nomatch hs.symm.trans hparts
    have hcolon := splitOnce_eq_none.1 hs
    simp [splitVsock, parseRef, hs, bind, Except.bind, hnot, hcolon]
  | some parts =>
    obtain ⟨cid, port⟩ := parts
    have hcolon : ':' ∈ addr.toList := by
      by_contra h
      exact nomatch hs.symm.trans (splitOnce_eq_none.2 h)
    rw [parts_ok hs]
    cases hcid : parseU32 cid with
    | error e => simp [splitVsock, parseRef, hs, hcid, bind, Except.bind, Except.mapError, hcolon]
    | ok x =>
      cases hport : parseU32 port
      all_goals
        simp [splitVsock, parseRef, hs, hcid, hport, bind, Except.bind, Except.mapError, hcolon,
          pure, Except.pure]

theorem toLe_length (n k : ℕ) : (toLe n k).length = k := by
  induction k generalizing n with
  | zero => rfl
  | succ k ih => rw [toLe, List.length_cons, ih]

theorem ofLe_toLe (n k : ℕ) : ofLe (toLe n k) = n % 256 ^ k := by
  induction k generalizing n with
  | zero => rw [Nat.pow_zero, Nat.mod_one]; rfl
  | succ k ih =>
    rw [toLe, ofLe, List.foldr_cons, ← ofLe, ih, Nat.pow_succ', Nat.mod_mul,
      UInt8.toNat_ofNat']

theorem Ipv4Addr.toU32_lt (ip : Ipv4Addr) : ip.toU32 < 2 ^ 32 := by
  have ha := ip.a.toNat_lt
  have hb := ip.b.toNat_lt
  have hc := ip.c.toNat_lt
  have hd := ip.d.toNat_lt
  unfold Ipv4Addr.toU32
  omega

theorem Ipv4Addr.ofU32_toU32 (ip : Ipv4Addr) : Ipv4Addr.ofU32 ip.toU32 = ip := by
  obtain ⟨a, b, c, d⟩ := ip
  have ha := a.toNat_lt
  have hb := b.toNat_lt
  have hc := c.toNat_lt
  have hd := d.toNat_lt
  simp only [Ipv4Addr.ofU32, Ipv4Addr.toU32, Ipv4Addr.mk.injEq, Nat.shiftRight_eq_div_pow]
  refine ⟨?_, ?_, ?_, ?_⟩
  all_goals
    apply UInt8.toNat_inj.1
    rw [UInt8.toNat_ofNat']
    omega

/-- What one transparent proxy writes ahead of the data, the other one reads as the address. -/
theorem readHeader_header {addr : SocketAddr} {bs : Bytes} (h : header addr = some bs) :
    readHeader bs = addr := by
  cases addr with
  | v6 => cases h
  | v4 ip port =>
    cases h
    have hip : ip.toU32 < 256 ^ 4 := ip.toU32_lt
    have hport : port.toNat < 256 ^ 2 := port.toNat_lt
    rw [readHeader, List.take_left' (toLe_length _ 4), List.drop_left' (toLe_length _ 4),
      ofLe_toLe, ofLe_toLe, Nat.mod_eq_of_lt hip, Nat.mod_eq_of_lt hport, Ipv4Addr.ofU32_toU32,
      UInt16.ofNat_toNat]

theorem header_length {addr : SocketAddr} {bs : Bytes} (h : header addr = some bs) :
    bs.length = 6 := by
  cases addr with
  | v6 => cases h
  | v4 ip port =>
    cases h
    rw [List.length_append, toLe_length, toLe_length]

/-- The address of a redirected connection is read back as the kernel wrote it. -/
theorem mkAddr_sockaddrIn {ip : Ipv4Addr} {port : UInt16} {len : ℕ} (hlen : 16 ≤ len) :
    mkAddr (sockaddrIn ip port) len = some (.ok (.v4 ip port)) := by
  have hport := port.toNat_lt
  have hfamily : ofLe (((sockaddrIn ip port).drop 0).take 2) = afInet := rfl
  have hbits : swap (((sockaddrIn ip port).drop 4).take 4) = ip.toU32 := by
    simp only [sockaddrIn, swap, ofLe, List.cons_append, List.nil_append, List.drop_succ_cons,
      List.drop_zero, List.take_succ_cons, List.take_zero, List.reverse_cons, List.reverse_nil,
      List.foldr_cons, List.foldr_nil, Ipv4Addr.toU32]
    omega
  have hswap : swap (((sockaddrIn ip port).drop 2).take 2) = port.toNat := by
    simp only [sockaddrIn, swap, ofLe, List.cons_append, List.nil_append, List.drop_succ_cons,
      List.drop_zero, List.take_succ_cons, List.take_zero, List.reverse_cons, List.reverse_nil,
      List.foldr_cons, List.foldr_nil, UInt8.toNat_ofNat']
    omega
  simp only [mkAddr, hfamily, if_true, if_pos hlen, hbits, hswap, UInt16.ofNat_toNat]
  exact congrArg (fun ip => some (Except.ok (SocketAddr.v4 ip port))) ip.ofU32_toU32

theorem getOriginalDst_sockaddrIn {ip : Ipv4Addr} {port : UInt16} {len : ℕ} (hlen : 16 ≤ len) :
    getOriginalDst (some (sockaddrIn ip port, len)) = some (.v4 ip port) := by
  rw [getOriginalDst, Option.bind_some]
  dsimp only
  rw [mkAddr_sockaddrIn hlen]
  rfl

end Oyster.TcpProxy
