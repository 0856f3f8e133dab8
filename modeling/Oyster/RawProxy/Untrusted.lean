import Oyster.RawProxy.Input

namespace Oyster.RawProxy

def ipHeaderSize (buf : List UInt8) : ℕ := ((buf[0]?.getD 0).toNat % 16) * 4

def dstAddr (buf : List UInt8) : BitVec 32 :=
  BitVec.ofNat 32 (BigEndian.decode ((buf.drop 16).take 4))

def srcPort (buf : List UInt8) : ℕ := BigEndian.decode ((buf.drop (ipHeaderSize buf)).take 2)

def AllowedPort (port : ℕ) : Prop := port = 80 ∨ port = 443 ∨ 1024 ≤ port ∧ port ≤ 61439

/-- A packet that may leave, by its own bytes. -/
structure Permitted (ifaddr p : List UInt8) : Prop where
  header : 20 ≤ ipHeaderSize p ∧ ipHeaderSize p ≤ p.length
  src : (p.drop 12).take 4 = ifaddr
  dst : ∀ r ∈ reserved, dstAddr p &&& r.1 ≠ r.2
  portInside : ipHeaderSize p + 2 ≤ p.length
  port : AllowedPort (srcPort p)

/-- The header and the port behind it are in the packet. -/
def Fits (p : List UInt8) : Prop := 20 ≤ ipHeaderSize p ∧ ipHeaderSize p + 2 ≤ p.length

variable {ifaddr p rest input : List UInt8} {d : Direction} {es : List ReceiverAction}
  {ps : List (List UInt8)} {s s' : ReceiverPoint}

theorem forwards_outgoing_iff {buf : List UInt8} :
    (Direction.outgoing ifaddr).forwards buf = true ↔ (buf.drop 12).take 4 = ifaddr ∧
      (∀ r ∈ reserved, dstAddr buf &&& r.1 ≠ r.2) ∧ AllowedPort (srcPort buf) := by
  have hreserved : isReserved (dstAddr buf) = false ↔
      ∀ r ∈ reserved, dstAddr buf &&& r.1 ≠ r.2 := by
    simp [isReserved]
  rw [← hreserved]
  simp only [Direction.forwards, AllowedPort, srcPort, ipHeaderSize, dstAddr, Bool.and_eq_true,
    Bool.or_eq_true, beq_iff_eq, Bool.not_eq_true', decide_eq_true_eq, and_assoc, or_assoc]

theorem ipHeaderSize_append (hp : 4 ≤ p.length) : ipHeaderSize (p ++ rest) = ipHeaderSize p := by
  rw [ipHeaderSize, ipHeaderSize, List.getElem?_append_left (by omega)]

theorem ipHeaderSize_le (buf : List UInt8) : ipHeaderSize buf ≤ 60 := by
  unfold ipHeaderSize
  omega

theorem field_append {start n : ℕ} (h : start + n ≤ p.length) :
    ((p ++ rest).drop start).take n = (p.drop start).take n := by
  rw [List.drop_append_of_le_length (by omega), List.take_append_of_le_length]
  rw [List.length_drop]
  omega

theorem permitted_of_forwards (hfits : Fits p)
    (h : (Direction.outgoing ifaddr).forwards (p ++ rest) = true) : Permitted ifaddr p := by
  obtain ⟨hheader, hport⟩ := hfits
  obtain ⟨hsrc, hdst, hallowed⟩ := forwards_outgoing_iff.1 h
  rw [field_append (by omega)] at hsrc
  rw [srcPort, ipHeaderSize_append (by omega), field_append hport] at hallowed
  have hsame : dstAddr (p ++ rest) = dstAddr p := by
    rw [dstAddr, dstAddr, field_append (by omega)]
  rw [hsame] at hdst
  exact ⟨⟨hheader, by omega⟩, hsrc, hdst, hport, hallowed⟩

/-- Whatever comes in, every packet that is handed to the raw socket is the last one, whole or
from where a send broke off, and may leave. -/
def OutgoingSound (ifaddr input : List UInt8) : Prop :=
  ∀ es s (out : List UInt8) s', Connected (.outgoing ifaddr) es s → received es <+: input →
    Receiver.Step (.outgoing ifaddr) s (.sendTo out) s' →
    ∃ (ps : List (List UInt8)) (p : List UInt8), (∀ q ∈ ps, IsFrame q) ∧ IsFrame p ∧
      received es = ps.flatten ++ p ∧ out <:+ p ∧ Permitted ifaddr p

theorem send_of_sendTo {out : List UInt8} (h : Receiver.Step d s (.sendTo out) s') :
    ∃ buf size totalSent, s = .send buf size totalSent ∧ out = (buf.take size).drop totalSent := by
  cases h with
  | send | sendFailed => exact ⟨_, _, _, rfl, rfl⟩

theorem OutgoingSound.fits (h : OutgoingSound ifaddr input) (hps : ∀ q ∈ ps, IsFrame q)
    (hp : IsFrame p) (hin : ps.flatten ++ p <+: input)
    (hf : (Direction.outgoing ifaddr).forwards (leftIn (ps ++ [p])) = true) : Fits p := by
  obtain ⟨es, hconn, hreceived⟩ := receive_frames (d := .outgoing ifaddr) hps
  obtain ⟨es', hrun, hp', hsame⟩ := @receive_frame (.outgoing ifaddr) (leftIn ps) p hp
  rw [← leftIn_concat, judged, if_pos hf] at hrun
  have hboth : received (es ++ es') = ps.flatten ++ p := by
    rw [received_append, hreceived, hp']
  have hin' : received (es ++ es') <+: input := by rwa [hboth]
  obtain ⟨qs, q, hqs, hq, hlast, -, hpermitted⟩ :=
    h _ _ _ _ (hconn.append hrun hsame) hin' .sendFailed
  -- the packet that is handed over is the last one that came in
  rw [hboth] at hlast
  obtain ⟨-, rfl⟩ := frames_unique hps hqs hp hq hlast
  exact ⟨hpermitted.header.1, hpermitted.portInside⟩

theorem outgoingSound_iff (ifaddr input : List UInt8) : OutgoingSound ifaddr input ↔
    ∀ ps p, (∀ q ∈ ps, IsFrame q) → IsFrame p → ps.flatten ++ p <+: input →
      (Direction.outgoing ifaddr).forwards (leftIn (ps ++ [p])) = true → Fits p := by
  constructor
  · intro h ps p hps hp hin hf
    exact h.fits hps hp hin hf
  · intro h es s out s' hconn hin hst
    obtain ⟨buf, size, totalSent, rfl, rfl⟩ := send_of_sendTo hst
    obtain ⟨ps, p, hps, hp, hreceived, -, -, -, hbuf, hf, hbehind⟩ := hconn.located
    have hleft := hbehind ifaddr rfl
    rw [hleft] at hf
    have hfits := h ps p hps hp (hreceived ▸ hin) hf
    refine ⟨ps, p, hps, hp, hreceived, ?_, ?_⟩
    · rw [hbuf]
      exact List.drop_suffix totalSent p
    · rw [leftIn_concat] at hf
      exact permitted_of_forwards hfits hf

def goodPacket : List UInt8 :=
  [0x45, 0, 0, 24] ++ [0, 0, 0, 0, 64, 6, 0, 0] ++ [172, 31, 0, 9] ++ [9, 9, 9, 9] ++
    [1, 187, 1, 187]

/-- Four bytes behind a packet that may leave are handed over as a packet. -/
theorem outgoing_unsound_sample :
    ¬OutgoingSound [172, 31, 0, 9] (goodPacket ++ [0x45, 0, 0, 4]) := by
  intro h
  have hgood : ∀ q ∈ [goodPacket], IsFrame q :=
    List.forall_mem_singleton.2 ⟨by decide, by decide⟩
  have hshort : IsFrame [0x45, 0, 0, 4] := ⟨by decide, by decide⟩
  have hin : [goodPacket].flatten ++ [0x45, 0, 0, 4] <+: goodPacket ++ [0x45, 0, 0, 4] := by
    decide
  have hfits := h.fits hgood hshort hin (by rfl)
  exact absurd hfits.2 (by decide)

/-- `buf[start..stop]` does not panic. -/
def InRange (buf : List UInt8) (slice : ℕ × ℕ) : Prop :=
  slice.1 ≤ slice.2 ∧ slice.2 ≤ buf.length

/-- What the checks read of a packet that is all there. -/
def Direction.slices (buf : List UInt8) : Direction → List (ℕ × ℕ)
  | .incoming _ => [(16, 20)]
  | .outgoing _ => [(12, 16), (16, 20), (ipHeaderSize buf, ipHeaderSize buf + 2)]

/-- What is sliced for `got` bytes of a packet. -/
def slices (d : Direction) (buf : List UInt8) (got : ℕ) : List (ℕ × ℕ) :=
  (0, 4) :: if got < 4 then [] else
    (2, 4) :: (4, totalLength buf) :: if got < totalLength buf then [] else d.slices buf

def InRangeAt (d : Direction) : ReceiverPoint → ReceiverAction → Prop
  | .read buf got, .receive chunk _ =>
    ∀ slice ∈ slices d (readInto buf got chunk) (got + chunk.length),
      InRange (readInto buf got chunk) slice
  | .send buf size totalSent, .sendTo _ => InRange buf (totalSent, size)
  | _, _ => True

/-- Whatever comes in, no slice is out of range or inverted, and what comes in is no panic. -/
def Survives (d : Direction) (input : List UInt8) : Prop :=
  ∀ es s e s', Connected d es s → received (es ++ [e]) <+: input → Receiver.Step d s e s' →
    InRangeAt d s e ∧ (e.received ≠ [] → s' ≠ .panicked)

theorem slices_inRange {buf : List UInt8} {got : ℕ} (hlen : buf.length = 65535)
    (h : 4 ≤ got → 4 ≤ totalLength buf) : ∀ slice ∈ slices d buf got, InRange buf slice := by
  have hmax := totalLength_le buf
  have hheader := ipHeaderSize_le buf
  have hchecks : ∀ slice ∈ d.slices buf, InRange buf slice := by
    cases d with
    | incoming ip => simp [Direction.slices, InRange, hlen]
    | outgoing ifaddr =>
      simp only [Direction.slices, InRange, hlen, List.forall_mem_cons, List.not_mem_nil,
        IsEmpty.forall_iff, implies_true, and_true]
      omega
  unfold slices
  refine List.forall_mem_cons.2 ⟨⟨by decide, by rw [hlen]; decide⟩, ?_⟩
  split
  · exact nofun
  · refine List.forall_mem_cons.2 ⟨⟨by decide, by rw [hlen]; decide⟩, ?_⟩
    refine List.forall_mem_cons.2 ⟨⟨h (by omega), by rw [hlen]; exact hmax⟩, ?_⟩
    split
    · exact nofun
    · exact hchecks

theorem Survives.totalLength (h : Survives d input) (hps : ∀ q ∈ ps, IsFrame q)
    (hin : ps.flatten ++ rest <+: input) (hrest : 4 ≤ rest.length) :
    4 ≤ RawProxy.totalLength rest := by
  obtain ⟨es, hconn, hreceived⟩ := receive_frames (d := d) hps
  have hfour : (rest.take 4).length = 4 := by
    rw [List.length_take]
    omega
  have hne : rest.take 4 ≠ [] := by
    intro hnil
    rw [hnil] at hfour
    cases hfour
  have hwanted : (rest.take 4).length ≤ wanted (leftIn ps) 0 := hfour.le
  have hst := Receiver.Step.receive (d := d) hne hwanted
  have hin' : ps.flatten ++ rest.take 4 <+: input :=
    (List.prefix_append_right_inj _).2 (List.take_prefix 4 rest) |>.trans hin
  have hsafe := (h _ _ _ _ hconn (by rw [received_concat, hreceived]; exact hin') hst).1
  -- the second slice of the packet starts at its fifth byte
  have hslice := (hsafe (4, RawProxy.totalLength (readInto (leftIn ps) 0 (rest.take 4))) (by
    rw [slices, hfour]
    simp)).1
  have hsame : RawProxy.totalLength (readInto (leftIn ps) 0 (rest.take 4)) =
      RawProxy.totalLength rest := by
    apply totalLength_congr
    rw [readInto, hfour, List.take_zero, List.nil_append, List.take_append_of_le_length hfour.ge,
      List.take_take, Nat.min_self]
  rwa [hsame] at hslice

theorem advance_ne_panicked {buf : List UInt8} {got : ℕ} (h : 4 ≤ got → 4 ≤ totalLength buf) :
    (advance d buf got).1 ≠ .panicked := by
  unfold advance
  dsimp only
  by_cases hfour : got < 4
  · simp [hfour]
  · have hsize := h (by omega)
    rw [if_neg hfour, if_neg (by omega)]
    split
    · simp
    · unfold sendToLoop
      split
      · split
        · simp
        · simp
      · simp

theorem survives_iff (d : Direction) (input : List UInt8) : Survives d input ↔
    ∀ (ps : List (List UInt8)) (rest : List UInt8), (∀ q ∈ ps, IsFrame q) →
      ps.flatten ++ rest <+: input → 4 ≤ rest.length → 4 ≤ totalLength rest := by
  constructor
  · intro h ps rest hps hin hrest
    exact h.totalLength hps hin hrest
  · intro h es s e s' hconn hin hst
    have hat := hconn.located
    cases hst with
    | accept | openIp | readFailed => exact ⟨trivial, fun hne => absurd rfl hne⟩
    | send | sendFailed =>
      obtain ⟨ps, p, -, hp, -, hlen, hsize, hlt, -⟩ := hat
      have hmax := hp.length_le
      refine ⟨⟨?_, ?_⟩, fun hne => absurd rfl hne⟩
      · exact hlt.le
      · dsimp only
        omega
    | @receive buf got chunk hne hwanted =>
      obtain ⟨ps, part, rfl, hfilled, hgot⟩ := hat
      have hmax := totalLength_le buf
      have hle : part.length + chunk.length ≤ 65535 := by
        unfold wanted at hwanted
        split at hwanted
        · omega
        · omega
      have hfilled' := hfilled.receive
        (advance d (readInto buf part.length chunk) (part.length + chunk.length)).2 hle
      have hsize (hfour : 4 ≤ part.length + chunk.length) :
          4 ≤ totalLength (readInto buf part.length chunk) := by
        rw [← List.length_append] at hfour
        rw [hfilled'.totalLength hfour]
        exact h ps (part ++ chunk) hfilled.frames (hfilled'.received ▸ hin) hfour
      exact ⟨slices_inRange hfilled'.length hsize, fun _ => advance_ne_panicked hsize⟩

/-- Four zero bytes are a packet of length zero. -/
theorem not_survives_sample : ¬Survives (.incoming "10.0.0.1") [0, 0, 0, 0] ∧
    ¬Survives (.outgoing [172, 31, 0, 9]) [0, 0, 0, 0] := by
  have hpanics (d : Direction) : ¬Survives d [0, 0, 0, 0] := by
    intro h
    have hnone : ∀ q ∈ ([] : List (List UInt8)), IsFrame q :=
      fun q hq => absurd hq List.not_mem_nil
    have hin : [].flatten ++ [0, 0, 0, 0] <+: [0, 0, 0, (0 : UInt8)] := List.prefix_refl _
    have hsize := h.totalLength hnone hin (by decide)
    exact absurd hsize (by decide)
  exact ⟨hpanics _, hpanics _⟩

end Oyster.RawProxy
