import Oyster.Attestation.Guest
import Oyster.Lib.CborDecode
import Oyster.Lib.Fallible

namespace Oyster.Attestation.Guest

open Cbor Fallible

def payloadSize (a : List UInt8) : ℕ := BigEndian.decode ((a.drop 8).take 2)

def signedPart (a : List UInt8) : Slice := ⟨10, 10 + payloadSize a⟩

def payload (a : List UInt8) : List UInt8 := (signedPart a).bytes a

def Slice.Within (s t : Slice) : Prop := ∀ i, s.start ≤ i → i < s.stop → t.start ≤ i ∧ i < t.stop

structure Covered (a : List UInt8) (j : Journal) : Prop where
  timestamp : j.timestamp.Within (signedPart a)
  pcr0 : j.pcr0.Within (signedPart a)
  pcr1 : j.pcr1.Within (signedPart a)
  pcr2 : j.pcr2.Within (signedPart a)
  rootKey : j.rootCert.Within (signedPart a) ∧ j.rootKey <:+: j.rootCert.bytes a
  publicKeyLen : j.publicKeyLen.Within (signedPart a)
  publicKey : j.publicKey.Within (signedPart a)
  userData : j.userData.Within (signedPart a)

structure Agrees (a : List UInt8) (j : Journal) (m : Map) : Prop where
  timestamp : m.Only (.text "timestamp") (.integer (BigEndian.decode (j.timestamp.bytes a)))
  pcrs : ∃ pcrs : Map, m.Only (.text "pcrs") (.map pcrs) ∧
    pcrs.Only (.integer 0) (.bytes (j.pcr0.bytes a)) ∧
    pcrs.Only (.integer 1) (.bytes (j.pcr1.bytes a)) ∧
    pcrs.Only (.integer 2) (.bytes (j.pcr2.bytes a))
  publicKey : m.Only (.text "public_key") (.bytes (j.publicKey.bytes a)) ∧
    j.publicKeyLen.bytes a = [UInt8.ofNat (j.publicKey.bytes a).length]
  /-- no user data is `null` -/
  userData : m.Only (.text "user_data") (.bytes (j.userData.bytes a)) ∨
    m.Only (.text "user_data") (.simple 22) ∧ j.userData.bytes a = []
  userDataSize : j.userDataSize = (j.userData.bytes a).length

def Unrepeated (m : Map) : Prop :=
  ∀ k ∈ ["timestamp", "pcrs", "public_key", "user_data"],
    (m.filter fun e => e.1.isKey (.text k)).length ≤ 1

instance (m : Map) : Decidable (Unrepeated m) := by
  unfold Unrepeated
  infer_instance

theorem only_of_mem {m : Map} {k : Cbor.Key} {v : Value}
    (h : (m.filter fun e => e.1.isKey k).length ≤ 1) (hv : (k.value, v) ∈ m) : m.Only k v := by
  have hmem : (k.value, v) ∈ m.filter fun e => e.1.isKey k :=
    List.mem_filter.2 ⟨hv, Value.isKey_iff.2 rfl⟩
  unfold Map.Only
  match hm : m.filter fun e => e.1.isKey k with
  | [] => simp [hm] at hmem
  | [e] =>
    rw [hm, List.mem_singleton] at hmem
    rw [hm, hmem]
  | _ :: _ :: _ =>
    rw [hm] at h
    simp at h

def rest (a : List UInt8) (stop offset : ℕ) : List UInt8 := (a.take stop).drop offset

variable {a : List UInt8} {stop o n depth : ℕ} {v : Value} {r : List UInt8}

theorem length_rest (hstop : stop ≤ a.length) : (rest a stop o).length = stop - o := by
  rw [rest, List.length_drop, List.length_take, Nat.min_eq_left hstop]

theorem item_at {b : UInt8} (h : item depth (rest a stop o) = some (v, r)) (hb : a[o]? = some b) :
    o + 1 ≤ stop ∧ ∃ d, item (d + 1) (b :: rest a stop (o + 1)) = some (v, r) ∧ depth = d + 1 := by
  cases depth with
  | zero => cases h
  | succ d =>
    by_cases ho : o < stop
    · have hget : (a.take stop)[o]? = some b := by rw [List.getElem?_take_of_lt ho, hb]
      have hcons : rest a stop o = b :: rest a stop (o + 1) := by
        obtain ⟨hlt, rfl⟩ := List.getElem?_eq_some_iff.1 hget
        exact List.drop_eq_getElem_cons hlt
      rw [hcons] at h
      exact ⟨ho, d, h, rfl⟩
    · have hnil : rest a stop o = [] := by
        apply List.drop_eq_nil_of_le
        exact (List.length_take_le _ _).trans (Nat.not_lt.1 ho)
      rw [hnil] at h
      cases h

theorem takeN_rest {s : List UInt8} (hstop : stop ≤ a.length) (ho : o ≤ stop)
    (h : takeN n (rest a stop o) = some (s, r)) :
    o + n ≤ stop ∧ s = Slice.bytes a ⟨o, o + n⟩ ∧ r = rest a stop (o + n) := by
  unfold takeN at h
  rw [length_rest hstop] at h
  split at h
  · rename_i hn
    obtain ⟨rfl, rfl⟩ := Prod.mk.inj (Option.some.inj h)
    refine ⟨by omega, ?_, ?_⟩
    · rw [Slice.bytes, rest, List.drop_take, List.take_take]
      congr 1
      dsimp only
      omega
    · rw [rest, rest, List.drop_drop]
  · cases h

theorem short_at {b : UInt8} {major : ℕ} (h : item depth (rest a stop o) = some (v, r))
    (hb : a[o]? = some b) (hhead : b.toNat = 32 * major + n) (hn : n < 24) (hm : major < 7) :
    o + 1 ≤ stop ∧ ∃ d, definite (item d) major n (rest a stop (o + 1)) = some (v, r) := by
  obtain ⟨ho, d, h, -⟩ := item_at h hb
  rw [item_short hhead hn hm] at h
  exact ⟨ho, d, h⟩

theorem long_at {b : UInt8} {major width : ℕ} (hstop : stop ≤ a.length)
    (h : item depth (rest a stop o) = some (v, r)) (hb : a[o]? = some b)
    (hhead : b.toNat = 32 * major + 24 + n) (hn : n < 4) (hm : major < 7)
    (hwidth : (if n = 0 then 1 else if n = 1 then 2 else if n = 2 then 4 else 8) = width) :
    o + 1 + width ≤ stop ∧ ∃ d, definite (item d) major
      (BigEndian.decode (Slice.bytes a ⟨o + 1, o + 1 + width⟩)) (rest a stop (o + 1 + width)) =
        some (v, r) := by
  obtain ⟨ho, d, h, -⟩ := item_at h hb
  rw [item_long hhead hn hm, hwidth, Option.bind_eq_some_iff] at h
  obtain ⟨⟨arg, r'⟩, harg, h⟩ := h
  obtain ⟨hle, rfl, rfl⟩ := takeN_rest hstop ho harg
  exact ⟨hle, d, h⟩

theorem bytes_one {b : UInt8} (h : a[o]? = some b) : Slice.bytes a ⟨o, o + 1⟩ = [b] := by
  obtain ⟨hlt, rfl⟩ := List.getElem?_eq_some_iff.1 h
  rw [Slice.bytes, Nat.add_sub_cancel_left, List.drop_eq_getElem_cons hlt]
  rfl

theorem bytes_two {hi lo : UInt8} (h : a[o]? = some hi) (h' : a[o + 1]? = some lo) :
    Slice.bytes a ⟨o, o + 2⟩ = [hi, lo] := by
  obtain ⟨hlt, rfl⟩ := List.getElem?_eq_some_iff.1 h
  obtain ⟨hlt', rfl⟩ := List.getElem?_eq_some_iff.1 h'
  rw [Slice.bytes, Nat.add_sub_cancel_left, List.drop_eq_getElem_cons hlt,
    List.drop_eq_getElem_cons hlt']
  rfl

variable {p : List UInt8 → Option (Value × List UInt8)}

theorem definite_bytes (hstop : stop ≤ a.length) (ho : o ≤ stop)
    (h : definite p 2 n (rest a stop o) = some (v, r)) :
    o + n ≤ stop ∧ v = .bytes (Slice.bytes a ⟨o, o + n⟩) ∧ r = rest a stop (o + n) := by
  simp only [definite, Option.bind_eq_bind, Option.bind_eq_some_iff, Prod.exists,
    Option.some.injEq, Prod.mk.injEq] at h
  obtain ⟨s, r', hs, rfl, rfl⟩ := h
  obtain ⟨hle, rfl, rfl⟩ := takeN_rest hstop ho hs
  exact ⟨hle, rfl, rfl⟩

theorem definite_text (hstop : stop ≤ a.length) (ho : o ≤ stop)
    (h : definite p 3 n (rest a stop o) = some (v, r)) :
    o + n ≤ stop ∧ (∃ t, utf8? (Slice.bytes a ⟨o, o + n⟩) = some t ∧ v = .text t) ∧
      r = rest a stop (o + n) := by
  simp only [definite, Option.bind_eq_bind, Option.bind_eq_some_iff, Prod.exists,
    Option.some.injEq, Prod.mk.injEq] at h
  obtain ⟨s, r', hs, t, ht, rfl, rfl⟩ := h
  obtain ⟨hle, rfl, rfl⟩ := takeN_rest hstop ho hs
  exact ⟨hle, ⟨t, ht, rfl⟩, rfl⟩

theorem text_at {b : UInt8} (hstop : stop ≤ a.length)
    (h : item depth (rest a stop o) = some (v, r)) (hb : a[o]? = some b)
    (hhead : b.toNat = 96 + n) (hn : n < 24) :
    o + 1 + n ≤ stop ∧ (∃ t, utf8? (Slice.bytes a ⟨o + 1, o + 1 + n⟩) = some t ∧ v = .text t) ∧
      r = rest a stop (o + 1 + n) := by
  obtain ⟨ho, d, h⟩ := @short_at _ _ _ _ _ _ _ _ 3 h hb hhead hn (by decide)
  exact definite_text hstop ho h

theorem literal_at {s : String} {b : UInt8} (hstop : stop ≤ a.length)
    (h : item depth (rest a stop o) = some (v, r)) (hb : a[o]? = some b)
    (hhead : b.toNat = 96 + n) (hn : n < 24)
    (hs : assertBytes a (o + 1) (ascii s) = some ()) (hlen : (ascii s).length = n)
    (hne : ascii s ≠ []) (hutf8 : s.toByteArray = ⟨(ascii s).toArray⟩) :
    o + 1 + n ≤ stop ∧ v = .text s ∧ r = rest a stop (o + 1 + n) := by
  rw [assertBytes_iff hne, List.prefix_iff_eq_take, hlen] at hs
  obtain ⟨hle, ⟨t, ht, rfl⟩, rfl⟩ := text_at hstop h hb hhead hn
  rw [Slice.bytes, Nat.add_sub_cancel_left, ← hs, utf8?_eq_some, ← hutf8] at ht
  rw [String.toByteArray_inj.1 ht]
  exact ⟨hle, rfl, rfl⟩

theorem bytes8_at {len : UInt8} (hstop : stop ≤ a.length)
    (h : item depth (rest a stop o) = some (v, r)) (hb : a[o]? = some 0x58)
    (hlen : a[o + 1]? = some len) :
    o + 2 + len.toNat ≤ stop ∧ v = .bytes (Slice.bytes a ⟨o + 2, o + 2 + len.toNat⟩) ∧
      r = rest a stop (o + 2 + len.toNat) := by
  obtain ⟨ho, d, h⟩ := @long_at _ _ _ 0 _ _ _ _ 2 1 hstop h hb (by decide) (by decide)
    (by decide) rfl
  rw [bytes_one hlen] at h
  have hdecode : BigEndian.decode [len] = len.toNat := by simp [BigEndian.decode]
  rw [hdecode] at h
  exact definite_bytes hstop ho h

theorem bytes16_at (hstop : stop ≤ a.length) (h : item depth (rest a stop o) = some (v, r))
    (hb : a[o]? = some 0x59) (hlen : u16At a (o + 1) = some n) :
    o + 3 + n ≤ stop ∧ v = .bytes (Slice.bytes a ⟨o + 3, o + 3 + n⟩) ∧
      r = rest a stop (o + 3 + n) := by
  obtain ⟨hi, lo, hhi, hlo, rfl⟩ := u16At_eq_some.1 hlen
  obtain ⟨ho, d, h⟩ := @long_at _ _ _ 1 _ _ _ _ 2 2 hstop h hb (by decide) (by decide)
    (by decide) rfl
  rw [bytes_two hhi hlo] at h
  exact definite_bytes hstop ho h

theorem many_pair_succ {bs : List UInt8} {m : Map} :
    many (pair p) (n + 1) bs = some (m, r) ↔ ∃ k v bs₁ bs₂ m', p bs = some (k, bs₁) ∧
      p bs₁ = some (v, bs₂) ∧ many (pair p) n bs₂ = some (m', r) ∧ m = (k, v) :: m' := by
  rw [many_succ]
  constructor
  · rintro ⟨⟨k, v⟩, bs₂, m', h, h', rfl⟩
    obtain ⟨bs₁, hk, hv⟩ := pair_eq_some.1 h
    exact ⟨k, v, bs₁, bs₂, m', hk, hv, h', rfl⟩
  · rintro ⟨k, v, bs₁, bs₂, m', hk, hv, h', rfl⟩
    exact ⟨(k, v), bs₂, m', pair_eq_some.2 ⟨bs₁, hk, hv⟩, h', rfl⟩

theorem pcr_at {i : ℕ} {m : Map} (hstop : stop ≤ a.length)
    (h : many (pair (item depth)) (n + 1) (rest a stop o) = some (m, r)) (hi : i < 24)
    (hb : assertBytes a o [UInt8.ofNat i, 0x58, 0x30] = some ()) :
    o + 51 ≤ stop ∧ ∃ m', many (pair (item depth)) n (rest a stop (o + 51)) = some (m', r) ∧
      m = (.integer i, .bytes (Slice.bytes a ⟨o + 3, o + 51⟩)) :: m' := by
  obtain ⟨k, v, bs₁, bs₂, m', hk, hv, hm, rfl⟩ := many_pair_succ.1 h
  rw [assertBytes_iff (List.cons_ne_nil _ _)] at hb
  have hget (j : ℕ) (hj : j < 3) : a[o + j]? = [UInt8.ofNat i, 0x58, 0x30][j]? := by
    obtain ⟨tail, htail⟩ := hb
    rw [← List.getElem?_drop, ← htail, List.getElem?_append_left hj]
  have hhead : (UInt8.ofNat i).toNat = 32 * 0 + i := by
    simp only [UInt8.toNat_ofNat']
    omega
  obtain ⟨ho, d, hk⟩ := short_at hk (hget 0 (by decide)) hhead hi (by decide)
  simp only [definite, Option.some.injEq, Prod.mk.injEq] at hk
  obtain ⟨rfl, rfl⟩ := hk
  obtain ⟨hle, rfl, rfl⟩ := bytes8_at hstop hv (hget 1 (by decide)) (hget 2 (by decide))
  exact ⟨hle, m', hm, rfl⟩

theorem skipPcrs_at {i : ℕ} {m : Map} {offset : ℕ} (hstop : stop ≤ a.length)
    (h : many (pair (item depth)) n (rest a stop o) = some (m, r)) (hi : i + n ≤ 24) (ho : o ≤ stop)
    (hskip : (List.range' i n).foldlM (skipPcr a) o = some offset) :
    offset ≤ stop ∧ r = rest a stop offset ∧
      ∀ e ∈ m, ∃ j, i ≤ j ∧ e.1 = .integer j := by
  induction n generalizing o i m with
  | zero =>
    cases hskip
    cases h
    exact ⟨ho, rfl, fun e he => absurd he List.not_mem_nil⟩
  | succ n ih =>
    simp only [List.range'_succ, List.foldlM_cons, skipPcr, Option.bind_eq_bind,
      Option.bind_eq_some_iff, Option.some.injEq, exists_unit] at hskip
    obtain ⟨_, ⟨hb, rfl⟩, hskip⟩ := hskip
    obtain ⟨hle, m', hm, rfl⟩ := pcr_at hstop h (by omega) hb
    obtain ⟨hoff, hr, hall⟩ := ih hm (by omega) hle hskip
    refine ⟨hoff, hr, fun e he => ?_⟩
    rcases List.mem_cons.1 he with rfl | he
    · exact ⟨i, Nat.le_refl i, rfl⟩
    · obtain ⟨j, hj, hkey⟩ := hall e he
      exact ⟨j, by omega, hkey⟩

theorem le_of_skipPcrs {i offset : ℕ}
    (hskip : (List.range' i n).foldlM (skipPcr a) o = some offset) : o ≤ offset := by
  induction n generalizing o i with
  | zero =>
    cases hskip
    exact Nat.le_refl _
  | succ n ih =>
    simp only [List.range'_succ, List.foldlM_cons, skipPcr, Option.bind_eq_bind,
      Option.bind_eq_some_iff, Option.some.injEq, exists_unit] at hskip
    obtain ⟨_, ⟨_, rfl⟩, hskip⟩ := hskip
    exact (Nat.le_add_right _ _).trans (ih hskip)

theorem definite_map {bs : List UInt8} (h : definite p 5 n bs = some (v, r)) :
    ∃ m, many (pair p) n bs = some (m, r) ∧ v = .map m := by
  simp only [definite, Option.bind_eq_bind, Option.bind_eq_some_iff, Prod.exists,
    Option.some.injEq, Prod.mk.injEq] at h
  obtain ⟨m, r', hm, rfl, rfl⟩ := h
  exact ⟨m, hm, rfl⟩

theorem definite_array {bs : List UInt8} (h : definite p 4 n bs = some (v, r)) :
    ∃ vs, many p n bs = some (vs, r) := by
  simp only [definite, Option.bind_eq_bind, Option.bind_eq_some_iff, Prod.exists,
    Option.some.injEq, Prod.mk.injEq] at h
  obtain ⟨vs, r', hvs, rfl, rfl⟩ := h
  exact ⟨vs, hvs⟩

theorem assertByte_iff {b : UInt8} : assertBytes a o [b] = some () ↔ a[o]? = some b := by
  rw [assertBytes_iff (List.cons_ne_nil _ _), singleton_initial_iff]

theorem moduleId_at {m : Map} (hstop : stop ≤ a.length) (hid : moduleId a = some o)
    (h : item depth (rest a stop 10) = some (.map m, r)) :
    23 ≤ o ∧ o ≤ stop ∧ ∃ d e m', many (pair (item d)) 8 (rest a stop o) = some (m', r) ∧
      m = e :: m' := by
  simp only [moduleId, Option.bind_eq_bind, Option.bind_eq_some_iff, Option.some.injEq,
    exists_unit, assertByte_iff] at hid
  obtain ⟨hhead, h21, size, h22, rfl⟩ := hid
  rw [assertBytes_iff (List.cons_ne_nil _ _)] at hhead
  have hget (j : ℕ) (hj : j < 2) : a[10 + j]? = [0xa9, 0x69][j]? := by
    obtain ⟨tail, htail⟩ := hhead
    rw [← List.getElem?_drop, ← htail, List.getElem?_append_left hj]
  obtain ⟨_, d, h⟩ := @short_at _ _ _ 9 _ _ _ _ 5 h (hget 0 (by decide)) (by decide) (by decide)
    (by decide)
  obtain ⟨m₁, hm, hv⟩ := definite_map h
  cases hv
  obtain ⟨k, v, bs₁, bs₂, m', hk, hv, hm, rfl⟩ := many_pair_succ.1 hm
  obtain ⟨hle, _, rfl⟩ := @text_at _ _ _ 9 _ _ _ _ hstop hk (hget 1 (by decide)) (by decide)
    (by decide)
  -- the value has its length in one byte
  obtain ⟨hle', d', hv⟩ := @long_at _ _ _ 0 _ _ _ _ 3 1 hstop hv h21 (by decide) (by decide)
    (by decide) rfl
  rw [bytes_one h22] at hv
  obtain ⟨hle'', _, rfl⟩ := definite_text hstop hle' hv
  have hdecode : BigEndian.decode [size] = size.toNat := by simp [BigEndian.decode]
  rw [hdecode] at hle'' hm
  exact ⟨by omega, by omega, d, _, m', hm, rfl⟩

theorem digestTimestamp_at {m : Map} {timestamp : Slice} {offset : ℕ} (hstop : stop ≤ a.length)
    (hg : digestTimestamp a o = some (timestamp, offset))
    (h : many (pair (item depth)) (n + 3) (rest a stop o) = some (m, r)) :
    timestamp.start = o + 25 ∧ timestamp.stop = o + 33 ∧ offset = o + 39 ∧ offset ≤ stop ∧
      ∃ d e pcrs r₁ m', many (pair (item d)) 16 (rest a stop offset) = some (pcrs, r₁) ∧
        many (pair (item depth)) n r₁ = some (m', r) ∧
        m = e :: (.text "timestamp", .integer (BigEndian.decode (timestamp.bytes a))) ::
          (.text "pcrs", .map pcrs) :: m' := by
  simp only [digestTimestamp, Option.bind_eq_bind, Option.bind_eq_some_iff, Option.some.injEq,
    Prod.mk.injEq, exists_unit, assertByte_iff] at hg
  obtain ⟨h0, h7, h14, hts, h24, _, _, h33, hpcrs, h38, rfl, rfl⟩ := hg
  obtain ⟨k, v, bs₁, bs₂, m₁, hk, hv, hm₁, rfl⟩ := many_pair_succ.1 h
  obtain ⟨_, _, rfl⟩ := @text_at _ _ _ 6 _ _ _ _ hstop hk h0 (by decide) (by decide)
  obtain ⟨_, _, rfl⟩ := @text_at _ _ _ 6 _ _ _ _ hstop hv h7 (by decide) (by decide)
  obtain ⟨k', v', bs₁, bs₂, m₂, hk, hv, hm₂, rfl⟩ := many_pair_succ.1 hm₁
  obtain ⟨_, rfl, rfl⟩ := @literal_at _ _ _ 9 _ _ _ _ _ hstop hk h14 (by decide) (by decide) hts
    (by decide) (by decide) (by decide)
  obtain ⟨_, d, hv⟩ := @long_at _ _ _ 3 _ _ _ _ 0 8 hstop hv h24 (by decide) (by decide)
    (by decide) rfl
  simp only [definite, Option.some.injEq, Prod.mk.injEq] at hv
  obtain ⟨rfl, rfl⟩ := hv
  obtain ⟨k'', v'', bs₁, bs₂, m', hk, hv, hm, rfl⟩ := many_pair_succ.1 hm₂
  obtain ⟨_, rfl, rfl⟩ := @literal_at _ _ _ 4 _ _ _ _ _ hstop hk h33 (by decide) (by decide) hpcrs
    (by decide) (by decide) (by decide)
  obtain ⟨ho, d, hv⟩ := @short_at _ _ _ 16 _ _ _ _ 5 hv h38 (by decide) (by decide) (by decide)
  obtain ⟨pcrs, hpcrs, rfl⟩ := definite_map hv
  exact ⟨rfl, rfl, rfl, ho, d, _, pcrs, bs₂, m', hpcrs, hm, rfl⟩

theorem commitPcr_at {i : ℕ} {m : Map} {pcr : Slice} {offset : ℕ} (hstop : stop ≤ a.length)
    (hg : commitPcr a o i = some (pcr, offset)) (hi : i < 24)
    (h : many (pair (item depth)) (n + 1) (rest a stop o) = some (m, r)) :
    pcr.start = o + 3 ∧ pcr.stop = o + 51 ∧ offset = o + 51 ∧ offset ≤ stop ∧
      ∃ m', many (pair (item depth)) n (rest a stop offset) = some (m', r) ∧
        m = (.integer i, .bytes (pcr.bytes a)) :: m' := by
  simp only [commitPcr, Option.bind_eq_bind, Option.bind_eq_some_iff, Option.some.injEq,
    Prod.mk.injEq, exists_unit] at hg
  obtain ⟨hb, _, _, rfl, rfl⟩ := hg
  obtain ⟨hle, m', hm, rfl⟩ := pcr_at hstop h hi hb
  exact ⟨rfl, rfl, rfl, hle, m', hm, rfl⟩

section

variable {Certificate VerifyingKey Signature : Type}
  {lib : Libraries Certificate VerifyingKey Signature}

theorem certificate_at {s : Slice} {cert : Certificate} (hstop : stop ≤ a.length)
    (hb : a[o]? = some 0x59) (hg : certificate lib a (o + 1) = some (s, cert))
    (h : item depth (rest a stop o) = some (v, r)) :
    s.start = o + 3 ∧ o + 3 ≤ s.stop ∧ s.stop ≤ stop ∧ r = rest a stop s.stop ∧
      lib.fromDer (s.bytes a) = some cert := by
  simp only [certificate, Option.bind_eq_bind, Option.bind_eq_some_iff, Option.some.injEq,
    Prod.mk.injEq, slice_eq_some] at hg
  obtain ⟨size, hsize, _, ⟨_, _, rfl⟩, cert', hcert, rfl, rfl⟩ := hg
  obtain ⟨hle, _, rfl⟩ := bytes16_at hstop h hb hsize
  exact ⟨rfl, Nat.le_add_right _ _, hle, rfl, hcert⟩

theorem leafCertificate_at {m : Map} {s : Slice} {cert : Certificate} (hstop : stop ≤ a.length)
    (hg : leafCertificate lib a o = some (s, cert))
    (h : many (pair (item depth)) (n + 1) (rest a stop o) = some (m, r)) :
    o ≤ s.stop ∧ s.stop ≤ stop ∧ ∃ e m', many (pair (item depth)) n (rest a stop s.stop) =
      some (m', r) ∧ m = e :: m' := by
  simp only [leafCertificate, Option.bind_eq_bind, Option.bind_eq_some_iff, exists_unit,
    assertByte_iff] at hg
  obtain ⟨h0, hkey, h12, hcert⟩ := hg
  obtain ⟨k, v, bs₁, bs₂, m', hk, hv, hm, rfl⟩ := many_pair_succ.1 h
  obtain ⟨_, rfl, rfl⟩ := @literal_at _ _ _ 11 _ _ _ _ _ hstop hk h0 (by decide) (by decide) hkey
    (by decide) (by decide) (by decide)
  obtain ⟨_, hge, hle, rfl, _⟩ := certificate_at hstop h12 hcert hv
  exact ⟨by omega, hle, _, m', hm, rfl⟩

theorem verifyChildren_at {vs : List Value} {timestamp offset : ℕ} {parent parent' : Certificate}
    (hstop : stop ≤ a.length) (ho : o ≤ stop)
    (hg : verifyChildren lib a timestamp n parent o = some (parent', offset))
    (h : many (item depth) n (rest a stop o) = some (vs, r)) :
    o ≤ offset ∧ offset ≤ stop ∧ r = rest a stop offset := by
  induction n generalizing o parent vs with
  | zero =>
    cases hg
    cases h
    exact ⟨Nat.le_refl _, ho, rfl⟩
  | succ n ih =>
    simp only [verifyChildren, Option.bind_eq_bind, Option.bind_eq_some_iff, exists_unit,
      assertByte_iff, Prod.exists] at hg
    obtain ⟨h0, s, child, hcert, _, _, hg⟩ := hg
    obtain ⟨v, bs, vs', hv, hvs, _⟩ := many_succ.1 h
    obtain ⟨_, hge, hle, rfl, _⟩ := certificate_at hstop h0 hcert hv
    obtain ⟨hoff, hend, hr⟩ := ih hle hg hvs
    exact ⟨by omega, hend, hr⟩

theorem certificateChain_at {m : Map} {timestamp offset : ℕ} {leafSlice root : Slice}
    {leaf : Certificate} {rootKey : List UInt8} (hstop : stop ≤ a.length)
    (hraw : ∀ der cert, lib.fromDer der = some cert → lib.publicKey cert <:+: der)
    (hg : certificateChain lib a timestamp leafSlice leaf o = some (root, rootKey, offset))
    (h : many (pair (item depth)) (n + 1) (rest a stop o) = some (m, r)) :
    o ≤ root.start ∧ root.stop ≤ stop ∧ rootKey <:+: root.bytes a ∧ o ≤ offset ∧ offset ≤ stop ∧
      ∃ e m', many (pair (item depth)) n (rest a stop offset) = some (m', r) ∧ m = e :: m' := by
  simp only [certificateChain, Option.bind_eq_bind, Option.bind_eq_some_iff, exists_unit,
    assertByte_iff, Prod.exists, Option.guard_eq_some', Option.some.injEq, Prod.mk.injEq] at hg
  obtain ⟨h0, hkey, size, h9, hsize, h10, s, cert, hcert, _, _, _, parent, off, hchildren, _, _,
    rfl, rfl, rfl⟩ := hg
  obtain ⟨k, v, bs₁, bs₂, m', hk, hv, hm, rfl⟩ := many_pair_succ.1 h
  obtain ⟨_, rfl, rfl⟩ := @literal_at _ _ _ 8 _ _ _ _ _ hstop hk h0 (by decide) (by decide) hkey
    (by decide) (by decide) (by decide)
  obtain ⟨children, hn⟩ : ∃ children, size.toNat - 0x80 = children + 1 :=
    ⟨size.toNat - 0x80 - 1, by omega⟩
  obtain ⟨_, d, hv⟩ := @short_at _ _ _ (size.toNat - 0x80) _ _ _ _ 4 hv h9 (by omega) (by omega)
    (by decide)
  obtain ⟨vs, hvs⟩ := definite_array hv
  rw [hn] at hvs hchildren
  obtain ⟨v₁, bs, vs', hv₁, hvs, _⟩ := many_succ.1 hvs
  obtain ⟨hstart, hge, hle, rfl, hder⟩ := certificate_at hstop h10 hcert hv₁
  obtain ⟨hoff, hend, rfl⟩ := verifyChildren_at hstop hle hchildren hvs
  refine ⟨by omega, hle, ?_, by omega, hend, _, m', hm, rfl⟩
  exact (List.drop_suffix 1 _).isInfix.trans (hraw _ _ hder)

end

theorem length_bytes {start : ℕ} (h : start + n ≤ a.length) :
    (Slice.bytes a ⟨start, start + n⟩).length = n := by
  rw [Slice.bytes, Nat.add_sub_cancel_left, List.length_take, List.length_drop]
  dsimp only
  omega

theorem publicKey_at {m : Map} {len key : Slice} {offset : ℕ} (hstop : stop ≤ a.length)
    (hg : publicKey a o = some (len, key, offset))
    (h : many (pair (item depth)) (n + 1) (rest a stop o) = some (m, r)) :
    len.start = o + 12 ∧ len.stop = o + 13 ∧ key.start = o + 13 ∧ key.stop = offset ∧
      o + 13 ≤ offset ∧ offset ≤ stop ∧
      len.bytes a = [UInt8.ofNat (key.bytes a).length] ∧
      ∃ m', many (pair (item depth)) n (rest a stop offset) = some (m', r) ∧
        m = (.text "public_key", .bytes (key.bytes a)) :: m' := by
  simp only [publicKey, Option.bind_eq_bind, Option.bind_eq_some_iff, Option.some.injEq,
    Prod.mk.injEq, exists_unit, assertByte_iff] at hg
  obtain ⟨h0, hkey, h11, size, h12, _, _, rfl, rfl, rfl⟩ := hg
  obtain ⟨k, v, bs₁, bs₂, m', hk, hv, hm, rfl⟩ := many_pair_succ.1 h
  obtain ⟨_, rfl, rfl⟩ := @literal_at _ _ _ 10 _ _ _ _ _ hstop hk h0 (by decide) (by decide) hkey
    (by decide) (by decide) (by decide)
  obtain ⟨hle, rfl, rfl⟩ := bytes8_at hstop hv h11 h12
  refine ⟨rfl, rfl, rfl, rfl, Nat.le_add_right _ _, hle, ?_, m', hm, rfl⟩
  have hle' : o + 13 + size.toNat ≤ stop := hle
  rw [length_bytes (by omega), bytes_one h12, UInt8.ofNat_toNat]

theorem userData_at {m : Map} {size : ℕ} {data : Slice} (hstop : stop ≤ a.length)
    (hg : userData a o = some (size, data))
    (h : many (pair (item depth)) (n + 1) (rest a stop o) = some (m, r)) :
    (data.start < data.stop → o ≤ data.start ∧ data.stop ≤ stop) ∧
      size = (data.bytes a).length ∧
      ((.text "user_data", .bytes (data.bytes a)) ∈ m ∨
        (.text "user_data", .simple 22) ∈ m ∧ data.bytes a = []) := by
  simp only [userData, Option.bind_eq_bind, Option.bind_eq_some_iff, exists_unit,
    assertByte_iff] at hg
  obtain ⟨h0, hkey, head, h10, hg⟩ := hg
  obtain ⟨k, v, bs₁, bs₂, m', hk, hv, hm, rfl⟩ := many_pair_succ.1 h
  obtain ⟨_, rfl, rfl⟩ := @literal_at _ _ _ 9 _ _ _ _ _ hstop hk h0 (by decide) (by decide) hkey
    (by decide) (by decide) (by decide)
  split at hg
  · -- `null`
    rename_i hhead
    subst hhead
    cases hg
    obtain ⟨_, d, hv, _⟩ := item_at hv h10
    rw [item_null] at hv
    cases hv
    refine ⟨fun hlt => absurd hlt (Nat.lt_irrefl 0), by simp [Slice.bytes], .inr ⟨?_, ?_⟩⟩
    · exact List.mem_cons_self
    · simp [Slice.bytes]
  · split at hg
    · rename_i hhead
      subst hhead
      simp only [Option.bind_eq_some_iff, Option.some.injEq, Prod.mk.injEq] at hg
      obtain ⟨len, h11, _, _, rfl, rfl⟩ := hg
      obtain ⟨hle, rfl, rfl⟩ := bytes8_at hstop hv h10 h11
      have hle' : o + 12 + len.toNat ≤ stop := hle
      exact ⟨fun _ => ⟨by dsimp only; omega, hle'⟩, (length_bytes (by omega)).symm,
        .inl List.mem_cons_self⟩
    · simp only [Option.bind_eq_some_iff, Option.some.injEq, Prod.mk.injEq, exists_unit,
        assertByte_iff] at hg
      obtain ⟨h10', len, h11, _, _, rfl, rfl⟩ := hg
      obtain ⟨hle, rfl, rfl⟩ := bytes16_at hstop hv h10' h11
      have hle' : o + 13 + len ≤ stop := hle
      exact ⟨fun _ => ⟨by dsimp only; omega, hle'⟩, (length_bytes (by omega)).symm,
        .inl List.mem_cons_self⟩

theorem cose_at (h : cose a = some n) : n = payloadSize a ∧ a.length = 10 + n + 98 := by
  simp only [cose, Option.bind_eq_bind, Option.bind_eq_some_iff, Option.guard_eq_some', exists_unit,
    Option.some.injEq] at h
  obtain ⟨_, _, hsize, hlen, rfl⟩ := h
  obtain ⟨hi, lo, hhi, hlo, rfl⟩ := u16At_eq_some.1 hsize
  have hbytes : (a.drop 8).take 2 = [hi, lo] := bytes_two hhi hlo
  rw [payloadSize, hbytes]
  exact ⟨rfl, hlen⟩

theorem pcrs_at {pcrs : Map} {pcr0 pcr1 pcr2 : Slice} {o₁ o₂ o₃ offset : ℕ}
    (hstop : stop ≤ a.length) (h0 : commitPcr a o 0 = some (pcr0, o₁))
    (h1 : commitPcr a o₁ 1 = some (pcr1, o₂)) (h2 : commitPcr a o₂ 2 = some (pcr2, o₃))
    (hskip : (List.range' 3 13).foldlM (skipPcr a) o₃ = some offset)
    (h : many (pair (item depth)) 16 (rest a stop o) = some (pcrs, r)) :
    (o ≤ pcr0.start ∧ pcr0.stop ≤ stop) ∧ (o ≤ pcr1.start ∧ pcr1.stop ≤ stop) ∧
      (o ≤ pcr2.start ∧ pcr2.stop ≤ stop) ∧ o ≤ offset ∧ offset ≤ stop ∧ r = rest a stop offset ∧
      pcrs.Only (.integer 0) (.bytes (pcr0.bytes a)) ∧
      pcrs.Only (.integer 1) (.bytes (pcr1.bytes a)) ∧
      pcrs.Only (.integer 2) (.bytes (pcr2.bytes a)) := by
  obtain ⟨_, _, rfl, _, m₁, hm₁, rfl⟩ := commitPcr_at hstop h0 (by decide) h
  obtain ⟨_, _, rfl, _, m₂, hm₂, rfl⟩ := commitPcr_at hstop h1 (by decide) hm₁
  obtain ⟨_, _, rfl, hle, m₃, hm₃, rfl⟩ := commitPcr_at hstop h2 (by decide) hm₂
  obtain ⟨hend, hr, hkeys⟩ := skipPcrs_at hstop hm₃ (by decide) hle hskip
  have hge := le_of_skipPcrs hskip
  -- the registers that are skipped are not 0, 1 and 2
  have hnone (i : ℕ) (hi : i < 3) : m₃.filter (fun e => e.1.isKey (.integer i)) = [] := by
    rw [List.filter_eq_nil_iff]
    intro e he hkey
    obtain ⟨j, hj, hint⟩ := hkeys e he
    rw [hint, Value.isKey_iff, Key.value, Value.integer.injEq] at hkey
    omega
  have h0 := hnone 0 (by decide)
  have h1 := hnone 1 (by decide)
  have h2 := hnone 2 (by decide)
  refine ⟨by omega, by omega, by omega, by omega, hend, hr, ?_, ?_, ?_⟩
  · simpa [Map.Only, Value.isKey, Key.value] using h0
  · simpa [Map.Only, Value.isKey, Key.value] using h1
  · simpa [Map.Only, Value.isKey, Key.value] using h2

section

variable {Certificate VerifyingKey Signature : Type}
  {lib : Libraries Certificate VerifyingKey Signature}

/-- The entries that the guest reads, in a payload that is decoded to `m`. -/
structure Read (a : List UInt8) (j : Journal) (m : Map) : Prop where
  covered : Covered a j
  timestamp : (.text "timestamp", .integer (BigEndian.decode (j.timestamp.bytes a))) ∈ m
  pcrs : ∃ pcrs : Map, (.text "pcrs", .map pcrs) ∈ m ∧
    pcrs.Only (.integer 0) (.bytes (j.pcr0.bytes a)) ∧
    pcrs.Only (.integer 1) (.bytes (j.pcr1.bytes a)) ∧
    pcrs.Only (.integer 2) (.bytes (j.pcr2.bytes a))
  publicKey : (.text "public_key", .bytes (j.publicKey.bytes a)) ∈ m
  publicKeyLen : j.publicKeyLen.bytes a = [UInt8.ofNat (j.publicKey.bytes a).length]
  userData : (.text "user_data", .bytes (j.userData.bytes a)) ∈ m ∨
    (.text "user_data", .simple 22) ∈ m ∧ j.userData.bytes a = []
  userDataSize : j.userDataSize = (j.userData.bytes a).length

theorem main_read {j : Journal} {m : Map}
    (hraw : ∀ der cert, lib.fromDer der = some cert → lib.publicKey cert <:+: der)
    (hmain : main lib a = some j) (hdecode : decode (payload a) = some (.map m)) :
    Read a j m := by
  unfold main at hmain
  obtain ⟨size, hcose, hmain⟩ := Option.bind_eq_some_iff.1 hmain
  obtain ⟨o₁, hid, hmain⟩ := Option.bind_eq_some_iff.1 hmain
  obtain ⟨⟨timestamp, o₂⟩, hts, hmain⟩ := Option.bind_eq_some_iff.1 hmain
  obtain ⟨⟨pcr0, o₃⟩, h0, hmain⟩ := Option.bind_eq_some_iff.1 hmain
  obtain ⟨⟨pcr1, o₄⟩, h1, hmain⟩ := Option.bind_eq_some_iff.1 hmain
  obtain ⟨⟨pcr2, o₅⟩, h2, hmain⟩ := Option.bind_eq_some_iff.1 hmain
  obtain ⟨o₆, hskip, hmain⟩ := Option.bind_eq_some_iff.1 hmain
  obtain ⟨⟨leafSlice, leaf⟩, hleaf, hmain⟩ := Option.bind_eq_some_iff.1 hmain
  obtain ⟨⟨rootCert, rootKey, o₇⟩, hchain, hmain⟩ := Option.bind_eq_some_iff.1 hmain
  obtain ⟨⟨keyLen, key, o₈⟩, hkey, hmain⟩ := Option.bind_eq_some_iff.1 hmain
  obtain ⟨⟨dataSize, data⟩, hdata, hmain⟩ := Option.bind_eq_some_iff.1 hmain
  obtain ⟨-, -, hmain⟩ := Option.bind_eq_some_iff.1 hmain
  cases hmain
  -- each part is read where the decoder finds the next entries
  obtain ⟨rfl, hlen⟩ := cose_at hcose
  have hstop : 10 + payloadSize a ≤ a.length := by omega
  have hpayload : payload a = rest a (10 + payloadSize a) 10 := by
    rw [payload, signedPart, Slice.bytes, rest, List.drop_take]
  rw [decode_eq_some, hpayload] at hdecode
  obtain ⟨hge, _, d, e₁, m₁, hm₁, rfl⟩ := moduleId_at hstop hid hdecode
  obtain ⟨hts₁, hts₂, rfl, _, d', e₂, pcrs, r', m₂, hpcrs, hm₂, rfl⟩ :=
    @digestTimestamp_at _ _ _ 5 _ _ _ _ _ hstop hts hm₁
  obtain ⟨hpcr0, hpcr1, hpcr2, hge', _, rfl, honly0, honly1, honly2⟩ :=
    pcrs_at hstop h0 h1 h2 hskip hpcrs
  obtain ⟨hge₃, _, e₃, m₃, hm₃, rfl⟩ := leafCertificate_at hstop hleaf hm₂
  obtain ⟨hroot, hroot', hrootKey, hge₄, _, e₄, m₄, hm₄, rfl⟩ :=
    certificateChain_at hstop hraw hchain hm₃
  obtain ⟨hlen₁, hlen₂, hkey₁, hkey₂, hge₅, hle₅, hone, m₅, hm₅, rfl⟩ :=
    publicKey_at hstop hkey hm₄
  obtain ⟨hwithin, hsize, hud⟩ := userData_at hstop hdata hm₅
  have hcovered : Covered a ⟨timestamp, pcr0, pcr1, pcr2, rootCert, rootKey, keyLen, key, dataSize,
      data⟩ := by
    have hpart (s : Slice) (h : s.start < s.stop → 10 ≤ s.start ∧ s.stop ≤ 10 + payloadSize a) :
        s.Within (signedPart a) := by
      intro i hi hi'
      have hs := h (by omega)
      exact ⟨by dsimp only [signedPart]; omega, by dsimp only [signedPart]; omega⟩
    exact {
      timestamp := hpart timestamp fun _ => ⟨by omega, by omega⟩
      pcr0 := hpart pcr0 fun _ => ⟨by omega, by omega⟩
      pcr1 := hpart pcr1 fun _ => ⟨by omega, by omega⟩
      pcr2 := hpart pcr2 fun _ => ⟨by omega, by omega⟩
      rootKey := ⟨hpart rootCert fun _ => ⟨by omega, by omega⟩, hrootKey⟩
      publicKeyLen := hpart keyLen fun _ => ⟨by omega, by omega⟩
      publicKey := hpart key fun _ => ⟨by omega, by omega⟩
      userData := hpart data fun h => ⟨by have := hwithin h; omega, (hwithin h).2⟩ }
  exact {
    covered := hcovered
    timestamp := by simp
    pcrs := ⟨pcrs, by simp, honly0, honly1, honly2⟩
    publicKey := by simp
    publicKeyLen := hone
    userData := by
      rcases hud with hud | ⟨hud, hnil⟩
      · left
        simp [hud]
      · right
        exact ⟨by simp [hud], hnil⟩
    userDataSize := hsize }

end

/-- What is committed is signed, and decoded as the payload is. -/
def Sound (a : List UInt8) (j : Journal) : Prop :=
  Covered a j ∧ ∃ m, decode (payload a) = some (.map m) ∧ Agrees a j m

/-- The payload is one well-formed map that repeats none of the keys that are read. -/
def WellFormed (a : List UInt8) : Prop :=
  ∃ m, decode (payload a) = some (.map m) ∧ Unrepeated m

def isUnrepeatedMap : Value → Bool
  | .map m => decide (Unrepeated m)
  | .integer _ | .bytes _ | .text _ | .array _ | .tag _ _ | .simple _ | .float _ => false

theorem wellFormed_iff : WellFormed a ↔ (decode (payload a)).any isUnrepeatedMap = true := by
  rw [WellFormed, Option.any_eq_true]
  constructor
  · rintro ⟨m, hm, h⟩
    exact ⟨.map m, hm, decide_eq_true h⟩
  · rintro ⟨v, hv, h⟩
    cases v with
    | map m => exact ⟨m, hv, of_decide_eq_true h⟩
    | _ => cases h

instance (a : List UInt8) : Decidable (WellFormed a) := decidable_of_iff' _ wellFormed_iff

theorem Read.agrees {j : Journal} {m : Map} (h : Read a j m) (hm : Unrepeated m) :
    Agrees a j m := by
  have honly (k : String) (v : Value) (hk : k ∈ ["timestamp", "pcrs", "public_key", "user_data"])
      (hv : (.text k, v) ∈ m) : m.Only (.text k) v := only_of_mem (hm k hk) hv
  obtain ⟨pcrs, hpcrs, hregs⟩ := h.pcrs
  exact {
    timestamp := honly _ _ (by decide) h.timestamp
    pcrs := ⟨pcrs, honly _ _ (by decide) hpcrs, hregs⟩
    publicKey := ⟨honly _ _ (by decide) h.publicKey, h.publicKeyLen⟩
    userData := h.userData.imp (honly _ _ (by decide))
      fun hnull => ⟨honly _ _ (by decide) hnull.1, hnull.2⟩
    userDataSize := h.userDataSize }

theorem Agrees.unrepeated {j : Journal} {m : Map} (h : Agrees a j m) : Unrepeated m := by
  have hone {k : String} {v : Value} (honly : m.Only (.text k) v) :
      (m.filter fun e => e.1.isKey (.text k)).length ≤ 1 := by
    rw [honly]
    exact Nat.le_refl 1
  obtain ⟨_, hpcrs, _⟩ := h.pcrs
  intro k hk
  simp only [List.mem_cons, List.not_mem_nil, or_false] at hk
  rcases hk with rfl | rfl | rfl | rfl
  · exact hone h.timestamp
  · exact hone hpcrs
  · exact hone h.publicKey.1
  · rcases h.userData with hud | ⟨hud, _⟩
    · exact hone hud
    · exact hone hud

section

variable {Certificate VerifyingKey Signature : Type}
  {lib : Libraries Certificate VerifyingKey Signature}

/-- The guest is sound exactly on the payloads that are well formed. A public key is raw bytes of
its certificate. -/
theorem sound_iff_wellFormed {j : Journal}
    (hraw : ∀ der cert, lib.fromDer der = some cert → lib.publicKey cert <:+: der)
    (hmain : main lib a = some j) : Sound a j ↔ WellFormed a := by
  constructor
  · rintro ⟨_, m, hm, hagrees⟩
    exact ⟨m, hm, hagrees.unrepeated⟩
  · rintro ⟨m, hm, hunrepeated⟩
    have hread := main_read hraw hmain hm
    exact ⟨hread.covered, m, hm, hread.agrees hunrepeated⟩

end

/-- Certificates of eight bytes of header and a public key, and keys that verify everything. -/
def sampleLibraries : Libraries (List UInt8) (List UInt8) (List UInt8) where
  fromDer der := some der
  notBefore _ := 0
  notAfter _ := 2
  publicKey der := der.drop 8
  signature _ := []
  verifyingKey key := some key
  signatureFromDer der := some der
  signatureFromScalars r s := some (r ++ s)
  verify _ _ _ := true
  verifyPrehash _ _ _ := true
  sha384 bs := bs

def sampleCertificate : List UInt8 :=
  [0x59, 0, 105] ++ [0x30, 0x82, 0, 0, 0x30, 0x82, 0, 0] ++ 0x04 :: List.replicate 96 7

def sampleAttestation (tail : List UInt8) : List UInt8 :=
  let pcrs := (List.range 16).flatMap fun i => [UInt8.ofNat i, 0x58, 0x30] ++ List.replicate 48 1
  let payload := [0xa9, 0x69] ++ ascii "module_id" ++ [0x78, 0] ++ [0x66] ++ ascii "digest" ++
    [0x66] ++ ascii "SHA384" ++ [0x69] ++ ascii "timestamp" ++ [0x1b, 0, 0, 0, 0, 0, 0, 3, 0xe8] ++
    [0x64] ++ ascii "pcrs" ++ [0xb0] ++ pcrs ++ [0x6b] ++ ascii "certificate" ++
    sampleCertificate ++ [0x68] ++ ascii "cabundle" ++ [0x81] ++ sampleCertificate ++
    [0x6a] ++ ascii "public_key" ++ [0x58, 1, 9] ++ [0x69] ++ ascii "user_data" ++ tail
  [0x84, 0x44, 0xa1, 0x01, 0x38, 0x22, 0xa0, 0x59] ++ BigEndian.encode 2 payload.length ++
    payload ++ [0x58, 0x60] ++ List.replicate 96 5

def sampleTail : List UInt8 := [0xf6, 0x65] ++ ascii "nonce" ++ [0xf6]

theorem sound_iff_wellFormed_sample : ∃ j,
    main sampleLibraries (sampleAttestation sampleTail) = some j ∧
      Sound (sampleAttestation sampleTail) j := by
  have hmain : (main sampleLibraries (sampleAttestation sampleTail)).isSome := by decide +kernel
  obtain ⟨j, hj⟩ := Option.isSome_iff_exists.1 hmain
  have hraw : ∀ der cert, sampleLibraries.fromDer der = some cert →
      sampleLibraries.publicKey cert <:+: der := by
    rintro der _ ⟨⟩
    exact (List.drop_suffix 8 der).isInfix
  exact ⟨j, hj, (sound_iff_wellFormed hraw hj).2 (by decide +kernel)⟩

/-- The payload ends with the length of the user data, which is then read from the signature. -/
theorem unsound_sample : ∃ j, main sampleLibraries (sampleAttestation [0x58, 10]) = some j ∧
    ¬ Sound (sampleAttestation [0x58, 10]) j := by
  have hmain : (main sampleLibraries (sampleAttestation [0x58, 10])).map Journal.userData =
      some ⟨1142, 1152⟩ := by
    decide +kernel
  have hstop : (signedPart (sampleAttestation [0x58, 10])).stop = 1142 := by decide +kernel
  obtain ⟨j, hj, hdata⟩ := Option.map_eq_some_iff.1 hmain
  refine ⟨j, hj, fun hsound => ?_⟩
  have hwithin := hsound.1.userData
  rw [hdata] at hwithin
  have hlast := (hwithin 1151 (by decide) (by decide)).2
  omega

end Oyster.Attestation.Guest
