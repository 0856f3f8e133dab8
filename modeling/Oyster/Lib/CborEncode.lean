import Oyster.Lib.CborDecode

namespace Oyster.Cbor

/-- The bytes are the item, with at most `depth` levels of items inside items. -/
def Encodes (depth : ℕ) (bs : List UInt8) (v : Value) : Prop :=
  ∀ d rest, depth ≤ d → item d (bs ++ rest) = some (v, rest)

inductive Row (depth : ℕ) : List UInt8 → List Value → Prop
  | nil : Row depth [] []
  | cons {bs bs' : List UInt8} {v : Value} {vs : List Value} (head : Encodes depth bs v)
      (tail : Row depth bs' vs) : Row depth (bs ++ bs') (v :: vs)

inductive Entries (depth : ℕ) : List UInt8 → Map → Prop
  | nil : Entries depth [] []
  | cons {ks vs bs : List UInt8} {k v : Value} {m : Map} (key : Encodes depth ks k)
      (value : Encodes depth vs v) (tail : Entries depth bs m) :
      Entries depth (ks ++ vs ++ bs) ((k, v) :: m)

variable {depth depth' n : ℕ} {b : UInt8} {bs bs' : List UInt8} {v : Value} {m : Map}

theorem Encodes.mono (h : Encodes depth bs v) (hle : depth ≤ depth') : Encodes depth' bs v :=
  fun d rest hd => h d rest (hle.trans hd)

theorem Encodes.decode (h : Encodes depth bs v) (hlen : depth ≤ bs.length) :
    decode bs = some v := by
  have hitem := h bs.length [] hlen
  rw [List.append_nil] at hitem
  exact decode_eq_some.2 hitem

theorem Row.many {vs : List Value} {d : ℕ} (h : Row depth bs vs) (hd : depth ≤ d)
    (rest : List UInt8) : many (item d) vs.length (bs ++ rest) = some (vs, rest) := by
  induction h with
  | nil => rfl
  | @cons bs bs' v vs head _ ih =>
    rw [List.append_assoc]
    exact many_succ.2 ⟨v, bs' ++ rest, vs, head d _ hd, ih, rfl⟩

theorem Entries.many {d : ℕ} (h : Entries depth bs m) (hd : depth ≤ d) (rest : List UInt8) :
    many (pair (item d)) m.length (bs ++ rest) = some (m, rest) := by
  induction h with
  | nil => rfl
  | @cons ks vs bs k v m key value _ ih =>
    have hpair : pair (item d) (ks ++ vs ++ bs ++ rest) = some ((k, v), bs ++ rest) := by
      rw [List.append_assoc, List.append_assoc]
      exact pair_eq_some.2 ⟨vs ++ (bs ++ rest), key d _ hd, value d _ hd⟩
    exact many_succ.2 ⟨(k, v), bs ++ rest, m, hpair, ih, rfl⟩

theorem encodes_null : Encodes 1 [0xf6] (.simple 22) := by
  intro d rest hd
  obtain ⟨d, rfl⟩ := Nat.exists_eq_add_of_le' hd
  exact item_null

theorem Encodes.of_short (major : ℕ) (hb : b.toNat = 32 * major + n) (hn : n < 24)
    (hm : major < 7)
    (hdef : ∀ d rest, depth ≤ d → definite (item d) major n (bs ++ rest) = some (v, rest)) :
    Encodes (depth + 1) (b :: bs) v := by
  intro d rest hd
  obtain ⟨d, rfl⟩ := Nat.exists_eq_add_of_le' (Nat.le_of_add_left_le hd)
  rw [List.cons_append, item_short hb hn hm]
  exact hdef d rest (Nat.le_of_succ_le_succ hd)

theorem Encodes.of_long (major n : ℕ) {arg : List UInt8} (hb : b.toNat = 32 * major + 24 + n)
    (hn : n < 4) (hm : major < 7)
    (harg : arg.length = if n = 0 then 1 else if n = 1 then 2 else if n = 2 then 4 else 8)
    (hdef : ∀ d rest, depth ≤ d →
      definite (item d) major (BigEndian.decode arg) (bs ++ rest) = some (v, rest)) :
    Encodes (depth + 1) (b :: arg ++ bs) v := by
  intro d rest hd
  obtain ⟨d, rfl⟩ := Nat.exists_eq_add_of_le' (Nat.le_of_add_left_le hd)
  rw [List.cons_append, List.cons_append, item_long hb hn hm, ← harg, List.append_assoc,
    takeN_append]
  exact hdef d rest (Nat.le_of_succ_le_succ hd)

theorem definite_bytes (p : List UInt8 → Option (Value × List UInt8)) (bs rest : List UInt8) :
    definite p 2 bs.length (bs ++ rest) = some (.bytes bs, rest) := by
  simp only [definite, takeN_append]
  rfl

theorem encodes_bytes_short (hb : b.toNat = 64 + bs.length) (hlen : bs.length < 24) :
    Encodes 1 (b :: bs) (.bytes bs) :=
  .of_short 2 hb hlen (by omega) fun d rest _ =>
    definite_bytes (item d) bs rest

theorem encodes_bytes_one (hlen : bs.length < 256) :
    Encodes 1 (0x58 :: BigEndian.encode 1 bs.length ++ bs) (.bytes bs) := by
  have harg : BigEndian.decode (BigEndian.encode 1 bs.length) = bs.length := by
    rw [BigEndian.decode_encode, pow_one, Nat.mod_eq_of_lt hlen]
  apply Encodes.of_long 2 0 rfl (by omega) (by omega)
  · rw [BigEndian.length_encode, if_pos rfl]
  · intro d rest _
    rw [harg]
    exact definite_bytes (item d) bs rest

theorem encodes_bytes_two (hlen : bs.length < 65536) :
    Encodes 1 (0x59 :: BigEndian.encode 2 bs.length ++ bs) (.bytes bs) := by
  have harg : BigEndian.decode (BigEndian.encode 2 bs.length) = bs.length := by
    rw [BigEndian.decode_encode]
    exact Nat.mod_eq_of_lt hlen
  apply Encodes.of_long 2 1 rfl (by omega) (by omega)
  · rw [BigEndian.length_encode]
    rfl
  · intro d rest _
    rw [harg]
    exact definite_bytes (item d) bs rest

theorem definite_text (p : List UInt8 → Option (Value × List UInt8)) {s : String}
    (hs : s.toByteArray = ⟨bs.toArray⟩) (rest : List UInt8) :
    definite p 3 bs.length (bs ++ rest) = some (.text s, rest) := by
  simp only [definite, takeN_append, Option.bind_eq_bind, Option.bind_some,
    utf8?_eq_some.2 hs]

theorem encodes_text_short {s : String} (hs : s.toByteArray = ⟨bs.toArray⟩)
    (hb : b.toNat = 96 + bs.length) (hlen : bs.length < 24) :
    Encodes 1 (b :: bs) (.text s) :=
  .of_short 3 hb hlen (by omega) fun d rest _ =>
    definite_text (item d) hs rest

theorem encodes_text_one {s : String} (hs : s.toByteArray = ⟨bs.toArray⟩)
    (hlen : bs.length < 256) :
    Encodes 1 (0x78 :: BigEndian.encode 1 bs.length ++ bs) (.text s) := by
  have harg : BigEndian.decode (BigEndian.encode 1 bs.length) = bs.length := by
    rw [BigEndian.decode_encode, pow_one, Nat.mod_eq_of_lt hlen]
  apply Encodes.of_long 3 0 rfl (by omega) (by omega)
  · rw [BigEndian.length_encode, if_pos rfl]
  · intro d rest _
    rw [harg]
    exact definite_text (item d) hs rest

theorem encodes_integer_short (hb : b.toNat < 24) : Encodes 1 [b] (.integer b.toNat) :=
  .of_short 0 (by omega) hb (by omega) fun _ _ _ => rfl

theorem encodes_integer_eight (hn : n < 18446744073709551616) :
    Encodes 1 (0x1b :: BigEndian.encode 8 n) (.integer n) := by
  have harg : BigEndian.decode (BigEndian.encode 8 n) = n := by
    rw [BigEndian.decode_encode]
    exact Nat.mod_eq_of_lt hn
  have h : Encodes 1 (0x1b :: BigEndian.encode 8 n ++ []) (.integer n) := by
    apply Encodes.of_long 0 3 rfl (by omega) (by omega)
    · rw [BigEndian.length_encode]
      rfl
    · intro d rest _
      rw [harg]
      rfl
  rwa [List.append_nil] at h

theorem encodes_array {vs : List Value} (hrow : Row depth bs vs)
    (hb : b.toNat = 128 + vs.length) (hlen : vs.length < 24) :
    Encodes (depth + 1) (b :: bs) (.array vs) := by
  apply Encodes.of_short 4 hb hlen (by omega)
  intro d rest hd
  simp only [definite, hrow.many hd rest]
  rfl

theorem encodes_map (hentries : Entries depth bs m) (hb : b.toNat = 160 + m.length)
    (hlen : m.length < 24) : Encodes (depth + 1) (b :: bs) (.map m) := by
  apply Encodes.of_short 5 hb hlen (by omega)
  intro d rest hd
  simp only [definite, hentries.many hd rest]
  rfl

end Oyster.Cbor
