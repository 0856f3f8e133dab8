import Oyster.Lib.BigEndian
import Oyster.Lib.Cbor

namespace Oyster.Cbor

variable {α : Type}

def utf8? (bs : List UInt8) : Option String := String.fromUTF8? ⟨bs.toArray⟩

def takeN (n : ℕ) (bs : List UInt8) : Option (List UInt8 × List UInt8) :=
  if n ≤ bs.length then some (bs.take n, bs.drop n) else none

/-- The argument of a head: in the additional information, or in the bytes that follow. -/
def argument (info : ℕ) (bs : List UInt8) : Option (ℕ × List UInt8) :=
  if info < 24 then some (info, bs)
  else if info ≤ 27 then do
    let width := if info = 24 then 1 else if info = 25 then 2 else if info = 26 then 4 else 8
    let (arg, bs) ← takeN width bs
    some (BigEndian.decode arg, bs)
  else none

/-- `n` items in a row. -/
def many (p : List UInt8 → Option (α × List UInt8)) :
    ℕ → List UInt8 → Option (List α × List UInt8)
  | 0, bs => some ([], bs)
  | n + 1, bs => do
    let (a, bs) ← p bs
    let (as, bs) ← many p n bs
    some (a :: as, bs)

/-- The items up to a break, at most `n` steps. -/
def untilBreak (p : List UInt8 → Option (α × List UInt8)) :
    ℕ → List UInt8 → Option (List α × List UInt8)
  | 0, _ => none
  | _ + 1, [] => none
  | n + 1, b :: bs =>
    if b = 0xff then some ([], bs)
    else do
      let (a, bs) ← p (b :: bs)
      let (as, bs) ← untilBreak p n bs
      some (a :: as, bs)

def pair (p : List UInt8 → Option (α × List UInt8)) (bs : List UInt8) :
    Option ((α × α) × List UInt8) := do
  let (k, bs) ← p bs
  let (v, bs) ← p bs
  some ((k, v), bs)

/-- A part of a string of indefinite length. -/
def chunk (major : ℕ) : List UInt8 → Option (List UInt8 × List UInt8)
  | [] => none
  | b :: bs =>
    if b.toNat / 32 = major then do
      let (n, bs) ← argument (b.toNat % 32) bs
      takeN n bs
    else none

def simpleOrFloat (info : ℕ) (bs : List UInt8) : Option (Value × List UInt8) :=
  if info < 24 then some (.simple info, bs)
  else if info = 24 then do
    let (arg, bs) ← takeN 1 bs
    if BigEndian.decode arg < 32 then none else some (.simple (BigEndian.decode arg), bs)
  else if info ≤ 27 then do
    let (num, bs) ← takeN (if info = 25 then 2 else if info = 26 then 4 else 8) bs
    some (.float num, bs)
  else none

/-- An item with the argument `n`, where `p` decodes the items inside. -/
def definite (p : List UInt8 → Option (Value × List UInt8)) (major n : ℕ) (bs : List UInt8) :
    Option (Value × List UInt8) :=
  match major with
  | 0 => some (.integer n, bs)
  | 1 => some (.integer (-1 - n), bs)
  | 2 => do
    let (s, bs) ← takeN n bs
    some (.bytes s, bs)
  | 3 => do
    let (s, bs) ← takeN n bs
    let t ← utf8? s
    some (.text t, bs)
  | 4 => do
    let (vs, bs) ← many p n bs
    some (.array vs, bs)
  | 5 => do
    let (entries, bs) ← many (pair p) n bs
    some (.map entries, bs)
  | _ => do
    let (v, bs) ← p bs
    some (.tag n v, bs)

def indefinite (p : List UInt8 → Option (Value × List UInt8)) (major : ℕ) (bs : List UInt8) :
    Option (Value × List UInt8) :=
  match major with
  | 2 => do
    let (chunks, bs) ← untilBreak (chunk 2) bs.length bs
    some (.bytes chunks.flatten, bs)
  | 3 => do
    let (chunks, bs) ← untilBreak (chunk 3) bs.length bs
    let ts ← chunks.mapM utf8?
    some (.text (String.join ts), bs)
  | 4 => do
    let (vs, bs) ← untilBreak p bs.length bs
    some (.array vs, bs)
  | 5 => do
    let (entries, bs) ← untilBreak (pair p) bs.length bs
    some (.map entries, bs)
  | _ => none

/-- An item with at most `depth` levels of items inside items. -/
def item : ℕ → List UInt8 → Option (Value × List UInt8)
  | 0, _ => none
  | _ + 1, [] => none
  | depth + 1, b :: bs =>
    if b.toNat / 32 = 7 then simpleOrFloat (b.toNat % 32) bs
    else if b.toNat % 32 = 31 then indefinite (item depth) (b.toNat / 32) bs
    else do
      let (n, bs) ← argument (b.toNat % 32) bs
      definite (item depth) (b.toNat / 32) n bs

/-- The item that the bytes are, with nothing left over. -/
def decode (bs : List UInt8) : Option Value :=
  match item bs.length bs with
  | some (v, []) => some v
  | _ => none

def Map.Only (m : Map) (k : Key) (v : Value) : Prop :=
  (m.filter fun e => e.1.isKey k) = [(k.value, v)]

variable {b : UInt8} {bs : List UInt8} {depth major n : ℕ}

theorem utf8?_eq_some {s : String} : utf8? bs = some s ↔ s.toByteArray = ⟨bs.toArray⟩ := by
  unfold utf8? String.fromUTF8?
  split
  · simp only [Option.some.injEq]
    constructor
    · rintro rfl
      rfl
    · intro h
      exact String.toByteArray_inj.1 h.symm
  · rename_i hvalid
    simp only [reduceCtorEq, false_iff]
    rintro h
    exact hvalid (h ▸ s.isValidUTF8)

theorem takeN_append (s bs : List UInt8) : takeN s.length (s ++ bs) = some (s, bs) := by
  simp [takeN]

theorem item_short (hb : b.toNat = 32 * major + n) (hn : n < 24) (hm : major < 7) :
    item (depth + 1) (b :: bs) = definite (item depth) major n bs := by
  have hdiv : b.toNat / 32 = major := by omega
  have hmod : b.toNat % 32 = n := by omega
  rw [item, hdiv, hmod, if_neg (by omega), if_neg (by omega), argument, if_pos hn]
  rfl

theorem item_long (hb : b.toNat = 32 * major + 24 + n) (hn : n < 4) (hm : major < 7) :
    item (depth + 1) (b :: bs) =
      (takeN (if n = 0 then 1 else if n = 1 then 2 else if n = 2 then 4 else 8) bs).bind
        fun r => definite (item depth) major (BigEndian.decode r.1) r.2 := by
  have hdiv : b.toNat / 32 = major := by omega
  have hmod : b.toNat % 32 = 24 + n := by omega
  have hwidth : (if 24 + n = 24 then 1 else if 24 + n = 25 then 2 else if 24 + n = 26 then 4
      else 8) = if n = 0 then 1 else if n = 1 then 2 else if n = 2 then 4 else 8 := by
    split_ifs <;> omega
  rw [item, hdiv, hmod, if_neg (by omega), if_neg (by omega), argument, if_neg (by omega),
    if_pos (by omega)]
  dsimp only
  rw [hwidth]
  cases takeN (if n = 0 then 1 else if n = 1 then 2 else if n = 2 then 4 else 8) bs <;> rfl

theorem item_null : item (depth + 1) (0xf6 :: bs) = some (.simple 22, bs) := by
  simp [item, simpleOrFloat]

theorem many_succ {p : List UInt8 → Option (α × List UInt8)} {r : List α × List UInt8} :
    many p (n + 1) bs = some r ↔ ∃ a bs' as, p bs = some (a, bs') ∧
      many p n bs' = some (as, r.2) ∧ r.1 = a :: as := by
  obtain ⟨as, rest⟩ := r
  simp only [many, Option.bind_eq_bind, Option.bind_eq_some_iff, Prod.exists, Option.some.injEq,
    Prod.mk.injEq]
  constructor
  · rintro ⟨a, bs', h, as', rest', h', rfl, rfl⟩
    exact ⟨a, bs', as', h, h', rfl⟩
  · rintro ⟨a, bs', as', h, h', rfl⟩
    exact ⟨a, bs', h, as', rest, h', rfl, rfl⟩

theorem pair_eq_some {p : List UInt8 → Option (α × List UInt8)} {k v : α} {rest : List UInt8} :
    pair p bs = some ((k, v), rest) ↔ ∃ bs', p bs = some (k, bs') ∧ p bs' = some (v, rest) := by
  simp only [pair, Option.bind_eq_bind, Option.bind_eq_some_iff, Prod.exists, Option.some.injEq,
    Prod.mk.injEq]
  constructor
  · rintro ⟨k', bs', h, v', rest', h', ⟨rfl, rfl⟩, rfl⟩
    exact ⟨bs', h, h'⟩
  · rintro ⟨bs', h, h'⟩
    exact ⟨k, bs', h, v, rest, h', ⟨rfl, rfl⟩, rfl⟩

theorem decode_eq_some {v : Value} : decode bs = some v ↔ item bs.length bs = some (v, []) := by
  unfold decode
  split
  · rename_i h
    rw [h]
    simp
  · rename_i h
    simp only [reduceCtorEq, false_iff]
    exact h v

end Oyster.Cbor
