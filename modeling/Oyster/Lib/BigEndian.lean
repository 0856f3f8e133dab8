import Mathlib.Algebra.Order.Ring.Nat
import Mathlib.Data.List.Induction

namespace Oyster.BigEndian

/-- The last `n` bytes of a number. -/
def encode : ℕ → ℕ → List UInt8
  | 0, _ => []
  | n + 1, v => encode n (v / 256) ++ [UInt8.ofNat v]

def decode (bs : List UInt8) : ℕ := bs.foldl (fun v b => 256 * v + b.toNat) 0

@[simp] theorem length_encode (n v : ℕ) : (encode n v).length = n := by
  induction n generalizing v with
  | zero => rfl
  | succ n ih => simp [encode, ih]

@[simp] theorem decode_nil : decode [] = 0 := rfl

@[simp] theorem decode_concat (bs : List UInt8) (b : UInt8) :
    decode (bs ++ [b]) = 256 * decode bs + b.toNat := by
  simp [decode]

theorem decode_encode (n v : ℕ) : decode (encode n v) = v % 256 ^ n := by
  induction n generalizing v with
  | zero => simp [encode, Nat.mod_one]
  | succ n ih =>
    have hbyte : (UInt8.ofNat v).toNat = v % 256 := by simp
    rw [encode, decode_concat, ih, hbyte, pow_succ, Nat.mul_comm (256 ^ n) 256, Nat.mod_mul]
    omega

theorem decode_lt (bs : List UInt8) : decode bs < 256 ^ bs.length := by
  induction bs using List.reverseRecOn with
  | nil => simp
  | append_singleton bs b ih =>
    have hb : b.toNat < 256 := b.toNat_lt
    rw [decode_concat, List.length_append, List.length_singleton, pow_succ]
    omega

theorem encode_decode (bs : List UInt8) : encode bs.length (decode bs) = bs := by
  induction bs using List.reverseRecOn with
  | nil => rfl
  | append_singleton bs b ih =>
    have hb : b.toNat < 256 := b.toNat_lt
    have hdiv : (256 * decode bs + b.toNat) / 256 = decode bs := by omega
    have hlast : UInt8.ofNat (256 * decode bs + b.toNat) = b := by
      apply UInt8.toNat_inj.1
      have h : (UInt8.ofNat (256 * decode bs + b.toNat)).toNat =
          (256 * decode bs + b.toNat) % 256 := by simp
      omega
    rw [decode_concat, List.length_append, List.length_singleton, encode, hdiv, hlast, ih]

theorem encode_mod (n v : ℕ) : encode n (v % 256 ^ n) = encode n v := by
  have h := encode_decode (encode n v)
  rwa [length_encode, decode_encode] at h

end Oyster.BigEndian
