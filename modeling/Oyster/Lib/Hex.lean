import Mathlib.Tactic.IntervalCases
import Oyster.Lib.Fallible

namespace Oyster.Hex

open Fallible

inductive FromHexError where
  | invalidHexCharacter (c : UInt8) (index : ℕ)
  | oddLength
deriving DecidableEq, Repr

def val (c : UInt8) (idx : ℕ) : Except FromHexError UInt8 :=
  if 65 ≤ c ∧ c ≤ 70 then .ok (c - 65 + 10)
  else if 97 ≤ c ∧ c ≤ 102 then .ok (c - 97 + 10)
  else if 48 ≤ c ∧ c ≤ 57 then .ok (c - 48)
  else .error (.invalidHexCharacter c idx)

def decodePairs : ℕ → List UInt8 → Except FromHexError (List UInt8)
  | idx, hi :: lo :: rest => do
    let h ← val hi idx
    let l ← val lo (idx + 1)
    let bytes ← decodePairs (idx + 2) rest
    return (h <<< 4 ||| l) :: bytes
  | _, _ => .ok []

def decode (text : List UInt8) : Except FromHexError (List UInt8) :=
  if text.length % 2 ≠ 0 then .error .oddLength else decodePairs 0 text

def digit (n : ℕ) : UInt8 := if n < 10 then UInt8.ofNat (48 + n) else UInt8.ofNat (87 + n)

def encodeByte (b : UInt8) : List UInt8 := [digit (b.toNat / 16), digit (b.toNat % 16)]

def encode (bytes : List UInt8) : List UInt8 := bytes.flatMap encodeByte

def encodeToString (bytes : List UInt8) : String :=
  String.ofList ((encode bytes).map fun d => Char.ofNat d.toNat)

@[simp] theorem encode_nil : encode [] = [] := rfl

@[simp] theorem encode_cons (b : UInt8) (bytes : List UInt8) :
    encode (b :: bytes) = digit (b.toNat / 16) :: digit (b.toNat % 16) :: encode bytes := rfl

@[simp] theorem encode_append (as bs : List UInt8) : encode (as ++ bs) = encode as ++ encode bs :=
  List.flatMap_append

@[simp] theorem length_encode (bytes : List UInt8) : (encode bytes).length = 2 * bytes.length := by
  induction bytes with
  | nil => rfl
  | cons b bytes ih =>
    rw [encode_cons, List.length_cons, List.length_cons, List.length_cons, ih]
    omega

theorem val_digit {n : ℕ} (h : n < 16) (idx : ℕ) : val (digit n) idx = .ok (UInt8.ofNat n) := by
  interval_cases n <;> rfl

theorem nibbles (b : UInt8) :
    UInt8.ofNat (b.toNat / 16) <<< 4 ||| UInt8.ofNat (b.toNat % 16) = b := by
  have hall : ∀ hi < 16, ∀ lo < 16,
      UInt8.ofNat hi <<< 4 ||| UInt8.ofNat lo = UInt8.ofNat (16 * hi + lo) := by decide
  have hb := b.toNat_lt
  rw [hall _ (by omega) _ (by omega), Nat.div_add_mod, UInt8.ofNat_toNat]

theorem decodePairs_encode (idx : ℕ) (bytes : List UInt8) :
    decodePairs idx (encode bytes) = .ok bytes := by
  induction bytes generalizing idx with
  | nil => rfl
  | cons b bytes ih =>
    have hb := b.toNat_lt
    rw [encode_cons, decodePairs, val_digit (by omega), val_digit (by omega), ih]
    simp only [ok_bind, nibbles]
    rfl

@[simp] theorem decode_encode (bytes : List UInt8) : decode (encode bytes) = .ok bytes := by
  have heven : ¬(encode bytes).length % 2 ≠ 0 := by
    rw [length_encode]
    omega
  rw [decode, if_neg heven, decodePairs_encode]

end Oyster.Hex
