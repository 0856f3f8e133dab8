import Mathlib.Data.Nat.Notation

namespace Oyster.Decimal

inductive IntErrorKind where
  | empty
  | invalidDigit
  | posOverflow
deriving DecidableEq, Repr

def digitsLoop (bound acc : ℕ) : List Char → Except IntErrorKind ℕ
  | [] => .ok acc
  | c :: digits =>
    if c.isDigit then
      let acc := acc * 10 + (c.toNat - '0'.toNat)
      if acc < bound then digitsLoop bound acc digits else .error .posOverflow
    else .error .invalidDigit

/-- A sign alone is no number, and no `-` is read. -/
def fromStr (bound : ℕ) (src : List Char) : Except IntErrorKind ℕ :=
  match src with
  | [] => .error .empty
  | ['+'] => .error .invalidDigit
  | '+' :: digits => digitsLoop bound 0 digits
  | digits => digitsLoop bound 0 digits

def Numeral (src : List Char) (n : ℕ) : Prop :=
  ∃ digits, (src = digits ∨ src = '+' :: digits) ∧ digits ≠ [] ∧ (∀ c ∈ digits, c.isDigit) ∧
    Nat.ofDigitChars 10 digits 0 = n

variable {bound acc n : ℕ} {digits src : List Char}

theorem le_ofDigitChars : acc ≤ Nat.ofDigitChars 10 digits acc := by
  rw [Nat.ofDigitChars_eq_ofDigitChars_zero]
  have hpow := Nat.le_mul_of_pos_left acc (Nat.pow_pos (n := digits.length) (by decide : 0 < 10))
  omega

theorem digitsLoop_ok (hacc : acc < bound) :
    digitsLoop bound acc digits = .ok n ↔
      (∀ c ∈ digits, c.isDigit) ∧ Nat.ofDigitChars 10 digits acc = n ∧ n < bound := by
  induction digits generalizing acc with
  | nil =>
    rw [digitsLoop, Nat.ofDigitChars_nil, Except.ok.injEq]
    constructor
    · rintro rfl
      exact ⟨nofun, rfl, hacc⟩
    · exact fun h => h.2.1
  | cons c digits ih =>
    rw [digitsLoop, Nat.ofDigitChars_cons, Nat.mul_comm 10 acc]
    by_cases hc : c.isDigit
    · rw [if_pos hc]
      dsimp only
      by_cases hlt : acc * 10 + (c.toNat - '0'.toNat) < bound
      · rw [if_pos hlt, ih hlt]
        simp [hc]
      · rw [if_neg hlt]
        have hle := @le_ofDigitChars (acc * 10 + (c.toNat - '0'.toNat)) digits
        refine iff_of_false nofun ?_
        rintro ⟨-, rfl, hn⟩
        exact hlt (Nat.lt_of_le_of_lt hle hn)
    · rw [if_neg hc]
      exact iff_of_false nofun fun h => hc (h.1 c List.mem_cons_self)

theorem numeral_plus :
    Numeral ('+' :: digits) n ↔
      digits ≠ [] ∧ (∀ c ∈ digits, c.isDigit) ∧ Nat.ofDigitChars 10 digits 0 = n := by
  constructor
  · rintro ⟨ds, rfl | h, hne, hd, hn⟩
    · exact absurd (hd '+' List.mem_cons_self) (by decide)
    · cases h
      exact ⟨hne, hd, hn⟩
  · rintro ⟨hne, hd, hn⟩
    exact ⟨digits, .inr rfl, hne, hd, hn⟩

theorem numeral_digits (h : src.head? ≠ some '+') :
    Numeral src n ↔ src ≠ [] ∧ (∀ c ∈ src, c.isDigit) ∧ Nat.ofDigitChars 10 src 0 = n := by
  constructor
  · rintro ⟨ds, rfl | rfl, hne, hd, hn⟩
    · exact ⟨hne, hd, hn⟩
    · exact absurd rfl h
  · rintro ⟨hne, hd, hn⟩
    exact ⟨src, .inl rfl, hne, hd, hn⟩

/-- What is read as a number is a numeral below the bound, and the number is its value. -/
theorem fromStr_ok (hbound : 0 < bound) :
    fromStr bound src = .ok n ↔ Numeral src n ∧ n < bound := by
  unfold fromStr
  split
  · refine iff_of_false nofun fun h => ?_
    exact ((numeral_digits (by simp)).1 h.1).1 rfl
  · refine iff_of_false nofun fun h => ?_
    exact (numeral_plus.1 h.1).1 rfl
  next digits hne =>
    rw [digitsLoop_ok hbound, numeral_plus]
    have hdigits : digits ≠ [] := fun h => hne (h ▸ rfl)
    simp [hdigits, and_assoc]
  next hnil _ hplus =>
    have hhead : src.head? ≠ some '+' := by
      intro h
      obtain ⟨ds, rfl⟩ : ∃ ds, src = '+' :: ds := by
        cases src with
        | nil => cases h
        | cons c ds => exact ⟨ds, by rw [Option.some.inj h]⟩
      exact hplus ds rfl
    rw [digitsLoop_ok hbound, numeral_digits hhead]
    have hsrc : src ≠ [] := fun h => hnil h
    simp [hsrc, and_assoc]

end Oyster.Decimal
