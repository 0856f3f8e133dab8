import Mathlib.Data.Int.Notation
import Mathlib.Data.List.Basic

namespace Oyster.Cbor

inductive Value where
  | integer (i : ℤ)
  | bytes (bs : List UInt8)
  | text (s : String)
  | array (vs : List Value)
  | map (entries : List (Value × Value))
  | tag (n : ℕ) (v : Value)
  /-- `false`, `true`, `null` and `undefined` are 20 to 23 -/
  | simple (n : ℕ)
  /-- the two, four or eight bytes of the number -/
  | float (bs : List UInt8)
deriving Repr

abbrev Map := List (Value × Value)

/-- What maps are looked up by. -/
inductive Key where
  | text (s : String)
  | integer (i : ℤ)
deriving DecidableEq, Repr

def Key.value : Key → Value
  | .text s => .text s
  | .integer i => .integer i

def Value.isKey (k : Key) : Value → Bool
  | .text s => k = .text s
  | .integer i => k = .integer i
  | .bytes _ | .array _ | .map _ | .tag _ _ | .simple _ | .float _ => false

theorem Value.isKey_iff {v : Value} {k : Key} : v.isKey k = true ↔ v = k.value := by
  cases v <;> cases k <;> simp [Value.isKey, Key.value, eq_comm]

namespace Map

variable {m : Map} {k j : Key}

/-- The value of the first entry under the key. -/
def get? (m : Map) (k : Key) : Option Value := (m.find? fun e => e.1.isKey k).map Prod.snd

def erase (m : Map) (k : Key) : Map := m.filter fun e => !e.1.isKey k

theorem get?_erase_ne (h : j ≠ k) : (m.erase j).get? k = m.get? k := by
  induction m with
  | nil => rfl
  | cons e m ih =>
    simp only [get?, erase] at ih ⊢
    by_cases hj : e.1.isKey j
    · have hk : e.1.isKey k = false := by
        rw [Bool.eq_false_iff]
        intro hk
        have hsame := (Value.isKey_iff.1 hj).symm.trans (Value.isKey_iff.1 hk)
        cases j <;> cases k <;> simp_all [Key.value]
      rw [List.filter_cons_of_neg (by simp [hj]), List.find?_cons_of_neg (by simp [hk])]
      exact ih
    · rw [List.filter_cons_of_pos (by simpa using hj)]
      by_cases hk : e.1.isKey k
      · rw [List.find?_cons_of_pos (by exact hk), List.find?_cons_of_pos (by exact hk)]
      · rw [List.find?_cons_of_neg (by exact hk), List.find?_cons_of_neg (by exact hk)]
        exact ih

end Map

end Oyster.Cbor
