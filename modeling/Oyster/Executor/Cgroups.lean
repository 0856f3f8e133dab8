import Mathlib.Data.List.Perm.Basic
import Mathlib.Data.Nat.Notation

namespace Oyster.Executor

structure Cgroups where
  free : List String

namespace Cgroups

/-- `get_cgroups`, over the names of the entries of the cgroup directory. -/
def getCgroups (entries : List String) : List String :=
  entries.filter fun name => "workerd_".toList.isPrefixOf name.toList

def new (entries : List String) : Cgroups := ⟨getCgroups entries⟩

/-- What `swap_remove(0)` leaves of a list whose first element is gone: the last element takes
its place. -/
def moveLastToFront {α : Type} (rest : List α) : List α :=
  match rest.getLast? with
  | none => []
  | some last => last :: rest.dropLast

def reserve (g : Cgroups) : Except String (String × Cgroups) :=
  match g.free with
  | [] => .error ""
  | cgroup :: rest => .ok (cgroup, ⟨moveLastToFront rest⟩)

def release (g : Cgroups) (cgroup : String) : Cgroups := ⟨g.free ++ [cgroup]⟩

theorem moveLastToFront_perm {α : Type} (rest : List α) : (moveLastToFront rest).Perm rest := by
  unfold moveLastToFront
  rcases List.eq_nil_or_concat rest with rfl | ⟨init, last, rfl⟩
  · rfl
  · simpa using (List.perm_append_singleton last init).symm

theorem reserve_perm {g g' : Cgroups} {cgroup : String} (h : g.reserve = .ok (cgroup, g')) :
    (g'.free ++ [cgroup]).Perm g.free := by
  obtain ⟨free⟩ := g
  cases free with
  | nil => cases h
  | cons c rest =>
    cases h
    exact (List.perm_append_singleton cgroup _).trans ((moveLastToFront_perm rest).cons cgroup)

end Cgroups

inductive IntErrorKind where
  | empty
  | invalidDigit
  | posOverflow
deriving DecidableEq, Repr

/-- The loop of `u16::from_str_radix(_, 10)`, with the value of the digits read so far. -/
def digitsLoop (acc : ℕ) : List Char → Except IntErrorKind UInt16
  | [] => .ok (UInt16.ofNat acc)
  | c :: digits =>
    if c.isDigit then
      let acc := acc * 10 + (c.toNat - '0'.toNat)
      if acc < 65536 then digitsLoop acc digits else .error .posOverflow
    else .error .invalidDigit

/-- `u16::from_str_radix(src, 10)`; a sign alone is no number, and no `-` is read. -/
def fromStrRadix (src : List Char) : Except IntErrorKind UInt16 :=
  match src with
  | [] => .error .empty
  | ['+'] => .error .invalidDigit
  | '+' :: digits => digitsLoop 0 digits
  | digits => digitsLoop 0 digits

/-- `get_port`: the names are those of `getCgroups`, so the eight bytes it skips are `workerd_`.
The sum wraps around. -/
def getPort (cgroup : String) : Except IntErrorKind UInt16 :=
  (fromStrRadix (cgroup.toList.drop 8)).map (· + 11000)

def workerdName (n : ℕ) : String := "workerd_" ++ n.repr

theorem digitsLoop_ofDigitChars {digits : List Char} (hd : ∀ c ∈ digits, c.isDigit) (acc : ℕ)
    (h : Nat.ofDigitChars 10 digits acc < 65536) :
    digitsLoop acc digits = .ok (UInt16.ofNat (Nat.ofDigitChars 10 digits acc)) := by
  induction digits generalizing acc with
  | nil => rw [Nat.ofDigitChars_nil]; rfl
  | cons c digits ih =>
    rw [Nat.ofDigitChars_cons] at h ⊢
    have hc := hd c List.mem_cons_self
    have hle : acc * 10 + (c.toNat - '0'.toNat) < 65536 := by
      -- more digits only make the number larger
      rw [Nat.ofDigitChars_eq_ofDigitChars_zero] at h
      have hpow := Nat.le_mul_of_pos_left (10 * acc + (c.toNat - '0'.toNat))
        (Nat.pow_pos (n := digits.length) (by decide : 0 < 10))
      omega
    rw [digitsLoop, if_pos hc, Nat.mul_comm 10 acc]
    rw [Nat.mul_comm 10 acc] at h
    dsimp only
    rw [if_pos hle]
    exact ih (fun c hc => hd c (List.mem_cons_of_mem _ hc)) _ h

theorem isDigit_of_mem_repr {n : ℕ} {c : Char} (hc : c ∈ n.repr.toList) : c.isDigit := by
  rw [Nat.toList_repr] at hc
  exact Nat.isDigit_of_mem_toDigits (by decide) (by decide) hc

theorem fromStrRadix_repr {n : ℕ} (h : n < 65536) :
    fromStrRadix n.repr.toList = .ok (UInt16.ofNat n) := by
  have hvalue : Nat.ofDigitChars 10 n.repr.toList 0 = n := by
    rw [Nat.toList_repr]
    exact Nat.ofDigitChars_ten_toDigits
  have hloop := digitsLoop_ofDigitChars (fun c hc => isDigit_of_mem_repr hc) 0
    (hvalue.symm ▸ h : Nat.ofDigitChars 10 n.repr.toList 0 < 65536)
  rw [hvalue] at hloop
  have hne : n.repr.toList ≠ [] := by
    rw [Nat.toList_repr]
    exact Nat.toDigits_ne_nil
  -- a decimal has no sign
  have hplus : '+' ∉ n.repr.toList := fun h => absurd (isDigit_of_mem_repr h) (by decide)
  rw [← hloop]
  unfold fromStrRadix
  split
  · contradiction
  · rename_i heq
    simp [heq] at hplus
  · rename_i heq
    simp [heq] at hplus
  · rfl

theorem getPort_workerdName {n : ℕ} (h : n < 65536) :
    getPort (workerdName n) = .ok (UInt16.ofNat (n + 11000)) := by
  have hdrop : (workerdName n).toList.drop 8 = n.repr.toList := by
    rw [workerdName, String.toList_append]
    rfl
  rw [getPort, hdrop, fromStrRadix_repr h]
  simp [Except.map]

theorem getPort_injective {m n : ℕ} (hm : m ≤ 54535) (hn : n ≤ 54535)
    (h : getPort (workerdName m) = getPort (workerdName n)) : m = n := by
  rw [getPort_workerdName (by omega), getPort_workerdName (by omega)] at h
  have h := congrArg UInt16.toNat (Except.ok.inj h)
  simp only [UInt16.toNat_ofNat'] at h
  omega

/-- The number 54536 comes back to the port 0, and a larger one to the port of a smaller one. -/
example : getPort (workerdName 54536) = .ok 0 := by rfl

end Oyster.Executor
