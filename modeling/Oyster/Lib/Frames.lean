import Mathlib.Data.List.Infix
import Mathlib.Data.Nat.Notation

namespace Oyster.Frames

variable {β : Type} {good : List β → Prop} {bytes : List β} {ps : List (List β)} {n m : ℕ}

/-- The packets whose bytes are all among the first `n` of the stream. -/
def within : ℕ → List (List β) → List (List β)
  | _, [] => []
  | n, p :: ps => if p.length ≤ n then p :: within (n - p.length) ps else []

theorem within_zero (hne : ∀ p ∈ ps, p ≠ []) : within 0 ps = [] := by
  cases ps with
  | nil => rfl
  | cons p ps =>
    have hp := List.length_pos_of_ne_nil (hne p List.mem_cons_self)
    rw [within, if_neg (by omega)]

theorem within_initial (n : ℕ) (ps : List (List β)) : within n ps <+: ps := by
  induction ps generalizing n with
  | nil => exact List.nil_prefix
  | cons p ps ih =>
    rw [within]
    split
    · exact (List.prefix_cons_inj p).2 (ih _)
    · exact List.nil_prefix

theorem within_length_le (n : ℕ) (ps : List (List β)) : (within n ps).flatten.length ≤ n := by
  induction ps generalizing n with
  | nil => exact Nat.zero_le n
  | cons p ps ih =>
    rw [within]
    split
    · have hrest := ih (n - p.length)
      rw [List.flatten_cons, List.length_append]
      omega
    · exact Nat.zero_le n

theorem within_concat {p : List β} (h : n < ps.flatten.length + p.length) :
    within n (ps ++ [p]) = within n ps := by
  induction ps generalizing n with
  | nil =>
    have hp : ¬p.length ≤ n := by
      simpa using h
    simp only [List.nil_append, within, if_neg hp]
  | cons q ps ih =>
    rw [List.cons_append, within, within]
    split
    · rw [List.flatten_cons, List.length_append] at h
      rw [ih (by omega)]
    · rfl

/-- Whole packets `ps`, and then nothing or the beginning of one more. -/
inductive Stream (good : List β → Prop) : List β → List (List β) → Prop
  | nil : Stream good [] []
  | cut {p : List β} (k : ℕ) : good p → k < p.length → Stream good (p.take k) []
  | cons {p bytes : List β} {ps : List (List β)} :
      good p → Stream good bytes ps → Stream good (p ++ bytes) (p :: ps)

theorem Stream.append {part : List β} (hps : ∀ p ∈ ps, good p) (hpart : Stream good part []) :
    Stream good (ps.flatten ++ part) ps := by
  induction ps with
  | nil => exact hpart
  | cons p ps ih =>
    rw [List.flatten_cons, List.append_assoc]
    exact .cons (hps p List.mem_cons_self) (ih fun q hq => hps q (List.mem_cons_of_mem p hq))

theorem good_of_stream (h : Stream good bytes ps) : ∀ p ∈ ps, good p := by
  induction h with
  | nil | cut => exact fun p hp => absurd hp List.not_mem_nil
  | cons hp _ ih => exact List.forall_mem_cons.2 ⟨hp, ih⟩

/-- Behind what is within the first `n` bytes, where the stream goes on, there is one packet; it
fills the stream until it is within. -/
theorem Stream.next (h : Stream good bytes ps) (hne : ∀ p, good p → p ≠ [])
    (hn : n < bytes.length) : ∃ q, good q ∧ n < (within n ps).flatten.length + q.length ∧
      ∀ m, n ≤ m → m ≤ bytes.length → m ≤ (within n ps).flatten.length + q.length →
        bytes.take m = (within n ps).flatten ++ q.take (m - (within n ps).flatten.length) ∧
        within m ps = if m = (within n ps).flatten.length + q.length then within n ps ++ [q]
          else within n ps := by
  induction h generalizing n with
  | nil => exact absurd hn (Nat.not_lt_zero n)
  | @cut p k hp hk =>
    rw [List.length_take] at hn
    refine ⟨p, hp, ?_, fun m _ hm _ => ?_⟩
    · rw [within, List.flatten_nil, List.length_nil]
      omega
    · rw [List.length_take] at hm
      rw [within, within, List.flatten_nil, List.length_nil, List.nil_append, Nat.sub_zero,
        if_neg (by omega), List.take_take, Nat.min_eq_left (by omega)]
      exact ⟨rfl, rfl⟩
  | @cons p rest ps hp hs ih =>
    rw [List.length_append] at hn
    by_cases hle : p.length ≤ n
    · -- the first packet is within, and the rest of the stream is that of the other ones
      obtain ⟨q, hq, hlt, hnext⟩ := ih (n := n - p.length) (by omega)
      rw [within, if_pos hle, List.flatten_cons, List.length_append]
      refine ⟨q, hq, by omega, fun m hnm hm hmq => ?_⟩
      rw [List.length_append] at hm
      obtain ⟨htake, hwithin⟩ := hnext (m - p.length) (by omega) (by omega) (by omega)
      refine ⟨?_, ?_⟩
      · rw [List.take_append, List.take_of_length_le (by omega), htake, List.append_assoc,
          Nat.sub_sub]
      · rw [within, if_pos (by omega), hwithin]
        by_cases hend : m = p.length + (within (n - p.length) ps).flatten.length + q.length
        · rw [if_pos hend, if_pos (by omega)]
          rfl
        · rw [if_neg hend, if_neg (by omega)]
    · -- the first packet is the one
      rw [within, if_neg hle, List.flatten_nil, List.length_nil]
      refine ⟨p, hp, by omega, fun m hnm hm hmp => ⟨?_, ?_⟩⟩
      · rw [List.take_append_of_le_length (by omega), List.nil_append, Nat.sub_zero]
      · rw [within]
        by_cases hend : m = 0 + p.length
        · rw [if_pos hend, if_pos (by omega), show m - p.length = 0 by omega,
            within_zero fun q hq => hne q (good_of_stream hs q hq)]
          rfl
        · rw [if_neg hend, if_neg (by omega)]

end Oyster.Frames
