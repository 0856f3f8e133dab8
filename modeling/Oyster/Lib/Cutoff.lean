import Mathlib.Data.List.Basic

namespace Oyster.Cutoff

variable {α : Type} (stamp : α → ℕ)

def upTo (cutoff : ℕ) (log : List α) : List α := log.filter fun x => stamp x ≤ cutoff

def above (cutoff : ℕ) (log : List α) : List α := log.filter fun x => cutoff < stamp x

def InOrder (log : List α) : Prop := log.Pairwise fun x y => stamp x ≤ stamp y

variable {stamp} {cutoff : ℕ} {log log' : List α}

theorem above_append : above stamp cutoff (log ++ log') =
    above stamp cutoff log ++ above stamp cutoff log' :=
  List.filter_append _ _

theorem above_of_le (h : ∀ x ∈ log, stamp x ≤ cutoff) : above stamp cutoff log = [] := by
  apply List.filter_eq_nil_iff.2
  intro x hx
  have hle := h x hx
  simpa using hle

theorem above_of_lt (h : ∀ x ∈ log, cutoff < stamp x) : above stamp cutoff log = log := by
  apply List.filter_eq_self.2
  intro x hx
  exact decide_eq_true (h x hx)

theorem above_cons_of_le {x : α} (h : stamp x ≤ cutoff) :
    above stamp cutoff (x :: log) = above stamp cutoff log :=
  List.filter_cons_of_neg (by simpa using h)

theorem above_cons_of_lt {x : α} (h : cutoff < stamp x) :
    above stamp cutoff (x :: log) = x :: above stamp cutoff log :=
  List.filter_cons_of_pos (by simpa using h)

theorem InOrder.upTo_append_above (h : InOrder stamp log) :
    upTo stamp cutoff log ++ above stamp cutoff log = log := by
  induction log with
  | nil => rfl
  | cons x log ih =>
    obtain ⟨hx, hlog⟩ := List.pairwise_cons.1 h
    by_cases hle : stamp x ≤ cutoff
    · have hup : upTo stamp cutoff (x :: log) = x :: upTo stamp cutoff log :=
        List.filter_cons_of_pos (by simpa using hle)
      rw [hup, above_cons_of_le hle, List.cons_append, ih hlog]
    · -- the first entry is above the cutoff, and so are all that follow
      have hall : ∀ y ∈ x :: log, cutoff < stamp y := by
        intro y hy
        rcases List.mem_cons.1 hy with heq | hy
        · rw [heq]
          omega
        · have hxy := hx y hy
          omega
      have hup : upTo stamp cutoff (x :: log) = [] := by
        apply List.filter_eq_nil_iff.2
        intro y hy
        have hlt := hall y hy
        simpa using hlt
      rw [hup, above_of_lt hall, List.nil_append]

theorem InOrder.filter (h : InOrder stamp log) (p : α → Bool) : InOrder stamp (log.filter p) :=
  List.Pairwise.sublist List.filter_sublist h

theorem InOrder.append (h : InOrder stamp log) (h' : InOrder stamp log')
    (hle : ∀ x ∈ log, ∀ y ∈ log', stamp x ≤ stamp y) : InOrder stamp (log ++ log') :=
  List.pairwise_append.2 ⟨h, h', hle⟩

end Oyster.Cutoff
