import Mathlib.Algebra.Order.BigOperators.Group.List
import Mathlib.Algebra.Order.Ring.Nat
import Oyster.Lib.Run

/-!
Tasks over one shared state, as in `Interleave`, where a step may also spawn other tasks. An
outline says what is known wherever a task stands. It holds in every run, in whatever order the
tasks go on, if each step leads to what is known after it and disturbs no other task; two tasks
need not be undisturbed by each other where they cannot be there at once, for want of a token.
-/

namespace Oyster.Spawn

variable {σ τ ε : Type}

structure System (σ τ : Type) where
  shared : σ
  tasks : List τ

inductive Label (τ ε : Type) where
  | begin (t : τ)
  | own (i : ℕ) (e : ε)

/-- A task begins from outside, or a task takes a step and may spawn tasks. -/
inductive Step (outside : τ → Prop) (own : σ → τ → ε → σ → τ → List τ → Prop) :
    System σ τ → Label τ ε → System σ τ → Prop
  | begin {s : System σ τ} {t : τ} : outside t →
      Step outside own s (.begin t) ⟨s.shared, s.tasks ++ [t]⟩
  | own {s : System σ τ} {i : ℕ} {t t' : τ} {e : ε} {shared : σ} {spawned : List τ} :
      s.tasks[i]? = some t → own s.shared t e shared t' spawned →
      Step outside own s (.own i e) ⟨shared, s.tasks.set i t' ++ spawned⟩

/-- What is known of the shared state, and of it where a task stands; and the tokens that the
shared state and a task have. -/
structure Outline (outside : τ → Prop) (own : σ → τ → ε → σ → τ → List τ → Prop)
    (inv : σ → Prop) (known : σ → τ → Prop) (free : σ → ℕ) (held : τ → ℕ) : Prop where
  first : ∀ s t, outside t → inv s → known s t ∧ held t = 0
  next : ∀ s t e s' t' spawned, inv s → known s t → free s + held t ≤ 1 →
    own s t e s' t' spawned →
    inv s' ∧ known s' t' ∧ ∀ u ∈ spawned, known s' u
  tokens : ∀ s t e s' t' spawned, free s + held t ≤ 1 → own s t e s' t' spawned →
    free s' + held t' + (spawned.map held).sum = free s + held t
  stable : ∀ s t e s' t' spawned u, inv s → known s t → known s u →
    free s + held t + held u ≤ 1 → own s t e s' t' spawned → known s' u

variable {outside : τ → Prop} {own : σ → τ → ε → σ → τ → List τ → Prop} {inv : σ → Prop}
  {known : σ → τ → Prop} {free : σ → ℕ} {held : τ → ℕ}

/-- What holds of every state of a run. -/
structure Holds (inv : σ → Prop) (known : σ → τ → Prop) (free : σ → ℕ) (held : τ → ℕ)
    (s : System σ τ) : Prop where
  shared : inv s.shared
  tasks : ∀ t ∈ s.tasks, known s.shared t
  tokens : free s.shared + (s.tasks.map held).sum = 1

theorem sum_set {tasks : List τ} {i : ℕ} {t : τ} (hi : tasks[i]? = some t) (t' : τ) :
    ((tasks.set i t').map held).sum + held t = (tasks.map held).sum + held t' := by
  induction tasks generalizing i with
  | nil => cases hi
  | cons a tasks ih =>
    cases i with
    | zero =>
      cases hi
      simp only [List.set_cons_zero, List.map_cons, List.sum_cons]
      omega
    | succ i =>
      have htail := ih hi
      simp only [List.set_cons_succ, List.map_cons, List.sum_cons]
      omega

theorem held_le {tasks : List τ} {i : ℕ} {t : τ} (hi : tasks[i]? = some t) :
    held t ≤ (tasks.map held).sum :=
  List.single_le_sum (fun _ _ => Nat.zero_le _) _
    (List.mem_map_of_mem (List.mem_of_getElem? hi))

theorem held_add_held_le {tasks : List τ} {i j : ℕ} {t u : τ} (hij : i ≠ j)
    (hi : tasks[i]? = some t) (hj : tasks[j]? = some u) :
    held t + held u ≤ (tasks.map held).sum := by
  induction tasks generalizing i j with
  | nil => cases hi
  | cons a tasks ih =>
    rw [List.map_cons, List.sum_cons]
    match i, j with
    | 0, 0 => exact absurd rfl hij
    | 0, j + 1 =>
      cases hi
      have hle := @held_le _ held tasks j u hj
      omega
    | i + 1, 0 =>
      cases hj
      have hle := @held_le _ held tasks i t hi
      omega
    | i + 1, j + 1 =>
      have htail := ih (fun h => hij (congrArg (· + 1) h)) hi hj
      omega

theorem Outline.step (h : Outline outside own inv known free held) {s s' : System σ τ}
    {l : Label τ ε} (hs : Holds inv known free held s) (hst : Step outside own s l s') :
    Holds inv known free held s' := by
  obtain ⟨hshared, htasks, htokens⟩ := hs
  cases hst with
  | @begin t hout =>
    obtain ⟨hknown, hheld⟩ := h.first _ t hout hshared
    refine ⟨hshared, fun u hu => ?_, ?_⟩
    · rcases List.mem_append.1 hu with hu | hu
      · exact htasks u hu
      · exact List.mem_singleton.1 hu ▸ hknown
    · simp only [List.map_append, List.map_cons, List.map_nil, List.sum_append, List.sum_singleton,
        hheld]
      exact htokens
  | @own i t t' e shared spawned hi hown =>
    have hmem := List.mem_of_getElem? hi
    have hone := @held_le _ held _ _ _ hi
    obtain ⟨hinv, hnext, hspawned⟩ :=
      h.next _ _ _ _ _ _ hshared (htasks t hmem) (by omega) hown
    refine ⟨hinv, fun u hu => ?_, ?_⟩
    · rcases List.mem_append.1 hu with hu | hu
      · obtain ⟨j, hj⟩ := List.mem_iff_getElem?.1 hu
        by_cases hij : i = j
        · subst hij
          rw [List.getElem?_set_self (List.getElem?_eq_some_iff.1 hi).1] at hj
          exact Option.some.inj hj ▸ hnext
        · -- another task, which this step does not disturb
          rw [List.getElem?_set_ne hij] at hj
          have hle := @held_add_held_le _ held _ _ _ _ _ hij hi hj
          exact h.stable _ _ _ _ _ _ u hshared (htasks t hmem)
            (htasks u (List.mem_of_getElem? hj)) (by omega) hown
      · exact hspawned u hu
    · have hsum := @sum_set _ held _ _ _ hi t'
      have hmoved := h.tokens _ _ _ _ _ _ (by omega) hown
      simp only [List.map_append, List.sum_append]
      omega

/-- An outline holds in every state of every run. -/
theorem Outline.run (h : Outline outside own inv known free held) {s : σ} {s' : System σ τ}
    {ls : List (Label τ ε)} (hrun : Run (Step outside own) ⟨s, []⟩ ls s') (hinv : inv s)
    (hfree : free s = 1) : Holds inv known free held s' :=
  hrun.invariant (fun _ _ _ hs hst => h.step hs hst) ⟨hinv, nofun, hfree⟩

/-- One token is with the shared state or with one task. -/
theorem Holds.unique {s : System σ τ} (h : Holds inv known free held s) {i j : ℕ} {t u : τ}
    (hi : s.tasks[i]? = some t) (hj : s.tasks[j]? = some u) (ht : 0 < held t) (hu : 0 < held u) :
    i = j := by
  by_contra hij
  have hle := @held_add_held_le _ held _ _ _ _ _ hij hi hj
  have htokens := h.tokens
  omega

end Oyster.Spawn
