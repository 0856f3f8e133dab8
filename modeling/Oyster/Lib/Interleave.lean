import Mathlib.Data.List.Nodup
import Mathlib.Data.List.Perm.Basic
import Oyster.Lib.Run

/-!
Any number of tasks over one shared state. A task has a state of its own and takes one step at
a time, on its own state and the shared one; the steps of different tasks interleave in any
order, and new tasks begin at any time.
-/

namespace Oyster.Interleave

variable {σ τ ε α : Type}

structure System (σ τ : Type) where
  shared : σ
  tasks : List τ

inductive Label (ε : Type) where
  | begin
  | own (i : ℕ) (e : ε)

inductive Step (first : τ) (own : σ → τ → ε → σ → τ → Prop) :
    System σ τ → Label ε → System σ τ → Prop
  | begin (s : System σ τ) : Step first own s .begin ⟨s.shared, s.tasks ++ [first]⟩
  | own {s : System σ τ} {i : ℕ} {t t' : τ} {e : ε} {shared : σ} :
      s.tasks[i]? = some t → own s.shared t e shared t' →
      Step first own s (.own i e) ⟨shared, s.tasks.set i t'⟩

def history (i : ℕ) (es : List (Label ε)) : List ε :=
  es.filterMap fun
    | .begin => none
    | .own j e => if j = i then some e else none

variable {first : τ} {own : σ → τ → ε → σ → τ → Prop}

theorem history_append (i : ℕ) (es es' : List (Label ε)) :
    history i (es ++ es') = history i es ++ history i es' :=
  List.filterMap_append

theorem history_begin (i : ℕ) : history i [(.begin : Label ε)] = [] := rfl

theorem history_own_self (i : ℕ) (e : ε) : history i [.own i e] = [e] := by
  simp [history]

theorem history_own_ne {i j : ℕ} (h : j ≠ i) (e : ε) : history i [.own j e] = [] := by
  simp [history, h]

/-- The steps of one task by itself. -/
abbrev Alone (own : σ → τ → ε → σ → τ → Prop) (p : σ × τ) (e : ε) (p' : σ × τ) : Prop :=
  own p.1 p.2 e p'.1 p'.2

theorem run_alone {p p' : σ × τ} {es : List ε} (h : Run (Alone own) p es p') {tasks : List τ}
    {i : ℕ} (hi : tasks[i]? = some p.2) :
    Run (Step first own) ⟨p.1, tasks⟩ (es.map (.own i)) ⟨p'.1, tasks.set i p'.2⟩ := by
  induction h generalizing tasks with
  | nil p =>
    obtain ⟨hlt, hget⟩ := List.getElem?_eq_some_iff.1 hi
    rw [← hget, List.set_getElem_self hlt]
    exact .nil _
  | @cons p q p' e es hs _ ih =>
    have hlt : i < tasks.length := (List.getElem?_eq_some_iff.1 hi).1
    have hrest := @ih (tasks.set i q.2) (List.getElem?_set_self hlt)
    rw [List.set_set] at hrest
    exact .cons (.own hi hs) hrest

/-- Each task is related to its past, and a number that no task has yet has none. -/
structure Past (inv : List ε → τ → Prop) (es : List (Label ε)) (s : System σ τ) : Prop where
  task : ∀ i t, s.tasks[i]? = some t → inv (history i es) t
  new : ∀ i, s.tasks.length ≤ i → history i es = []

variable {inv : List ε → τ → Prop}

theorem past_begin (hfirst : inv [] first) {s : System σ τ} {es : List (Label ε)}
    (h : Past inv es s) : Past inv (es ++ [.begin]) ⟨s.shared, s.tasks ++ [first]⟩ := by
  have hsame (i : ℕ) : history i (es ++ [.begin]) = history i es := by
    rw [history_append, history_begin, List.append_nil]
  refine ⟨fun i t ht => ?_, fun i hi => ?_⟩
  · rw [hsame]
    rcases Nat.lt_or_ge i s.tasks.length with hi | hi
    · rw [List.getElem?_append_left hi] at ht
      exact h.task i t ht
    · rw [List.getElem?_append_right hi] at ht
      have ht := List.mem_singleton.1 (List.mem_of_getElem? ht)
      rw [h.new i hi, ht]
      exact hfirst
  · simp only [List.length_append, List.length_singleton] at hi
    rw [hsame]
    exact h.new i (by omega)

theorem past_own (hown : ∀ hist s t e s' t', inv hist t → own s t e s' t' → inv (hist ++ [e]) t')
    {s : System σ τ} {es : List (Label ε)} (h : Past inv es s) {j : ℕ} {t t' : τ} {e : ε}
    {shared : σ} (hj : s.tasks[j]? = some t) (hst : own s.shared t e shared t') :
    Past inv (es ++ [.own j e]) ⟨shared, s.tasks.set j t'⟩ := by
  have hlt : j < s.tasks.length := (List.getElem?_eq_some_iff.1 hj).1
  refine ⟨fun i u hu => ?_, fun i hi => ?_⟩
  · rw [history_append]
    by_cases hij : j = i
    · subst hij
      rw [List.getElem?_set_self hlt] at hu
      rw [history_own_self, ← Option.some.inj hu]
      exact hown _ _ _ _ _ _ (h.task j t hj) hst
    · rw [List.getElem?_set_ne hij] at hu
      rw [history_own_ne hij, List.append_nil]
      exact h.task i u hu
  · rw [List.length_set] at hi
    rw [history_append, h.new i hi, history_own_ne (by omega), List.append_nil]

/-- A relation between the past of a task and its state holds of every task of every run, where
each step that the task itself takes keeps it. -/
theorem history_invariant (inv : List ε → τ → Prop) (hfirst : inv [] first)
    (hown : ∀ hist s t e s' t', inv hist t → own s t e s' t' → inv (hist ++ [e]) t')
    {shared : σ} {s : System σ τ} {es : List (Label ε)}
    (h : Run (Step first own) ⟨shared, []⟩ es s) {i : ℕ} {t : τ} (ht : s.tasks[i]? = some t) :
    inv (history i es) t := by
  have hstart : Past inv [] (⟨shared, []⟩ : System σ τ) :=
    ⟨fun i t ht => by simp at ht, fun i _ => rfl⟩
  have hpast : Past inv ([] ++ es) s := by
    refine Run.history (fun es s e s' hinv hst => ?_) h hstart
    cases hst with
    | begin => exact past_begin hfirst hinv
    | own hj hst => exact past_own hown hinv hj hst
  exact hpast.task i t ht

/-- The elements that the shared state has and those that a task has are moved, never made or
lost, by the steps of a task. -/
def Conserves (own : σ → τ → ε → σ → τ → Prop) (free : σ → List α) (held : τ → List α) : Prop :=
  ∀ s t e s' t', own s t e s' t' → (free s' ++ held t').Perm (free s ++ held t)

theorem flatMap_set_perm (held : τ → List α) {tasks : List τ} {i : ℕ} {t : τ}
    (hi : tasks[i]? = some t) (t' : τ) :
    ∃ rest, (tasks.flatMap held).Perm (held t ++ rest) ∧
      ((tasks.set i t').flatMap held).Perm (held t' ++ rest) := by
  induction tasks generalizing i with
  | nil => simp at hi
  | cons a tasks ih =>
    cases i with
    | zero =>
      rw [List.getElem?_cons_zero, Option.some.injEq] at hi
      subst hi
      exact ⟨tasks.flatMap held, .refl _, .refl _⟩
    | succ i =>
      rw [List.getElem?_cons_succ] at hi
      obtain ⟨rest, h, h'⟩ := ih hi
      -- the first task's elements move behind those of the task `i`
      have hmove (l : List α) : (held a ++ (l ++ rest)).Perm (l ++ (held a ++ rest)) := by
        rw [← List.append_assoc, ← List.append_assoc]
        exact List.perm_append_comm.append_right rest
      exact ⟨held a ++ rest, (h.append_left (held a)).trans (hmove _),
        (h'.append_left (held a)).trans (hmove _)⟩

def elements (free : σ → List α) (held : τ → List α) (s : System σ τ) : List α :=
  free s.shared ++ s.tasks.flatMap held

theorem elements_step {free : σ → List α} {held : τ → List α} (hown : Conserves own free held)
    (hfirst : held first = []) {s s' : System σ τ} {e : Label ε} (h : Step first own s e s') :
    (elements free held s').Perm (elements free held s) := by
  cases h with
  | begin => simp [elements, hfirst]
  | @own i t t' e shared hi hst =>
    obtain ⟨rest, hold, hnew⟩ := flatMap_set_perm held hi t'
    have hmoved := (hown _ _ _ _ _ hst).append_right rest
    rw [List.append_assoc, List.append_assoc] at hmoved
    exact ((hnew.append_left _).trans hmoved).trans (hold.symm.append_left _)

/-- Over every interleaving, the shared elements and those of all the tasks are the first ones. -/
theorem conserved {free : σ → List α} {held : τ → List α} (hown : Conserves own free held)
    (hfirst : held first = []) {s s' : System σ τ} {es : List (Label ε)}
    (h : Run (Step first own) s es s') :
    (elements free held s').Perm (elements free held s) := by
  induction h with
  | nil s => exact .refl _
  | cons hst _ ih => exact ih.trans (elements_step hown hfirst hst)

theorem disjoint_held {held : τ → List α} {tasks : List τ} (h : (tasks.flatMap held).Nodup)
    {i j : ℕ} (hij : i ≠ j) {a b : τ} (ha : tasks[i]? = some a) (hb : tasks[j]? = some b) :
    (held a).Disjoint (held b) := by
  have hpair := (List.nodup_flatMap.1 h).2
  obtain ⟨hi, rfl⟩ := List.getElem?_eq_some_iff.1 ha
  obtain ⟨hj, rfl⟩ := List.getElem?_eq_some_iff.1 hb
  rcases Nat.lt_or_gt_of_ne hij with hlt | hlt
  · exact List.pairwise_iff_getElem.1 hpair i j hi hj hlt
  · exact fun c hc hc' => List.pairwise_iff_getElem.1 hpair j i hj hi hlt hc' hc

/-- What is known of the shared state where a task stands is kept, if each step leads to what is
known after it and disturbs no other task; `good` is what holds of every run anyhow. -/
theorem known_run {known : σ → τ → Prop} {good : System σ τ → Prop} {start s : System σ τ}
    {es : List (Label ε)} (hfirst : ∀ s, known s first)
    (hnext : ∀ (s : System σ τ) (i : ℕ) (t : τ) (e : ε) (s' : σ) (t' : τ), good s →
      (∀ u ∈ s.tasks, known s.shared u) → s.tasks[i]? = some t → own s.shared t e s' t' →
      known s' t')
    (hstable : ∀ (s : System σ τ) (i j : ℕ) (t u : τ) (e : ε) (s' : σ) (t' : τ), good s → i ≠ j →
      s.tasks[i]? = some t → s.tasks[j]? = some u → known s.shared t → known s.shared u →
      own s.shared t e s' t' → known s' u)
    (hgood : ∀ es s, Run (Step first own) start es s → good s)
    (hstart : ∀ t ∈ start.tasks, known start.shared t) (h : Run (Step first own) start es s) :
    ∀ t ∈ s.tasks, known s.shared t := by
  let inv (es : List (Label ε)) (s : System σ τ) : Prop :=
    Run (Step first own) start es s ∧ ∀ t ∈ s.tasks, known s.shared t
  have hstep : ∀ hist s e s', inv hist s → Step first own s e s' → inv (hist ++ [e]) s' := by
    rintro hist s e s' ⟨hrun, hknown⟩ hst
    refine ⟨hrun.append (.cons hst (.nil _)), fun u hu => ?_⟩
    cases hst with
    | begin =>
      rcases List.mem_append.1 hu with hu | hu
      · exact hknown u hu
      · rw [List.mem_singleton.1 hu]
        exact hfirst _
    | @own i t t' e shared hi hown =>
      obtain ⟨j, hj⟩ := List.mem_iff_getElem?.1 hu
      by_cases hij : i = j
      · subst hij
        rw [List.getElem?_set_self (List.getElem?_eq_some_iff.1 hi).1] at hj
        rw [← Option.some.inj hj]
        exact hnext _ _ _ _ _ _ (hgood _ _ hrun) hknown hi hown
      · rw [List.getElem?_set_ne hij] at hj
        exact hstable _ _ _ _ _ _ _ _ (hgood _ _ hrun) hij hi hj
          (hknown _ (List.mem_of_getElem? hi)) (hknown _ (List.mem_of_getElem? hj)) hown
  exact (h.history hstep ⟨.nil start, hstart⟩ : inv ([] ++ es) s).2

variable {σ' τ' ε' : Type} {first' : τ'} {own' : σ' → τ' → ε' → σ' → τ' → Prop}

/-- Where each step of a task is one of a simpler task, or none, so is each run. -/
theorem simulates {shared : σ → σ'} {task : τ → τ'} (hfirst : task first = first')
    (hown : ∀ s t e s' t', own s t e s' t' →
      (∃ e', own' (shared s) (task t) e' (shared s') (task t')) ∨
        shared s' = shared s ∧ task t' = task t)
    {s s' : System σ τ} {es : List (Label ε)} (h : Run (Step first own) s es s') :
    ∃ es', Run (Step first' own') ⟨shared s.shared, s.tasks.map task⟩ es'
      ⟨shared s'.shared, s'.tasks.map task⟩ := by
  induction h with
  | nil => exact ⟨[], .nil _⟩
  | @cons s s₁ s' e es hst _ ih =>
    obtain ⟨es', hrun⟩ := ih
    cases hst with
    | begin =>
      rw [List.map_append, List.map_singleton, hfirst] at hrun
      exact ⟨_, .cons (.begin _) hrun⟩
    | @own i t t' e shared' hi hst =>
      rw [List.map_set] at hrun
      have hget : (s.tasks.map task)[i]? = some (task t) := by rw [List.getElem?_map, hi]; rfl
      rcases hown _ _ _ _ _ hst with ⟨e', hst'⟩ | ⟨hshared, htask⟩
      · exact ⟨_, .cons (.own hget hst') hrun⟩
      · obtain ⟨hlt, hget⟩ := List.getElem?_eq_some_iff.1 hget
        rw [htask, ← hget, List.set_getElem_self, hshared] at hrun
        exact ⟨es', hrun⟩

end Oyster.Interleave
