import Mathlib.Data.List.Basic

namespace Oyster

variable {σ ε : Type}

inductive Run (step : σ → ε → σ → Prop) : σ → List ε → σ → Prop
  | nil (s : σ) : Run step s [] s
  | cons {s s' s'' : σ} {e : ε} {es : List ε} :
      step s e s' → Run step s' es s'' → Run step s (e :: es) s''

/-- A run whose every step meets `cond` in the state it starts from. -/
inductive Along (step : σ → ε → σ → Prop) (cond : σ → ε → Prop) : σ → List ε → σ → Prop
  | nil (s : σ) : Along step cond s [] s
  | cons {s s' s'' : σ} {e : ε} {es : List ε} :
      cond s e → step s e s' → Along step cond s' es s'' → Along step cond s (e :: es) s''

variable {step : σ → ε → σ → Prop} {cond : σ → ε → Prop} {inv : σ → Prop}

theorem Run.append {s s' s'' : σ} {es es' : List ε}
    (h : Run step s es s') (h' : Run step s' es' s'') : Run step s (es ++ es') s'' := by
  induction h with
  | nil => exact h'
  | cons hs _ ih => exact .cons hs (ih h')

theorem Run.of_append {s s'' : σ} {es es' : List ε} (h : Run step s (es ++ es') s'') :
    ∃ s', Run step s es s' ∧ Run step s' es' s'' := by
  induction es generalizing s with
  | nil => exact ⟨s, .nil s, h⟩
  | cons e es ih =>
    cases h with
    | cons hs h =>
      obtain ⟨s', h₁, h₂⟩ := ih h
      exact ⟨s', .cons hs h₁, h₂⟩

theorem Run.of_foldlM {f : σ → ε → Option σ} {s s' : σ} {es : List ε}
    (h : es.foldlM f s = some s') : Run (fun s e s' => f s e = some s') s es s' := by
  induction es generalizing s with
  | nil =>
    cases h
    exact .nil _
  | cons e es ih =>
    obtain ⟨s₁, hs, h⟩ := Option.bind_eq_some_iff.1 h
    exact .cons hs (ih h)

theorem Run.invariant (hstep : ∀ s e s', inv s → step s e s' → inv s') {s s' : σ} {es : List ε}
    (h : Run step s es s') (hs : inv s) : inv s' := by
  induction h with
  | nil => exact hs
  | cons hst _ ih => exact ih (hstep _ _ _ hs hst)

theorem Run.history {inv : List ε → σ → Prop}
    (hstep : ∀ hist s e s', inv hist s → step s e s' → inv (hist ++ [e]) s')
    {s s' : σ} {es hist : List ε} (h : Run step s es s') (hs : inv hist s) :
    inv (hist ++ es) s' := by
  induction h generalizing hist with
  | nil => simpa only [List.append_nil] using hs
  | cons hst _ ih =>
    have h := ih (hstep _ _ _ _ hs hst)
    rwa [List.append_assoc] at h

theorem Along.run {s s' : σ} {es : List ε} (h : Along step cond s es s') : Run step s es s' := by
  induction h with
  | nil s => exact .nil s
  | cons _ hs _ ih => exact .cons hs ih

/-- An invariant that every step meeting the condition preserves holds after every run
whose steps meet it. -/
theorem Along.invariant (hstep : ∀ s e s', inv s → cond s e → step s e s' → inv s')
    {s s' : σ} {es : List ε} (h : Along step cond s es s') (hs : inv s) : inv s' := by
  induction h with
  | nil => exact hs
  | cons hc hst _ ih => exact ih (hstep _ _ _ hs hc hst)

theorem Along.of_invariant {prop : σ → ε → Prop}
    (hstep : ∀ s e s', inv s → cond s e → step s e s' → inv s')
    (hprop : ∀ s e s', inv s → cond s e → step s e s' → prop s e)
    {s s' : σ} {es : List ε} (h : Along step cond s es s') (hs : inv s) :
    Along step prop s es s' := by
  induction h with
  | nil s => exact .nil s
  | cons hc hst _ ih => exact .cons (hprop _ _ _ hs hc hst) hst (ih (hstep _ _ _ hs hc hst))

theorem Along.of_run {s s' : σ} {es : List ε} (h : Run step s es s')
    (hc : ∀ s, ∀ e ∈ es, cond s e) : Along step cond s es s' := by
  induction h with
  | nil s => exact .nil s
  | cons hs _ ih =>
    exact .cons (hc _ _ List.mem_cons_self) hs (ih fun s e he => hc s e (List.mem_cons_of_mem _ he))

theorem Along.mono {step' : σ → ε → σ → Prop} (hstep : ∀ s e s', step s e s' → step' s e s')
    {s s' : σ} {es : List ε} (h : Along step cond s es s') : Along step' cond s es s' := by
  induction h with
  | nil s => exact .nil s
  | cons hc hs _ ih => exact .cons hc (hstep _ _ _ hs) ih

theorem Along.append {s s' s'' : σ} {es es' : List ε}
    (h : Along step cond s es s') (h' : Along step cond s' es' s'') :
    Along step cond s (es ++ es') s'' := by
  induction h with
  | nil => exact h'
  | cons hc hs _ ih => exact .cons hc hs (ih h')

/-- Nothing can happen any more. -/
def Stuck (step : σ → ε → σ → Prop) (s : σ) : Prop := ∀ e s', ¬step s e s'

/-- Two different steps of a state can be taken in either order. -/
def Diamond (step : σ → ε → σ → Prop) : Prop :=
  ∀ s e e' a b, step s e a → step s e' b → a = b ∨ ∃ c, step a e' c ∧ step b e c

/-- A step taken out of turn leaves one step less to the stuck state. -/
theorem Run.reorder (hd : Diamond step) {s z : σ} {es : List ε} (h : Run step s es z)
    (hz : Stuck step z) {e : ε} {a : σ} (ha : step s e a) :
    ∃ es', es'.length + 1 = es.length ∧ Run step a es' z := by
  induction h generalizing a with
  | nil s => exact absurd ha (hz _ _)
  | @cons s b z f es hb hr ih =>
    -- the step out of turn is the first of the run, or moves past it
    rcases hd s e f a b ha hb with rfl | ⟨c, hac, hbc⟩
    · exact ⟨es, rfl, hr⟩
    · obtain ⟨es', hlen, hrun⟩ := ih hz hbc
      exact ⟨f :: es', by simp [hlen], .cons hac hrun⟩

/-- Where steps are independent, every run goes on to the stuck state that one run reaches, and
all of them take as many steps. -/
theorem Run.complete (hd : Diamond step) {s z a : σ} {es fs : List ε} (h : Run step s es z)
    (hz : Stuck step z) (hf : Run step s fs a) :
    ∃ gs, fs.length + gs.length = es.length ∧ Run step a gs z := by
  induction hf generalizing es with
  | nil s => exact ⟨es, by simp, h⟩
  | cons hs _ ih =>
    obtain ⟨es', hlen, hrun⟩ := h.reorder hd hz hs
    obtain ⟨gs, hgs, hend⟩ := ih hrun
    refine ⟨gs, ?_, hend⟩
    simp only [List.length_cons]
    omega

/-- Every run is finite, and one that cannot go on has reached the goal. -/
def Finishes (step : σ → ε → σ → Prop) (goal : σ → Prop) (s : σ) : Prop :=
  ∃ n, ∀ es a, Run step s es a → es.length ≤ n ∧ (Stuck step a → goal a)

theorem Finishes.of_run (hd : Diamond step) {s z : σ} {es : List ε} {goal : σ → Prop}
    (h : Run step s es z) (hz : Stuck step z) (hgoal : goal z) : Finishes step goal s := by
  refine ⟨es.length, fun fs a hf => ?_⟩
  obtain ⟨gs, hlen, hrun⟩ := h.complete hd hz hf
  refine ⟨by omega, fun ha => ?_⟩
  cases hrun with
  | nil => exact hgoal
  | cons hs _ => exact absurd hs (ha _ _)

theorem Finishes.of_measure {goal : σ → Prop} (μ : σ → ℕ)
    (hstep : ∀ s e s', inv s → step s e s' → inv s' ∧ μ s' < μ s)
    (hgoal : ∀ s, inv s → Stuck step s → goal s) {s : σ} (hs : inv s) : Finishes step goal s := by
  refine ⟨μ s, fun es a h => ?_⟩
  have hrun : inv a ∧ es.length + μ a ≤ μ s := by
    induction h with
    | nil => exact ⟨hs, by simp⟩
    | cons hst _ ih =>
      obtain ⟨hs', hlt⟩ := hstep _ _ _ hs hst
      obtain ⟨ha, hle⟩ := ih hs'
      refine ⟨ha, ?_⟩
      rw [List.length_cons]
      omega
  exact ⟨by omega, hgoal a hrun.1⟩

/-- Where every run is finite, each one goes on to the goal. -/
theorem Finishes.reach {goal : σ → Prop} {s a : σ} {es : List ε} (h : Finishes step goal s)
    (ha : Run step s es a) : ∃ gs z, Run step a gs z ∧ goal z := by
  obtain ⟨n, hn⟩ := h
  -- on how many steps the bound still allows
  induction hk : n - es.length generalizing es a with
  | zero =>
    refine ⟨[], a, .nil a, (hn es a ha).2 fun e b hb => ?_⟩
    have hlen := (hn _ _ (ha.append (.cons hb (.nil b)))).1
    simp only [List.length_append, List.length_singleton] at hlen
    omega
  | succ k ih =>
    by_cases hstuck : Stuck step a
    · exact ⟨[], a, .nil a, (hn es a ha).2 hstuck⟩
    · simp only [Stuck, not_forall, not_not] at hstuck
      obtain ⟨e, b, hb⟩ := hstuck
      have hlen : n - (es ++ [e]).length = k := by
        simp only [List.length_append, List.length_singleton]
        omega
      obtain ⟨gs, z, hz, hgoal⟩ := ih (ha.append (.cons hb (.nil b))) hlen
      exact ⟨e :: gs, z, .cons hb hz, hgoal⟩

end Oyster
