import Mathlib.Data.Nat.Basic

namespace Oyster

/-- Why a computation has no result. -/
inductive Stop where
  | running
  | panic
deriving DecidableEq

/-- What one round of a loop comes to: it goes on with a state, or leaves with a result. -/
inductive Round (σ α : Type) where
  | next (s : σ)
  | done (a : α)

namespace Loop

variable {σ α β : Type}

/-- At most `fuel` rounds of a loop. A round that is `none` panics. -/
def run (body : σ → Option (Round σ α)) : ℕ → σ → Except Stop α
  | 0, _ => .error .running
  | fuel + 1, s =>
    match body s with
    | none => .error .panic
    | some (.next s') => run body fuel s'
    | some (.done a) => .ok a

/-- No panic, and a result meets the postcondition. -/
def Safe (post : α → Prop) : Except Stop α → Prop
  | .ok a => post a
  | .error .running => True
  | .error .panic => False

def ofOption : Option α → Except Stop α
  | none => .error .panic
  | some a => .ok a

/-- Some fuel gives a result. -/
def Returns (x : ℕ → Except Stop α) : Prop := ∃ fuel a, x fuel = .ok a

/-- A round that goes on keeps the invariant, and one that leaves meets the postcondition. -/
def Keeps (inv : σ → Prop) (post : α → Prop) : Option (Round σ α) → Prop
  | none => False
  | some (.next s) => inv s
  | some (.done a) => post a

theorem Keeps.mono {inv inv' : σ → Prop} {post post' : α → Prop} {r : Option (Round σ α)}
    (h : Keeps inv post r) (hinv : ∀ s, inv s → inv' s) (hpost : ∀ a, post a → post' a) :
    Keeps inv' post' r := by
  match r with
  | some (.next s) => exact hinv s h
  | some (.done a) => exact hpost a h

section Rules

variable {body : σ → Option (Round σ α)} {post : α → Prop} {s s' : σ}

theorem run_next (h : body s = some (.next s')) (fuel : ℕ) :
    run body (fuel + 1) s = run body fuel s' := by
  rw [run, h]

theorem run_done {a : α} (h : body s = some (.done a)) (fuel : ℕ) :
    run body (fuel + 1) s = .ok a := by
  rw [run, h]

/-- The rule for loops: what every round keeps holds until the loop leaves. -/
theorem run_safe (inv : σ → Prop) (hbody : ∀ s, inv s → Keeps inv post (body s)) (hs : inv s)
    (fuel : ℕ) : Safe post (run body fuel s) := by
  induction fuel generalizing s with
  | zero => trivial
  | succ fuel ih =>
    have hround := hbody s hs
    unfold run
    cases hb : body s with
    | none =>
      rw [hb] at hround
      exact hround
    | some r =>
      rw [hb] at hround
      cases r with
      | next s' => exact ih hround
      | done a => exact hround

theorem Safe.bind {x : Except Stop α} {f : α → Except Stop β} {goal : β → Prop}
    (hx : Safe post x) (hf : ∀ a, post a → Safe goal (f a)) : Safe goal (x >>= f) := by
  match x with
  | .ok a => exact hf a hx
  | .error .running => trivial

theorem Safe.ofOption {x : Option α} {a : α} (hx : x = some a) (h : post a) :
    Safe post (ofOption x) := by
  rw [hx]
  exact h

theorem Safe.of_ok {x : Except Stop α} {a : α} (h : Safe post x) (hx : x = .ok a) : post a := by
  rw [hx] at h
  exact h

theorem Safe.ne_panic {x : Except Stop α} (h : Safe post x) : x ≠ .error .panic := by
  rintro rfl
  exact h

theorem run_mono {a : α} {fuel fuel' : ℕ} (h : run body fuel s = .ok a) (hle : fuel ≤ fuel') :
    run body fuel' s = .ok a := by
  induction fuel generalizing s fuel' with
  | zero => cases h
  | succ fuel ih =>
    obtain ⟨k, rfl⟩ : ∃ k, fuel' = k + 1 := ⟨fuel' - 1, by omega⟩
    unfold run at h ⊢
    cases hb : body s with
    | none =>
      rw [hb] at h
      cases h
    | some r =>
      rw [hb] at h
      cases r with
      | next s' => exact ih h (by omega)
      | done a => exact h

theorem run_unique {a a' : α} {fuel fuel' : ℕ} (h : run body fuel s = .ok a)
    (h' : run body fuel' s = .ok a') : a = a' := by
  have hmax := run_mono h (Nat.le_max_left fuel fuel')
  have hmax' := run_mono h' (Nat.le_max_right fuel fuel')
  exact Except.ok.inj (hmax.symm.trans hmax')

/-- The rule for termination: a loop whose rounds lower a measure leaves. -/
theorem run_returns (inv : σ → Prop) (μ : σ → ℕ)
    (hbody : ∀ s, inv s → Keeps (fun s' => inv s' ∧ μ s' < μ s) (fun _ => True) (body s))
    (hs : inv s) : Returns fun fuel => run body fuel s := by
  have hfuel : ∀ fuel s, inv s → μ s < fuel → ∃ a, run body fuel s = .ok a := by
    intro fuel
    induction fuel with
    | zero =>
      intro s _ hlt
      omega
    | succ fuel ih =>
      intro s hs hlt
      have hround := hbody s hs
      unfold run
      cases hb : body s with
      | none =>
        rw [hb] at hround
        exact hround.elim
      | some r =>
        rw [hb] at hround
        cases r with
        | next s' => exact ih s' hround.1 (by have := hround.2; omega)
        | done a => exact ⟨a, rfl⟩
  exact ⟨μ s + 1, hfuel _ s hs (Nat.lt_succ_self _)⟩

end Rules

theorem returns_bind_iff {x : ℕ → Except Stop α} {f : α → Except Stop β}
    (hf : ∀ a, ∃ b, f a = .ok b) : Returns (fun fuel => x fuel >>= f) ↔ Returns x := by
  constructor
  · rintro ⟨fuel, b, h⟩
    dsimp only at h
    cases hx : x fuel with
    | error e =>
      rw [hx] at h
      cases h
    | ok a => exact ⟨fuel, a, hx⟩
  · rintro ⟨fuel, a, h⟩
    obtain ⟨b, hb⟩ := hf a
    refine ⟨fuel, b, ?_⟩
    dsimp only
    rw [h]
    exact hb

section Spins

variable {body : σ → Option (Round σ α)} {s s' s'' : σ}

/-- The loop is still running under every fuel. -/
def Spins (body : σ → Option (Round σ α)) (s : σ) : Prop :=
  ∀ fuel, run body fuel s = .error .running

/-- Some rounds lead from one state to the other. -/
inductive Reaches (body : σ → Option (Round σ α)) : σ → σ → Prop
  | refl (s : σ) : Reaches body s s
  | next {s s' s'' : σ} : body s = some (.next s') → Reaches body s' s'' → Reaches body s s''

theorem Reaches.trans (h : Reaches body s s') (h' : Reaches body s' s'') :
    Reaches body s s'' := by
  induction h with
  | refl => exact h'
  | next hb _ ih => exact .next hb (ih h')

theorem Reaches.measure_le {μ : σ → ℕ}
    (hμ : ∀ s s', body s = some (.next s') → μ s' ≤ μ s) (h : Reaches body s s') :
    μ s' ≤ μ s := by
  induction h with
  | refl => exact Nat.le_refl _
  | next hb _ ih => exact Nat.le_trans ih (hμ _ _ hb)

theorem spins_of_next (inv : σ → Prop) (hinv : ∀ s, inv s → ∃ s', body s = some (.next s') ∧ inv s')
    (hs : inv s) : Spins body s := by
  intro fuel
  induction fuel generalizing s with
  | zero => rfl
  | succ fuel ih =>
    obtain ⟨s', hb, hs'⟩ := hinv s hs
    rw [run_next hb]
    exact ih hs'

theorem Spins.next (h : Spins body s) : ∃ s', body s = some (.next s') ∧ Spins body s' := by
  have hone := h 1
  unfold run at hone
  cases hb : body s with
  | none =>
    rw [hb] at hone
    cases hone
  | some r =>
    rw [hb] at hone
    cases r with
    | done a => cases hone
    | next s' =>
      refine ⟨s', rfl, fun fuel => ?_⟩
      rw [← run_next hb]
      exact h (fuel + 1)

theorem Spins.reaches (h : Spins body s) (hr : Reaches body s s') : Spins body s' := by
  induction hr with
  | refl => exact h
  | next hb _ ih =>
    obtain ⟨s₁, hb₁, hs₁⟩ := h.next
    cases hb.symm.trans hb₁
    exact ih hs₁

/-- A measure that no round raises stays the same from some state of a spinning loop on. -/
theorem Spins.settles {μ : σ → ℕ} (hμ : ∀ s s', body s = some (.next s') → μ s' ≤ μ s)
    (h : Spins body s) : ∃ s', Reaches body s s' ∧ ∀ s'', Reaches body s' s'' → μ s'' = μ s' := by
  induction hn : μ s using Nat.strongRecOn generalizing s with
  | ind n ih =>
    subst hn
    by_cases hlow : ∃ s', Reaches body s s' ∧ μ s' < μ s
    · obtain ⟨s', hr, hlt⟩ := hlow
      obtain ⟨s'', hr', hsame⟩ := ih _ hlt (h.reaches hr) rfl
      exact ⟨s'', hr.trans hr', hsame⟩
    · refine ⟨s, .refl s, fun s' hr => ?_⟩
      have hge : ¬μ s' < μ s := fun hlt => hlow ⟨s', hr, hlt⟩
      have hle := hr.measure_le hμ
      omega

/-- A loop that never panics returns, or it spins. -/
theorem returns_or_spins (hpanic : ∀ fuel, run body fuel s ≠ .error .panic) :
    Returns (fun fuel => run body fuel s) ∨ Spins body s := by
  by_cases h : Returns fun fuel => run body fuel s
  · exact .inl h
  · refine .inr fun fuel => ?_
    match hrun : run body fuel s with
    | .ok a => exact absurd ⟨fuel, a, hrun⟩ h
    | .error .running => rfl
    | .error .panic => exact absurd hrun (hpanic fuel)

theorem Spins.not_returns (h : Spins body s) : ¬Returns fun fuel => run body fuel s := by
  rintro ⟨fuel, a, hrun⟩
  dsimp only at hrun
  rw [h fuel] at hrun
  cases hrun

end Spins

end Loop

end Oyster
