import Mathlib.Logic.Function.Basic
import Oyster.Lib.Prog
import Oyster.Lib.Run

/-!
Each thread is a program, and the threads make their calls in any order. A thread sees a part of
the world, and as long as every call is one that its thread may make, the calls of the others only
let that part drift. So what a program does alone, it does beside the others.
-/

namespace Oyster.Threads

open Prog

variable {κ Op L σ Ω : Type} {Ans : Op → Type}

/-- What each thread has yet to do. A thread that has nothing to do rests in a state of its own. -/
structure System (κ Op : Type) (Ans : Op → Type) (L Ω : Type) where
  world : Ω
  threads : κ → Prog Op Ans L

inductive Label (κ Op : Type) where
  | begin (k : κ)
  | call (k : κ) (op : Op)
  | restart (k : κ)

structure Rules (κ Op : Type) (Ans : Op → Type) (L Ω : Type) where
  env : Env Op Ans Ω
  /-- what a thread at rest may go on with -/
  next : κ → L → Prog Op Ans L → Prop
  /-- where a thread may start -/
  first : κ → L → Prop

/-- The part of the world that a thread sees, and what may happen there. -/
structure View (κ Op : Type) (Ans : Op → Type) (L Ω σ : Type) where
  sees : κ → Ω → σ
  env : Env Op Ans σ
  drifts : σ → σ → Prop
  /-- what holds in every part at any time -/
  good : σ → Prop
  allowed : κ → Op → σ → Prop
  /-- what a thread at rest relies on -/
  safe : κ → L → σ → Prop

def View.Good (v : View κ Op Ans L Ω σ) (w : Ω) : Prop := ∀ k, v.good (v.sees k w)

/-- An allowed call does in its own part what the environment of the part says, and lets the other
parts drift. Drifting goes unnoticed, and a thread at rest goes on with allowed calls only. -/
structure View.Sound (v : View κ Op Ans L Ω σ) (r : Rules κ Op Ans L Ω) : Prop where
  own : ∀ {k op w x w'}, v.Good w → v.allowed k op (v.sees k w) → r.env op w x w' →
    v.env op (v.sees k w) x (v.sees k w')
  others : ∀ {k j op w x w'}, v.Good w → v.allowed k op (v.sees k w) → r.env op w x w' → j ≠ k →
    v.drifts (v.sees j w) (v.sees j w')
  good : ∀ {k op s x s'}, v.good s → v.allowed k op s → v.env op s x s' → v.good s'
  good_drift : ∀ {s s'}, v.drifts s s' → v.good s → v.good s'
  env_drift : ∀ {op s s' x s''}, v.drifts s s' → v.env op s' x s'' → v.env op s x s''
  allowed_drift : ∀ {k op s s'}, v.drifts s s' → v.allowed k op s → v.allowed k op s'
  safe_drift : ∀ {k l s s'}, v.drifts s s' → v.safe k l s → v.safe k l s'
  next : ∀ {k l p s}, v.good s → v.safe k l s → r.next k l p →
    p.wp v.env (v.allowed k) (v.safe k) s
  first : ∀ {k l s}, r.first k l → v.safe k l s

/-- Each thread goes on as it would alone. -/
structure View.Guarded (v : View κ Op Ans L Ω σ) (s : System κ Op Ans L Ω) : Prop where
  good : v.Good s.world
  threads : ∀ k, (s.threads k).wp v.env (v.allowed k) (v.safe k) (v.sees k s.world)

section Sound

variable {v : View κ Op Ans L Ω σ} {r : Rules κ Op Ans L Ω}

theorem View.Sound.wp_drift (hv : v.Sound r) {k : κ} {p : Prog Op Ans L} {w w' : σ}
    (hd : v.drifts w w') (h : p.wp v.env (v.allowed k) (v.safe k) w) :
    p.wp v.env (v.allowed k) (v.safe k) w' := by
  cases p with
  | ret l => exact hv.safe_drift hd h
  | call op c => exact ⟨hv.allowed_drift hd h.1, fun x w'' hx => h.2 x w'' (hv.env_drift hd hx)⟩

/-- At rest everywhere, all threads are where they may start. -/
theorem View.Sound.start (hv : v.Sound r) {w : Ω} {l : κ → L} (hw : v.Good w)
    (hl : ∀ k, r.first k (l k)) : v.Guarded ⟨w, fun k => .ret (l k)⟩ :=
  ⟨hw, fun k => hv.first (hl k)⟩

end Sound

variable [DecidableEq κ]

/-- A thread may be started again at any time, in the middle of its program as well. -/
inductive Step (r : Rules κ Op Ans L Ω) :
    System κ Op Ans L Ω → Label κ Op → System κ Op Ans L Ω → Prop
  | begin {s : System κ Op Ans L Ω} {k : κ} {l : L} {p : Prog Op Ans L} :
      s.threads k = .ret l → r.next k l p →
      Step r s (.begin k) ⟨s.world, Function.update s.threads k p⟩
  | call {s : System κ Op Ans L Ω} {k : κ} {op : Op} {c : Ans op → Prog Op Ans L} {x : Ans op}
      {w : Ω} :
      s.threads k = .call op c → r.env op s.world x w →
      Step r s (.call k op) ⟨w, Function.update s.threads k (c x)⟩
  | restart {s : System κ Op Ans L Ω} {k : κ} {l : L} :
      r.first k l → Step r s (.restart k) ⟨s.world, Function.update s.threads k (.ret l)⟩

section At

variable {r : Rules κ Op Ans L Ω} {k : κ} {w w' : Ω} {t : κ → Prog Op Ans L}

theorem Step.begin_at {l : L} {p : Prog Op Ans L} (h : r.next k l p) :
    Step r ⟨w, Function.update t k (.ret l)⟩ (.begin k) ⟨w, Function.update t k p⟩ := by
  have hstep := Step.begin (s := ⟨w, Function.update t k (.ret l)⟩) (Function.update_self k _ t) h
  rwa [Function.update_idem] at hstep

theorem Step.call_at {op : Op} {c : Ans op → Prog Op Ans L} {x : Ans op} (h : r.env op w x w') :
    Step r ⟨w, Function.update t k (.call op c)⟩ (.call k op) ⟨w', Function.update t k (c x)⟩ := by
  have hstep := Step.call (s := ⟨w, Function.update t k (.call op c)⟩)
    (Function.update_self k _ t) h
  rwa [Function.update_idem] at hstep

end At

def View.Allows (v : View κ Op Ans L Ω σ) (s : System κ Op Ans L Ω) : Label κ Op → Prop
  | .call k op => v.allowed k op (v.sees k s.world)
  | _ => True

section Step

variable {v : View κ Op Ans L Ω σ} {r : Rules κ Op Ans L Ω} {s s' : System κ Op Ans L Ω}
  {e : Label κ Op}

theorem View.Guarded.allows (hs : v.Guarded s) (h : Step r s e s') : v.Allows s e := by
  cases h with
  | begin => trivial
  | @call k _ _ _ _ hk _ =>
    have hwp := hs.threads k
    rw [hk] at hwp
    exact hwp.1
  | restart => trivial

theorem View.Guarded.update (hs : v.Guarded s) {k : κ} {p : Prog Op Ans L}
    (hp : p.wp v.env (v.allowed k) (v.safe k) (v.sees k s.world)) :
    v.Guarded ⟨s.world, Function.update s.threads k p⟩ := by
  refine ⟨hs.good, fun j => ?_⟩
  by_cases hj : j = k
  · subst hj
    simpa only [Function.update_self] using hp
  · simpa only [Function.update_of_ne hj] using hs.threads j

theorem View.Guarded.step (hv : v.Sound r) (hs : v.Guarded s) (h : Step r s e s') :
    v.Guarded s' := by
  cases h with
  | @begin k _ _ hk hnext =>
    have hwp := hs.threads k
    rw [hk] at hwp
    exact hs.update (hv.next (hs.good k) hwp hnext)
  | @call k op c x w hk hx =>
    have hwp := hs.threads k
    rw [hk] at hwp
    have hown := hv.own hs.good hwp.1 hx
    refine ⟨fun j => ?_, fun j => ?_⟩
    · by_cases hj : j = k
      · subst hj
        exact hv.good (hs.good j) hwp.1 hown
      · exact hv.good_drift (hv.others hs.good hwp.1 hx hj) (hs.good j)
    · by_cases hj : j = k
      · subst hj
        simpa only [Function.update_self] using hwp.2 x _ hown
      · -- the call of another thread is a drift here
        simpa only [Function.update_of_ne hj] using
          hv.wp_drift (hv.others hs.good hwp.1 hx hj) (hs.threads j)
  | restart hfirst => exact hs.update (hv.first hfirst)

theorem View.Guarded.run (hv : v.Sound r) (hs : v.Guarded s) {es : List (Label κ Op)}
    (h : Run (Step r) s es s') : v.Guarded s' :=
  h.invariant (fun _ _ _ hs h => hs.step hv h) hs

end Step

end Oyster.Threads
