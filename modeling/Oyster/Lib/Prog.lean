import Mathlib.Data.List.Basic

/-!
A program is a finite tree of calls: an operation of the signature, and what to do with each
of its answers. The world that answers is a relation, so one program runs against every
environment that is allowed. `Exec` is such a run, with the calls it made and the world
each one met; `wp` is the precondition under which every run is safe.
-/

namespace Oyster

/-- A program that calls operations `op : Op`, answered in `Ans op`, and returns an `α`. -/
inductive Prog (Op : Type) (Ans : Op → Type) (α : Type) where
  | ret (a : α)
  | call (op : Op) (k : Ans op → Prog Op Ans α)

namespace Prog

variable {Op : Type} {Ans : Op → Type} {α β σ : Type}

def bind : Prog Op Ans α → (α → Prog Op Ans β) → Prog Op Ans β
  | ret a, f => f a
  | call op k, f => call op fun x => (k x).bind f

instance : Monad (Prog Op Ans) where
  pure := ret
  bind := bind

def perform (op : Op) : Prog Op Ans (Ans op) := call op ret

@[simp] theorem pure_eq (a : α) : (pure a : Prog Op Ans α) = ret a := rfl

@[simp] theorem ret_bind (a : α) (f : α → Prog Op Ans β) : (ret a >>= f) = f a := rfl

@[simp] theorem call_bind (op : Op) (k : Ans op → Prog Op Ans α) (f : α → Prog Op Ans β) :
    (call op k >>= f) = call op fun x => k x >>= f := rfl

@[simp] theorem perform_bind (op : Op) (f : Ans op → Prog Op Ans β) :
    (perform op >>= f) = call op f := rfl

/-- An answered call and the world that the call met. -/
structure Event (Op : Type) (Ans : Op → Type) (σ : Type) where
  world : σ
  op : Op
  ans : Ans op

/-- `env op w x w'`: in world `w` the operation may answer `x` and leave the world `w'`. -/
abbrev Env (Op : Type) (Ans : Op → Type) (σ : Type) := (op : Op) → σ → Ans op → σ → Prop

/-- `Exec env p w t a w'`: started in `w`, the program makes the calls `t`, returns `a` and
leaves the world `w'`. -/
inductive Exec (env : Env Op Ans σ) :
    Prog Op Ans α → σ → List (Event Op Ans σ) → α → σ → Prop
  | ret (a : α) (w : σ) : Exec env (.ret a) w [] a w
  | call {op : Op} {k : Ans op → Prog Op Ans α} {w w' w'' : σ} {x : Ans op}
      {t : List (Event Op Ans σ)} {a : α} :
      env op w x w' → Exec env (k x) w' t a w'' → Exec env (.call op k) w (⟨w, op, x⟩ :: t) a w''

/-- Every call is allowed in the world it meets, and every return meets the postcondition. -/
def wp (env : Env Op Ans σ) (allowed : Op → σ → Prop) (post : α → σ → Prop) :
    Prog Op Ans α → σ → Prop
  | ret a, w => post a w
  | call op k, w => allowed op w ∧ ∀ x w', env op w x w' → (k x).wp env allowed post w'

section Rules

variable {env : Env Op Ans σ} {allowed : Op → σ → Prop} {post : α → σ → Prop}

@[simp] theorem wp_ret (a : α) (w : σ) :
    (ret a : Prog Op Ans α).wp env allowed post w ↔ post a w := Iff.rfl

@[simp] theorem wp_call (op : Op) (k : Ans op → Prog Op Ans α) (w : σ) :
    (call op k).wp env allowed post w ↔
      allowed op w ∧ ∀ x w', env op w x w' → (k x).wp env allowed post w' := Iff.rfl

theorem wp_bind (p : Prog Op Ans α) (f : α → Prog Op Ans β) (post : β → σ → Prop) (w : σ) :
    (p >>= f).wp env allowed post w ↔
      p.wp env allowed (fun a w' => (f a).wp env allowed post w') w := by
  induction p generalizing w with
  | ret a => rfl
  | call op k ih => simp only [call_bind, wp_call, ih]

theorem wp_run_bind (x : OptionT (Prog Op Ans) α) (f : α → OptionT (Prog Op Ans) β)
    (post : Option β → σ → Prop) (w : σ) :
    (x >>= f).run.wp env allowed post w ↔
      x.run.wp env allowed (fun a w' => match a with
        | none => post none w'
        | some a => (f a).run.wp env allowed post w') w := by
  rw [OptionT.run_bind]
  unfold Option.elimM
  rw [wp_bind]
  refine iff_of_eq (congrArg (fun post => x.run.wp env allowed post w) ?_)
  funext a w'
  cases a <;> rfl

theorem wp_mono {allowed' : Op → σ → Prop} {post' : α → σ → Prop}
    (ha : ∀ op w, allowed op w → allowed' op w) (hp : ∀ a w, post a w → post' a w)
    {p : Prog Op Ans α} {w : σ} (h : p.wp env allowed post w) : p.wp env allowed' post' w := by
  induction p generalizing w with
  | ret a => exact hp a w h
  | call op k ih => exact ⟨ha op w h.1, fun x w' hx => ih x (h.2 x w' hx)⟩

theorem wp_and {allowed' : Op → σ → Prop} {post' : α → σ → Prop} {p : Prog Op Ans α} {w : σ}
    (h : p.wp env allowed post w) (h' : p.wp env allowed' post' w) :
    p.wp env (fun op w => allowed op w ∧ allowed' op w) (fun a w => post a w ∧ post' a w) w := by
  induction p generalizing w with
  | ret a => exact ⟨h, h'⟩
  | call op k ih => exact ⟨⟨h.1, h'.1⟩, fun x w' hx => ih x (h.2 x w' hx) (h'.2 x w' hx)⟩

theorem wp_map {τ : Type} {f : τ → σ} {env' : Env Op Ans τ}
    (henv : ∀ op w x w', env' op w x w' → env op (f w) x (f w')) {p : Prog Op Ans α} {w : τ}
    (h : p.wp env allowed post (f w)) :
    p.wp env' (fun op w => allowed op (f w)) (fun a w => post a (f w)) w := by
  induction p generalizing w with
  | ret a => exact h
  | call op k ih => exact ⟨h.1, fun x w' hx => ih x (h.2 x _ (henv op w x w' hx))⟩

/-- The rule for runs: a program whose precondition holds makes only allowed calls and
returns in its postcondition. -/
theorem Exec.sound {p : Prog Op Ans α} {w w' : σ} {t : List (Event Op Ans σ)} {a : α}
    (h : Exec env p w t a w') (hp : p.wp env allowed post w) :
    (∀ e ∈ t, allowed e.op e.world) ∧ post a w' := by
  induction h with
  | ret a w => exact ⟨by simp, hp⟩
  | call hx _ ih =>
    obtain ⟨hcalls, hpost⟩ := ih (hp.2 _ _ hx)
    exact ⟨List.forall_mem_cons.2 ⟨hp.1, hcalls⟩, hpost⟩

/-- An invariant that the allowed calls keep holds at every call and at the end. -/
theorem Exec.invariant {inv : σ → Prop} {allowed : Op → Prop}
    (hstep : ∀ op w x w', allowed op → env op w x w' → inv w → inv w')
    {p : Prog Op Ans α} {w w' : σ} {t : List (Event Op Ans σ)} {a : α}
    (h : Exec env p w t a w') (ht : ∀ e ∈ t, allowed e.op) (hw : inv w) :
    (∀ e ∈ t, inv e.world) ∧ inv w' := by
  induction h with
  | ret a w => exact ⟨by simp, hw⟩
  | call hx _ ih =>
    obtain ⟨hop, ht⟩ := List.forall_mem_cons.1 ht
    obtain ⟨hcalls, hend⟩ := ih ht (hstep _ _ _ _ hop hx hw)
    exact ⟨List.forall_mem_cons.2 ⟨hw, hcalls⟩, hend⟩

theorem Exec.mono {env' : Env Op Ans σ} (henv : ∀ op w x w', env op w x w' → env' op w x w')
    {p : Prog Op Ans α} {w w' : σ} {t : List (Event Op Ans σ)} {a : α}
    (h : Exec env p w t a w') : Exec env' p w t a w' := by
  induction h with
  | ret a w => exact .ret a w
  | call hx _ ih => exact .call (henv _ _ _ _ hx) ih

theorem Exec.map {τ : Type} {f : σ → τ} {env' : Env Op Ans τ}
    (henv : ∀ op w x w', env op w x w' → env' op (f w) x (f w'))
    {p : Prog Op Ans α} {w w' : σ} {t : List (Event Op Ans σ)} {a : α}
    (h : Exec env p w t a w') :
    Exec env' p (f w) (t.map fun e => ⟨f e.world, e.op, e.ans⟩) a (f w') := by
  induction h with
  | ret a w => exact .ret a (f w)
  | call hx _ ih => exact .call (henv _ _ _ _ hx) ih

theorem Exec.bind {p : Prog Op Ans α} {f : α → Prog Op Ans β} {w w' w'' : σ}
    {t t' : List (Event Op Ans σ)} {a : α} {b : β}
    (h : Exec env p w t a w') (hf : Exec env (f a) w' t' b w'') :
    Exec env (p >>= f) w (t ++ t') b w'' := by
  induction h with
  | ret a w => exact hf
  | call hx _ ih => exact .call hx (ih hf)

theorem Exec.of_bind {p : Prog Op Ans α} {f : α → Prog Op Ans β} {w w' : σ}
    {t : List (Event Op Ans σ)} {b : β} (h : Exec env (p >>= f) w t b w') :
    ∃ t₁ t₂ a w₁, t = t₁ ++ t₂ ∧ Exec env p w t₁ a w₁ ∧ Exec env (f a) w₁ t₂ b w' := by
  induction p generalizing w t with
  | ret a => exact ⟨[], t, a, w, rfl, .ret a w, h⟩
  | call op k ih =>
    cases h with
    | call hop h =>
      obtain ⟨t₁, t₂, a, w₁, ht, hp, hf⟩ := ih _ h
      exact ⟨_ :: t₁, t₂, a, w₁, by rw [ht]; rfl, .call hop hp, hf⟩

/-- A run of a program that goes on only with a value, cut where it does. -/
theorem Exec.of_run_bind {x : OptionT (Prog Op Ans) α} {f : α → OptionT (Prog Op Ans) β}
    {w w' : σ} {t : List (Event Op Ans σ)} {b : β} (h : Exec env (x >>= f).run w t (some b) w') :
    ∃ t₁ t₂ a w₁, t = t₁ ++ t₂ ∧ Exec env x.run w t₁ (some a) w₁ ∧
      Exec env (f a).run w₁ t₂ (some b) w' := by
  rw [OptionT.run_bind] at h
  obtain ⟨t₁, t₂, a, w₁, ht, hx, h⟩ := Exec.of_bind h
  cases a with
  | none => cases h
  | some a => exact ⟨t₁, t₂, a, w₁, ht, hx, h⟩

theorem Exec.run_bind {x : OptionT (Prog Op Ans) α} {f : α → OptionT (Prog Op Ans) β}
    {w w' w'' : σ} {t t' : List (Event Op Ans σ)} {a : α} {b : Option β}
    (h : Exec env x.run w t (some a) w') (hf : Exec env (f a).run w' t' b w'') :
    Exec env (x >>= f).run w (t ++ t') b w'' := by
  rw [OptionT.run_bind]
  exact h.bind hf

end Rules

section Calls

variable {ok : Op → Prop} {env : Env Op Ans σ}

def Calls (ok : Op → Prop) : Prog Op Ans α → Prop
  | ret _ => True
  | call op k => ok op ∧ ∀ x, (k x).Calls ok

theorem Calls.bind {p : Prog Op Ans α} {f : α → Prog Op Ans β} (hp : p.Calls ok)
    (hf : ∀ a, (f a).Calls ok) : (p >>= f).Calls ok := by
  induction p with
  | ret a => exact hf a
  | call op k ih => exact ⟨hp.1, fun x => ih x (hp.2 x)⟩

theorem Calls.run_bind {x : OptionT (Prog Op Ans) α} {f : α → OptionT (Prog Op Ans) β}
    (hx : x.run.Calls ok) (hf : ∀ a, (f a).run.Calls ok) : (x >>= f).run.Calls ok := by
  rw [OptionT.run_bind]
  apply Calls.bind hx
  intro a
  cases a with
  | none => trivial
  | some a => exact hf a

theorem Exec.calls {p : Prog Op Ans α} {w w' : σ} {t : List (Event Op Ans σ)} {a : α}
    (h : Exec env p w t a w') (hp : p.Calls ok) : ∀ e ∈ t, ok e.op := by
  induction h with
  | ret => simp
  | call _ _ ih => exact List.forall_mem_cons.2 ⟨hp.1, ih (hp.2 _)⟩

theorem Calls.wp {R : σ → σ → Prop} (hrefl : ∀ w, R w w)
    (htrans : ∀ {w w' w''}, R w w' → R w' w'' → R w w'')
    (hstep : ∀ op w x w', ok op → env op w x w' → R w w') {p : Prog Op Ans α}
    (hp : p.Calls ok) (w : σ) : p.wp env (fun _ _ => True) (fun _ w' => R w w') w := by
  induction p generalizing w with
  | ret a => exact hrefl w
  | call op k ih =>
    refine ⟨trivial, fun x w' hx => ?_⟩
    exact wp_mono (fun _ _ h => h) (fun _ _ h => htrans (hstep op w x w' hp.1 hx) h)
      (ih x (hp.2 x) w')

theorem Calls.mono {ok' : Op → Prop} (h : ∀ op, ok op → ok' op) {p : Prog Op Ans α}
    (hp : p.Calls ok) : p.Calls ok' := by
  induction p with
  | ret a => trivial
  | call op k ih => exact ⟨h op hp.1, fun x => ih x (hp.2 x)⟩

end Calls

section Translate

variable {Op' : Type} {Ans' : Op' → Type}

/-- Each call is replaced by a program that answers it. -/
def translate (f : (op : Op) → Prog Op' Ans' (Ans op)) : Prog Op Ans α → Prog Op' Ans' α
  | ret a => ret a
  | call op k => f op >>= fun x => (k x).translate f

theorem Calls.translate {ok : Op → Prop} {ok' : Op' → Prop}
    {f : (op : Op) → Prog Op' Ans' (Ans op)} (hf : ∀ op, ok op → (f op).Calls ok')
    {p : Prog Op Ans α} (hp : p.Calls ok) : (p.translate f).Calls ok' := by
  induction p with
  | ret a => trivial
  | call op k ih => exact (hf op hp.1).bind fun x => ih x (hp.2 x)

/-- Where the program of each allowed call does what the call may do, the programs together do
what the program over the calls does. -/
theorem wp_translate {f : (op : Op) → Prog Op' Ans' (Ans op)} {env : Env Op Ans σ}
    {env' : Env Op' Ans' σ} {allowed : Op → σ → Prop} {allowed' : Op' → σ → Prop}
    (hf : ∀ op w, allowed op w → (f op).wp env' allowed' (fun x w' => env op w x w') w)
    {p : Prog Op Ans α} {post : α → σ → Prop} {w : σ} (h : p.wp env allowed post w) :
    (p.translate f).wp env' allowed' post w := by
  induction p generalizing w with
  | ret a => exact h
  | call op k ih =>
    refine (wp_bind _ _ _ _).2 (wp_mono (fun _ _ h => h) (fun x w' hx => ?_) (hf op w h.1))
    exact ih x (h.2 x w' hx)

end Translate

section Guarded

variable {ok : Op → Bool} {env : Env Op Ans σ}

/-- The program up to its first call that is refused, where it stops without a result. -/
def guarded (ok : Op → Bool) : Prog Op Ans α → Prog Op Ans (Option α)
  | ret a => ret (some a)
  | call op k => if ok op then call op fun x => (k x).guarded ok else ret none

theorem guarded_call_refused {op : Op} {k : Ans op → Prog Op Ans α} (h : ok op = false) :
    (call op k).guarded ok = ret none := by
  rw [guarded, h, if_neg Bool.false_ne_true]

theorem Exec.of_guarded {p : Prog Op Ans α} (hp : p.Calls fun op => ok op = true) {w w' : σ}
    {t : List (Event Op Ans σ)} {r : Option α} (h : Exec env (p.guarded ok) w t r w') :
    ∃ a, r = some a ∧ Exec env p w t a w' := by
  induction p generalizing w t with
  | ret a =>
    cases h
    exact ⟨a, rfl, .ret a w'⟩
  | call op k ih =>
    rw [guarded, if_pos hp.1] at h
    cases h with
    | @call _ _ _ _ _ x _ _ hop h =>
      obtain ⟨a, rfl, ha⟩ := ih x (hp.2 x) h
      exact ⟨a, rfl, .call hop ha⟩

end Guarded

section History

variable {γ : Type} {env : Env Op Ans σ} {step : γ → (op : Op) → Ans op → γ}

def Env.history (env : Env Op Ans σ) (step : γ → (op : Op) → Ans op → γ) : Env Op Ans (σ × γ) :=
  fun op s x s' => env op s.1 x s'.1 ∧ s'.2 = step s.2 op x

def after (step : γ → (op : Op) → Ans op → γ) (g : γ) (t : List (Event Op Ans σ)) : γ :=
  t.foldl (fun g e => step g e.op e.ans) g

theorem Exec.history {p : Prog Op Ans α} {w w' : σ} {t : List (Event Op Ans σ)} {a : α}
    (h : Exec env p w t a w') (g : γ) :
    ∃ t', Exec (env.history step) p (w, g) t' a (w', after step g t) := by
  induction h generalizing g with
  | ret a w => exact ⟨[], .ret a _⟩
  | @call op _ _ _ _ x _ _ hx _ ih =>
    obtain ⟨t', ht'⟩ := ih (step g op x)
    exact ⟨_, .call ⟨hx, rfl⟩ ht'⟩

end History

section Ensures

variable {ε : Type} {env : Env Op Ans σ} {safe : σ → Prop} {w : σ}
  {x : ExceptT ε (Prog Op Ans) α} {post : α → σ → Prop}

/-- However the program ends, the world is safe, and a result meets the postcondition. -/
def Ensures (env : Env Op Ans σ) (safe : σ → Prop) (x : ExceptT ε (Prog Op Ans) α)
    (post : α → σ → Prop) (w : σ) : Prop :=
  x.run.wp env (fun _ _ => True) (fun r w' => safe w' ∧ ∀ a, r = .ok a → post a w') w

theorem Ensures.pure {a : α} (hw : safe w) (h : post a w) :
    Ensures env safe (pure a : ExceptT ε (Prog Op Ans) α) post w := by
  refine ⟨hw, fun b hb => ?_⟩
  cases hb
  exact h

theorem Ensures.throw {e : ε} (hw : safe w) :
    Ensures env safe (throw e : ExceptT ε (Prog Op Ans) α) post w :=
  ⟨hw, nofun⟩

theorem Ensures.lift {p : Prog Op Ans α}
    (h : p.wp env (fun _ _ => True) (fun a w' => safe w' ∧ post a w') w) :
    Ensures env safe (ExceptT.lift p : ExceptT ε (Prog Op Ans) α) post w := by
  have hrun : (ExceptT.lift p : ExceptT ε (Prog Op Ans) α).run = p >>= fun a => .ret (.ok a) := rfl
  unfold Ensures
  rw [hrun, wp_bind]
  refine wp_mono (fun _ _ h => h) ?_ h
  rintro a w' ⟨hw, hp⟩
  refine ⟨hw, fun b hb => ?_⟩
  cases hb
  exact hp

theorem Ensures.mono {post' : α → σ → Prop} (h : Ensures env safe x post w)
    (hp : ∀ a w', post a w' → post' a w') : Ensures env safe x post' w :=
  wp_mono (fun _ _ h => h) (fun _ w' h => ⟨h.1, fun a ha => hp a w' (h.2 a ha)⟩) h

theorem Ensures.bind {f : α → ExceptT ε (Prog Op Ans) β} {goal : β → σ → Prop}
    (hx : Ensures env safe x post w)
    (hf : ∀ a w', safe w' → post a w' → Ensures env safe (f a) goal w') :
    Ensures env safe (x >>= f) goal w := by
  have hrun : (x >>= f).run = x.run >>= ExceptT.bindCont f := rfl
  unfold Ensures
  rw [hrun, wp_bind]
  refine wp_mono (fun _ _ h => h) ?_ hx
  rintro r w' ⟨hw, hp⟩
  cases r with
  | error e => exact ⟨hw, nofun⟩
  | ok a => exact hf a w' hw (hp a rfl)

theorem Ensures.last {f : α → ExceptT ε (Prog Op Ans) β} {goal : β → σ → Prop}
    (hf : ∀ a w', Ensures env (fun _ => True) (f a) goal w') :
    Ensures env (fun _ => True) (x >>= f) goal w := by
  have hx : ∀ (p : Prog Op Ans (Except ε α)) w, p.wp env (fun _ _ => True)
      (fun r w' => True ∧ ∀ a, r = .ok a → True) w := by
    intro p
    induction p with
    | ret a => exact fun _ => ⟨trivial, fun _ _ => trivial⟩
    | call op k ih => exact fun w => ⟨trivial, fun x w' _ => ih x w'⟩
  exact Ensures.bind (hx x.run w) fun a w' _ _ => hf a w'

theorem Ensures.exec {w' : σ} {t : List (Event Op Ans σ)} {r : Except ε α}
    (h : Ensures env safe x post w) (hx : Exec env x.run w t r w') :
    safe w' ∧ ∀ a, r = .ok a → post a w' :=
  (hx.sound h).2

end Ensures

end Prog

end Oyster
