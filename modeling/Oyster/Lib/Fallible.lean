import Mathlib.Data.List.Forall2
import Mathlib.Data.List.Induction

namespace Oyster.Fallible

variable {ε α β σ : Type} {s s' : σ} {x y : α} {xs ys : List α}

theorem bind_ok {x : Except ε α} {f : α → Except ε β} {b : β} :
    (x >>= f) = .ok b ↔ ∃ a, x = .ok a ∧ f a = .ok b := by
  cases x with
  | error e => exact ⟨nofun, fun ⟨_, h, _⟩ => nomatch h⟩
  | ok a => exact ⟨fun h => ⟨a, rfl, h⟩, fun ⟨_, h, h'⟩ => Except.ok.inj h ▸ h'⟩

theorem check_ok {x : Except ε Unit} {f : Unit → Except ε β} {b : β} :
    (x >>= f) = .ok b ↔ x = .ok () ∧ f () = .ok b := by
  rw [bind_ok]
  exact ⟨fun ⟨_, h, h'⟩ => ⟨h, h'⟩, fun ⟨h, h'⟩ => ⟨(), h, h'⟩⟩

theorem exists_unit {p : Unit → Prop} : (∃ u, p u) ↔ p () :=
  ⟨fun ⟨_, h⟩ => h, fun h => ⟨(), h⟩⟩

theorem pure_ok {a b : α} : (pure a : Except ε α) = .ok b ↔ a = b :=
  ⟨Except.ok.inj, congrArg Except.ok⟩

theorem ok_of_isSome {x : Except ε α} (h : x.toOption.isSome) : ∃ a, x = .ok a := by
  cases x with
  | error e => cases h
  | ok a => exact ⟨a, rfl⟩

theorem error_of_isSome_eq_false {x : Except ε α} (h : x.toOption.isSome = false) :
    ∃ e, x = .error e := by
  cases x with
  | error e => exact ⟨e, rfl⟩
  | ok a => cases h

@[simp] theorem ok_bind (a : α) (f : α → Except ε β) : (Except.ok a >>= f) = f a := rfl

@[simp] theorem error_bind (e : ε) (f : α → Except ε β) :
    ((Except.error e : Except ε α) >>= f) = .error e := rfl

@[simp] theorem bind_ok_right (x : Except ε α) : (x >>= fun a => .ok a) = x := bind_pure x

theorem toOption_eq_some {x : Except ε α} {a : α} : x.toOption = some a ↔ x = .ok a := by
  cases x <;> simp [Except.toOption]

@[simp] theorem toOption_ok (a : α) : (Except.ok a : Except ε α).toOption = some a := rfl

@[simp] theorem toOption_pure (a : α) : (pure a : Except ε α).toOption = some a := rfl

@[simp] theorem toOption_bind (x : Except ε α) (f : α → Except ε β) :
    (x >>= f).toOption = x.toOption.bind fun a => (f a).toOption := by
  cases x <;> rfl

@[simp] theorem toOption_map (x : Except ε α) (f : α → β) :
    (f <$> x).toOption = x.toOption.map f := by
  cases x <;> rfl

theorem mapError_ok {ε' : Type} {x : Except ε α} {f : ε → ε'} {a : α} :
    x.mapError f = .ok a ↔ x = .ok a := by
  cases x <;> simp [Except.mapError]

theorem mapM_ok {f : α → Except ε β} {ys : List β} :
    xs.mapM f = .ok ys ↔ List.Forall₂ (fun x y => f x = .ok y) xs ys := by
  induction xs generalizing ys with
  | nil => cases ys <;> simp [pure_ok]
  | cons x xs ih =>
    rw [List.mapM_cons, bind_ok]
    simp only [bind_ok, pure_ok, ih]
    constructor
    · rintro ⟨y, hy, ys, hys, rfl⟩
      exact .cons hy hys
    · intro h
      cases h with
      | cons hy hys => exact ⟨_, hy, _, hys, rfl⟩

variable {f : σ → α → Except ε σ}

theorem foldlM_cons_ok :
    (x :: xs).foldlM f s = .ok s' ↔ ∃ t, f s x = .ok t ∧ xs.foldlM f t = .ok s' := by
  rw [List.foldlM_cons, bind_ok]

theorem foldlM_append_ok :
    (xs ++ ys).foldlM f s = .ok s' ↔ ∃ t, xs.foldlM f s = .ok t ∧ ys.foldlM f t = .ok s' := by
  rw [List.foldlM_append, bind_ok]

theorem foldlM_concat_ok :
    (xs ++ [x]).foldlM f s = .ok s' ↔ ∃ t, xs.foldlM f s = .ok t ∧ f t x = .ok s' := by
  rw [foldlM_append_ok]
  simp only [foldlM_cons_ok, List.foldlM_nil, pure_ok, exists_eq_right]

theorem foldlM_invariant (inv : σ → Prop) (hstep : ∀ s x s', inv s → f s x = .ok s' → inv s')
    (h : xs.foldlM f s = .ok s') (hs : inv s) : inv s' := by
  induction xs generalizing s with
  | nil =>
    cases h
    exact hs
  | cons x xs ih =>
    obtain ⟨t, ht, h⟩ := foldlM_cons_ok.1 h
    exact ih h (hstep _ _ _ hs ht)

theorem foldlM_prefix_invariant (inv : List α → σ → Prop)
    (hstep : ∀ done s x s', inv done s → f s x = .ok s' → inv (done ++ [x]) s')
    (h : xs.foldlM f s = .ok s') (hs : inv [] s) : inv xs s' := by
  induction xs using List.reverseRecOn generalizing s' with
  | nil =>
    cases h
    exact hs
  | append_singleton xs x ih =>
    obtain ⟨t, ht, hx⟩ := foldlM_concat_ok.1 h
    exact hstep _ _ _ _ (ih ht) hx

end Oyster.Fallible
