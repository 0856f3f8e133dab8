import Mathlib.Data.List.Nodup
import Oyster.Executor.Sender

namespace Oyster.Executor

variable {W : Type}

theorem Task.step_cases {s s' : Node W} {t t' : Task W} {e : TaskEvent}
    (h : t.step s e = some (s', t')) :
    (s' = s ∧ t.isSent = false ∧ t'.isSent = false) ∨
    (∃ client a, t = .ready client a ∧ e = .go ∧ a.updateNonce = false ∧
      s' = Task.sign s client a ∧ t'.isSent = false) ∨
    (∃ client a nonce, t = .fetched client a nonce ∧ e = .go ∧
      s' = Task.writeNonce s client nonce ∧ t'.isSent = false) ∨
    (∃ client a nonce, t = .sending client a nonce ∧ e = .accepted ∧
      s' = Task.accept s client nonce ∧ t'.isSent = true) ∨
    (t.isSent = true ∧ s' = { s with nonceToSend := s.nonceToSend + 1 } ∧ t'.isSent = false) := by
  unfold Task.step at h
  split at h
  next =>
    cases h
    refine .inl ⟨rfl, rfl, ?_⟩
    split <;> rfl
  next =>
    cases h
    exact .inl ⟨rfl, rfl, rfl⟩
  next =>
    cases h
    exact .inl ⟨rfl, rfl, rfl⟩
  next =>
    cases h
    exact .inl ⟨rfl, rfl, rfl⟩
  next =>
    cases h
    exact .inl ⟨rfl, rfl, rfl⟩
  next =>
    split at h <;> cases h <;> exact .inl ⟨rfl, rfl, rfl⟩
  next client a =>
    split at h
    next =>
      cases h
      exact .inl ⟨rfl, rfl, rfl⟩
    next hu =>
      cases h
      exact .inr (.inl ⟨client, a, rfl, rfl, Bool.eq_false_iff.2 hu, rfl, rfl⟩)
  next =>
    cases h
    exact .inl ⟨rfl, rfl, rfl⟩
  next =>
    cases h
    exact .inl ⟨rfl, rfl, rfl⟩
  next client a nonce =>
    cases h
    exact .inr (.inr (.inl ⟨client, a, nonce, rfl, rfl, rfl, rfl⟩))
  next client a nonce =>
    cases h
    exact .inr (.inr (.inr (.inl ⟨client, a, nonce, rfl, rfl, rfl, rfl⟩)))
  next =>
    cases h
    refine .inl ⟨rfl, rfl, ?_⟩
    unfold Task.afterError
    split <;> rfl
  next =>
    cases h
    exact .inr (.inr (.inr (.inr ⟨rfl, rfl, rfl⟩)))
  next => cases h

namespace Senders

variable {s s' : Senders W} {e : SenderEvent W}

theorem step_task {i : ℕ} {ev : TaskEvent} (h : Step s (.task i ev) s') :
    ∃ t t' node, s.tasks[i]? = some t ∧ t.step s.node ev = some (node, t') ∧
      s' = { node := node, tasks := s.tasks.set i t' } := by
  simp only [Step, step] at h
  split at h
  · cases h
  next t ht =>
    obtain ⟨⟨node, t'⟩, hstep, h⟩ := Option.map_eq_some_iff.1 h
    exact ⟨t, t', node, ht, hstep, h.symm⟩

theorem inSent_set {i : ℕ} {t : Task W} (t' : Task W) (node : Node W) (ht : s.tasks[i]? = some t) :
    inSent { node := node, tasks := s.tasks.set i t' } + t.isSent.toNat =
      s.inSent + t'.isSent.toNat := by
  obtain ⟨hi, ht⟩ := List.getElem?_eq_some_iff.1 ht
  have hpos : t.isSent = true → 0 < s.tasks.countP Task.isSent := fun h =>
    List.countP_pos_iff.2 ⟨t, ht ▸ List.getElem_mem hi, h⟩
  unfold inSent
  dsimp only
  rw [List.countP_set hi, ht]
  cases hs : t.isSent with
  | false => cases t'.isSent <;> simp
  | true =>
    have := hpos hs
    cases t'.isSent <;> simp <;> omega

def Above (s : Senders W) (wallet : W) (nonce : ℕ) : Prop :=
  ∀ m, (wallet, m) ∈ s.node.history.accepted → m < nonce

/-- A nonce is read, or fetched after a nonce error, for the wallet whose nonce the node stores. It
is still stored when its send is accepted, and no other send waits for its increment then, nor when
a nonce is injected. A count that is fetched is above the nonces of the wallet so far. -/
def Uncrossed (s : Senders W) : SenderEvent W → Prop
  | .task i e =>
    match s.tasks[i]?, e with
    | some (.ready client a), .go => a.updateNonce = false → s.nonceWallet = some client
    | some (.fetched client _ nonce), .go => s.nonceWallet = some client ∧ s.Above client nonce
    | some (.sending client _ nonce), .accepted =>
      s.nonceWallet = some client ∧ s.node.nonceToSend = nonce ∧ s.inSent = 0
    | _, _ => True
  | .injectNonce wallet nonce => s.inSent = 0 ∧ s.Above wallet nonce
  | _ => True

/-- Every transaction is signed with a nonce of its wallet, no nonce is accepted twice, and none is
skipped. -/
structure Disciplined (s : Senders W) : Prop where
  signed : ∀ x ∈ s.node.history.signed, x.obtainedFor = some x.wallet
  accepted : s.node.history.accepted.Nodup
  injected : ∀ n k, s.node.history.injected = some (n, k) → s.inSent = 0 →
    s.node.nonceToSend = n + k

structure Inv (s : Senders W) : Prop where
  obtained : s.node.history.obtainedFor = s.nonceWallet
  signed : ∀ x ∈ s.node.history.signed, x.obtainedFor = some x.wallet
  accepted : s.node.history.accepted.Nodup
  below : ∀ w, s.nonceWallet = some w → s.Above w (s.node.nonceToSend + s.inSent)
  injected : ∀ n k, s.node.history.injected = some (n, k) →
    s.node.nonceToSend + s.inSent = n + k

theorem Inv.disciplined (h : s.Inv) : s.Disciplined where
  signed := h.signed
  accepted := h.accepted
  injected n k hn hs := by
    have := h.injected n k hn
    omega

theorem Inv.start : Inv ({} : Senders W) where
  obtained := rfl
  signed := nofun
  accepted := List.nodup_nil
  below := nofun
  injected := nofun

theorem Inv.task (h : s.Inv) {i : ℕ} {ev : TaskEvent} (hs : Step s (.task i ev) s')
    (hc : s.Uncrossed (.task i ev)) : s'.Inv := by
  obtain ⟨t, t', node, ht, hstep, rfl⟩ := step_task hs
  have hcount := inSent_set t' node ht
  simp only [Uncrossed, ht] at hc
  obtain ⟨rfl, h₁, h₂⟩ | ⟨client, a, rfl, rfl, hu, rfl, h₂⟩ |
    ⟨client, a, nonce, rfl, rfl, rfl, h₂⟩ | ⟨client, a, nonce, rfl, rfl, rfl, h₂⟩ |
    ⟨h₁, rfl, h₂⟩ := Task.step_cases hstep
  · -- nothing of the node changes
    rw [h₁, h₂] at hcount
    have hsame := Nat.add_right_cancel hcount
    refine ⟨h.obtained, h.signed, h.accepted, ?_, ?_⟩
    · rw [hsame]
      exact h.below
    · rw [hsame]
      exact h.injected
  · -- the nonce is read and signed
    rw [h₂] at hcount
    have hsame := Nat.add_right_cancel hcount
    refine ⟨h.obtained, ?_, h.accepted, ?_, ?_⟩
    · intro x hx
      rcases List.mem_append.1 hx with hx | hx
      · exact h.signed x hx
      · rw [List.mem_singleton.1 hx]
        exact h.obtained.trans (hc hu)
    · rw [hsame]
      exact h.below
    · rw [hsame]
      exact h.injected
  · -- a fetched count is written
    refine ⟨hc.1.symm, h.signed, h.accepted, ?_, nofun⟩
    intro w hw m hm
    have hclient : w = client := Option.some.inj (hw.symm.trans hc.1)
    subst hclient
    exact Nat.lt_of_lt_of_le (hc.2 m hm) (Nat.le_add_right _ _)
  · -- a send is accepted: the stored nonce is the one that was sent, so it is new
    obtain ⟨hwallet, hnonce, hnone⟩ := hc
    have hone : inSent { node := Task.accept s.node client nonce, tasks := s.tasks.set i t' } =
        1 := by
      rw [h₂, hnone] at hcount
      exact hcount
    have hfresh : (client, nonce) ∉ s.node.history.accepted := by
      intro hm
      have := h.below client hwallet nonce hm
      omega
    refine ⟨h.obtained, h.signed, ?_, ?_, ?_⟩
    · exact List.nodup_append.2 ⟨h.accepted, List.nodup_singleton _, by
        rintro x hx y hy rfl
        exact hfresh (List.mem_singleton.1 hy ▸ hx)⟩
    · intro w hw m hm
      rw [hone]
      dsimp only [Task.accept]
      rcases List.mem_append.1 hm with hm | hm
      · have := h.below w hw m hm
        omega
      · cases List.mem_singleton.1 hm
        omega
    · intro n k hk
      rw [hone]
      obtain ⟨⟨n', k'⟩, hk', heq⟩ := Option.map_eq_some_iff.1 hk
      cases heq
      have := h.injected n k' hk'
      dsimp only [Task.accept]
      omega
  · -- the increment takes the place of the send that waited for it
    rw [h₁, h₂] at hcount
    refine ⟨h.obtained, h.signed, h.accepted, ?_, ?_⟩
    · intro w hw m hm
      have hlt := h.below w hw m hm
      simp only [Bool.toNat_true, Bool.toNat_false] at hcount
      dsimp only
      omega
    · intro n k hk
      have heq := h.injected n k hk
      simp only [Bool.toNat_true, Bool.toNat_false] at hcount
      dsimp only
      omega

theorem Inv.step (h : s.Inv) (hs : Step s e s') (hc : s.Uncrossed e) : s'.Inv := by
  cases e with
  | task i ev => exact h.task hs hc
  | spawn =>
    cases hs
    have hsame : inSent { s with tasks := s.tasks ++ [.waiting] } = s.inSent := by
      simp [inSent, Task.isSent]
    refine ⟨h.obtained, h.signed, h.accepted, ?_, ?_⟩
    · rw [hsame]
      exact h.below
    · rw [hsame]
      exact h.injected
  | injectNonce wallet nonce =>
    obtain ⟨hnone, habove⟩ := hc
    simp only [Step, Senders.step] at hs
    split at hs
    · cases hs
    · cases hs
      refine ⟨rfl, h.signed, h.accepted, ?_, ?_⟩
      · intro w hw m hm
        cases hw
        exact Nat.lt_of_lt_of_le (habove m hm) (Nat.le_add_right _ _)
      · intro n k hk
        cases hk
        exact congrArg (nonce + ·) hnone
  | injectClient =>
    simp only [Step, Senders.step] at hs
    split at hs
    · cases hs
    next wallet hw =>
      cases hs
      have hsame : s.nonceWallet = some wallet := by
        unfold nonceWallet
        rw [hw]
        rfl
      refine ⟨h.obtained.trans hsame, h.signed, h.accepted, ?_, h.injected⟩
      intro w hw
      exact h.below w (hsame.trans hw)

end Senders

/-- In every run whose steps do not cross, the nonces are disciplined. -/
theorem nonce_discipline {s : Senders W} {es : List (SenderEvent W)}
    (h : Along Senders.Step Senders.Uncrossed {} es s) : s.Disciplined := by
  refine Senders.Inv.disciplined (h.invariant ?_ .start)
  intro s e s' hi hc hs
  exact hi.step hs hc

/-- A wallet with the on-chain nonce 5, and two job responses, one of an earlier connection. -/
def twoSends : List (SenderEvent ℕ) :=
  [.injectNonce 7 5, .injectClient, .spawn, .spawn, .task 0 .received, .task 1 .received,
    .task 0 (.estimated 21000 3), .task 1 (.estimated 21000 3), .task 0 .go, .task 0 .go,
    .task 0 .accepted, .task 0 .go, .task 1 .go, .task 1 .go, .task 1 .accepted, .task 1 .go]

theorem nonce_discipline_twoSends : ∃ s : Senders ℕ, s.node.nonceToSend = 7 ∧
    s.node.history.accepted = [(7, 5), (7, 6)] ∧ s.Disciplined := by
  have h : Along Senders.Step Senders.Uncrossed ({} : Senders ℕ) twoSends _ :=
    .cons ⟨rfl, nofun⟩ rfl (.cons True.intro rfl (.cons True.intro rfl (.cons True.intro rfl
      (.cons True.intro rfl (.cons True.intro rfl (.cons True.intro rfl (.cons True.intro rfl
      -- the first task reads the nonce, sends and counts on
      (.cons True.intro rfl (.cons (fun _ => rfl) rfl (.cons ⟨rfl, rfl, rfl⟩ rfl
      (.cons True.intro rfl
      -- and only then the second one
      (.cons True.intro rfl (.cons (fun _ => rfl) rfl (.cons ⟨rfl, rfl, rfl⟩ rfl
      (.cons True.intro rfl (.nil _))))))))))))))))
  exact ⟨_, rfl, rfl, nonce_discipline h⟩

def crossingSends : List (SenderEvent ℕ) :=
  [.injectNonce 7 5, .injectClient, .spawn, .spawn, .task 0 .received, .task 1 .received,
    .task 0 (.estimated 21000 3), .task 1 (.estimated 21000 3), .task 0 .go, .task 1 .go,
    .task 0 .go, .task 1 .go, .task 0 .accepted, .task 1 .accepted, .task 0 .go, .task 1 .go]

theorem crossing_sends_repeat : ∃ s : Senders ℕ, Run Senders.Step {} crossingSends s ∧
    s.node.history.accepted = [(7, 5), (7, 5)] ∧ ¬s.Disciplined := by
  refine ⟨_, Run.of_foldlM (f := Senders.step) rfl, rfl, fun h => ?_⟩
  exact absurd h.accepted (by decide)

end Oyster.Executor
