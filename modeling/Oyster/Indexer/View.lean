import Oyster.ControlPlane.Account
import Oyster.Indexer.Tables
import Oyster.Lib.Run

namespace Oyster.Indexer

open ControlPlane

/-- What a log is to a rate revision. -/
inductive Kind where
  | account
  | initiated
  /-- cancelled, finalized or closed -/
  | ended
  | lockCreated
  | lockDeleted
deriving DecidableEq

structure View where
  /-- the row of the job -/
  row : Option Job
  /-- whether the job has a row in `revise_rate_requests` -/
  requested : Bool
  account : Account

namespace View

inductive Step : View → Kind → View → Prop
  | opened {v : View} {rate balance : U256} {row : Job} : v.row = none → row.isClosed = false →
    row.balance = balance.toNat → row.rate = rate.toNat →
    Step v .account { v with
      row := some row
      account := ⟨balance, fromSecs row.lastSettled, rate, rate⟩ }
  | settled {v : View} {row : Job} {amount : U256} {timestamp : ℕ} : v.row = some row →
    row.isClosed = false → (amount.toNat : ℤ) ≤ row.balance →
    Step v .account { v with
      row := some { row with balance := row.balance - amount.toNat, lastSettled := timestamp }
      account := { v.account with
        balance := v.account.balance - amount
        lastSettled := fromSecs timestamp } }
  | deposited {v : View} {row : Job} {amount : U256} : v.row = some row →
    row.isClosed = false → row.balance + amount.toNat < 2 ^ 256 →
    Step v .account { v with
      row := some { row with balance := row.balance + amount.toNat }
      account := { v.account with balance := v.account.balance + amount } }
  | withdrew {v : View} {row : Job} {amount : U256} : v.row = some row →
    row.isClosed = false → (amount.toNat : ℤ) ≤ row.balance →
    Step v .account { v with
      row := some { row with balance := row.balance - amount.toNat }
      account := { v.account with balance := v.account.balance - amount } }
  | metadataUpdated {v : View} {row : Job} {metadata : String} : v.row = some row →
    row.isClosed = false →
    Step v .account { v with row := some { row with metadata := metadata } }
  | initiated {v : View} {newRate : U256} :
    Step v .initiated { v with
      account := { v.account with originalRate := v.account.rate, rate := newRate } }
  | cancelled {v : View} :
    Step v .ended { v with account := { v.account with rate := v.account.originalRate } }
  | finalized {v : View} {row : Job} {newRate : U256} : v.row = some row →
    row.isClosed = false → v.account.rate = newRate →
    Step v .ended { v with
      row := some { row with rate := newRate.toNat }
      account := { v.account with originalRate := newRate } }
  | closed {v : View} {row : Job} : v.row = some row →
    Step v .ended { v with row := some { row with isClosed := true } }
  | lockCreated {v : View} {row : Job} : v.row = some row → row.isClosed = false →
    v.requested = false → Step v .lockCreated { v with requested := true }
  | lockDeleted {v : View} : Step v .lockDeleted { v with requested := false }

/-- The account of the control plane is the one in the row of the indexer. -/
structure Same (account : Account) (row : Job) : Prop where
  balance : (account.balance.toNat : ℤ) = row.balance
  originalRate : (account.originalRate.toNat : ℤ) = row.rate
  lastSettled : account.lastSettled = fromSecs row.lastSettled

def Agrees (v : View) : Prop := ∀ row, v.row = some row → Same v.account row

def Open (v : View) : Prop := ∀ row, v.row = some row → row.isClosed = false

/-- The rate is the one that the indexer has. -/
def Unrevised (v : View) : Prop :=
  ∀ row, v.row = some row → v.account.rate = v.account.originalRate

/-- No revision of the rate of an open job is on its way. -/
def Settled (v : View) : Prop :=
  ∀ row, v.row = some row → row.isClosed = true ∨ v.account.rate = v.account.originalRate

section Step

variable {v u : View} {k : Kind}

theorem toNat_sub_of_le {a b : U256} {n : ℤ} (ha : (a.toNat : ℤ) = n) (hb : (b.toNat : ℤ) ≤ n) :
    ((a - b).toNat : ℤ) = n - b.toNat := by
  have hle : b ≤ a := by
    rw [BitVec.le_def]
    omega
  rw [BitVec.toNat_sub_of_le hle]
  omega

theorem toNat_add_of_lt {a b : U256} {n : ℤ} (ha : (a.toNat : ℤ) = n)
    (hb : n + b.toNat < 2 ^ 256) : ((a + b).toNat : ℤ) = n + b.toNat := by
  have hlt : a.toNat + b.toNat < 2 ^ 256 := by omega
  rw [BitVec.toNat_add_of_lt hlt]
  omega

theorem Step.agrees (h : Step v k u) (hv : v.Agrees) (hready : k = .initiated → v.Unrevised) :
    u.Agrees := by
  intro row' hrow'
  cases h with
  | opened hnone hopen hbalance hrate =>
    cases hrow'
    exact ⟨hbalance.symm, hrate.symm, rfl⟩
  | settled hrow hopen hle =>
    cases hrow'
    have hsame := hv _ hrow
    exact ⟨toNat_sub_of_le hsame.balance hle, hsame.originalRate, rfl⟩
  | deposited hrow hopen hlt =>
    cases hrow'
    have hsame := hv _ hrow
    exact ⟨toNat_add_of_lt hsame.balance hlt, hsame.originalRate, hsame.lastSettled⟩
  | withdrew hrow hopen hle =>
    cases hrow'
    have hsame := hv _ hrow
    exact ⟨toNat_sub_of_le hsame.balance hle, hsame.originalRate, hsame.lastSettled⟩
  | metadataUpdated hrow hopen =>
    cases hrow'
    have hsame := hv _ hrow
    exact ⟨hsame.balance, hsame.originalRate, hsame.lastSettled⟩
  | initiated =>
    have hsame := hv _ hrow'
    have hrate : v.account.rate = v.account.originalRate := hready rfl _ hrow'
    refine ⟨hsame.balance, ?_, hsame.lastSettled⟩
    show (v.account.rate.toNat : ℤ) = row'.rate
    rw [hrate]
    exact hsame.originalRate
  | cancelled =>
    have hsame := hv _ hrow'
    exact ⟨hsame.balance, hsame.originalRate, hsame.lastSettled⟩
  | finalized hrow hopen hrate =>
    cases hrow'
    have hsame := hv _ hrow
    exact ⟨hsame.balance, rfl, hsame.lastSettled⟩
  | closed hrow =>
    cases hrow'
    have hsame := hv _ hrow
    exact ⟨hsame.balance, hsame.originalRate, hsame.lastSettled⟩
  | lockCreated hrow hopen hfree =>
    have hsame := hv _ hrow'
    exact ⟨hsame.balance, hsame.originalRate, hsame.lastSettled⟩
  | lockDeleted =>
    have hsame := hv _ hrow'
    exact ⟨hsame.balance, hsame.originalRate, hsame.lastSettled⟩

theorem Step.settled_of (h : Step v k u) (hk : k ≠ .initiated) (hv : v.Settled) : u.Settled := by
  intro row' hrow'
  cases h with
  | opened _ _ _ _ => exact .inr rfl
  | settled hrow _ _ | deposited hrow _ _ | withdrew hrow _ _ | metadataUpdated hrow _ =>
    cases hrow'
    have hsettled := hv _ hrow
    exact hsettled
  | initiated => exact absurd rfl hk
  | cancelled => exact .inr rfl
  | finalized hrow _ hrate => exact .inr hrate
  | closed hrow =>
    cases hrow'
    exact .inl rfl
  | lockCreated _ _ _ | lockDeleted => exact hv _ hrow'

theorem Step.settled_of_ended (h : Step v .ended u) : u.Settled := by
  intro row' hrow'
  cases h with
  | cancelled => exact .inr rfl
  | finalized hrow _ hrate => exact .inr hrate
  | closed hrow =>
    cases hrow'
    exact .inl rfl

theorem Step.requested_eq (h : Step v k u) (hcreated : k ≠ .lockCreated)
    (hdeleted : k ≠ .lockDeleted) : u.requested = v.requested := by
  cases h with
  | lockCreated _ _ _ => exact absurd rfl hcreated
  | lockDeleted => exact absurd rfl hdeleted
  | _ => rfl

theorem Step.requested_of_lockCreated (h : Step v .lockCreated u) :
    v.requested = false ∧ u.requested = true ∧ v.Open := by
  cases h with
  | lockCreated hrow hopen hfree =>
    refine ⟨hfree, rfl, ?_⟩
    intro row hrow'
    cases hrow.symm.trans hrow'
    exact hopen

theorem Step.open_of (h : Step v k u) (hk : k ≠ .ended) (hv : v.Open) : u.Open := by
  intro row' hrow'
  cases h with
  | opened _ hopen _ _ =>
    cases hrow'
    exact hopen
  | settled _ hopen _ | deposited _ hopen _ | withdrew _ hopen _ | metadataUpdated _ hopen =>
    cases hrow'
    exact hopen
  | initiated | lockCreated _ _ _ | lockDeleted => exact hv _ hrow'
  | cancelled | finalized _ _ _ | closed _ => exact absurd rfl hk

theorem Step.open_before (h : Step v k u) (hu : u.Open) : v.Open := by
  intro row hrow
  cases h with
  | opened hnone _ _ _ => cases hnone.symm.trans hrow
  | settled hrow' hopen _ | deposited hrow' hopen _ | withdrew hrow' hopen _
  | metadataUpdated hrow' hopen | finalized hrow' hopen _ =>
    cases hrow'.symm.trans hrow
    exact hopen
  | closed hrow' =>
    cases hrow'.symm.trans hrow
    have hclosed := hu _ rfl
    cases hclosed
  | initiated | cancelled | lockCreated _ _ _ | lockDeleted => exact hu _ hrow

end Step

section Run

variable {v u w : View} {ks ks' : List Kind}

theorem Open.unrevised (ho : v.Open) (hs : v.Settled) : v.Unrevised := by
  intro row hrow
  have hopen := ho row hrow
  rcases hs row hrow with hclosed | hrate
  · rw [hopen] at hclosed
    cases hclosed
  · exact hrate

theorem run_settled (h : Run Step v ks u) (hks : .initiated ∉ ks) (hv : v.Settled) :
    u.Settled := by
  induction h with
  | nil => exact hv
  | cons hstep _ ih =>
    rw [List.mem_cons, not_or] at hks
    exact ih hks.2 (hstep.settled_of (Ne.symm hks.1) hv)

theorem run_requested (h : Run Step v ks u) (hcreated : .lockCreated ∉ ks)
    (hdeleted : .lockDeleted ∉ ks) : u.requested = v.requested := by
  induction h with
  | nil => rfl
  | cons hstep _ ih =>
    rw [List.mem_cons, not_or] at hcreated hdeleted
    rw [ih hcreated.2 hdeleted.2, hstep.requested_eq (Ne.symm hcreated.1) (Ne.symm hdeleted.1)]

theorem run_open (h : Run Step v ks u) (hks : .ended ∉ ks) (hv : v.Open) : u.Open := by
  induction h with
  | nil => exact hv
  | cons hstep _ ih =>
    rw [List.mem_cons, not_or] at hks
    exact ih hks.2 (hstep.open_of (Ne.symm hks.1) hv)

theorem run_open_before (h : Run Step v ks u) (hu : u.Open) : v.Open := by
  induction h with
  | nil => exact hu
  | cons hstep _ ih => exact hstep.open_before (ih hu)

/-- The account stays that of the row, where no revision is initiated on top of another. -/
theorem run_agrees (h : Run Step v ks u) (hv : v.Agrees)
    (hready : ∀ xs ys w w', ks = xs ++ .initiated :: ys → Run Step v xs w →
      Step w .initiated w' → Run Step w' ys u → w.Unrevised) : u.Agrees := by
  induction h with
  | nil => exact hv
  | @cons v v' u k ks hstep hrun ih =>
    have hv' : v'.Agrees := by
      apply hstep.agrees hv
      rintro rfl
      exact hready [] ks v v' rfl (.nil v) hstep hrun
    apply ih hv'
    intro xs ys w w' hks h₁ hinit h₂
    apply hready (k :: xs) ys w w' _ (.cons hstep h₁) hinit h₂
    rw [hks, List.cons_append]

end Run

section Group

variable {v u w : View} {ks xs ys : List Kind}

/-- What a group of logs has to do with rate revisions. -/
def marks (ks : List Kind) : List Kind := ks.filter (· ≠ .account)

/-- A revision is initiated together with the lock that is created for it, and ended together
with the locks that are deleted. -/
def Paired (ks : List Kind) : Prop :=
  marks ks = [] ∨ marks ks = [.initiated, .lockCreated] ∨ marks ks = [.lockCreated, .initiated] ∨
    (marks ks).filter (· ≠ .lockDeleted) = [.ended]

theorem not_mem_of_marks {k : Kind} (hk : k ≠ .account) (h : k ∉ marks ks) : k ∉ ks := by
  intro hmem
  exact h (List.mem_filter.2 ⟨hmem, by simpa using hk⟩)

theorem marks_append_cons {k : Kind} (hk : k ≠ .account) :
    marks (xs ++ k :: ys) = marks xs ++ k :: marks ys := by
  simp [marks, hk]

theorem Paired.of_initiated (h : Paired (xs ++ .initiated :: ys)) :
    marks xs = [] ∧ marks ys = [.lockCreated] ∨ marks xs = [.lockCreated] ∧ marks ys = [] := by
  unfold Paired at h
  rw [marks_append_cons (by decide)] at h
  rcases h with h | h | h | h
  · simp at h
  · cases hxs : marks xs with
    | nil => simpa [hxs] using h
    | cons k l => cases l <;> simp [hxs] at h
  · cases hxs : marks xs with
    | nil => simp [hxs] at h
    | cons k l => cases l <;> simp_all
  · have hmem : Kind.initiated ∈ [Kind.ended] := by
      rw [← h]
      simp
    simp at hmem

theorem split_marks {k : Kind} {l : List Kind} (h : marks ks = k :: l) :
    ∃ as bs, ks = as ++ k :: bs ∧ marks as = [] ∧ marks bs = l := by
  obtain ⟨as, bs, rfl, has, -, hbs⟩ := List.filter_eq_cons_iff.1 h
  exact ⟨as, bs, rfl, List.filter_eq_nil_iff.2 has, hbs⟩

theorem run_lockCreated (h : Run Step v ks u) (hks : marks ks = [.lockCreated]) :
    v.requested = false ∧ u.requested = true ∧ v.Open := by
  obtain ⟨as, bs, rfl, has, hbs⟩ := split_marks hks
  obtain ⟨a, h₁, hrest⟩ := h.of_append
  cases hrest with
  | cons hstep h₂ =>
    obtain ⟨hbefore, hafter, hopen⟩ := hstep.requested_of_lockCreated
    have hv := run_requested h₁ (not_mem_of_marks (by decide) (by simp [has]))
      (not_mem_of_marks (by decide) (by simp [has]))
    have hu := run_requested h₂ (not_mem_of_marks (by decide) (by simp [hbs]))
      (not_mem_of_marks (by decide) (by simp [hbs]))
    exact ⟨hv ▸ hbefore, hu ▸ hafter, run_open_before h₁ hopen⟩

theorem unrevised_of_paired {u' : View} (hp : Paired (xs ++ .initiated :: ys))
    (hv : v.requested = false → v.Settled) (h₁ : Run Step v xs u) (hinit : Step u .initiated u')
    (h₂ : Run Step u' ys w) : u.Unrevised := by
  rcases hp.of_initiated with ⟨hxs, hys⟩ | ⟨hxs, hys⟩
  · obtain ⟨hfree, -, hopen⟩ := run_lockCreated h₂ hys
    have hnone : ∀ k, k ≠ .account → k ∉ xs := fun k hk => not_mem_of_marks hk (by simp [hxs])
    have hu := hinit.requested_eq (by decide) (by decide)
    have hxs := run_requested h₁ (hnone _ (by decide)) (hnone _ (by decide))
    have hsettled := hv (by rw [← hxs, ← hu, hfree])
    exact (hinit.open_before hopen).unrevised (run_settled h₁ (hnone _ (by decide)) hsettled)
  · obtain ⟨hfree, -, hopen⟩ := run_lockCreated h₁ hxs
    have hnone : ∀ k, k ≠ .account → k ≠ .lockCreated → k ∉ xs :=
      fun k hk hk' => not_mem_of_marks hk (by simp [hxs, hk'])
    have hsettled := run_settled h₁ (hnone _ (by decide) (by decide)) (hv hfree)
    exact (run_open h₁ (hnone _ (by decide) (by decide)) hopen).unrevised hsettled

theorem settled_of_paired (hp : Paired ks) (hv : v.requested = false → v.Settled)
    (h : Run Step v ks u) (hu : u.requested = false) : u.Settled := by
  rcases hp with hks | hks | hks | hks
  · have hnone : ∀ k, k ≠ .account → k ∉ ks := fun k hk => not_mem_of_marks hk (by simp [hks])
    have hreq := run_requested h (hnone _ (by decide)) (hnone _ (by decide))
    exact run_settled h (hnone _ (by decide)) (hv (hreq ▸ hu))
  · obtain ⟨as, bs, rfl, -, hbs⟩ := split_marks hks
    obtain ⟨a, -, hrest⟩ := h.of_append
    cases hrest with
    | cons _ h₂ =>
      rw [(run_lockCreated h₂ hbs).2.1] at hu
      cases hu
  · obtain ⟨as, bs, rfl, -, hbs⟩ := split_marks hks
    obtain ⟨a, -, hrest⟩ := h.of_append
    cases hrest with
    | cons hstep h₂ =>
      have hreq := run_requested h₂ (not_mem_of_marks (by decide) (by simp [hbs]))
        (not_mem_of_marks (by decide) (by simp [hbs]))
      rw [hreq, hstep.requested_of_lockCreated.2.1] at hu
      cases hu
  · have hended : .ended ∈ ks := by
      have hmem : Kind.ended ∈ (marks ks).filter (· ≠ .lockDeleted) := by
        rw [hks]
        exact List.mem_singleton_self _
      exact List.mem_of_mem_filter (List.mem_of_mem_filter hmem)
    have hinit : .initiated ∉ ks := by
      intro hmem
      have hmem' : Kind.initiated ∈ (marks ks).filter (· ≠ .lockDeleted) := by
        simp [marks, hmem]
      rw [hks] at hmem'
      simp at hmem'
    obtain ⟨as, bs, rfl⟩ := List.append_of_mem hended
    obtain ⟨a, -, hrest⟩ := h.of_append
    cases hrest with
    | cons hstep h₂ =>
      have hbs : .initiated ∉ bs := fun hmem => hinit (by simp [hmem])
      exact run_settled h₂ hbs hstep.settled_of_ended

/-- Through groups of paired logs the account stays that of the row, within a group too. -/
theorem agrees_of_paired {groups : List (List Kind)} (hp : ∀ g ∈ groups, Paired g)
    (hv : v.Agrees) (hsettled : v.requested = false → v.Settled) (hks : groups.flatten = xs ++ ys)
    (h₁ : Run Step v xs u) (h₂ : Run Step u ys w) : u.Agrees := by
  induction groups generalizing v xs with
  | nil =>
    obtain ⟨rfl, -⟩ := List.append_eq_nil_iff.1 hks.symm
    cases h₁
    exact hv
  | cons g groups ih =>
    have hg : Paired g := hp g List.mem_cons_self
    -- what is initiated in the part of the group that has been run
    have hgroup : ∀ {as bs : List Kind} {a b : View}, g = as ++ bs → Run Step v as a →
        Run Step a bs b → a.Agrees := by
      intro as bs a b hsplit ha hb
      apply run_agrees ha hv
      intro cs ds c c' hcs hc hinit hd
      rw [hsplit, hcs, List.append_assoc, List.cons_append] at hg
      exact unrevised_of_paired hg hsettled hc hinit (hd.append hb)
    rw [List.flatten_cons] at hks
    rcases List.append_eq_append_iff.1 hks with ⟨cs, rfl, hrest⟩ | ⟨cs, hgcs, rfl⟩
    · obtain ⟨a, ha, hcs⟩ := h₁.of_append
      exact ih (fun g hmem => hp g (List.mem_cons_of_mem _ hmem))
        (hgroup (List.append_nil g).symm ha (.nil a)) (settled_of_paired hg hsettled ha) hrest hcs
    · obtain ⟨a, ha, -⟩ := h₂.of_append
      exact hgroup hgcs h₁ ha

end Group

end View

end Oyster.Indexer
