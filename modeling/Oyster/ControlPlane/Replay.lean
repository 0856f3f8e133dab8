import Oyster.ControlPlane.JobManager

namespace Oyster.ControlPlane

open Prog

namespace JobState

/-- `u` differs from `s` only in the fields that no handler decides from: those of the instance
and its scheduled change, the funds and the bandwidth. -/
def SameLogs (s u : JobState) : Prop :=
  u = { s with
    balance := u.balance
    bandwidth := u.bandwidth
    lastSettled := u.lastSettled
    instanceId := u.instanceId
    infraState := u.infraState
    infraChangeTime := u.infraChangeTime
    infraChangeScheduled := u.infraChangeScheduled
    eifUpdate := u.eifUpdate }

theorem SameLogs.refl (s : JobState) : SameLogs s s := rfl

theorem SameLogs.symm {s u : JobState} (h : SameLogs s u) : SameLogs u s := by
  unfold SameLogs at *
  rw [h]

theorem SameLogs.trans {s u v : JobState} (h : SameLogs s u) (h' : SameLogs u v) :
    SameLogs s v := by
  unfold SameLogs at *
  rw [h', h]

theorem InfraFrame.sameLogs {s u : JobState} (h : InfraFrame s u) : SameLogs s u := by
  unfold SameLogs InfraFrame at *
  rw [h]

section Handlers

variable {s s' u u' : JobState} {m : Market} {log : Log} {now now' : Instant} {res res' : ℤ}

theorem SameLogs.scheduleLaunch {delay : ℕ} (h : s.scheduleLaunch now delay = some s') :
    SameLogs s s' := by
  obtain ⟨t, rfl⟩ := scheduleLaunch_eq h
  rfl

theorem SameLogs.scheduleTermination {delay : ℕ}
    (h : s.scheduleTermination now delay = some s') : SameLogs s s' := by
  obtain ⟨t, rfl⟩ := scheduleTermination_eq h
  rfl

theorem SameLogs.readOpened (h : SameLogs s u) {v : Json} (hs : s.readOpened v = .ok s') :
    ∃ u', u.readOpened v = .ok u' ∧ SameLogs s' u' := by
  rw [h]
  unfold JobState.readOpened at hs ⊢
  match ht : (v.index "instance").asStr with
  | none => simp [ht] at hs
  | some t =>
    match hr : (v.index "region").asStr with
    | none => simp [ht, hr] at hs
    | some r =>
      simp only [ht, hr] at hs ⊢
      split_ifs at hs ⊢
      match hm : (v.index "memory").asI64 with
      | none => simp [hm] at hs
      | some mem =>
        match hc : (v.index "vcpu").asI64 with
        | none => simp [hm, hc] at hs
        | some vcpu =>
          match hurl : (v.index "url").asStr with
          | none => simp [hm, hc, hurl] at hs
          | some url =>
            simp only [hm, hc, hurl] at hs ⊢
            cases hs
            exact ⟨_, rfl, rfl⟩

theorem SameLogs.openedState (h : SameLogs s u) (hs : s.openedState m log = some s') :
    ∃ u', u.openedState m log = some u' ∧ SameLogs s' u' := by
  obtain ⟨⟨metadata, rate, balance, timestamp⟩, hdata, hs⟩ := Option.bind_eq_some_iff.1 hs
  obtain ⟨v, hv, hs⟩ := Option.bind_eq_some_iff.1 hs
  have hnext : SameLogs
      { s with
        balance := balance
        rate := rate
        originalRate := rate
        lastSettled := fromSecs (U256.saturatingToU64 timestamp) }
      { u with
        balance := balance
        rate := rate
        originalRate := rate
        lastSettled := fromSecs (U256.saturatingToU64 timestamp) } := by
    unfold SameLogs at *
    rw [h]
  obtain ⟨u', hu', hsame⟩ := hnext.readOpened (ok_of_toOption hs)
  exact ⟨u', by simp [JobState.openedState, hdata, hv, hu', Except.toOption], hsame⟩

theorem SameLogs.launchIfPaid (h : SameLogs s u) (hs : s.launchIfPaid m now = some (s', res))
    (hu : u.launchIfPaid m now' = some (u', res')) : SameLogs s' u' := by
  obtain ⟨rfl, b, t, rfl⟩ := launchIfPaid_cases hs
  obtain ⟨rfl, b', t', rfl⟩ := launchIfPaid_cases hu
  unfold SameLogs at *
  rw [h]

theorem SameLogs.checkOpened (h : SameLogs s u)
    (hs : s.checkOpened m log now = some (s', res)) (hres : res ≠ -2)
    (hu : u.checkOpened m log now' = some (u', res')) (hres' : res' ≠ -2) : SameLogs s' u' := by
  have hreg : u.region = s.region := by rw [h]
  have htype : u.instanceType = s.instanceType := by rw [h]
  obtain ⟨hrej, -, hs⟩ | ⟨hok, ⟨-, h2, -⟩ | ⟨card, hcard, hs⟩⟩ := checkOpened_cases hs
  · obtain ⟨-, -, hu⟩ | ⟨hok, -⟩ := checkOpened_cases hu
    · exact (SameLogs.scheduleTermination hs).symm.trans (h.trans (.scheduleTermination hu))
    · simp [hrej] at hok
  · exact absurd h2 hres
  · obtain ⟨hrej, -⟩ | ⟨-, ⟨-, h2, -⟩ | ⟨card', hcard', hu⟩⟩ := checkOpened_cases hu
    · simp [hok] at hrej
    · exact absurd h2 hres'
    · rw [hreg, htype, hcard] at hcard'
      cases hcard'
      refine SameLogs.launchIfPaid ?_ hs hu
      unfold SameLogs at *
      rw [h]

theorem SameLogs.processOpened (h : SameLogs s u)
    (hs : s.processOpened m log now = some (s', res)) (hres : res ≠ -2)
    (hu : u.processOpened m log now' = some (u', res')) (hres' : res' ≠ -2) :
    SameLogs s' u' := by
  obtain ⟨s₁, hs₁, hs⟩ := processOpened_accepted hs hres
  obtain ⟨u₁, hu₁, h₁⟩ := h.openedState hs₁
  rw [processOpened_read hu₁] at hu
  exact h₁.checkOpened hs hres hu hres'

theorem SameLogs.updateUrl (h : SameLogs s u) : s.updateUrl m log = u.updateUrl m log := by
  rw [h]
  rfl

theorem SameLogs.processAccount (hs : s.processSettled m log = some (s', res) ∨
      s.processDeposited m log = some (s', res) ∨ s.processWithdrew m log = some (s', res)) :
    SameLogs s s' := by
  rw [(processAccount_cases hs).2]
  rfl

theorem SameLogs.processReviseRateInitiated (h : SameLogs s u)
    (hs : s.processReviseRateInitiated m log now = some (s', res)) (hres : res ≠ -2)
    (hu : u.processReviseRateInitiated m log now' = some (u', res')) (hres' : res' ≠ -2) :
    SameLogs s' u' := by
  obtain ⟨-, r, hr, hs⟩ := (processReviseRateInitiated_cases hs).resolve_left
    fun h => hres h.1
  obtain ⟨-, r', hr', hu⟩ := (processReviseRateInitiated_cases hu).resolve_left
    fun h => hres' h.1
  obtain rfl : r = r' := Option.some.inj (hr.symm.trans hr')
  have hnext : SameLogs { s with originalRate := s.rate, rate := r }
      { u with originalRate := u.rate, rate := r } := by
    unfold SameLogs at *
    rw [h]
  have hleft : SameLogs s' { s with originalRate := s.rate, rate := r } := by
    obtain ⟨-, t, rfl⟩ | ⟨-, rfl⟩ := hs <;> rfl
  have hright : SameLogs { u with originalRate := u.rate, rate := r } u' := by
    obtain ⟨-, t, rfl⟩ | ⟨-, rfl⟩ := hu <;> rfl
  exact hleft.trans (hnext.trans hright)

theorem SameLogs.processLog (h : SameLogs s u)
    (hs : s.processLog m (some log) now = some (s', res)) (hres : res ≠ -2)
    (hu : u.processLog m (some log) now' = some (u', res')) (hres' : res' ≠ -2) :
    SameLogs s' u' := by
  have hs := processLog_event hs
  have hu := processLog_event hu
  match log.event, hs, hu with
  | some .jobOpened, hs, hu => exact h.processOpened hs hres hu hres'
  | some .jobSettled, hs, hu =>
    exact (SameLogs.processAccount (.inl hs)).symm.trans (h.trans (.processAccount (.inl hu)))
  | some .jobClosed, hs, hu =>
    obtain ⟨-, t, rfl⟩ := processClosed_cases hs
    obtain ⟨-, t', rfl⟩ := processClosed_cases hu
    unfold SameLogs at *
    rw [h]
  | some .jobDeposited, hs, hu =>
    exact (SameLogs.processAccount (.inr (.inl hs))).symm.trans
      (h.trans (.processAccount (.inr (.inl hu))))
  | some .jobWithdrew, hs, hu =>
    exact (SameLogs.processAccount (.inr (.inr hs))).symm.trans
      (h.trans (.processAccount (.inr (.inr hu))))
  | some .jobReviseRateInitiated, hs, hu =>
    exact h.processReviseRateInitiated hs hres hu hres'
  | some .jobReviseRateCancelled, hs, hu =>
    cases hs
    cases hu
    unfold SameLogs at *
    rw [h]
  | some .jobReviseRateFinalized, hs, hu =>
    rw [((processReviseRateFinalized_cases hs).resolve_left fun h => hres h.1).2,
      ((processReviseRateFinalized_cases hu).resolve_left fun h => hres' h.1).2]
    unfold SameLogs at *
    rw [h]
  | some .metadataUpdated, hs, hu =>
    obtain ⟨-, url, t, hurl, rfl⟩ :=
      (processMetadataUpdated_cases hs).resolve_left fun h => hres h.1
    obtain ⟨-, url', t', hurl', rfl⟩ :=
      (processMetadataUpdated_cases hu).resolve_left fun h => hres' h.1
    rw [← h.updateUrl, hurl] at hurl'
    cases hurl'
    unfold SameLogs at *
    rw [h]
  | none, hs, _ => cases hs; exact absurd rfl hres

end Handlers

end JobState

/-- The states that the logs can lead to from `s₀`, whatever happens between them. -/
inductive Replay (market : Market) (s₀ : JobState) : List Log → JobState → Prop
  | start {s : JobState} : s₀.SameLogs s → Replay market s₀ [] s
  | log {logs : List Log} {log : Log} {now : Instant} {s t u : JobState} {res : ℤ} :
      Replay market s₀ logs s → s.processLog market (some log) now = some (t, res) → res ≠ -2 →
      t.SameLogs u → Replay market s₀ (logs ++ [log]) u

section Replay

variable {market : Market} {s₀ u₀ s u : JobState} {logs : List Log}

theorem Replay.sameLogs (h : Replay market s₀ logs s) (hu : s.SameLogs u) :
    Replay market s₀ logs u := by
  cases h with
  | start hs => exact .start (hs.trans hu)
  | log h hp hres hs => exact .log h hp hres (hs.trans hu)

/-- The logs determine what they decide. -/
theorem Replay.unique (h : Replay market s₀ logs s) (h₀ : s₀.SameLogs u₀)
    (hu : Replay market u₀ logs u) : s.SameLogs u := by
  -- on the logs of one side; the other was led by the same last log
  induction h generalizing u with
  | start hs =>
    generalize hl : ([] : List Log) = l at hu
    cases hu with
    | start hu => exact hs.symm.trans (h₀.trans hu)
    | log => simp at hl
  | @log logs log now s t s' res h hp hres hs ih =>
    generalize hl : logs ++ [log] = l at hu
    cases hu with
    | start hu => simp at hl
    | log hu hp' hres' hu' =>
      obtain ⟨rfl, hlog⟩ := List.append_inj' hl rfl
      cases hlog
      exact hs.symm.trans (((ih hu).processLog hp hres hp' hres').trans hu')

variable {σ : Type} {env : Env ProviderOp ProviderAns σ} {m m' : Manager σ} {e : Label σ}

/-- A running manager is in a state that its logs lead to. -/
def Replayed (market : Market) (s₀ : JobState) (m : Manager σ) : Prop :=
  m.status = .running → Replay market s₀ m.logs m.state

theorem Replayed.step (hm : Replayed market s₀ m) (h : Step market env m e m') :
    Replayed market s₀ m' := by
  intro hrun'
  cases h with
  | log log now hrun =>
    obtain ⟨s, res, hp, h2, h1, heq⟩ := Manager.afterLog_running hrun'
    rw [heq]
    match log with
    | none => cases hp; exact absurd rfl h1
    | some log => exact .log (hm hrun) hp h2 (.refl s)
  | @heartbeat now t r w hrun _ hx =>
    obtain ⟨s, rfl⟩ := Manager.afterState_running hrun'
    refine (hm hrun).sameLogs ?_
    rcases (JobState.heartbeatCheck_exec hx).2 with h | ⟨-, -, hl⟩
    · cases h
      exact .refl _
    · exact .scheduleLaunch hl.symm
  | insolvency now hrun _ =>
    obtain ⟨s, hl⟩ := Manager.afterState_running hrun'
    rw [hl]
    exact (hm hrun).sameLogs (.scheduleTermination hl)
  | @infraChange now t r w hrun _ hx =>
    obtain ⟨b, s, rfl⟩ := Manager.afterInfraChange_running hrun'
    have hf : m.state.InfraFrame s := (hx.sound (m.state.changeInfra_wp env now m.world)).2 b s rfl
    exact (hm hrun).sameLogs hf.sameLogs

theorem Replayed.run {nowTs : Duration} {now : Instant} {jobId : JobId} {delay : ℕ}
    {regions : List String} {w : σ} {es : List (Label σ)}
    (h : Run (Step market env) (.start nowTs now jobId delay regions w) es m) :
    Replayed market (.new nowTs now jobId delay regions) m :=
  h.invariant (fun _ _ _ hm hs => Replayed.step hm hs) fun _ => .start (.refl _)

end Replay

end Oyster.ControlPlane
