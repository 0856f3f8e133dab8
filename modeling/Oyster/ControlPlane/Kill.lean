import Oyster.ControlPlane.LeakFree
import Oyster.ControlPlane.Eligible
import Oyster.ControlPlane.Replay

namespace Oyster.ControlPlane

open Prog Instances

variable {σ : Type}

namespace JobState

/-- A readable `JobOpened` whose owner is rejected or whose rate is below `min_rate`. -/
def OpenKills (market : Market) (s : JobState) (log : Log) : Prop :=
  ∃ s', s.openedState market log = some s' ∧
    (whitelistBlacklistCheck log market.addressWhitelist market.addressBlacklist = some false ∨
      whitelistBlacklistCheck log market.addressWhitelist market.addressBlacklist = some true ∧
      ∃ card, findRateCard market.rates s'.region s'.instanceType = some card ∧
        s'.rate < card.minRate)

/-- A readable `JobOpened` of an allowed owner that pays `min_rate`. -/
def OpenLaunches (market : Market) (s : JobState) (log : Log) : Prop :=
  ∃ s', s.openedState market log = some s' ∧
    whitelistBlacklistCheck log market.addressWhitelist market.addressBlacklist = some true ∧
    ∃ card, findRateCard market.rates s'.region s'.instanceType = some card ∧
      card.minRate ≤ s'.rate

/-- The logs for which `process_log` schedules a termination. -/
def LogKills (market : Market) (s : JobState) (log : Log) : Prop :=
  match log.event with
  | some .jobOpened => s.OpenKills market log
  | some .jobClosed => True
  | some .jobReviseRateInitiated =>
    ∃ rate, market.codec.u256Data log.data = some rate ∧ rate < s.minRate
  | some .metadataUpdated =>
    (market.codec.stringData log.data).isSome ∧ s.updateUrl market log = none
  | _ => False

/-- The logs for which `process_log` schedules a launch. -/
def LogLaunches (market : Market) (s : JobState) (log : Log) : Prop :=
  match log.event with
  | some .jobOpened => s.OpenLaunches market log
  | some .metadataUpdated => s.updateUrl market log ≠ none
  | _ => False

section Logs

variable {market : Market} {s s' u : JobState} {log : Log} {now : Instant} {res : ℤ}

theorem processOpened_infraState (hl : ¬s.OpenLaunches market log) (hs : s.infraState = false)
    (h : s.processOpened market log now = some (s', res)) : s'.infraState = false := by
  match hopened : s.openedState market log with
  | none =>
    obtain ⟨u, hu, hstate⟩ := processOpened_unread hopened
    rw [hu] at h
    cases h
    exact hstate.trans hs
  | some s₁ =>
    rw [processOpened_read hopened] at h
    obtain ⟨-, -, hterm⟩ | ⟨hok, ⟨-, -, rfl⟩ | ⟨card, hcard, hlaunch⟩⟩ := checkOpened_cases h
    · obtain ⟨t, rfl⟩ := scheduleTermination_eq hterm
      rfl
    · exact (openedState_infraState hopened).trans hs
    · obtain ⟨-, b, t, rfl⟩ := launchIfPaid_cases hlaunch
      exact decide_eq_false fun hle => hl ⟨s₁, hopened, hok, card, hcard, hle⟩

theorem OpenKills.infraState (hk : s.OpenKills market log)
    (h : s.processOpened market log now = some (s', res)) : s'.infraState = false := by
  obtain ⟨s₁, hopened, hk⟩ := hk
  rw [processOpened_read hopened] at h
  obtain ⟨-, -, hterm⟩ | ⟨hok, hcard⟩ := checkOpened_cases h
  · obtain ⟨t, rfl⟩ := scheduleTermination_eq hterm
    rfl
  · obtain hrej | ⟨-, card, hcard', hlow⟩ := hk
    · simp [hok] at hrej
    · obtain ⟨hnone, -⟩ | ⟨card₁, hcard₁, hlaunch⟩ := hcard
      · simp [hcard'] at hnone
      · rw [hcard'] at hcard₁
        cases hcard₁
        obtain ⟨-, b, t, rfl⟩ := launchIfPaid_cases hlaunch
        exact decide_eq_false (BitVec.not_le.2 hlow)

theorem processLog_infraState (hl : ¬s.LogLaunches market log) (hs : s.infraState = false)
    (h : s.processLog market (some log) now = some (s', res)) : s'.infraState = false := by
  have h := processLog_event h
  unfold LogLaunches at hl
  match log.event, hl, h with
  | some .jobOpened, hl, h => exact processOpened_infraState hl hs h
  | some .jobSettled, _, h =>
    rw [(processAccount_cases (.inl h)).2]
    exact hs
  | some .jobClosed, _, h =>
    obtain ⟨-, t, rfl⟩ := processClosed_cases h
    rfl
  | some .jobDeposited, _, h =>
    rw [(processAccount_cases (.inr (.inl h))).2]
    exact hs
  | some .jobWithdrew, _, h =>
    rw [(processAccount_cases (.inr (.inr h))).2]
    exact hs
  | some .jobReviseRateInitiated, _, h =>
    obtain ⟨-, -, rfl⟩ | ⟨-, newRate, -, ⟨-, t, rfl⟩ | ⟨-, rfl⟩⟩ :=
      processReviseRateInitiated_cases h
    · exact hs
    · rfl
    · exact hs
  | some .jobReviseRateCancelled, _, h =>
    cases h
    exact hs
  | some .jobReviseRateFinalized, _, h =>
    obtain ⟨-, rfl⟩ | ⟨-, rfl⟩ := processReviseRateFinalized_cases h <;> exact hs
  | some .metadataUpdated, hl, h =>
    obtain ⟨-, -, ⟨-, rfl⟩ | ⟨t, rfl⟩⟩ | ⟨-, url, t, hurl, rfl⟩ := processMetadataUpdated_cases h
    · exact hs
    · rfl
    · exact absurd (by simp [hurl]) hl
  | none, _, h =>
    cases h
    exact hs

theorem LogKills.infraState (hk : s.LogKills market log)
    (h : s.processLog market (some log) now = some (s', res)) : s'.infraState = false := by
  have h := processLog_event h
  unfold LogKills at hk
  match log.event, hk, h with
  | some .jobOpened, hk, h => exact hk.infraState h
  | some .jobClosed, _, h =>
    obtain ⟨-, t, rfl⟩ := processClosed_cases h
    rfl
  | some .jobReviseRateInitiated, ⟨rate, hrate, hlow⟩, h =>
    obtain ⟨-, hnone, -⟩ | ⟨-, newRate, hnew, ⟨-, t, rfl⟩ | ⟨hle, rfl⟩⟩ :=
      processReviseRateInitiated_cases h
    · simp [hrate] at hnone
    · rfl
    · rw [hrate] at hnew
      cases hnew
      exact absurd hlow (BitVec.not_lt.2 hle)
  | some .metadataUpdated, ⟨hdata, hurl⟩, h =>
    obtain ⟨-, -, ⟨hnone, -⟩ | ⟨t, rfl⟩⟩ | ⟨-, url, t, hurl', rfl⟩ := processMetadataUpdated_cases h
    · simp [hnone] at hdata
    · rfl
    · simp [hurl] at hurl'

theorem SameLogs.logKills (h : SameLogs s u) (hk : s.LogKills market log) :
    u.LogKills market log := by
  unfold LogKills at *
  match log.event, hk with
  | some .jobOpened, ⟨s₁, hopened, hk⟩ =>
    obtain ⟨u₁, hu₁, h₁⟩ := h.openedState hopened
    refine ⟨u₁, hu₁, ?_⟩
    rw [h₁]
    exact hk
  | some .jobClosed, _ => trivial
  | some .jobReviseRateInitiated, ⟨rate, hrate, hlow⟩ =>
    exact ⟨rate, hrate, by rw [h]; exact hlow⟩
  | some .metadataUpdated, ⟨hdata, hurl⟩ => exact ⟨hdata, h.updateUrl ▸ hurl⟩

end Logs

end JobState

/-- The step schedules a termination. -/
def Kills (market : Market) (m : Manager σ) (e : Label σ) : Prop :=
  match e.branch with
  | .log (some log) => m.state.LogKills market log
  | .insolvency => True
  | _ => False

def NoSpinUp (e : Label σ) : Prop := ∀ c ∈ e.calls, c.op.isSpinUp = false

/-- The steps that leave a killed job down. No log launches it again, and no heartbeat finds its
instance stopped while the rate is back at `min_rate`. -/
def KeepsDown (market : Market) (m : Manager σ) (e : Label σ) : Prop :=
  match e.branch with
  | .log (some log) => ¬m.state.LogLaunches market log
  | .heartbeat => ReportedStopped m e → m.state.rate < m.state.minRate
  | _ => True

/-- Taken while no instance is wanted, without a launch. -/
def StaysDown (m : Manager σ) (e : Label σ) : Prop := m.state.infraState = false ∧ NoSpinUp e

/-- No instance is wanted, unless the manager panicked. -/
def Down (m : Manager σ) : Prop := m.status ≠ .panicked → m.state.infraState = false

section Steps

variable {market : Market} {env : Env ProviderOp ProviderAns σ} {m m' m'' : Manager σ}
  {e : Label σ}

theorem Step.running (h : Step market env m e m') : m.status = .running := by
  cases h <;> assumption

theorem Manager.afterLog_down {log : Option Log} {r : Option (JobState × ℤ)}
    (h : ∀ s res, r = some (s, res) → s.infraState = false) : Down (m.afterLog log r) := by
  intro hp
  match r with
  | none => simp [Manager.afterLog] at hp
  | some (s, res) => exact h s res rfl

theorem Manager.afterState_down {w : σ} {r : Option JobState}
    (h : ∀ s, r = some s → s.infraState = false) : Down (m.afterState w r) := by
  intro hp
  match r with
  | none => simp [Manager.afterState] at hp
  | some s => exact h s rfl

theorem Manager.afterInfraChange_down {w : σ} {r : Option (Bool × JobState)}
    (h : ∀ b s, r = some (b, s) → s.infraState = false) : Down (m.afterInfraChange w r) := by
  intro hp
  match r with
  | none => simp [Manager.afterInfraChange] at hp
  | some (b, s) => exact h b s rfl

theorem Kills.down (hk : Kills market m e) (h : Step market env m e m') : Down m' := by
  cases h with
  | log log now _ =>
    match log, hk with
    | some log, hk => exact Manager.afterLog_down fun s res h => hk.infraState h
  | heartbeat => exact hk.elim
  | insolvency now =>
    refine Manager.afterState_down fun s h => ?_
    obtain ⟨t, rfl⟩ := JobState.scheduleTermination_eq h
    rfl
  | infraChange => exact hk.elim

theorem Down.staysDown (hm : Down m) (h : Step market env m e m') : StaysDown m e := by
  have hs : m.state.infraState = false := hm (by simp [h.running])
  refine ⟨hs, ?_⟩
  cases h with
  | log => simp [NoSpinUp]
  | heartbeat _ _ hx => exact (JobState.heartbeatCheck_exec hx).1
  | insolvency => simp [NoSpinUp]
  | @infraChange now t r w _ _ hx =>
    intro c hc
    by_contra hup
    have hmay := (hx.sound (m.state.changeInfra_wp env now m.world)).1 c hc
    have hwanted := hmay.2 (by simpa using hup)
    simp [hs] at hwanted

theorem Down.step (hm : Down m) (hc : KeepsDown market m e) (h : Step market env m e m') :
    Down m' := by
  have hs : m.state.infraState = false := hm (by simp [h.running])
  cases h with
  | log log now _ =>
    match log, hc with
    | none, _ =>
      refine Manager.afterLog_down fun s res h => ?_
      cases h
      exact hs
    | some log, hc =>
      exact Manager.afterLog_down fun s res h => JobState.processLog_infraState hc hs h
  | @heartbeat now t r w _ _ hx =>
    refine Manager.afterState_down fun s hr => ?_
    rcases (JobState.heartbeatCheck_exec hx).2 with h | ⟨hstop, hrate, -⟩
    · rw [hr] at h
      cases h
      exact hs
    · exact absurd hrate (BitVec.not_le.2 (hc hstop))
  | insolvency now =>
    refine Manager.afterState_down fun s h => ?_
    obtain ⟨t, rfl⟩ := JobState.scheduleTermination_eq h
    rfl
  | @infraChange now t r w _ _ hx =>
    refine Manager.afterInfraChange_down fun b s hr => ?_
    have hf : m.state.InfraFrame s := (hx.sound (m.state.changeInfra_wp env now m.world)).2 b s hr
    exact hf.infraState.trans hs

/-- After a kill, a run without relaunching steps never wants or launches an instance. -/
theorem Down.run (hm : Down m) {es : List (Label σ)}
    (h : Along (Step market env) (KeepsDown market) m es m') :
    Along (Step market env) StaysDown m es m' ∧ Down m' :=
  ⟨h.of_invariant (fun _ _ _ (hm : Down _) hc hs => hm.step hc hs)
    (fun _ _ _ hm _ hs => hm.staysDown hs) hm,
    h.invariant (fun _ _ _ (hm : Down _) hc hs => hm.step hc hs) hm⟩

/-- Two running managers that took the same logs are killed by the same ones. -/
theorem Kills.repeat {nowTs nowTs' : Duration} {now now' : Instant} {jobId : JobId} {delay : ℕ}
    {regions : List String} {w w' : σ} {us rs : List (Label σ)} {r : Manager σ} {e' : Label σ}
    (hu : Run (Step market env) (.start nowTs now jobId delay regions w) us m)
    (hr : Run (Step market env) (.start nowTs' now' jobId delay regions w') rs r)
    (hlogs : r.logs = m.logs) (hmrun : m.status = .running) (hrrun : r.status = .running)
    (hk : Kills market m e) (hbranch : e'.branch = e.branch) : Kills market r e' := by
  have h₀ : (JobState.new nowTs now jobId delay regions).SameLogs
      (.new nowTs' now' jobId delay regions) := rfl
  have hsame : m.state.SameLogs r.state :=
    (Replayed.run hu hmrun).unique h₀ (hlogs ▸ Replayed.run hr hrrun)
  unfold Kills at *
  rw [hbranch]
  match e.branch, hk with
  | .log (some log), hk => exact hsame.logKills hk
  | .insolvency, _ => trivial

theorem Kills.noSpinUp (hk : Kills market m e) (h : Step market env m e m') : NoSpinUp e := by
  cases h with
  | log => simp [NoSpinUp]
  | heartbeat => exact hk.elim
  | insolvency => simp [NoSpinUp]
  | infraChange => exact hk.elim

def Label.IsLog (e : Label σ) : Prop := ∃ log, e.branch = .log log

theorem noSpinUp_of_isLog {es : List (Label σ)} (h : Run (Step market env) m es m')
    (hlog : ∀ e ∈ es, e.IsLog) : ∀ e ∈ es, NoSpinUp e := by
  induction h with
  | nil => simp
  | cons hs _ ih =>
    obtain ⟨⟨log, hbranch⟩, hlog⟩ := List.forall_mem_cons.1 hlog
    refine List.forall_mem_cons.2 ⟨?_, ih hlog⟩
    cases hs with
    | log => simp [NoSpinUp]
    | heartbeat => cases hbranch
    | insolvency => cases hbranch
    | infraChange => cases hbranch

theorem noSpinUp_of_staysDown {es : List (Label σ)}
    (h : Along (Step market env) StaysDown m es m') : ∀ e ∈ es, NoSpinUp e := by
  induction h with
  | nil => simp
  | cons hc _ _ ih => exact List.forall_mem_cons.2 ⟨hc.2, ih⟩

/-- A kill is permanent in every run that keeps the job down. So it is in a restarted manager
which takes the same logs at once and then repeats the kill: it never calls `spin_up`. -/
theorem kill_permanent {nowTs : Duration} {now : Instant} {jobId : JobId} {delay : ℕ}
    {regions : List String} {w : σ} {us : List (Label σ)}
    (hu : Run (Step market env) (.start nowTs now jobId delay regions w) us m)
    (hk : Kills market m e) (h : Step market env m e m') :
    (∀ es m'', Along (Step market env) (KeepsDown market) m' es m'' →
      Along (Step market env) StaysDown m' es m'' ∧ Down m'') ∧
    ∀ nowTs' now' w' rs r e' r' es r'',
      Run (Step market env) (.start nowTs' now' jobId delay regions w') rs r →
      (∀ x ∈ rs, x.IsLog) → (e.IsLog → r.logs = m.logs) → e'.branch = e.branch →
      Step market env r e' r' → Along (Step market env) (KeepsDown market) r' es r'' →
      ∀ x ∈ rs ++ e' :: es, NoSpinUp x := by
  refine ⟨fun es m'' hes => (hk.down h).run hes, ?_⟩
  intro nowTs' now' w' rs r e' r' es r'' hr hlog hsame hbranch h' hes
  -- the logs decide what a log does, so the restarted manager is killed as well
  have hk' : Kills market r e' := by
    by_cases he : e.IsLog
    · exact hk.repeat hu hr (hsame he) h.running h'.running hbranch
    · unfold Kills at hk ⊢
      rw [hbranch]
      match hb : e.branch, hk with
      | .log _, _ => exact absurd ⟨_, hb⟩ he
      | .insolvency, _ => trivial
  intro x hx
  rcases List.mem_append.1 hx with hx | hx
  · exact noSpinUp_of_isLog hr hlog x hx
  · rcases List.mem_cons.1 hx with rfl | hx
    · exact hk'.noSpinUp h'
    · exact noSpinUp_of_staysDown ((hk'.down h').run hes).1 x hx

end Steps

namespace Sample

def openedManager : Manager Instances := ⟨opened, [], .running, [openLog]⟩

def lowered : JobState := { opened with
  rate := 29000000000000
  infraState := false
  infraChangeTime := 0 }

def lowRateLabel : Label Instances := ⟨.log (some lowRateLog), 0, []⟩

theorem codec_rateData : codec.u256Data (abiWord 29000000000000) = some 29000000000000 := by
  dsimp only [codec]
  rw [if_pos rfl]

theorem step_lowRate : Step (market []) (cloudEnv False) openedManager lowRateLabel
    ⟨lowered, [], .running, [openLog, lowRateLog]⟩ := by
  have hp : opened.processLog (market []) (some lowRateLog) 0 = some (lowered, 0) := by
    rw [JobState.processLog_of_event lowRateLog_event]
    dsimp only [JobState.processEvent, JobState.processReviseRateInitiated, market, lowRateLog]
    rw [codec_rateData]
    rfl
  have h : Step (market []) (cloudEnv False) openedManager lowRateLabel
      (openedManager.afterLog (some lowRateLog) (some (lowered, 0))) := step_log rfl hp
  exact h

def relaunched : JobState := { lowered with
  eifUrl := updatedUrl
  eifUpdate := true
  infraState := true
  infraChangeTime := 300 * 10 ^ 9 }

def updateLabel : Label Instances := ⟨.log (some updateLog), 0, []⟩

theorem step_update : Step (market []) (cloudEnv False)
    ⟨lowered, [], .running, [openLog, lowRateLog]⟩ updateLabel
    ⟨relaunched, [], .running, [openLog, lowRateLog, updateLog]⟩ := by
  have hcheck : lowered.checkUpdate (json updatedUrl "c6a.xlarge") = some updatedUrl := by
    rfl
  have hp : lowered.processLog (market []) (some updateLog) 0 = some (relaunched, 0) := by
    rw [processLog_update hcheck]
    decide
  have h : Step (market []) (cloudEnv False) ⟨lowered, [], .running, [openLog, lowRateLog]⟩
      updateLabel (Manager.afterLog ⟨lowered, [], .running, [openLog, lowRateLog]⟩
        (some updateLog) (some (relaunched, 0))) := step_log rfl hp
  exact h

end Sample

/-- The launched and closed sample job stays down, and a manager restarted after the close never
launches it. -/
theorem kill_permanent_closed :
    (∃ m, Along (Step (Sample.market []) (cloudEnv False)) StaysDown Sample.closedManager
      [Sample.terminateLabel] m ∧ Down m) ∧
      ∀ x : Label Instances, x ∈ [Sample.openLabel, Sample.closeAtOnceLabel] → NoSpinUp x := by
  have hrun : Run (Step (Sample.market []) (cloudEnv False)) (Sample.start [])
      [Sample.openLabel, Sample.launchLabel] Sample.launchedManager :=
    .cons Sample.step_open (.cons (step_launch _ "i-0" rfl rfl rfl rfl) (.nil _))
  have hkills : Kills (Sample.market []) Sample.launchedManager Sample.closeLabel := True.intro
  obtain ⟨hdown, hrestart⟩ := kill_permanent hrun hkills Sample.step_close
  refine ⟨⟨_, hdown _ _ (.cons True.intro (step_terminate _ "i-0" rfl rfl rfl (by decide))
    (.nil _))⟩, ?_⟩
  have hreplayed : Run (Step (Sample.market []) (cloudEnv False)) (Sample.start [])
      [Sample.openLabel] Sample.openedManager := .cons Sample.step_open (.nil _)
  exact hrestart 0 0 [] [Sample.openLabel] Sample.openedManager Sample.closeAtOnceLabel _ [] _
    hreplayed (List.forall_mem_singleton.2 ⟨_, rfl⟩) (fun _ => rfl) rfl Sample.step_closeAtOnce
    (.nil _)

/-- Opened, underpaid and updated, all at once: the update revives the job. -/
theorem update_revives_killed : ∃ us m e m' es m'',
    Run (Step (Sample.market []) (cloudEnv False)) (Sample.start []) us m ∧
      Kills (Sample.market []) m e ∧ Step (Sample.market []) (cloudEnv False) m e m' ∧
      Run (Step (Sample.market []) (cloudEnv False)) m' es m'' ∧ m''.state.infraState = true ∧
      ∃ x ∈ es, ¬NoSpinUp x := by
  have hkills : Kills (Sample.market []) Sample.openedManager Sample.lowRateLabel :=
    ⟨29000000000000, by rfl, by decide⟩
  have hend : Run (Step (Sample.market []) (cloudEnv False))
      ⟨Sample.lowered, [], .running, [Sample.openLog, Sample.lowRateLog]⟩ _ _ :=
    .cons Sample.step_update (.cons (step_launch (300 * 10 ^ 9) "i-0" rfl rfl rfl rfl) (.nil _))
  -- the launch that the update scheduled calls `spin_up`
  refine ⟨_, _, _, _, _, _, .cons Sample.step_open (.nil _), hkills, Sample.step_lowRate, hend,
    rfl, _, List.mem_cons_of_mem _ List.mem_cons_self, ?_⟩
  intro h
  have hup := h ⟨[], Sample.relaunched.spinUpOp, some "i-0"⟩
    (List.mem_cons_of_mem _ List.mem_cons_self)
  cases hup

end Oyster.ControlPlane
