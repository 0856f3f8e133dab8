import Oyster.ControlPlane.LeakFree

namespace Oyster.ControlPlane

open Prog Instances

variable {σ : Type}

/-- A `JobOpened` log taken by the manager passed every check and gave the state its region,
instance type and `min_rate`. -/
def Opened (market : Market) (m : Manager σ) : Prop :=
  ∃ log ∈ m.logs, JobState.OpenedBy market log m.state

def Eligible (market : Market) (m : Manager σ) : Prop :=
  Opened market m ∧ m.state.minRate ≤ m.state.rate

/-- Every `spin_up` of the step launches the job of the state, and that job is eligible. -/
def LaunchesEligible (market : Market) (m : Manager σ) (e : Label σ) : Prop :=
  ∀ c ∈ e.calls, c.op.isSpinUp = true → c.op = m.state.spinUpOp ∧ Eligible market m

def ReportedStopped (m : Manager σ) (e : Label σ) : Prop :=
  ⟨m.world, .checkInstanceRunning m.state.instanceId m.state.region, some false⟩ ∈ e.calls

/-- The steps that keep a wanted instance eligible. An accepted metadata update needs an eligible
job, a cancelled revision must not restore a rate below `min_rate` while the instance is wanted,
and a heartbeat that launches again needs a job that was opened. -/
def KeepsEligible (market : Market) (m : Manager σ) (e : Label σ) : Prop :=
  match e.branch with
  | .log (some log) =>
    match log.event with
    | some .metadataUpdated => m.state.updateUrl market log ≠ none → Eligible market m
    | some .jobReviseRateCancelled =>
      m.state.infraState = true → m.state.minRate ≤ m.state.originalRate
    | _ => True
  | .heartbeat => ReportedStopped m e → m.state.minRate ≤ m.state.rate → Opened market m
  | _ => True

/-- A wanted instance belongs to an eligible job. -/
def WantedEligible (market : Market) (m : Manager σ) : Prop :=
  m.status = .running → m.state.infraState = true → Eligible market m

theorem JobState.OpenedBy.congr {market : Market} {log : Log} {s s' : JobState}
    (h : JobState.OpenedBy market log s)
    (htype : s'.instanceType = s.instanceType) (hregion : s'.region = s.region)
    (hallowed : s'.allowedRegions = s.allowedRegions) (hmin : s'.minRate = s.minRate) :
    JobState.OpenedBy market log s' := by
  refine ⟨h.topic, h.allowed, ?_, ?_, ?_⟩
  · simpa only [htype, hregion] using h.metadata
  · simpa only [hregion, hallowed] using h.region
  · simpa only [htype, hregion, hmin] using h.card

section Log

variable {market : Market} {m : Manager σ} {s : JobState} {log : Log} {res : ℤ} {now : Instant}

theorem Opened.afterLog (h : Opened market m) {r : List Log} {st : Status} {w : σ}
    (htype : s.instanceType = m.state.instanceType) (hregion : s.region = m.state.region)
    (hallowed : s.allowedRegions = m.state.allowedRegions)
    (hmin : s.minRate = m.state.minRate) : Opened market ⟨s, w, st, m.logs ++ r⟩ := by
  obtain ⟨log, hlog, hby⟩ := h
  exact ⟨log, List.mem_append_left _ hlog, hby.congr htype hregion hallowed hmin⟩

theorem WantedEligible.processLog (hm : WantedEligible market m) (hrun : m.status = .running)
    (hc : KeepsEligible market m ⟨.log (some log), now, []⟩)
    (h : m.state.processLog market (some log) now = some (s, res)) (hres : res ≠ -2)
    {st : Status} (hs : s.infraState = true) :
    Eligible market ⟨s, m.world, st, m.logs ++ [log]⟩ := by
  have h := JobState.processLog_event h
  unfold KeepsEligible at hc
  match hev : log.event, h with
  | some .jobOpened, h =>
    rcases JobState.processOpened_cases (Log.topic_of_event hev) h with h | ⟨-, h⟩ | ⟨-, hby, h⟩
    · exact absurd h hres
    · simp [h] at hs
    · exact ⟨⟨log, by simp, hby⟩, of_decide_eq_true (h ▸ hs)⟩
  | some .jobSettled, h =>
    rw [(JobState.processAccount_cases (.inl h)).2] at hs ⊢
    exact ⟨(hm hrun hs).1.afterLog rfl rfl rfl rfl, (hm hrun hs).2⟩
  | some .jobDeposited, h =>
    rw [(JobState.processAccount_cases (.inr (.inl h))).2] at hs ⊢
    exact ⟨(hm hrun hs).1.afterLog rfl rfl rfl rfl, (hm hrun hs).2⟩
  | some .jobWithdrew, h =>
    rw [(JobState.processAccount_cases (.inr (.inr h))).2] at hs ⊢
    exact ⟨(hm hrun hs).1.afterLog rfl rfl rfl rfl, (hm hrun hs).2⟩
  | some .jobClosed, h =>
    obtain ⟨-, t, rfl⟩ := JobState.processClosed_cases h
    cases hs
  | some .jobReviseRateInitiated, h =>
    rcases JobState.processReviseRateInitiated_cases h with
      ⟨h, -⟩ | ⟨-, newRate, -, ⟨-, t, rfl⟩ | ⟨hle, rfl⟩⟩
    · exact absurd h hres
    · cases hs
    · exact ⟨(hm hrun hs).1.afterLog rfl rfl rfl rfl, hle⟩
  | some .jobReviseRateCancelled, h =>
    cases h
    simp only [hev] at hc
    exact ⟨(hm hrun hs).1.afterLog rfl rfl rfl rfl, hc hs⟩
  | some .jobReviseRateFinalized, h =>
    rcases JobState.processReviseRateFinalized_cases h with ⟨h, -⟩ | ⟨-, h⟩
    · exact absurd h hres
    · rw [h] at hs ⊢
      exact ⟨(hm hrun hs).1.afterLog rfl rfl rfl rfl, (hm hrun hs).2⟩
  | some .metadataUpdated, h =>
    rcases JobState.processMetadataUpdated_cases h with ⟨h, -⟩ | ⟨-, url, t, hurl, rfl⟩
    · exact absurd h hres
    · simp only [hev] at hc
      have helig := hc (by simp [hurl])
      exact ⟨helig.1.afterLog rfl rfl rfl rfl, helig.2⟩
  | none, h => cases h; exact absurd rfl hres

end Log

section Steps

variable {market : Market} {env : Env ProviderOp ProviderAns σ} {m m' : Manager σ} {e : Label σ}

theorem WantedEligible.step (hm : WantedEligible market m) (hc : KeepsEligible market m e)
    (h : Step market env m e m') : WantedEligible market m' := by
  cases h with
  | log log now hrun =>
    intro hrun' hs
    obtain ⟨s, res, hp, h2, h1, heq⟩ := Manager.afterLog_running hrun'
    rw [heq] at hs ⊢
    match log with
    | none => cases hp; exact absurd rfl h1
    | some log => exact hm.processLog hrun hc hp h2 hs
  | @heartbeat now t r w hrun _ hx =>
    intro hrun' hs
    obtain ⟨s, rfl⟩ := Manager.afterState_running hrun'
    rcases (JobState.heartbeatCheck_exec hx).2 with h | ⟨hstop, hrate, hl⟩
    · cases h
      exact hm hrun hs
    · obtain ⟨t, rfl⟩ := JobState.scheduleLaunch_eq hl.symm
      obtain ⟨log, hlog, hby⟩ : Opened market m := hc hstop hrate
      exact ⟨⟨log, hlog, hby.congr rfl rfl rfl rfl⟩, hrate⟩
  | insolvency now hrun _ =>
    intro hrun' hs
    obtain ⟨s, hl⟩ := Manager.afterState_running hrun'
    obtain ⟨t, rfl⟩ := JobState.scheduleTermination_eq hl
    simp [hl, Manager.afterState] at hs
  | @infraChange now t r w hrun _ hx =>
    intro hrun' hs
    obtain ⟨b, s, rfl⟩ := Manager.afterInfraChange_running hrun'
    have hf : m.state.InfraFrame s := (hx.sound (m.state.changeInfra_wp env now m.world)).2 b s rfl
    obtain ⟨⟨log, hlog, hby⟩, hrate⟩ := hm hrun (hf.infraState ▸ hs)
    refine ⟨⟨log, hlog, hby.congr ?_ ?_ ?_ ?_⟩, ?_⟩ <;> simp only [Manager.afterInfraChange]
    all_goals rw [hf]
    exact hrate

theorem WantedEligible.launches (hm : WantedEligible market m) (h : Step market env m e m') :
    LaunchesEligible market m e := by
  cases h with
  | log => simp [LaunchesEligible]
  | heartbeat _ _ hx =>
    intro c hc hup
    simp [(JobState.heartbeatCheck_exec hx).1 c hc] at hup
  | insolvency => simp [LaunchesEligible]
  | @infraChange now t r w hrun _ hx =>
    intro c hc hup
    obtain ⟨hwanted, hop⟩ :=
      ((hx.sound (m.state.changeInfra_wp env now m.world)).1 c hc).2 hup
    exact ⟨hop, hm hrun hwanted⟩

/-- In a run whose steps keep a wanted instance eligible, every `spin_up` launches an eligible
job. -/
theorem launches_eligible {nowTs : Duration} {now : Instant} {jobId : JobId} {delay : ℕ}
    {regions : List String} {w : σ} {es : List (Label σ)}
    (h : Along (Step market env) (KeepsEligible market)
      (.start nowTs now jobId delay regions w) es m) :
    Along (Step market env) (LaunchesEligible market)
      (.start nowTs now jobId delay regions w) es m := by
  refine h.of_invariant (fun _ _ _ (hm : WantedEligible market _) hc hs => hm.step hc hs)
    (fun _ _ _ hm _ hs => hm.launches hs) ?_
  exact fun _ hs => by simp [Manager.start, JobState.new] at hs

end Steps

/-- The sample job, opened and launched, was eligible. -/
theorem launches_eligible_sample :
    Along (Step (Sample.market []) (cloudEnv False)) (LaunchesEligible (Sample.market []))
      (Sample.start []) [Sample.openLabel, Sample.launchLabel] Sample.launchedManager :=
  launches_eligible (Sample.along_launched trivial trivial)

namespace Sample

def blacklist : List String := [encodeHexWithPrefix owner]

def rejected : JobState := { state with
  balance := 31000
  rate := 31000000000000
  originalRate := 31000000000000
  eifUrl := url
  infraChangeScheduled := true }

def revived : JobState := { rejected with
  eifUrl := updatedUrl
  eifUpdate := true
  infraState := true
  infraChangeTime := 300 * 10 ^ 9 }

def revivedManager : Manager Instances := ⟨revived, [], .running, [openLog, updateLog]⟩

theorem run_revived : Run (Step (market blacklist) (cloudEnv False)) (start [])
    [⟨.log (some openLog), 0, []⟩, ⟨.log (some updateLog), 0, []⟩] revivedManager := by
  have hopened : state.openedState (market blacklist) openLog = some openedRead :=
    openedState_open codec_openedData codec_parseJson
  have hopen : state.processLog (market blacklist) (some openLog) 0 =
      some (rejected, -3) := by
    rw [JobState.processLog_of_event openLog_event, JobState.processEvent,
      JobState.processOpened_read hopened]
    rfl
  have hcheck : rejected.checkUpdate (json updatedUrl "c6a.xlarge") = some updatedUrl := by
    rfl
  have hupdate : rejected.processLog (market blacklist) (some updateLog) 0 =
      some (revived, 0) := by
    rw [processLog_update hcheck]
    decide
  have h₁ : Step (market blacklist) (cloudEnv False) (start []) ⟨.log (some openLog), 0, []⟩
      ((start []).afterLog (some openLog) (some (rejected, -3))) := step_log rfl hopen
  have h₂ : Step (market blacklist) (cloudEnv False) ⟨rejected, [], .running, [openLog]⟩
      ⟨.log (some updateLog), 0, []⟩ (Manager.afterLog ⟨rejected, [], .running, [openLog]⟩
        (some updateLog) (some (revived, 0))) := step_log rfl hupdate
  exact .cons h₁ (.cons h₂ (.nil _))

end Sample

/-- A blacklisted owner and then an update, both waiting in the stream as after a restart: the
update schedules the launch that the rejection had cancelled. -/
theorem update_launches_rejected : ∃ es m e m',
    Run (Step (Sample.market Sample.blacklist) (cloudEnv False)) (Sample.start []) es m ∧
      Step (Sample.market Sample.blacklist) (cloudEnv False) m e m' ∧
      ¬LaunchesEligible (Sample.market Sample.blacklist) m e := by
  refine ⟨_, _, _, _, Sample.run_revived, step_launch (300 * 10 ^ 9) "i-0" rfl rfl rfl rfl, ?_⟩
  intro h
  have hup := h ⟨[], Sample.revived.spinUpOp, some "i-0"⟩
    (List.mem_cons_of_mem _ List.mem_cons_self) rfl
  exact absurd hup.2.2 (by decide)

end Oyster.ControlPlane
