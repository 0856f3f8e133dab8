import Oyster.ControlPlane.JobManager

namespace Oyster.ControlPlane

open Prog

/-- What the metadata says of the instance, as the state keeps it. -/
structure Config where
  instanceType : String
  region : String
  reqMem : ℤ
  reqVcpus : ℤ
  family : String
  debug : Bool
deriving DecidableEq

/-- The family of an opening, with the default of a new state. -/
def effectiveFamily (v : Json) : String := (v.index "family").asStr.getD "salmon"

def effectiveDebug (v : Json) : Bool := (v.index "debug").asBool.getD false

/-- The update gives everything but the number of vcpus as the opening did, and a new url. -/
structure OthersMatch (opened v : Json) (url : String) : Prop where
  instanceType : (v.index "instance").asStr = (opened.index "instance").asStr
  region : (v.index "region").asStr = (opened.index "region").asStr
  memory : (v.index "memory").asI64 = (opened.index "memory").asI64
  family : ∀ family, (v.index "family").asStr = some family → family = effectiveFamily opened
  debug : effectiveDebug v = effectiveDebug opened
  url : ∃ newUrl, (v.index "url").asStr = some newUrl ∧ newUrl ≠ url

/-- The update gives everything as the opening did, and a new url. -/
def Matches (opened v : Json) (url : String) : Prop :=
  OthersMatch opened v url ∧ (v.index "vcpu").asI64 = (opened.index "vcpu").asI64

structure Configured (v : Json) (c : Config) : Prop where
  instanceType : (v.index "instance").asStr = some c.instanceType
  region : (v.index "region").asStr = some c.region
  memory : (v.index "memory").asI64 = some c.reqMem
  vcpu : ∃ t, (v.index "vcpu").asI64 = some t ∧ c.reqVcpus = (tryIntoI32 t).getD i32Max
  family : c.family = effectiveFamily v
  debug : c.debug = effectiveDebug v

namespace JobState

def config (s : JobState) : Config :=
  ⟨s.instanceType, s.region, s.reqMem, s.reqVcpus, s.family, s.debug⟩

variable {s s' : JobState} {m : Market} {log : Log} {now : Instant} {res : ℤ} {v : Json}

theorem readOpened_configured (hfamily : s.family = "salmon") (hdebug : s.debug = false)
    (h : s.readOpened v = .ok s') : Configured v s'.config := by
  unfold readOpened at h
  split at h
  · cases h
  next t ht =>
    dsimp only at h
    split at h
    · cases h
    next r hr =>
      split_ifs at h
      split at h
      · cases h
      next mem hmem =>
        split at h
        · cases h
        next vcpu hvcpu =>
          split at h
          · cases h
          cases h
          refine ⟨ht, hr, hmem, ⟨vcpu, hvcpu, rfl⟩, ?_, ?_⟩
          · rw [effectiveFamily, ← hfamily]
            rfl
          · rw [effectiveDebug, ← hdebug]
            rfl

theorem checkOpened_config (h : s.checkOpened m log now = some (s', res)) :
    s'.config = s.config := by
  obtain ⟨minRate, bandwidth, scheduled, t, wanted, rfl⟩ := checkOpened_eq h
  rfl

theorem processOpened_read_metadata (h : s.processOpened m log now = some (s', res))
    (hres : res ≠ -2) : ∃ metadata rate balance timestamp v s₁,
      m.codec.openedData log.data = some (metadata, rate, balance, timestamp) ∧
      m.codec.parseJson metadata = some v ∧
      { s with
        balance := balance
        rate := rate
        originalRate := rate
        lastSettled := fromSecs (U256.saturatingToU64 timestamp) }.readOpened v = .ok s₁ ∧
      s₁.checkOpened m log now = some (s', res) := by
  obtain ⟨s₁, hopened, hcheck⟩ := processOpened_accepted h hres
  obtain ⟨⟨metadata, rate, balance, timestamp⟩, hdata, hopened⟩ :=
    Option.bind_eq_some_iff.1 hopened
  obtain ⟨v, hv, hread⟩ := Option.bind_eq_some_iff.1 hopened
  exact ⟨metadata, rate, balance, timestamp, v, s₁, hdata, hv, ok_of_toOption hread, hcheck⟩

theorem processOpened_configured {nowTs : Duration} {jobId : JobId} {delay : ℕ}
    {regions : List String} {start : Instant} {metadata : String} {data : U256 × U256 × U256}
    (hdata : m.codec.openedData log.data = some (metadata, data))
    (hv : m.codec.parseJson metadata = some v)
    (h : (JobState.new nowTs start jobId delay regions).processOpened m log now = some (s', res))
    (hres : res ≠ -2) : Configured v s'.config := by
  obtain ⟨metadata', rate, balance, timestamp, v', s₁, hdata', hv', hread, hcheck⟩ :=
    processOpened_read_metadata h hres
  cases hdata.symm.trans hdata'
  cases hv.symm.trans hv'
  rw [checkOpened_config hcheck]
  exact readOpened_configured rfl rfl hread

/-- The number of vcpus of an update, with the fallback of `JobMetadataUpdated`. -/
def updateVcpus (t : ℤ) : ℤ := (tryIntoI32 t).getD 2

theorem guard_eq_some_iff {p : Prop} [Decidable p] {u : Unit} :
    (guard p : Option Unit) = some u ↔ p := by
  by_cases hp : p <;> simp [guard, hp]

theorem checkUpdate_eq_some {url : String} : s.checkUpdate v = some url ↔
    (v.index "instance").asStr = some s.instanceType ∧
    (v.index "region").asStr = some s.region ∧
    (v.index "memory").asI64 = some s.reqMem ∧
    (∃ t, (v.index "vcpu").asI64 = some t ∧ s.reqVcpus = updateVcpus t) ∧
    (∀ family, (v.index "family").asStr = some family → s.family = family) ∧
    s.debug = effectiveDebug v ∧ (v.index "url").asStr = some url ∧ s.eifUrl ≠ url := by
  unfold checkUpdate
  simp only [Option.bind_eq_bind, Option.bind_eq_some_iff, guard_eq_some_iff, Option.all_eq_true,
    Option.pure_def, Option.some.injEq, exists_const]
  constructor
  · rintro ⟨t, ht, rfl, r, hr, rfl, mem, hmem, rfl, vcpu, hvcpu, hvcpus, hfamily, hdebug, u, hu,
      hne, rfl⟩
    exact ⟨ht, hr, hmem, ⟨vcpu, hvcpu, hvcpus⟩, fun f hf => of_decide_eq_true (hfamily f hf),
      hdebug, hu, hne⟩
  · rintro ⟨ht, hr, hmem, ⟨vcpu, hvcpu, hvcpus⟩, hfamily, hdebug, hu, hne⟩
    exact ⟨_, ht, rfl, _, hr, rfl, _, hmem, rfl, vcpu, hvcpu, hvcpus,
      fun f hf => decide_eq_true (hfamily f hf), hdebug, url, hu, hne, rfl⟩

/-- Of a configured job, the update passes every check when everything but the number of vcpus
matches and the fallbacks agree on that number. -/
theorem checkUpdate_configured {opened : Json} {t : ℤ} (hc : Configured opened s.config)
    (ht : (opened.index "vcpu").asI64 = some t) :
    (∃ url, s.checkUpdate v = some url) ↔ OthersMatch opened v s.eifUrl ∧
      ∃ t', (v.index "vcpu").asI64 = some t' ∧ (tryIntoI32 t).getD i32Max = updateVcpus t' := by
  obtain ⟨hinst, hregion, hmem, ⟨vcpu, hvcpu, hvcpus⟩, hfamily, hdebug⟩ := hc
  cases ht.symm.trans hvcpu
  dsimp only [config] at hinst hregion hmem hvcpus hfamily hdebug
  simp only [checkUpdate_eq_some]
  constructor
  · rintro ⟨url, hi, hr, hm, ⟨t', ht', hv⟩, hf, hd, hu, hne⟩
    refine ⟨⟨hi.trans hinst.symm, hr.trans hregion.symm, hm.trans hmem.symm, ?_, ?_,
      url, hu, hne.symm⟩, t', ht', hvcpus.symm.trans hv⟩
    · intro f hfam
      rw [← hf f hfam, hfamily]
    · rw [← hd, hdebug]
  · rintro ⟨hothers, t', ht', hv⟩
    obtain ⟨url, hu, hne⟩ := hothers.url
    refine ⟨url, hothers.instanceType.trans hinst, hothers.region.trans hregion,
      hothers.memory.trans hmem, ⟨t', ht', hvcpus.trans hv⟩, ?_, ?_, hu, hne.symm⟩
    · intro f hfam
      rw [hothers.family f hfam, hfamily]
    · rw [hothers.debug, hdebug]

def UpdateFrame (s s' : JobState) : Prop :=
  s' = { s with
    eifUrl := s'.eifUrl
    eifUpdate := s'.eifUpdate
    infraState := s'.infraState
    infraChangeTime := s'.infraChangeTime
    infraChangeScheduled := s'.infraChangeScheduled }

def ScheduleFrame (s s' : JobState) : Prop :=
  s' = { s with
    infraState := s'.infraState
    infraChangeTime := s'.infraChangeTime
    infraChangeScheduled := s'.infraChangeScheduled }

def LaunchFits (s : JobState) (now : Instant) : Prop :=
  now + fromSecs s.launchDelay < 2 ^ 63 * 10 ^ 9

theorem scheduleLaunch_isSome : (∃ s', s.scheduleLaunch now s.launchDelay = some s') ↔
    s.LaunchFits now := by
  unfold scheduleLaunch Instant.checkedAdd LaunchFits
  by_cases hfits : now + fromSecs s.launchDelay < 2 ^ 63 * 10 ^ 9
  · rw [if_pos hfits]
    exact iff_of_true ⟨_, rfl⟩ hfits
  · rw [if_neg hfits]
    exact iff_of_false nofun hfits

theorem processMetadataUpdated_accepts {metadata : String}
    (hdata : m.codec.stringData log.data = some metadata)
    (hv : m.codec.parseJson metadata = some v) :
    (∃ s', s.processMetadataUpdated m log now = some (s', 0)) ↔
      (∃ url, s.checkUpdate v = some url) ∧ s.LaunchFits now := by
  rw [processMetadataUpdated_read hdata hv]
  cases hcheck : s.checkUpdate v with
  | none => simp
  | some url =>
    have hfits : (∃ s', { s with eifUrl := url, eifUpdate := true }.scheduleLaunch now
        s.launchDelay = some s') ↔ s.LaunchFits now := scheduleLaunch_isSome
    simp only [Option.map_eq_some_iff, Prod.mk.injEq, and_true, exists_eq_right,
      Option.some.injEq, exists_eq', true_and]
    exact hfits

theorem processMetadataUpdated_frame (h : s.processMetadataUpdated m log now = some (s', res)) :
    if res = 0 then s.UpdateFrame s' else s.ScheduleFrame s' := by
  obtain ⟨rfl, -, ⟨-, rfl⟩ | ⟨t, rfl⟩⟩ | ⟨rfl, url, t, -, rfl⟩ := processMetadataUpdated_cases h
  · exact rfl
  · exact rfl
  · exact rfl

theorem processLog_config (hevent : log.event ≠ some .jobOpened)
    (h : s.processLog m (some log) now = some (s', res)) : s'.config = s.config := by
  replace h := processLog_event h
  cases hlog : log.event with
  | none =>
    rw [hlog] at h
    cases h
    rfl
  | some event =>
    rw [hlog] at h hevent
    cases event with
    | jobOpened => exact absurd rfl hevent
    | jobSettled => rw [(processAccount_cases (.inl h)).2]; rfl
    | jobClosed =>
      obtain ⟨-, t, rfl⟩ := processClosed_cases h
      rfl
    | jobDeposited => rw [(processAccount_cases (.inr (.inl h))).2]; rfl
    | jobWithdrew => rw [(processAccount_cases (.inr (.inr h))).2]; rfl
    | jobReviseRateInitiated =>
      obtain ⟨-, -, rfl⟩ | ⟨-, newRate, -, ⟨-, t, rfl⟩ | ⟨-, rfl⟩⟩ :=
        processReviseRateInitiated_cases h
      · rfl
      · rfl
      · rfl
    | jobReviseRateCancelled =>
      cases h
      rfl
    | jobReviseRateFinalized =>
      obtain ⟨-, rfl⟩ | ⟨-, rfl⟩ := processReviseRateFinalized_cases h
      · rfl
      · rfl
    | metadataUpdated =>
      obtain ⟨-, -, ⟨-, rfl⟩ | ⟨t, rfl⟩⟩ | ⟨-, url, t, -, rfl⟩ := processMetadataUpdated_cases h
      · rfl
      · rfl
      · rfl

theorem InfraFrame.config (h : InfraFrame s s') : s'.config = s.config := by
  rw [h]
  rfl

end JobState

section Run

variable {σ : Type} {market : Market} {env : Env ProviderOp ProviderAns σ} {m m' : Manager σ}
  {e : Label σ}

/-- The step is not another opening. -/
def NotOpened (_ : Manager σ) (e : Label σ) : Prop :=
  ∀ log, e.branch = .log (some log) → log.event ≠ some .jobOpened

theorem Step.config (hopened : NotOpened m e) (h : Step market env m e m') :
    m'.state.config = m.state.config := by
  cases h with
  | log log now hrun =>
    cases hp : m.state.processLog market log now with
    | none => rfl
    | some r =>
      cases log with
      | none =>
        cases hp
        rfl
      | some log => exact JobState.processLog_config (hopened log rfl) hp
  | @heartbeat now t r w hrun _ hx =>
    obtain rfl | ⟨-, -, rfl⟩ := (JobState.heartbeatCheck_exec hx).2
    · rfl
    · cases hl : m.state.scheduleLaunch now 0 with
      | none => rfl
      | some s =>
        obtain ⟨t, rfl⟩ := JobState.scheduleLaunch_eq hl
        rfl
  | insolvency now hrun _ =>
    cases hl : m.state.handleInsolvency now with
    | none => rfl
    | some s =>
      obtain ⟨t, rfl⟩ := JobState.scheduleTermination_eq hl
      rfl
  | @infraChange now t r w hrun _ hx =>
    cases r with
    | none => rfl
    | some r =>
      have hframe := (hx.sound (m.state.changeInfra_wp env now m.world)).2 r.1 r.2 rfl
      exact hframe.config

/-- The update is accepted exactly when it matches the opening, and changes no more than an
accepted or a rejected one may. -/
def UpdateChecked (market : Market) (opened v : Json) (s : JobState) (log : Log)
    (now : Instant) : Prop :=
  ((∃ s', s.processLog market (some log) now = some (s', 0)) ↔ Matches opened v s.eifUrl) ∧
    ∀ s' res, s.processLog market (some log) now = some (s', res) →
      if res = 0 then s.UpdateFrame s' else s.ScheduleFrame s'

def InI32 (t : ℤ) : Prop := -2 ^ 31 ≤ t ∧ t < 2 ^ 31

/-- If everything else matches, an equal number of vcpus is an `i32` and the launch can be
scheduled, and a different one is not what the other fallback gives. -/
def ReadsAlike (opened v : Json) (s : JobState) (now : Instant) : Prop :=
  OthersMatch opened v s.eifUrl → ∀ t t', (opened.index "vcpu").asI64 = some t →
    (v.index "vcpu").asI64 = some t' →
    if t' = t then InI32 t ∧ s.LaunchFits now
    else s.LaunchFits now → ¬(t' = i32Max ∧ ¬InI32 t) ∧ ¬(t = 2 ∧ ¬InI32 t')

theorem tryIntoI32_getD (t d : ℤ) :
    (tryIntoI32 t).getD d = if -2 ^ 31 ≤ t ∧ t < 2 ^ 31 then t else d := by
  unfold tryIntoI32
  split_ifs <;> rfl

/-- The two fallbacks give the same number for an equal `i32`, and in two other cases. -/
theorem fallbacks_agree_iff (t t' : ℤ) :
    (tryIntoI32 t).getD i32Max = JobState.updateVcpus t' ↔
      if t' = t then InI32 t else t' = i32Max ∧ ¬InI32 t ∨ t = 2 ∧ ¬InI32 t' := by
  unfold JobState.updateVcpus InI32 i32Max
  rw [tryIntoI32_getD, tryIntoI32_getD]
  split_ifs <;> omega

theorem JobState.processLog_metadataUpdated {s : JobState} {log : Log} {now : Instant}
    (hupdate : log.event = some .metadataUpdated) :
    s.processLog market (some log) now = s.processMetadataUpdated market log now :=
  JobState.processLog_of_event hupdate

theorem readsAlike_iff {opened v : Json} {s : JobState} {now : Instant} {t t' : ℤ}
    (ht : (opened.index "vcpu").asI64 = some t) (ht' : (v.index "vcpu").asI64 = some t') :
    ReadsAlike opened v s now ↔ (OthersMatch opened v s.eifUrl →
      if t' = t then InI32 t ∧ s.LaunchFits now
      else s.LaunchFits now → ¬(t' = i32Max ∧ ¬InI32 t) ∧ ¬(t = 2 ∧ ¬InI32 t')) := by
  constructor
  · intro h hothers
    exact h hothers t t' ht ht'
  · intro h hothers u u' hu hu'
    cases ht.symm.trans hu
    cases ht'.symm.trans hu'
    exact h hothers

theorem update_checked_configured {opened v : Json} {s : JobState} {log : Log} {now : Instant}
    {metadata : String} (hc : Configured opened s.config)
    (hupdate : log.event = some .metadataUpdated)
    (hdata : market.codec.stringData log.data = some metadata)
    (hv : market.codec.parseJson metadata = some v) :
    UpdateChecked market opened v s log now ↔ ReadsAlike opened v s now := by
  obtain ⟨t, ht, -⟩ := hc.vcpu
  have hframe : ∀ s' res, s.processLog market (some log) now = some (s', res) →
      if res = 0 then s.UpdateFrame s' else s.ScheduleFrame s' := by
    intro s' res h
    rw [JobState.processLog_metadataUpdated hupdate] at h
    exact JobState.processMetadataUpdated_frame h
  have haccepts : (∃ s', s.processLog market (some log) now = some (s', 0)) ↔
      (OthersMatch opened v s.eifUrl ∧ ∃ t', (v.index "vcpu").asI64 = some t' ∧
        (tryIntoI32 t).getD i32Max = JobState.updateVcpus t') ∧ s.LaunchFits now := by
    rw [JobState.processLog_metadataUpdated hupdate,
      JobState.processMetadataUpdated_accepts hdata hv, JobState.checkUpdate_configured hc ht]
  unfold UpdateChecked Matches
  rw [and_iff_left hframe, haccepts, ht]
  cases hvcpu : (v.index "vcpu").asI64 with
  | none =>
    -- neither the update is accepted nor does it match
    simp [ReadsAlike, hvcpu]
  | some t' =>
    rw [readsAlike_iff ht hvcpu]
    simp only [Option.some.injEq, exists_eq_left', fallbacks_agree_iff]
    by_cases hothers : OthersMatch opened v s.eifUrl
    · by_cases heq : t' = t
      · simp only [hothers, heq, if_true, true_and, and_true, iff_true, forall_const]
      · simp only [hothers, heq, if_false, true_and, and_false, iff_false, forall_const]
        tauto
    · simp only [hothers, false_and, IsEmpty.forall_iff]

/-- Whatever the job manager does between the opening and an update, the update is accepted
exactly when it matches the opening, and changes no more than it may, unless the fallbacks of
the two parsers differ or the launch is beyond the range of the clock. -/
theorem update_checked_iff {nowTs : Duration} {start openedAt now : Instant} {jobId : JobId}
    {delay : ℕ} {regions : List String} {openLog log : Log} {metadata metadata' : String}
    {data : U256 × U256 × U256} {opened v : Json} {s : JobState} {w : σ} {es : List (Label σ)}
    (hopen : openLog.event = some .jobOpened)
    (hdata : market.codec.openedData openLog.data = some (metadata, data))
    (hopened : market.codec.parseJson metadata = some opened)
    (haccepted : (JobState.new nowTs start jobId delay regions).processLog market (some openLog)
      openedAt = some (s, 0))
    (h : Along (Step market env) NotOpened ⟨s, w, .running, [openLog]⟩ es m)
    (hupdate : log.event = some .metadataUpdated)
    (hdata' : market.codec.stringData log.data = some metadata')
    (hv : market.codec.parseJson metadata' = some v) :
    UpdateChecked market opened v m.state log now ↔ ReadsAlike opened v m.state now := by
  have hprocess := JobState.processLog_event haccepted
  rw [hopen] at hprocess
  have hstart : Configured opened s.config :=
    JobState.processOpened_configured hdata hopened hprocess (by decide)
  have hstep : ∀ m (e : Label σ) m', Configured opened m.state.config → NotOpened m e →
      Step market env m e m' → Configured opened m'.state.config := by
    intro m e m' hc hnot hs
    rw [hs.config hnot]
    exact hc
  exact update_checked_configured (h.invariant hstep hstart) hupdate hdata' hv

end Run

namespace Sample

/-- After the sample job was closed, an update that differs in the url alone is checked as it
should be. -/
theorem update_checked_sample :
    UpdateChecked (market []) (json url "c6a.xlarge") (json updatedUrl "c6a.xlarge") closedAtOnce
      updateLog 0 := by
  have hclose : Along (Step (market []) fun _ (_ : Unit) _ _ => True) NotOpened
      ⟨opened, (), .running, [openLog]⟩ [closeAtOnceLabel]
      ⟨closedAtOnce, (), .running, [openLog, closeLog]⟩ := by
    refine .cons ?_ step_closeAtOnce (.nil _)
    intro log hlog
    cases hlog
    decide
  have hdata : (market []).codec.openedData openLog.data =
      some (metadata url "c6a.xlarge", 31000000000000, 31000, 0) := codec_openedData
  have hdata' : (market []).codec.stringData updateLog.data =
      some (metadata updatedUrl "c6a.xlarge") := codec_updateData
  have hopened : (market []).codec.parseJson (metadata url "c6a.xlarge") =
      some (json url "c6a.xlarge") := codec_parseJson
  have hv : (market []).codec.parseJson (metadata updatedUrl "c6a.xlarge") =
      some (json updatedUrl "c6a.xlarge") := codec_parseUpdate
  apply (update_checked_iff openLog_event hdata hopened processLog_open hclose updateLog_event
    hdata' hv).2
  intro _ t t' ht ht'
  cases ht
  cases ht'
  rw [if_pos rfl]
  exact ⟨by unfold InI32; decide, by unfold JobState.LaunchFits; decide⟩

def wideMetadata : String :=
  "\x7b\"region\":\"ap-south-1\",\"url\":\"https://example.com/updated-enclave.eif\"," ++
    "\"instance\":\"c6a.xlarge\",\"memory\":4096,\"vcpu\":1099511627776\x7d"

def wideJson : Json :=
  .obj [("region", .str "ap-south-1"), ("url", .str updatedUrl), ("instance", .str "c6a.xlarge"),
    ("memory", .int 4096), ("vcpu", .int 1099511627776)]

def wideLog : Log :=
  ⟨[MarketEvent.metadataUpdated.topic, 1], abiWord 32 ++ abiString wideMetadata⟩

def wideMarket : Market := { market [] with
  codec := { codec with
    stringData := fun d => if d = wideLog.data then some wideMetadata else none
    parseJson := fun s => if s = wideMetadata then some wideJson else codec.parseJson s } }

theorem processLog_wideOpen :
    state.processLog wideMarket (some openLog) 0 = some (opened, 0) := by
  have hdata : wideMarket.codec.openedData openedData =
      some (metadata url "c6a.xlarge", 31000000000000, 31000, 0) := by
    dsimp only [wideMarket, market, codec]
    rw [if_pos rfl]
  have hv : wideMarket.codec.parseJson (metadata url "c6a.xlarge") =
      some (json url "c6a.xlarge") := by
    have hne : metadata url "c6a.xlarge" ≠ wideMetadata := by decide
    dsimp only [wideMarket, market, codec]
    rw [if_neg hne, if_pos rfl]
  exact processLog_opens hdata hv

/-- A job opened with two vcpus accepts an update that asks for 1099511627776 of them. -/
theorem wide_update_accepted :
    state.processLog wideMarket (some openLog) 0 = some (opened, 0) ∧
      opened.processLog wideMarket (some wideLog) 0 =
        some ({ opened with eifUrl := updatedUrl, eifUpdate := true }, 0) ∧
      ¬UpdateChecked wideMarket (json url "c6a.xlarge") wideJson opened wideLog 0 := by
  have hupdate : wideLog.event = some .metadataUpdated := marketEvent_topic .metadataUpdated
  have hdata : wideMarket.codec.stringData wideLog.data = some wideMetadata := by
    dsimp only [wideMarket]
    rw [if_pos rfl]
  have hv : wideMarket.codec.parseJson wideMetadata = some wideJson := by
    dsimp only [wideMarket]
    rw [if_pos rfl]
  have hcheck : opened.checkUpdate wideJson = some updatedUrl := by rfl
  have haccepted : opened.processLog wideMarket (some wideLog) 0 =
      some ({ opened with eifUrl := updatedUrl, eifUpdate := true }, 0) := by
    rw [JobState.processLog_metadataUpdated hupdate,
      JobState.processMetadataUpdated_read hdata hv, hcheck]
    decide
  refine ⟨processLog_wideOpen, haccepted, ?_⟩
  intro h
  have hmatches : Matches (json url "c6a.xlarge") wideJson opened.eifUrl := h.1.1 ⟨_, haccepted⟩
  exact absurd hmatches.2 (by decide)

end Sample

end Oyster.ControlPlane
