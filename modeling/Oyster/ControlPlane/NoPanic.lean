import Oyster.ControlPlane.Kill
import Oyster.ControlPlane.Metadata
import Oyster.ControlPlane.Splice

namespace Oyster.ControlPlane

def MarketEvent.indexed : MarketEvent → ℕ
  | jobOpened => 3
  | jobDeposited | jobWithdrew => 2
  | jobSettled | jobClosed | jobReviseRateInitiated | jobReviseRateCancelled
  | jobReviseRateFinalized | metadataUpdated => 1

/-- A log that the filter of `job_logs` lets through, with the indexed topics of its event. -/
structure Delivered (contract : EthAddress) (job : B256) (log : Log) : Prop where
  accepts : (jobLogs contract job).filter.accepts ⟨contract, log⟩ = true
  indexed : ∀ e, log.event = some e → log.topics.length = e.indexed + 1

theorem Delivered.event {contract : EthAddress} {job : B256} {log : Log}
    (h : Delivered contract job log) : ∃ e, log.event = some e := by
  have haccepts := h.accepts
  unfold Filter.accepts at haccepts
  simp only [Bool.and_eq_true, Option.any_eq_true] at haccepts
  obtain ⟨⟨⟨-, topic, htopic, hmem⟩, -⟩, -⟩ := haccepts
  obtain ⟨e, -, rfl⟩ := List.mem_map.1 (List.contains_iff_mem.1 hmem)
  refine ⟨e, ?_⟩
  rw [Log.event, List.head?_eq_getElem?, htopic, Option.bind_some, marketEvent_topic]

/-- The price of bandwidth that an opening divides by, where its region has one. -/
def gbCost (gbRates : List GBRateCard) (region : String) : Option U256 :=
  (gbRates.find? fun entry => entry.regionCode = region).map GBRateCard.rate

namespace JobState

/-- The codes of `process_log`. -/
def codes : List ℤ := [0, -1, -2, -3]

/-- `process_log` returns one of its codes. -/
def Returns (s : JobState) (m : Market) (log : Log) (now : Instant) : Prop :=
  ∃ s' res, s.processLog m (some log) now = some (s', res) ∧ res ∈ codes

/-- A launch that the log asks for is within the range of the clock, and an opening that asks for
one divides by a price that is not zero. -/
def LaunchPossible (s : JobState) (m : Market) (log : Log) (now : Instant) : Prop :=
  s.LogLaunches m log → s.LaunchFits now ∧
    (log.event = some .jobOpened → ∀ s₁, s.openedState m log = some s₁ →
      gbCost m.gbRates s₁.region ≠ some 0)

section Panics

variable {s s' s₁ : JobState} {m : Market} {log : Log} {now : Instant} {res : ℤ}

theorem scheduleTermination_isSome (hnow : now < 2 ^ 63 * 10 ^ 9) :
    ∃ s', s.scheduleTermination now 0 = some s' := by
  unfold scheduleTermination Instant.checkedAdd fromSecs
  rw [Nat.zero_mul, Nat.add_zero, if_pos hnow]
  exact ⟨_, rfl⟩

theorem launchFits_congr (h : s'.launchDelay = s.launchDelay) :
    s'.LaunchFits now ↔ s.LaunchFits now := by
  unfold LaunchFits
  rw [h]

theorem setBandwidth_isSome {gbRates : List GBRateCard} :
    (∃ s', s.setBandwidth gbRates = some s') ↔ gbCost gbRates s.region ≠ some 0 := by
  unfold setBandwidth gbCost
  cases gbRates.find? fun entry => entry.regionCode = s.region with
  | none => exact iff_of_true ⟨s, rfl⟩ nofun
  | some entry =>
    dsimp only [Option.map_some]
    by_cases hzero : entry.rate = 0
    · rw [if_pos hzero, hzero]
      exact iff_of_false nofun (not_not.2 rfl)
    · rw [if_neg hzero]
      exact iff_of_true ⟨_, rfl⟩ fun h => hzero (Option.some.inj h)

theorem setBandwidth_launchDelay {gbRates : List GBRateCard}
    (h : s.setBandwidth gbRates = some s') : s'.launchDelay = s.launchDelay := by
  obtain ⟨b, rfl⟩ := setBandwidth_eq h
  rfl

theorem launchIfPaid_isSome (hnow : now < 2 ^ 63 * 10 ^ 9) :
    (∃ s' res, s.launchIfPaid m now = some (s', res)) ↔
      (s.minRate ≤ s.rate → s.LaunchFits now ∧ gbCost m.gbRates s.region ≠ some 0) := by
  unfold launchIfPaid
  by_cases hpaid : s.minRate ≤ s.rate
  · rw [if_pos hpaid, imp_iff_right hpaid, ← setBandwidth_isSome]
    constructor
    · rintro ⟨s', res, h⟩
      simp only [Option.bind_eq_bind, Option.bind_eq_some_iff] at h
      obtain ⟨s₁, hband, s₂, hlaunch, -⟩ := h
      exact ⟨(launchFits_congr (setBandwidth_launchDelay hband)).1
        (scheduleLaunch_isSome.1 ⟨s₂, hlaunch⟩), s₁, hband⟩
    · rintro ⟨hfits, s₁, hband⟩
      obtain ⟨s₂, hlaunch⟩ := scheduleLaunch_isSome.2
        ((launchFits_congr (setBandwidth_launchDelay hband)).2 hfits)
      exact ⟨s₂, 0, Option.bind_eq_some_iff.2 ⟨s₁, hband,
        Option.bind_eq_some_iff.2 ⟨s₂, hlaunch, rfl⟩⟩⟩
  · rw [if_neg hpaid]
    obtain ⟨s', hterm⟩ := scheduleTermination_isSome (s := s) hnow
    exact iff_of_true ⟨s', 0, by simp [hterm]⟩ fun h => absurd h hpaid

theorem whitelistBlacklistCheck_isSome (h : log.topics.length = 4) (white black : List String) :
    ∃ allowed, whitelistBlacklistCheck log white black = some allowed := by
  have hlt : 2 < log.topics.length := by omega
  unfold whitelistBlacklistCheck
  split_ifs
  · exact ⟨_, rfl⟩
  · rw [List.getElem?_eq_getElem hlt]
    exact ⟨_, rfl⟩

theorem checkOpened_isSome (hnow : now < 2 ^ 63 * 10 ^ 9) (howner : log.topics.length = 4) :
    (∃ s' res, s.checkOpened m log now = some (s', res)) ↔
      (whitelistBlacklistCheck log m.addressWhitelist m.addressBlacklist = some true →
        ∀ card, findRateCard m.rates s.region s.instanceType = some card →
          card.minRate ≤ s.rate → s.LaunchFits now ∧ gbCost m.gbRates s.region ≠ some 0) := by
  obtain ⟨allowed, hallowed⟩ :=
    whitelistBlacklistCheck_isSome howner m.addressWhitelist m.addressBlacklist
  unfold checkOpened
  rw [hallowed]
  cases allowed with
  | false =>
    obtain ⟨s', hterm⟩ := scheduleTermination_isSome (s := s) hnow
    exact iff_of_true ⟨s', -3, by simp [hterm]⟩ nofun
  | true =>
    cases hcard : findRateCard m.rates s.region s.instanceType with
    | none => exact iff_of_true ⟨s, -2, rfl⟩ fun _ => nofun
    | some card =>
      have hpaid := launchIfPaid_isSome (s := { s with minRate := card.minRate }) (m := m) hnow
      constructor
      · intro h _ card' hcard'
        cases hcard'
        exact hpaid.1 h
      · intro h
        exact hpaid.2 (h rfl card rfl)

theorem openedState_launchDelay (h : s.openedState m log = some s₁) :
    s₁.launchDelay = s.launchDelay := by
  obtain ⟨⟨metadata, rate, balance, timestamp⟩, -, h⟩ := Option.bind_eq_some_iff.1 h
  obtain ⟨v, -, h⟩ := Option.bind_eq_some_iff.1 h
  have hread := readOpened_eq { s with
    balance := balance
    rate := rate
    originalRate := rate
    lastSettled := fromSecs (U256.saturatingToU64 timestamp) } v
  rw [ok_of_toOption h] at hread
  dsimp only at hread
  rw [hread]

theorem processOpened_isSome (hnow : now < 2 ^ 63 * 10 ^ 9) (howner : log.topics.length = 4) :
    (∃ s' res, s.processOpened m log now = some (s', res)) ↔
      (s.OpenLaunches m log → s.LaunchFits now ∧
        ∀ s₁, s.openedState m log = some s₁ → gbCost m.gbRates s₁.region ≠ some 0) := by
  cases hopened : s.openedState m log with
  | none =>
    obtain ⟨s', h, -⟩ := processOpened_unread hopened
    refine iff_of_true ⟨s', -2, h⟩ ?_
    rintro ⟨s₁, h₁, -⟩
    cases hopened.symm.trans h₁
  | some s₁ =>
    rw [processOpened_read hopened, checkOpened_isSome hnow howner,
      launchFits_congr (openedState_launchDelay hopened)]
    constructor
    · rintro h ⟨s₂, h₂, hallowed, card, hcard, hpaid⟩
      cases hopened.symm.trans h₂
      obtain ⟨hfits, hcost⟩ := h hallowed card hcard hpaid
      refine ⟨hfits, ?_⟩
      rintro s₂ ⟨⟩
      exact hcost
    · intro h hallowed card hcard hpaid
      obtain ⟨hfits, hcost⟩ := h ⟨s₁, hopened, hallowed, card, hcard, hpaid⟩
      exact ⟨hfits, hcost s₁ rfl⟩

theorem processMetadataUpdated_isSome (hnow : now < 2 ^ 63 * 10 ^ 9) :
    (∃ s' res, s.processMetadataUpdated m log now = some (s', res)) ↔
      (s.updateUrl m log ≠ none → s.LaunchFits now) := by
  unfold processMetadataUpdated updateUrl
  cases m.codec.stringData log.data with
  | none => exact iff_of_true ⟨s, -2, rfl⟩ fun h => absurd rfl h
  | some metadata =>
    dsimp only [Option.bind_some]
    cases (m.codec.parseJson metadata).bind s.checkUpdate with
    | none =>
      obtain ⟨s', hterm⟩ := scheduleTermination_isSome (s := s) hnow
      exact iff_of_true ⟨s', -2, by simp [hterm]⟩ fun h => absurd rfl h
    | some url =>
      have hfits : (∃ s', { s with eifUrl := url, eifUpdate := true }.scheduleLaunch now
          s.launchDelay = some s') ↔ s.LaunchFits now := scheduleLaunch_isSome
      rw [imp_iff_right nofun]
      constructor
      · rintro ⟨s', res, h⟩
        obtain ⟨s₁, hs₁, -⟩ := Option.map_eq_some_iff.1 h
        exact hfits.1 ⟨s₁, hs₁⟩
      · intro h
        obtain ⟨s', hs'⟩ := hfits.2 h
        exact ⟨s', 0, Option.map_eq_some_iff.2 ⟨s', hs', rfl⟩⟩

theorem processReviseRateInitiated_isSome (hnow : now < 2 ^ 63 * 10 ^ 9) :
    ∃ s' res, s.processReviseRateInitiated m log now = some (s', res) := by
  unfold processReviseRateInitiated
  cases m.codec.u256Data log.data with
  | none => exact ⟨s, -2, rfl⟩
  | some newRate =>
    dsimp only
    split_ifs
    · obtain ⟨s', hs'⟩ := scheduleTermination_isSome
        (s := { s with originalRate := s.rate, rate := newRate }) hnow
      exact ⟨s', 0, Option.map_eq_some_iff.2 ⟨s', hs', rfl⟩⟩
    · exact ⟨_, 0, rfl⟩

theorem processAmounts_isSome :
    (∃ s' res, s.processSettled m log = some (s', res)) ∧
      (∃ s' res, s.processDeposited m log = some (s', res)) ∧
      (∃ s' res, s.processWithdrew m log = some (s', res)) ∧
      ∃ s' res, s.processReviseRateFinalized m log = some (s', res) := by
  unfold processSettled processDeposited processWithdrew processReviseRateFinalized
  refine ⟨?_, ?_, ?_, ?_⟩
  · cases m.codec.settledData log.data with
    | none => exact ⟨s, -2, rfl⟩
    | some data => exact ⟨_, 0, rfl⟩
  · cases m.codec.u256Data log.data with
    | none => exact ⟨s, -2, rfl⟩
    | some amount => exact ⟨_, 0, rfl⟩
  · cases m.codec.u256Data log.data with
    | none => exact ⟨s, -2, rfl⟩
    | some amount => exact ⟨_, 0, rfl⟩
  · cases m.codec.u256Data log.data with
    | none => exact ⟨s, -2, rfl⟩
    | some newRate =>
      dsimp only
      split_ifs
      · exact ⟨s, -2, rfl⟩
      · exact ⟨_, 0, rfl⟩

theorem processEvent_code {e : MarketEvent} (he : log.event = some e)
    (h : s.processEvent m log now (some e) = some (s', res)) : res ∈ codes := by
  unfold codes
  cases e with
  | jobOpened =>
    obtain rfl | ⟨rfl, -⟩ | ⟨rfl, -⟩ := processOpened_cases (Log.topic_of_event he) h <;> decide
  | jobSettled => obtain ⟨rfl | rfl, -⟩ := processAccount_cases (.inl h) <;> decide
  | jobClosed =>
    obtain ⟨rfl, -⟩ := processClosed_cases h
    decide
  | jobDeposited => obtain ⟨rfl | rfl, -⟩ := processAccount_cases (.inr (.inl h)) <;> decide
  | jobWithdrew => obtain ⟨rfl | rfl, -⟩ := processAccount_cases (.inr (.inr h)) <;> decide
  | jobReviseRateInitiated =>
    obtain ⟨rfl, -⟩ | ⟨rfl, -⟩ := processReviseRateInitiated_cases h <;> decide
  | jobReviseRateCancelled =>
    cases h
    decide
  | jobReviseRateFinalized =>
    obtain ⟨rfl, -⟩ | ⟨rfl, -⟩ := processReviseRateFinalized_cases h <;> decide
  | metadataUpdated => obtain ⟨rfl, -⟩ | ⟨rfl, -⟩ := processMetadataUpdated_cases h <;> decide

theorem returns_iff {e : MarketEvent} (he : log.event = some e) :
    s.Returns m log now ↔ ∃ s' res, s.processEvent m log now (some e) = some (s', res) := by
  unfold Returns
  rw [processLog_of_event he]
  constructor
  · rintro ⟨s', res, h, -⟩
    exact ⟨s', res, h⟩
  · rintro ⟨s', res, h⟩
    exact ⟨s', res, h, processEvent_code he h⟩

/-- On a delivered log `process_log` returns one of its codes exactly when a launch that the log
asks for is possible. -/
theorem processLog_returns_iff {contract : EthAddress} {job : B256}
    (hlog : Delivered contract job log) (hnow : now < 2 ^ 63 * 10 ^ 9) :
    s.Returns m log now ↔ s.LaunchPossible m log now := by
  obtain ⟨e, he⟩ := hlog.event
  have hlength := hlog.indexed e he
  unfold LaunchPossible LogLaunches
  rw [returns_iff he, he]
  -- only an opening and an update can ask for a launch
  cases e with
  | jobOpened =>
    rw [imp_iff_right rfl]
    exact processOpened_isSome hnow hlength
  | metadataUpdated =>
    rw [and_iff_left nofun]
    exact processMetadataUpdated_isSome hnow
  | jobClosed =>
    obtain ⟨s', hs'⟩ := scheduleTermination_isSome (s := s) hnow
    exact iff_of_true ⟨s', 0, Option.map_eq_some_iff.2 ⟨s', hs', rfl⟩⟩ False.elim
  | jobSettled => exact iff_of_true processAmounts_isSome.1 False.elim
  | jobDeposited => exact iff_of_true processAmounts_isSome.2.1 False.elim
  | jobWithdrew => exact iff_of_true processAmounts_isSome.2.2.1 False.elim
  | jobReviseRateInitiated =>
    exact iff_of_true (processReviseRateInitiated_isSome hnow) False.elim
  | jobReviseRateCancelled => exact iff_of_true ⟨_, 0, rfl⟩ False.elim
  | jobReviseRateFinalized => exact iff_of_true processAmounts_isSome.2.2.2 False.elim

end Panics

end JobState

namespace Sample

theorem openLog_delivered : Delivered 0xdead 1 openLog where
  accepts := by decide
  indexed := by
    intro e he
    cases openLog_event.symm.trans he
    rfl

theorem open_returns : Delivered 0xdead 1 openLog ∧ state.Returns (market []) openLog 0 := by
  refine ⟨openLog_delivered,
    (JobState.processLog_returns_iff openLog_delivered (by decide)).2 ?_⟩
  intro _
  refine ⟨by unfold JobState.LaunchFits; decide, ?_⟩
  intro _ s₁ hopened
  have hregion : s₁.region = openedRead.region := by
    rw [Option.some.inj (hopened.symm.trans (openedState_open codec_openedData codec_parseJson))]
  rw [hregion]
  decide

def freeBandwidth : Market := { market [] with gbRates := [⟨"ap-south-1", 0⟩] }

theorem checkOpened_freeBandwidth : openedRead.checkOpened freeBandwidth openLog 0 = none := by
  decide

/-- The opening of the sample job panics where bandwidth costs nothing. -/
theorem freeBandwidth_panics :
    Delivered 0xdead 1 openLog ∧ state.processLog freeBandwidth (some openLog) 0 = none ∧
      ¬state.Returns freeBandwidth openLog 0 := by
  have hdata : freeBandwidth.codec.openedData openedData =
      some (metadata url "c6a.xlarge", 31000000000000, 31000, 0) := codec_openedData
  have hv : freeBandwidth.codec.parseJson (metadata url "c6a.xlarge") =
      some (json url "c6a.xlarge") := codec_parseJson
  have hopened : state.openedState freeBandwidth openLog = some openedRead :=
    openedState_open hdata hv
  have hpanic : state.processLog freeBandwidth (some openLog) 0 = none := by
    rw [JobState.processLog_of_event openLog_event, JobState.processEvent,
      JobState.processOpened_read hopened, checkOpened_freeBandwidth]
  refine ⟨openLog_delivered, hpanic, ?_⟩
  rintro ⟨s', res, h, -⟩
  rw [hpanic] at h
  cases h

end Sample

end Oyster.ControlPlane
