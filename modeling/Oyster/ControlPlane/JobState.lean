import Oyster.ControlPlane.Types

/-!
`JobState` and `process_log` of `market.rs`, with one definition for each event. A handler
returns the state it leaves and the code of `process_log`; `none` is a panic.
-/

namespace Oyster.ControlPlane

structure JobState where
  jobId : JobId
  launchDelay : ℕ
  allowedRegions : List String
  balance : U256
  lastSettled : Duration
  rate : U256
  originalRate : U256
  instanceId : String
  family : String
  minRate : U256
  bandwidth : ℕ
  eifUrl : String
  instanceType : String
  region : String
  reqVcpus : ℤ
  reqMem : ℤ
  debug : Bool
  /-- Whether the instance should exist or not. -/
  infraState : Bool
  infraChangeTime : Instant
  infraChangeScheduled : Bool
  /-- Whether to just update the eif. -/
  eifUpdate : Bool
deriving DecidableEq

namespace JobState

def new (nowTimestamp : Duration) (now : Instant) (jobId : JobId) (launchDelay : ℕ)
    (allowedRegions : List String) : JobState where
  jobId := jobId
  launchDelay := launchDelay
  allowedRegions := allowedRegions
  balance := 360
  lastSettled := nowTimestamp
  rate := 1
  originalRate := 1
  instanceId := ""
  family := "salmon"
  minRate := BitVec.allOnes 256
  bandwidth := 0
  eifUrl := ""
  instanceType := "c6a.xlarge"
  region := "ap-south-1"
  reqVcpus := 2
  reqMem := 4096
  debug := false
  infraState := false
  infraChangeTime := now
  infraChangeScheduled := false
  eifUpdate := false

/-- Solvent for `balance / rate` seconds from `last_settled`, with 300s as margin. -/
def insolvencyDuration (s : JobState) (nowTs : Duration) : Duration :=
  if s.rate = 0 then 0
  else fromSecs ((U256.saturatingToU64 (s.balance * 10 ^ 12 / s.rate)) - 300) -
    (nowTs - s.lastSettled)

def scheduleLaunch (s : JobState) (now : Instant) (delay : ℕ) : Option JobState :=
  (now.checkedAdd (fromSecs delay)).map fun t =>
    { s with infraChangeScheduled := true, infraChangeTime := t, infraState := true }

def scheduleTermination (s : JobState) (now : Instant) (delay : ℕ) : Option JobState :=
  (now.checkedAdd (fromSecs delay)).map fun t =>
    { s with infraChangeScheduled := true, infraChangeTime := t, infraState := false }

def handleInsolvency (s : JobState) (now : Instant) : Option JobState :=
  s.scheduleTermination now 0

/-- The fields read from the metadata of `JobOpened`, in order. An error keeps the fields that
were set before it. -/
def readOpened (s : JobState) (v : Json) : Except JobState JobState :=
  match (v.index "instance").asStr with
  | none => .error s
  | some t =>
    let s := { s with instanceType := t }
    match (v.index "region").asStr with
    | none => .error s
    | some t =>
      let s := { s with region := t }
      if !s.allowedRegions.contains s.region then .error s else
      match (v.index "memory").asI64 with
      | none => .error s
      | some t =>
        let s := { s with reqMem := t }
        match (v.index "vcpu").asI64 with
        | none => .error s
        | some t =>
          -- an update falls back to 2 instead
          let s := { s with reqVcpus := (tryIntoI32 t).getD i32Max }
          match (v.index "url").asStr with
          | none => .error s
          | some url => .ok { s with
              eifUrl := url
              family := (v.index "family").asStr.getD s.family
              debug := (v.index "debug").asBool.getD s.debug }

/-- The bandwidth that the rate above `min_rate` pays for. A zero `gb_cost` panics. -/
def setBandwidth (s : JobState) (gbRates : List GBRateCard) : Option JobState :=
  match gbRates.find? fun entry => entry.regionCode = s.region with
  | none => some s
  | some entry =>
    let bandwidthRate := s.rate - s.minRate
    if entry.rate = 0 then none
    else some { s with
      bandwidth := U256.saturatingToU64
        (U256.saturatingMul bandwidthRate (BitVec.ofNat 256 (1024 * 1024 * 8)) / entry.rate) }

/-- Launch only if rate is more than min. -/
def launchIfPaid (s : JobState) (m : Market) (now : Instant) : Option (JobState × ℤ) :=
  if s.minRate ≤ s.rate then do
    let s ← s.setBandwidth m.gbRates
    let s ← s.scheduleLaunch now s.launchDelay
    return (s, 0)
  else do
    let s ← s.scheduleTermination now 0
    return (s, 0)

/-- The checks on the owner and the rate card of an opened job. -/
def checkOpened (s : JobState) (m : Market) (log : Log) (now : Instant) :
    Option (JobState × ℤ) :=
  match whitelistBlacklistCheck log m.addressWhitelist m.addressBlacklist with
  | none => none
  | some false => (s.scheduleTermination now 0).map fun s => (s, -3)
  | some true =>
    match findRateCard m.rates s.region s.instanceType with
    | none => some (s, -2)
    | some card => { s with minRate := card.minRate }.launchIfPaid m now

def processOpened (s : JobState) (m : Market) (log : Log) (now : Instant) :
    Option (JobState × ℤ) :=
  match m.codec.openedData log.data with
  | none => some (s, -2)
  | some (metadata, rate, balance, timestamp) =>
    let s := { s with
      balance := balance
      rate := rate
      originalRate := rate
      lastSettled := fromSecs (U256.saturatingToU64 timestamp) }
    match m.codec.parseJson metadata with
    | none => some (s, -2)
    | some v =>
      match s.readOpened v with
      | .error s => some (s, -2)
      | .ok s => s.checkOpened m log now

/-- The state once the data and the metadata of `JobOpened` are read, if both can be. -/
def openedState (s : JobState) (m : Market) (log : Log) : Option JobState :=
  (m.codec.openedData log.data).bind fun (metadata, rate, balance, timestamp) =>
    (m.codec.parseJson metadata).bind fun v =>
      ({ s with
        balance := balance
        rate := rate
        originalRate := rate
        lastSettled := fromSecs (U256.saturatingToU64 timestamp) }.readOpened v).toOption

def processSettled (s : JobState) (m : Market) (log : Log) : Option (JobState × ℤ) :=
  match m.codec.settledData log.data with
  | none => some (s, -2)
  | some (amount, timestamp) => some ({ s with
      balance := s.balance - amount
      lastSettled := fromSecs (U256.saturatingToU64 timestamp) }, 0)

def processClosed (s : JobState) (now : Instant) : Option (JobState × ℤ) :=
  (s.scheduleTermination now 0).map fun s => (s, 0)

def processDeposited (s : JobState) (m : Market) (log : Log) : Option (JobState × ℤ) :=
  match m.codec.u256Data log.data with
  | none => some (s, -2)
  | some amount => some ({ s with balance := s.balance + amount }, 0)

def processWithdrew (s : JobState) (m : Market) (log : Log) : Option (JobState × ℤ) :=
  match m.codec.u256Data log.data with
  | none => some (s, -2)
  | some amount => some ({ s with balance := s.balance - amount }, 0)

def processReviseRateInitiated (s : JobState) (m : Market) (log : Log) (now : Instant) :
    Option (JobState × ℤ) :=
  match m.codec.u256Data log.data with
  | none => some (s, -2)
  | some newRate =>
    let s := { s with originalRate := s.rate, rate := newRate }
    if s.rate < s.minRate then (s.scheduleTermination now 0).map fun s => (s, 0)
    else some (s, 0)

def processReviseRateCancelled (s : JobState) : Option (JobState × ℤ) :=
  some ({ s with rate := s.originalRate }, 0)

def processReviseRateFinalized (s : JobState) (m : Market) (log : Log) : Option (JobState × ℤ) :=
  match m.codec.u256Data log.data with
  | none => some (s, -2)
  | some newRate =>
    if s.rate ≠ newRate then some (s, -2)
    else some ({ s with originalRate := newRate }, 0)

/-- The checks on updated metadata: the new url if every one passes. -/
def checkUpdate (s : JobState) (v : Json) : Option String := do
  let t ← (v.index "instance").asStr
  guard (s.instanceType = t)
  let t ← (v.index "region").asStr
  guard (s.region = t)
  let t ← (v.index "memory").asI64
  guard (s.reqMem = t)
  let t ← (v.index "vcpu").asI64
  guard (s.reqVcpus = (tryIntoI32 t).getD 2)
  -- the family is compared only where it is given
  guard ((v.index "family").asStr.all fun family => s.family = family)
  guard (s.debug = (v.index "debug").asBool.getD false)
  let url ← (v.index "url").asStr
  guard (s.eifUrl ≠ url)
  return url

/-- The url of an update that passes every check. -/
def updateUrl (s : JobState) (m : Market) (log : Log) : Option String :=
  ((m.codec.stringData log.data).bind m.codec.parseJson).bind s.checkUpdate

def processMetadataUpdated (s : JobState) (m : Market) (log : Log) (now : Instant) :
    Option (JobState × ℤ) :=
  match m.codec.stringData log.data with
  | none => some (s, -2)
  | some metadata =>
    match (m.codec.parseJson metadata).bind s.checkUpdate with
    -- an update that fails a check ends the job
    | none => (s.scheduleTermination now 0).map fun s => (s, -2)
    | some url =>
      ({ s with eifUrl := url, eifUpdate := true }.scheduleLaunch now s.launchDelay).map
        fun s => (s, 0)

/-- The branch of `process_log` for an event; `none` is an unknown one. -/
def processEvent (s : JobState) (m : Market) (log : Log) (now : Instant) :
    Option MarketEvent → Option (JobState × ℤ)
  | some .jobOpened => s.processOpened m log now
  | some .jobSettled => s.processSettled m log
  | some .jobClosed => s.processClosed now
  | some .jobDeposited => s.processDeposited m log
  | some .jobWithdrew => s.processWithdrew m log
  | some .jobReviseRateInitiated => s.processReviseRateInitiated m log now
  | some .jobReviseRateCancelled => s.processReviseRateCancelled
  | some .jobReviseRateFinalized => s.processReviseRateFinalized m log
  | some .metadataUpdated => s.processMetadataUpdated m log now
  | none => some (s, -2)

/-- Returns 0 on success, -1 on recoverable errors (can retry), -2 on unrecoverable errors (no
point retrying), -3 when the blacklist/whitelist check fails. -/
def processLog (s : JobState) (m : Market) (log : Option Log) (now : Instant) :
    Option (JobState × ℤ) :=
  match log with
  | none => some (s, -1)
  | some log => log.topics.head?.bind fun topic => s.processEvent m log now (marketEvent topic)

section Cases

variable {s s' : JobState} {m : Market} {log : Log} {now : Instant} {res : ℤ}

theorem processLog_event (h : s.processLog m (some log) now = some (s', res)) :
    s.processEvent m log now log.event = some (s', res) := by
  obtain ⟨topic, htopic, h⟩ := Option.bind_eq_some_iff.1 h
  rwa [Log.event, htopic]

theorem processLog_of_event {e : MarketEvent} (h : log.event = some e) :
    s.processLog m (some log) now = s.processEvent m log now (some e) := by
  have htopic := Log.topic_of_event h
  dsimp only [processLog]
  rw [htopic, Option.bind_some, marketEvent_topic]

theorem scheduleLaunch_eq {delay : ℕ} (h : s.scheduleLaunch now delay = some s') :
    ∃ t, s' = { s with
      infraChangeScheduled := true
      infraChangeTime := t
      infraState := true } := by
  obtain ⟨t, -, rfl⟩ := Option.map_eq_some_iff.1 h
  exact ⟨t, rfl⟩

theorem scheduleTermination_eq {delay : ℕ} (h : s.scheduleTermination now delay = some s') :
    ∃ t, s' = { s with
      infraChangeScheduled := true
      infraChangeTime := t
      infraState := false } := by
  obtain ⟨t, -, rfl⟩ := Option.map_eq_some_iff.1 h
  exact ⟨t, rfl⟩

theorem readOpened_ok {v : Json} (h : s.readOpened v = .ok s') :
    (v.index "instance").asStr = some s'.instanceType ∧
      (v.index "region").asStr = some s'.region ∧ s'.region ∈ s'.allowedRegions := by
  unfold readOpened at h
  split at h
  · cases h
  next t ht =>
    dsimp only at h
    split at h
    · cases h
    next r hr =>
      split_ifs at h with hin
      split at h
      · cases h
      split at h
      · cases h
      split at h
      · cases h
      cases h
      exact ⟨ht, hr, by simpa using hin⟩

theorem setBandwidth_eq {gbRates : List GBRateCard} (h : s.setBandwidth gbRates = some s') :
    ∃ b, s' = { s with bandwidth := b } := by
  unfold setBandwidth at h
  split at h
  · exact ⟨s.bandwidth, (Option.some.inj h).symm⟩
  next entry _ =>
    dsimp only at h
    split_ifs at h
    exact ⟨_, (Option.some.inj h).symm⟩

theorem launchIfPaid_cases (h : s.launchIfPaid m now = some (s', res)) :
    res = 0 ∧ ∃ b t, s' = { s with
      bandwidth := b
      infraChangeScheduled := true
      infraChangeTime := t
      infraState := decide (s.minRate ≤ s.rate) } := by
  unfold launchIfPaid at h
  split_ifs at h with hpaid
  · simp only [Option.bind_eq_bind, Option.bind_eq_some_iff] at h
    obtain ⟨s₁, h₁, s₂, h₂, h⟩ := h
    cases h
    obtain ⟨b, rfl⟩ := setBandwidth_eq h₁
    obtain ⟨t, rfl⟩ := scheduleLaunch_eq h₂
    exact ⟨rfl, b, t, by simp [hpaid]⟩
  · simp only [Option.bind_eq_bind, Option.bind_eq_some_iff] at h
    obtain ⟨s₁, h₁, h⟩ := h
    cases h
    obtain ⟨t, rfl⟩ := scheduleTermination_eq h₁
    exact ⟨rfl, s.bandwidth, t, by simp [hpaid]⟩

/-- The state is the one that the opening log asked for: its owner is allowed, its region is
served, and `min_rate` is that of the card of its instance type. -/
structure OpenedBy (m : Market) (log : Log) (s : JobState) : Prop where
  topic : log.topics.head? = some MarketEvent.jobOpened.topic
  allowed : whitelistBlacklistCheck log m.addressWhitelist m.addressBlacklist = some true
  metadata : ∃ metadata rate balance timestamp v,
    m.codec.openedData log.data = some (metadata, rate, balance, timestamp) ∧
    m.codec.parseJson metadata = some v ∧ (v.index "instance").asStr = some s.instanceType ∧
    (v.index "region").asStr = some s.region
  region : s.region ∈ s.allowedRegions
  card : ∃ card, findRateCard m.rates s.region s.instanceType = some card ∧
    card.minRate = s.minRate

theorem ok_of_toOption {ε α : Type} {x : Except ε α} {a : α} (h : x.toOption = some a) :
    x = .ok a := by
  cases x with
  | error e => cases h
  | ok b => rw [Option.some.inj h]

theorem readOpened_eq (s : JobState) (v : Json) :
    match s.readOpened v with
    | .ok s' | .error s' => s' = { s with
        instanceType := s'.instanceType
        region := s'.region
        reqMem := s'.reqMem
        reqVcpus := s'.reqVcpus
        eifUrl := s'.eifUrl
        family := s'.family
        debug := s'.debug } := by
  unfold readOpened
  cases (v.index "instance").asStr with
  | none => rfl
  | some t =>
    cases (v.index "region").asStr with
    | none => rfl
    | some r =>
      dsimp only
      by_cases hin : (!s.allowedRegions.contains r) = true
      · rw [if_pos hin]
      · rw [if_neg hin]
        cases (v.index "memory").asI64 with
        | none => rfl
        | some mem =>
          cases (v.index "vcpu").asI64 with
          | none => rfl
          | some vcpu => cases (v.index "url").asStr <;> rfl

theorem readOpened_infraState (s : JobState) (v : Json) :
    match s.readOpened v with
    | .ok s' | .error s' => s'.infraState = s.infraState := by
  have hread := readOpened_eq s v
  cases hs : s.readOpened v with
  | ok s' =>
    simp only [hs] at hread
    rw [hread]
  | error s' =>
    simp only [hs] at hread
    rw [hread]

theorem processOpened_read {s₁ : JobState} (h : s.openedState m log = some s₁) :
    s.processOpened m log now = s₁.checkOpened m log now := by
  obtain ⟨⟨metadata, rate, balance, timestamp⟩, hdata, h⟩ := Option.bind_eq_some_iff.1 h
  obtain ⟨v, hv, h⟩ := Option.bind_eq_some_iff.1 h
  unfold processOpened
  simp only [hdata, hv, ok_of_toOption h]

theorem processOpened_unread (h : s.openedState m log = none) :
    ∃ s', s.processOpened m log now = some (s', -2) ∧ s'.infraState = s.infraState := by
  unfold openedState at h
  unfold processOpened
  match hdata : m.codec.openedData log.data with
  | none => exact ⟨s, rfl, rfl⟩
  | some (metadata, rate, balance, timestamp) =>
    simp only [hdata, Option.bind_some] at h ⊢
    match hv : m.codec.parseJson metadata with
    | none => exact ⟨_, rfl, rfl⟩
    | some v =>
      have hstate := readOpened_infraState { s with
        balance := balance
        rate := rate
        originalRate := rate
        lastSettled := fromSecs (U256.saturatingToU64 timestamp) } v
      simp only [hv, Option.bind_some] at h ⊢
      split at hstate
      next hread => simp [hread, Except.toOption] at h
      next s' hread => exact ⟨s', by rw [hread], hstate⟩

theorem checkOpened_cases (h : s.checkOpened m log now = some (s', res)) :
    whitelistBlacklistCheck log m.addressWhitelist m.addressBlacklist = some false ∧
        res = -3 ∧ s.scheduleTermination now 0 = some s' ∨
      whitelistBlacklistCheck log m.addressWhitelist m.addressBlacklist = some true ∧
        (findRateCard m.rates s.region s.instanceType = none ∧ res = -2 ∧ s' = s ∨
          ∃ card, findRateCard m.rates s.region s.instanceType = some card ∧
            { s with minRate := card.minRate }.launchIfPaid m now = some (s', res)) := by
  unfold checkOpened at h
  split at h
  · cases h
  next hallowed =>
    obtain ⟨s₁, hs₁, heq⟩ := Option.map_eq_some_iff.1 h
    cases heq
    exact .inl ⟨hallowed, rfl, hs₁⟩
  next hallowed =>
    split at h
    next hcard =>
      cases h
      exact .inr ⟨hallowed, .inl ⟨hcard, rfl, rfl⟩⟩
    next card hcard => exact .inr ⟨hallowed, .inr ⟨card, hcard, h⟩⟩

theorem checkOpened_eq (h : s.checkOpened m log now = some (s', res)) :
    ∃ minRate bandwidth scheduled t wanted, s' = { s with
      minRate := minRate
      bandwidth := bandwidth
      infraChangeScheduled := scheduled
      infraChangeTime := t
      infraState := wanted } := by
  obtain ⟨-, -, hterm⟩ | ⟨-, ⟨-, -, rfl⟩ | ⟨card, -, hlaunch⟩⟩ := checkOpened_cases h
  · obtain ⟨t, rfl⟩ := scheduleTermination_eq hterm
    exact ⟨_, _, _, _, _, rfl⟩
  · exact ⟨_, _, _, _, _, rfl⟩
  · obtain ⟨-, b, t, rfl⟩ := launchIfPaid_cases hlaunch
    exact ⟨_, _, _, _, _, rfl⟩

theorem processOpened_accepted (h : s.processOpened m log now = some (s', res)) (hres : res ≠ -2) :
    ∃ s₁, s.openedState m log = some s₁ ∧ s₁.checkOpened m log now = some (s', res) := by
  match hopened : s.openedState m log with
  | none =>
    obtain ⟨u, hu, -⟩ := processOpened_unread hopened
    rw [hu] at h
    cases h
    exact absurd rfl hres
  | some s₁ =>
    rw [processOpened_read hopened] at h
    exact ⟨s₁, rfl, h⟩

theorem openedState_eq (h : s.openedState m log = some s') :
    ∃ metadata rate balance timestamp v,
      m.codec.openedData log.data = some (metadata, rate, balance, timestamp) ∧
      m.codec.parseJson metadata = some v ∧ (v.index "instance").asStr = some s'.instanceType ∧
      (v.index "region").asStr = some s'.region ∧ s'.region ∈ s'.allowedRegions := by
  obtain ⟨⟨metadata, rate, balance, timestamp⟩, hdata, h⟩ := Option.bind_eq_some_iff.1 h
  obtain ⟨v, hv, h⟩ := Option.bind_eq_some_iff.1 h
  exact ⟨metadata, rate, balance, timestamp, v, hdata, hv, readOpened_ok (ok_of_toOption h)⟩

theorem openedState_infraState (h : s.openedState m log = some s') :
    s'.infraState = s.infraState := by
  obtain ⟨⟨metadata, rate, balance, timestamp⟩, -, h⟩ := Option.bind_eq_some_iff.1 h
  obtain ⟨v, -, h⟩ := Option.bind_eq_some_iff.1 h
  have hstate := readOpened_infraState { s with
    balance := balance
    rate := rate
    originalRate := rate
    lastSettled := fromSecs (U256.saturatingToU64 timestamp) } v
  rwa [ok_of_toOption h] at hstate

theorem processOpened_cases (htopic : log.topics.head? = some MarketEvent.jobOpened.topic)
    (h : s.processOpened m log now = some (s', res)) :
    res = -2 ∨ res = -3 ∧ s'.infraState = false ∨
      res = 0 ∧ OpenedBy m log s' ∧ s'.infraState = decide (s'.minRate ≤ s'.rate) := by
  by_cases hres : res = -2
  · exact .inl hres
  · obtain ⟨s₁, hopened, h⟩ := processOpened_accepted h hres
    obtain ⟨-, rfl, hterm⟩ | ⟨hallowed, ⟨-, rfl, -⟩ | ⟨card, hcard, hlaunch⟩⟩ :=
      checkOpened_cases h
    · obtain ⟨t, rfl⟩ := scheduleTermination_eq hterm
      exact .inr (.inl ⟨rfl, rfl⟩)
    · exact .inl rfl
    · obtain ⟨metadata, rate, balance, timestamp, v, hdata, hv, hinst, hregion, hin⟩ :=
        openedState_eq hopened
      obtain ⟨rfl, b, t, rfl⟩ := launchIfPaid_cases hlaunch
      exact .inr (.inr ⟨rfl, ⟨htopic, hallowed,
        ⟨metadata, rate, balance, timestamp, v, hdata, hv, hinst, hregion⟩, hin,
        ⟨card, hcard, rfl⟩⟩, rfl⟩)

theorem processReviseRateInitiated_cases
    (h : s.processReviseRateInitiated m log now = some (s', res)) :
    res = -2 ∧ m.codec.u256Data log.data = none ∧ s' = s ∨
      res = 0 ∧ ∃ newRate, m.codec.u256Data log.data = some newRate ∧
        (newRate < s.minRate ∧ (∃ t, s' = { s with
            originalRate := s.rate
            rate := newRate
            infraChangeScheduled := true
            infraChangeTime := t
            infraState := false }) ∨
          s.minRate ≤ newRate ∧ s' = { s with originalRate := s.rate, rate := newRate }) := by
  unfold processReviseRateInitiated at h
  split at h
  next hdata => cases h; exact .inl ⟨rfl, hdata, rfl⟩
  next newRate hdata =>
    dsimp only at h
    split_ifs at h with hlow
    · obtain ⟨s₁, hs₁, hres⟩ := Option.map_eq_some_iff.1 h
      cases hres
      obtain ⟨t, rfl⟩ := scheduleTermination_eq hs₁
      exact .inr ⟨rfl, newRate, hdata, .inl ⟨hlow, t, rfl⟩⟩
    · cases h
      exact .inr ⟨rfl, newRate, hdata, .inr ⟨BitVec.not_lt.1 hlow, rfl⟩⟩

theorem processReviseRateFinalized_cases (h : s.processReviseRateFinalized m log = some (s', res)) :
    res = -2 ∧ s' = s ∨ res = 0 ∧ s' = { s with originalRate := s.rate } := by
  unfold processReviseRateFinalized at h
  split at h
  · cases h; exact .inl ⟨rfl, rfl⟩
  · split_ifs at h with hne
    · cases h; exact .inl ⟨rfl, rfl⟩
    · cases h
      exact .inr ⟨rfl, by rw [not_not.1 hne]⟩

theorem processMetadataUpdated_read {metadata : String} {v : Json}
    (hdata : m.codec.stringData log.data = some metadata)
    (hv : m.codec.parseJson metadata = some v) :
    s.processMetadataUpdated m log now =
      match s.checkUpdate v with
      | none => (s.scheduleTermination now 0).map fun s => (s, -2)
      | some url =>
        ({ s with eifUrl := url, eifUpdate := true }.scheduleLaunch now s.launchDelay).map
          fun s => (s, 0) := by
  unfold processMetadataUpdated
  rw [hdata]
  dsimp only
  rw [hv, Option.bind_some]

theorem processMetadataUpdated_cases (h : s.processMetadataUpdated m log now = some (s', res)) :
    res = -2 ∧ s.updateUrl m log = none ∧ (m.codec.stringData log.data = none ∧ s' = s ∨
        ∃ t, s' = { s with
          infraChangeScheduled := true
          infraChangeTime := t
          infraState := false }) ∨
      res = 0 ∧ ∃ url t, s.updateUrl m log = some url ∧ s' = { s with
        eifUrl := url
        eifUpdate := true
        infraChangeScheduled := true
        infraChangeTime := t
        infraState := true } := by
  unfold processMetadataUpdated at h
  split at h
  next hdata =>
    cases h
    exact .inl ⟨rfl, by rw [updateUrl, hdata]; rfl, .inl ⟨hdata, rfl⟩⟩
  next metadata hdata =>
    have hurl : s.updateUrl m log = (m.codec.parseJson metadata).bind s.checkUpdate := by
      rw [updateUrl, hdata]; rfl
    split at h
    next hnone =>
      obtain ⟨s₁, hs₁, hres⟩ := Option.map_eq_some_iff.1 h
      cases hres
      exact .inl ⟨rfl, hurl.trans hnone, .inr (scheduleTermination_eq hs₁)⟩
    next url hsome =>
      obtain ⟨s₁, hs₁, hres⟩ := Option.map_eq_some_iff.1 h
      cases hres
      obtain ⟨t, rfl⟩ := scheduleLaunch_eq hs₁
      exact .inr ⟨rfl, url, t, hurl.trans hsome, rfl⟩

theorem processAccount_cases (h : s.processSettled m log = some (s', res) ∨
      s.processDeposited m log = some (s', res) ∨ s.processWithdrew m log = some (s', res)) :
    (res = -2 ∨ res = 0) ∧
      s' = { s with balance := s'.balance, lastSettled := s'.lastSettled } := by
  rcases h with h | h | h
  · unfold processSettled at h
    split at h <;> cases h <;> simp
  · unfold processDeposited at h
    split at h <;> cases h <;> simp
  · unfold processWithdrew at h
    split at h <;> cases h <;> simp

theorem processClosed_cases (h : s.processClosed now = some (s', res)) :
    res = 0 ∧ ∃ t, s' = { s with
      infraChangeScheduled := true
      infraChangeTime := t
      infraState := false } := by
  obtain ⟨s₁, hs₁, hres⟩ := Option.map_eq_some_iff.1 h
  cases hres
  exact ⟨rfl, scheduleTermination_eq hs₁⟩

theorem processOpened_keeps (h : s.processOpened m log now = some (s', res)) :
    s'.jobId = s.jobId ∧ s'.instanceId = s.instanceId := by
  unfold processOpened at h
  cases hdata : m.codec.openedData log.data with
  | none =>
    simp only [hdata] at h
    cases h
    exact ⟨rfl, rfl⟩
  | some data =>
    obtain ⟨metadata, rate, balance, timestamp⟩ := data
    simp only [hdata] at h
    cases hv : m.codec.parseJson metadata with
    | none =>
      simp only [hv] at h
      cases h
      exact ⟨rfl, rfl⟩
    | some v =>
      simp only [hv] at h
      have hread := readOpened_eq { s with
        balance := balance
        rate := rate
        originalRate := rate
        lastSettled := fromSecs (U256.saturatingToU64 timestamp) } v
      split at h
      next s₁ hs₁ =>
        cases h
        rw [hs₁] at hread
        rw [hread]
        exact ⟨rfl, rfl⟩
      next s₁ hs₁ =>
        obtain ⟨minRate, bandwidth, scheduled, t, wanted, rfl⟩ := checkOpened_eq h
        rw [hs₁] at hread
        rw [hread]
        exact ⟨rfl, rfl⟩

theorem processLog_keeps {log : Option Log} (h : s.processLog m log now = some (s', res)) :
    s'.jobId = s.jobId ∧ s'.instanceId = s.instanceId := by
  cases log with
  | none =>
    cases h
    exact ⟨rfl, rfl⟩
  | some log =>
    replace h := processLog_event h
    cases hevent : log.event with
    | none =>
      rw [hevent] at h
      cases h
      exact ⟨rfl, rfl⟩
    | some event =>
      rw [hevent] at h
      cases event with
      | jobOpened => exact processOpened_keeps h
      | jobSettled =>
        rw [(processAccount_cases (.inl h)).2]
        exact ⟨rfl, rfl⟩
      | jobClosed =>
        obtain ⟨-, t, rfl⟩ := processClosed_cases h
        exact ⟨rfl, rfl⟩
      | jobDeposited =>
        rw [(processAccount_cases (.inr (.inl h))).2]
        exact ⟨rfl, rfl⟩
      | jobWithdrew =>
        rw [(processAccount_cases (.inr (.inr h))).2]
        exact ⟨rfl, rfl⟩
      | jobReviseRateInitiated =>
        obtain ⟨-, -, rfl⟩ | ⟨-, newRate, -, ⟨-, t, rfl⟩ | ⟨-, rfl⟩⟩ :=
          processReviseRateInitiated_cases h
        all_goals exact ⟨rfl, rfl⟩
      | jobReviseRateCancelled =>
        cases h
        exact ⟨rfl, rfl⟩
      | jobReviseRateFinalized =>
        obtain ⟨-, rfl⟩ | ⟨-, rfl⟩ := processReviseRateFinalized_cases h
        all_goals exact ⟨rfl, rfl⟩
      | metadataUpdated =>
        obtain ⟨-, -, ⟨-, rfl⟩ | ⟨t, rfl⟩⟩ | ⟨-, url, t, -, rfl⟩ :=
          processMetadataUpdated_cases h
        all_goals exact ⟨rfl, rfl⟩

end Cases

end JobState

namespace Sample

def abiWord (n : ℕ) : Bytes := (List.range 32).map fun i => UInt8.ofNat (n / 256 ^ (31 - i))

def abiString (s : String) : Bytes :=
  abiWord s.length ++ (s.toList.map fun c => UInt8.ofNat c.toNat) ++
    List.replicate ((32 - s.length % 32) % 32) 0

def metadata (url instance_ : String) : String :=
  "\x7b\"region\":\"ap-south-1\",\"url\":\"" ++ url ++ "\",\"instance\":\"" ++ instance_ ++
    "\",\"memory\":4096,\"vcpu\":2\x7d"

def json (url instance_ : String) : Json :=
  .obj [("region", .str "ap-south-1"), ("url", .str url), ("instance", .str instance_),
    ("memory", .int 4096), ("vcpu", .int 2)]

def url : String := "https://example.com/enclave.eif"
def updatedUrl : String := "https://example.com/updated-enclave.eif"

def openedData : Bytes :=
  abiWord 128 ++ abiWord 31000000000000 ++ abiWord 31000 ++ abiWord 0 ++
    abiString (metadata url "c6a.xlarge")

def updateData (instance_ : String) : Bytes :=
  abiWord 32 ++ abiString (metadata updatedUrl instance_)

def codec : Codec where
  openedData d :=
    if d = openedData then some (metadata url "c6a.xlarge", 31000000000000, 31000, 0) else none
  settledData _ := none
  u256Data d := if d = abiWord 29000000000000 then some 29000000000000 else none
  stringData d :=
    if d = updateData "c6a.xlarge" then some (metadata updatedUrl "c6a.xlarge")
    else if d = updateData "c6a.large" then some (metadata updatedUrl "c6a.large")
    else none
  parseJson s :=
    if s = metadata url "c6a.xlarge" then some (json url "c6a.xlarge")
    else if s = metadata updatedUrl "c6a.xlarge" then some (json updatedUrl "c6a.xlarge")
    else if s = metadata updatedUrl "c6a.large" then some (json updatedUrl "c6a.large")
    else none

def market (addressBlacklist : List String) : Market where
  codec := codec
  rates := [⟨"ap-south-1", [⟨"c6a.xlarge", 29997916666666⟩]⟩]
  gbRates := [⟨"ap-south-1", 109300000000000000⟩]
  addressWhitelist := []
  addressBlacklist := addressBlacklist

def jobId : JobId := ⟨"1", "abc", "xyz", "123"⟩
def owner : B256 := 0xabc

def openLog : Log := ⟨[MarketEvent.jobOpened.topic, 1, owner, 0xdef], openedData⟩
def closeLog : Log := ⟨[MarketEvent.jobClosed.topic, 1], []⟩
def lowRateLog : Log := ⟨[MarketEvent.jobReviseRateInitiated.topic, 1], abiWord 29000000000000⟩
def updateLog : Log := ⟨[MarketEvent.metadataUpdated.topic, 1], updateData "c6a.xlarge"⟩
/-- Changes the instance type, which an update may not. -/
def badUpdateLog : Log := ⟨[MarketEvent.metadataUpdated.topic, 1], updateData "c6a.large"⟩

theorem openLog_event : openLog.event = some .jobOpened := marketEvent_topic .jobOpened
theorem closeLog_event : closeLog.event = some .jobClosed := marketEvent_topic .jobClosed
theorem lowRateLog_event : lowRateLog.event = some .jobReviseRateInitiated :=
  marketEvent_topic .jobReviseRateInitiated
theorem updateLog_event : updateLog.event = some .metadataUpdated :=
  marketEvent_topic .metadataUpdated
theorem badUpdateLog_event : badUpdateLog.event = some .metadataUpdated :=
  marketEvent_topic .metadataUpdated

def state : JobState := .new 0 0 jobId 300 ["ap-south-1"]

def opened : JobState := { state with
  balance := 31000
  lastSettled := 0
  rate := 31000000000000
  originalRate := 31000000000000
  minRate := 29997916666666
  bandwidth := 76
  eifUrl := url
  infraState := true
  infraChangeTime := 300 * 10 ^ 9
  infraChangeScheduled := true }

def openedRead : JobState := { state with
  balance := 31000
  rate := 31000000000000
  originalRate := 31000000000000
  eifUrl := url }

theorem checkOpened_open : openedRead.checkOpened (market []) openLog 0 = some (opened, 0) := by
  decide

theorem checkOpened_codec {s : JobState} {m : Market} (c : Codec) {log : Log} {now : Instant} :
    s.checkOpened { m with codec := c } log now = s.checkOpened m log now := rfl

theorem openedState_open {m : Market}
    (hdata : m.codec.openedData openedData =
      some (metadata url "c6a.xlarge", 31000000000000, 31000, 0))
    (hv : m.codec.parseJson (metadata url "c6a.xlarge") = some (json url "c6a.xlarge")) :
    state.openedState m openLog = some openedRead := by
  unfold JobState.openedState openLog
  rw [hdata, Option.bind_some]
  dsimp only
  rw [hv, Option.bind_some]
  rfl

/-- The sample job is opened the same by every decoder that reads its data and its metadata. -/
theorem processLog_opens {c : Codec}
    (hdata : c.openedData openedData =
      some (metadata url "c6a.xlarge", 31000000000000, 31000, 0))
    (hv : c.parseJson (metadata url "c6a.xlarge") = some (json url "c6a.xlarge")) :
    state.processLog { market [] with codec := c } (some openLog) 0 = some (opened, 0) := by
  have hopened : state.openedState { market [] with codec := c } openLog = some openedRead :=
    openedState_open hdata hv
  rw [JobState.processLog_of_event openLog_event, JobState.processEvent,
    JobState.processOpened_read hopened, checkOpened_codec, checkOpened_open]

theorem codec_openedData : codec.openedData openedData =
    some (metadata url "c6a.xlarge", 31000000000000, 31000, 0) := by
  dsimp only [codec]
  rw [if_pos rfl]

theorem codec_parseJson : codec.parseJson (metadata url "c6a.xlarge") =
    some (json url "c6a.xlarge") := by
  dsimp only [codec]
  rw [if_pos rfl]

theorem codec_updateData : codec.stringData (updateData "c6a.xlarge") =
    some (metadata updatedUrl "c6a.xlarge") := by
  dsimp only [codec]
  rw [if_pos rfl]

theorem codec_parseUpdate : codec.parseJson (metadata updatedUrl "c6a.xlarge") =
    some (json updatedUrl "c6a.xlarge") := by
  have hne : metadata updatedUrl "c6a.xlarge" ≠ metadata url "c6a.xlarge" := by decide
  dsimp only [codec]
  rw [if_neg hne, if_pos rfl]

theorem processLog_open : state.processLog (market []) (some openLog) 0 = some (opened, 0) :=
  processLog_opens codec_openedData codec_parseJson

theorem processLog_update {s : JobState} {b : List String} {now : Instant}
    (h : s.checkUpdate (json updatedUrl "c6a.xlarge") = some updatedUrl) :
    s.processLog (market b) (some updateLog) now =
      ({ s with eifUrl := updatedUrl, eifUpdate := true }.scheduleLaunch now s.launchDelay).map
        fun s => (s, 0) := by
  have hdata : (market b).codec.stringData updateLog.data =
      some (metadata updatedUrl "c6a.xlarge") := codec_updateData
  have hv : (market b).codec.parseJson (metadata updatedUrl "c6a.xlarge") =
      some (json updatedUrl "c6a.xlarge") := codec_parseUpdate
  rw [JobState.processLog_of_event updateLog_event, JobState.processEvent,
    JobState.processMetadataUpdated_read hdata hv, h]

theorem processLog_close {s : JobState} {m : Market} {now : Instant} :
    s.processLog m (some closeLog) now = s.processClosed now :=
  JobState.processLog_of_event closeLog_event

def closedAtOnce : JobState := { opened with infraState := false, infraChangeTime := 0 }

theorem processLog_closeAtOnce :
    opened.processLog (market []) (some closeLog) 0 = some (closedAtOnce, 0) := by
  rw [processLog_close]
  rfl

end Sample

end Oyster.ControlPlane
