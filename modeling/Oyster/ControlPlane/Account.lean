import Oyster.ControlPlane.JobState

namespace Oyster.ControlPlane

structure Account where
  balance : U256
  lastSettled : Duration
  rate : U256
  originalRate : U256
deriving DecidableEq

namespace Account

/-- The account after an event that is processed without an error. -/
def next (codec : Codec) (data : Bytes) (a : Account) : MarketEvent → Option Account
  | .jobOpened => (codec.openedData data).map fun (_, rate, balance, timestamp) => {
      balance := balance
      lastSettled := fromSecs (U256.saturatingToU64 timestamp)
      rate := rate
      originalRate := rate }
  | .jobSettled => (codec.settledData data).map fun (amount, timestamp) => { a with
      balance := a.balance - amount
      lastSettled := fromSecs (U256.saturatingToU64 timestamp) }
  | .jobDeposited => (codec.u256Data data).map fun amount =>
      { a with balance := a.balance + amount }
  | .jobWithdrew => (codec.u256Data data).map fun amount =>
      { a with balance := a.balance - amount }
  | .jobReviseRateInitiated => (codec.u256Data data).map fun newRate =>
      { a with originalRate := a.rate, rate := newRate }
  | .jobReviseRateCancelled => some { a with rate := a.originalRate }
  | .jobReviseRateFinalized => (codec.u256Data data).bind fun newRate =>
      if a.rate = newRate then some { a with originalRate := newRate } else none
  | .jobClosed | .metadataUpdated => some a

end Account

namespace JobState

def account (s : JobState) : Account := ⟨s.balance, s.lastSettled, s.rate, s.originalRate⟩

variable {s s' : JobState} {m : Market} {log : Log} {now : Instant}

theorem readOpened_keeps (s : JobState) (v : Json) :
    match s.readOpened v with
    | .ok s' | .error s' => s'.account = s.account := by
  have hread := readOpened_eq s v
  cases hs : s.readOpened v with
  | ok s' =>
    simp only [hs] at hread
    rw [hread]
    rfl
  | error s' =>
    simp only [hs] at hread
    rw [hread]
    rfl

theorem readOpened_account {v : Json} (h : s.readOpened v = .ok s') :
    s'.account = s.account := by
  have hkeeps := readOpened_keeps s v
  rwa [h] at hkeeps

theorem checkOpened_account {res : ℤ} (h : s.checkOpened m log now = some (s', res)) :
    s'.account = s.account := by
  obtain ⟨minRate, bandwidth, scheduled, t, wanted, rfl⟩ := checkOpened_eq h
  rfl

theorem processOpened_read_account {s₁ : JobState} {res : ℤ}
    (hopened : s.openedState m log = some s₁)
    (h : s.processOpened m log now = some (s', res)) :
    s.account.next m.codec log.data .jobOpened = some s'.account := by
  rw [processOpened_read hopened] at h
  obtain ⟨⟨metadata, rate, balance, timestamp⟩, hdata, hopened⟩ := Option.bind_eq_some_iff.1 hopened
  obtain ⟨v, -, hread⟩ := Option.bind_eq_some_iff.1 hopened
  rw [checkOpened_account h, readOpened_account (ok_of_toOption hread), Account.next, hdata]
  rfl

theorem processOpened_accepts {res : ℤ} (h : s.processOpened m log now = some (s', res))
    (hres : res ≠ -2) : s.account.next m.codec log.data .jobOpened = some s'.account := by
  obtain ⟨s₁, hopened, -⟩ := processOpened_accepted h hres
  exact processOpened_read_account hopened h

theorem processOpened_account (h : s.processOpened m log now = some (s', 0)) :
    s.account.next m.codec log.data .jobOpened = some s'.account :=
  processOpened_accepts h (by decide)

theorem processLog_account {e : MarketEvent} (he : log.event = some e)
    (h : s.processLog m (some log) now = some (s', 0)) :
    s.account.next m.codec log.data e = some s'.account := by
  have h := processLog_event h
  rw [he] at h
  cases e with
  | jobOpened => exact processOpened_account h
  | jobSettled =>
    dsimp only [processEvent, processSettled] at h
    cases hdata : m.codec.settledData log.data with
    | none =>
      rw [hdata] at h
      cases h
    | some data =>
      rw [hdata] at h
      cases h
      rw [Account.next, hdata]
      rfl
  | jobClosed =>
    obtain ⟨-, t, rfl⟩ := processClosed_cases h
    rfl
  | jobDeposited =>
    dsimp only [processEvent, processDeposited] at h
    cases hdata : m.codec.u256Data log.data with
    | none =>
      rw [hdata] at h
      cases h
    | some amount =>
      rw [hdata] at h
      cases h
      rw [Account.next, hdata]
      rfl
  | jobWithdrew =>
    dsimp only [processEvent, processWithdrew] at h
    cases hdata : m.codec.u256Data log.data with
    | none =>
      rw [hdata] at h
      cases h
    | some amount =>
      rw [hdata] at h
      cases h
      rw [Account.next, hdata]
      rfl
  | jobReviseRateInitiated =>
    obtain ⟨hres, -⟩ | ⟨-, newRate, hdata, hcases⟩ := processReviseRateInitiated_cases h
    · cases hres
    · rw [Account.next, hdata]
      obtain ⟨-, t, rfl⟩ | ⟨-, rfl⟩ := hcases <;> rfl
  | jobReviseRateCancelled =>
    cases h
    rfl
  | jobReviseRateFinalized =>
    dsimp only [processEvent, processReviseRateFinalized] at h
    cases hdata : m.codec.u256Data log.data with
    | none =>
      rw [hdata] at h
      cases h
    | some newRate =>
      rw [hdata] at h
      dsimp only at h
      split_ifs at h with hne
      · cases h
      · cases h
        have hrate : s.account.rate = newRate := not_not.1 hne
        rw [Account.next, hdata, Option.bind_some, if_pos hrate]
        rfl
  | metadataUpdated =>
    obtain ⟨hres, -⟩ | ⟨-, url, t, -, rfl⟩ := processMetadataUpdated_cases h
    · cases hres
    · rfl

end JobState

end Oyster.ControlPlane
