import Oyster.ControlPlane.Account
import Oyster.Lib.Run

namespace Oyster.ControlPlane

namespace U256

theorem toNat_mul_factor (a : U256) :
    (a * 10 ^ 12).toNat = a.toNat * 10 ^ 12 % 2 ^ 256 := by
  rw [BitVec.toNat_mul]
  rfl

theorem toNat_mul_factor_le (a : U256) : (a * 10 ^ 12).toNat ≤ a.toNat * 10 ^ 12 := by
  rw [toNat_mul_factor]
  exact Nat.mod_le _ _

theorem mul_factor_mono {a b : U256} (hab : a ≤ b) (hb : b.toNat * 10 ^ 12 < 2 ^ 256) :
    (a * 10 ^ 12).toNat ≤ (b * 10 ^ 12).toNat := by
  have ha : a.toNat * 10 ^ 12 ≤ b.toNat * 10 ^ 12 := Nat.mul_le_mul_right _ hab
  rw [toNat_mul_factor, toNat_mul_factor, Nat.mod_eq_of_lt hb,
    Nat.mod_eq_of_lt (Nat.lt_of_le_of_lt ha hb)]
  exact ha

theorem toNat_add_le (a b : U256) : (a + b).toNat ≤ a.toNat + b.toNat := by
  rw [BitVec.toNat_add]
  exact Nat.mod_le _ _

theorem toNat_sub_le {a b : U256} (h : b ≤ a) : (a - b).toNat ≤ a.toNat := by
  rw [BitVec.toNat_sub_of_le h]
  exact Nat.sub_le _ _

end U256

theorem fromSecs_mono {a b : ℕ} (h : a ≤ b) : fromSecs a ≤ fromSecs b :=
  Nat.mul_le_mul_right _ h

namespace JobState

theorem insolvencyDuration_mono {s s' : JobState} (hrate : s'.rate = s.rate)
    (hsettled : s'.lastSettled = s.lastSettled)
    (hle : (s'.balance * 10 ^ 12).toNat ≤ (s.balance * 10 ^ 12).toNat) (nowTs : Duration) :
    s'.insolvencyDuration nowTs ≤ s.insolvencyDuration nowTs := by
  unfold insolvencyDuration
  rw [hrate, hsettled]
  split_ifs with hzero
  · exact Nat.le_refl 0
  · have hdiv : (s'.balance * 10 ^ 12 / s.rate).toNat ≤ (s.balance * 10 ^ 12 / s.rate).toNat := by
      rw [BitVec.toNat_udiv, BitVec.toNat_udiv]
      exact Nat.div_le_div_right hle
    have hsat : U256.saturatingToU64 (s'.balance * 10 ^ 12 / s.rate) ≤
        U256.saturatingToU64 (s.balance * 10 ^ 12 / s.rate) := by
      unfold U256.saturatingToU64
      omega
    exact Nat.sub_le_sub_right (fromSecs_mono (Nat.sub_le_sub_right hsat 300)) _

/-- The seconds that the balance pays for, up to the largest `u64`, less the margin. -/
def paidSecs (s : JobState) : ℤ :=
  max 0 (min ((s.balance.toNat * 10 ^ 12 / s.rate.toNat : ℕ) : ℤ) (2 ^ 64 - 1) - 300)

/-- The time to insolvency computed over the integers. -/
def exactDuration (s : JobState) (nowTs : Duration) : ℤ :=
  max 0 (10 ^ 9 * s.paidSecs - max 0 ((nowTs : ℤ) - s.lastSettled))

/-- The product of balance and factor is a `U256`; or what is left of it still pays for as long
as a `u64` can say; or the time that is paid for is over. -/
def WrapHarmless (s : JobState) (nowTs : Duration) : Prop :=
  s.balance.toNat * 10 ^ 12 < 2 ^ 256 ∨
    2 ^ 64 - 1 ≤ s.balance.toNat * 10 ^ 12 % 2 ^ 256 / s.rate.toNat ∨
    10 ^ 9 * s.paidSecs ≤ max 0 ((nowTs : ℤ) - s.lastSettled)

section ClosedForm

variable {s s' : JobState} {nowTs nowTs' : Duration}

/-- What is left of so many solvent seconds. -/
def remaining (secs elapsed : ℕ) : ℕ := (min secs (2 ^ 64 - 1) - 300) * 10 ^ 9 - elapsed

theorem remaining_mono {secs secs' elapsed elapsed' : ℕ} (h : secs ≤ secs')
    (he : elapsed' ≤ elapsed) : remaining secs elapsed ≤ remaining secs' elapsed' := by
  unfold remaining
  omega

/-- A greater number of seconds leaves more, unless both are beyond a `u64` or nothing is left. -/
theorem remaining_eq_iff {secs secs' elapsed : ℕ} (h : secs < secs') :
    remaining secs elapsed = remaining secs' elapsed ↔
      2 ^ 64 - 1 ≤ secs ∨ (min secs' (2 ^ 64 - 1) - 300) * 10 ^ 9 ≤ elapsed := by
  unfold remaining
  omega

theorem paid_over_iff (secs now settled : ℕ) :
    (min secs (2 ^ 64 - 1) - 300) * 10 ^ 9 ≤ now - settled ↔
      10 ^ 9 * max 0 (min (secs : ℤ) (2 ^ 64 - 1) - 300) ≤ max 0 ((now : ℤ) - settled) := by
  omega

theorem rate_pos (hrate : s.rate ≠ 0) : 0 < s.rate.toNat := by
  apply Nat.pos_of_ne_zero
  intro hzero
  exact hrate (BitVec.eq_of_toNat_eq hzero)

theorem insolvencyDuration_eq (hrate : s.rate ≠ 0) : s.insolvencyDuration nowTs =
    remaining (s.balance.toNat * 10 ^ 12 % 2 ^ 256 / s.rate.toNat) (nowTs - s.lastSettled) := by
  have hquot : (s.balance * 10 ^ 12 / s.rate).toNat =
      s.balance.toNat * 10 ^ 12 % 2 ^ 256 / s.rate.toNat := by
    rw [BitVec.toNat_udiv, U256.toNat_mul_factor]
  unfold insolvencyDuration remaining fromSecs U256.saturatingToU64
  rw [if_neg hrate, hquot]

theorem exactDuration_eq : s.exactDuration nowTs =
    remaining (s.balance.toNat * 10 ^ 12 / s.rate.toNat) (nowTs - s.lastSettled) := by
  unfold exactDuration paidSecs remaining
  generalize s.balance.toNat * 10 ^ 12 / s.rate.toNat = secs
  omega

theorem insolvencyDuration_le_exact (hrate : s.rate ≠ 0) :
    (s.insolvencyDuration nowTs : ℤ) ≤ s.exactDuration nowTs := by
  rw [insolvencyDuration_eq hrate, exactDuration_eq, Int.ofNat_le]
  exact remaining_mono (Nat.div_le_div_right (Nat.mod_le _ _)) (Nat.le_refl _)

theorem exactDuration_mono (hrate' : s'.rate ≠ 0) (hbalance : s.balance ≤ s'.balance)
    (hrate : s'.rate ≤ s.rate) (hsettled : s.lastSettled ≤ s'.lastSettled)
    (hnow : nowTs' ≤ nowTs) : s.exactDuration nowTs ≤ s'.exactDuration nowTs' := by
  have hpaid : s.balance.toNat * 10 ^ 12 ≤ s'.balance.toNat * 10 ^ 12 :=
    Nat.mul_le_mul_right _ hbalance
  have hsecs : s.balance.toNat * 10 ^ 12 / s.rate.toNat ≤
      s'.balance.toNat * 10 ^ 12 / s'.rate.toNat :=
    Nat.div_le_div hpaid hrate (Nat.ne_of_gt (rate_pos hrate'))
  have helapsed : nowTs' - s'.lastSettled ≤ nowTs - s.lastSettled :=
    Nat.le_trans (Nat.sub_le_sub_right hnow _) (Nat.sub_le_sub_left hsettled _)
  rw [exactDuration_eq, exactDuration_eq, Int.ofNat_le]
  exact remaining_mono hsecs helapsed

theorem insolvencyDuration_exact_iff (hrate : s.rate ≠ 0) :
    (s.insolvencyDuration nowTs : ℤ) = s.exactDuration nowTs ↔ s.WrapHarmless nowTs := by
  have hpos := rate_pos hrate
  unfold WrapHarmless
  rw [insolvencyDuration_eq hrate, exactDuration_eq, Int.ofNat_inj]
  by_cases hfits : s.balance.toNat * 10 ^ 12 < 2 ^ 256
  · rw [Nat.mod_eq_of_lt hfits]
    simp only [hfits, true_or]
  · -- a wrapped product loses at least one second
    have hlost : s.balance.toNat * 10 ^ 12 % 2 ^ 256 + s.rate.toNat ≤
        s.balance.toNat * 10 ^ 12 := by
      have hlt := s.rate.isLt
      have hmod := Nat.mod_add_div (s.balance.toNat * 10 ^ 12) (2 ^ 256)
      have hquot : 1 ≤ s.balance.toNat * 10 ^ 12 / 2 ^ 256 :=
        Nat.div_pos (Nat.not_lt.1 hfits) (by decide)
      omega
    have hless : s.balance.toNat * 10 ^ 12 % 2 ^ 256 / s.rate.toNat <
        s.balance.toNat * 10 ^ 12 / s.rate.toNat := by
      have hdiv := Nat.div_le_div_right (c := s.rate.toNat) hlost
      rw [Nat.add_div_right _ hpos] at hdiv
      exact hdiv
    rw [remaining_eq_iff hless, paid_over_iff]
    simp only [hfits, false_or, paidSecs]

/-- The duration is the exact one unless the product wraps and that shows; then the exact one is
longer. So it grows with the balance and with `last_settled`, and shrinks with the rate and with
the clock. -/
theorem insolvencyDuration_exact (hrate : s.rate ≠ 0) :
    ((s.insolvencyDuration nowTs : ℤ) = s.exactDuration nowTs ↔ s.WrapHarmless nowTs) ∧
      ∀ (s' : JobState) (nowTs' : Duration), s'.rate ≠ 0 → s.balance ≤ s'.balance →
        s'.rate ≤ s.rate → s.lastSettled ≤ s'.lastSettled → nowTs' ≤ nowTs →
        s'.WrapHarmless nowTs' → s.insolvencyDuration nowTs ≤ s'.insolvencyDuration nowTs' := by
  refine ⟨insolvencyDuration_exact_iff hrate, ?_⟩
  intro s' nowTs' hrate' hbalance hle hsettled hnow hexact
  have hlower : (s.insolvencyDuration nowTs : ℤ) ≤ s.exactDuration nowTs :=
    insolvencyDuration_le_exact hrate
  have hmono : s.exactDuration nowTs ≤ s'.exactDuration nowTs' :=
    exactDuration_mono hrate' hbalance hle hsettled hnow
  have hupper : (s'.insolvencyDuration nowTs' : ℤ) = s'.exactDuration nowTs' :=
    (insolvencyDuration_exact_iff hrate').2 hexact
  rw [← hupper] at hmono
  exact Int.ofNat_le.1 (Int.le_trans hlower hmono)

end ClosedForm

/-- What the job was paid, after a log: what it was opened with and all deposits since. -/
def paidIn (codec : Codec) (paid : ℕ) (log : Log) : ℕ :=
  match log.event with
  | some .jobOpened =>
    (codec.openedData log.data).elim paid fun (_, _, balance, _) => balance.toNat
  | some .jobDeposited => (codec.u256Data log.data).elim paid fun amount => paid + amount.toNat
  | _ => paid

/-- A log processed at some instant, with any result, beside what was paid. -/
def Pays (m : Market) (s : JobState × ℕ) (e : Log × Instant) (s' : JobState × ℕ) : Prop :=
  ∃ res, s.1.processLog m (some e.1) e.2 = some (s'.1, res) ∧ s'.2 = paidIn m.codec s.2 e.1

/-- The log takes no more from the balance than there is. -/
def WithinBalance (m : Market) (s : JobState × ℕ) (e : Log × Instant) : Prop :=
  match e.1.event with
  | some .jobSettled =>
    ∀ data, m.codec.settledData e.1.data = some data → data.1 ≤ s.1.balance
  | some .jobWithdrew => ∀ amount, m.codec.u256Data e.1.data = some amount → amount ≤ s.1.balance
  | _ => True

/-- The log withdraws `amount`. -/
def Withdraws (m : Market) (log : Log) (amount : U256) : Prop :=
  log.event = some .jobWithdrew ∧ m.codec.u256Data log.data = some amount

section Balance

variable {s s' : JobState} {m : Market} {log : Log} {now : Instant} {res : ℤ}

theorem processOpened_balance (h : s.processOpened m log now = some (s', res)) :
    s'.balance = (m.codec.openedData log.data).elim s.balance
      fun (_, _, balance, _) => balance := by
  unfold processOpened at h
  match hdata : m.codec.openedData log.data with
  | none =>
    simp only [hdata] at h
    cases h
    rfl
  | some (metadata, rate, balance, timestamp) =>
    simp only [hdata] at h
    match hv : m.codec.parseJson metadata with
    | none =>
      simp only [hv] at h
      cases h
      rfl
    | some v =>
      have hkeeps := readOpened_keeps { s with
        balance := balance
        rate := rate
        originalRate := rate
        lastSettled := fromSecs (U256.saturatingToU64 timestamp) } v
      simp only [hv] at h
      split at h
      next s₁ hread =>
        rw [hread] at hkeeps
        cases h
        exact congrArg Account.balance hkeeps
      next s₁ hread =>
        rw [hread] at hkeeps
        exact congrArg Account.balance ((checkOpened_account h).trans hkeeps)

theorem Pays.balance_le {s s' : JobState × ℕ} {e : Log × Instant}
    (hs : s.1.balance.toNat ≤ s.2) (hwithin : WithinBalance m s e) (h : Pays m s e s') :
    s'.1.balance.toNat ≤ s'.2 := by
  obtain ⟨s, paid⟩ := s
  obtain ⟨s', paid'⟩ := s'
  obtain ⟨log, now⟩ := e
  obtain ⟨res, h, hpaid⟩ := h
  replace h := processLog_event h
  dsimp only at hs h hpaid ⊢
  unfold WithinBalance at hwithin
  unfold paidIn at hpaid
  dsimp only at hwithin
  cases hevent : log.event with
  | none =>
    rw [hevent] at h hpaid
    cases h
    rw [hpaid]
    exact hs
  | some event =>
    rw [hevent] at h hpaid hwithin
    cases event with
    | jobOpened =>
      rw [processOpened_balance h, hpaid]
      cases m.codec.openedData log.data with
      | none => exact hs
      | some data => exact Nat.le_refl _
    | jobSettled =>
      dsimp only [processEvent, processSettled] at h
      dsimp only at hwithin hpaid
      cases hdata : m.codec.settledData log.data with
      | none =>
        rw [hdata] at h
        cases h
        omega
      | some data =>
        rw [hdata] at h
        cases h
        have hsub := U256.toNat_sub_le (hwithin data hdata)
        dsimp only
        omega
    | jobClosed =>
      obtain ⟨-, t, rfl⟩ := processClosed_cases h
      rw [hpaid]
      exact hs
    | jobDeposited =>
      dsimp only [processEvent, processDeposited] at h
      dsimp only at hpaid
      cases hdata : m.codec.u256Data log.data with
      | none =>
        rw [hdata] at h hpaid
        cases h
        rw [hpaid]
        exact hs
      | some amount =>
        rw [hdata] at h hpaid
        cases h
        have hadd := U256.toNat_add_le s.balance amount
        rw [hpaid]
        dsimp only [Option.elim_some]
        omega
    | jobWithdrew =>
      dsimp only [processEvent, processWithdrew] at h
      dsimp only at hwithin hpaid
      cases hdata : m.codec.u256Data log.data with
      | none =>
        rw [hdata] at h
        cases h
        omega
      | some amount =>
        rw [hdata] at h
        cases h
        have hsub := U256.toNat_sub_le (hwithin amount hdata)
        dsimp only
        omega
    | jobReviseRateInitiated =>
      rw [hpaid]
      obtain ⟨-, -, rfl⟩ | ⟨-, newRate, -, ⟨-, t, rfl⟩ | ⟨-, rfl⟩⟩ :=
        processReviseRateInitiated_cases h
      · exact hs
      · exact hs
      · exact hs
    | jobReviseRateCancelled =>
      cases h
      rw [hpaid]
      exact hs
    | jobReviseRateFinalized =>
      rw [hpaid]
      obtain ⟨-, rfl⟩ | ⟨-, rfl⟩ := processReviseRateFinalized_cases h
      · exact hs
      · exact hs
    | metadataUpdated =>
      rw [hpaid]
      obtain ⟨-, -, ⟨-, rfl⟩ | ⟨t, rfl⟩⟩ | ⟨-, url, t, -, rfl⟩ := processMetadataUpdated_cases h
      · exact hs
      · exact hs
      · exact hs

theorem Withdraws.processLog {amount : U256} (hw : Withdraws m log amount)
    (h : s.processLog m (some log) now = some (s', res)) :
    s' = { s with balance := s.balance - amount } := by
  replace h := processLog_event h
  rw [hw.1] at h
  dsimp only [processEvent, processWithdrew] at h
  rw [hw.2] at h
  cases h
  rfl

theorem withdraw_larger {amount amount' : U256} {log' : Log} {now' : Instant} {s₁ s₂ : JobState}
    {res' : ℤ} (hw : Withdraws m log amount) (hw' : Withdraws m log' amount')
    (hle : amount ≤ amount') (hwithin : amount' ≤ s.balance)
    (hfits : (s.balance - amount).toNat * 10 ^ 12 < 2 ^ 256)
    (h : s.processLog m (some log) now = some (s₁, res))
    (h' : s.processLog m (some log') now' = some (s₂, res')) (nowTs : Duration) :
    s₂.insolvencyDuration nowTs ≤ s₁.insolvencyDuration nowTs := by
  have hs₁ := hw.processLog h
  have hs₂ := hw'.processLog h'
  have hbalance : s.balance - amount' ≤ s.balance - amount := by
    rw [BitVec.le_def] at hle hwithin ⊢
    rw [BitVec.toNat_sub_of_le hwithin, BitVec.toNat_sub_of_le (Nat.le_trans hle hwithin)]
    omega
  have hrate : s₂.rate = s₁.rate := by rw [hs₁, hs₂]
  have hsettled : s₂.lastSettled = s₁.lastSettled := by rw [hs₁, hs₂]
  have hmul : (s₂.balance * 10 ^ 12).toNat ≤ (s₁.balance * 10 ^ 12).toNat := by
    rw [hs₁, hs₂]
    exact U256.mul_factor_mono hbalance hfits
  exact insolvencyDuration_mono hrate hsettled hmul nowTs

/-- Along every run whose logs take no more than there is, the balance stays within what was
paid, and of two withdrawals that the balance covers the larger one never makes the deadline
later, as long as what the smaller one leaves does not overflow the product with `10^12`. -/
theorem balance_within_paid {m : Market} {s : JobState} {es : List (Log × Instant)}
    {t : JobState × ℕ}
    (h : Along (Pays m) (WithinBalance m) (s, s.balance.toNat) es t) :
    t.1.balance.toNat ≤ t.2 ∧
      ∀ log log' amount amount' now now' s₁ s₂ res res',
        Withdraws m log amount → Withdraws m log' amount' → amount ≤ amount' →
        amount' ≤ t.1.balance → (t.1.balance - amount).toNat * 10 ^ 12 < 2 ^ 256 →
        t.1.processLog m (some log) now = some (s₁, res) →
        t.1.processLog m (some log') now' = some (s₂, res') →
        ∀ nowTs, s₂.insolvencyDuration nowTs ≤ s₁.insolvencyDuration nowTs := by
  have hstep : ∀ s e s', s.1.balance.toNat ≤ s.2 → WithinBalance m s e → Pays m s e s' →
      s'.1.balance.toNat ≤ s'.2 := fun s e s' hs hwithin hpays => hpays.balance_le hs hwithin
  refine ⟨h.invariant hstep (Nat.le_refl _), ?_⟩
  intro log log' amount amount' now now' s₁ s₂ res res' hw hw' hle hwithin hfits h₁ h₂ nowTs
  exact withdraw_larger hw hw' hle hwithin hfits h₁ h₂ nowTs

end Balance

/-- The rate that the contract charges after a log: that of the opening, or of the last revision
that was finalized. -/
def chargedRate (codec : Codec) (charged : U256) (log : Log) : U256 :=
  match log.event with
  | some .jobOpened => (codec.openedData log.data).elim charged fun (_, rate, _, _) => rate
  | some .jobReviseRateFinalized => (codec.u256Data log.data).getD charged
  | _ => charged

/-- A log after which the job goes on, beside the rate that is charged. -/
def Charges (m : Market) (s : JobState × U256) (e : Log × Instant) (s' : JobState × U256) : Prop :=
  ∃ res, res ≠ -2 ∧ s.1.processLog m (some e.1) e.2 = some (s'.1, res) ∧
    s'.2 = chargedRate m.codec s.2 e.1

/-- The log does not make a job that is to run compute with less than the rate it is charged: no
lower rate that still pays for the instance is initiated, no cancellation goes back to a lower
one, and no update restarts a job while a lower one is pending. -/
def KeepsCharged (m : Market) (s : JobState × U256) (e : Log × Instant) : Prop :=
  match e.1.event with
  | some .jobReviseRateInitiated =>
    ∀ newRate, m.codec.u256Data e.1.data = some newRate →
      s.1.infraState = true → s.1.minRate ≤ newRate → s.2 ≤ newRate
  | some .jobReviseRateCancelled => s.1.infraState = true → s.2 ≤ s.1.originalRate
  | some .metadataUpdated => s.1.infraState = false → s.2 ≤ s.1.rate
  | _ => True

/-- A job that is to run computes with no less than what it is charged. -/
def RateCovers (s : JobState × U256) : Prop := s.1.infraState = true → s.2 ≤ s.1.rate

/-- The moment at which the balance is down to 300s of the charged rate. -/
def solventUntil (s : JobState) (charged : U256) : Duration :=
  s.lastSettled + fromSecs (s.balance.toNat * 10 ^ 12 / charged.toNat - 300)

section Deadline

variable {m : Market} {log : Log} {now : Instant} {res : ℤ}

theorem chargedRate_opened {s s' : JobState} (charged : U256) (hevent : log.event = some .jobOpened)
    (h : s.processOpened m log now = some (s', res)) (hres : res ≠ -2) :
    s'.rate = chargedRate m.codec charged log := by
  have hnext := processOpened_accepts h hres
  rw [Account.next] at hnext
  obtain ⟨data, hdata, haccount⟩ := Option.map_eq_some_iff.1 hnext
  rw [chargedRate, hevent]
  dsimp only
  rw [hdata]
  exact (congrArg Account.rate haccount).symm

theorem Charges.rateCovers {s s' : JobState × U256} {e : Log × Instant} (hs : RateCovers s)
    (hkeeps : KeepsCharged m s e) (h : Charges m s e s') : RateCovers s' := by
  obtain ⟨s, charged⟩ := s
  obtain ⟨s', charged'⟩ := s'
  obtain ⟨log, now⟩ := e
  obtain ⟨res, hres, h, hcharged⟩ := h
  replace h := processLog_event h
  unfold RateCovers at hs ⊢
  unfold KeepsCharged at hkeeps
  dsimp only at hs h hcharged hkeeps ⊢
  intro hrun
  cases hevent : log.event with
  | none =>
    rw [hevent] at h
    cases h
    exact absurd rfl hres
  | some event =>
    rw [hevent] at h hkeeps
    cases event with
    | jobOpened =>
      rw [hcharged, chargedRate_opened charged hevent h hres]
      exact BitVec.le_refl _
    | jobSettled =>
      rw [chargedRate, hevent] at hcharged
      obtain ⟨-, hs'⟩ := processAccount_cases (.inl h)
      rw [hcharged, hs']
      rw [hs'] at hrun
      exact hs hrun
    | jobClosed =>
      obtain ⟨-, t, rfl⟩ := processClosed_cases h
      exact absurd hrun Bool.false_ne_true
    | jobDeposited =>
      rw [chargedRate, hevent] at hcharged
      obtain ⟨-, hs'⟩ := processAccount_cases (.inr (.inl h))
      rw [hcharged, hs']
      rw [hs'] at hrun
      exact hs hrun
    | jobWithdrew =>
      rw [chargedRate, hevent] at hcharged
      obtain ⟨-, hs'⟩ := processAccount_cases (.inr (.inr h))
      rw [hcharged, hs']
      rw [hs'] at hrun
      exact hs hrun
    | jobReviseRateInitiated =>
      rw [chargedRate, hevent] at hcharged
      obtain ⟨hres', -⟩ | ⟨-, newRate, hdata, ⟨-, t, rfl⟩ | ⟨hpays, rfl⟩⟩ :=
        processReviseRateInitiated_cases h
      · exact absurd hres' hres
      · exact absurd hrun Bool.false_ne_true
      · rw [hcharged]
        exact hkeeps newRate hdata hrun hpays
    | jobReviseRateCancelled =>
      rw [chargedRate, hevent] at hcharged
      cases h
      rw [hcharged]
      exact hkeeps hrun
    | jobReviseRateFinalized =>
      dsimp only [processEvent, processReviseRateFinalized] at h
      rw [chargedRate, hevent] at hcharged
      dsimp only at hcharged
      cases hdata : m.codec.u256Data log.data with
      | none =>
        rw [hdata] at h
        cases h
        exact absurd rfl hres
      | some newRate =>
        rw [hdata] at h hcharged
        dsimp only at h
        split_ifs at h with hne
        · cases h
          exact absurd rfl hres
        · cases h
          have hrate : s.rate = newRate := not_not.1 hne
          rw [hcharged, Option.getD_some, hrate]
          exact BitVec.le_refl _
    | metadataUpdated =>
      rw [chargedRate, hevent] at hcharged
      obtain ⟨hres', -⟩ | ⟨-, url, t, -, rfl⟩ := processMetadataUpdated_cases h
      · exact absurd hres' hres
      · rw [hcharged]
        -- an update restarts the job: its rate is covered already, or the condition says so
        cases hstate : s.infraState with
        | true => exact hs hstate
        | false => exact hkeeps hstate

/-- Computing with a higher rate makes the deadline earlier, whatever overflows on the way. -/
theorem insolvencyDuration_le {s : JobState} {charged : U256} (hcharged : charged ≠ 0)
    (hle : charged ≤ s.rate) (nowTs : Duration) :
    s.insolvencyDuration nowTs ≤
      fromSecs (s.balance.toNat * 10 ^ 12 / charged.toNat - 300) - (nowTs - s.lastSettled) := by
  have hpos : 0 < charged.toNat := by
    apply Nat.pos_of_ne_zero
    intro hzero
    exact hcharged (BitVec.eq_of_toNat_eq hzero)
  unfold insolvencyDuration
  split_ifs with hzero
  · exact Nat.zero_le _
  · have hquot : (s.balance * 10 ^ 12 / s.rate).toNat ≤
        s.balance.toNat * 10 ^ 12 / charged.toNat := by
      rw [BitVec.toNat_udiv]
      exact Nat.div_le_div (U256.toNat_mul_factor_le _) hle (Nat.ne_of_gt hpos)
    have hsat : U256.saturatingToU64 (s.balance * 10 ^ 12 / s.rate) ≤
        s.balance.toNat * 10 ^ 12 / charged.toNat := by
      unfold U256.saturatingToU64
      exact Nat.le_trans (Nat.min_le_left _ _) hquot
    exact Nat.sub_le_sub_right (fromSecs_mono (Nat.sub_le_sub_right hsat 300)) _

theorem due_le {nowTs due settled left : ℕ} (hdue : due ≤ left - (nowTs - settled))
    (hnow : nowTs ≤ settled + left) : nowTs + due ≤ settled + left := by
  omega

/-- From an accepted opening on, along every run whose logs keep the rate above what is charged,
a job that is to run is due by the moment at which the charged rate leaves it 300s, at every
clock that has not passed that moment; a later clock is itself the moment it is due. -/
theorem due_by_solventUntil {s₀ s₁ : JobState} {es : List (Log × Instant)} {t : JobState × U256}
    {charged : U256} (hopen : log.event = some .jobOpened)
    (haccepted : s₀.processLog m (some log) now = some (s₁, 0))
    (h : Along (Charges m) (KeepsCharged m) (s₁, chargedRate m.codec charged log) es t)
    (hrun : t.1.infraState = true) (hcharged : t.2 ≠ 0) (nowTs : Duration) :
    nowTs + t.1.insolvencyDuration nowTs ≤ t.1.solventUntil t.2 ↔
      nowTs ≤ t.1.solventUntil t.2 := by
  have hopened := processLog_event haccepted
  rw [hopen] at hopened
  have hstart : RateCovers (s₁, chargedRate m.codec charged log) := by
    intro _
    rw [← chargedRate_opened charged hopen hopened (by decide)]
    exact BitVec.le_refl _
  have hcovers : RateCovers t :=
    h.invariant (fun s e s' hs hkeeps hstep => hstep.rateCovers hs hkeeps) hstart
  have hdue := insolvencyDuration_le hcharged (hcovers hrun) nowTs
  unfold solventUntil
  constructor
  · intro hle
    exact Nat.le_trans (Nat.le_add_right _ _) hle
  · intro hle
    exact due_le hdue hle

end Deadline

end JobState

namespace Sample

/-- The sample job is exact, and so solvent for longer than with a smaller balance. -/
theorem insolvencyDuration_exact_sample :
    ({ opened with balance := 30000 }.insolvencyDuration 0 : ℤ) =
        { opened with balance := 30000 }.exactDuration 0 ∧
      { opened with balance := 30000 }.insolvencyDuration 0 ≤ opened.insolvencyDuration 0 := by
  have hrate : ({ opened with balance := 30000 } : JobState).rate ≠ 0 := by decide
  obtain ⟨hexact, hmono⟩ := JobState.insolvencyDuration_exact hrate
  refine ⟨hexact.2 (.inl (by decide)), ?_⟩
  exact hmono opened 0 (by decide) (by decide) (by decide) (Nat.le_refl _) (Nat.le_refl _)
    (.inl (by decide))

/-- The product of `2 ^ 244` and the factor is a multiple of `2 ^ 256`: nothing is left of it. -/
theorem wrapped_duration :
    ({ opened with balance := BitVec.ofNat 256 (2 ^ 244), rate := 1 }.insolvencyDuration 0 : ℤ) ≠
      { opened with balance := BitVec.ofNat 256 (2 ^ 244), rate := 1 }.exactDuration 0 := by
  decide

def wordMarket (words : List ℕ) : Market := { market [] with
  codec := { codec with
    u256Data := fun d => (words.find? fun n => d = abiWord n).map (BitVec.ofNat 256) } }

theorem wordMarket_openedData (words : List ℕ) :
    (wordMarket words).codec.openedData openedData =
      some (metadata url "c6a.xlarge", 31000000000000, 31000, 0) := by
  dsimp only [wordMarket, market, codec]
  rw [if_pos rfl]

theorem wordMarket_parseJson (words : List ℕ) :
    (wordMarket words).codec.parseJson (metadata url "c6a.xlarge") =
      some (json url "c6a.xlarge") := by
  dsimp only [wordMarket, market, codec]
  rw [if_pos rfl]

theorem processLog_wordOpen (words : List ℕ) :
    state.processLog (wordMarket words) (some openLog) 0 = some (opened, 0) :=
  processLog_opens (wordMarket_openedData words) (wordMarket_parseJson words)

def payMarket : Market := wordMarket [1000, 30000, 31000, 31001]

def withdrawLog (amount : ℕ) : Log := ⟨[MarketEvent.jobWithdrew.topic, 1], abiWord amount⟩

def withdrawn (amount : U256) : JobState := { opened with balance := opened.balance - amount }

theorem pays_open : JobState.Pays payMarket (state, 360) (openLog, 0) (opened, 31000) := by
  refine ⟨0, processLog_wordOpen _, ?_⟩
  have hdata : payMarket.codec.openedData openLog.data =
      some (metadata url "c6a.xlarge", 31000000000000, 31000, 0) := wordMarket_openedData _
  rw [JobState.paidIn, openLog_event]
  dsimp only
  rw [hdata]
  rfl

theorem withdraws_of_decode {amount : ℕ}
    (h : payMarket.codec.u256Data (abiWord amount) = some (BitVec.ofNat 256 amount)) :
    JobState.Withdraws payMarket (withdrawLog amount) (BitVec.ofNat 256 amount) :=
  ⟨marketEvent_topic .jobWithdrew, h⟩

theorem processLog_withdraw {s : JobState} {amount : ℕ}
    (h : payMarket.codec.u256Data (abiWord amount) = some (BitVec.ofNat 256 amount)) :
    s.processLog payMarket (some (withdrawLog amount)) 0 =
      some ({ s with balance := s.balance - BitVec.ofNat 256 amount }, 0) := by
  have hevent : (withdrawLog amount).event = some .jobWithdrew := marketEvent_topic .jobWithdrew
  rw [JobState.processLog_of_event hevent]
  simp only [JobState.processEvent, JobState.processWithdrew, withdrawLog, h]

theorem pays_withdraw {s : JobState} {paid amount : ℕ}
    (h : payMarket.codec.u256Data (abiWord amount) = some (BitVec.ofNat 256 amount)) :
    JobState.Pays payMarket (s, paid) (withdrawLog amount, 0)
      ({ s with balance := s.balance - BitVec.ofNat 256 amount }, paid) :=
  ⟨0, processLog_withdraw h, rfl⟩

/-- 30000 are left of 31000, and withdrawing all of them leaves no time. -/
theorem balance_within_paid_sample :
    (withdrawn 1000).balance.toNat ≤ 31000 ∧
      { opened with balance := (withdrawn 1000).balance - 30000 }.insolvencyDuration 0 ≤
        { opened with balance := (withdrawn 1000).balance - 1000 }.insolvencyDuration 0 := by
  have h1000 : payMarket.codec.u256Data (abiWord 1000) = some (BitVec.ofNat 256 1000) := by
    rfl
  have h30000 : payMarket.codec.u256Data (abiWord 30000) = some (BitVec.ofNat 256 30000) := by
    rfl
  have hrun : Along (JobState.Pays payMarket) (JobState.WithinBalance payMarket)
      (state, state.balance.toNat) [(openLog, 0), (withdrawLog 1000, 0)]
      (withdrawn 1000, 31000) := by
    refine .cons trivial pays_open (.cons ?_ (pays_withdraw h1000) (.nil _))
    intro amount hamount
    cases h1000.symm.trans hamount
    decide
  obtain ⟨hpaid, hlarger⟩ := JobState.balance_within_paid hrun
  refine ⟨hpaid, ?_⟩
  exact hlarger (withdrawLog 1000) (withdrawLog 30000) 1000 30000 0 0 _ _ 0 0
    (withdraws_of_decode h1000) (withdraws_of_decode h30000) (by decide) (by decide)
    (by decide) (processLog_withdraw h1000) (processLog_withdraw h30000) 0

/-- A withdrawal of one more than the balance leaves the job with more than it was ever paid,
and solvent for longer than a withdrawal of all that there is. -/
theorem overdrawn_sample :
    Run (JobState.Pays payMarket) (state, state.balance.toNat)
        [(openLog, 0), (withdrawLog 31001, 0)] (withdrawn 31001, 31000) ∧
      31000 < (withdrawn 31001).balance.toNat ∧
      opened.processLog payMarket (some (withdrawLog 31000)) 0 = some (withdrawn 31000, 0) ∧
      opened.processLog payMarket (some (withdrawLog 31001)) 0 = some (withdrawn 31001, 0) ∧
      (withdrawn 31000).insolvencyDuration 0 < (withdrawn 31001).insolvencyDuration 0 := by
  have h31000 : payMarket.codec.u256Data (abiWord 31000) = some (BitVec.ofNat 256 31000) := by
    rfl
  have h31001 : payMarket.codec.u256Data (abiWord 31001) = some (BitVec.ofNat 256 31001) := by
    rfl
  have hrun : Run (JobState.Pays payMarket) (state, state.balance.toNat)
      [(openLog, 0), (withdrawLog 31001, 0)] (withdrawn 31001, 31000) :=
    .cons pays_open (.cons (pays_withdraw h31001) (.nil _))
  exact ⟨hrun, by decide, processLog_withdraw h31000, processLog_withdraw h31001,
    by decide⟩

def minRateLog : Log := ⟨[MarketEvent.jobReviseRateInitiated.topic, 1], abiWord 29997916666666⟩

def highRateLog : Log := ⟨[MarketEvent.jobReviseRateInitiated.topic, 1], abiWord 32000000000000⟩

def cancelLog : Log := ⟨[MarketEvent.jobReviseRateCancelled.topic, 1], []⟩

def rateMarket : Market := wordMarket [29997916666666, 32000000000000]

def revised (rate : U256) : JobState := { opened with rate := rate }

theorem processLog_rateOpen :
    state.processLog rateMarket (some openLog) 0 = some (opened, 0) :=
  processLog_wordOpen _

theorem charged_open : JobState.chargedRate rateMarket.codec 0 openLog = 31000000000000 := by
  have hdata : rateMarket.codec.openedData openLog.data =
      some (metadata url "c6a.xlarge", 31000000000000, 31000, 0) := wordMarket_openedData _
  rw [JobState.chargedRate, openLog_event]
  dsimp only
  rw [hdata]
  rfl

/-- A higher rate is initiated and cancelled again: the job is due at 700s all the same. -/
theorem due_by_solventUntil_sample :
    0 + opened.insolvencyDuration 0 ≤ opened.solventUntil 31000000000000 ↔
      0 ≤ opened.solventUntil 31000000000000 := by
  have hinit : JobState.Charges rateMarket (opened, 31000000000000) (highRateLog, 0)
      (revised 32000000000000, 31000000000000) :=
    ⟨0, by decide, by rfl, by rfl⟩
  have hcancel : JobState.Charges rateMarket (revised 32000000000000, 31000000000000)
      (cancelLog, 0) (opened, 31000000000000) :=
    ⟨0, by decide, by rfl, by rfl⟩
  have hread : rateMarket.codec.u256Data (abiWord 32000000000000) = some 32000000000000 := by
    rfl
  have hrun : Along (JobState.Charges rateMarket) (JobState.KeepsCharged rateMarket)
      (opened, JobState.chargedRate rateMarket.codec 0 openLog)
      [(highRateLog, 0), (cancelLog, 0)] (opened, 31000000000000) := by
    rw [charged_open]
    refine .cons ?_ hinit (.cons ?_ hcancel (.nil _))
    · intro newRate hnew _ _
      cases hread.symm.trans hnew
      decide
    · intro _
      decide
  exact JobState.due_by_solventUntil openLog_event processLog_rateOpen hrun rfl (by decide) 0

/-- While a revision down to `min_rate` is only initiated, the job is due at 733s, and the rate
that it is charged leaves it 300s at 700s. -/
theorem due_late_sample :
    state.processLog rateMarket (some openLog) 0 = some (opened, 0) ∧
      Run (JobState.Charges rateMarket)
        (opened, JobState.chargedRate rateMarket.codec 0 openLog) [(minRateLog, 0)]
        (revised 29997916666666, 31000000000000) ∧
      (revised 29997916666666).infraState = true ∧
      (revised 29997916666666).solventUntil 31000000000000 <
        0 + (revised 29997916666666).insolvencyDuration 0 := by
  have hinit : JobState.Charges rateMarket (opened, 31000000000000) (minRateLog, 0)
      (revised 29997916666666, 31000000000000) :=
    ⟨0, by decide, by rfl, by rfl⟩
  rw [charged_open]
  exact ⟨processLog_rateOpen, .cons hinit (.nil _), rfl, by decide⟩

end Sample

end Oyster.ControlPlane
