import Oyster.Executor.Resend
import Oyster.Executor.Timeout

namespace Oyster.Executor

structure JobOutput where
  output : List UInt8
  errorCode : UInt8
  /-- a `u128`, in milliseconds -/
  totalTime : ℕ
  signTimestamp : ℕ := 0
  signature : List UInt8 := []
deriving DecidableEq

inductive JobsTxnType where
  | output
  | timeout
deriving DecidableEq

/-- What a transaction of the executor tells the contract. -/
structure JobsTxn where
  txnType : JobsTxnType
  jobId : ℕ
  jobOutput : Option JobOutput
deriving DecidableEq

/-- In milliseconds; the seconds of an `Instant` are an `i64`. -/
def instantBound : ℕ := 9223372036854775808 * 1000

/-- `Instant + Duration`, which panics past the last instant. -/
def addSecs (now secs : ℕ) : Option ℕ :=
  if now + secs * 1000 < instantBound then some (now + secs * 1000) else none

theorem addSecs_eq_some {now secs instant : ℕ} :
    addSecs now secs = some instant ↔
      now + secs * 1000 < instantBound ∧ instant = now + secs * 1000 := by
  unfold addSecs
  split <;> simp [*, eq_comm]

variable (c : Config) (userDeadline : ℕ)

/-- The seconds after which an output is not sent again, in the arithmetic of a release build. -/
def retrySecs (totalTime : ℕ) : ℕ :=
  ((c.executionBufferTime + userDeadline) % u64Bound + (u64Bound - totalTime % u64Bound)) % u64Bound

/-- Neither the sum nor the difference in `retrySecs` wraps around. -/
def Fits (totalTime : ℕ) : Prop :=
  c.executionBufferTime + userDeadline < u64Bound ∧
    totalTime % u64Bound ≤ c.executionBufferTime + userDeadline

/-- What the job is found to have given; `timeout` gives no response past the deadline. -/
def finalOutput (response : Option (Option JobOutput)) : Option JobOutput :=
  match response with
  | none => some { output := [], errorCode := 4, totalTime := userDeadline }
  | some jobOutput => jobOutput

/-- `handle_job` from the end of the job on: what it sends at the instant `now`. `none` is a
panic. -/
def handleJob (sign : ℕ → JobOutput → Option (List UInt8)) (jobId : ℕ)
    (response : Option (Option JobOutput)) (signTimestamp now : ℕ) :
    Option (Option (JobsTxnMetadata JobsTxn)) :=
  match finalOutput userDeadline response with
  | none => some none
  | some jobOutput =>
    let jobOutput := { jobOutput with signTimestamp := signTimestamp }
    match sign jobId jobOutput with
    | none => some none
    | some signature => do
      let retryDeadline ← addSecs now (retrySecs c userDeadline jobOutput.totalTime)
      return some ⟨⟨.output, jobId, some { jobOutput with signature := signature }⟩, retryDeadline⟩

/-- `handle_timeout`, asleep since `started`, does not wake before the buffer time has passed
again. -/
def SentInTime (started now : ℕ) : Prop :=
  now + c.executionBufferTime * 1000 ≤ started + timeoutWait c userDeadline

instance (totalTime : ℕ) : Decidable (Fits c userDeadline totalTime) :=
  inferInstanceAs (Decidable (_ ∧ _))

instance (started now : ℕ) : Decidable (SentInTime c userDeadline started now) :=
  inferInstanceAs (Decidable (_ ≤ _))

variable {c userDeadline}

theorem wake_eq {s s' : Session} {t : TimeoutTask} {wake : ℕ}
    (h : t.step c s .poll = some (s', { t with pc := .sleeping wake })) :
    wake = s.now + timeoutWait c t.userDeadline := by
  obtain ⟨jobId, userDeadline, handledAt, pc⟩ := t
  cases pc with
  | spawned =>
    simp only [TimeoutTask.step, asU64] at h
    split at h
    · simp at h
    · rename_i timeout hfits
      split at hfits
      · simp only [Option.some.injEq, Prod.mk.injEq, TimeoutTask.mk.injEq,
          TimeoutPc.sleeping.injEq] at h hfits
        rw [← h.2.2.2.2, hfits]
      · simp at hfits
  | _ => simp [TimeoutTask.step] at h

theorem retrySecs_eq {totalTime : ℕ} (h : Fits c userDeadline totalTime) :
    retrySecs c userDeadline totalTime =
      c.executionBufferTime + userDeadline - totalTime % u64Bound := by
  obtain ⟨hsum, hsub⟩ := h
  unfold retrySecs
  rw [Nat.mod_eq_of_lt hsum]
  unfold u64Bound at *
  omega

theorem retrySecs_due {totalTime : ℕ} (h : Fits c userDeadline totalTime) (now : ℕ) :
    now + retrySecs c userDeadline totalTime * 1000 =
        now + c.executionBufferTime * 1000 + (userDeadline - totalTime) ↔
      totalTime % u64Bound = userDeadline := by
  have hsub := h.2
  have hle := Nat.mod_le totalTime u64Bound
  rw [retrySecs_eq h]
  constructor
  · intro heq
    omega
  · intro heq
    omega

variable {sign : ℕ → JobOutput → Option (List UInt8)} {jobId signTimestamp : ℕ}
  {response : Option (Option JobOutput)} {o : JobOutput} {signature : List UInt8}

theorem handleJob_signed (hout : finalOutput userDeadline response = some o)
    (hsign : sign jobId { o with signTimestamp := signTimestamp } = some signature) (now : ℕ) :
    handleJob c userDeadline sign jobId response signTimestamp now =
      (addSecs now (retrySecs c userDeadline o.totalTime)).map fun retryDeadline => some
        ⟨⟨.output, jobId, some { o with signTimestamp := signTimestamp, signature := signature }⟩,
          retryDeadline⟩ := by
  simp only [handleJob, hout, hsign]
  cases addSecs now (retrySecs c userDeadline o.totalTime) <;> rfl

/-- The deadline of a signed output is computed without an overflow, is the one that is due and
does not pass the moment at which `handle_timeout` wakes up, exactly if the job took its whole
time, the sums fit and the output is sent in time. -/
theorem retryDeadline_iff {s s' : Session} {t : TimeoutTask} {wake : ℕ}
    (hout : finalOutput t.userDeadline response = some o)
    (hsign : sign jobId { o with signTimestamp := signTimestamp } = some signature)
    (hpoll : t.step c s .poll = some (s', { t with pc := .sleeping wake })) (now : ℕ) :
    (Fits c t.userDeadline o.totalTime ∧
      ∃ txn, handleJob c t.userDeadline sign jobId response signTimestamp now = some (some txn) ∧
        txn.retryDeadline =
          now + c.executionBufferTime * 1000 + (t.userDeadline - o.totalTime) ∧
        txn.retryDeadline ≤ wake) ↔
      o.totalTime % u64Bound = t.userDeadline ∧
        c.executionBufferTime + t.userDeadline < u64Bound ∧
        now + c.executionBufferTime * 1000 < instantBound ∧
        SentInTime c t.userDeadline s.now now := by
  have hwake := wake_eq hpoll
  have hle := Nat.mod_le o.totalTime u64Bound
  rw [handleJob_signed hout hsign]
  constructor
  · rintro ⟨hfits, txn, htxn, hdue, hintime⟩
    obtain ⟨retryDeadline, hadd, heq⟩ := Option.map_eq_some_iff.1 htxn
    injection heq with heq
    subst heq
    dsimp only at hdue hintime
    obtain ⟨hbound, hadd⟩ := addSecs_eq_some.1 hadd
    have htime := (retrySecs_due hfits now).1 (hadd.symm.trans hdue)
    have hzero : t.userDeadline - o.totalTime = 0 := by omega
    rw [hzero, Nat.add_zero] at hdue
    rw [← hadd, hdue] at hbound
    rw [hdue, hwake] at hintime
    exact ⟨htime, hfits.1, hbound, hintime⟩
  · rintro ⟨htime, hsum, hbound, hintime⟩
    have hfits : Fits c t.userDeadline o.totalTime := by
      refine ⟨hsum, ?_⟩
      omega
    have hdue := (retrySecs_due hfits now).2 htime
    have hzero : t.userDeadline - o.totalTime = 0 := by omega
    rw [hzero, Nat.add_zero] at hdue ⊢
    rw [← hdue] at hbound
    have hadd := addSecs_eq_some.2 ⟨hbound, hdue.symm⟩
    refine ⟨hfits, _, by rw [hadd]; rfl, rfl, ?_⟩
    rw [hwake]
    exact hintime

namespace Sample

def config : Config := ⟨10, 1, 0⟩

def given (totalTime : ℕ) : Option (Option JobOutput) :=
  some (some { output := [1], errorCode := 0, totalTime := totalTime })

def task : TimeoutTask := ⟨7, 5000, 0, .spawned⟩

def session : Session := { listener := { lastBlockSeen := 0 } }

theorem retryDeadline_sample :
    ∃ txn, handleJob config 5000 (fun _ _ => some []) 7 none 0 5001 = some (some txn) ∧
      txn.retryDeadline ≤ 16000 := by
  have hpoll : task.step config session .poll =
      some (session, { task with pc := .sleeping 16000 }) := rfl
  have h := (@retryDeadline_iff config (fun _ _ => some []) 7 0 none _ [] session session task 16000
    rfl rfl hpoll 5001).2 (by decide)
  obtain ⟨-, txn, htxn, -, hintime⟩ := h
  exact ⟨txn, htxn, hintime⟩

/-- Four seconds before the deadline of the job is over an hour; eleven after it wraps around. -/
theorem retryDeadline_late :
    handleJob config 5000 (fun _ _ => some []) 7 (given 1000) 0 1100 = some (some
        ⟨⟨.output, 7, some { output := [1], errorCode := 0, totalTime := 1000 }⟩, 4011100⟩) ∧
      handleJob config 5000 (fun _ _ => some []) 7 (given 5011) 0 5100 = none := by
  have hlate : addSecs 1100 (retrySecs config 5000 1000) = some 4011100 := by
    simp [addSecs, retrySecs, config, u64Bound, instantBound]
  have hwrapped : addSecs 5100 (retrySecs config 5000 5011) = none := by
    simp [addSecs, retrySecs, config, u64Bound, instantBound]
  have hearly : finalOutput 5000 (given 1000) = some ⟨[1], 0, 1000, 0, []⟩ := rfl
  have hpast : finalOutput 5000 (given 5011) = some ⟨[1], 0, 5011, 0, []⟩ := rfl
  constructor
  · rw [handleJob_signed hearly rfl, hlate]
    rfl
  · rw [handleJob_signed hpast rfl, hwrapped]
    rfl

end Sample

end Oyster.Executor
