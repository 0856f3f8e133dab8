import Oyster.Executor.Provenance
import Oyster.Executor.Signing

namespace Oyster.Executor

open Spawn

variable {W T : Type} {env : Env W T}

/-- The executor with its enclave key and its contract. -/
def enclaveEnv (crypto : Crypto) (config : Config) (jobCapacity : ℕ) (jobsContractAddr : H160)
    (fromBytes : List UInt8 → Option W) : Env W Eip1559TransactionRequest where
  config := config
  jobCapacity := jobCapacity
  fromBytes := fromBytes
  generateTxn := generateTxn crypto jobsContractAddr
  sign := signResponse crypto
  signRegistration := signRegistration crypto jobCapacity

section Sample

abbrev SampleState := AppState ℕ Eip1559TransactionRequest

abbrev SampleProc := Proc ℕ Eip1559TransactionRequest

def sampleEnv : Env ℕ Eip1559TransactionRequest :=
  enclaveEnv heads ⟨10, 1, 0⟩ 1 H160.zero fun bs => some bs.length

def sampleSignature : List UInt8 := List.replicate 64 0 ++ [27]

def zeros (n : ℕ) : List UInt8 := List.replicate (2 * n) 48

def sampleLog : JobCreatedLog := ⟨some false, some 5, 7, 1, some ⟨[], [], 5000, [0]⟩⟩

def sampleActions : List Action :=
  [.enter 7, .handleTimeout 7 5000, .handleJob 7 (hexText []) [] 5000]

def sampleResponse : JobsTxnMetadata JobsTxn :=
  ⟨⟨.output, 7, some ⟨[], 0, 5000, 0, sampleSignature⟩⟩, 10000⟩

def configured : SampleState where
  immutableParamsInjected := true
  mutableParamsInjected := true
  node :=
    { httpRpcClient := some 32
      history := { obtainedFor := some 32, injected := some (0, 0) } }

def listening : SampleState :=
  { configured with
    eventsListenerActive := true
    listener := { lastBlockSeen := 4 }
    registeredAt := some 4
    connections := 1 }

def answers : List SampleProc :=
  [.answered (.ok "Immutable params configured!\n"), .answered (.ok "Mutable params configured!\n")]

def sampleMessage : RegistrationMessage := ⟨1, 0, 1, H160.zero, sampleSignature⟩

def connection : List SampleProc :=
  [.answered (.registration sampleMessage), .handling 3 0, .resending 0 .idle]

def submitting : System SampleState SampleProc where
  shared :=
    { listening with
      listener := { lastBlockSeen := 5, jobRequestsRunning := {7} }
      channel := Function.update (Function.update (fun _ => []) 0 [sampleResponse]) 0 []
      node := Task.sign listening.node 32 ⟨0, 0, false⟩
      handled := [⟨some 4, sampleLog, sampleActions⟩] }
  tasks := answers ++ connection ++
    [.sending 0 (.sending 32 ⟨0, 0, false⟩ 0) (some sampleResponse),
      .timeout 0 ⟨7, 5000, 0, .spawned⟩, .finished]

theorem injectImmutableConfig_zeros (s : SampleState) (h : s.immutableParamsInjected = false) :
    injectImmutableConfig (zeros 20) s = (.ok "Immutable params configured!\n",
      { s with enclaveOwner := H160.zero, immutableParamsInjected := true }) := by
  unfold injectImmutableConfig
  rw [h]
  rfl

theorem configured_run :
    Run (Step Outside (Own sampleEnv)) (⟨{}, []⟩ : System SampleState SampleProc)
      (.begin (.immutableConfig (zeros 20)) :: .own 0 () :: .begin (.mutableConfig (zeros 32)) ::
        List.replicate 5 (.own 1 ()))
      ⟨configured, answers⟩ :=
  .cons (.begin trivial) <|
  .cons (.own rfl (.immutableConfig (injectImmutableConfig_zeros _ rfl))) <|
  .cons (.begin trivial) <|
  .cons (.own rfl (.mutableConfig rfl)) <|
  .cons (.own rfl (@Own.nonceCount _ _ _ _ _ _ 0)) <|
  .cons (.own rfl (.writeNonce rfl)) <|
  .cons (.own rfl (.writeClient rfl)) <|
  .cons (.own rfl .writeFlag) <|
  .nil _

theorem listening_run : Run (Step Outside (Own sampleEnv)) ⟨configured, answers⟩
    (.begin .registration :: List.replicate 6 (.own 2 ()) ++ List.replicate 3 (.own 3 ()))
    ⟨listening, answers ++ connection ++ [.sending 0 .waiting none]⟩ :=
  .cons (.begin trivial) <|
  .cons (.own rfl (.registration rfl)) <|
  .cons (.own rfl (.registrationMutable rfl)) <|
  .cons (.own rfl (@Own.registrationOwner _ _ _ sampleEnv _ 0 _ rfl)) <|
  .cons (.own rfl (.registrationClient rfl)) <|
  .cons (.own rfl (@Own.registrationBlock _ _ _ _ _ _ (some 3))) <|
  .cons (.own rfl (.registrationListen rfl)) <|
  .cons (.own rfl (.connected rfl)) <|
  .cons (.own rfl (@Own.registered _ _ _ _ _ _ _ (some false) (some 4) rfl)) <|
  .cons (.own rfl .subscribed) <|
  .nil _

theorem handleJob_sample : handleJob sampleEnv.config 5000 sampleEnv.sign 7
    (some (some ⟨[], 0, 5000, 0, []⟩)) 0 0 = some (some sampleResponse) := by
  have hdeadline : addSecs 0 (retrySecs sampleEnv.config 5000 5000) = some 10000 := by decide
  rw [handleJob_signed rfl rfl, hdeadline]
  rfl

theorem submitting_run : Run (Step Outside (Own sampleEnv))
    ⟨listening, answers ++ connection ++ [.sending 0 .waiting none]⟩
    (.own 3 () :: .own 7 () :: List.replicate 4 (.own 5 ())) submitting :=
  .cons (.own rfl (@Own.created _ _ _ _ _ _ _ sampleLog _ sampleActions rfl)) <|
  .cons (.own rfl
    (@Own.job _ _ _ _ _ _ _ _ 5000 0 _ sampleResponse rfl handleJob_sample)) <|
  .cons (.own rfl (.received rfl rfl rfl)) <|
  .cons (.own rfl (.sending (e := .estimated 0 0) nofun nofun rfl)) <|
  .cons (.own rfl (.sending (e := .go) nofun nofun rfl)) <|
  .cons (.own rfl (.sending (e := .go) nofun nofun rfl)) <|
  .nil _

theorem submitting_reached : Reached sampleEnv submitting :=
  ⟨_, configured_run.append (listening_run.append submitting_run)⟩

end Sample

/-- What holds of the listener, its flag and the registration. -/
structure Listening (s : System (AppState W T) (Proc W T)) : Prop where
  one : ∀ (i j : ℕ) (t u : Proc W T), s.tasks[i]? = some t → s.tasks[j]? = some u →
    t.listens = 1 → u.listens = 1 → i = j
  flag : s.shared.eventsListenerActive = true ↔ ∃ t ∈ s.tasks, t.listens = 1
  registered : s.shared.listener.enclaveRegistered = true → ∃ t ∈ s.tasks, t.listens = 1
  /-- events are handled while the enclave is registered -/
  handling : ∀ start k, .handling start k ∈ s.tasks → s.shared.listener.enclaveRegistered = true

/-- The owner that a task has given out, or listens for. -/
def Proc.owner : Proc W T → Option H160
  | .answered (.registration message) | .registrationListen message _ => some message.owner
  | .registering _ owner => some owner
  | _ => none

def Proc.unwraps : Proc W T → Prop
  | .detailsClient | .registrationClient _ | .sending _ _ _ | .resending _ _ => True
  | _ => False

/-- What a task has passed to the RPC, while it waits for the answer: a call, or nothing but the
nonce. -/
def Proc.submitted (env : Env W T) : Proc W T → Option (Option T)
  | .sending _ (.sending _ _ _) jobResponse => some (jobResponse.bind env.generateTxn)
  | .resending _ (.sending txn _ _) | .resending _ (.sendingDummy txn _) => some txn.payload
  | _ => none

/-- The response to a job that was created in a block since the registration of that time; its
output is signed, and this enclave was selected. -/
structure Justified (env : Env W T) (s : AppState W T) (m : JobsTxnMetadata JobsTxn) : Prop where
  created : ∃ x ∈ s.handled, ∃ first b d, x.registeredAt = some first ∧
    x.log.request = some (b, d) ∧ first ≤ b ∧ x.log.jobId = m.job.jobId ∧
    (m.job.txnType = .output → env.config.enclaveAddress ∈ d.selectedExecutors)
  output : m.job.txnType = .output → SignedOutput env m.job.jobId m.job.jobOutput

theorem mem_actionsFor {c : Config} {jobId : ℕ} {d : JobData} {a : Action}
    (h : a ∈ actionsFor c jobId d) :
    (∀ id userDeadline, a = .handleTimeout id userDeadline → id = jobId) ∧
      ∀ id codeHash codeInputs userDeadline, a = .handleJob id codeHash codeInputs userDeadline →
        id = jobId ∧ c.enclaveAddress ∈ d.selectedExecutors := by
  rcases List.mem_cons.1 h with rfl | h
  · exact ⟨nofun, nofun⟩
  rcases List.mem_cons.1 h with rfl | h
  · refine ⟨fun id userDeadline heq => ?_, nofun⟩
    cases heq
    rfl
  · split at h
    next hselected =>
      rw [List.mem_singleton.1 h]
      refine ⟨nofun, fun id codeHash codeInputs userDeadline heq => ?_⟩
      cases heq
      exact ⟨rfl, hselected⟩
    · exact absurd h List.not_mem_nil

theorem Asked.justified {s : AppState W T} {m : JobsTxnMetadata JobsTxn} (h : Asked env s m)
    (hi : Inv env s) : Justified env s m := by
  unfold Asked at h
  split at h
  next htype =>
    obtain ⟨⟨x, hx, codeHash, codeInputs, userDeadline, hjob⟩, hout⟩ := h
    refine ⟨⟨x, hx, ?_⟩, fun _ => hout⟩
    rcases hi.handled x hx with hnone | ⟨first, b, d, hfirst, hreq, hle, hactions⟩
    · rw [hnone] at hjob
      exact absurd hjob List.not_mem_nil
    · rw [hactions] at hjob
      obtain ⟨hid, hselected⟩ := (mem_actionsFor hjob).2 _ _ _ _ rfl
      exact ⟨first, b, d, hfirst, hreq, hle, hid.symm, fun _ => hselected⟩
  next htype =>
    obtain ⟨x, hx, userDeadline, htimeout⟩ := h
    have hnot : m.job.txnType ≠ .output := by
      rw [htype]
      exact nofun
    refine ⟨⟨x, hx, ?_⟩, fun h => absurd h hnot⟩
    rcases hi.handled x hx with hnone | ⟨first, b, d, hfirst, hreq, hle, hactions⟩
    · rw [hnone] at htimeout
      exact absurd htimeout List.not_mem_nil
    · rw [hactions] at htimeout
      have hid := (mem_actionsFor htimeout).1 _ _ rfl
      exact ⟨first, b, d, hfirst, hreq, hle, hid.symm, fun h => absurd h hnot⟩

variable [DecidableEq W] {s : System (AppState W T) (Proc W T)}

/-- At most one listener is there, and it is there exactly while the flag is set. -/
theorem one_listener (h : Reached env s) : Listening s := by
  have hholds := h.holds
  have htokens := hholds.tokens
  have hflag : s.shared.eventsListenerActive = true ↔ ∃ t ∈ s.tasks, t.listens = 1 := by
    constructor
    · intro hactive
      by_contra hnone
      have hzero : (s.tasks.map Proc.listens).sum = 0 := by
        rw [List.sum_eq_zero_iff]
        intro n hn
        obtain ⟨t, ht, rfl⟩ := List.mem_map.1 hn
        have hle := t.listens_le
        have hne : t.listens ≠ 1 := fun hone => hnone ⟨t, ht, hone⟩
        omega
      rw [hzero, AppState.free, if_pos hactive] at htokens
      exact absurd htokens Nat.zero_ne_one
    · rintro ⟨t, ht, hone⟩
      obtain ⟨i, hi⟩ := List.mem_iff_getElem?.1 ht
      have hle := @held_le _ Proc.listens _ _ _ hi
      by_contra hinactive
      rw [AppState.free, if_neg hinactive] at htokens
      omega
  refine ⟨fun i j t u hi hj ht hu => ?_, hflag, fun hregistered => ?_, fun start k hmem => ?_⟩
  · exact hholds.unique hi hj (by omega) (by omega)
  · refine hflag.1 ?_
    by_contra hinactive
    have hoff := hholds.shared.active (Bool.eq_false_iff.2 hinactive)
    exact absurd (hoff.symm.trans hregistered) Bool.false_ne_true
  · exact (hholds.tasks _ hmem).2

theorem one_listener_sample : Listening submitting := one_listener submitting_reached

/-- No endpoint and no task finds that there is no client. -/
theorem client_there (h : Reached env s) :
    (∀ t ∈ s.tasks, t.unwraps → s.shared.node.httpRpcClient.isSome) ∧ .panicked ∉ s.tasks := by
  have hholds := h.holds
  refine ⟨fun t ht hunwraps => ?_, fun hmem => hholds.tasks _ hmem⟩
  have hknown := hholds.tasks t ht
  cases t with
  | detailsClient => exact hknown
  | registrationClient => exact hknown.set.client
  | sending | resending => exact hknown.1
  | _ => exact False.elim hunwraps

theorem client_there_sample :
    (∀ t ∈ submitting.tasks, t.unwraps → submitting.shared.node.httpRpcClient.isSome) ∧
      .panicked ∉ submitting.tasks :=
  client_there submitting_reached

/-- One owner is given out and listened for, in what was answered so far and in what is to come. -/
theorem one_owner (h : Reached env s) :
    (∀ t ∈ s.tasks, ∀ owner, t.owner = some owner →
      owner = s.shared.enclaveOwner ∧ s.shared.immutableParamsInjected = true) ∧
    (∀ message, .answered (.registration message) ∈ s.tasks →
      message.jobCapacity = env.jobCapacity ∧ message.env = executionEnvId ∧
        env.signRegistration message.owner message.signTimestamp = some message.signature) ∧
    ∀ ls s', Run (Step Outside (Own env)) s ls s' → s.shared.immutableParamsInjected = true →
      s'.shared.enclaveOwner = s.shared.enclaveOwner := by
  have hholds := h.holds
  refine ⟨fun t ht owner howner => ?_, fun message hmem => ?_, fun ls s' hrun himmutable => ?_⟩
  · have hknown := hholds.tasks t ht
    cases t with
    | registrationListen =>
      cases howner
      exact ⟨hknown.owner, hknown.set.immutable⟩
    | answered response =>
      cases response with
      | registration =>
        cases howner
        exact ⟨hknown.owner, hknown.set.immutable⟩
      | _ => cases howner
    | registering =>
      cases howner
      exact ⟨hknown.2, hknown.1.immutable⟩
    | _ => cases howner
  · have hknown := hholds.tasks _ hmem
    exact ⟨hknown.capacity, hknown.environment, hknown.signature⟩
  · have hkeeps : ∀ s₁ l s₂, Step Outside (Own env) s₁ l s₂ →
        s₁.shared.immutableParamsInjected = true ∧
          s₁.shared.enclaveOwner = s.shared.enclaveOwner →
        s₂.shared.immutableParamsInjected = true ∧
          s₂.shared.enclaveOwner = s.shared.enclaveOwner := by
      intro s₁ l s₂ hst hkept
      cases hst with
      | begin => exact hkept
      | own _ hown =>
        obtain ⟨himm, howner⟩ := hown.later.immutable hkept.1
        exact ⟨himm, howner.trans hkept.2⟩
    exact (hrun.invariant (fun _ _ _ hkept hst => hkeeps _ _ _ hst hkept)
      ⟨himmutable, rfl⟩).2

theorem one_owner_sample :
    sampleMessage.owner = submitting.shared.enclaveOwner ∧
      submitting.shared.immutableParamsInjected = true :=
  (one_owner submitting_reached).1 (.answered (.registration sampleMessage)) (by simp [submitting,
    connection]) _ rfl

theorem submitted_justified (h : Reached env s) {t : Proc W T} (ht : t ∈ s.tasks) {call : T}
    (hcall : t.submitted env = some (some call)) :
    ∃ m, Justified env s.shared m ∧ env.generateTxn m = some call := by
  have hholds := h.holds
  have hknown := hholds.tasks t ht
  cases t with
  | sending k t jobResponse =>
    cases t with
    | sending client a nonce =>
      obtain ⟨m, hm, htxn⟩ := Option.bind_eq_some_iff.1 (Option.some.inj hcall)
      exact ⟨m, (hknown.2.2 m hm).1.justified hholds.shared, htxn⟩
    | _ => cases hcall
  | resending k t =>
    cases t with
    | sending txn p sendDummy =>
      have hasked := hknown.2.1 p rfl
      exact ⟨p.txnData, hasked.justified hholds.shared, hknown.2.2.2.trans (Option.some.inj hcall)⟩
    | sendingDummy txn p =>
      have hnone : txn.payload = none := hknown.2.2
      rw [Proc.submitted, hnone] at hcall
      cases hcall
    | _ => cases hcall
  | _ => cases hcall

theorem sender_submits (h : Reached env s) {k : ℕ} {t : Task W}
    {jobResponse : Option (JobsTxnMetadata JobsTxn)} (hmem : .sending k t jobResponse ∈ s.tasks) :
    Proc.submitted env (.sending k t jobResponse) ≠ some none := by
  intro hnone
  have hknown := h.holds.tasks _ hmem
  cases t with
  | sending client a nonce =>
    obtain ⟨m, rfl⟩ := Option.isSome_iff_exists.1 (hknown.2.1 rfl)
    have htxn := (hknown.2.2 m rfl).2
    have hcall : env.generateTxn m = none := Option.some.inj hnone
    rw [hcall] at htxn
    cases htxn
  | _ => cases hnone

/-- A job of this number was created in a block since the registration of that time, with this
enclave among the selected if it `runs` here. -/
def CreatedSince (c : Config) (s : AppState W T) (jobId : Abi.Word) (runs : Prop) : Prop :=
  ∃ x ∈ s.handled, ∃ first b d, x.registeredAt = some first ∧ x.log.request = some (b, d) ∧
    first ≤ b ∧ BitVec.ofNat 256 x.log.jobId = jobId ∧
    (runs → c.enclaveAddress ∈ d.selectedExecutors)

/-- Every call goes to the contract and is for a job that was created while the enclave was
registered: it slashes, or it submits an output with the signature of what it carries, of a job
that this enclave was selected for. Only a resender submits nothing. -/
theorem calls_authentic {crypto : Crypto} {config : Config} {jobCapacity : ℕ}
    {jobsContractAddr : H160} {fromBytes : List UInt8 → Option W}
    {s : System (AppState W Eip1559TransactionRequest) (Proc W Eip1559TransactionRequest)}
    (h : Reached (enclaveEnv crypto config jobCapacity jobsContractAddr fromBytes) s) :
    (∀ t ∈ s.tasks, ∀ call : Eip1559TransactionRequest,
      t.submitted (enclaveEnv crypto config jobCapacity jobsContractAddr fromBytes) =
        some (some call) → call.data.length < 2 ^ 256 →
      call.toAddr = jobsContractAddr ∧ ∃ jobId,
        Slashes crypto call.data jobId ∧ CreatedSince config s.shared jobId False ∨
        Submits crypto call.data jobId ∧ CreatedSince config s.shared jobId True) ∧
    ∀ k t jobResponse, .sending k t jobResponse ∈ s.tasks →
      Proc.submitted (enclaveEnv crypto config jobCapacity jobsContractAddr fromBytes)
        (.sending k t jobResponse) ≠ some none := by
  refine ⟨fun t ht call hcall hlen => ?_, fun k t jobResponse hmem => sender_submits h hmem⟩
  obtain ⟨m, hm, htxn⟩ := submitted_justified h ht hcall
  obtain ⟨x, hx, first, b, d, hfirst, hreq, hle, hid, hselected⟩ := hm.created
  refine ⟨toAddr_generateTxn htxn, BitVec.ofNat 256 m.job.jobId, ?_⟩
  cases htype : m.job.txnType with
  | output =>
    exact .inr ⟨submits_generateTxn htxn htype (hm.output htype) hlen, x, hx, first, b, d, hfirst,
      hreq, hle, congrArg _ hid, fun _ => hselected htype⟩
  | timeout =>
    exact .inl ⟨slashes_generateTxn htxn htype hlen, x, hx, first, b, d, hfirst, hreq, hle,
      congrArg _ hid, False.elim⟩

def sampleCall : Eip1559TransactionRequest where
  toAddr := H160.zero
  data := encodeInput heads submitOutputSignature
    [.bytes sampleSignature, .uint 7, .bytes [], .uint 5000, .uint 0, .uint 0]

theorem calls_authentic_sample : ∃ jobId,
    Slashes heads sampleCall.data jobId ∧ CreatedSince ⟨10, 1, 0⟩ submitting.shared jobId False ∨
    Submits heads sampleCall.data jobId ∧ CreatedSince ⟨10, 1, 0⟩ submitting.shared jobId True :=
  ((calls_authentic submitting_reached).1 (.sending 0 (.sending 32 ⟨0, 0, false⟩ 0)
    (some sampleResponse)) (by simp [submitting]) sampleCall rfl (by
      rw [sampleCall, encodeInput, List.length_append, Abi.length_encodeArgs]
      decide +kernel)).2

end Oyster.Executor
