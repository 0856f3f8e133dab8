import Oyster.Executor.Lifecycle
import Oyster.Executor.Nonce

namespace Oyster.Executor

open Spawn

variable {W T : Type} {env : Env W T} {s s' : AppState W T} {t t' u : Proc W T}
  {spawned : List (Proc W T)}

/-- A handled log was a request of a block no earlier than the registration, or nothing was done
for it. -/
def Handled.Due (env : Env W T) (h : Handled) : Prop :=
  h.actions = [] ∨ ∃ first b d, h.registeredAt = some first ∧ h.log.request = some (b, d) ∧
    first ≤ b ∧ h.actions = actionsFor env.config h.log.jobId d

def AskedTimeout (s : AppState W T) (jobId : ℕ) : Prop :=
  ∃ h ∈ s.handled, ∃ userDeadline, .handleTimeout jobId userDeadline ∈ h.actions

/-- The job was asked for. -/
def AskedJob (s : AppState W T) (jobId : ℕ) : Prop :=
  ∃ h ∈ s.handled, ∃ codeHash codeInputs userDeadline,
    .handleJob jobId codeHash codeInputs userDeadline ∈ h.actions

def SignedOutput (env : Env W T) (jobId : ℕ) (output : Option JobOutput) : Prop :=
  ∃ o signature, env.sign jobId o = some signature ∧
    output = some { o with signature := signature }

def Asked (env : Env W T) (s : AppState W T) (m : JobsTxnMetadata JobsTxn) : Prop :=
  match m.job.txnType with
  | .output => AskedJob s m.job.jobId ∧ SignedOutput env m.job.jobId m.job.jobOutput
  | .timeout => AskedTimeout s m.job.jobId

structure Set (s : AppState W T) : Prop where
  client : s.node.httpRpcClient.isSome
  immutable : s.immutableParamsInjected = true

/-- A registration message of this enclave, for the owner that it has. -/
structure Issued (env : Env W T) (s : AppState W T) (message : RegistrationMessage) : Prop where
  set : Set s
  owner : message.owner = s.enclaveOwner
  capacity : message.jobCapacity = env.jobCapacity
  environment : message.env = executionEnvId
  signature : env.signRegistration message.owner message.signTimestamp = some message.signature

/-- What a resender passes to the RPC is a call for a response that was asked for, or pays
nothing to its own sender. -/
def ResendKnown (env : Env W T) (s : AppState W T) (t : Resend W JobsTxn T) : Prop :=
  (∀ p, t.held = some p → Asked env s p.txnData) ∧
    match t with
    | .sending txn p _ => txn.payload.isSome ∧ env.generateTxn p.txnData = txn.payload
    | .sendingDummy txn _ | .confirming txn _ => txn.payload = none
    | _ => True

def Task.busy : Task W → Bool
  | .waiting | .stopped => false
  | _ => true

/-- What is known where a task stands. -/
def Known (env : Env W T) (s : AppState W T) : Proc W T → Prop
  | .writeFlag | .detailsClient => s.node.httpRpcClient.isSome
  | .registrationMutable => s.immutableParamsInjected = true
  | .registrationOwner => Set s
  | .registrationClient message | .registrationBlock message | .registrationListen message _
  | .answered (.registration message) => Issued env s message
  | .connecting _ | .left _ => Set s
  | .registering _ owner => Set s ∧ owner = s.enclaveOwner
  | .subscribing _ | .handling _ _ => Set s ∧ s.listener.enclaveRegistered = true
  | .returning => Set s ∧ s.listener.enclaveRegistered = false
  | .sending _ t jobResponse =>
    s.node.httpRpcClient.isSome ∧ (t.busy = true → jobResponse.isSome) ∧
      ∀ m, jobResponse = some m → Asked env s m ∧ (env.generateTxn m).isSome
  | .resending _ t => s.node.httpRpcClient.isSome ∧ ResendKnown env s t
  | .timeout _ t => AskedTimeout s t.jobId
  | .job _ jobId _ => AskedJob s jobId
  | .panicked => False
  | _ => True

structure Inv (env : Env W T) (s : AppState W T) : Prop where
  client : s.mutableParamsInjected = true → s.node.httpRpcClient.isSome
  active : s.eventsListenerActive = false → s.listener.enclaveRegistered = false
  registered : s.listener.enclaveRegistered = true →
    ∃ first, s.registeredAt = some first ∧ first ≤ s.listener.lastBlockSeen
  handled : ∀ h ∈ s.handled, h.Due env
  channel : ∀ k, ∀ m ∈ s.channel k, Asked env s m
  pending : ∀ k, ∀ p ∈ s.pending k, Asked env s p.txnData

/-- A listener, from the moment at which it is spawned until it gives the flag back. -/
def Proc.listens : Proc W T → ℕ
  | .connecting _ | .registering _ _ | .subscribing _ | .handling _ _ | .left _ | .returning => 1
  | _ => 0

theorem Proc.listens_le (t : Proc W T) : t.listens ≤ 1 := by
  unfold Proc.listens
  split <;> decide

/-- The flag is the token of the listener. -/
def AppState.free (s : AppState W T) : ℕ := if s.eventsListenerActive then 0 else 1

theorem Task.step_client {node node' : Node W} {t t' : Task W} {e : TaskEvent}
    (h : t.step node e = some (node', t')) : node'.httpRpcClient = node.httpRpcClient := by
  rcases Task.step_cases h with ⟨rfl, -⟩ | ⟨_, _, -, -, -, rfl, -⟩ | ⟨_, _, _, -, -, rfl, -⟩ |
    ⟨_, _, _, -, -, rfl, -⟩ | ⟨-, rfl, -⟩
  all_goals rfl

theorem Task.step_busy {node node' : Node W} {t t' : Task W} {e : TaskEvent}
    (h : t.step node e = some (node', t')) (he : e ≠ .received) (ht' : t'.busy = true) :
    t.busy = true := by
  cases t with
  | waiting =>
    cases e with
    | received => exact absurd rfl he
    | closed =>
      cases h
      exact ht'
    | _ => cases h
  | stopped => cases e <;> cases h
  | _ => rfl

/-- A timeout changes the running jobs at most, and puts its own job on the channel. -/
structure TimeoutFrame (session session' : Session) (t t' : TimeoutTask) : Prop where
  lastBlockSeen : session'.listener.lastBlockSeen = session.listener.lastBlockSeen
  registered : session'.listener.enclaveRegistered = session.listener.enclaveRegistered
  jobId : t'.jobId = t.jobId
  channel : ∀ x ∈ session'.channel, x ∈ session.channel ∨ x.jobId = t.jobId

theorem TimeoutTask.step_frame {c : Config} {session session' : Session} {t t' : TimeoutTask}
    {e : TimeoutEvent} (h : t.step c session e = some (session', t')) :
    TimeoutFrame session session' t t' := by
  have hsame : ∀ pc, TimeoutFrame session session t { t with pc := pc } := fun _ =>
    ⟨rfl, rfl, rfl, fun _ hx => .inl hx⟩
  unfold TimeoutTask.step at h
  split at h
  · split at h <;> cases h <;> exact hsame _
  · split at h
    · split at h <;> cases h <;> exact hsame _
    · cases h
  · cases h
    refine ⟨rfl, rfl, rfl, fun x hx => ?_⟩
    rcases List.mem_append.1 hx with hx | hx
    · exact .inl hx
    · cases List.mem_singleton.1 hx
      exact .inr rfl
  · cases h
    exact hsame _
  · cases h
    exact ⟨rfl, rfl, rfl, fun _ hx => .inl hx⟩
  · cases h

theorem injectClient_client {node : Node W} {senders : Senders W}
    (h : Senders.step ⟨node, []⟩ .injectClient = some senders) :
    senders.node.httpRpcClient.isSome := by
  simp only [Senders.step] at h
  split at h
  · cases h
  · cases h
    rfl

theorem injectNonce_client {node : Node W} {senders : Senders W} {wallet : W} {nonce : ℕ}
    (h : Senders.step ⟨node, []⟩ (.injectNonce wallet nonce) = some senders) :
    senders.node.httpRpcClient = node.httpRpcClient := by
  simp only [Senders.step] at h
  split at h
  · cases h
  · cases h
    rfl

theorem injectImmutableConfig_cases {hex : List UInt8} {response : Response W}
    (h : injectImmutableConfig hex s = (response, s')) :
    (∀ message, response ≠ .registration message) ∧
      (s' = s ∨ s.immutableParamsInjected = false ∧
        ∃ owner, s' = { s with enclaveOwner := owner, immutableParamsInjected := true }) := by
  unfold injectImmutableConfig at h
  split at h
  · cases h
    exact ⟨nofun, .inl rfl⟩
  next himm =>
    split at h
    · cases h
      exact ⟨nofun, .inl rfl⟩
    · split at h
      · cases h
        exact ⟨nofun, .inr ⟨Bool.eq_false_iff.2 himm, _, rfl⟩⟩
      · cases h
        exact ⟨nofun, .inl rfl⟩

structure Later (s s' : AppState W T) : Prop where
  client : s.node.httpRpcClient.isSome → s'.node.httpRpcClient.isSome
  immutable : s.immutableParamsInjected = true →
    s'.immutableParamsInjected = true ∧ s'.enclaveOwner = s.enclaveOwner
  handled : s.handled ⊆ s'.handled

theorem Later.refl (s : AppState W T) : Later s s := ⟨id, fun h => ⟨h, rfl⟩, fun _ h => h⟩

theorem handleJobCreated_registered (c : Config) (l : Listener) (log : JobCreatedLog) :
    (handleJobCreated c l log).1.enclaveRegistered = l.enclaveRegistered ∧
      l.lastBlockSeen ≤ (handleJobCreated c l log).1.lastBlockSeen := by
  unfold handleJobCreated
  split
  · exact ⟨rfl, le_rfl⟩
  · split
    · exact ⟨rfl, le_rfl⟩
    next b _ =>
      split
      · exact ⟨rfl, le_rfl⟩
      next hle =>
        dsimp only
        split
        · exact ⟨rfl, Nat.le_of_not_lt hle⟩
        · split
          · exact ⟨rfl, Nat.le_of_not_lt hle⟩
          · exact ⟨rfl, Nat.le_of_not_lt hle⟩

theorem handleJobResponded_registered (c : Config) (l : Listener) (log : JobRespondedLog) :
    (handleJobResponded c l log).enclaveRegistered = l.enclaveRegistered ∧
      l.lastBlockSeen ≤ (handleJobResponded c l log).lastBlockSeen := by
  unfold handleJobResponded
  split
  · exact ⟨rfl, le_rfl⟩
  · split
    · exact ⟨rfl, le_rfl⟩
    next b _ =>
      split
      · exact ⟨rfl, le_rfl⟩
      next hle =>
        dsimp only
        split
        · exact ⟨rfl, Nat.le_of_not_lt hle⟩
        · split
          · exact ⟨rfl, Nat.le_of_not_lt hle⟩
          · exact ⟨rfl, Nat.le_of_not_lt hle⟩

theorem spawn_listens (k now : ℕ) (actions : List Action) :
    ((spawn k now actions : List (Proc W T)).map Proc.listens).sum = 0 := by
  rw [List.sum_eq_zero_iff]
  intro n hn
  obtain ⟨u, hu, rfl⟩ := List.mem_map.1 hn
  rcases List.mem_append.1 hu with hu | hu
  · obtain ⟨_, -, rfl⟩ := List.mem_map.1 hu
    rfl
  · obtain ⟨a, -, ha⟩ := List.mem_filterMap.1 hu
    split at ha
    · cases ha
      rfl
    · cases ha

variable [DecidableEq W]

theorem Own.later {e : Unit} (h : Own env s t e s' t' spawned) : Later s s' := by
  cases h with
  | immutableConfig hinject =>
    obtain ⟨-, rfl | ⟨himm, owner, rfl⟩⟩ := injectImmutableConfig_cases hinject
    · exact .refl _
    · exact ⟨id, fun himm' => absurd (himm.symm.trans himm') Bool.false_ne_true, fun _ h => h⟩
  | writeNonce h =>
    exact ⟨fun hc => (injectNonce_client h).symm ▸ hc, fun h => ⟨h, rfl⟩, fun _ h => h⟩
  | writeClient h => exact ⟨fun _ => injectClient_client h, fun h => ⟨h, rfl⟩, fun _ h => h⟩
  | received _ _ h | accepted h | sending _ _ h =>
    exact ⟨fun hc => (Task.step_client h).symm ▸ hc, fun h => ⟨h, rfl⟩, fun _ h => h⟩
  | created => exact ⟨id, fun h => ⟨h, rfl⟩, List.subset_append_left _ _⟩
  | _ => exact ⟨id, fun h => ⟨h, rfl⟩, fun _ h => h⟩

theorem Own.registered_eq {e : Unit} (h : Own env s t e s' t' spawned) (ht : t.listens = 0) :
    s'.listener.enclaveRegistered = s.listener.enclaveRegistered := by
  cases h with
  | immutableConfig hinject =>
    obtain ⟨-, rfl | ⟨-, _, rfl⟩⟩ := injectImmutableConfig_cases hinject
    all_goals rfl
  | timeout h => exact (TimeoutTask.step_frame h).registered
  | registered | created | responded | deregistered => cases ht
  | _ => rfl

theorem Own.tokens {e : Unit} (h : Own env s t e s' t' spawned) (hle : s.free + t.listens ≤ 1) :
    s'.free + t'.listens + (spawned.map Proc.listens).sum = s.free + t.listens := by
  cases h with
  | immutableConfig hinject =>
    obtain ⟨-, rfl | ⟨-, _, rfl⟩⟩ := injectImmutableConfig_cases hinject
    all_goals rfl
  | registrationListen hactive =>
    unfold AppState.free
    rw [hactive]
    rfl
  | returning =>
    cases hactive : s.eventsListenerActive with
    | true => simp [AppState.free, Proc.listens, hactive]
    | false => simp [AppState.free, Proc.listens, hactive] at hle
  | registeringEnded | left => split <;> rfl
  | created => rw [spawn_listens]; rfl
  | _ => rfl

omit [DecidableEq W] in
theorem Asked.later {m : JobsTxnMetadata JobsTxn} (h : Asked env s m) (hl : Later s s') :
    Asked env s' m := by
  unfold Asked at h ⊢
  split at h
  · obtain ⟨⟨x, hx, hjob⟩, hout⟩ := h
    exact ⟨⟨x, hl.handled hx, hjob⟩, hout⟩
  · obtain ⟨x, hx, htimeout⟩ := h
    exact ⟨x, hl.handled hx, htimeout⟩

omit [DecidableEq W] in
theorem Set.later (h : Set s) (hl : Later s s') : Set s' :=
  ⟨hl.client h.client, (hl.immutable h.immutable).1⟩

omit [DecidableEq W] in
theorem Issued.later {message : RegistrationMessage} (h : Issued env s message)
    (hl : Later s s') : Issued env s' message :=
  ⟨h.set.later hl, h.owner.trans (hl.immutable h.set.immutable).2.symm, h.capacity,
    h.environment, h.signature⟩

omit [DecidableEq W] in
theorem Known.later (h : Known env s u) (hl : Later s s')
    (hr : u.listens = 1 → s'.listener.enclaveRegistered = s.listener.enclaveRegistered) :
    Known env s' u := by
  cases u with
  | writeFlag | detailsClient => exact hl.client h
  | registrationMutable => exact (hl.immutable h).1
  | registrationOwner => exact Set.later h hl
  | registrationClient | registrationBlock | registrationListen => exact Issued.later h hl
  | registering => exact ⟨h.1.later hl, h.2.trans (hl.immutable h.1.immutable).2.symm⟩
  | answered response =>
    cases response with
    | registration => exact Issued.later h hl
    | _ => trivial
  | connecting | left => exact Set.later h hl
  | subscribing | handling => exact ⟨h.1.later hl, (hr rfl).trans h.2⟩
  | returning => exact ⟨h.1.later hl, (hr rfl).trans h.2⟩
  | sending => exact ⟨hl.client h.1, h.2.1, fun m hm => ⟨(h.2.2 m hm).1.later hl, (h.2.2 m hm).2⟩⟩
  | resending => exact ⟨hl.client h.1, fun p hp => (h.2.1 p hp).later hl, h.2.2⟩
  | timeout =>
    obtain ⟨x, hx, htimeout⟩ := h
    exact ⟨x, hl.handled hx, htimeout⟩
  | job =>
    obtain ⟨x, hx, hjob⟩ := h
    exact ⟨x, hl.handled hx, hjob⟩
  | panicked => exact h
  | _ => trivial

theorem Own.stable {e : Unit} (h : Own env s t e s' t' spawned) (hu : Known env s u)
    (hle : s.free + t.listens + u.listens ≤ 1) : Known env s' u :=
  hu.later h.later fun hlistens => h.registered_eq (by omega)

structure ResendFrame (env : Env W T) (s : AppState W T) (r : Resender W JobsTxn T) : Prop where
  pending : ∀ p ∈ r.pendingTxns, Asked env s p.txnData
  handed : ∀ m ∈ r.handed, Asked env s m
  task : ResendKnown env s r.task

variable {p q : PendingTxnData W JobsTxn T}

omit [DecidableEq W] in
theorem bumpGasLimit_txnData (h : p.bumpGasLimit = some q) : q.txnData = p.txnData := by
  unfold PendingTxnData.bumpGasLimit at h
  split at h
  · cases h
    rfl
  · cases h

omit [DecidableEq W] in
theorem bumpGasPrice_txnData (h : p.bumpGasPrice = some q) : q.txnData = p.txnData := by
  unfold PendingTxnData.bumpGasPrice at h
  split at h
  · cases h
    rfl
  · cases h

omit [DecidableEq W] in
theorem known_retrying (h : Asked env s p.txnData) (sendDummy : Bool) :
    ResendKnown env s (.retrying p sendDummy) :=
  ⟨fun _ hq => Option.some.inj hq ▸ h, trivial⟩

omit [DecidableEq W] in
theorem known_dummy (h : Asked env s p.txnData) : ResendKnown env s (.dummy p) :=
  ⟨fun _ hq => Option.some.inj hq ▸ h, trivial⟩

omit [DecidableEq W] in
theorem known_idle : ResendKnown env s .idle := ⟨nofun, trivial⟩

omit [DecidableEq W] in
theorem known_afterRetries (h : Asked env s p.txnData) (sendDummy : Bool) :
    ResendKnown env s (Resender.afterRetries p sendDummy) := by
  unfold Resender.afterRetries
  split
  · exact known_dummy h
  · exact known_idle

omit [DecidableEq W] in
theorem known_afterError (h : Asked env s p.txnData) {sendDummy : Bool} {error : JobsTxnSendError}
    {task : Resend W JobsTxn T} (ht : Resender.afterError p sendDummy error = some task) :
    ResendKnown env s task := by
  unfold Resender.afterError at ht
  split at ht
  · exact Option.some.inj ht ▸ known_idle
  · obtain ⟨q, hq, rfl⟩ := Option.map_eq_some_iff.1 ht
    exact known_retrying (bumpGasLimit_txnData hq ▸ h) _
  · obtain ⟨q, hq, rfl⟩ := Option.map_eq_some_iff.1 ht
    exact known_retrying (bumpGasPrice_txnData hq ▸ h) _
  all_goals
    first
    | exact Option.some.inj ht ▸ known_afterRetries h _
    | exact Option.some.inj ht ▸ known_retrying h _

omit [DecidableEq W] in
theorem known_afterDummyError (h : Asked env s p.txnData) {error : JobsTxnSendError}
    {task : Resend W JobsTxn T} (ht : Resender.afterDummyError p error = some task) :
    ResendKnown env s task := by
  unfold Resender.afterDummyError at ht
  split at ht
  · exact Option.some.inj ht ▸ known_idle
  · obtain ⟨q, hq, rfl⟩ := Option.map_eq_some_iff.1 ht
    exact known_dummy (bumpGasLimit_txnData hq ▸ h)
  · obtain ⟨q, hq, rfl⟩ := Option.map_eq_some_iff.1 ht
    exact known_dummy (bumpGasPrice_txnData hq ▸ h)
  all_goals exact Option.some.inj ht ▸ known_dummy h

theorem known_replace {r : Resender W JobsTxn T} (h : Asked env s p.txnData) {sendDummy : Bool}
    {task : Resend W JobsTxn T} (ht : r.replace env.generateTxn p sendDummy = some task) :
    ResendKnown env s task := by
  obtain ⟨payload, hpayload, ht⟩ := Option.bind_eq_some_iff.1 ht
  obtain ⟨wallet, -, ht⟩ := Option.bind_eq_some_iff.1 ht
  split at ht
  · cases ht
    exact ⟨fun _ hq => Option.some.inj hq ▸ h, trivial⟩
  · cases ht
    exact ⟨fun _ hq => Option.some.inj hq ▸ h, rfl, hpayload⟩

theorem known_replaceByDummy {r : Resender W JobsTxn T} (h : Asked env s p.txnData)
    {task : Resend W JobsTxn T} (ht : r.replaceByDummy p = some task) :
    ResendKnown env s task := by
  obtain ⟨wallet, -, ht⟩ := Option.bind_eq_some_iff.1 ht
  split at ht
  · cases ht
    exact known_idle
  · cases ht
    exact ⟨fun _ hq => Option.some.inj hq ▸ h, rfl⟩

theorem resend_frame {k : ℕ} {t : Resend W JobsTxn T} {e : ResendEvent W JobsTxn T}
    {r : Resender W JobsTxn T} (h : (s.resender k t).stepTask env.generateTxn t e = some r)
    (hpending : ∀ p ∈ s.pending k, Asked env s p.txnData) (hknown : ResendKnown env s t) :
    ResendFrame env s r := by
  have hkeep : ∀ task : Resend W JobsTxn T, ResendKnown env s task →
      ResendFrame env s { s.resender k t with task := task } :=
    fun _ htask => ⟨hpending, nofun, htask⟩
  have hgoOn : ∀ task : Option (Resend W JobsTxn T),
      (∀ t', task = some t' → ResendKnown env s t') →
      ResendFrame env s ((s.resender k t).goOn task) := by
    intro task htask
    cases task with
    | none => exact hkeep _ ⟨nofun, trivial⟩
    | some t' => exact hkeep _ (htask t' rfl)
  unfold Resender.stepTask at h
  split at h
  next =>
    cases h
    unfold Resender.pop
    split
    · split
      · exact hkeep _ known_idle
      · exact hkeep _ ⟨nofun, trivial⟩
    next p rest hp =>
      have hmem : ∀ q ∈ p :: rest, Asked env s q.txnData := hp ▸ hpending
      exact ⟨fun q hq => hmem q (List.mem_cons_of_mem _ hq), nofun,
        fun _ hq => Option.some.inj hq ▸ hmem p List.mem_cons_self, trivial⟩
  next p found =>
    cases h
    have hp := hknown.1 p rfl
    refine hgoOn _ fun t' ht' => ?_
    split at ht'
    · exact Option.some.inj ht' ▸ known_idle
    · obtain ⟨q, hq, rfl⟩ := Option.map_eq_some_iff.1 ht'
      obtain ⟨q', hq', hq⟩ := Option.bind_eq_some_iff.1 hq
      refine known_retrying ?_ _
      rw [bumpGasPrice_txnData hq, bumpGasLimit_txnData hq']
      exact hp
  next p sendDummy now =>
    cases h
    have hp := hknown.1 p rfl
    refine hgoOn _ fun t' ht' => ?_
    cases ht'
    split
    · exact ⟨fun _ hq => Option.some.inj hq ▸ hp, trivial⟩
    · exact known_afterRetries hp _
  next p sendDummy =>
    cases h
    exact hgoOn _ fun t' ht' => known_replace (hknown.1 p rfl) ht'
  next p ok =>
    have hp := hknown.1 p rfl
    split at h
    · cases h
      exact ⟨hpending, fun m hm => List.mem_singleton.1 hm ▸ hp, known_idle⟩
    · cases h
      exact hkeep _ (known_retrying hp _)
  next p _ hash now =>
    cases h
    refine ⟨fun q hq => ?_, nofun, known_idle⟩
    rcases List.mem_cons.1 hq with rfl | hq
    · exact hknown.1 p rfl
    · exact hpending q hq
  next p sendDummy error =>
    cases h
    exact hgoOn _ fun t' ht' => known_afterError (hknown.1 p rfl) ht'
  next p =>
    cases h
    exact hgoOn _ fun t' ht' => known_replaceByDummy (hknown.1 p rfl) ht'
  next txn p _ _ =>
    cases h
    exact hkeep _ ⟨fun _ hq => hknown.1 _ hq, hknown.2⟩
  next txn p error =>
    cases h
    exact hgoOn _ fun t' ht' => known_afterDummyError (hknown.1 p rfl) ht'
  next txn p ok =>
    cases h
    have hp := hknown.1 p rfl
    split
    · exact hkeep _ known_idle
    · exact hkeep _ (known_dummy hp)
  next => cases h

omit [DecidableEq W] in
theorem Inv.queues (hi : Inv env s) (hl : Later s s') :
    (∀ k, ∀ m ∈ s.channel k, Asked env s' m) ∧ ∀ k, ∀ p ∈ s.pending k, Asked env s' p.txnData :=
  ⟨fun k m hm => (hi.channel k m hm).later hl, fun k p hp => (hi.pending k p hp).later hl⟩

omit [DecidableEq W] in
theorem Inv.put (hi : Inv env s) (k : ℕ) {ms : List (JobsTxnMetadata JobsTxn)}
    {ps : List (PendingTxnData W JobsTxn T)} (hm : ∀ m ∈ ms, Asked env s m)
    (hp : ∀ p ∈ ps, Asked env s p.txnData) : Inv env ((s.putPending k ps).putChannel k ms) where
  client := hi.client
  active := hi.active
  registered := hi.registered
  handled := hi.handled
  channel := by
    intro j m hmem
    dsimp only [AppState.putChannel, AppState.putPending] at hmem
    by_cases hj : j = k
    · subst hj
      rw [Function.update_self] at hmem
      exact hm m hmem
    · rw [Function.update_of_ne hj] at hmem
      exact hi.channel j m hmem
  pending := by
    intro j p hmem
    dsimp only [AppState.putChannel, AppState.putPending] at hmem
    by_cases hj : j = k
    · subst hj
      rw [Function.update_self] at hmem
      exact hp p hmem
    · rw [Function.update_of_ne hj] at hmem
      exact hi.pending j p hmem

omit [DecidableEq W] in
theorem Inv.putChannel (hi : Inv env s) (k : ℕ) {ms : List (JobsTxnMetadata JobsTxn)}
    (hm : ∀ m ∈ ms, Asked env s m) : Inv env (s.putChannel k ms) := by
  have hput := hi.put k hm (hi.pending k)
  rwa [AppState.putPending, Function.update_eq_self] at hput

omit [DecidableEq W] in
theorem Inv.putPending (hi : Inv env s) (k : ℕ) {ps : List (PendingTxnData W JobsTxn T)}
    (hp : ∀ p ∈ ps, Asked env s p.txnData) : Inv env (s.putPending k ps) := by
  have hput := hi.put k (hi.channel k) hp
  rwa [AppState.putChannel, AppState.putPending, Function.update_eq_self] at hput

omit [DecidableEq W] in
theorem Inv.setNode (hi : Inv env s) {node : Node W}
    (hc : s.node.httpRpcClient.isSome → node.httpRpcClient.isSome) :
    Inv env { s with node := node } where
  client h := hc (hi.client h)
  active := hi.active
  registered := hi.registered
  handled := hi.handled
  channel := hi.channel
  pending := hi.pending

omit [DecidableEq W] in
theorem known_spawn {k : ℕ} {x : Handled} (hx : x ∈ s'.handled) :
    ∀ u ∈ spawn k s.now x.actions, Known env s' (u : Proc W T) := by
  intro u hu
  rcases List.mem_append.1 hu with hu | hu
  · obtain ⟨task, htask, rfl⟩ := List.mem_map.1 hu
    obtain ⟨a, ha, htask⟩ := List.mem_filterMap.1 htask
    split at htask
    next jobId userDeadline =>
      cases htask
      exact ⟨x, hx, userDeadline, ha⟩
    · cases htask
  · obtain ⟨a, ha, hu⟩ := List.mem_filterMap.1 hu
    split at hu
    next jobId codeHash codeInputs userDeadline =>
      cases hu
      exact ⟨x, hx, codeHash, codeInputs, userDeadline, ha⟩
    · cases hu

omit [DecidableEq W] in
theorem due_created (hi : Inv env s) (hr : s.listener.enclaveRegistered = true)
    (log : JobCreatedLog) :
    Handled.Due env ⟨s.registeredAt, log, (handleJobCreated env.config s.listener log).2⟩ := by
  cases hreq : log.request with
  | none => exact .inl (handleJobCreated_other hreq).1
  | some r =>
    obtain ⟨b, d⟩ := r
    rw [handleJobCreated_request hreq]
    obtain ⟨first, hfirst, hle⟩ := hi.registered hr
    split
    · exact .inl rfl
    next hlt => exact .inr ⟨first, b, d, hfirst, hreq, hle.trans (Nat.le_of_not_lt hlt), rfl⟩

omit [DecidableEq W] in
theorem handleJob_asked {c : Config} {deadline jobId signTimestamp now : ℕ}
    {response : Option (Option JobOutput)} {m : JobsTxnMetadata JobsTxn}
    (h : handleJob c deadline env.sign jobId response signTimestamp now = some (some m))
    (hjob : AskedJob s jobId) : Asked env s m := by
  unfold handleJob at h
  split at h
  · cases h
  · dsimp only at h
    split at h
    · cases h
    next hsign =>
      obtain ⟨retryDeadline, -, h⟩ := Option.bind_eq_some_iff.1 h
      cases h
      exact ⟨hjob, _, _, hsign, rfl⟩

omit [DecidableEq W] in
theorem known_answered {response : Response W} (h : ∀ message, response ≠ .registration message) :
    Known env s (.answered response) := by
  cases response with
  | registration message => exact absurd rfl (h message)
  | _ => trivial

omit [DecidableEq W] in
theorem gasWallet_error {fromBytes : List UInt8 → Option W} {hex : List UInt8}
    {response : Response W} (h : gasWallet fromBytes hex = .error response) :
    ∀ message, response ≠ .registration message := by
  unfold gasWallet at h
  split at h
  · cases h
    exact nofun
  · split at h
    · cases h
      exact nofun
    · split at h
      · cases h
        exact nofun
      · cases h

structure Leads (env : Env W T) (s' : AppState W T) (t' : Proc W T) (spawned : List (Proc W T)) :
    Prop where
  inv : Inv env s'
  known : Known env s' t'
  spawned : ∀ u ∈ spawned, Known env s' u

section

omit [DecidableEq W]

theorem Leads.quiet (hi : Inv env s') (hk : Known env s' t') : Leads env s' t' [] :=
  ⟨hi, hk, fun _ h => absurd h List.not_mem_nil⟩

theorem leads_registered {start : ℕ} {owner : H160} {block : Option ℕ} (hi : Inv env s)
    (hk : Known env s (.registering start owner))
    (hle : s.free + (Proc.registering start owner : Proc W T).listens ≤ 1) :
    Leads env { s with
      listener := { s.listener with enclaveRegistered := true, lastBlockSeen := block.getD start }
      registeredAt := some (block.getD start) } (.subscribing start) [] := by
  -- the token is with this listener, so the flag is set
  have hset : s.eventsListenerActive ≠ false := by
    intro hflag
    simp [AppState.free, Proc.listens, hflag] at hle
  exact .quiet ⟨hi.client, fun hunset => absurd hunset hset, fun _ => ⟨_, rfl, le_rfl⟩,
    hi.handled, hi.channel, hi.pending⟩ ⟨⟨hk.1.client, hk.1.immutable⟩, rfl⟩

theorem leads_created {start k : ℕ} {log : JobCreatedLog} {listener : Listener}
    {actions : List Action} (h : handleJobCreated env.config s.listener log = (listener, actions))
    (hi : Inv env s) (hk : Known env s (.handling start k)) :
    Leads env
      { s with listener := listener, handled := s.handled ++ [⟨s.registeredAt, log, actions⟩] }
      (.handling start k) (spawn k s.now actions) := by
  obtain ⟨hkeep, hseen⟩ := handleJobCreated_registered env.config s.listener log
  have hdue := due_created hi hk.2 log
  rw [h] at hkeep hseen hdue
  have hl : Later s
      { s with listener := listener, handled := s.handled ++ [⟨s.registeredAt, log, actions⟩] } :=
    ⟨id, fun h => ⟨h, rfl⟩, List.subset_append_left _ _⟩
  obtain ⟨hchannel, hpending⟩ := hi.queues hl
  refine ⟨⟨hi.client, fun hunset => hkeep.trans (hi.active hunset), fun hr => ?_, fun x hx => ?_,
    hchannel, hpending⟩, ⟨hk.1.later hl, hkeep.trans hk.2⟩, ?_⟩
  · obtain ⟨first, hfirst, hle⟩ := hi.registered (hkeep.symm.trans hr)
    exact ⟨first, hfirst, hle.trans hseen⟩
  · rcases List.mem_append.1 hx with hx | hx
    · exact hi.handled x hx
    · rw [List.mem_singleton.1 hx]
      exact hdue
  · exact @known_spawn _ _ env s _ k ⟨s.registeredAt, log, actions⟩
      (List.mem_append_right _ (List.mem_singleton_self _))

theorem leads_responded {start k : ℕ} (log : JobRespondedLog) (hi : Inv env s)
    (hk : Known env s (.handling start k)) :
    Leads env { s with listener := handleJobResponded env.config s.listener log }
      (.handling start k) [] := by
  obtain ⟨hkeep, hseen⟩ := handleJobResponded_registered env.config s.listener log
  refine .quiet ⟨hi.client, fun hunset => hkeep.trans (hi.active hunset), fun hr => ?_,
    hi.handled, hi.channel, hi.pending⟩ ⟨⟨hk.1.client, hk.1.immutable⟩, hkeep.trans hk.2⟩
  obtain ⟨first, hfirst, hle⟩ := hi.registered (hkeep.symm.trans hr)
  exact ⟨first, hfirst, hle.trans hseen⟩

theorem leads_deregistered {start k : ℕ} {removed : Option Bool} (h : removed.getD true = false)
    (hi : Inv env s) (hk : Known env s (.handling start k)) :
    Leads env { s with listener := handleDeregistered s.listener removed, registeredAt := none }
      (.left start) [] := by
  have hoff : (handleDeregistered s.listener removed).enclaveRegistered = false := by
    rw [handleDeregistered, h]
    rfl
  refine .quiet ⟨hi.client, fun _ => hoff, fun hr => ?_, hi.handled, hi.channel, hi.pending⟩
    ⟨hk.1.client, hk.1.immutable⟩
  exact absurd (hoff.symm.trans hr) Bool.false_ne_true

theorem leads_received {k : ℕ} {m : JobsTxnMetadata JobsTxn} {rest : List (JobsTxnMetadata JobsTxn)}
    {held : Option (JobsTxnMetadata JobsTxn)} {node : Node W} {t t' : Task W}
    (hm : s.channel k = m :: rest) (htxn : (env.generateTxn m).isSome)
    (h : Task.step s.node t .received = some (node, t')) (hi : Inv env s)
    (hk : Known env s (.sending k t held)) :
    Leads env (AppState.putChannel { s with node := node } k rest) (.sending k t' (some m)) [] := by
  have hclient : node.httpRpcClient.isSome := by
    rw [Task.step_client h]
    exact hk.1
  have hmem : ∀ m' ∈ m :: rest, Asked env s m' := fun m' hm' => hi.channel k m' (hm ▸ hm')
  have hnode := hi.setNode fun _ => hclient
  refine .quiet (hnode.putChannel k fun m' hm' => hmem m' (List.mem_cons_of_mem _ hm'))
    ⟨hclient, fun _ => rfl, fun m' hm' => ?_⟩
  rw [← Option.some.inj hm']
  exact ⟨hmem m List.mem_cons_self, htxn⟩

theorem leads_accepted {k : ℕ} {m : JobsTxnMetadata JobsTxn} {node : Node W} {t t' : Task W}
    {e : TaskEvent} {p : PendingTxnData W JobsTxn T} (hp : p.txnData = m)
    (h : Task.step s.node t e = some (node, t')) (hi : Inv env s)
    (hk : Known env s (.sending k t (some m))) :
    Leads env (AppState.putPending { s with node := node } k (s.pending k ++ [p]))
      (.sending k t' (some m)) [] := by
  have hclient : node.httpRpcClient.isSome := by
    rw [Task.step_client h]
    exact hk.1
  have hnode := hi.setNode fun _ => hclient
  refine .quiet (hnode.putPending k fun q hq => ?_) ⟨hclient, fun _ => rfl, hk.2.2⟩
  rcases List.mem_append.1 hq with hq | hq
  · exact hi.pending k q hq
  · rw [List.mem_singleton.1 hq, hp]
    exact (hk.2.2 m rfl).1

theorem leads_timeout {k : ℕ} {task task' : TimeoutTask} {event : TimeoutEvent} {session : Session}
    (h : task.step env.config s.session event = some (session, task')) (hi : Inv env s)
    (hk : Known env s (.timeout k task)) :
    Leads env (AppState.putChannel { s with listener := session.listener } k
      (s.channel k ++ session.channel.map TimeoutTxn.metadata)) (.timeout k task') [] := by
  have hframe := TimeoutTask.step_frame h
  have hlistener : Inv env { s with listener := session.listener } := by
    refine ⟨hi.client, fun hunset => hframe.registered.trans (hi.active hunset), fun hr => ?_,
      hi.handled, hi.channel, hi.pending⟩
    obtain ⟨first, hfirst, hle⟩ := hi.registered (hframe.registered.symm.trans hr)
    refine ⟨first, hfirst, ?_⟩
    rw [hframe.lastBlockSeen]
    exact hle
  have hjob : AskedTimeout s task'.jobId := by
    rw [hframe.jobId]
    exact hk
  refine .quiet (hlistener.putChannel k fun m hm => ?_) hjob
  rcases List.mem_append.1 hm with hm | hm
  · exact hi.channel k m hm
  · obtain ⟨x, hx, rfl⟩ := List.mem_map.1 hm
    rcases hframe.channel x hx with hx | hx
    · cases hx
    · change AskedTimeout s x.jobId
      rw [hx]
      exact hk

end

theorem leads_resending {k : ℕ} {task : Resend W JobsTxn T} {event : ResendEvent W JobsTxn T}
    {r : Resender W JobsTxn T}
    (h : (s.resender k task).stepTask env.generateTxn task event = some r) (hi : Inv env s)
    (hk : Known env s (.resending k task)) :
    Leads env ((s.putPending k r.pendingTxns).putChannel k (s.channel k ++ r.handed))
      (.resending k r.task) [] := by
  have hframe := resend_frame h (hi.pending k) hk.2
  refine .quiet (hi.put k (fun m hm => ?_) hframe.pending) ⟨hk.1, hframe.task⟩
  rcases List.mem_append.1 hm with hm | hm
  · exact hi.channel k m hm
  · exact hframe.handed m hm

theorem Own.leads {e : Unit} (h : Own env s t e s' t' spawned) (hi : Inv env s)
    (hk : Known env s t) (hle : s.free + t.listens ≤ 1) : Leads env s' t' spawned := by
  have hunset : s.node.httpRpcClient = none → ¬s.node.httpRpcClient.isSome := by
    intro hnone
    rw [hnone]
    exact Bool.false_ne_true
  cases h with
  | clock =>
    exact Leads.quiet ⟨hi.client, hi.active, hi.registered, hi.handled, hi.channel, hi.pending⟩
      trivial
  | immutableConfig hinject =>
    obtain ⟨hresponse, rfl | ⟨-, owner, rfl⟩⟩ := injectImmutableConfig_cases hinject
    · exact Leads.quiet hi (known_answered hresponse)
    · exact Leads.quiet ⟨hi.client, hi.active, hi.registered, hi.handled, hi.channel, hi.pending⟩
        (known_answered hresponse)
  | mutableConfigRefused h => exact Leads.quiet hi (known_answered (gasWallet_error h))
  | writeNonce h =>
    refine Leads.quiet (hi.setNode fun hc => ?_) trivial
    rw [injectNonce_client h]
    exact hc
  | writeClient h =>
    exact Leads.quiet (hi.setNode fun _ => injectClient_client h) (injectClient_client h)
  | writeFlag =>
    exact Leads.quiet
      ⟨fun _ => hk, hi.active, hi.registered, hi.handled, hi.channel, hi.pending⟩ trivial
  | details h => exact Leads.quiet hi (hi.client h)
  | detailsPanics h => exact absurd hk (hunset h)
  | registration h => exact Leads.quiet hi h
  | registrationMutable h => exact Leads.quiet hi ⟨hi.client h, hk⟩
  | registrationOwner h => exact Leads.quiet hi ⟨hk, rfl, rfl, rfl, h⟩
  | registrationClient | registrationBlock | registrationListening => exact Leads.quiet hi hk
  | registrationPanics h => exact absurd hk.set.client (hunset h)
  | registrationListen =>
    refine ⟨⟨hi.client, fun h => Bool.noConfusion h, hi.registered, hi.handled, hi.channel,
      hi.pending⟩, ⟨⟨hk.set.client, hk.set.immutable⟩, hk.owner, hk.capacity, hk.environment,
      hk.signature⟩, fun u hu => ?_⟩
    rw [List.mem_singleton.1 hu]
    exact ⟨hk.set.client, hk.set.immutable⟩
  | connectFailed | deregisteredRemoved | registeringRemoved => exact Leads.quiet hi hk
  | connectedRegistered h => exact Leads.quiet hi ⟨hk, h⟩
  | connected => exact Leads.quiet hi ⟨hk, rfl⟩
  | registered => exact leads_registered hi hk hle
  | registeringEnded =>
    refine Leads.quiet hi ?_
    split
    next h => exact ⟨hk.1, h⟩
    · exact hk.1
  | subscribeFailed => exact Leads.quiet hi hk.1
  | subscribed =>
    refine ⟨⟨hi.client, hi.active, hi.registered, hi.handled, hi.channel, hi.pending⟩,
      ⟨⟨hk.1.client, hk.1.immutable⟩, hk.2⟩, fun u hu => ?_⟩
    rcases List.mem_cons.1 hu with rfl | hu
    · exact ⟨hk.1.client, known_idle⟩
    · rw [List.mem_singleton.1 hu]
      exact ⟨hk.1.client, fun h => absurd h Bool.false_ne_true, fun _ h => nomatch h⟩
  | created h => exact leads_created h hi hk
  | responded => exact leads_responded _ hi hk
  | deregistered h => exact leads_deregistered h hi hk
  | streamsEnded => exact Leads.quiet hi hk.1
  | left =>
    refine Leads.quiet hi ?_
    split
    · exact hk
    next h => exact ⟨hk, Bool.eq_false_iff.2 h⟩
  | returning =>
    exact Leads.quiet
      ⟨hi.client, fun _ => hk.2, hi.registered, hi.handled, hi.channel, hi.pending⟩ trivial
  | received hm htxn h => exact leads_received hm htxn h hi hk
  | @receivedPanics k m rest held hm =>
    refine Leads.quiet (hi.putChannel k fun m' hm' => hi.channel k m' ?_) trivial
    rw [hm]
    exact List.mem_cons_of_mem _ hm'
  | accepted h => exact leads_accepted rfl h hi hk
  | sending he _ h =>
    have hclient := (Task.step_client h).symm ▸ hk.1
    exact Leads.quiet (hi.setNode fun _ => hclient)
      ⟨hclient, fun hbusy => hk.2.1 (Task.step_busy h he hbusy), hk.2.2⟩
  | resending h => exact leads_resending h hi hk
  | timeout h => exact leads_timeout h hi hk
  | @job k jobId userDeadline deadline signTimestamp response m _ h =>
    refine Leads.quiet (hi.putChannel k fun m' hm' => ?_) trivial
    rcases List.mem_append.1 hm' with hm' | hm'
    · exact hi.channel k m' hm'
    · rw [List.mem_singleton.1 hm']
      exact handleJob_asked h hk
  | _ => exact Leads.quiet hi trivial

/-- The outline of the executor. -/
theorem outline (env : Env W T) :
    Outline Outside (Own env) (Inv env) (Known env) AppState.free Proc.listens where
  first := by
    intro s t hout _
    cases t with
    | clock | immutableConfig | mutableConfig | details | registration => exact ⟨trivial, rfl⟩
    | _ => exact False.elim hout
  next := by
    intro s t e s' t' spawned hi hk hle h
    have hleads := h.leads hi hk hle
    exact ⟨hleads.inv, hleads.known, hleads.spawned⟩
  tokens := fun _ _ _ _ _ _ hle h => h.tokens hle
  stable := fun _ _ _ _ _ _ _ _ _ hu hle h => h.stable hu hle

omit [DecidableEq W] in
theorem inv_first : Inv env ({} : AppState W T) where
  client := fun h => Bool.noConfusion h
  active := fun _ => rfl
  registered := fun h => Bool.noConfusion h
  handled := nofun
  channel := nofun
  pending := nofun

theorem Reached.holds {s : System (AppState W T) (Proc W T)} (h : Reached env s) :
    Holds (Inv env) (Known env) AppState.free Proc.listens s := by
  obtain ⟨ls, hrun⟩ := h
  exact (outline env).run hrun inv_first rfl

end Oyster.Executor
