import Oyster.ControlPlane.ElasticIp

namespace Oyster.ControlPlane

open Prog Instances Holdings

def holdingsProvider (order : List Instance → Prop) : Env ProviderOp ProviderAns Holdings :=
  fun op h x h' => ∃ t, Exec (holdingsEnv order) (aws op) h t x h'

/-- The EC2 calls of an operation do not stop halfway: an instance that lost its address is
terminated, one that was launched has its address or is terminated, and a `spin_up` that launches
none finds no address left from before. -/
structure Tidy (op : ProviderOp) (h : Holdings) (m : Marks) : Prop where
  disassociated : m.disassociated = true → m.terminated = true
  launched : m.launched = true → m.associated = true ∨ m.terminated = true
  address : op.isSpinUp = true → m.launched = true ∨ ∀ e ∈ h.addresses, e.region ≠ op.region

/-- The provider, where no operation stops halfway. -/
def tidyProvider (order : List Instance → Prop) : Env ProviderOp ProviderAns Holdings :=
  fun op h x h' => ∃ t, Exec (holdingsEnv order) (aws op) h t x h' ∧
    Tidy op h (after Marks.add {} t)

/-- What has to be live, or not, for an operation to be called. -/
def Ready : ProviderOp → Holdings → Prop
  | .spinUp _ _ _ region _ _ _, h => h.instances.liveCount region = 0
  | .spinDown id _ region, h => h.LiveOnly region id
  | _, _ => True

/-- The operation is a `spin_up` that answered an error. -/
def FailedSpinUp : (op : ProviderOp) → ProviderAns op → Bool
  | .spinUp .., none => true
  | _, _ => false

section Provider

variable {order : List Instance → Prop} {h h' : Holdings} {op : ProviderOp} {x : ProviderAns op}

theorem holdingsEnv_instances {op : Ec2Op} {x : Ec2Ans op} (hx : holdingsEnv order op h x h') :
    ec2Env order op h.instances x h'.instances := by
  cases op with
  | describeInstances filter region =>
    cases filter with
    | job job => exact ⟨hx.1.instances, hx.2⟩
    | instanceId id => exact hx.instances
  | runInstances =>
    obtain ⟨h₁, hd, ⟨rfl, rfl⟩ | ⟨id, st, rfl, rfl⟩⟩ := hx
    · exact ⟨none, ⟨_, hd.instances, .inl rfl⟩, rfl⟩
    · exact ⟨some id, ⟨_, hd.instances, st, rfl⟩, rfl⟩
  | terminateInstances => exact ⟨hx.1.instances, hx.2⟩
  | describeAddresses => exact hx.1.instances
  | allocateAddress =>
    obtain ⟨h₁, hd, ⟨rfl, rfl⟩ | ⟨e, -, -, rfl, rfl⟩⟩ := hx
    · exact hd.instances
    · exact hd.instances
  | associateAddress =>
    obtain ⟨h₁, hd, ⟨rfl, rfl⟩ | ⟨associationId, rfl, -, rfl⟩⟩ := hx
    · exact hd.instances
    · exact hd.instances
  | disassociateAddress =>
    obtain ⟨h₁, hd, ⟨rfl, rfl⟩ | ⟨rfl, rfl⟩⟩ := hx
    · exact hd.instances
    · exact hd.instances
  | releaseAddress =>
    obtain ⟨h₁, hd, ⟨rfl, rfl⟩ | ⟨rfl, rfl⟩⟩ := hx
    · exact hd.instances
    · exact hd.instances
  | _ => exact hx.instances

theorem tidyProvider_cloud (horder : ∀ l, order l → LiveFirst l)
    (hx : tidyProvider order op h x h') : cloudEnv True op h.instances x h'.instances := by
  obtain ⟨t, hexec, -⟩ := hx
  exact awsEnv_refines horder ⟨_, hexec.map fun _ _ _ _ hx => holdingsEnv_instances hx⟩

def Idle (order : List Instance → Prop) (op : Ec2Op) : Prop :=
  ∀ h x h', holdingsEnv order op h x h' → Drifts h h'

theorem drifts_of_calls {α : Type} {p : Prog Ec2Op Ec2Ans α} {a : α}
    {t : List (Event Ec2Op Ec2Ans Holdings)} (hp : p.Calls (Idle order))
    (hx : Exec (holdingsEnv order) p h t a h') : Drifts h h' :=
  (hx.sound (Calls.wp Drifts.refl Drifts.trans (fun _ w x w' hop => hop w x w') hp h)).2

theorem drifts_of_reads {α : Type} {p : AwsProg α} {x : Option α}
    {t : List (Event Ec2Op Ec2Ans Holdings)} (hp : Aws.Reads p)
    (hx : Exec (holdingsEnv order) p.run h t x h') : Drifts h h' :=
  drifts_of_calls (hp.mono fun _ hop _ _ _ => holdingsEnv_read hop) hx

/-- An operation that is called when it may be leaves every live instance with its address, and
a failed `spin_up` leaves nothing. -/
theorem tidyProvider_sound (hs : h.Sound) (hready : Ready op h)
    (hx : tidyProvider order op h x h') :
    h'.Sound ∧ (FailedSpinUp op x = true → h'.Clear op.region) := by
  obtain ⟨t, hexec, htidy⟩ := hx
  have hhistory : ∃ t', Exec (markedEnv order) (aws op) (h, {}) t' x (h', after Marks.add {} t) :=
    hexec.history _
  obtain ⟨_, hmarked⟩ := hhistory
  generalize after Marks.add {} t = m at htidy hmarked
  cases op with
  | spinUp job instanceType family region reqMem reqVcpu bandwidth =>
    have hup := (hmarked.sound
      (spinUpInstance_wp job instanceType family reqMem reqVcpu (hs.apart region) hready)).2
    cases x with
    | some id => exact ⟨hup.sound id rfl, nofun⟩
    | none =>
      have hclear : h'.Sound ∧ h'.Clear region := by
        -- what was launched is gone if the clean-up came as far as the termination
        rcases hup.failed rfl with ⟨hlaunch, hd⟩ | ⟨hlaunch, hassoc, hterm⟩
        · refine ⟨hd.sound hs, liveCount_evolve hd.instances hready, ?_⟩
          rcases htidy.address rfl with hl | hnone
          · rw [hlaunch] at hl
            cases hl
          · exact hd.no_address hnone
        · have hterminated : m.terminated = true := by
            rcases htidy.launched hlaunch with ha | ht
            · rw [hassoc] at ha
              cases ha
            · exact ht
          obtain ⟨ha, hc⟩ := hterm hterminated
          exact ⟨ha.sound (served_of_liveCount hc.instances), hc⟩
      exact ⟨hclear.1, fun _ => hclear.2⟩
  | spinDown id job region =>
    refine ⟨?_, nofun⟩
    have hdown := (hmarked.sound (spinDownInstance_wp job (hs.apart region) {})).2
    apply hdown.apart.sound
    cases x with
    | some _ =>
      obtain ⟨-, -, hdead⟩ := hdown.done rfl
      exact served_of_liveCount ((hready.evolve hdown.instances).liveCount hdead)
    | none =>
      -- it stopped before the address was taken away, or the instance was terminated too
      obtain ⟨hterm, hd | hserved⟩ := hdown.failed rfl
      · rw [htidy.disassociated hd] at hterm
        cases hterm
      · exact hserved hready (hs.served region)
  | getJobInstance job region =>
    exact ⟨(drifts_of_reads (Aws.reads_getJobInstanceId job region) hexec).sound hs, nofun⟩
  | checkInstanceRunning id region =>
    have hreads := Aws.Reads.bind (Aws.reads_getInstanceState id region)
      fun res => .pure (decide (res = "running" ∨ res = "pending"))
    exact ⟨(drifts_of_reads hreads hexec).sound hs, nofun⟩
  | checkEnclaveRunning id region =>
    have hcalls : (aws (.checkEnclaveRunning id region)).Calls (Idle order) := by
      refine ⟨fun _ _ _ hx => hx, fun x => ?_⟩
      cases x <;> trivial
    exact ⟨(drifts_of_calls hcalls hexec).sound hs, nofun⟩
  | runEnclave job id family region imageUrl reqVcpu reqMem bandwidth debug =>
    have hcalls : (aws (.runEnclave job id family region imageUrl reqVcpu reqMem bandwidth
        debug)).Calls (Idle order) := ⟨fun _ _ _ hx => hx, fun _ => trivial⟩
    exact ⟨(drifts_of_calls hcalls hexec).sound hs, nofun⟩
  | updateEnclaveImage id region eifUrl reqVcpu reqMem =>
    have hcalls : (aws (.updateEnclaveImage id region eifUrl reqVcpu reqMem)).Calls
        (Idle order) := ⟨fun _ _ _ hx => hx, fun _ => trivial⟩
    exact ⟨(drifts_of_calls hcalls hexec).sound hs, nofun⟩

def noteFailure (failed : Bool) (op : ProviderOp) (x : ProviderAns op) : Bool :=
  failed || FailedSpinUp op x

abbrev failureEnv (order : List Instance → Prop) : Env ProviderOp ProviderAns (Holdings × Bool) :=
  (tidyProvider order).history noteFailure

theorem noteFailure_iff {t : List (ProviderEvent Holdings)} {failed : Bool} :
    after noteFailure failed t = true ↔
      failed = true ∨ ∃ c ∈ t, FailedSpinUp c.op c.ans = true := by
  induction t generalizing failed with
  | nil => simp [after]
  | cons c t ih =>
    have hcons : after noteFailure failed (c :: t) =
        after noteFailure (failed || FailedSpinUp c.op c.ans) t := rfl
    rw [hcons, ih]
    simp [or_assoc]

theorem failures {α : Type} {p : ProviderProg α} {a : α} {t : List (ProviderEvent Holdings)}
    (hx : Exec (tidyProvider order) p h t a h') :
    ∃ t', Exec (failureEnv order) p (h, false) t' a (h', after noteFailure false t) :=
  hx.history false

def Has (h : Holdings) (region id : String) : Prop :=
  ∃ i ∈ h.instances, i.id = id ∧ i.region = region

theorem Has.evolve {region id : String} (hh : Has h region id)
    (hev : Evolve h.instances h'.instances) : Has h' region id := by
  obtain ⟨i, hi, hid, hr⟩ := hh
  unfold Has
  generalize h.instances = w at hev hi
  generalize h'.instances = w' at hev
  induction hev with
  | nil => exact absurd hi List.not_mem_nil
  | @cons a b _ _ hab _ ih =>
    rcases List.mem_cons.1 hi with rfl | hi
    · exact ⟨b, List.mem_cons_self, hab.1.trans hid, hab.2.1.trans hr⟩
    · obtain ⟨j, hj, h⟩ := ih hi
      exact ⟨j, List.mem_cons_of_mem _ hj, h⟩

theorem liveOnly_of_reports {region id state : String} (hw : AtMostOne h.instances)
    (hrep : Reports h.instances region (true, id, state)) : h.LiveOnly region id := by
  obtain ⟨i, hi, hr, hid, -, hdead⟩ := hrep
  intro j hj hlive
  by_cases hil : i.state.live = true
  · rw [← hid, eq_of_liveCount_le_one (hw region) hi hj (liveIn_iff.2 ⟨hil, hr⟩) hlive]
  · -- a reported instance that has ended comes after every live one
    have h0 := hdead (by simpa using hil)
    rw [liveIn_iff] at hlive
    exact absurd hlive.2 (liveCount_eq_zero.1 h0 j hj hlive.1)

structure Changed (s : JobState) (r : Bool × JobState) (h : Holdings) (failed : Bool) : Prop where
  sound : h.Sound
  failed : failed = true → h.Clear s.region
  stored : r.1 = true → s.infraState = true → Has h s.region r.2.instanceId

section Change

variable (horder : ∀ l, order l → LiveFirst l)
include horder

theorem call_wp {α : Type} {op : ProviderOp} {k : ProviderAns op → ProviderProg α}
    {post : α → Holdings × Bool → Prop} {failed : Bool} (hs : h.Sound) (hready : Ready op h)
    (hk : ∀ x h', h'.Sound → (FailedSpinUp op x = true → h'.Clear op.region) →
      cloudEnv True op h.instances x h'.instances →
      (k x).wp (failureEnv order) (fun _ _ => True) post (h', failed || FailedSpinUp op x)) :
    (Prog.call op k).wp (failureEnv order) (fun _ _ => True) post (h, failed) := by
  refine ⟨trivial, fun x s' hx => ?_⟩
  obtain ⟨h', failed'⟩ := s'
  obtain ⟨hx, hfailed⟩ := hx
  have hfailed : failed' = (failed || FailedSpinUp op x) := hfailed
  obtain ⟨hs', hclear⟩ := tidyProvider_sound hs hready hx
  rw [hfailed]
  exact hk x h' hs' hclear (tidyProvider_cloud horder hx)

theorem launchNew_holdings (s : JobState) (hs : h.Sound)
    (h0 : h.instances.liveCount s.region = 0) :
    s.launchNew.wp (failureEnv order) (fun _ _ => True) (fun r s' => Changed s r s'.1 s'.2)
      (h, false) := by
  unfold JobState.launchNew
  rw [provider_bind]
  refine call_wp horder hs ?_ fun x h₁ hs₁ hclear hcloud => ?_
  · exact h0
  cases x with
  | none => exact ⟨hs₁, fun _ => hclear rfl, nofun⟩
  | some inst =>
    obtain ⟨w₁, -, st, hinst⟩ := hcloud
    have hhas : Has h₁ s.region inst := by
      refine ⟨⟨inst, s.region, st⟩, ?_, rfl, rfl⟩
      rw [hinst]
      exact List.mem_append_right _ List.mem_cons_self
    dsimp only
    rw [provider_bind]
    refine call_wp horder hs₁ ?_ fun _ h₂ hs₂ _ hev => ?_
    · trivial
    exact ⟨hs₂, nofun, fun _ _ => hhas.evolve hev⟩

theorem useExisting_holdings (s : JobState) (inst : String) (hs : h.Sound)
    (hhas : Has h s.region inst) :
    (s.useExisting inst).wp (failureEnv order) (fun _ _ => True)
      (fun r s' => Changed s r s'.1 s'.2) (h, false) := by
  unfold JobState.useExisting
  dsimp only
  split
  · rw [provider_bind]
    refine call_wp horder hs ?_ fun x h₁ hs₁ _ hev => ?_
    · trivial
    cases x with
    | none => exact ⟨hs₁, nofun, nofun⟩
    | some _ => exact ⟨hs₁, nofun, fun _ _ => hhas.evolve hev⟩
  · exact ⟨hs, nofun, fun _ _ => hhas⟩

theorem launchMode_holdings (s : JobState) (a : Bool × String × String) (hs : h.Sound)
    (ha : Reports h.instances s.region a) :
    (s.launchMode a.1 a.2.1 a.2.2).wp (failureEnv order) (fun _ _ => True)
      (fun r s' => Changed s r s'.1 s'.2) (h, false) := by
  obtain ⟨exist, inst, state⟩ := a
  unfold JobState.launchMode
  split_ifs with hexist hup hstop
  · subst hexist
    obtain ⟨i, hi, hr, hid, -⟩ := ha
    exact useExisting_holdings horder s inst hs ⟨i, hi, hid, hr⟩
  · subst hexist
    -- stopping or stopped: it is spun down before the next one is launched
    have hl := liveOnly_of_reports hs.atMostOne ha
    obtain ⟨i, hi, hr, hid, hname, -⟩ := ha
    rw [provider_bind]
    refine call_wp horder hs ?_ fun x h₁ hs₁ _ hdown => ?_
    · exact hl
    cases x with
    | none => exact ⟨hs₁, nofun, nofun⟩
    | some _ =>
      have hlive : i.state.live = true := InstanceState.live_of_name (hname ▸ hstop)
      have h0 := liveCount_after_spinDown hs.atMostOne hi hr hid hlive hdown.1 (hdown.2 rfl)
      exact launchNew_holdings horder s hs₁ h0
  · subst hexist
    obtain ⟨i, -, -, -, hname, hdead⟩ := ha
    apply launchNew_holdings horder s hs (hdead _)
    cases hst : i.state <;> simp_all [InstanceState.name, InstanceState.live]
  · have hnone : exist = false := by simpa using hexist
    subst hnone
    exact launchNew_holdings horder s hs ha

theorem terminateMode_holdings (s : JobState) (a : Bool × String × String) (hs : h.Sound)
    (ha : Reports h.instances s.region a) (hoff : s.infraState = false) :
    (s.terminateMode a.1 a.2.1 a.2.2).wp (failureEnv order) (fun _ _ => True)
      (fun r s' => Changed s r s'.1 s'.2) (h, false) := by
  have hnot : ∀ {h' : Holdings} {r : Bool × JobState}, h'.Sound → Changed s r h' false := by
    intro h' r hs'
    refine ⟨hs', nofun, fun _ hon => ?_⟩
    rw [hoff] at hon
    cases hon
  obtain ⟨exist, inst, state⟩ := a
  unfold JobState.terminateMode
  split_ifs with hgone
  · exact hnot hs
  · have hexist : exist = true := by
      by_contra hno
      exact hgone (.inl (by simpa using hno))
    subst hexist
    rw [provider_bind]
    refine call_wp horder hs ?_ fun x h₁ hs₁ _ _ => ?_
    · exact liveOnly_of_reports hs.atMostOne ha
    cases x with
    | none => exact hnot hs₁
    | some _ => exact hnot hs₁

/-- A change of infra keeps every live instance with its address, and ends a launch with an
instance of the job. -/
theorem changeInfra_holdings (s : JobState) (now : Instant) (hs : h.Sound) :
    (s.changeInfra now).wp (failureEnv order) (fun _ _ => True)
      (fun r s' => s'.1.Sound ∧ (s'.2 = true → s'.1.Clear s.region) ∧
        ∀ s₁, r = some (true, s₁) → s.infraState = true → Has s'.1 s.region s₁.instanceId)
      (h, false) := by
  have himpl : s.changeInfraImpl.wp (failureEnv order) (fun _ _ => True)
      (fun r s' => Changed s r s'.1 s'.2) (h, false) := by
    unfold JobState.changeInfraImpl
    rw [provider_bind]
    refine call_wp horder hs ?_ fun x h₁ hs₁ _ hrep => ?_
    · trivial
    cases x with
    | none => exact ⟨hs₁, nofun, nofun⟩
    | some a =>
      have ha := hrep.2 a rfl
      show Prog.wp _ _ _ _ (h₁, false)
      by_cases hon : s.infraState = true
      · simpa only [hon, if_true] using launchMode_holdings horder s a hs₁ ha
      · simpa only [hon, Bool.false_eq_true, if_false] using
          terminateMode_holdings horder s a hs₁ ha (by simpa using hon)
  unfold JobState.changeInfra
  rw [wp_bind]
  refine wp_mono (fun _ _ h => h) (fun r s' hchanged => ?_) himpl
  refine ⟨hchanged.sound, hchanged.failed, fun s₁ hr hon => ?_⟩
  obtain ⟨b, s'⟩ := r
  cases (JobState.afterChange_eq hr).1
  cases Option.some.inj hr
  exact hchanged.stored rfl hon

end Change

end Provider

theorem heartbeatCheck_ready (s : JobState) (now : Instant) :
    (s.heartbeatCheck now).Calls fun op => ∀ h, Ready op h := by
  unfold JobState.heartbeatCheck
  rw [provider_bind]
  refine ⟨fun _ => trivial, fun x => ?_⟩
  match x with
  | none => trivial
  | some true =>
    refine ⟨fun _ => trivial, fun x => ?_⟩
    match x with
    | none => trivial
    | some true => trivial
    | some false => exact ⟨fun _ => trivial, fun _ => trivial⟩
  | some false =>
    dsimp only
    split <;> trivial

section Runs

variable {order : List Instance → Prop} {market : Market} {m m' : Manager Holdings}

theorem sound_step (horder : ∀ l, order l → LiveFirst l) {e : Label Holdings}
    (hs : m.world.Sound) (h : Step market (tidyProvider order) m e m') : m'.world.Sound := by
  cases h with
  | log log now =>
    rw [Manager.afterLog_world]
    exact hs
  | heartbeat _ _ hx =>
    rw [Manager.afterState_world]
    exact (hx.invariant (fun op w x w' (hop : ∀ h, Ready op h) hx hw =>
      (tidyProvider_sound hw (hop w) hx).1) (hx.calls (heartbeatCheck_ready m.state _)) hs).2
  | insolvency now =>
    rw [Manager.afterState_world]
    exact hs
  | @infraChange now t r w _ _ hx =>
    rw [Manager.afterInfraChange_world]
    obtain ⟨_, hfailure⟩ := failures hx
    exact (hfailure.sound (changeInfra_holdings horder m.state now hs)).2.1

/-- The job has one address in the region, and it is with the instance as long as that is live. -/
def Addressed (h : Holdings) (region id : String) : Prop :=
  Has h region id ∧ ∀ i ∈ h.instances, i.id = id → liveIn region i = true →
    ∃ e, h.addresses.filter (fun e => e.region = region) = [e] ∧ e.holder = some id

theorem filter_region {l : List ElasticIp} (hl : (l.map ElasticIp.region).Nodup) {e : ElasticIp}
    (he : e ∈ l) : l.filter (fun e' => e'.region = e.region) = [e] := by
  induction l with
  | nil => exact absurd he List.not_mem_nil
  | cons a l ih =>
    obtain ⟨hnot, hl⟩ := List.nodup_cons.1 hl
    rcases List.mem_cons.1 he with rfl | he
    · rw [List.filter_cons_of_pos (by simp), List.filter_eq_nil_iff.2]
      intro b hb hr
      exact hnot (List.mem_map.2 ⟨b, hb, by simpa using hr⟩)
    · have hne : a.region ≠ e.region := fun hr => hnot (List.mem_map.2 ⟨e, he, hr.symm⟩)
      rw [List.filter_cons_of_neg (by simpa using hne), ih hl he]

theorem addressed_of_sound {h : Holdings} (hs : h.Sound) {region id : String}
    (hhas : Has h region id) : Addressed h region id := by
  refine ⟨hhas, fun i hi hid hlive => ?_⟩
  obtain ⟨e, he, hr, hholder⟩ := hs.served region i hi hlive
  refine ⟨e, ?_, hid ▸ hholder⟩
  have hfilter := filter_region hs.single he
  rwa [hr] at hfilter

/-- In every run whose provider operations do not stop halfway: where `change_infra` reports a
launch done, the instance that it stored has the address of the job, and after a `spin_up` that
answered an error neither a live instance nor an address is left. -/
theorem launches_addressed (horder : ∀ l, order l → LiveFirst l) {nowTs : Duration}
    {now now' : Instant} {jobId : JobId} {delay : ℕ} {regions : List String} {h₀ h' : Holdings}
    (hs : h₀.Sound) {es : List (Label Holdings)}
    (hrun : Run (Step market (tidyProvider order)) (.start nowTs now jobId delay regions h₀) es m)
    {t : List (ProviderEvent Holdings)} {r : Option (Bool × JobState)}
    (hx : Exec (tidyProvider order) (m.state.changeInfra now') m.world t r h') :
    (∀ s, r = some (true, s) → m.state.infraState = true →
      Addressed h' m.state.region s.instanceId) ∧
    ((∃ c ∈ t, FailedSpinUp c.op c.ans = true) → h'.Clear m.state.region) := by
  have hsound : m.world.Sound :=
    hrun.invariant (fun _ _ _ hs h => sound_step horder hs h) hs
  obtain ⟨_, hfailure⟩ := failures hx
  obtain ⟨hs', hclear, hstored⟩ :=
    (hfailure.sound (changeInfra_holdings horder m.state now' hsound)).2
  constructor
  · intro s hr hon
    exact addressed_of_sound hs' (hstored s hr hon)
  · intro hfailed
    exact hclear (noteFailure_iff.2 (.inr hfailed))

end Runs

namespace Sample

def address (association : Option (String × String)) : ElasticIp :=
  ⟨"eipalloc-1", "1.2.3.4", "ap-south-1", association⟩

def nothing : Holdings := ⟨[], []⟩

def launchedOnly : Holdings := nothing.launch ⟨"i-1", "ap-south-1", .running⟩

def unaddressed : Holdings := launchedOnly.allocate (address none)

def addressed : Holdings :=
  unaddressed.associate "i-1" "eipalloc-1" "ap-south-1" "eipassoc-1"

theorem sound_nothing : nothing.Sound := by
  refine ⟨fun r => Nat.zero_le 1, List.nodup_nil, fun r i hi => ?_⟩
  exact absurd hi List.not_mem_nil

theorem exec_launch {order : List Instance → Prop} {x : Option String} {h' : Holdings}
    {t : List (Event Ec2Op Ec2Ans Holdings)}
    (hx : Exec (holdingsEnv order) (Aws.finishSpinUp jobId "i-1" "ap-south-1").run launchedOnly t x
      h') :
    ∃ t', Exec (holdingsEnv order) (aws opened.spinUpOp) nothing t' x h' ∧
      after Marks.add {} t' = after Marks.add { launched := true } t := by
  have htypes : holdingsEnv order (.describeInstanceTypes "c6a.xlarge" "ap-south-1") nothing
      (some [⟨some ["x86_64"], some 4, some 8192⟩]) nothing := Drifts.refl _
  have himages : ∀ owner name, holdingsEnv order (.describeImages owner name "ap-south-1") nothing
      (some [⟨some "oyster", some "ami-1"⟩]) nothing := fun _ _ => Drifts.refl _
  have hsubnets : holdingsEnv order (.describeSubnets "ap-south-1") nothing
      (some [some "subnet-1"]) nothing := Drifts.refl _
  have hgroups : holdingsEnv order (.describeSecurityGroups "ap-south-1") nothing
      (some [some "sg-1"]) nothing := Drifts.refl _
  have hrun : holdingsEnv order
      (.runInstances jobId "ami-1" "c6a.xlarge" "subnet-1" "sg-1" "ap-south-1") nothing
      (some [some "i-1"]) launchedOnly :=
    ⟨nothing, Drifts.refl _, .inr ⟨"i-1", .running, rfl, rfl⟩⟩
  exact ⟨_, .call htypes (.call (himages _ _) (.call hsubnets (.call hgroups (.call hrun hx)))),
    rfl⟩

theorem allocates {order : List Instance → Prop} :
    holdingsEnv order (.describeAddresses (.job jobId) "ap-south-1") launchedOnly (some [])
        launchedOnly ∧
      holdingsEnv order (.allocateAddress jobId "ap-south-1") launchedOnly
        (some (address none).describe) unaddressed := by
  refine ⟨⟨Drifts.refl _, fun addresses haddresses => ?_⟩, launchedOnly, Drifts.refl _,
    .inr ⟨address none, rfl, rfl, rfl, rfl⟩⟩
  cases haddresses
  exact ⟨[], fun e => ⟨fun h => absurd h List.not_mem_nil,
    fun h => absurd h.1 List.not_mem_nil⟩, rfl⟩

theorem associates {order : List Instance → Prop} :
    holdingsEnv order (.associateAddress "i-1" "eipalloc-1" "ap-south-1") unaddressed (some ())
      addressed :=
  ⟨unaddressed, Drifts.refl _,
    .inr ⟨"eipassoc-1", rfl, ⟨address none, List.mem_cons_self, rfl, rfl⟩, rfl⟩⟩

theorem spinUp_fails {order : List Instance → Prop} :
    holdingsProvider order opened.spinUpOp nothing none unaddressed := by
  have hassociate : holdingsEnv order (.associateAddress "i-1" "eipalloc-1" "ap-south-1")
      unaddressed none unaddressed := ⟨unaddressed, Drifts.refl _, .inl ⟨rfl, rfl⟩⟩
  have hcleanup : holdingsEnv order (.describeAddresses (.instanceId "i-1") "ap-south-1")
      unaddressed none unaddressed := ⟨Drifts.refl _, nofun⟩
  obtain ⟨t, hx, -⟩ := exec_launch (.call allocates.1 (.call allocates.2
    (.call hassociate (.call hcleanup (.ret _ _)))))
  exact ⟨t, hx⟩

theorem spinUp_done {order : List Instance → Prop} :
    tidyProvider order opened.spinUpOp nothing (some "i-1") addressed := by
  obtain ⟨t, hx, hmarks⟩ := @exec_launch order _ _ _ (.call allocates.1 (.call allocates.2
    (.call associates (.ret _ _))))
  refine ⟨t, hx, ?_⟩
  rw [hmarks]
  exact ⟨nofun, fun _ => .inl rfl, fun _ => .inl rfl⟩

theorem finds_running (h : Holdings) (hi : h.instances = [⟨"i-1", "ap-south-1", .running⟩]) :
    holdingsProvider LiveFirst (.getJobInstance jobId "ap-south-1") h
      (some (true, "i-1", "running")) h := by
  have hdescribe : holdingsEnv LiveFirst (.describeInstances (.job jobId) "ap-south-1") h
      (some [[⟨some "i-1", some "running"⟩]]) h := by
    refine ⟨Drifts.refl _, fun reservations hres => ?_⟩
    cases hres
    refine ⟨[⟨"i-1", "ap-south-1", .running⟩], ?_, ?_, rfl⟩
    · rw [hi]
      constructor <;> decide
    · intro i hi hdead
      cases hi
      cases hdead
  exact ⟨_, .call hdescribe (.ret _ _)⟩

theorem finds_nothing : tidyProvider LiveFirst (.getJobInstance jobId "ap-south-1") nothing
    (some (false, "", "")) nothing := by
  have hdescribe : holdingsEnv LiveFirst (.describeInstances (.job jobId) "ap-south-1") nothing
      (some []) nothing := by
    refine ⟨Drifts.refl _, fun reservations hres => ?_⟩
    cases hres
    refine ⟨[], ?_, nofun, rfl⟩
    constructor <;> decide
  exact ⟨_, .call hdescribe (.ret _ _), nofun, nofun, nofun⟩

def halfwayCalls : List (ProviderEvent Holdings) :=
  [⟨nothing, .getJobInstance jobId "ap-south-1", some (false, "", "")⟩,
    ⟨nothing, opened.spinUpOp, none⟩]

def retried : JobState := { opened with infraChangeTime := 302 * 10 ^ 9 }

theorem step_halfway : Step (market []) (holdingsProvider LiveFirst)
    ⟨opened, nothing, .running, [openLog]⟩ ⟨.infraChange, 300 * 10 ^ 9, halfwayCalls⟩
    ⟨retried, unaddressed, .running, [openLog]⟩ := by
  have hfinds : holdingsProvider LiveFirst (.getJobInstance jobId "ap-south-1") nothing
      (some (false, "", "")) nothing := by
    obtain ⟨t, hx, -⟩ := finds_nothing
    exact ⟨t, hx⟩
  have himpl : Exec (holdingsProvider LiveFirst) opened.changeInfraImpl nothing halfwayCalls
      (false, opened) unaddressed :=
    .call hfinds (.call spinUp_fails (.ret _ _))
  have hx : Exec (holdingsProvider LiveFirst) (opened.changeInfra (300 * 10 ^ 9)) nothing
      halfwayCalls (some (false, retried)) unaddressed :=
    List.append_nil halfwayCalls ▸ himpl.bind (.ret _ _)
  have h : Step (market []) (holdingsProvider LiveFirst)
      ⟨opened, nothing, .running, [openLog]⟩ _ _ := .infraChange rfl rfl hx
  exact h

end Sample

/-- The sample job is launched and its instance has the address. -/
theorem launched_addressed : Addressed Sample.addressed "ap-south-1" "i-1" := by
  have hrun : Run (Step (Sample.market []) (tidyProvider LiveFirst)) (Sample.start Sample.nothing)
      [Sample.openLabel] ⟨Sample.opened, Sample.nothing, .running, [Sample.openLog]⟩ :=
    .cons Sample.step_open (.nil _)
  have henclave : tidyProvider LiveFirst
      { Sample.opened with instanceId := "i-1" }.runEnclaveOp Sample.addressed (some ())
      Sample.addressed :=
    ⟨_, .call (x := some ()) (Drifts.refl _) (.ret _ _), nofun, nofun, nofun⟩
  have himpl : Exec (tidyProvider LiveFirst) Sample.opened.changeInfraImpl Sample.nothing _
      (true, { Sample.opened with instanceId := "i-1" }) Sample.addressed :=
    .call Sample.finds_nothing (.call Sample.spinUp_done (.call henclave (.ret _ _)))
  have hx : Exec (tidyProvider LiveFirst) (Sample.opened.changeInfra (300 * 10 ^ 9))
      Sample.nothing _ (some (true, { Sample.opened with
        instanceId := "i-1", infraChangeScheduled := false })) Sample.addressed :=
    himpl.bind (.ret _ _)
  exact (launches_addressed (fun _ h => h) Sample.sound_nothing hrun hx).1 _ rfl rfl

/-- A launch whose association and clean-up failed is retried: the instance is found running, and
the launch is reported done although the instance has no address. -/
theorem retry_unaddressed : ∃ es m now t s h',
    Run (Step (Sample.market []) (holdingsProvider LiveFirst)) (Sample.start Sample.nothing) es
      m ∧
    Exec (holdingsProvider LiveFirst) (m.state.changeInfra now) m.world t (some (true, s)) h' ∧
    m.state.infraState = true ∧ ¬Addressed h' m.state.region s.instanceId := by
  have himpl : Exec (holdingsProvider LiveFirst) Sample.retried.changeInfraImpl
      Sample.unaddressed _ (true, { Sample.retried with instanceId := "i-1" })
      Sample.unaddressed := .call (Sample.finds_running _ rfl) (.ret _ _)
  have hx : Exec (holdingsProvider LiveFirst) (Sample.retried.changeInfra (302 * 10 ^ 9))
      Sample.unaddressed _ (some (true, { Sample.retried with
        instanceId := "i-1", infraChangeScheduled := false })) Sample.unaddressed :=
    himpl.bind (.ret _ _)
  -- the retry asks for the instance and calls nothing else
  refine ⟨_, _, _, _, _, _, .cons Sample.step_open (.cons Sample.step_halfway (.nil _)), hx, rfl,
    fun haddressed => ?_⟩
  obtain ⟨e, hfilter, hholder⟩ := haddressed.2 ⟨"i-1", "ap-south-1", .running⟩ List.mem_cons_self
    rfl rfl
  have hmem : e ∈ Sample.unaddressed.addresses := by
    have he : e ∈ Sample.unaddressed.addresses.filter fun e => e.region = "ap-south-1" :=
      hfilter ▸ List.mem_cons_self
    exact (List.mem_filter.1 he).1
  cases List.mem_singleton.1 hmem
  cases hholder

end Oyster.ControlPlane
