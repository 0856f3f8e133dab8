import Oyster.ControlPlane.Aws
import Oyster.ControlPlane.LeakFree

namespace Oyster.ControlPlane

open Prog Instances

namespace Instances

/-- `describe_instances` returns every live instance of the region, and ended ones as it likes. -/
structure Lists (w : Instances) (region : String) (l : List Instance) : Prop where
  sound : ∀ i ∈ l, i ∈ w ∧ i.region = region
  complete : ∀ i ∈ w, i.region = region → i.state.live = true → i ∈ l

/-- Where any listed instance is live, the first one is. -/
def LiveFirst (l : List Instance) : Prop :=
  ∀ i, l.head? = some i → i.state.live = false → ∀ j ∈ l, j.state.live = false

/-- EC2 with the instances of the job, listed in some `order`. A launch that reports an error may
still have left an instance. -/
def ec2Env (order : List Instance → Prop) : Prog.Env Ec2Op Ec2Ans Instances
  | .describeInstances (.job _) region, w, x, w' => Evolve w w' ∧ ∀ reservations,
      x = some reservations → ∃ l, Lists w' region l ∧ order l ∧
        reservations = l.map fun i => [⟨some i.id, some i.state.name⟩]
  | .runInstances _ _ _ _ _ region, w, x, w' => ∃ id, SpunUp True region w id w' ∧
      x = id.map fun id => [some id]
  | .terminateInstances id _, w, x, w' => Evolve w w' ∧
      (x = some () → ∀ i ∈ w', i.id = id → i.state.live = false)
  | _, w, _, w' => Evolve w w'

def Quiet (order : List Instance → Prop) {α : Type} (p : AwsProg α) : Prop :=
  ∀ w, p.run.wp (ec2Env order) (fun _ _ => True) (fun _ w' => Evolve w w') w

section Quiet

variable {order : List Instance → Prop} {α β : Type}

theorem Quiet.pure (a : α) : Quiet order (Pure.pure a : AwsProg α) := Evolve.refl

theorem Quiet.okOr (x : Option α) : Quiet order (okOr x) := Evolve.refl

theorem Quiet.wp_bind {x : AwsProg α} {f : α → AwsProg β} {post : Option β → Instances → Prop}
    (hx : Quiet order x) {w : Instances} (hnone : ∀ w', Evolve w w' → post none w')
    (hf : ∀ a w', Evolve w w' → (f a).run.wp (ec2Env order) (fun _ _ => True) post w') :
    (x >>= f).run.wp (ec2Env order) (fun _ _ => True) post w := by
  rw [wp_run_bind]
  refine wp_mono (fun _ _ h => h) (fun a w' h => ?_) (hx w)
  match a with
  | none => exact hnone w' h
  | some a => exact hf a w' h

theorem Quiet.bind {x : AwsProg α} {f : α → AwsProg β} (hx : Quiet order x)
    (hf : ∀ a, Quiet order (f a)) : Quiet order (x >>= f) :=
  fun _ => hx.wp_bind (fun _ h => h) fun a w' h =>
    wp_mono (fun _ _ h => h) (fun _ _ h' => h.trans h') (hf a w')

theorem Quiet.ec2 {op : Ec2Op} (h : ∀ w x w', ec2Env order op w x w' → Evolve w w') :
    Quiet order (ec2 op) := fun w => ⟨trivial, fun x w' hx => h w x w' hx⟩

theorem Quiet.of_reads {p : AwsProg α} (h : Aws.Reads p) : Quiet order p := by
  apply Calls.wp Evolve.refl Evolve.trans _ h
  intro op w x w' hop hx
  cases op with
  | describeInstances filter region =>
    cases filter with
    | job job => exact hx.1
    | instanceId id => exact hx
  | describeInstanceTypes => exact hx
  | describeImages => exact hx
  | describeSubnets => exact hx
  | describeSecurityGroups => exact hx
  | describeAddresses => exact hx
  | _ => cases hop

theorem Quiet.allocateIpAddr (job : JobId) (region : String) :
    Quiet order (Aws.allocateIpAddr job region) := by
  refine .bind (.of_reads (Aws.reads_getJobElasticIp _ _)) fun (exist, _, _) => ?_
  cases exist with
  | true => exact .pure _
  | false =>
    exact .bind (.ec2 fun _ _ _ h => h) fun _ => .bind (.okOr _) fun _ => .bind (.okOr _)
      fun _ => .pure _

theorem Quiet.postSpinUp (job : JobId) (inst region : String) :
    Quiet order (Aws.postSpinUp job inst region) :=
  .bind (.allocateIpAddr _ _) fun _ => .ec2 fun _ _ _ h => h

theorem Quiet.whenExists {exist : Bool} {p : AwsProg Unit} (h : Quiet order p) :
    Quiet order (whenExists exist p) := by
  cases exist with
  | true => exact h
  | false => exact .pure _

theorem Quiet.releaseAddresses (id : String) (job : JobId) (region : String) :
    Quiet order (Aws.releaseAddresses id job region) :=
  .bind (.of_reads (Aws.reads_getInstanceElasticIp _ _)) fun _ =>
    .bind (.whenExists (.ec2 fun _ _ _ h => h)) fun _ =>
      .bind (.of_reads (Aws.reads_getJobElasticIp _ _)) fun _ => .whenExists (.ec2 fun _ _ _ h => h)

end Quiet

theorem Evolve.append_inv {w w' : Instances} {i : Instance} (h : Evolve (w ++ [i]) w') :
    ∃ w₁ st, Evolve w w₁ ∧ w' = w₁ ++ [⟨i.id, i.region, st⟩] := by
  induction w generalizing w' with
  | nil =>
    cases h with
    | @cons _ j _ _ hij h =>
      cases h
      exact ⟨[], j.state, .nil, by rw [← hij.1, ← hij.2.1]; rfl⟩
  | cons k w ih =>
    cases h with
    | cons hkj h =>
      obtain ⟨w₁, st, hev, rfl⟩ := ih h
      exact ⟨_ :: w₁, st, .cons hkj hev, rfl⟩

section SpunUp

variable {region : String} {w w' w'' : Instances} {x : Option String}

theorem SpunUp.of_evolve (hev : Evolve w w') (h : SpunUp True region w' x w'') :
    SpunUp True region w x w'' := by
  obtain ⟨w₁, h₁, hx⟩ := h
  exact ⟨w₁, hev.trans h₁, hx⟩

theorem SpunUp.none (hev : Evolve w w') : SpunUp True region w none w' :=
  ⟨w', hev, .inl rfl⟩

theorem SpunUp.evolve {id : String} (h : SpunUp True region w (some id) w')
    (hev : Evolve w' w'') : SpunUp True region w (some id) w'' := by
  obtain ⟨w₁, h₁, st, rfl⟩ := h
  obtain ⟨w₂, st', h₂, rfl⟩ := hev.append_inv
  exact ⟨w₂, h₁.trans h₂, st', rfl⟩

/-- A launch may leave its instance behind and still report an error. -/
theorem SpunUp.forget {id : String} (h : SpunUp True region w (some id) w') :
    SpunUp True region w Option.none w' := by
  obtain ⟨w₁, h₁, st, rfl⟩ := h
  exact ⟨w₁, h₁, .inr ⟨trivial, _, rfl, rfl⟩⟩

end SpunUp

section Refines

variable {order : List Instance → Prop} (w : Instances)

theorem launchInstance_wp (job : JobId) (instanceType family architecture region : String) :
    (Aws.launchInstance job instanceType family architecture region).run.wp (ec2Env order)
      (fun _ _ => True) (fun x w' => SpunUp True region w x w') w := by
  refine Quiet.wp_bind (.of_reads (Aws.reads_launchInputs _ _ _)) (fun _ h => .none h)
    fun _ w₁ hev => ?_
  rw [wp_run_bind]
  refine ⟨trivial, fun x w₂ ⟨id, hup, hx⟩ => ?_⟩
  subst hx
  cases id with
  | none => exact hup.of_evolve hev
  | some id => exact hup.of_evolve hev

theorem spinDownInstance_wp (id : String) (job : JobId) (region : String) :
    (Aws.spinDownInstance id job region).run.wp (ec2Env order) (fun _ _ => True)
      (fun x w' => Evolve w w' ∧ (x = some () → ∀ i ∈ w', i.id = id → i.state.live = false)) w := by
  refine Quiet.wp_bind (.releaseAddresses _ _ _) (fun _ h => ⟨h, by simp⟩) fun _ w₁ hev => ?_
  exact ⟨trivial, fun x w₂ ⟨h, hdead⟩ => ⟨hev.trans h, hdead⟩⟩

theorem finishSpinUp_wp {w₀ : Instances} (job : JobId) (inst region : String)
    (hup : SpunUp True region w₀ (some inst) w) :
    (Aws.finishSpinUp job inst region).run.wp (ec2Env order) (fun _ _ => True)
      (fun x w' => SpunUp True region w₀ x w') w := by
  unfold Aws.finishSpinUp
  rw [wp_run_bind, OptionT.run_lift, wp_bind]
  refine wp_mono (fun _ _ h => h) (fun x w₁ hev => ?_) (Quiet.postSpinUp job inst region w)
  have hup := hup.evolve hev
  cases x with
  | some _ => exact hup
  | none =>
    -- the instance is there, whether or not it could be terminated
    refine (wp_run_bind _ _ _ _).2 (wp_mono (fun _ _ h => h) (fun x w₂ ⟨hev, _⟩ => ?_)
      (spinDownInstance_wp w₁ inst job region))
    cases x <;> exact (hup.evolve hev).forget

theorem spinUpInstance_wp (job : JobId) (instanceType family region : String)
    (reqMem reqVcpu : ℤ) :
    (Aws.spinUpInstance job instanceType family region reqMem reqVcpu).run.wp (ec2Env order)
      (fun _ _ => True) (fun x w' => SpunUp True region w x w') w := by
  unfold Aws.spinUpInstance
  refine Quiet.wp_bind (x := ec2 (.describeInstanceTypes instanceType region))
    (.ec2 fun _ _ _ h => h) (fun _ h => .none h) fun _ w₁ h₁ => ?_
  refine Quiet.wp_bind (.okOr _) (fun _ h => .none (h₁.trans h)) fun (arch, vCpus, mem) w₂ h₂ => ?_
  dsimp only
  split
  · exact .none (h₁.trans h₂)
  · rw [wp_run_bind]
    refine wp_mono (fun _ _ h => h) (fun x w₃ hup => ?_) (launchInstance_wp w₂ ..)
    have hup := hup.of_evolve (h₁.trans h₂)
    cases x with
    | none => exact hup
    | some id => exact finishSpinUp_wp w₃ job id region hup

theorem getJobInstanceId_wp (horder : ∀ l, order l → LiveFirst l) (job : JobId) (region : String) :
    (Aws.getJobInstanceId job region).run.wp (ec2Env order) (fun _ _ => True)
      (fun x w' => Evolve w w' ∧ ∀ a, x = some a → Reports w' region a) w := by
  unfold Aws.getJobInstanceId
  rw [wp_run_bind]
  refine ⟨trivial, fun x w' ⟨hev, hx⟩ => ?_⟩
  cases x with
  | none => exact ⟨hev, by simp⟩
  | some reservations =>
    obtain ⟨l, hl, hfirst, rfl⟩ := hx _ rfl
    match l, hl, horder l hfirst with
    | [], hl, _ =>
      refine ⟨hev, fun a ha => ?_⟩
      cases ha
      exact liveCount_eq_zero.2 fun i hi hlive hr => by simpa using hl.complete i hi hr hlive
    | i :: l, hl, hfirst =>
      refine ⟨hev, fun a ha => ?_⟩
      cases ha
      obtain ⟨hi, hr⟩ := hl.sound i List.mem_cons_self
      refine ⟨i, hi, hr, rfl, rfl, fun hdead => liveCount_eq_zero.2 fun j hj hlive hjr => ?_⟩
      have := hfirst i rfl hdead j (hl.complete j hj hjr hlive)
      simp [this] at hlive

variable {w} in
/-- The provider of `aws.rs` refines the abstract one, whose failed launches may leave an
instance, when a live instance is listed first. -/
theorem aws_wp (horder : ∀ l, order l → LiveFirst l) (op : ProviderOp) :
    (aws op).wp (ec2Env order) (fun _ _ => True) (fun x w' => cloudEnv True op w x w') w := by
  cases op with
  | spinUp job instanceType family region reqMem reqVcpu _ =>
    exact spinUpInstance_wp w job instanceType family region reqMem reqVcpu
  | spinDown id job region => exact spinDownInstance_wp w id job region
  | getJobInstance job region => exact getJobInstanceId_wp w horder job region
  | checkInstanceRunning id region =>
    exact Quiet.bind (.of_reads (Aws.reads_getInstanceState id region)) (fun _ => .pure _) w
  | checkEnclaveRunning id region =>
    exact Quiet.bind (x := ec2 (.sshDescribeEnclave id region)) (.ec2 fun _ _ _ h => h)
      (fun _ => .pure _) w
  | runEnclave => exact ⟨trivial, fun _ _ h => h⟩
  | updateEnclaveImage => exact ⟨trivial, fun _ _ h => h⟩

end Refines

def awsEnv (order : List Instance → Prop) : Prog.Env ProviderOp ProviderAns Instances :=
  fun op w x w' => ∃ t, Exec (ec2Env order) (aws op) w t x w'

theorem awsEnv_refines {order : List Instance → Prop} (horder : ∀ l, order l → LiveFirst l)
    {op : ProviderOp} {w w' : Instances} {x : ProviderAns op} (h : awsEnv order op w x w') :
    cloudEnv True op w x w' := by
  obtain ⟨t, h⟩ := h
  exact (h.sound (aws_wp horder op)).2

theorem cloudEnv_onlyIn {leftover : Prop} {op : ProviderOp} {w w' : Instances}
    {x : ProviderAns op} (h : cloudEnv leftover op w x w') (hw : OnlyIn w op.region) :
    OnlyIn w' op.region := by
  cases op with
  | spinUp =>
    obtain ⟨w₁, hev, hx⟩ := h
    have h₁ := hev.onlyIn hw
    cases x with
    | none =>
      rcases hx with rfl | ⟨-, i, hi, rfl⟩
      · exact h₁
      · exact h₁.append hi
    | some id =>
      obtain ⟨st, rfl⟩ := hx
      exact h₁.append rfl
  | spinDown => exact h.1.onlyIn hw
  | getJobInstance => exact h.1.onlyIn hw
  | checkInstanceRunning => exact Evolve.onlyIn h hw
  | checkEnclaveRunning => exact Evolve.onlyIn h hw
  | runEnclave => exact Evolve.onlyIn h hw
  | updateEnclaveImage => exact Evolve.onlyIn h hw

end Instances

/-- Every live instance is where the state would look for it. -/
def InRegion (m : Manager Instances) (e : Label Instances) : Prop :=
  match e.branch with
  | .infraChange => m.world.OnlyIn m.state.region
  | _ => True

def NoneUpAtSpinUp (_ : Manager Instances) (e : Label Instances) : Prop :=
  ∀ c ∈ e.calls, c.op.isSpinUp = true → ∀ i ∈ c.world, i.state.up = false

/-- At most one instance is live in a region, and none once the termination is reported done. -/
structure OneLive (m : Manager Instances) : Prop where
  atMostOne : m.world.AtMostOne
  terminated : m.status = .returned 0 → m.world.NoneLive

section Steps

variable {leftover : Prop} {market : Market} {m m' : Manager Instances} {e : Label Instances}

theorem OneLive.step (hm : OneLive m) (hc : InRegion m e)
    (h : Step market (cloudEnv leftover) m e m') : OneLive m' := by
  refine ⟨step_atMostOne hm.atMostOne h, fun hret => ?_⟩
  cases h with
  | log log now hrun =>
    obtain ⟨s, hs⟩ := Manager.afterLog_returned hret
    exact absurd hret (by simp [hs, Manager.afterLog])
  | heartbeat hrun => simpa [hrun] using Manager.afterState_returned hret
  | insolvency now hrun => simpa [hrun] using Manager.afterState_returned hret
  | infraChange _ _ hx =>
    rw [Manager.afterInfraChange_world]
    exact noneLive_of_terminated hm.atMostOne (fun _ => hc) hx hret

theorem OneLive.noneUp (hm : OneLive m) (hc : InRegion m e)
    (h : Step market (cloudEnv leftover) m e m') : NoneUpAtSpinUp m e := by
  cases h with
  | log => simp [NoneUpAtSpinUp]
  | heartbeat _ _ hx =>
    intro c hcall hup
    simp [(JobState.heartbeatCheck_exec hx).1 c hcall] at hup
  | insolvency => simp [NoneUpAtSpinUp]
  | @infraChange now t r w _ _ hx =>
    have hmay := (hx.sound (m.state.changeInfra_wp _ now m.world)).1
    obtain ⟨honly, -⟩ := hx.invariant
      (fun op w x w' (hop : op.region = m.state.region) hx hw =>
        hop ▸ cloudEnv_onlyIn hx (hop ▸ hw))
      (fun c hc => (hmay c hc).1) hc
    have hnone := (hx.sound (changeInfra_cloud m.state now hm.atMostOne)).1
    intro c hcall hup i hi
    obtain ⟨-, hop⟩ := (hmay c hcall).2 hup
    have h0 : c.world.liveCount m.state.region = 0 := by
      have := hnone c hcall
      rwa [hop] at this
    by_contra hiup
    have hl := InstanceState.live_of_up (by simpa using hiup)
    simp [noneLive_of_onlyIn (honly c hcall) h0 i hi] at hl

end Steps

section Answers

variable {order : List Instance → Prop} {w : Instances} {job : JobId} {region : String}

theorem awsEnv_getJobInstance {i : Instance} {l : List Instance} (hl : Lists w region (i :: l))
    (ho : order (i :: l)) :
    awsEnv order (.getJobInstance job region) w (some (true, i.id, i.state.name)) w := by
  have h : ec2Env order (.describeInstances (.job job) region) w
      (some ((i :: l).map fun i => [⟨some i.id, some i.state.name⟩])) w :=
    ⟨.refl w, fun rs hrs => ⟨i :: l, hl, ho, (Option.some.inj hrs).symm⟩⟩
  exact ⟨_, .call h (.ret _ _)⟩

theorem awsEnv_spinUp_failed {instanceType family : String} {mem vcpu : ℤ} {bandwidth : ℕ} :
    awsEnv order (.spinUp job instanceType family region mem vcpu bandwidth) w none w :=
  ⟨_, .call (x := none) (Evolve.refl w) (.ret _ _)⟩

theorem awsEnv_spinDown (id : String) :
    awsEnv order (.spinDown id job region) w (some ()) (spunDown w id) := by
  have haddr (filter : Ec2Filter) :
      ec2Env order (.describeAddresses filter region) w (some []) w := Evolve.refl w
  have hdown : ec2Env order (.terminateInstances id region) w (some ()) (spunDown w id) :=
    ⟨evolve_spunDown w id, fun _ _ hi hid => spunDown_dead hi hid⟩
  exact ⟨_, .call (haddr _) (.call (haddr _) (.call hdown (.ret _ _)))⟩

end Answers

/-- On Aws, as long as a live instance is listed first and none is live outside the region of the
state: `spin_up` finds no pending or running instance of the job, and a termination that is
reported done leaves no live one. -/
theorem aws_one_instance {order : List Instance → Prop} (horder : ∀ l, order l → LiveFirst l)
    {market : Market} {nowTs : Duration} {now : Instant} {jobId : JobId} {delay : ℕ}
    {regions : List String} {w : Instances} {es : List (Label Instances)}
    {m : Manager Instances} (hw : w.AtMostOne)
    (h : Along (Step market (awsEnv order)) InRegion
      (.start nowTs now jobId delay regions w) es m) :
    Along (Step market (awsEnv order)) NoneUpAtSpinUp
        (.start nowTs now jobId delay regions w) es m ∧
      (m.status = .returned 0 → m.world.NoneLive) := by
  have hcloud {m m' : Manager Instances} {e : Label Instances} :
      Step market (awsEnv order) m e m' → Step market (cloudEnv True) m e m' :=
    Step.mono fun _ _ _ _ hx => awsEnv_refines horder hx
  have hstart : OneLive (Manager.start nowTs now jobId delay regions w) := ⟨hw, nofun⟩
  constructor
  · exact h.of_invariant (fun _ _ _ (hm : OneLive _) hc hs => hm.step hc (hcloud hs))
      (fun _ _ _ hm hc hs => hm.noneUp hc (hcloud hs)) hstart
  · exact (h.invariant (fun _ _ _ (hm : OneLive _) hc hs => hm.step hc (hcloud hs))
      hstart).terminated

namespace Sample

/-- A job whose first instance was terminated and replaced. -/
def replaced : Instances :=
  [⟨"i-0", "ap-south-1", .terminated⟩, ⟨"i-1", "ap-south-1", .running⟩]

theorem lists_replaced : Lists replaced "ap-south-1" replaced := by
  constructor <;> decide

theorem lists_reversed : Lists replaced "ap-south-1" replaced.reverse := by
  constructor <;> decide

def relaunchCalls : List (ProviderEvent Instances) :=
  [⟨replaced, .getJobInstance jobId "ap-south-1", some (true, "i-0", "terminated")⟩,
    ⟨replaced, opened.spinUpOp, none⟩]

theorem step_relaunch : Step (market []) (awsEnv fun _ => True)
    ⟨opened, replaced, .running, [openLog]⟩ ⟨.infraChange, 300 * 10 ^ 9, relaunchCalls⟩
    ⟨{ opened with infraChangeTime := 302 * 10 ^ 9 }, replaced, .running, [openLog]⟩ := by
  have himpl : Exec (awsEnv fun _ => True) opened.changeInfraImpl replaced relaunchCalls
      (false, opened) replaced :=
    .call (awsEnv_getJobInstance lists_replaced trivial) (.call awsEnv_spinUp_failed (.ret _ _))
  have hx : Exec (awsEnv fun _ => True) (opened.changeInfra (300 * 10 ^ 9)) replaced relaunchCalls
      (some (false, { opened with infraChangeTime := 302 * 10 ^ 9 })) replaced :=
    List.append_nil relaunchCalls ▸ himpl.bind (.ret _ _)
  have h : Step (market []) (awsEnv fun _ => True) ⟨opened, replaced, .running, [openLog]⟩ _ _ :=
    .infraChange rfl rfl hx
  exact h

def forgetCalls : List (ProviderEvent Instances) :=
  [⟨replaced, .getJobInstance jobId "ap-south-1", some (true, "i-0", "terminated")⟩]

theorem step_forget : Step (market []) (awsEnv fun _ => True)
    ⟨closedAtOnce, replaced, .running, [openLog, closeLog]⟩ ⟨.infraChange, 0, forgetCalls⟩
    ⟨{ closedAtOnce with infraChangeScheduled := false }, replaced, .returned 0,
      [openLog, closeLog]⟩ := by
  have himpl : Exec (awsEnv fun _ => True) closedAtOnce.changeInfraImpl replaced forgetCalls
      (true, closedAtOnce) replaced :=
    .call (awsEnv_getJobInstance lists_replaced trivial) (.ret _ _)
  have hx : Exec (awsEnv fun _ => True) (closedAtOnce.changeInfra 0) replaced forgetCalls
      (some (true, { closedAtOnce with infraChangeScheduled := false })) replaced :=
    List.append_nil forgetCalls ▸ himpl.bind (.ret _ _)
  have h : Step (market []) (awsEnv fun _ => True)
      ⟨closedAtOnce, replaced, .running, [openLog, closeLog]⟩ _ _ := .infraChange rfl rfl hx
  exact h

def replacedTerminateCalls : List (ProviderEvent Instances) :=
  [⟨replaced, .getJobInstance jobId "ap-south-1", some (true, "i-1", "running")⟩,
    ⟨replaced, .spinDown "i-1" jobId "ap-south-1", some ()⟩]

theorem step_terminateReplaced : Step (market []) (awsEnv LiveFirst)
    ⟨closedAtOnce, replaced, .running, [openLog, closeLog]⟩
    ⟨.infraChange, 0, replacedTerminateCalls⟩
    ⟨{ closedAtOnce with infraChangeScheduled := false }, spunDown replaced "i-1", .returned 0,
      [openLog, closeLog]⟩ := by
  have hfirst : LiveFirst replaced.reverse := by
    intro i hi hdead
    cases hi
    cases hdead
  have himpl : Exec (awsEnv LiveFirst) closedAtOnce.changeInfraImpl replaced
      replacedTerminateCalls (true, closedAtOnce) (spunDown replaced "i-1") :=
    .call (awsEnv_getJobInstance lists_reversed hfirst) (.call (awsEnv_spinDown "i-1") (.ret _ _))
  have hx : Exec (awsEnv LiveFirst) (closedAtOnce.changeInfra 0) replaced replacedTerminateCalls
      (some (true, { closedAtOnce with infraChangeScheduled := false }))
      (spunDown replaced "i-1") :=
    List.append_nil replacedTerminateCalls ▸ himpl.bind (.ret _ _)
  have h : Step (market []) (awsEnv LiveFirst)
      ⟨closedAtOnce, replaced, .running, [openLog, closeLog]⟩ _ _ := .infraChange rfl rfl hx
  exact h

end Sample

/-- The replaced sample job is closed with its running instance listed first. -/
theorem aws_one_instance_replaced : (spunDown Sample.replaced "i-1").NoneLive := by
  have hw : AtMostOne Sample.replaced := by
    intro r
    by_cases hr : "ap-south-1" = r
    · subst hr
      decide
    · simp [liveCount, Sample.replaced, liveIn, hr]
  have honly : InRegion ⟨Sample.closedAtOnce, Sample.replaced, .running,
      [Sample.openLog, Sample.closeLog]⟩ ⟨.infraChange, 0, Sample.replacedTerminateCalls⟩ := by
    have h : ∀ i ∈ Sample.replaced, i.region = "ap-south-1" := by decide
    exact fun i hi _ => h i hi
  have hrun : Along (Step (Sample.market []) (awsEnv LiveFirst)) InRegion
      (Sample.start Sample.replaced)
      [Sample.openLabel, Sample.closeAtOnceLabel, ⟨.infraChange, 0, Sample.replacedTerminateCalls⟩]
      _ :=
    .cons True.intro Sample.step_open (.cons True.intro Sample.step_closeAtOnce
      (.cons honly Sample.step_terminateReplaced (.nil _)))
  exact (aws_one_instance (fun _ h => h) hw hrun).2 rfl

/-- The terminated instance is listed first: the restarted manager calls `spin_up` while the
other one runs, and after a close it reports the termination done and leaves it running. -/
theorem terminated_listed_first :
    (∃ es m e m', Run (Step (Sample.market []) (awsEnv fun _ => True))
        (Sample.start Sample.replaced) es m ∧
      Step (Sample.market []) (awsEnv fun _ => True) m e m' ∧ ¬NoneUpAtSpinUp m e) ∧
    ∃ es m, Run (Step (Sample.market []) (awsEnv fun _ => True))
        (Sample.start Sample.replaced) es m ∧ m.status = .returned 0 ∧ ¬m.world.NoneLive := by
  refine ⟨⟨_, _, _, _, .cons Sample.step_open (.nil _), Sample.step_relaunch, ?_⟩, _, _,
    .cons Sample.step_open (.cons Sample.step_closeAtOnce (.cons Sample.step_forget (.nil _))),
    rfl, by decide⟩
  intro h
  have hup := h ⟨Sample.replaced, Sample.opened.spinUpOp, none⟩
    (List.mem_cons_of_mem _ List.mem_cons_self) rfl ⟨"i-1", "ap-south-1", .running⟩ (by decide)
  cases hup

end Oyster.ControlPlane
