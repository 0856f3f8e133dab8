import Oyster.ControlPlane.Managers

namespace Oyster.ControlPlane.Fleet

open Prog Instances Holdings Threads

abbrev JobManager := Manager Unit

/-- A branch of `job_manager_once` and what it does on the account. -/
inductive Branches (market : Market) : JobId → JobManager → Prog Ec2Op Ec2Ans JobManager → Prop
  | log {job : JobId} {m : JobManager} (log : Option Log) (now : Instant) :
      m.status = .running →
      Branches market job m (.ret (m.afterLog log (m.state.processLog market log now)))
  | heartbeat {job : JobId} {m : JobManager} (now : Instant) :
      m.status = .running → m.state.instanceId ≠ "" →
      Branches market job m
        ((m.state.heartbeatCheck now).translate aws >>= fun r => .ret (m.afterState () r))
  | insolvency {job : JobId} {m : JobManager} (now : Instant) :
      m.status = .running → (¬m.state.infraChangeScheduled ∨ m.state.infraState) →
      Branches market job m (.ret (m.afterState () (m.state.handleInsolvency now)))
  | infraChange {job : JobId} {m : JobManager} (now : Instant) :
      m.status = .running → m.state.infraChangeScheduled →
      Branches market job m
        ((m.state.changeInfra now).translate aws >>= fun r => .ret (m.afterInfraChange () r))

def Starts (job : JobId) (m : JobManager) : Prop :=
  ∃ nowTs now delay regions, m = .start nowTs now job delay regions ()

def rules (order : List Instance → Prop) (market : Market) :
    Rules JobId Ec2Op Ec2Ans JobManager Account where
  env := accountEnv order
  next := Branches market
  first := Starts

abbrev Managers := System JobId Ec2Op Ec2Ans JobManager Account

def Managers.start (a : Account) (m : JobId → JobManager) : Managers := ⟨a, fun job => .ret (m job)⟩

structure Safe (careful : Prop) (job : JobId) (m : JobManager) (s : Share) : Prop where
  jobId : m.state.jobId = job
  known : m.status = .running → Known m.state s.instances
  ended : careful → m.status = .returned 0 → s.instances.liveCount m.state.region = 0

def view (order : List Instance → Prop) (careful : Prop) :
    View JobId Ec2Op Ec2Ans JobManager Account Share where
  sees job a := a.share job
  env := shareEnv order
  drifts := Share.Drifts
  good s := s.Good ∧ (careful → AtMostOne s.instances)
  allowed := Allowed careful
  safe := Safe careful

section Sound

variable {order : List Instance → Prop} {market : Market} {careful : Prop} {job : JobId}
  {m : JobManager} {s s' : Share}

theorem Starts.safe (h : Starts job m) : Safe careful job m s := by
  obtain ⟨nowTs, now, delay, regions, rfl⟩ := h
  exact ⟨rfl, fun _ => .inl rfl, nofun⟩

theorem Safe.drift (h : Safe careful job m s) (hd : s.Drifts s') : Safe careful job m s' := by
  refine ⟨h.jobId, fun hrun => (h.known hrun).mono hd.grows, fun hc hret => ?_⟩
  exact liveCount_evolve hd.1.instances (h.ended hc hret)

theorem Safe.of_panicked (hjob : m.state.jobId = job) (h : m.status = .panicked) :
    Safe careful job m s := by
  refine ⟨hjob, fun hrun => ?_, fun _ hret => ?_⟩
  · cases h.symm.trans hrun
  · cases h.symm.trans hret

theorem Safe.of_running (hjob : m.state.jobId = job) (hrun : m.status = .running)
    (hknown : Known m.state s.instances) : Safe careful job m s := by
  refine ⟨hjob, fun _ => hknown, fun _ hret => ?_⟩
  cases hrun.symm.trans hret

theorem safe_of_translated {α : Type} {p : ProviderProg α} {k : α → JobManager}
    {named cloud : α → Instances → Prop} (horder : careful → ∀ l, order l → LiveFirst l)
    (hnamed : p.wp namedEnv (ProviderOwned job) named s.instances)
    (hcloud : careful → p.wp (cloudEnv True) NoLiveAtSpinUp cloud s.instances)
    (h : ∀ a s', named a s'.instances → (careful → cloud a s'.instances) →
      Safe careful job (k a) s') :
    (p.translate aws >>= fun a => .ret (k a)).wp (shareEnv order) (Allowed careful job)
      (Safe careful job) s := by
  rw [wp_bind]
  have hwp := translated horder hnamed hcloud
  exact wp_mono (fun _ _ h => h) (fun a s' hpost => h a s' hpost.1 hpost.2) hwp

/-- A branch makes allowed calls only, and leaves what the manager relies on. -/
theorem Branches.safe (horder : careful → ∀ l, order l → LiveFirst l)
    {p : Prog Ec2Op Ec2Ans JobManager} (hone : careful → AtMostOne s.instances)
    (hs : Safe careful job m s) (h : Branches market job m p) :
    p.wp (shareEnv order) (Allowed careful job) (Safe careful job) s := by
  obtain rfl := hs.jobId
  cases h with
  | log log now hrun =>
    cases hlog : m.state.processLog market log now with
    | none => exact .of_panicked rfl rfl
    | some r =>
      obtain ⟨s₁, res⟩ := r
      obtain ⟨hjob, hid⟩ := JobState.processLog_keeps hlog
      refine ⟨hjob, fun _ => ?_, fun _ hret => ?_⟩
      · show Known s₁ _
        rw [Known, hid]
        exact hs.known hrun
      · -- the manager does not return 0 after a log
        obtain ⟨s₂, hs₂⟩ := Manager.afterLog_returned hret
        cases hs₂
        simp [Manager.afterLog] at hret
  | heartbeat now hrun hid =>
    have hinst : IsInstance s.instances m.state.instanceId := (hs.known hrun).resolve_left hid
    refine safe_of_translated horder (heartbeatCheck_named m.state now hinst)
      (fun _ => heartbeatCheck_cloud m.state now) ?_
    rintro r s₁ ⟨hinst, hr⟩ -
    cases r with
    | none => exact .of_panicked rfl rfl
    | some s₂ =>
      rcases hr s₂ rfl with rfl | hlaunch
      · exact .of_running rfl hrun (.inr hinst)
      · obtain ⟨t, rfl⟩ := JobState.scheduleLaunch_eq hlaunch
        exact .of_running rfl hrun (.inr hinst)
  | insolvency now hrun hon =>
    cases hterm : m.state.handleInsolvency now with
    | none => exact .of_panicked rfl rfl
    | some s₁ =>
      obtain ⟨t, rfl⟩ := JobState.scheduleTermination_eq hterm
      exact .of_running rfl hrun (hs.known hrun)
  | infraChange now hrun hsched =>
    refine safe_of_translated horder (changeInfra_named m.state now (hs.known hrun))
      (fun hc => changeInfra_cloud m.state now (hone hc)) ?_
    intro r s₁ hnamed hcloud
    cases r with
    | none => exact .of_panicked rfl rfl
    | some r =>
      obtain ⟨done, s₂⟩ := r
      obtain ⟨hframe, hknown⟩ := hnamed done s₂ rfl
      refine ⟨?_, fun _ => hknown, fun hc hret => ?_⟩
      · show s₂.jobId = m.state.jobId
        rw [hframe]
      · obtain ⟨-, s₃, hs₃, hoff⟩ := Manager.afterInfraChange_returned hret
        cases hs₃
        have hregion : s₂.region = m.state.region := by rw [hframe]
        have hwas : m.state.infraState = false := hframe.infraState.symm.trans hoff
        have hnone := (hcloud hc).2 true s₂ rfl rfl hwas
        rwa [← hregion] at hnone

theorem noLiveAtRun_drift {op : Ec2Op} (hd : s.Drifts s') (h : NoLiveAtRun op s.instances) :
    NoLiveAtRun op s'.instances := by
  cases op with
  | runInstances => exact liveCount_evolve hd.1.instances h
  | _ => trivial

/-- The calls of one manager are drifts for the others. -/
theorem sound (horder : careful → ∀ l, order l → LiveFirst l) :
    (view order careful).Sound (rules order market) where
  own := by
    rintro job op a x a' hgood hallowed ⟨b, hdrifts, hdoes⟩
    have honly := only_of_owned (fun j => (hdrifts j).good (hgood j).1)
      (hallowed.1.drift (hdrifts job)) hdoes
    exact ⟨honly.good, _, hdrifts job, honly.does⟩
  others := by
    rintro job j op a x a' hgood hallowed ⟨b, hdrifts, hdoes⟩ hj
    have honly := only_of_owned (fun j => (hdrifts j).good (hgood j).1)
      (hallowed.1.drift (hdrifts job)) hdoes
    have hd : (a.share j).Drifts (a'.share j) := by
      rw [honly.others j hj]
      exact hdrifts j
    exact hd
  good := by
    intro job op s x s' hgood hallowed h
    exact ⟨h.1, fun hc => atMostOne_of_call (hgood.2 hc) (hallowed.2 hc) h⟩
  good_drift := fun hd hgood => ⟨hd.good hgood.1, fun hc => hd.1.instances.atMostOne (hgood.2 hc)⟩
  env_drift := fun hd ⟨hgood, t, ht, hdoes⟩ => ⟨hgood, t, hd.trans ht, hdoes⟩
  allowed_drift := fun hd h => ⟨h.1.drift hd, fun hc => noLiveAtRun_drift hd (h.2 hc)⟩
  safe_drift := fun hd h => h.drift hd
  next := fun hgood hs h => h.safe horder hgood.2 hs
  first := fun h => h.safe

end Sound

section Runs

variable {order : List Instance → Prop} {market : Market} {a : Account} {m : JobId → JobManager}
  {es : List (Threads.Label JobId Ec2Op)} {s s' : Managers}

/-- Whatever call the manager of a job makes, in any run: what it names is what the job has, what
the other jobs have is not changed by it, and no address is with an instance of another job. -/
theorem jobs_apart (hgood : ∀ job, (a.share job).Good) (hm : ∀ job, Starts job (m job))
    (h : Run (Threads.Step (rules order market)) (Managers.start a m) es s)
    {job : JobId} {op : Ec2Op} (hstep : Threads.Step (rules order market) s (.call job op) s') :
    Owned job (s.world.share job) op ∧
      (∀ other, other ≠ job → (s.world.share other).Drifts (s'.world.share other)) ∧
      ∀ any, (s'.world.share any).Good := by
  have hsound : (view order False).Sound (rules order market) := sound False.elim
  have hguarded := (hsound.start (fun job => ⟨hgood job, False.elim⟩) hm).run hsound h
  have hallowed := hguarded.allows hstep
  refine ⟨hallowed.1, fun other hother => ?_, fun any =>
    ((hguarded.step hsound hstep).good any).1⟩
  cases hstep with
  | call _ hx => exact hsound.others hguarded.good hallowed hx hother

/-- Where a live instance is listed first, no job has two live instances in a region at any time,
and a manager that has ended the job has left none in its region. -/
theorem one_instance_each (horder : ∀ l, order l → LiveFirst l)
    (hgood : ∀ job, (a.share job).Good) (hone : ∀ job, AtMostOne (a.share job).instances)
    (hm : ∀ job, Starts job (m job))
    (h : Run (Threads.Step (rules order market)) (Managers.start a m) es s) (job : JobId) :
    AtMostOne (s.world.share job).instances ∧
      ∀ ended, s.threads job = .ret ended → ended.status = .returned 0 →
        (s.world.share job).instances.liveCount ended.state.region = 0 := by
  have hsound : (view order True).Sound (rules order market) := sound fun _ => horder
  have hguarded := (hsound.start (fun job => ⟨hgood job, fun _ => hone job⟩) hm).run hsound h
  refine ⟨(hguarded.good job).2 trivial, fun ended hended hret => ?_⟩
  have hwp := hguarded.threads job
  rw [hended] at hwp
  exact Safe.ended hwp trivial hret

end Runs

namespace Sample

open Oyster.ControlPlane.Sample

def otherJob : JobId := { jobId with id := "2" }

def running : Share := ⟨⟨[⟨"i-1", "ap-south-1", .running⟩], []⟩, []⟩

def other : Share := ⟨⟨[⟨"i-2", "ap-south-1", .running⟩], []⟩, []⟩

def shares (s : Share) (k : JobId) : Share :=
  if k = jobId then s else if k = otherJob then other else ⟨⟨[], []⟩, []⟩

structure OneInstance (s : Share) : Prop where
  instances : s.instanceIds = ["i-1"]
  addresses : s.addresses = []
  associations : s.associations = []

theorem shares_ids {s : Share} (hs : OneInstance s) {k : JobId} {id : String}
    (hid : id ∈ (shares s k).instanceIds) : id = "i-1" ∧ k = jobId ∨ id = "i-2" ∧ k = otherJob := by
  unfold shares at hid
  split_ifs at hid with hk hk'
  · rw [hs.instances] at hid
    exact .inl ⟨List.mem_singleton.1 hid, hk⟩
  · exact .inr ⟨List.mem_singleton.1 hid, hk'⟩
  · cases hid

theorem shares_addresses {s : Share} (hs : OneInstance s) (k : JobId) :
    (shares s k).addresses = [] ∧ (shares s k).associations = [] := by
  unfold shares
  split_ifs
  · exact ⟨hs.addresses, hs.associations⟩
  · exact ⟨rfl, rfl⟩
  · exact ⟨rfl, rfl⟩

def account (s : Share) (hs : OneInstance s) : Account where
  share := shares s
  disjoint j k hjk := by
    refine ⟨fun id hj hk => ?_, fun id hj _ => ?_, fun id hj _ => ?_⟩
    · rcases shares_ids hs hj with ⟨rfl, rfl⟩ | ⟨rfl, rfl⟩
      · rcases shares_ids hs hk with ⟨-, rfl⟩ | ⟨h, -⟩
        · exact hjk rfl
        · exact absurd h (by decide)
      · rcases shares_ids hs hk with ⟨h, -⟩ | ⟨-, rfl⟩
        · exact absurd h (by decide)
        · exact hjk rfl
    · rw [Share.allocationIds, (shares_addresses hs j).1] at hj
      cases hj
    · rw [(shares_addresses hs j).2] at hj
      cases hj

theorem account_good {s : Share} (hs : OneInstance s) (k : JobId) :
    ((account s hs).share k).Good := by
  intro e he
  have haddresses : ((account s hs).share k).addresses = [] := (shares_addresses hs k).1
  rw [haddresses] at he
  cases he

theorem account_self {s : Share} (hs : OneInstance s) : (account s hs).share jobId = s := by
  show shares s jobId = s
  exact if_pos rfl

theorem oneInstance_running : OneInstance running := ⟨rfl, rfl, rfl⟩

theorem oneInstance_terminated : OneInstance (running.terminate "i-1") := ⟨rfl, rfl, rfl⟩

def before : Account := account running oneInstance_running

def after : Account := account (running.terminate "i-1") oneInstance_terminated

def start (job : JobId) : JobManager := .start 0 0 job 300 ["ap-south-1"] ()

theorem starts (job : JobId) : Starts job (start job) := ⟨0, 0, 300, _, rfl⟩

def openedManager : JobManager := ⟨opened, (), .running, [openLog]⟩
def closedManager : JobManager := ⟨closedAtOnce, (), .running, [openLog, closeLog]⟩

def endedManager : JobManager :=
  ⟨{ closedAtOnce with infraChangeScheduled := false }, (), .returned 0, [openLog, closeLog]⟩

def terminating : Prog Ec2Op Ec2Ans JobManager :=
  (closedAtOnce.changeInfra 0).translate aws >>= fun r => .ret (closedManager.afterInfraChange () r)

theorem lists_running : Lists running.instances "ap-south-1" running.instances := by
  constructor <;> decide

theorem describe_running :
    accountEnv LiveFirst (.describeInstances (.job jobId) "ap-south-1") before
      (some [[⟨some "i-1", some "running"⟩]]) before := by
  refine ⟨before, fun _ => .refl _, rfl, fun reservations h => ?_⟩
  cases h
  refine ⟨running.instances, ?_, ?_, rfl⟩
  · rw [before, account_self]
    exact lists_running
  · intro i hi hdead
    cases hi
    cases hdead

theorem no_addresses (filter : Ec2Filter) :
    accountEnv LiveFirst (.describeAddresses filter "ap-south-1") before (some []) before := by
  have hnone (k : JobId) : (before.share k).addresses = [] :=
    (shares_addresses oneInstance_running k).1
  refine ⟨before, fun _ => .refl _, ?_⟩
  cases filter with
  | job =>
    refine ⟨rfl, fun addresses h => ?_⟩
    cases h
    refine ⟨[], fun e => ?_, rfl⟩
    simp [hnone]
  | instanceId =>
    refine ⟨rfl, fun addresses h => ?_⟩
    cases h
    refine ⟨[], fun e => ?_, rfl⟩
    simp [hnone]

theorem terminate_running : accountEnv LiveFirst (.terminateInstances "i-1" "ap-south-1") before
    (some ()) after := by
  refine ⟨before, fun _ => .refl _, .inr fun k => ?_⟩
  show shares _ k = (shares _ k).terminate "i-1"
  unfold shares
  split_ifs
  · rfl
  · rfl
  · rfl

theorem branches_open : Branches (market []) jobId (start jobId) (.ret openedManager) := by
  have h : Branches (market []) jobId (start jobId) (.ret ((start jobId).afterLog (some openLog)
      (state.processLog (market []) (some openLog) 0))) := .log (some openLog) 0 rfl
  rw [processLog_open] at h
  exact h

theorem branches_close : Branches (market []) jobId openedManager (.ret closedManager) := by
  have h : Branches (market []) jobId openedManager (.ret (openedManager.afterLog (some closeLog)
      (opened.processLog (market []) (some closeLog) 0))) := .log (some closeLog) 0 rfl
  rw [processLog_closeAtOnce] at h
  exact h

theorem branches_terminate : Branches (market []) jobId closedManager terminating :=
  .infraChange 0 rfl rfl

theorem run_terminating :
    ∃ c, Run (Threads.Step (rules LiveFirst (market []))) (Managers.start before start)
        [.begin jobId, .begin jobId, .begin jobId,
          .call jobId (.describeInstances (.job jobId) "ap-south-1"),
          .call jobId (.describeAddresses (.instanceId "i-1") "ap-south-1"),
          .call jobId (.describeAddresses (.job jobId) "ap-south-1")]
        ⟨before, Function.update (fun job => .ret (start job)) jobId
          (.call (.terminateInstances "i-1" "ap-south-1") c)⟩ ∧
      c (some ()) = .ret endedManager :=
  ⟨_, .cons (.begin rfl branches_open) <| .cons (.begin_at branches_close) <|
    .cons (.begin_at branches_terminate) <| .cons (.call_at describe_running) <|
    .cons (.call_at (no_addresses _)) <| .cons (.call_at (no_addresses _)) <| .nil _, rfl⟩

theorem before_atMostOne (job : JobId) : AtMostOne (before.share job).instances := by
  have hlength : (shares running job).instances.length ≤ 1 := by
    unfold shares
    split_ifs
    · exact le_rfl
    · exact le_rfl
    · exact Nat.zero_le 1
  exact fun r => List.countP_le_length.trans hlength

end Sample

/-- The sample job is terminated, and the instance of the other job is not. -/
theorem jobs_apart_terminated :
    Owned Sample.jobId (Sample.before.share Sample.jobId)
        (.terminateInstances "i-1" "ap-south-1") ∧
      (∀ other, other ≠ Sample.jobId →
        (Sample.before.share other).Drifts (Sample.after.share other)) ∧
      ∀ any, (Sample.after.share any).Good := by
  obtain ⟨c, hrun, -⟩ := Sample.run_terminating
  exact jobs_apart (Sample.account_good _) Sample.starts hrun (.call_at Sample.terminate_running)

theorem one_instance_each_terminated :
    (Sample.after.share Sample.jobId).instances.liveCount "ap-south-1" = 0 := by
  obtain ⟨c, hrun, hc⟩ := Sample.run_terminating
  have hend := hrun.append (.cons (.call_at Sample.terminate_running) (.nil _))
  refine (one_instance_each (fun _ h => h) (Sample.account_good _) Sample.before_atMostOne
    Sample.starts hend Sample.jobId).2 Sample.endedManager ?_ rfl
  simp only [Function.update_self]
  exact hc

end Oyster.ControlPlane.Fleet
