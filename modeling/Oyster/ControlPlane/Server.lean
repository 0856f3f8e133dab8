import Oyster.ControlPlane.Aws

/-!
`handle_ip_request` of `server.rs` over the Aws provider. `Aws::new` builds one EC2 client for
each configured region and `client` indexes that map, so a call for any other region panics
before it is sent.
-/

namespace Oyster.ControlPlane

open Prog

/-- What an address query asks of EC2. An instance described by its id is read for its public
address here. -/
inductive IpOp where
  | ec2 (op : Ec2Op)
  | describePublicIp (instanceId region : String)

abbrev IpAns : IpOp → Type
  | .ec2 op => Ec2Ans op
  | .describePublicIp _ _ => Option (List (List (Option String)))

abbrev IpProg := OptionT (Prog IpOp IpAns)

abbrev IpEvent (σ : Type) := Event IpOp IpAns σ

def Ec2Op.region : Ec2Op → String
  | describeInstances _ region | describeInstanceTypes _ region | describeImages _ _ region
  | describeSubnets region | describeSecurityGroups region
  | runInstances _ _ _ _ _ region | terminateInstances _ region | describeAddresses _ region
  | allocateAddress _ region | associateAddress _ _ region | disassociateAddress _ region
  | releaseAddress _ region | sshDescribeEnclave _ region
  | sshRunEnclave _ _ _ region _ _ _ _ _ | sshUpdateEnclave _ region _ _ _ => region

def IpOp.region : IpOp → String
  | ec2 op => op.region
  | describePublicIp _ region => region

def onEc2 {α : Type} (p : AwsProg α) : IpProg α :=
  OptionT.mk (p.run.translate fun op => perform (.ec2 op))

namespace Aws

/-- The public address in a description of instances. -/
def publicIpAddress (reservations : List (List (Option String))) : Option String := do
  let reservation ← reservations.head?
  let inst ← reservation.head?
  inst

def getInstanceIp (instanceId region : String) : IpProg String := do
  let reservations ← OptionT.mk (perform (IpOp.describePublicIp instanceId region))
  OptionT.mk (pure (publicIpAddress reservations))

def getJobIp (job : JobId) (region : String) : IpProg String := do
  let (exist, inst, _) ← onEc2 (getJobInstanceId job region)
  if !exist then failure
  else do
    let instanceIp ← getInstanceIp inst region
    let (found, _, elasticIp) ← onEc2 (getJobElasticIp job region)
    -- the two may differ while the instance is initializing
    if found ∧ instanceIp = elasticIp then return instanceIp else failure

end Aws

structure GetIPRequest where
  id : Option String
  region : Option String

/-- The address with status 200, or `BAD_REQUEST` with status 400. -/
inductive IpResponse where
  | ok (ip : String)
  | badRequest
deriving DecidableEq

/-- The handler over any provider. The job is that of the server, under the id of the query. -/
def handleIpRequest {Op : Type} {Ans : Op → Type}
    (getJobIp : JobId → String → Prog Op Ans (Option String)) (job : JobId)
    (query : GetIPRequest) : Prog Op Ans IpResponse :=
  match query.id, query.region with
  | some id, some region => do
    match ← getJobIp { job with id := id } region with
    | none => return .badRequest
    | some ip => return .ok ip
  | _, _ => return .badRequest

/-- The handler over an Aws provider of some regions; `none` is the panic of `client`. -/
def serveIp (regions : List String) (job : JobId) (query : GetIPRequest) :
    Prog IpOp IpAns (Option IpResponse) :=
  (handleIpRequest (fun job region => (Aws.getJobIp job region).run) job query).guarded
    fun op => regions.contains op.region

theorem handleIpRequest_given {Op : Type} {Ans : Op → Type}
    (getJobIp : JobId → String → Prog Op Ans (Option String)) (job : JobId) (id region : String) :
    handleIpRequest getJobIp job ⟨some id, some region⟩ =
      getJobIp { job with id := id } region >>= fun ip => match ip with
        | none => ret .badRequest
        | some ip => ret (.ok ip) := rfl

section Address

variable {σ : Type}

/-- EC2 named an instance of the job. -/
def InstanceOf (t : List (IpEvent σ)) (job : JobId) (region id : String) : Prop :=
  ∃ w inst insts rest,
    (⟨w, .ec2 (.describeInstances (.job job) region), some ((inst :: insts) :: rest)⟩ :
      IpEvent σ) ∈ t ∧ inst.instanceId = some id

/-- EC2 gave the public address of the instance. -/
def PublicIpOf (t : List (IpEvent σ)) (id region ip : String) : Prop :=
  ∃ w reservations, (⟨w, .describePublicIp id region, some reservations⟩ : IpEvent σ) ∈ t ∧
    Aws.publicIpAddress reservations = some ip

/-- EC2 gave the elastic address of the job. -/
def ElasticIpOf (t : List (IpEvent σ)) (job : JobId) (region ip : String) : Prop :=
  ∃ w address rest,
    (⟨w, .ec2 (.describeAddresses (.job job) region), some (address :: rest)⟩ : IpEvent σ) ∈ t ∧
      address.publicIp = some ip

/-- The address of the job: its elastic address, which its instance has. -/
def JobAddress (t : List (IpEvent σ)) (job : JobId) (region ip : String) : Prop :=
  ElasticIpOf t job region ip ∧ ∃ id, InstanceOf t job region id ∧ PublicIpOf t id region ip

variable {env : Env IpOp IpAns σ} {w w' : σ} {t : List (IpEvent σ)} {job : JobId}
  {region : String}

theorem exec_getJobInstanceId {id state : String}
    (h : Exec env (onEc2 (Aws.getJobInstanceId job region)).run w t (some (true, id, state)) w') :
    InstanceOf t job region id := by
  change Exec env (call (.ec2 (.describeInstances (.job job) region)) _) w t _ w' at h
  cases h with
  | @call _ _ _ _ _ x _ _ hop h =>
    match x, h with
    | some ((⟨some id', some state'⟩ :: insts) :: rest), h =>
      cases h
      exact ⟨_, _, _, _, List.mem_cons_self, rfl⟩

theorem exec_getInstanceIp {id ip : String}
    (h : Exec env (Aws.getInstanceIp id region).run w t (some ip) w') :
    PublicIpOf t id region ip := by
  change Exec env (call (.describePublicIp id region) _) w t _ w' at h
  cases h with
  | @call _ _ _ _ _ x _ _ hop h =>
    match x, h with
    | some reservations, h =>
      change Exec env (ret (Aws.publicIpAddress reservations)) _ _ _ _ at h
      generalize hip : Aws.publicIpAddress reservations = y at h
      cases h
      exact ⟨_, _, List.mem_cons_self, hip⟩

theorem exec_getJobElasticIp {allocId ip : String}
    (h : Exec env (onEc2 (Aws.getJobElasticIp job region)).run w t
      (some (true, allocId, ip)) w') : ElasticIpOf t job region ip := by
  change Exec env (call (.ec2 (.describeAddresses (.job job) region)) _) w t _ w' at h
  cases h with
  | @call _ _ _ _ _ x _ _ hop h =>
    match x, h with
    | some (⟨some allocId', assoc, some ip'⟩ :: rest), h =>
      cases h
      exact ⟨_, _, _, List.mem_cons_self, rfl⟩

theorem InstanceOf.mono {t' : List (IpEvent σ)} {id : String} (h : InstanceOf t job region id)
    (ht : t ⊆ t') : InstanceOf t' job region id := by
  obtain ⟨w, inst, insts, rest, hmem, hid⟩ := h
  exact ⟨w, inst, insts, rest, ht hmem, hid⟩

theorem PublicIpOf.mono {t' : List (IpEvent σ)} {id ip : String} (h : PublicIpOf t id region ip)
    (ht : t ⊆ t') : PublicIpOf t' id region ip := by
  obtain ⟨w, reservations, hmem, hip⟩ := h
  exact ⟨w, reservations, ht hmem, hip⟩

theorem ElasticIpOf.mono {t' : List (IpEvent σ)} {ip : String} (h : ElasticIpOf t job region ip)
    (ht : t ⊆ t') : ElasticIpOf t' job region ip := by
  obtain ⟨w, address, rest, hmem, hip⟩ := h
  exact ⟨w, address, rest, ht hmem, hip⟩

theorem exec_getJobIp {ip : String}
    (h : Exec env (Aws.getJobIp job region).run w t (some ip) w') :
    JobAddress t job region ip := by
  obtain ⟨t₁, t₂, ⟨exist, inst, state⟩, w₁, rfl, hinst, h⟩ := h.of_run_bind
  cases exist with
  | false => cases h
  | true =>
    obtain ⟨t₃, t₄, instanceIp, w₂, rfl, hpublic, h⟩ := h.of_run_bind
    obtain ⟨t₅, t₆, ⟨found, allocId, elasticIp⟩, w₃, rfl, helastic, h⟩ := h.of_run_bind
    dsimp only at h
    by_cases hfound : found = true ∧ instanceIp = elasticIp
    · rw [if_pos hfound] at h
      obtain ⟨rfl, rfl⟩ := hfound
      cases h
      refine ⟨(exec_getJobElasticIp helastic).mono ?_, inst,
        (exec_getJobInstanceId hinst).mono ?_, (exec_getInstanceIp hpublic).mono ?_⟩
      · simp
      · simp
      · simp
    · rw [if_neg hfound] at h
      cases h

theorem calls_onEc2 {α : Type} {p : AwsProg α} (hp : p.run.Calls fun op => op.region = region) :
    (onEc2 p).run.Calls fun op => op.region = region := by
  have hec2 : ∀ op : Ec2Op, op.region = region →
      (perform (IpOp.ec2 op) : Prog IpOp IpAns _).Calls fun op => op.region = region :=
    fun _ h => ⟨h, fun _ => trivial⟩
  exact hp.translate hec2

theorem calls_getJobIp (job : JobId) (region : String) :
    (Aws.getJobIp job region).run.Calls fun op => op.region = region := by
  apply Calls.run_bind (calls_onEc2 (Aws.calls_getJobInstanceId rfl))
  rintro ⟨exist, inst, state⟩
  cases exist with
  | false => trivial
  | true =>
    have hpublic : (Aws.getInstanceIp inst region).run.Calls fun op => op.region = region :=
      ⟨rfl, fun x => by cases x <;> trivial⟩
    refine .run_bind hpublic fun instanceIp => ?_
    apply Calls.run_bind (calls_onEc2 (Aws.calls_getJobElasticIp rfl))
    rintro ⟨found, allocId, elasticIp⟩
    dsimp only
    split_ifs <;> trivial

end Address

/-- The query is answered: status 400, or status 200 with the address of the job. -/
def Answered {σ : Type} (t : List (IpEvent σ)) (job : JobId) (query : GetIPRequest)
    (r : Option IpResponse) : Prop :=
  r = some .badRequest ∨ ∃ id region ip, query = ⟨some id, some region⟩ ∧ r = some (.ok ip) ∧
    JobAddress t { job with id := id } region ip

section Answers

variable {σ : Type} {env : Env IpOp IpAns σ} {w w' : σ} {t : List (IpEvent σ)}
  {regions : List String} {job : JobId} {region : String} {query : GetIPRequest}
  {r : Option IpResponse}

/-- With a client for its region the handler runs to its end. -/
theorem serveIp_configured {id : String} (hregion : region ∈ regions)
    (h : Exec env (serveIp regions job ⟨some id, some region⟩) w t r w') :
    Answered t job ⟨some id, some region⟩ r := by
  have hcalls : (handleIpRequest (fun job region => (Aws.getJobIp job region).run) job
      ⟨some id, some region⟩).Calls fun op => regions.contains op.region = true := by
    rw [handleIpRequest_given]
    refine Calls.bind ((calls_getJobIp { job with id := id } region).mono ?_) ?_
    · intro op hop
      rw [hop]
      exact List.contains_iff_mem.2 hregion
    · rintro (_ | ip) <;> trivial
  obtain ⟨a, rfl, hrun⟩ := Exec.of_guarded hcalls h
  rw [handleIpRequest_given] at hrun
  obtain ⟨t₁, t₂, ip, w₁, rfl, hip, hrun⟩ := Exec.of_bind hrun
  cases ip with
  | none =>
    cases hrun
    exact .inl rfl
  | some ip =>
    cases hrun
    refine .inr ⟨id, region, ip, rfl, rfl, ?_⟩
    rw [List.append_nil]
    exact exec_getJobIp hip

theorem serveIp_unconfigured {id : String} (hregion : region ∉ regions) :
    serveIp regions job ⟨some id, some region⟩ = ret none := by
  have hrefused : regions.contains region = false := by
    simpa using hregion
  exact guarded_call_refused hrefused

/-- A query is answered, unless it names a job and a region without a client. -/
theorem serveIp_answers_iff (h : Exec env (serveIp regions job query) w t r w') :
    Answered t job query r ↔
      ∀ id region, query = ⟨some id, some region⟩ → region ∈ regions := by
  obtain ⟨_ | id, _ | region⟩ := query
  · cases h
    exact iff_of_true (.inl rfl) nofun
  · cases h
    exact iff_of_true (.inl rfl) nofun
  · cases h
    exact iff_of_true (.inl rfl) nofun
  by_cases hregion : region ∈ regions
  · refine iff_of_true (serveIp_configured hregion h) ?_
    rintro _ _ ⟨⟩
    exact hregion
  · refine iff_of_false ?_ fun hall => hregion (hall id region rfl)
    rw [serveIp_unconfigured hregion] at h
    cases h
    rintro (h | ⟨_, _, _, _, h, _⟩) <;> cases h

end Answers

namespace Sample

def serverJob : JobId := ⟨"0x5", "abc", "xyz", "123"⟩

def ipAnswer : (op : IpOp) → IpAns op
  | .ec2 (.describeInstances ..) => some [[⟨some "i-1", some "running"⟩]]
  | .ec2 (.describeAddresses ..) => some [⟨some "eipalloc-1", some "eipassoc-1", some "1.2.3.4"⟩]
  | .ec2 _ => none
  | .describePublicIp .. => some [[some "1.2.3.4"]]

def ipEnv : Env IpOp IpAns Unit := fun op _ x _ => x = ipAnswer op

def ipTrace : List (IpEvent Unit) :=
  [.ec2 (.describeInstances (.job { serverJob with id := "0x1" }) "ap-south-1"),
    .describePublicIp "i-1" "ap-south-1",
    .ec2 (.describeAddresses (.job { serverJob with id := "0x1" }) "ap-south-1")].map
      fun op => ⟨(), op, ipAnswer op⟩

theorem configured_query_runs :
    Exec ipEnv (serveIp ["ap-south-1"] serverJob ⟨some "0x1", some "ap-south-1"⟩) () ipTrace
      (some (.ok "1.2.3.4")) () :=
  .call rfl (.call rfl (.call rfl (.ret _ _)))

theorem configured_query_answered :
    Answered ipTrace serverJob ⟨some "0x1", some "ap-south-1"⟩ (some (.ok "1.2.3.4")) := by
  apply (serveIp_answers_iff configured_query_runs).2
  rintro _ _ ⟨⟩
  decide

/-- A query for a region that is not configured panics. -/
theorem unconfigured_query_panics :
    Exec ipEnv (serveIp ["ap-south-1"] serverJob ⟨some "0x1", some "eu-west-1"⟩) () [] none () ∧
      ¬Answered (σ := Unit) [] serverJob ⟨some "0x1", some "eu-west-1"⟩ none := by
  refine ⟨?_, ?_⟩
  · rw [serveIp_unconfigured (by decide)]
    exact .ret none ()
  · rintro (h | ⟨_, _, _, _, h, _⟩) <;> cases h

end Sample

end Oyster.ControlPlane
