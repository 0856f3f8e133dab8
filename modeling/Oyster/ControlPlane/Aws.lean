import Oyster.ControlPlane.Provider

/-!
The EC2 calls behind the `InfraProvider` of `aws.rs`. What runs over SSH inside an instance, to
start, check or update its enclave, is one operation with the address lookup before it: it makes
no EC2 call that launches or ends an instance.
-/

namespace Oyster.ControlPlane

open Prog

/-- The filters that select the resources of a job, or those of one instance. -/
inductive Ec2Filter where
  | job (job : JobId)
  | instanceId (id : String)

structure InstanceDescription where
  instanceId : Option String
  stateName : Option String

structure TypeDescription where
  supportedArchitectures : Option (List String)
  defaultVCpus : Option ℤ
  sizeInMib : Option ℤ

structure Image where
  name : Option String
  imageId : Option String

structure Address where
  allocationId : Option String
  associationId : Option String
  publicIp : Option String

inductive Ec2Op where
  | describeInstances (filter : Ec2Filter) (region : String)
  | describeInstanceTypes (instanceType region : String)
  | describeImages (owner name region : String)
  | describeSubnets (region : String)
  | describeSecurityGroups (region : String)
  | runInstances (job : JobId) (imageId instanceType subnet secGroup region : String)
  | terminateInstances (id region : String)
  | describeAddresses (filter : Ec2Filter) (region : String)
  | allocateAddress (job : JobId) (region : String)
  | associateAddress (instanceId allocId region : String)
  | disassociateAddress (associationId region : String)
  | releaseAddress (allocId region : String)
  | sshDescribeEnclave (instanceId region : String)
  | sshRunEnclave (job : JobId) (instanceId family region imageUrl : String)
      (reqVcpu reqMem : ℤ) (bandwidth : ℕ) (debug : Bool)
  | sshUpdateEnclave (instanceId region eifUrl : String) (reqVcpu reqMem : ℤ)

/-- The `Ok` values. An element that a response may lack is an `Option`. -/
abbrev Ec2Out : Ec2Op → Type
  | .describeInstances .. => List (List InstanceDescription)
  | .describeInstanceTypes .. => List TypeDescription
  | .describeImages .. => List Image
  | .describeSubnets .. => List (Option String)
  | .describeSecurityGroups .. => List (Option String)
  | .runInstances .. => List (Option String)
  | .describeAddresses .. => List Address
  | .allocateAddress .. => Address
  | .sshDescribeEnclave .. => String
  | _ => Unit

abbrev Ec2Ans (op : Ec2Op) : Type := Option (Ec2Out op)

/-- A function of `aws.rs`: its first error ends it. -/
abbrev AwsProg := OptionT (Prog Ec2Op Ec2Ans)

def ec2 (op : Ec2Op) : AwsProg (Ec2Out op) := OptionT.mk (perform op)

def whenExists (exist : Bool) (p : AwsProg Unit) : AwsProg Unit := if exist then p else pure ()

/-- `ok_or(..)?` on an element of a response. -/
def okOr {α : Type} (x : Option α) : AwsProg α := OptionT.mk (pure x)

namespace Aws

def getJobInstanceId (job : JobId) (region : String) : AwsProg (Bool × String × String) := do
  let reservations ← ec2 (.describeInstances (.job job) region)
  match reservations with
  | [] => return (false, "", "")
  | reservation :: _ => do
    let inst ← okOr reservation.head?
    let id ← okOr inst.instanceId
    let state ← okOr inst.stateName
    return (true, id, state)

def getInstanceState (instanceId region : String) : AwsProg String := do
  let reservations ← ec2 (.describeInstances (.instanceId instanceId) region)
  let reservation ← okOr reservations.head?
  let inst ← okOr reservation.head?
  okOr inst.stateName

def nameLt : Option String → Option String → Bool
  | none, some _ => true
  | some a, some b => a < b
  | _, none => false

/-- `max_by_key` over the names: the last image of the greatest name. -/
def maxByName (images : List Image) : Option Image :=
  images.foldl (fun best image =>
    match best with
    | none => some image
    | some b => if nameLt image.name b.name then some b else some image) none

def imageName (family architecture : String) : String :=
  "marlin/oyster/worker-" ++ family ++ "-" ++ architecture ++ "-????????"

def getCommunityAmis (region family architecture : String) : AwsProg String := do
  let images ← ec2 (.describeImages "753722448458" (imageName family architecture) region)
  let image ← okOr (maxByName images)
  okOr image.imageId

def getAmis (region family architecture : String) : AwsProg String := do
  let ownAmi ← ec2 (.describeImages "self" (imageName family architecture) region)
  match maxByName ownAmi with
  | some image => okOr image.imageId
  | none => getCommunityAmis region family architecture

def getSubnet (region : String) : AwsProg String := do
  let subnets ← ec2 (.describeSubnets region)
  let subnet ← okOr subnets.head?
  okOr subnet

def getSecurityGroup (region : String) : AwsProg String := do
  let groups ← ec2 (.describeSecurityGroups region)
  let group ← okOr groups.head?
  okOr group

/-- What `launch_instance` looks up before it runs an instance. -/
def launchInputs (family architecture region : String) : AwsProg (String × String × String) := do
  let instanceAmi ← getAmis region family architecture
  let subnet ← getSubnet region
  let secGroup ← getSecurityGroup region
  return (instanceAmi, subnet, secGroup)

def launchInstance (job : JobId) (instanceType family architecture region : String) :
    AwsProg String := do
  let (instanceAmi, subnet, secGroup) ← launchInputs family architecture region
  let instances ← ec2 (.runInstances job instanceAmi instanceType subnet secGroup region)
  let inst ← okOr instances.head?
  okOr inst

/-- The architecture, the vcpus and the memory of the instance type. Of several descriptions the
last one counts. -/
def readTypes (instanceTypes : List TypeDescription) : Option (String × ℤ × ℤ) :=
  instanceTypes.foldlM (fun (architecture, _, _) instance_ => do
    let supported ← instance_.supportedArchitectures
    let architecture := match supported.head? with
      | some arch => if arch = "x86_64" then "amd64" else "arm64"
      | none => architecture
    let vCpus ← instance_.defaultVCpus
    let mem ← instance_.sizeInMib
    return (architecture, vCpus, mem)) ("amd64", 4, 8192)

def getJobElasticIp (job : JobId) (region : String) : AwsProg (Bool × String × String) := do
  let addresses ← ec2 (.describeAddresses (.job job) region)
  match addresses with
  | [] => return (false, "", "")
  | addrs :: _ => do
    let allocId ← okOr addrs.allocationId
    let publicIp ← okOr addrs.publicIp
    return (true, allocId, publicIp)

def getInstanceElasticIp (instanceId region : String) : AwsProg (Bool × String × String) := do
  let addresses ← ec2 (.describeAddresses (.instanceId instanceId) region)
  match addresses with
  | [] => return (false, "", "")
  | addrs :: _ => do
    let allocId ← okOr addrs.allocationId
    let associationId ← okOr addrs.associationId
    return (true, allocId, associationId)

def allocateIpAddr (job : JobId) (region : String) : AwsProg (String × String) := do
  let (exist, allocId, publicIp) ← getJobElasticIp job region
  if exist then return (allocId, publicIp)
  else do
    let resp ← ec2 (.allocateAddress job region)
    let allocId ← okOr resp.allocationId
    let publicIp ← okOr resp.publicIp
    return (allocId, publicIp)

def postSpinUp (job : JobId) (inst region : String) : AwsProg Unit := do
  let (allocId, _) ← allocateIpAddr job region
  ec2 (.associateAddress inst allocId region)

/-- The addresses of the instance and of its job are released before it is terminated. -/
def releaseAddresses (instanceId : String) (job : JobId) (region : String) : AwsProg Unit := do
  let (exist, _, associationId) ← getInstanceElasticIp instanceId region
  whenExists exist (ec2 (.disassociateAddress associationId region))
  let (exist, allocId, _) ← getJobElasticIp job region
  whenExists exist (ec2 (.releaseAddress allocId region))

def spinDownInstance (instanceId : String) (job : JobId) (region : String) : AwsProg Unit := do
  releaseAddresses instanceId job region
  ec2 (.terminateInstances instanceId region)

/-- An instance that cannot be given its address is terminated again, unless that fails too. -/
def finishSpinUp (job : JobId) (inst region : String) : AwsProg String := do
  match ← OptionT.lift (postSpinUp job inst region).run with
  | some () => return inst
  | none => do
    spinDownInstance inst job region
    failure

def spinUpInstance (job : JobId) (instanceType family region : String) (reqMem reqVcpu : ℤ) :
    AwsProg String := do
  let resp ← ec2 (.describeInstanceTypes instanceType region)
  let (architecture, vCpus, mem) ← okOr (readTypes resp)
  if reqMem > mem ∨ reqVcpu > vCpus then failure
  else do
    let inst ← launchInstance job instanceType family architecture region
    finishSpinUp job inst region

end Aws

/-- The `InfraProvider` implementation of `Aws`. -/
def aws : (op : ProviderOp) → Prog Ec2Op Ec2Ans (ProviderAns op)
  | .spinUp job instanceType family region reqMem reqVcpu _ =>
    (Aws.spinUpInstance job instanceType family region reqMem reqVcpu).run
  | .spinDown instanceId job region => (Aws.spinDownInstance instanceId job region).run
  | .getJobInstance job region => (Aws.getJobInstanceId job region).run
  | .checkInstanceRunning instanceId region => OptionT.run do
    let res ← Aws.getInstanceState instanceId region
    return res = "running" ∨ res = "pending"
  | .checkEnclaveRunning instanceId region => OptionT.run do
    let res ← ec2 (.sshDescribeEnclave instanceId region)
    return res = "RUNNING"
  | .runEnclave job instanceId family region imageUrl reqVcpu reqMem bandwidth debug =>
    (ec2 (.sshRunEnclave job instanceId family region imageUrl reqVcpu reqMem bandwidth debug)).run
  | .updateEnclaveImage instanceId region eifUrl reqVcpu reqMem =>
    (ec2 (.sshUpdateEnclave instanceId region eifUrl reqVcpu reqMem)).run

namespace Aws

theorem calls_ec2 {ok : Ec2Op → Prop} {op : Ec2Op} (h : ok op) : (ec2 op).run.Calls ok :=
  ⟨h, fun _ => trivial⟩

theorem calls_getJobInstanceId {ok : Ec2Op → Prop} {job : JobId} {region : String}
    (h : ok (.describeInstances (.job job) region)) :
    (getJobInstanceId job region).run.Calls ok := by
  apply Calls.run_bind (calls_ec2 h)
  intro reservations
  cases reservations with
  | nil => trivial
  | cons reservation _ =>
    refine .run_bind trivial fun _ => .run_bind trivial fun _ => ?_
    exact .run_bind trivial fun _ => trivial

theorem calls_getJobElasticIp {ok : Ec2Op → Prop} {job : JobId} {region : String}
    (h : ok (.describeAddresses (.job job) region)) :
    (getJobElasticIp job region).run.Calls ok := by
  apply Calls.run_bind (calls_ec2 h)
  intro addresses
  cases addresses with
  | nil => trivial
  | cons addrs _ => exact .run_bind trivial fun _ => .run_bind trivial fun _ => trivial

end Aws

def Ec2Op.isRead : Ec2Op → Bool
  | describeInstances .. | describeInstanceTypes .. | describeImages .. | describeSubnets ..
  | describeSecurityGroups .. | describeAddresses .. => true
  | _ => false

namespace Aws

def Reads {α : Type} (p : AwsProg α) : Prop := p.run.Calls fun op => op.isRead = true

section Reads

variable {α β : Type}

theorem Reads.pure (a : α) : Reads (Pure.pure a : AwsProg α) := trivial

theorem Reads.okOr (x : Option α) : Reads (okOr x) := trivial

theorem Reads.ec2 {op : Ec2Op} (h : op.isRead = true) : Reads (ec2 op) :=
  calls_ec2 h

theorem Reads.bind {x : AwsProg α} {f : α → AwsProg β} (hx : Reads x) (hf : ∀ a, Reads (f a)) :
    Reads (x >>= f) :=
  Calls.run_bind hx hf

theorem reads_getJobInstanceId (job : JobId) (region : String) :
    Reads (getJobInstanceId job region) :=
  calls_getJobInstanceId rfl

theorem reads_getInstanceState (id region : String) : Reads (getInstanceState id region) :=
  .bind (.ec2 rfl) fun _ => .bind (.okOr _) fun _ => .bind (.okOr _) fun _ => .okOr _

theorem reads_getAmis (region family architecture : String) :
    Reads (getAmis region family architecture) := by
  apply Reads.bind (.ec2 rfl)
  intro images
  cases maxByName images with
  | some image => exact .okOr _
  | none => exact .bind (.ec2 rfl) fun _ => .bind (.okOr _) fun _ => .okOr _

theorem reads_launchInputs (family architecture region : String) :
    Reads (launchInputs family architecture region) := by
  have hsubnet : Reads (getSubnet region) := .bind (.ec2 rfl) fun _ => .bind (.okOr _) .okOr
  have hgroup : Reads (getSecurityGroup region) := .bind (.ec2 rfl) fun _ => .bind (.okOr _) .okOr
  exact .bind (reads_getAmis region family architecture) fun _ => .bind hsubnet fun _ =>
    .bind hgroup fun _ => .pure _

theorem reads_getJobElasticIp (job : JobId) (region : String) :
    Reads (getJobElasticIp job region) :=
  calls_getJobElasticIp rfl

theorem reads_getInstanceElasticIp (id region : String) :
    Reads (getInstanceElasticIp id region) := by
  apply Reads.bind (.ec2 rfl)
  intro addresses
  cases addresses with
  | nil => exact .pure _
  | cons addrs _ => exact .bind (.okOr _) fun _ => .bind (.okOr _) fun _ => .pure _

end Reads

end Aws

end Oyster.ControlPlane
