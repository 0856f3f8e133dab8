import Oyster.ControlPlane.Fleet

namespace Oyster.ControlPlane.Fleet

open Prog Instances Holdings Threads

def NoLiveAtRun : Ec2Op → Instances → Prop
  | .runInstances _ _ _ _ _ region, w => w.liveCount region = 0
  | _, _ => True

/-- The calls that a manager makes; that it launches nothing beside a live instance takes some
care. -/
def Allowed (careful : Prop) (job : JobId) (op : Ec2Op) (s : Share) : Prop :=
  Owned job s op ∧ (careful → NoLiveAtRun op s.instances)

section Instances

variable {order : List Instance → Prop} {op : Ec2Op} {x : Ec2Ans op} {s s' t : Share}
  {w w' : Instances}

theorem shareEnv_ec2Env (h : shareEnv order op s x s') :
    ec2Env order op s.instances x s'.instances := by
  obtain ⟨-, t, hd, h⟩ := h
  have hev : Evolve s.instances t.instances := hd.1.instances
  cases op with
  | describeInstances filter =>
    cases filter with
    | job =>
      obtain ⟨rfl, h⟩ := h
      exact ⟨hev, h⟩
    | instanceId =>
      cases h
      exact hev
  | describeAddresses =>
    obtain ⟨rfl, -⟩ := h
    exact hev
  | runInstances =>
    rcases h with ⟨rfl, rfl⟩ | ⟨id, st, rfl | rfl, rfl⟩
    · exact ⟨none, .none hev, rfl⟩
    · exact ⟨none, ⟨_, hev, .inr ⟨trivial, _, rfl, rfl⟩⟩, rfl⟩
    · exact ⟨some id, ⟨_, hev, st, rfl⟩, rfl⟩
  | terminateInstances id =>
    rcases h with ⟨rfl, rfl⟩ | rfl
    · exact ⟨hev, nofun⟩
    · exact ⟨hev.trans (evolve_spunDown _ _), fun _ i hi hid => spunDown_dead hi hid⟩
  | allocateAddress =>
    rcases h with ⟨rfl, -⟩ | ⟨e, -, -, -, rfl⟩
    · exact hev
    · exact hev
  | associateAddress =>
    rcases h with ⟨rfl, -⟩ | ⟨c, rfl⟩
    · exact hev
    · exact hev
  | disassociateAddress | releaseAddress =>
    rcases h with ⟨rfl, -⟩ | rfl
    · exact hev
    · exact hev
  | _ =>
    cases h
    exact hev

theorem spunUp_ids {leftover : Prop} {region : String} {x : Option String}
    (h : SpunUp leftover region w x w') :
    w.map Instance.id ⊆ w'.map Instance.id ∧ ∀ id, x = some id → id ∈ w'.map Instance.id := by
  obtain ⟨w₁, hev, hx⟩ := h
  rw [← evolve_ids hev]
  cases x with
  | none =>
    rcases hx with rfl | ⟨-, i, -, rfl⟩
    · exact ⟨List.Subset.refl _, nofun⟩
    · exact ⟨List.map_subset _ (List.subset_append_left _ _), nofun⟩
  | some id =>
    obtain ⟨st, rfl⟩ := hx
    refine ⟨List.map_subset _ (List.subset_append_left _ _), fun id' hid => ?_⟩
    cases hid
    rw [List.map_append]
    exact List.mem_append_right _ (List.mem_singleton_self _)

theorem grows (h : shareEnv order op s x s') : s.Grows s' := by
  have h := shareEnv_ec2Env h
  have hev (h : Evolve s.instances s'.instances) : s.Grows s' := by
    intro id hid
    rw [Share.instanceIds, evolve_ids h]
    exact hid
  cases op with
  | describeInstances filter =>
    cases filter with
    | job => exact hev h.1
    | instanceId => exact hev h
  | runInstances =>
    obtain ⟨id, hup, -⟩ := h
    exact fun _ hid => (spunUp_ids hup).1 hid
  | terminateInstances => exact hev h.1
  | _ => exact hev h

theorem atMostOne_of_call (hs : AtMostOne s.instances) (hnone : NoLiveAtRun op s.instances)
    (h : shareEnv order op s x s') : AtMostOne s'.instances := by
  have h := shareEnv_ec2Env h
  cases op with
  | describeInstances filter =>
    cases filter with
    | job => exact h.1.atMostOne hs
    | instanceId => exact Evolve.atMostOne h hs
  | runInstances =>
    obtain ⟨id, hup, -⟩ := h
    exact (SpunUp.kept hs hnone hup).atMostOne
  | terminateInstances => exact h.1.atMostOne hs
  | _ => exact Evolve.atMostOne h hs

end Instances

section Aws

variable {order : List Instance → Prop} {careful : Prop} {job : JobId} {s s' t : Share}
  {α β : Type} {post q : Option α → Share → Prop} {goal : Option β → Share → Prop}

/-- The program makes allowed calls only. -/
def Does (order : List Instance → Prop) (careful : Prop) (job : JobId) (p : AwsProg α)
    (post : Option α → Share → Prop) (s : Share) : Prop :=
  p.run.wp (shareEnv order) (Allowed careful job) post s

theorem Does.mono (h : Does order careful job p q s) (hpost : ∀ x s', q x s' → post x s') :
    Does order careful job p post s :=
  wp_mono (fun _ _ h => h) hpost h

theorem Does.bind {p : AwsProg α} {f : α → AwsProg β} (h : Does order careful job p q s)
    (hnone : ∀ s', q none s' → goal none s')
    (hf : ∀ a s', q (some a) s' → Does order careful job (f a) goal s') :
    Does order careful job (p >>= f) goal s := by
  unfold Does
  rw [wp_run_bind]
  refine wp_mono (fun _ _ h => h) (fun x s' hx => ?_) h
  cases x with
  | none => exact hnone s' hx
  | some a => exact hf a s' hx

theorem Does.okOr {x : Option α} (h : post x s) : Does order careful job (okOr x) post s := h

theorem Does.pure {a : α} (h : post (some a) s) : Does order careful job (pure a) post s := h

theorem Does.ec2 {op : Ec2Op} {post : Option (Ec2Out op) → Share → Prop} (howned : Owned job s op)
    (hrun : ∀ w, NoLiveAtRun op w) (h : ∀ x s', shareEnv order op s x s' → post x s') :
    Does order careful job (ec2 op) post s :=
  ⟨⟨howned, fun _ => hrun _⟩, h⟩

def IsPlain : Ec2Op → Prop
  | .describeInstanceTypes .. | .describeImages .. | .describeSubnets ..
  | .describeSecurityGroups .. => True
  | _ => False

theorem IsPlain.drifts {op : Ec2Op} {x : Ec2Ans op} (hop : IsPlain op)
    (h : shareEnv order op s x s') : s.Drifts s' := by
  obtain ⟨-, t, hd, h⟩ := h
  cases op with
  | describeInstanceTypes | describeImages | describeSubnets | describeSecurityGroups =>
    cases h
    exact hd
  | _ => exact hop.elim

theorem does_plain {op : Ec2Op} (hop : IsPlain op) :
    Does order careful job (ControlPlane.ec2 op) (fun _ s' => s.Drifts s') s := by
  refine .ec2 ?_ ?_ fun x s' h => hop.drifts h
  · cases op <;> trivial
  · cases op <;> intro <;> trivial

theorem plain_bind {op : Ec2Op} (hop : IsPlain op) {f : Ec2Out op → AwsProg β}
    (hnone : ∀ s', s.Drifts s' → goal none s')
    (hf : ∀ a s', s.Drifts s' → Does order careful job (f a) goal s') :
    Does order careful job (ControlPlane.ec2 op >>= f) goal s :=
  (does_plain hop).bind hnone hf

theorem okOr_bind {x : Option α} {f : α → AwsProg β} (hnone : goal none s)
    (hf : ∀ a, x = some a → Does order careful job (f a) goal s) :
    Does order careful job (okOr x >>= f) goal s := by
  refine Does.bind (q := fun a s' => a = x ∧ s' = s) (.okOr ⟨rfl, rfl⟩) ?_ ?_
  · rintro s' ⟨-, rfl⟩
    exact hnone
  · rintro a s' ⟨ha, rfl⟩
    exact hf a ha.symm

theorem does_launchInputs (family architecture region : String) :
    Does order careful job (Aws.launchInputs family architecture region)
      (fun _ s' => s.Drifts s') s := by
  have hamis {s : Share} : Does order careful job (Aws.getAmis region family architecture)
      (fun _ s' => s.Drifts s') s := by
    refine plain_bind (by trivial) (fun _ h => h) fun images s₁ h₁ => ?_
    cases Aws.maxByName images with
    | some image => exact .okOr h₁
    | none =>
      refine plain_bind (by trivial) (fun _ h => h₁.trans h) fun _ s₂ h₂ => ?_
      exact okOr_bind (h₁.trans h₂) fun _ _ => .okOr (h₁.trans h₂)
  have hsubnet {s : Share} : Does order careful job (Aws.getSubnet region)
      (fun _ s' => s.Drifts s') s :=
    plain_bind (by trivial) (fun _ h => h) fun _ _ h => okOr_bind h fun _ _ => .okOr h
  have hgroup {s : Share} : Does order careful job (Aws.getSecurityGroup region)
      (fun _ s' => s.Drifts s') s :=
    plain_bind (by trivial) (fun _ h => h) fun _ _ h => okOr_bind h fun _ _ => .okOr h
  refine hamis.bind (fun _ h => h) fun _ s₁ h₁ => ?_
  refine hsubnet.bind (fun _ h => h₁.trans h) fun _ s₂ h₂ => ?_
  refine hgroup.bind (fun _ h => (h₁.trans h₂).trans h) fun _ s₃ h₃ => ?_
  exact .pure ((h₁.trans h₂).trans h₃)

theorem does_getJobInstanceId (region : String) :
    Does order careful job (Aws.getJobInstanceId job region)
      (fun x s' => s.Drifts s' ∧ ∀ a, x = some a → a.1 = true → a.2.1 ∈ s'.instanceIds) s := by
  refine Does.bind (q := fun x s' => s.Drifts s' ∧ Listed order s' region x)
    (.ec2 rfl (fun _ => trivial) ?_) (fun s' h => ⟨h.1, nofun⟩) fun reservations s' ⟨hd, hl⟩ => ?_
  · rintro x s' ⟨-, t, hd, rfl, hl⟩
    exact ⟨hd, hl⟩
  obtain ⟨l, hlists, -, rfl⟩ := hl _ rfl
  cases l with
  | nil =>
    refine .pure ⟨hd, fun a ha hexist => ?_⟩
    cases ha
    cases hexist
  | cons i l =>
    refine .pure ⟨hd, fun a ha _ => ?_⟩
    cases ha
    exact List.mem_map_of_mem (hlists.sound i List.mem_cons_self).1

theorem does_getInstanceState {id : String} (hid : id ∈ s.instanceIds) (region : String) :
    Does order careful job (Aws.getInstanceState id region) (fun _ s' => s.Drifts s') s := by
  refine Does.bind (q := fun _ s' => s.Drifts s') (.ec2 hid (fun _ => trivial) ?_)
    (fun s' h => h) fun reservations s' hd => ?_
  · rintro x s' ⟨-, t, hd, rfl⟩
    exact hd
  · exact okOr_bind hd fun _ _ => okOr_bind hd fun _ _ => .okOr hd

theorem does_getJobElasticIp (region : String) :
    Does order careful job (Aws.getJobElasticIp job region)
      (fun x s' => s.Drifts s' ∧ ∀ a, x = some a → a.1 = true → a.2.1 ∈ s'.allocationIds) s := by
  refine Does.bind (q := fun x s' => s.Drifts s' ∧
      Found (fun e => e ∈ s'.addresses ∧ e.Selected region (.job job)) x)
    (.ec2 rfl (fun _ => trivial) ?_) (fun s' h => ⟨h.1, nofun⟩) fun addresses s' ⟨hd, hfound⟩ => ?_
  · rintro x s' ⟨-, t, hd, rfl, hfound⟩
    exact ⟨hd, hfound⟩
  obtain ⟨l, hl, rfl⟩ := hfound _ rfl
  cases l with
  | nil =>
    refine .pure ⟨hd, fun a ha hexist => ?_⟩
    cases ha
    cases hexist
  | cons e l =>
    refine .pure ⟨hd, fun a ha _ => ?_⟩
    cases ha
    exact List.mem_map_of_mem ((hl e).1 List.mem_cons_self).1

theorem does_getInstanceElasticIp {id : String} (hid : id ∈ s.instanceIds) (region : String) :
    Does order careful job (Aws.getInstanceElasticIp id region)
      (fun x s' => s.Drifts s' ∧ ∀ a, x = some a → a.1 = true → a.2.2 ∈ s'.associations) s := by
  refine Does.bind (q := fun x s' => s.Drifts s' ∧ s'.Good ∧
      Found (fun e => e ∈ s'.addresses ∧ e.Selected region (.instanceId id)) x)
    (.ec2 hid (fun _ => trivial) ?_) (fun s' h => ⟨h.1, nofun⟩)
    fun addresses s' ⟨hd, hgood, hfound⟩ => ?_
  · rintro x s' ⟨hgood, t, hd, rfl, hfound⟩
    exact ⟨hd, hgood, hfound⟩
  obtain ⟨l, hl, rfl⟩ := hfound _ rfl
  cases l with
  | nil =>
    refine .pure ⟨hd, fun a ha hexist => ?_⟩
    cases ha
    cases hexist
  | cons e l =>
    obtain ⟨he, -, hholder⟩ := (hl e).1 List.mem_cons_self
    obtain ⟨⟨c, i⟩, hassoc, rfl⟩ := Option.map_eq_some_iff.1 hholder
    refine okOr_bind ⟨hd, nofun⟩ fun _ _ => okOr_bind ⟨hd, nofun⟩ fun c' hc => ?_
    refine .pure ⟨hd, fun a ha _ => ?_⟩
    cases ha
    have hc : e.association.map Prod.fst = some c' := hc
    rw [hassoc] at hc
    cases hc
    exact (hgood e he c i hassoc).1

theorem does_allocateIpAddr (region : String) :
    Does order careful job (Aws.allocateIpAddr job region)
      (fun x s' => s.Grows s' ∧ ∀ a, x = some a → a.1 ∈ s'.allocationIds) s := by
  refine (does_getJobElasticIp region).bind (fun s' h => ⟨h.1.grows, nofun⟩)
    fun (exist, allocId, publicIp) s₁ ⟨h₁, halloc⟩ => ?_
  have h₁ := h₁.grows
  cases exist with
  | true =>
    refine .pure ⟨h₁, fun a ha => ?_⟩
    cases ha
    exact halloc _ rfl rfl
  | false =>
    refine Does.bind (q := fun x s' => s₁.Grows s' ∧ ∀ address allocId, x = some address →
        address.allocationId = some allocId → allocId ∈ s'.allocationIds)
      (.ec2 rfl (fun _ => trivial) fun x s' h => ⟨grows h, ?_⟩)
      (fun s' h => ⟨h₁.trans h.1, nofun⟩) fun address s₂ ⟨h₂, halloc⟩ => ?_
    · rintro address allocId rfl hid
      obtain ⟨-, t, -, ⟨-, hx⟩ | ⟨e, -, -, hx | hx, rfl⟩⟩ := h
      · cases hx
      · cases hx
      · cases hx
        cases hid
        exact List.mem_map_of_mem (List.mem_append_right _ (List.mem_singleton_self e))
    · refine okOr_bind ⟨h₁.trans h₂, nofun⟩ fun allocId hid => ?_
      refine okOr_bind ⟨h₁.trans h₂, nofun⟩ fun publicIp _ => .pure ⟨h₁.trans h₂, fun a ha => ?_⟩
      cases ha
      exact halloc address allocId rfl hid

theorem does_call {op : Ec2Op} (hgrows : s.Grows t) (howned : Owned job t op)
    (hrun : ∀ w, NoLiveAtRun op w) :
    Does order careful job (ControlPlane.ec2 op) (fun _ s' => s.Grows s') t :=
  .ec2 howned hrun fun _ _ h => hgrows.trans (grows h)

theorem does_whenExists {exist : Bool} {p : AwsProg Unit} (hgrows : s.Grows t)
    (h : exist = true → Does order careful job p (fun _ s' => s.Grows s') t) :
    Does order careful job (whenExists exist p) (fun _ s' => s.Grows s') t := by
  cases exist with
  | true => exact h rfl
  | false => exact .pure hgrows

theorem does_postSpinUp {inst : String} (hinst : inst ∈ s.instanceIds) (region : String) :
    Does order careful job (Aws.postSpinUp job inst region) (fun _ s' => s.Grows s') s := by
  refine (does_allocateIpAddr region).bind (fun _ h => h.1) fun a s₁ ⟨h₁, halloc⟩ => ?_
  exact does_call h₁ ⟨h₁ inst hinst, halloc a rfl⟩ fun _ => trivial

theorem does_spinDownInstance {id : String} (hid : id ∈ s.instanceIds) (region : String) :
    Does order careful job (Aws.spinDownInstance id job region) (fun _ s' => s.Grows s') s := by
  have hrelease : Does order careful job (Aws.releaseAddresses id job region)
      (fun _ s' => s.Grows s') s := by
    refine (does_getInstanceElasticIp hid region).bind (fun _ h => h.1.grows)
      fun (exist, allocId, associationId) s₁ ⟨h₁, hassoc⟩ => ?_
    refine Does.bind (q := fun _ s' => s.Grows s') (does_whenExists h₁.grows fun hexist =>
      does_call h₁.grows (hassoc _ rfl hexist) fun _ => trivial) (fun _ h => h) fun _ s₂ h₂ => ?_
    refine (does_getJobElasticIp region).bind (fun _ h => h₂.trans h.1.grows)
      fun (exist, allocId, publicIp) s₃ ⟨h₃, halloc⟩ => ?_
    exact does_whenExists (h₂.trans h₃.grows) fun hexist => does_call (h₂.trans h₃.grows)
      (halloc _ rfl hexist) fun _ => trivial
  exact hrelease.bind (fun _ h => h) fun _ s₁ h₁ => does_call h₁ (h₁ id hid) fun _ => trivial

def Launched (s : Share) (x : Option String) (s' : Share) : Prop :=
  s.Grows s' ∧ ∀ id, x = some id → id ∈ s'.instanceIds

theorem does_launchInstance {region : String} (instanceType family architecture : String)
    (hnone : careful → s.instances.liveCount region = 0) :
    Does order careful job (Aws.launchInstance job instanceType family architecture region)
      (fun x s' => Launched s x s') s := by
  refine (does_launchInputs family architecture region).bind (fun _ h => ⟨h.grows, nofun⟩)
    fun (ami, subnet, secGroup) s₁ h₁ => ?_
  refine Does.bind (q := fun x s' => s₁.Grows s' ∧
      ∀ l, x = some l → ∀ id, l.head? = some (some id) → id ∈ s'.instanceIds)
    ⟨⟨rfl, fun hc => liveCount_evolve h₁.1.instances (hnone hc)⟩, fun x s' h => ⟨grows h, ?_⟩⟩
    (fun _ h => ⟨h₁.grows.trans h.1, nofun⟩) fun instances s₂ ⟨h₂, hid⟩ => ?_
  · rintro l rfl id hl
    obtain ⟨-, t, -, ⟨-, hx⟩ | ⟨id', st, hx | hx, rfl⟩⟩ := h
    · cases hx
    · cases hx
    · cases hx
      cases hl
      rw [Share.instanceIds_launch]
      exact List.mem_append_right _ (List.mem_singleton_self id)
  · refine okOr_bind ⟨h₁.grows.trans h₂, nofun⟩ fun inst hinst => .okOr ?_
    refine ⟨h₁.grows.trans h₂, fun id hx => hid instances rfl id ?_⟩
    rw [hinst, hx]

theorem does_finishSpinUp {inst : String} (hinst : inst ∈ s.instanceIds) (region : String) :
    Does order careful job (Aws.finishSpinUp job inst region)
      (fun x s' => Launched s x s') s := by
  unfold Aws.finishSpinUp Does
  rw [wp_run_bind, OptionT.run_lift, wp_bind]
  refine wp_mono (fun _ _ h => h) (fun x s₁ h₁ => ?_) (does_postSpinUp hinst region)
  cases x with
  | some _ =>
    refine ⟨h₁, fun id hid => ?_⟩
    cases hid
    exact h₁ inst hinst
  | none =>
    refine (does_spinDownInstance (h₁ inst hinst) region).bind (fun _ h => ⟨h₁.trans h, nofun⟩)
      fun _ s₂ h₂ => ?_
    exact ⟨h₁.trans h₂, nofun⟩

theorem does_spinUpInstance {region : String} (instanceType family : String)
    (reqMem reqVcpu : ℤ) (hnone : careful → s.instances.liveCount region = 0) :
    Does order careful job (Aws.spinUpInstance job instanceType family region reqMem reqVcpu)
      (fun x s' => Launched s x s') s := by
  refine plain_bind (by trivial) (fun _ h => ⟨h.grows, nofun⟩) fun _ s₁ h₁ => ?_
  refine okOr_bind ⟨h₁.grows, nofun⟩ fun (architecture, vCpus, mem) _ => ?_
  dsimp only
  split
  · exact ⟨h₁.grows, nofun⟩
  · refine (does_launchInstance instanceType family architecture fun hc =>
      liveCount_evolve h₁.1.instances (hnone hc)).bind
      (fun _ h => ⟨h₁.grows.trans h.1, nofun⟩) fun inst s₂ h₂ => ?_
    exact (does_finishSpinUp (h₂.2 inst rfl) region).mono fun _ _ h =>
      ⟨(h₁.grows.trans h₂.1).trans h.1, h.2⟩

end Aws

section Provider

variable {order : List Instance → Prop} {careful : Prop} {job : JobId} {s : Share}
  {w : Instances}

def IsInstance (w : Instances) (id : String) : Prop := id ∈ w.map Instance.id

/-- What a provider call names is an instance of the job. -/
def ProviderOwned (job : JobId) : ProviderOp → Instances → Prop
  | .spinUp j _ _ _ _ _ _, _ | .getJobInstance j _, _ => j = job
  | .spinDown id j _, w | .runEnclave j id _ _ _ _ _ _ _, w => j = job ∧ IsInstance w id
  | .checkInstanceRunning id _, w | .checkEnclaveRunning id _, w
  | .updateEnclaveImage id _ _ _ _, w => IsInstance w id

def Answered : (op : ProviderOp) → ProviderAns op → String → Prop
  | .spinUp .., x, id => x = some id
  | .getJobInstance .., x, id => ∃ state, x = some (true, id, state)
  | _, _, _ => False

/-- An answer names an instance of the job, and an instance stays one. -/
def namedEnv : Env ProviderOp ProviderAns Instances :=
  fun op w x w' => (∀ id, IsInstance w id → IsInstance w' id) ∧
    ∀ id, Answered op x id → IsInstance w' id

/-- The provider of `aws.rs` makes allowed calls only. -/
theorem aws_does {op : ProviderOp} (howned : ProviderOwned job op s.instances)
    (hnone : careful → NoLiveAtSpinUp op s.instances) :
    (aws op).wp (shareEnv order) (Allowed careful job)
      (fun x s' => namedEnv op s.instances x s'.instances) s := by
  cases op with
  | spinUp j instanceType family region reqMem reqVcpu =>
    cases howned
    exact does_spinUpInstance instanceType family reqMem reqVcpu hnone
  | spinDown id j region =>
    obtain ⟨rfl, hid⟩ := howned
    exact (does_spinDownInstance hid region).mono fun _ _ h => ⟨h, nofun⟩
  | getJobInstance j region =>
    cases howned
    refine (does_getJobInstanceId region).mono fun x s' h => ⟨h.1.grows, fun id hx => ?_⟩
    obtain ⟨state, rfl⟩ := hx
    exact h.2 _ rfl rfl
  | checkInstanceRunning id region =>
    exact (does_getInstanceState howned region).bind (fun _ h => ⟨h.grows, nofun⟩)
      fun _ s' h => .pure ⟨h.grows, nofun⟩
  | checkEnclaveRunning id region =>
    exact Does.bind (q := fun _ s' => s.Grows s')
      (.ec2 howned (fun _ => trivial) fun _ _ h => grows h) (fun _ h => ⟨h, nofun⟩)
      fun _ s' h => .pure ⟨h, nofun⟩
  | runEnclave | updateEnclaveImage =>
    exact Does.ec2 howned (fun _ => trivial) fun _ _ h => ⟨grows h, nofun⟩

/-- How the account answers about a job; with care, as if there were no other. -/
def fleetEnv (careful : Prop) : Env ProviderOp ProviderAns Share :=
  fun op s x s' => namedEnv op s.instances x s'.instances ∧
    (careful → cloudEnv True op s.instances x s'.instances)

def ProviderAllowed (careful : Prop) (job : JobId) (op : ProviderOp) (s : Share) : Prop :=
  ProviderOwned job op s.instances ∧ (careful → NoLiveAtSpinUp op s.instances)

theorem aws_fleet (horder : careful → ∀ l, order l → LiveFirst l) (op : ProviderOp)
    (h : ProviderAllowed careful job op s) :
    (aws op).wp (shareEnv order) (Allowed careful job) (fun x s' => fleetEnv careful op s x s')
      s := by
  have hnamed : (aws op).wp (shareEnv order) (Allowed careful job)
      (fun x s' => namedEnv op s.instances x s'.instances) s := aws_does h.1 h.2
  by_cases hc : careful
  · have hcloud : (aws op).wp (shareEnv order) (fun _ _ => True)
        (fun x s' => cloudEnv True op s.instances x s'.instances) s :=
      wp_map (f := fun s : Share => s.instances) (fun _ _ _ _ h => shareEnv_ec2Env h)
        (aws_wp (horder hc) op)
    exact wp_mono (fun _ _ h => h.1) (fun _ _ h => ⟨h.1, fun _ => h.2⟩) (wp_and hnamed hcloud)
  · exact wp_mono (fun _ _ h => h) (fun _ _ h => ⟨h, fun h => absurd h hc⟩) hnamed

theorem translated {α : Type} {p : ProviderProg α} {named cloud : α → Instances → Prop}
    (horder : careful → ∀ l, order l → LiveFirst l)
    (hnamed : p.wp namedEnv (ProviderOwned job) named s.instances)
    (hcloud : careful → p.wp (cloudEnv True) NoLiveAtSpinUp cloud s.instances) :
    (p.translate aws).wp (shareEnv order) (Allowed careful job)
      (fun a s' => named a s'.instances ∧ (careful → cloud a s'.instances)) s := by
  have hnamed : p.wp (fleetEnv careful) _ _ s :=
    wp_map (f := fun s : Share => s.instances) (fun _ _ _ _ h => h.1) hnamed
  refine wp_translate (fun op s => aws_fleet horder op) ?_
  by_cases hc : careful
  · have hcloud : p.wp (fleetEnv careful) _ _ s :=
      wp_map (f := fun s : Share => s.instances) (fun _ _ _ _ h => h.2 hc) (hcloud hc)
    exact wp_mono (fun _ _ h => ⟨h.1, fun _ => h.2⟩) (fun _ _ h => ⟨h.1, fun _ => h.2⟩)
      (wp_and hnamed hcloud)
  · exact wp_mono (fun _ _ h => ⟨h, fun h => absurd h hc⟩)
      (fun _ _ h => ⟨h, fun h => absurd h hc⟩) hnamed

end Provider

section Manager

variable {w w' : Instances}

/-- The manager has no instance yet, or one of its job. -/
def Known (s : JobState) (w : Instances) : Prop := s.instanceId = "" ∨ IsInstance w s.instanceId

theorem Known.mono {s : JobState} (h : Known s w) (hw : ∀ id, IsInstance w id → IsInstance w' id) :
    Known s w' :=
  h.imp_right (hw _)

theorem launchNew_named (s : JobState) (h : Known s w) :
    s.launchNew.wp namedEnv (ProviderOwned s.jobId) (fun r w' => Known r.2 w') w := by
  refine ⟨rfl, fun x w₁ h₁ => ?_⟩
  cases x with
  | none => exact h.mono h₁.1
  | some inst =>
    have hinst : IsInstance w₁ inst := h₁.2 inst rfl
    exact ⟨⟨rfl, hinst⟩, fun _ w₂ h₂ => .inr (h₂.1 inst hinst)⟩

theorem useExisting_named (s : JobState) {inst : String} (h : IsInstance w inst) :
    (s.useExisting inst).wp namedEnv (ProviderOwned s.jobId) (fun r w' => Known r.2 w') w := by
  unfold JobState.useExisting
  dsimp only
  split
  · refine ⟨h, fun x w₁ h₁ => ?_⟩
    cases x with
    | none => exact .inr (h₁.1 inst h)
    | some _ => exact .inr (h₁.1 inst h)
  · exact .inr h

theorem launchMode_named (s : JobState) {exist : Bool} {inst state : String}
    (hinst : exist = true → IsInstance w inst) (h : Known s w) :
    (s.launchMode exist inst state).wp namedEnv (ProviderOwned s.jobId)
      (fun r w' => Known r.2 w') w := by
  unfold JobState.launchMode
  split_ifs with hexist hup hstop
  · exact useExisting_named s (hinst hexist)
  · refine ⟨⟨rfl, hinst hexist⟩, fun x w₁ h₁ => ?_⟩
    cases x with
    | none => exact h.mono h₁.1
    | some _ => exact launchNew_named s (h.mono h₁.1)
  · exact launchNew_named s h
  · exact launchNew_named s h

theorem terminateMode_named (s : JobState) {exist : Bool} {inst state : String}
    (hinst : exist = true → IsInstance w inst) (h : Known s w) :
    (s.terminateMode exist inst state).wp namedEnv (ProviderOwned s.jobId)
      (fun r w' => Known r.2 w') w := by
  unfold JobState.terminateMode
  split_ifs with hgone
  · exact h
  · have hexist : exist = true := by
      by_contra hnot
      exact hgone (.inl (by simpa using hnot))
    refine ⟨⟨rfl, hinst hexist⟩, fun x w₁ h₁ => ?_⟩
    cases x with
    | none => exact h.mono h₁.1
    | some _ => exact h.mono h₁.1

theorem changeInfra_named (s : JobState) (now : Instant) (h : Known s w) :
    (s.changeInfra now).wp namedEnv (ProviderOwned s.jobId)
      (fun r w' => ∀ b s', r = some (b, s') → JobState.InfraFrame s s' ∧ Known s' w') w := by
  have himpl : s.changeInfraImpl.wp namedEnv (ProviderOwned s.jobId)
      (fun r w' => Known r.2 w') w := by
    refine ⟨rfl, fun x w₁ h₁ => ?_⟩
    match x with
    | none => exact h.mono h₁.1
    | some (exist, inst, state) =>
      have hinst : exist = true → IsInstance w₁ inst := by
        rintro rfl
        exact h₁.2 inst ⟨state, rfl⟩
      dsimp only
      split
      · exact launchMode_named s hinst (h.mono h₁.1)
      · exact terminateMode_named s hinst (h.mono h₁.1)
  have hknown : (s.changeInfra now).wp namedEnv (ProviderOwned s.jobId)
      (fun r w' => ∀ b s', r = some (b, s') → Known s' w') w := by
    unfold JobState.changeInfra
    rw [wp_bind]
    refine wp_mono (fun _ _ h => h) (fun r w' hr b s' h => ?_) himpl
    have hid : s'.instanceId = r.2.instanceId := by
      obtain ⟨done, s⟩ := r
      cases done with
      | true =>
        obtain ⟨rfl, rfl⟩ := Prod.mk.inj (Option.some.inj h)
        rfl
      | false =>
        unfold JobState.afterChange at h
        obtain ⟨t, -, ht⟩ := Option.map_eq_some_iff.1 h
        cases ht
        rfl
    rwa [Known, hid]
  exact wp_mono (fun _ _ h => h.1) (fun r w' h b s' hr => ⟨h.2 b s' hr, h.1 b s' hr⟩)
    (wp_and hknown (s.changeInfra_wp namedEnv now w))

theorem heartbeatCheck_named (s : JobState) (now : Instant) (h : IsInstance w s.instanceId) :
    (s.heartbeatCheck now).wp namedEnv (ProviderOwned s.jobId)
      (fun r w' => IsInstance w' s.instanceId ∧ ∀ s', r = some s' →
        s' = s ∨ s.scheduleLaunch now 0 = some s') w := by
  refine ⟨h, fun x w₁ h₁ => ?_⟩
  have hid₁ := h₁.1 _ h
  match x with
  | none => exact ⟨hid₁, fun s' hs => .inl (Option.some.inj hs).symm⟩
  | some true =>
    refine ⟨hid₁, fun x w₂ h₂ => ?_⟩
    have hid₂ := h₂.1 _ hid₁
    match x with
    | none => exact ⟨hid₂, fun s' hs => .inl (Option.some.inj hs).symm⟩
    | some true => exact ⟨hid₂, fun s' hs => .inl (Option.some.inj hs).symm⟩
    | some false =>
      exact ⟨⟨rfl, hid₂⟩, fun _ w₃ h₃ =>
        ⟨h₃.1 _ hid₂, fun s' hs => .inl (Option.some.inj hs).symm⟩⟩
  | some false =>
    dsimp only
    split
    · exact ⟨hid₁, fun s' hs => .inr hs⟩
    · exact ⟨hid₁, fun s' hs => .inl (Option.some.inj hs).symm⟩

end Manager

end Oyster.ControlPlane.Fleet
