import Oyster.Lib.Threads
import Oyster.ControlPlane.ElasticIp

/-!
The managers of all jobs work on one AWS account, each in a task of its own. What is launched or
allocated for a job carries its tags, and a job is looked up by them; a call that changes something
names it by its id only. So a manager keeps to its own job because every id that it names is one
that it got by its tags, which holds in any order of the calls, whichever of them fail.
-/

namespace Oyster.ControlPlane.Fleet

open Prog Instances Holdings

/-- What carries the tags of a job, and the ids of the associations that its addresses ever had. -/
structure Share extends Holdings where
  associations : List String

namespace Share

def instanceIds (s : Share) : List String := s.instances.map Instance.id

def allocationIds (s : Share) : List String := s.addresses.map ElasticIp.allocationId

structure Disjoint (s s' : Share) : Prop where
  instances : s.instanceIds.Disjoint s'.instanceIds
  addresses : s.allocationIds.Disjoint s'.allocationIds
  associations : s.associations.Disjoint s'.associations

def Drifts (s s' : Share) : Prop :=
  Holdings.Drifts s.toHoldings s'.toHoldings ∧ s'.associations = s.associations

def launch (s : Share) (i : Instance) : Share :=
  { s with toHoldings := s.toHoldings.launch i }

def terminate (s : Share) (id : String) : Share :=
  { s with instances := s.instances.spunDown id }

def allocate (s : Share) (e : ElasticIp) : Share :=
  { s with toHoldings := s.toHoldings.allocate e }

def associate (s : Share) (id allocId region associationId : String) : Share where
  toHoldings := s.toHoldings.associate id allocId region associationId
  associations :=
    if allocId ∈ s.allocationIds then associationId :: s.associations else s.associations

def disassociate (s : Share) (associationId region : String) : Share :=
  { s with toHoldings := s.toHoldings.disassociate associationId region }

def release (s : Share) (allocId region : String) : Share :=
  { s with toHoldings := s.toHoldings.release allocId region }

/-- An address is only associated with an instance of its job. -/
def Good (s : Share) : Prop :=
  ∀ e ∈ s.addresses, ∀ a id, e.association = some (a, id) →
    a ∈ s.associations ∧ id ∈ s.instanceIds

end Share

/-- The account, by the four tags that make up the id of a job. -/
structure Account where
  share : JobId → Share
  disjoint : ∀ j k, j ≠ k → (share j).Disjoint (share k)

namespace Account

def Drifts (a a' : Account) : Prop := ∀ k, (a.share k).Drifts (a'.share k)

def Adds (a : Account) (job : JobId) (f : Share → Share) (a' : Account) : Prop :=
  a'.share = Function.update a.share job (f (a.share job))

def Changes (a : Account) (f : Share → Share) (a' : Account) : Prop :=
  ∀ k, a'.share k = f (a.share k)

end Account

/-- `describe_instances`, where it answers. -/
def Listed (order : List Instance → Prop) (s : Share) (region : String)
    (x : Option (List (List InstanceDescription))) : Prop :=
  ∀ reservations, x = some reservations → ∃ l, Lists s.instances region l ∧ order l ∧
    reservations = l.map fun i => [⟨some i.id, some i.state.name⟩]

/-- `describe_addresses`, where it answers. -/
def Found (selected : ElasticIp → Prop) (x : Option (List Address)) : Prop :=
  ∀ addresses, x = some addresses → ∃ l : List ElasticIp, (∀ e, e ∈ l ↔ selected e) ∧
    addresses = l.map ElasticIp.describe

/-- What a call answers and does on the account. One that reports an error may have been carried
out. -/
def accountDoes (order : List Instance → Prop) :
    (op : Ec2Op) → Ec2Ans op → Account → Account → Prop
  | .describeInstances (.job job) region, x, a, a' => a' = a ∧ Listed order (a.share job) region x
  | .describeAddresses (.job job) region, x, a, a' => a' = a ∧
      Found (fun e => e ∈ (a.share job).addresses ∧ e.Selected region (.job job)) x
  | .describeAddresses (.instanceId id) region, x, a, a' => a' = a ∧
      Found (fun e => (∃ k, e ∈ (a.share k).addresses) ∧ e.Selected region (.instanceId id)) x
  | .runInstances job _ _ _ _ region, x, a, a' => a' = a ∧ x = none ∨
      ∃ id st, (x = none ∨ x = some [some id]) ∧ a.Adds job (·.launch ⟨id, region, st⟩) a'
  | .terminateInstances id _, x, a, a' => a' = a ∧ x = none ∨ a.Changes (·.terminate id) a'
  | .allocateAddress job region, x, a, a' => a' = a ∧ x = none ∨
      ∃ e : ElasticIp, e.region = region ∧ e.association = none ∧
        (x = none ∨ x = some e.describe) ∧ a.Adds job (·.allocate e) a'
  | .associateAddress id allocId region, x, a, a' => a' = a ∧ x = none ∨
      ∃ associationId, a.Changes (·.associate id allocId region associationId) a'
  | .disassociateAddress associationId region, x, a, a' => a' = a ∧ x = none ∨
      a.Changes (·.disassociate associationId region) a'
  | .releaseAddress allocId region, x, a, a' => a' = a ∧ x = none ∨
      a.Changes (·.release allocId region) a'
  | _, _, a, a' => a' = a

/-- EC2, which changes on its own before a call as well. -/
def accountEnv (order : List Instance → Prop) : Env Ec2Op Ec2Ans Account :=
  fun op a x a' => ∃ b, a.Drifts b ∧ accountDoes order op x b a'

/-- What a call answers and does, as the manager of a job sees it. -/
def shareDoes (order : List Instance → Prop) : (op : Ec2Op) → Ec2Ans op → Share → Share → Prop
  | .describeInstances (.job _) region, x, s, s' => s' = s ∧ Listed order s region x
  | .describeAddresses filter region, x, s, s' => s' = s ∧
      Found (fun e => e ∈ s.addresses ∧ e.Selected region filter) x
  | .runInstances _ _ _ _ _ region, x, s, s' => s' = s ∧ x = none ∨
      ∃ id st, (x = none ∨ x = some [some id]) ∧ s' = s.launch ⟨id, region, st⟩
  | .terminateInstances id _, x, s, s' => s' = s ∧ x = none ∨ s' = s.terminate id
  | .allocateAddress _ region, x, s, s' => s' = s ∧ x = none ∨
      ∃ e : ElasticIp, e.region = region ∧ e.association = none ∧
        (x = none ∨ x = some e.describe) ∧ s' = s.allocate e
  | .associateAddress id allocId region, x, s, s' => s' = s ∧ x = none ∨
      ∃ associationId, s' = s.associate id allocId region associationId
  | .disassociateAddress associationId region, x, s, s' => s' = s ∧ x = none ∨
      s' = s.disassociate associationId region
  | .releaseAddress allocId region, x, s, s' => s' = s ∧ x = none ∨ s' = s.release allocId region
  | _, _, s, s' => s' = s

def shareEnv (order : List Instance → Prop) : Env Ec2Op Ec2Ans Share :=
  fun op s x s' => s'.Good ∧ ∃ t, s.Drifts t ∧ shareDoes order op x t s'

/-- What a call names is what the job has. -/
def Owned (job : JobId) (s : Share) : Ec2Op → Prop
  | .describeInstances (.job j) _ | .describeAddresses (.job j) _ | .runInstances j _ _ _ _ _
  | .allocateAddress j _ => j = job
  | .describeInstances (.instanceId id) _ | .describeAddresses (.instanceId id) _
  | .terminateInstances id _ | .sshDescribeEnclave id _ | .sshUpdateEnclave id _ _ _ _ =>
    id ∈ s.instanceIds
  | .associateAddress id allocId _ => id ∈ s.instanceIds ∧ allocId ∈ s.allocationIds
  | .disassociateAddress associationId _ => associationId ∈ s.associations
  | .releaseAddress allocId _ => allocId ∈ s.allocationIds
  | .sshRunEnclave j id _ _ _ _ _ _ _ => j = job ∧ id ∈ s.instanceIds
  | .describeInstanceTypes .. | .describeImages .. | .describeSubnets ..
  | .describeSecurityGroups .. => True

theorem evolve_ids {w w' : Instances} (h : Evolve w w') :
    w'.map Instance.id = w.map Instance.id := by
  induction h with
  | nil => rfl
  | cons hij _ ih => rw [List.map_cons, List.map_cons, hij.1, ih]

section Settled

variable {w : Instances} {l l' : List ElasticIp}

theorem settled_ids (h : List.Forall₂ (ElasticIp.Settled w) l l') :
    l'.map ElasticIp.allocationId = l.map ElasticIp.allocationId := by
  induction h with
  | nil => rfl
  | cons he _ ih =>
    rw [List.map_cons, List.map_cons, ih]
    rcases he with rfl | ⟨rfl, -⟩
    · rfl
    · rfl

theorem settled_association (h : List.Forall₂ (ElasticIp.Settled w) l l') {e : ElasticIp}
    (he : e ∈ l') {p : String × String} (hp : e.association = some p) : e ∈ l := by
  induction h with
  | nil => exact he
  | @cons a b _ _ hab _ ih =>
    rcases List.mem_cons.1 he with rfl | he
    · rcases hab with rfl | ⟨rfl, -⟩
      · exact List.mem_cons_self
      · cases hp
    · exact List.mem_cons_of_mem _ (ih he)

end Settled

namespace Share

variable {s s' t : Share} {id allocId region associationId : String}

theorem Drifts.refl (s : Share) : s.Drifts s := ⟨.refl _, rfl⟩

theorem Drifts.trans (h : s.Drifts t) (h' : t.Drifts s') : s.Drifts s' :=
  ⟨h.1.trans h'.1, h'.2.trans h.2⟩

theorem Drifts.instanceIds (h : s.Drifts s') : s'.instanceIds = s.instanceIds :=
  evolve_ids h.1.instances

theorem Drifts.allocationIds (h : s.Drifts s') : s'.allocationIds = s.allocationIds :=
  settled_ids h.1.addresses

theorem Drifts.good (h : s.Drifts s') (hs : s.Good) : s'.Good := by
  intro e he a id hassoc
  rw [h.instanceIds, h.2]
  exact hs e (settled_association h.1.addresses he hassoc) a id hassoc

def Grows (s s' : Share) : Prop := ∀ id ∈ s.instanceIds, id ∈ s'.instanceIds

theorem Grows.trans (h : s.Grows t) (h' : t.Grows s') : s.Grows s' :=
  fun id hid => h' id (h id hid)

theorem Drifts.grows (h : s.Drifts s') : s.Grows s' := fun _ hid => h.instanceIds.symm ▸ hid

theorem instanceIds_launch (i : Instance) :
    (s.launch i).instanceIds = s.instanceIds ++ [i.id] :=
  List.map_append

theorem instanceIds_terminate : (s.terminate id).instanceIds = s.instanceIds :=
  evolve_ids (evolve_spunDown s.instances id)

theorem Good.launch (hs : s.Good) (i : Instance) : (s.launch i).Good := by
  intro e he a id hassoc
  obtain ⟨ha, hid⟩ := hs e he a id hassoc
  rw [instanceIds_launch]
  exact ⟨ha, List.mem_append_left _ hid⟩

theorem Good.terminate (hs : s.Good) : (s.terminate id).Good := by
  intro e he a id hassoc
  rw [instanceIds_terminate]
  exact hs e he a id hassoc

theorem Good.allocate (hs : s.Good) {e : ElasticIp} (he : e.association = none) :
    (s.allocate e).Good := by
  intro e' he' a id hassoc
  rcases List.mem_append.1 he' with he' | he'
  · exact hs e' he' a id hassoc
  · cases List.mem_singleton.1 he'
    exact nomatch he.symm.trans hassoc

theorem Good.associate (hs : s.Good) (hid : id ∈ s.instanceIds)
    (halloc : allocId ∈ s.allocationIds) : (s.associate id allocId region associationId).Good := by
  intro e he a i hassoc
  simp only [Share.associate, if_pos halloc, List.mem_cons]
  obtain ⟨e, hmem, rfl⟩ := List.mem_map.1 he
  split_ifs at hassoc
  · cases hassoc
    exact ⟨.inl rfl, hid⟩
  · exact ⟨.inr (hs e hmem a i hassoc).1, (hs e hmem a i hassoc).2⟩

theorem Good.disassociate (hs : s.Good) : (s.disassociate associationId region).Good := by
  intro e he a i hassoc
  obtain ⟨e, hmem, rfl⟩ := List.mem_map.1 he
  split_ifs at hassoc
  exact hs e hmem a i hassoc

theorem Good.release (hs : s.Good) : (s.release allocId region).Good :=
  fun e he a i hassoc => hs e (List.mem_filter.1 he).1 a i hassoc

theorem map_unchanged {α : Type} {f : α → α} {l : List α} (h : ∀ x ∈ l, f x = x) : l.map f = l :=
  (List.map_congr_left h).trans l.map_id

theorem terminate_other (hid : id ∉ s.instanceIds) : s.terminate id = s := by
  have hmap : s.instances.spunDown id = s.instances := by
    refine map_unchanged fun i hi => if_neg ?_
    rintro rfl
    exact hid (List.mem_map_of_mem hi)
  rw [terminate, hmap]

theorem associate_other (hs : s.Good) (hid : id ∉ s.instanceIds)
    (halloc : allocId ∉ s.allocationIds) :
    s.associate id allocId region associationId = s := by
  have hmap : s.toHoldings.associate id allocId region associationId = s.toHoldings := by
    unfold Holdings.associate
    rw [map_unchanged fun e he => ?_]
    rw [if_neg, if_neg]
    · rintro ⟨-, hholder⟩
      obtain ⟨⟨a, i⟩, hassoc, rfl⟩ := Option.map_eq_some_iff.1 hholder
      exact hid (hs e he a i hassoc).2
    · rintro ⟨-, rfl⟩
      exact halloc (List.mem_map_of_mem he)
  rw [associate, hmap, if_neg halloc]

theorem disassociate_other (hs : s.Good) (ha : associationId ∉ s.associations) :
    s.disassociate associationId region = s := by
  have hmap : s.toHoldings.disassociate associationId region = s.toHoldings := by
    unfold Holdings.disassociate
    rw [map_unchanged fun e he => ?_]
    rw [if_neg]
    rintro ⟨-, hassociation⟩
    obtain ⟨⟨a, i⟩, hassoc, rfl⟩ := Option.map_eq_some_iff.1 hassociation
    exact ha (hs e he a i hassoc).1
  rw [disassociate, hmap]

theorem release_other (halloc : allocId ∉ s.allocationIds) : s.release allocId region = s := by
  have hfilter : s.toHoldings.release allocId region = s.toHoldings := by
    unfold Holdings.release
    rw [List.filter_eq_self.2 fun e he => decide_eq_true ?_]
    rintro ⟨-, rfl⟩
    exact halloc (List.mem_map_of_mem he)
  rw [release, hfilter]

end Share

section Owned

variable {order : List Instance → Prop} {job : JobId} {op : Ec2Op} {x : Ec2Ans op}
  {a a' : Account} {s s' : Share}

theorem Owned.drift (h : Owned job s op) (hd : s.Drifts s') : Owned job s' op := by
  have hinstance {id : String} (h : id ∈ s.instanceIds) : id ∈ s'.instanceIds :=
    hd.instanceIds ▸ h
  have haddress {id : String} (h : id ∈ s.allocationIds) : id ∈ s'.allocationIds :=
    hd.allocationIds ▸ h
  have hassociation {id : String} (h : id ∈ s.associations) : id ∈ s'.associations := hd.2 ▸ h
  cases op with
  | describeInstances filter | describeAddresses filter =>
    cases filter with
    | job => exact h
    | instanceId => exact hinstance h
  | terminateInstances | sshDescribeEnclave | sshUpdateEnclave => exact hinstance h
  | associateAddress => exact ⟨hinstance h.1, haddress h.2⟩
  | disassociateAddress => exact hassociation h
  | releaseAddress => exact haddress h
  | sshRunEnclave => exact ⟨h.1, hinstance h.2⟩
  | _ => exact h

theorem Account.Adds.only {f : Share → Share} (h : a.Adds job f a') :
    a'.share job = f (a.share job) ∧ ∀ j, j ≠ job → a'.share j = a.share j := by
  constructor
  · rw [h, Function.update_self]
  · intro j hj
    rw [h, Function.update_of_ne hj]

theorem Account.Changes.only {f : Share → Share} (h : a.Changes f a')
    (hf : ∀ j, j ≠ job → f (a.share j) = a.share j) :
    a'.share job = f (a.share job) ∧ ∀ j, j ≠ job → a'.share j = a.share j :=
  ⟨h job, fun j hj => (h j).trans (hf j hj)⟩

/-- Carried out or not, the call of a job is seen by this job only. -/
structure Only (order : List Instance → Prop) (job : JobId) (op : Ec2Op) (x : Ec2Ans op)
    (a a' : Account) : Prop where
  does : shareDoes order op x (a.share job) (a'.share job)
  good : (a'.share job).Good
  others : ∀ j, j ≠ job → a'.share j = a.share j

theorem only_of_owned (hgood : ∀ j, (a.share j).Good) (howned : Owned job (a.share job) op)
    (h : accountDoes order op x a a') : Only order job op x a a' := by
  have hsame : shareDoes order op x (a.share job) (a.share job) → a' = a →
      Only order job op x a a' := by
    rintro hdoes rfl
    exact ⟨hdoes, hgood job, fun _ _ => rfl⟩
  have hids {id : String} (hid : id ∈ (a.share job).instanceIds) (j : JobId) (hj : j ≠ job) :
      id ∉ (a.share j).instanceIds :=
    fun hid' => (a.disjoint j job hj).instances hid' hid
  cases op with
  | describeInstances filter region =>
    cases filter with
    | job =>
      cases howned
      exact hsame ⟨rfl, h.2⟩ h.1
    | instanceId => exact hsame rfl h
  | describeAddresses filter region =>
    cases filter with
    | job =>
      cases howned
      exact hsame ⟨rfl, h.2⟩ h.1
    | instanceId id =>
      refine hsame ⟨rfl, fun addresses haddresses => ?_⟩ h.1
      obtain ⟨l, hl, rfl⟩ := h.2 addresses haddresses
      refine ⟨l, fun e => (hl e).trans ⟨?_, fun he => ⟨⟨job, he.1⟩, he.2⟩⟩, rfl⟩
      rintro ⟨⟨j, he⟩, hselected⟩
      -- the address is with an instance of the job, so it is one of the job
      obtain ⟨⟨c, i⟩, hassoc, rfl⟩ := Option.map_eq_some_iff.1 hselected.2
      by_cases hj : j = job
      · exact ⟨hj ▸ he, hselected⟩
      · exact absurd (hgood j e he c i hassoc).2 (hids howned j hj)
  | runInstances =>
    cases howned
    rcases h with ⟨rfl, hx⟩ | ⟨id, st, hx, h⟩
    · exact hsame (.inl ⟨rfl, hx⟩) rfl
    · obtain ⟨hown, hothers⟩ := h.only
      exact ⟨.inr ⟨id, st, hx, hown⟩, hown ▸ (hgood _).launch _, hothers⟩
  | terminateInstances id =>
    rcases h with ⟨rfl, hx⟩ | h
    · exact hsame (.inl ⟨rfl, hx⟩) rfl
    · obtain ⟨hown, hothers⟩ := h.only fun j hj => Share.terminate_other (hids howned j hj)
      exact ⟨.inr hown, hown ▸ (hgood _).terminate, hothers⟩
  | allocateAddress =>
    cases howned
    rcases h with ⟨rfl, hx⟩ | ⟨e, hregion, hnone, hx, h⟩
    · exact hsame (.inl ⟨rfl, hx⟩) rfl
    · obtain ⟨hown, hothers⟩ := h.only
      exact ⟨.inr ⟨e, hregion, hnone, hx, hown⟩, hown ▸ (hgood _).allocate hnone, hothers⟩
  | associateAddress =>
    obtain ⟨hid, halloc⟩ := howned
    rcases h with ⟨rfl, hx⟩ | ⟨c, h⟩
    · exact hsame (.inl ⟨rfl, hx⟩) rfl
    · obtain ⟨hown, hothers⟩ := h.only fun j hj => Share.associate_other (hgood j) (hids hid j hj)
        fun halloc' => (a.disjoint j job hj).addresses halloc' halloc
      exact ⟨.inr ⟨c, hown⟩, hown ▸ (hgood _).associate hid halloc, hothers⟩
  | disassociateAddress =>
    rcases h with ⟨rfl, hx⟩ | h
    · exact hsame (.inl ⟨rfl, hx⟩) rfl
    · obtain ⟨hown, hothers⟩ := h.only fun j hj => Share.disassociate_other (hgood j)
        fun hc => (a.disjoint j job hj).associations hc howned
      exact ⟨.inr hown, hown ▸ (hgood _).disassociate, hothers⟩
  | releaseAddress =>
    rcases h with ⟨rfl, hx⟩ | h
    · exact hsame (.inl ⟨rfl, hx⟩) rfl
    · obtain ⟨hown, hothers⟩ := h.only fun j hj => Share.release_other
        fun halloc => (a.disjoint j job hj).addresses halloc howned
      exact ⟨.inr hown, hown ▸ (hgood _).release, hothers⟩
  | _ => exact hsame rfl h

end Owned

end Oyster.ControlPlane.Fleet
