import Oyster.ControlPlane.AwsInstances

namespace Oyster.ControlPlane

open Prog Instances

structure ElasticIp where
  allocationId : String
  publicIp : String
  region : String
  /-- the id of the association, and the instance -/
  association : Option (String × String)
deriving DecidableEq

structure Holdings where
  instances : Instances
  addresses : List ElasticIp

namespace ElasticIp

def holder (e : ElasticIp) : Option String := e.association.map Prod.snd

def describe (e : ElasticIp) : Address :=
  ⟨some e.allocationId, e.association.map Prod.fst, some e.publicIp⟩

def Selected (region : String) (e : ElasticIp) : Ec2Filter → Prop
  | .job _ => e.region = region
  | .instanceId id => e.region = region ∧ e.holder = some id

/-- EC2 drops the association with an instance that has ended. -/
def Settled (w : Instances) (e e' : ElasticIp) : Prop :=
  e' = e ∨ e' = { e with association := none } ∧
    ∀ i ∈ w, i.region = e.region → e.holder = some i.id → i.state.live = false

theorem Settled.region {w : Instances} {e e' : ElasticIp} (h : Settled w e e') :
    e'.region = e.region := by
  obtain rfl | ⟨rfl, _⟩ := h
  · rfl
  · rfl

end ElasticIp

namespace Holdings

/-- What happens without a call. -/
structure Drifts (h h' : Holdings) : Prop where
  instances : Evolve h.instances h'.instances
  addresses : List.Forall₂ (ElasticIp.Settled h'.instances) h.addresses h'.addresses

def launch (h : Holdings) (i : Instance) : Holdings :=
  { h with instances := h.instances ++ [i] }

def allocate (h : Holdings) (e : ElasticIp) : Holdings :=
  { h with addresses := h.addresses ++ [e] }

/-- The address goes to the instance, which gives up the one it had. -/
def associate (h : Holdings) (id allocId region associationId : String) : Holdings :=
  { h with addresses := h.addresses.map fun e =>
      if e.region = region ∧ e.allocationId = allocId then
        { e with association := some (associationId, id) }
      else if e.region = region ∧ e.holder = some id then { e with association := none }
      else e }

def disassociate (h : Holdings) (associationId region : String) : Holdings :=
  { h with addresses := h.addresses.map fun e =>
      if e.region = region ∧ e.association.map Prod.fst = some associationId then
        { e with association := none }
      else e }

def release (h : Holdings) (allocId region : String) : Holdings :=
  { h with addresses := h.addresses.filter fun e =>
      ¬(e.region = region ∧ e.allocationId = allocId) }

end Holdings

open Holdings

/-- EC2 with what the job has. A call that answers an error has changed nothing. -/
def holdingsEnv (order : List Instance → Prop) : Env Ec2Op Ec2Ans Holdings
  | .describeInstances (.job _) region, h, x, h' => Drifts h h' ∧ ∀ reservations,
      x = some reservations → ∃ l, Lists h'.instances region l ∧ order l ∧
        reservations = l.map fun i => [⟨some i.id, some i.state.name⟩]
  | .describeAddresses filter region, h, x, h' => Drifts h h' ∧ ∀ addresses,
      x = some addresses → ∃ l : List ElasticIp,
        (∀ e, e ∈ l ↔ e ∈ h'.addresses ∧ e.Selected region filter) ∧
        addresses = l.map ElasticIp.describe
  | .runInstances _ _ _ _ _ region, h, x, h' => ∃ h₁, Drifts h h₁ ∧
      (x = none ∧ h' = h₁ ∨
        ∃ id st, x = some [some id] ∧ h' = h₁.launch ⟨id, region, st⟩)
  | .terminateInstances id _, h, x, h' => Drifts h h' ∧
      (x = some () → ∀ i ∈ h'.instances, i.id = id → i.state.live = false)
  | .allocateAddress _ region, h, x, h' => ∃ h₁, Drifts h h₁ ∧
      (x = none ∧ h' = h₁ ∨
        ∃ e : ElasticIp, e.region = region ∧ e.association = none ∧ x = some e.describe ∧
          h' = h₁.allocate e)
  | .associateAddress id allocId region, h, x, h' => ∃ h₁, Drifts h h₁ ∧
      (x = none ∧ h' = h₁ ∨
        ∃ associationId, x = some () ∧
          (∃ e ∈ h₁.addresses, e.region = region ∧ e.allocationId = allocId) ∧
          h' = h₁.associate id allocId region associationId)
  | .disassociateAddress associationId region, h, x, h' => ∃ h₁, Drifts h h₁ ∧
      (x = none ∧ h' = h₁ ∨ x = some () ∧ h' = h₁.disassociate associationId region)
  | .releaseAddress allocId region, h, x, h' => ∃ h₁, Drifts h h₁ ∧
      (x = none ∧ h' = h₁ ∨ x = some () ∧ h' = h₁.release allocId region)
  | _, h, _, h' => Drifts h h'

namespace Holdings

/-- Every live instance of the region has an address. -/
def Served (h : Holdings) (r : String) : Prop :=
  ∀ i ∈ h.instances, liveIn r i = true →
    ∃ e ∈ h.addresses, e.region = r ∧ e.holder = some i.id

/-- What holds in the middle of a launch or a termination in `region`. -/
structure Apart (region : String) (h : Holdings) : Prop where
  atMostOne : AtMostOne h.instances
  /-- one address in a region -/
  single : (h.addresses.map ElasticIp.region).Nodup
  served : ∀ r, r ≠ region → h.Served r

/-- Every live instance has the address of the job in its region. -/
structure Sound (h : Holdings) : Prop where
  atMostOne : AtMostOne h.instances
  single : (h.addresses.map ElasticIp.region).Nodup
  served : ∀ r, h.Served r

structure Clear (h : Holdings) (r : String) : Prop where
  instances : h.instances.liveCount r = 0
  addresses : ∀ e ∈ h.addresses, e.region ≠ r

def LiveOnly (h : Holdings) (r id : String) : Prop :=
  ∀ i ∈ h.instances, liveIn r i = true → i.id = id

variable {h h' h'' : Holdings} {r region id : String}

theorem liveIn_iff {i : Instance} : liveIn r i = true ↔ i.state.live = true ∧ i.region = r := by
  simp [liveIn]

theorem served_of_liveCount (h0 : h.instances.liveCount r = 0) : h.Served r := by
  intro i hi hlive
  rw [liveIn_iff] at hlive
  exact absurd hlive.2 (liveCount_eq_zero.1 h0 i hi hlive.1)

theorem Sound.apart (hs : Sound h) (region : String) : Apart region h :=
  ⟨hs.atMostOne, hs.single, fun r _ => hs.served r⟩

theorem Apart.sound (ha : Apart region h) (hs : h.Served region) : Sound h := by
  refine ⟨ha.atMostOne, ha.single, fun r => ?_⟩
  by_cases hr : r = region
  · rw [hr]
    exact hs
  · exact ha.served r hr

theorem liveIn_of_evolve {w w' : Instances} (hev : Evolve w w') {i : Instance} (hi : i ∈ w')
    (hlive : liveIn r i = true) : ∃ j ∈ w, j.id = i.id ∧ liveIn r j = true := by
  obtain ⟨j, hj, hid, hregion, hl⟩ := hev.mem hi
  rw [liveIn_iff] at hlive
  exact ⟨j, hj, hid.symm, liveIn_iff.2 ⟨hl hlive.1, hregion.symm.trans hlive.2⟩⟩

theorem LiveOnly.evolve (hl : h.LiveOnly r id) (hev : Evolve h.instances h'.instances) :
    h'.LiveOnly r id := by
  intro i hi hlive
  obtain ⟨j, hj, hid, hjl⟩ := liveIn_of_evolve hev hi hlive
  rw [← hid]
  exact hl j hj hjl

theorem LiveOnly.liveCount (hl : h.LiveOnly r id)
    (hdead : ∀ i ∈ h.instances, i.id = id → i.state.live = false) :
    h.instances.liveCount r = 0 := by
  apply liveCount_eq_zero.2
  intro i hi hlive hr
  have hid := hl i hi (liveIn_iff.2 ⟨hlive, hr⟩)
  rw [hdead i hi hid] at hlive
  cases hlive

section Settled

variable {w w' : Instances} {l l' l'' : List ElasticIp}

theorem settled_mem (hl : List.Forall₂ (ElasticIp.Settled w) l l') {e : ElasticIp} (he : e ∈ l) :
    ∃ e' ∈ l', e.Settled w e' := by
  induction hl with
  | nil => exact absurd he List.not_mem_nil
  | @cons a b _ _ hab _ ih =>
    rcases List.mem_cons.1 he with rfl | hmem
    · exact ⟨b, List.mem_cons_self, hab⟩
    · obtain ⟨e', he', hs⟩ := ih hmem
      exact ⟨e', List.mem_cons_of_mem _ he', hs⟩

theorem settled_region (hl : List.Forall₂ (ElasticIp.Settled w) l l') :
    l'.map ElasticIp.region = l.map ElasticIp.region := by
  induction hl with
  | nil => rfl
  | cons he _ ih => rw [List.map_cons, List.map_cons, he.region, ih]

theorem settled_trans (hev : Evolve w w') (hl : List.Forall₂ (ElasticIp.Settled w) l l')
    (hl' : List.Forall₂ (ElasticIp.Settled w') l' l'') :
    List.Forall₂ (ElasticIp.Settled w') l l'' := by
  have hdead : ∀ e : ElasticIp,
      (∀ i ∈ w, i.region = e.region → e.holder = some i.id → i.state.live = false) →
      ∀ i ∈ w', i.region = e.region → e.holder = some i.id → i.state.live = false := by
    intro e hw i hi hr hid
    obtain ⟨j, hj, hji, hjr, hlive⟩ := hev.mem hi
    have hjdead := hw j hj (hjr ▸ hr) (hji ▸ hid)
    by_contra hi
    rw [hlive (by simpa using hi)] at hjdead
    cases hjdead
  induction hl generalizing l'' with
  | nil => exact hl'
  | @cons a b _ _ hab _ ih =>
    -- the last step decides, unless it left the address as it was
    cases hl' with
    | @cons _ c _ _ hbc hrest =>
      refine .cons ?_ (ih hrest)
      rcases hab with rfl | ⟨rfl, hd⟩
      · exact hbc
      · rcases hbc with rfl | ⟨rfl, _⟩
        · exact .inr ⟨rfl, hdead a hd⟩
        · exact .inr ⟨rfl, hdead a hd⟩

end Settled

theorem Drifts.refl (h : Holdings) : Drifts h h :=
  ⟨.refl _, List.forall₂_same.2 fun _ _ => .inl rfl⟩

theorem Drifts.trans (hd : Drifts h h') (hd' : Drifts h' h'') : Drifts h h'' :=
  ⟨hd.instances.trans hd'.instances, settled_trans hd'.instances hd.addresses hd'.addresses⟩

theorem Drifts.no_address (hd : Drifts h h') (hnone : ∀ e ∈ h.addresses, e.region ≠ r) :
    ∀ e ∈ h'.addresses, e.region ≠ r := by
  intro e he
  have hmem : e.region ∈ h.addresses.map ElasticIp.region := by
    rw [← settled_region hd.addresses]
    exact List.mem_map.2 ⟨e, he, rfl⟩
  obtain ⟨e', he', heq⟩ := List.mem_map.1 hmem
  rw [← heq]
  exact hnone e' he'

theorem Drifts.served (hd : Drifts h h') (hs : h.Served r) : h'.Served r := by
  intro i hi hlive
  obtain ⟨j, hj, hid, hjl⟩ := liveIn_of_evolve hd.instances hi hlive
  obtain ⟨e, he, her, heh⟩ := hs j hj hjl
  obtain ⟨e', he', hsettled⟩ := settled_mem hd.addresses he
  refine ⟨e', he', hsettled.region.trans her, ?_⟩
  rcases hsettled with rfl | ⟨-, hdead⟩
  · rw [heh, hid]
  · -- the instance is live, so the address was not taken from it
    rw [liveIn_iff] at hlive
    have hend := hdead i hi (hlive.2.trans her.symm) (by rw [heh, hid])
    rw [hlive.1] at hend
    cases hend

theorem Drifts.single (hd : Drifts h h') (hs : (h.addresses.map ElasticIp.region).Nodup) :
    (h'.addresses.map ElasticIp.region).Nodup := by
  rw [settled_region hd.addresses]
  exact hs

theorem Drifts.apart (hd : Drifts h h') (ha : h.Apart region) : h'.Apart region :=
  ⟨hd.instances.atMostOne ha.atMostOne, hd.single ha.single,
    fun r hr => hd.served (ha.served r hr)⟩

theorem Drifts.sound (hd : Drifts h h') (hs : h.Sound) : h'.Sound :=
  (hd.apart (hs.apart "")).sound (hd.served (hs.served ""))

theorem liveCount_evolve {w w' : Instances} (hev : Evolve w w') (h0 : w.liveCount r = 0) :
    w'.liveCount r = 0 := by
  have hle := hev.liveCount_le r
  omega

theorem Apart.of_elsewhere {l : List ElasticIp} (ha : h.Apart region)
    (hsingle : (l.map ElasticIp.region).Nodup)
    (he : ∀ e ∈ h.addresses, e.region ≠ region → e ∈ l) :
    Apart region { h with addresses := l } := by
  refine ⟨ha.atMostOne, hsingle, fun r hr i hi hlive => ?_⟩
  obtain ⟨e, hmem, her, heh⟩ := ha.served r hr i hi hlive
  -- the address that served it was in another region
  exact ⟨e, he e hmem (her ▸ hr), her, heh⟩

theorem Apart.launch (ha : h.Apart region) (h0 : h.instances.liveCount region = 0)
    (st : InstanceState) : (h.launch ⟨id, region, st⟩).Apart region := by
  refine ⟨atMostOne_append ha.atMostOne h0, ha.single, fun r hr i hi hlive => ?_⟩
  rcases List.mem_append.1 hi with hi | hi
  · exact ha.served r hr i hi hlive
  · rw [List.mem_singleton.1 hi, liveIn_iff] at hlive
    exact absurd hlive.2.symm hr

theorem liveOnly_launch (h0 : h.instances.liveCount region = 0) (st : InstanceState) :
    (h.launch ⟨id, region, st⟩).LiveOnly region id := by
  intro i hi hlive
  rcases List.mem_append.1 hi with hi | hi
  · rw [liveIn_iff] at hlive
    exact absurd hlive.2 (liveCount_eq_zero.1 h0 i hi hlive.1)
  · rw [List.mem_singleton.1 hi]

theorem Apart.allocate (ha : h.Apart region) (hnone : ∀ e ∈ h.addresses, e.region ≠ region)
    {e : ElasticIp} (he : e.region = region) : (h.allocate e).Apart region := by
  apply ha.of_elsewhere
  · show ((h.addresses ++ [e]).map ElasticIp.region).Nodup
    rw [List.map_append, List.nodup_append]
    refine ⟨ha.single, List.nodup_singleton _, fun r hr r' hr' => ?_⟩
    obtain ⟨e', he', rfl⟩ := List.mem_map.1 hr
    rw [List.map_singleton, List.mem_singleton] at hr'
    rw [hr', he]
    exact hnone e' he'
  · exact fun e' he' _ => List.mem_append_left _ he'

theorem Apart.map (ha : h.Apart region) {f : ElasticIp → ElasticIp}
    (hregion : ∀ e, (f e).region = e.region) (hid : ∀ e, e.region ≠ region → f e = e) :
    Apart region { h with addresses := h.addresses.map f } := by
  apply ha.of_elsewhere
  · show ((h.addresses.map f).map ElasticIp.region).Nodup
    rw [List.map_map]
    have hcomp : ElasticIp.region ∘ f = ElasticIp.region := funext hregion
    rw [hcomp]
    exact ha.single
  · exact fun e he hr => List.mem_map.2 ⟨e, he, hid e hr⟩

theorem Apart.associate (ha : h.Apart region) (allocId associationId : String) :
    (h.associate id allocId region associationId).Apart region := by
  apply ha.map
  · intro e
    split_ifs <;> rfl
  · intro e hr
    rw [if_neg (fun h => hr h.1), if_neg (fun h => hr h.1)]

theorem Apart.disassociate (ha : h.Apart region) (associationId : String) :
    (h.disassociate associationId region).Apart region := by
  apply ha.map
  · intro e
    split_ifs <;> rfl
  · intro e hr
    rw [if_neg (fun h => hr h.1)]

theorem Apart.release (ha : h.Apart region) (allocId : String) :
    (h.release allocId region).Apart region := by
  apply ha.of_elsewhere
  · exact (List.filter_sublist.map _).nodup ha.single
  · intro e he hr
    simp [he, hr]

theorem mem_associate {allocId associationId : String}
    (hmem : ∃ e ∈ h.addresses, e.region = region ∧ e.allocationId = allocId) :
    ∃ e ∈ (h.associate id allocId region associationId).addresses,
      e.region = region ∧ e.holder = some id := by
  obtain ⟨e, he, hr, ha⟩ := hmem
  refine ⟨{ e with association := some (associationId, id) }, ?_, hr, rfl⟩
  apply List.mem_map.2
  exact ⟨e, he, by rw [if_pos ⟨hr, ha⟩]⟩

theorem no_address_release {allocId : String} (hs : (h.addresses.map ElasticIp.region).Nodup)
    (hmem : ∃ e ∈ h.addresses, e.region = region ∧ e.allocationId = allocId) :
    ∀ e ∈ (h.release allocId region).addresses, e.region ≠ region := by
  intro e he hr
  obtain ⟨e', he', hr', ha'⟩ := hmem
  simp only [Holdings.release, List.mem_filter, decide_eq_true_eq] at he
  have heq : e = e' := List.inj_on_of_nodup_map hs he.1 he' (hr.trans hr'.symm)
  exact he.2 ⟨hr, heq ▸ ha'⟩

end Holdings

/-- The calls that were answered: an instance launched, the address associated, an address
disassociated, an instance terminated. -/
structure Marks where
  launched : Bool := false
  associated : Bool := false
  disassociated : Bool := false
  terminated : Bool := false

def Marks.add (m : Marks) : (op : Ec2Op) → Ec2Ans op → Marks
  | .runInstances .., some (some _ :: _) => { m with launched := true }
  | .associateAddress .., some () => { m with associated := true }
  | .disassociateAddress .., some () => { m with disassociated := true }
  | .terminateInstances .., some () => { m with terminated := true }
  | _, _ => m

theorem Marks.add_read {op : Ec2Op} (hop : op.isRead = true) (m : Marks) (x : Ec2Ans op) :
    m.add op x = m := by
  cases op <;> first | rfl | cases hop

namespace Holdings

abbrev markedEnv (order : List Instance → Prop) : Env Ec2Op Ec2Ans (Holdings × Marks) :=
  (holdingsEnv order).history Marks.add

section Programs

variable {order : List Instance → Prop} {h h' : Holdings} {m : Marks} {region id : String}
  {α β : Type}

theorem holdingsEnv_read {op : Ec2Op} (hop : op.isRead = true) {x : Ec2Ans op}
    (hx : holdingsEnv order op h x h') : Drifts h h' := by
  cases op with
  | describeInstances filter region =>
    cases filter with
    | job job => exact hx.1
    | instanceId id => exact hx
  | describeInstanceTypes => exact hx
  | describeImages => exact hx
  | describeSubnets => exact hx
  | describeSecurityGroups => exact hx
  | describeAddresses => exact hx.1
  | _ => cases hop

theorem reads_wp {p : AwsProg α} (hp : Aws.Reads p) (h : Holdings) (m : Marks) :
    p.run.wp (markedEnv order) (fun _ _ => True) (fun _ s' => Drifts h s'.1 ∧ s'.2 = m)
      (h, m) := by
  have hstep : ∀ (op : Ec2Op) (s : Holdings × Marks) (x : Ec2Ans op) (s' : Holdings × Marks),
      op.isRead = true → markedEnv order op s x s' → Drifts s.1 s'.1 ∧ s'.2 = s.2 :=
    fun op s x s' hop hx => ⟨holdingsEnv_read hop hx.1, by rw [hx.2, Marks.add_read hop]⟩
  exact Calls.wp (R := fun s s' : Holdings × Marks => Drifts s.1 s'.1 ∧ s'.2 = s.2)
    (fun s => ⟨.refl s.1, rfl⟩) (fun hs hs' => ⟨hs.1.trans hs'.1, hs'.2.trans hs.2⟩) hstep hp (h, m)

theorem reads_bind_wp {x : AwsProg α} {f : α → AwsProg β}
    {post : Option β → Holdings × Marks → Prop} (hx : Aws.Reads x)
    (hnone : ∀ h', Drifts h h' → post none (h', m))
    (hf : ∀ a h', Drifts h h' →
      (f a).run.wp (markedEnv order) (fun _ _ => True) post (h', m)) :
    (x >>= f).run.wp (markedEnv order) (fun _ _ => True) post (h, m) := by
  rw [wp_run_bind]
  refine wp_mono (fun _ _ h => h) ?_ (reads_wp hx h m)
  rintro a ⟨h', m'⟩ ⟨hd, rfl⟩
  cases a with
  | none => exact hnone h' hd
  | some a => exact hf a h' hd

/-- What `get_job_elastic_ip` found. -/
def FoundJobIp (region : String) (h : Holdings) : Option (Bool × String × String) → Prop
  | none => True
  | some (false, _, _) => ∀ e ∈ h.addresses, e.region ≠ region
  | some (true, allocId, _) => ∃ e ∈ h.addresses, e.region = region ∧ e.allocationId = allocId

theorem getJobElasticIp_wp (job : JobId) (region : String) (h : Holdings) (m : Marks) :
    (Aws.getJobElasticIp job region).run.wp (markedEnv order) (fun _ _ => True)
      (fun x s' => Drifts h s'.1 ∧ s'.2 = m ∧ FoundJobIp region s'.1 x) (h, m) := by
  unfold Aws.getJobElasticIp
  rw [wp_run_bind]
  refine ⟨trivial, fun x s' hx => ?_⟩
  obtain ⟨h', m'⟩ := s'
  obtain ⟨⟨hd, hlist⟩, hm⟩ := hx
  have hm : m' = m := hm
  cases x with
  | none => exact ⟨hd, hm, trivial⟩
  | some addresses =>
    obtain ⟨l, hl, rfl⟩ := hlist _ rfl
    cases l with
    | nil =>
      refine ⟨hd, hm, fun e he hr => ?_⟩
      exact absurd ((hl e).2 ⟨he, hr⟩) List.not_mem_nil
    | cons e l =>
      obtain ⟨he, hr⟩ := (hl e).1 List.mem_cons_self
      exact ⟨hd, hm, e, he, hr, rfl⟩

def FoundInstanceIp (id region : String) (h : Holdings) :
    Option (Bool × String × String) → Prop
  | some (false, _, _) => ∀ e ∈ h.addresses, e.region = region → e.holder ≠ some id
  | _ => True

theorem getInstanceElasticIp_wp (id region : String) (h : Holdings) (m : Marks) :
    (Aws.getInstanceElasticIp id region).run.wp (markedEnv order) (fun _ _ => True)
      (fun x s' => Drifts h s'.1 ∧ s'.2 = m ∧ FoundInstanceIp id region s'.1 x) (h, m) := by
  unfold Aws.getInstanceElasticIp
  rw [wp_run_bind]
  refine ⟨trivial, fun x s' hx => ?_⟩
  obtain ⟨h', m'⟩ := s'
  obtain ⟨⟨hd, hlist⟩, hm⟩ := hx
  have hm : m' = m := hm
  cases x with
  | none => exact ⟨hd, hm, trivial⟩
  | some addresses =>
    obtain ⟨l, hl, rfl⟩ := hlist _ rfl
    cases l with
    | nil =>
      refine ⟨hd, hm, fun e he hr hid => ?_⟩
      exact absurd ((hl e).2 ⟨he, hr, hid⟩) List.not_mem_nil
    | cons e l =>
      obtain ⟨_, _, hholder⟩ := (hl e).1 List.mem_cons_self
      obtain ⟨association, hassoc, _⟩ := Option.map_eq_some_iff.1 hholder
      have hdescribe : e.describe =
          ⟨some e.allocationId, some association.1, some e.publicIp⟩ := by
        rw [ElasticIp.describe, hassoc]
        rfl
      simp only [List.map_cons, hdescribe]
      exact ⟨hd, hm, trivial⟩

theorem releaseJobIp_wp (job : JobId) (ha : h.Apart region) (m : Marks) :
    (do
      let (exist, allocId, _) ← Aws.getJobElasticIp job region
      whenExists exist (ec2 (.releaseAddress allocId region)) : AwsProg Unit).run.wp
        (markedEnv order) (fun _ _ => True)
        (fun x s' => Evolve h.instances s'.1.instances ∧ s'.1.Apart region ∧ s'.2 = m ∧
          (x = some () → ∀ e ∈ s'.1.addresses, e.region ≠ region)) (h, m) := by
  rw [wp_run_bind]
  refine wp_mono (fun _ _ h => h) ?_ (getJobElasticIp_wp job region h m)
  rintro x ⟨h₁, m₁⟩ ⟨hd, hm, hfound⟩
  have ha₁ : h₁.Apart region := hd.apart ha
  match x with
  | none => exact ⟨hd.instances, ha₁, hm, nofun⟩
  | some (false, _, _) => exact ⟨hd.instances, ha₁, hm, fun _ => hfound⟩
  | some (true, allocId, _) =>
    refine ⟨trivial, fun x s' hx => ?_⟩
    obtain ⟨h', m'⟩ := s'
    obtain ⟨⟨h₂, hd₂, hx⟩, hm'⟩ := hx
    have hmark : m' = m := hm'.trans hm
    have ha₂ := hd₂.apart ha₁
    have hev := hd.instances.trans hd₂.instances
    rcases hx with ⟨rfl, rfl⟩ | ⟨rfl, rfl⟩
    · exact ⟨hev, ha₂, hmark, nofun⟩
    · -- the address that was found may have lost its association, but not its id
      obtain ⟨e, he, hr, hid⟩ := hfound
      obtain ⟨e', he', hsettled⟩ := settled_mem hd₂.addresses he
      have hid' : e'.allocationId = e.allocationId := by
        rcases hsettled with rfl | ⟨rfl, -⟩
        · rfl
        · rfl
      refine ⟨hev, ha₂.release allocId, hmark, fun _ => ?_⟩
      exact no_address_release ha₂.single ⟨e', he', hsettled.region.trans hr, hid'.trans hid⟩

structure Released (region id : String) (h : Holdings) (m : Marks) (x : Option Unit)
    (h' : Holdings) (m' : Marks) : Prop where
  instances : Evolve h.instances h'.instances
  apart : h'.Apart region
  done : x = some () → ∀ e ∈ h'.addresses, e.region ≠ region
  kept : m' = { m with disassociated := true } ∨
    m' = m ∧ (h.LiveOnly region id → h.Served region → h'.Served region)

theorem releaseAddresses_wp (job : JobId) (ha : h.Apart region) (m : Marks) :
    (Aws.releaseAddresses id job region).run.wp (markedEnv order) (fun _ _ => True)
      (fun x s' => Released region id h m x s'.1 s'.2) (h, m) := by
  unfold Aws.releaseAddresses
  rw [wp_run_bind]
  refine wp_mono (fun _ _ h => h) ?_ (getInstanceElasticIp_wp id region h m)
  rintro x ⟨h₁, m₁⟩ ⟨hd, hm, hfound⟩
  have ha₁ : h₁.Apart region := hd.apart ha
  match x with
  | none => exact ⟨hd.instances, ha₁, nofun, .inr ⟨hm, fun _ hs => hd.served hs⟩⟩
  | some (false, _, _) =>
    refine wp_mono (fun _ _ h => h) ?_ (releaseJobIp_wp job ha₁ m₁)
    rintro x ⟨h', m'⟩ ⟨hev, ha', hm', hdone⟩
    refine ⟨hd.instances.trans hev, ha', hdone, .inr ⟨hm'.trans hm, fun hl hs => ?_⟩⟩
    -- an instance without an address is not live
    have h0 : h₁.instances.liveCount region = 0 := by
      apply liveCount_eq_zero.2
      intro i hi hlive hr
      have hin := liveIn_iff.2 ⟨hlive, hr⟩
      obtain ⟨e, he, her, heh⟩ := hd.served hs i hi hin
      rw [hl.evolve hd.instances i hi hin] at heh
      exact hfound e he her heh
    exact served_of_liveCount (liveCount_evolve hev h0)
  | some (true, _, associationId) =>
    refine ⟨trivial, fun x s' hx => ?_⟩
    obtain ⟨h₃, m₃⟩ := s'
    obtain ⟨⟨h₂, hd₂, hx⟩, hm₃⟩ := hx
    have ha₂ := hd₂.apart ha₁
    have hev := hd.instances.trans hd₂.instances
    rcases hx with ⟨rfl, rfl⟩ | ⟨rfl, rfl⟩
    · exact ⟨hev, ha₂, nofun, .inr ⟨hm₃.trans hm, fun _ hs => (hd.trans hd₂).served hs⟩⟩
    · have hmark : m₃ = { m with disassociated := true } := by
        rw [← hm]
        exact hm₃
      refine wp_mono (fun _ _ h => h) ?_ (releaseJobIp_wp job (ha₂.disassociate associationId) m₃)
      rintro x ⟨h', m'⟩ ⟨hev', ha', hm', hdone⟩
      exact ⟨hev.trans hev', ha', hdone, .inl (hm'.trans hmark)⟩

structure Down (region id : String) (h : Holdings) (m : Marks) (x : Option Unit) (h' : Holdings)
    (m' : Marks) : Prop where
  instances : Evolve h.instances h'.instances
  apart : h'.Apart region
  associated : m'.associated = m.associated
  launched : m'.launched = m.launched
  done : x = some () → m'.terminated = true ∧ (∀ e ∈ h'.addresses, e.region ≠ region) ∧
    ∀ i ∈ h'.instances, i.id = id → i.state.live = false
  failed : x = none → m'.terminated = m.terminated ∧
    (m'.disassociated = true ∨ (h.LiveOnly region id → h.Served region → h'.Served region))

theorem spinDownInstance_wp (job : JobId) (ha : h.Apart region) (m : Marks) :
    (Aws.spinDownInstance id job region).run.wp (markedEnv order) (fun _ _ => True)
      (fun x s' => Down region id h m x s'.1 s'.2) (h, m) := by
  unfold Aws.spinDownInstance
  rw [wp_run_bind]
  refine wp_mono (fun _ _ h => h) ?_ (releaseAddresses_wp job ha m)
  rintro x ⟨h₁, m₁⟩ ⟨hev, ha₁, hdone, hkept⟩
  have hmarks : m₁.associated = m.associated ∧ m₁.launched = m.launched ∧
      m₁.terminated = m.terminated := by
    rcases hkept with rfl | ⟨rfl, -⟩
    · exact ⟨rfl, rfl, rfl⟩
    · exact ⟨rfl, rfl, rfl⟩
  obtain ⟨hassoc, hlaunch, hterm⟩ := hmarks
  have hserved : m₁.disassociated = true ∨
      (h.LiveOnly region id → h.Served region → h₁.Served region) := by
    rcases hkept with rfl | ⟨-, hs⟩
    · exact .inl rfl
    · exact .inr hs
  cases x with
  | none => exact ⟨hev, ha₁, hassoc, hlaunch, nofun, fun _ => ⟨hterm, hserved⟩⟩
  | some _ =>
    refine ⟨trivial, fun x s' hx => ?_⟩
    obtain ⟨h', m'⟩ := s'
    obtain ⟨⟨hd, hdead⟩, hm'⟩ := hx
    have hev' := hev.trans hd.instances
    cases x with
    | none =>
      have hm' : m' = m₁ := hm'
      subst hm'
      refine ⟨hev', hd.apart ha₁, hassoc, hlaunch, nofun, fun _ => ⟨hterm, ?_⟩⟩
      exact hserved.imp_right fun hs hl h₀ => hd.served (hs hl h₀)
    | some _ =>
      have hm' : m' = { m₁ with terminated := true } := hm'
      subst hm'
      exact ⟨hev', hd.apart ha₁, hassoc, hlaunch,
        fun _ => ⟨rfl, hd.no_address (hdone rfl), hdead rfl⟩, nofun⟩

theorem allocateIpAddr_wp (job : JobId) (ha : h.Apart region) (m : Marks) :
    (Aws.allocateIpAddr job region).run.wp (markedEnv order) (fun _ _ => True)
      (fun _ s' => Evolve h.instances s'.1.instances ∧ s'.1.Apart region ∧ s'.2 = m) (h, m) := by
  unfold Aws.allocateIpAddr
  rw [wp_run_bind]
  refine wp_mono (fun _ _ h => h) ?_ (getJobElasticIp_wp job region h m)
  rintro x ⟨h₁, m₁⟩ ⟨hd, hm, hfound⟩
  match x with
  | none => exact ⟨hd.instances, hd.apart ha, hm⟩
  | some (true, _, _) => exact ⟨hd.instances, hd.apart ha, hm⟩
  | some (false, _, _) =>
    dsimp only
    rw [if_neg (by decide), wp_run_bind]
    refine ⟨trivial, fun x s' hx => ?_⟩
    obtain ⟨h', m'⟩ := s'
    obtain ⟨⟨h₂, hd₂, hx⟩, hm'⟩ := hx
    have hmark : m' = m := hm'.trans hm
    have hev := hd.instances.trans hd₂.instances
    have ha₂ := hd₂.apart (hd.apart ha)
    rcases hx with ⟨rfl, rfl⟩ | ⟨e, her, -, rfl, rfl⟩
    · exact ⟨hev, ha₂, hmark⟩
    · exact ⟨hev, ha₂.allocate (hd₂.no_address hfound) her, hmark⟩

structure Posted (region inst : String) (h : Holdings) (m : Marks) (x : Option Unit)
    (h' : Holdings) (m' : Marks) : Prop where
  instances : Evolve h.instances h'.instances
  apart : h'.Apart region
  done : x = some () → ∃ e ∈ h'.addresses, e.region = region ∧ e.holder = some inst
  failed : x = none → m' = m

theorem postSpinUp_wp (job : JobId) (inst : String) (ha : h.Apart region) (m : Marks) :
    (Aws.postSpinUp job inst region).run.wp (markedEnv order) (fun _ _ => True)
      (fun x s' => Posted region inst h m x s'.1 s'.2) (h, m) := by
  unfold Aws.postSpinUp
  rw [wp_run_bind]
  refine wp_mono (fun _ _ h => h) ?_ (allocateIpAddr_wp job ha m)
  rintro x ⟨h₁, m₁⟩ ⟨hev, ha₁, hm⟩
  cases x with
  | none => exact ⟨hev, ha₁, nofun, fun _ => hm⟩
  | some found =>
    obtain ⟨allocId, publicIp⟩ := found
    refine ⟨trivial, fun x s' hx => ?_⟩
    obtain ⟨h', m'⟩ := s'
    obtain ⟨⟨h₂, hd, hx⟩, hm'⟩ := hx
    have hev' := hev.trans hd.instances
    have ha₂ := hd.apart ha₁
    rcases hx with ⟨rfl, rfl⟩ | ⟨associationId, rfl, hmem, rfl⟩
    · exact ⟨hev', ha₂, nofun, fun _ => hm'.trans hm⟩
    · exact ⟨hev', ha₂.associate allocId associationId, fun _ => mem_associate hmem, nofun⟩

/-- After `spin_up_instance` was called where nothing was live. -/
structure Up (region : String) (h : Holdings) (x : Option String) (h' : Holdings) (m' : Marks) :
    Prop where
  sound : ∀ id, x = some id → h'.Sound
  /-- nothing happened, or what was launched is gone once it was terminated -/
  failed : x = none → m'.launched = false ∧ Drifts h h' ∨
    m'.launched = true ∧ m'.associated = false ∧
      (m'.terminated = true → h'.Apart region ∧ h'.Clear region)

theorem finishSpinUp_wp {h₀ : Holdings} (job : JobId) (inst : String) (ha : h.Apart region)
    (hl : h.LiveOnly region inst) (hm : m = { launched := true }) :
    (Aws.finishSpinUp job inst region).run.wp (markedEnv order) (fun _ _ => True)
      (fun x s' => Up region h₀ x s'.1 s'.2) (h, m) := by
  unfold Aws.finishSpinUp
  rw [wp_run_bind, OptionT.run_lift, wp_bind]
  refine wp_mono (fun _ _ h => h) ?_ (postSpinUp_wp job inst ha m)
  rintro x ⟨h₁, m₁⟩ ⟨hev, ha₁, hdone, hfailed⟩
  have hl₁ := hl.evolve hev
  cases x with
  | some _ =>
    refine ⟨fun id _ => ha₁.sound fun i hi hlive => ?_, nofun⟩
    rw [hl₁ i hi hlive]
    exact hdone rfl
  | none =>
    have hm₁ : m₁ = { launched := true } := (hfailed rfl).trans hm
    -- the error is answered after `spin_down_instance`, if that is not what fails
    refine (wp_run_bind _ _ _ _).2 (wp_mono (fun _ _ h => h) ?_ (spinDownInstance_wp job ha₁ m₁))
    rintro x ⟨h', m'⟩ hdown
    rw [hm₁] at hdown
    have hmarks := And.intro hdown.launched hdown.associated
    cases x with
    | none =>
      refine ⟨nofun, fun _ => .inr ⟨hmarks.1, hmarks.2, fun hterm => ?_⟩⟩
      rw [(hdown.failed rfl).1] at hterm
      cases hterm
    | some _ =>
      obtain ⟨-, hnone, hdead⟩ := hdown.done rfl
      have h0 := (hl₁.evolve hdown.instances).liveCount hdead
      exact ⟨nofun, fun _ => .inr ⟨hmarks.1, hmarks.2, fun _ => ⟨hdown.apart, h0, hnone⟩⟩⟩

theorem spinUpInstance_wp (job : JobId) (instanceType family : String) (reqMem reqVcpu : ℤ)
    (ha : h.Apart region) (h0 : h.instances.liveCount region = 0) :
    (Aws.spinUpInstance job instanceType family region reqMem reqVcpu).run.wp (markedEnv order)
      (fun _ _ => True) (fun x s' => Up region h x s'.1 s'.2) (h, {}) := by
  have hnothing : ∀ h', Drifts h h' → Up region h none h' {} :=
    fun h' hd => ⟨nofun, fun _ => .inl ⟨rfl, hd⟩⟩
  unfold Aws.spinUpInstance
  -- up to `run_instances` nothing but reads, so a failure leaves what there was
  refine reads_bind_wp (.ec2 rfl) hnothing fun resp h₁ hd₁ => ?_
  refine reads_bind_wp (.okOr _) (fun h' hd => hnothing h' (hd₁.trans hd)) ?_
  rintro ⟨architecture, vCpus, mem⟩ h₂ hd₂
  dsimp only
  have hd := hd₁.trans hd₂
  split
  · exact hnothing h₂ hd
  · unfold Aws.launchInstance
    rw [wp_run_bind]
    refine reads_bind_wp (Aws.reads_launchInputs _ _ _)
      (fun h' hd' => hnothing h' (hd.trans hd')) ?_
    rintro ⟨instanceAmi, subnet, secGroup⟩ h₃ hd₃
    have hd₃ := hd.trans hd₃
    dsimp only
    rw [wp_run_bind]
    refine ⟨trivial, fun x s' hx => ?_⟩
    obtain ⟨h', m'⟩ := s'
    obtain ⟨⟨h₄, hd₄, hx⟩, hm'⟩ := hx
    have hd₄ := hd₃.trans hd₄
    have h0₄ := liveCount_evolve hd₄.instances h0
    rcases hx with ⟨rfl, rfl⟩ | ⟨id, st, rfl, rfl⟩
    · have hm' : m' = {} := hm'
      rw [hm']
      exact hnothing _ hd₄
    · exact finishSpinUp_wp job id ((hd₄.apart ha).launch h0₄ st) (liveOnly_launch h0₄ st) hm'

end Programs

end Holdings

end Oyster.ControlPlane
