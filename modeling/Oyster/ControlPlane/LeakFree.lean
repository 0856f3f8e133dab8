import Oyster.ControlPlane.Cloud

namespace Oyster.ControlPlane

open Prog Instances

/-- `spin_up` is called only where the region it launches in has no live instance. -/
def NoLiveAtSpinUp : ProviderOp → Instances → Prop
  | .spinUp _ _ _ region _ _ _, w => w.liveCount region = 0
  | _, _ => True

/-- The instances after an attempt to change the infra in `region`: still at most one live in
each region, and none live outside `region` if there was none before. -/
structure Kept (region : String) (w w' : Instances) : Prop where
  atMostOne : AtMostOne w'
  onlyIn : OnlyIn w region → OnlyIn w' region

theorem Kept.of_evolve {region : String} {w w' : Instances} (hw : AtMostOne w)
    (h : Evolve w w') : Kept region w w' :=
  ⟨h.atMostOne hw, h.onlyIn⟩

theorem Kept.trans {region : String} {w w' w'' : Instances} (h : Kept region w w')
    (h' : Kept region w' w'') : Kept region w w'' :=
  ⟨h'.atMostOne, fun hw => h'.onlyIn (h.onlyIn hw)⟩

theorem Kept.append {region : String} {w : Instances} {i : Instance} (hw : AtMostOne w)
    (h0 : w.liveCount region = 0) (hi : i.region = region) : Kept region w (w ++ [i]) :=
  ⟨atMostOne_append hw (hi ▸ h0), fun honly => honly.append hi⟩

theorem SpunUp.kept {leftover : Prop} {region : String} {w w' : Instances} {x : Option String}
    (hw : AtMostOne w) (h0 : w.liveCount region = 0) (h : SpunUp leftover region w x w') :
    Kept region w w' := by
  obtain ⟨w₁, hev, hx⟩ := h
  have h01 : w₁.liveCount region = 0 := Nat.le_zero.1 (h0 ▸ hev.liveCount_le region)
  have hk : Kept region w w₁ := .of_evolve hw hev
  match x with
  | none =>
    rcases hx with rfl | ⟨-, i, hi, rfl⟩
    · exact hk
    · exact hk.trans (.append hk.atMostOne h01 hi)
  | some id =>
    obtain ⟨st, rfl⟩ := hx
    exact hk.trans (.append hk.atMostOne h01 rfl)

theorem liveCount_after_spinDown {region id : String} {w w' : Instances} {i : Instance}
    (hw : AtMostOne w) (hi : i ∈ w) (hr : i.region = region) (hid : i.id = id)
    (hl : i.state.live = true) (hev : Evolve w w')
    (hdead : ∀ j ∈ w', j.id = id → j.state.live = false) : w'.liveCount region = 0 := by
  refine liveCount_eq_zero.2 fun j hj hjl hjr => ?_
  obtain ⟨k, hk, hkid, hkr, hkl⟩ := hev.mem hj
  have hik : i = k := eq_of_liveCount_le_one (hw region) hi hk
    (by simp [liveIn, hl, hr]) (by simp [liveIn, hkl hjl, ← hkr, hjr])
  have := hdead j hj (by rw [hkid, ← hik, hid])
  simp [this] at hjl

section Spec

variable {leftover : Prop} {region : String} {w₀ w : Instances}

theorem launchNew_cloud (s : JobState) (hw : AtMostOne w) (h0 : w.liveCount s.region = 0) :
    s.launchNew.wp (cloudEnv leftover) NoLiveAtSpinUp (fun _ w' => Kept s.region w w') w := by
  unfold JobState.launchNew
  refine ⟨h0, fun x w₁ hx => ?_⟩
  have hk : Kept s.region w w₁ := SpunUp.kept hw h0 hx
  match x with
  | none => exact hk
  | some inst => exact ⟨trivial, fun _ w₂ h => hk.trans (.of_evolve hk.atMostOne h)⟩

theorem useExisting_cloud (s : JobState) (inst : String) (hw : AtMostOne w) :
    (s.useExisting inst).wp (cloudEnv leftover) NoLiveAtSpinUp
      (fun _ w' => Kept s.region w w') w := by
  unfold JobState.useExisting
  dsimp only
  split
  · refine ⟨trivial, fun x w₁ hx => ?_⟩
    have hk : Kept s.region w w₁ := .of_evolve hw hx
    match x with
    | none => exact hk
    | some () => exact hk
  · exact .of_evolve hw (.refl w)

theorem launchMode_cloud (s : JobState) (a : Bool × String × String) (hw : AtMostOne w)
    (ha : Reports w s.region a) :
    (s.launchMode a.1 a.2.1 a.2.2).wp (cloudEnv leftover) NoLiveAtSpinUp
      (fun _ w' => Kept s.region w w') w := by
  obtain ⟨exist, inst, state⟩ := a
  unfold JobState.launchMode
  split_ifs with hexist hup hstop
  · exact useExisting_cloud s inst hw
  · subst hexist
    obtain ⟨i, hi, hr, hid, hname, -⟩ := ha
    refine ⟨trivial, fun x w₁ ⟨hev, hdead⟩ => ?_⟩
    have hk : Kept s.region w w₁ := .of_evolve hw hev
    match x with
    | none => exact hk
    | some () =>
      have hl : i.state.live = true := InstanceState.live_of_name (hname ▸ hstop)
      have h0 := liveCount_after_spinDown hw hi hr hid hl hev (hdead rfl)
      exact wp_mono (fun _ _ h => h) (fun _ _ h => hk.trans h)
        (launchNew_cloud s hk.atMostOne h0)
  · -- the reported instance has ended, so no instance of the region is live
    subst hexist
    obtain ⟨i, -, -, -, hname, hdead⟩ := ha
    refine launchNew_cloud s hw (hdead ?_)
    cases hst : i.state <;> simp_all [InstanceState.name, InstanceState.live]
  · have : exist = false := by simpa using hexist
    subst this
    exact launchNew_cloud s hw ha

theorem terminateMode_cloud (s : JobState) (a : Bool × String × String) (hw : AtMostOne w)
    (ha : Reports w s.region a) :
    (s.terminateMode a.1 a.2.1 a.2.2).wp (cloudEnv leftover) NoLiveAtSpinUp
      (fun r w' => Kept s.region w w' ∧ (r.1 = true → w'.liveCount s.region = 0)) w := by
  obtain ⟨exist, inst, state⟩ := a
  unfold JobState.terminateMode
  split_ifs with hgone
  · refine ⟨.of_evolve hw (.refl w), fun _ => ?_⟩
    match exist, ha with
    | false, ha => exact ha
    | true, ⟨i, _, _, _, hname, hdead⟩ =>
      refine hdead (i.state.dead_iff_name.2 ?_)
      simpa [hname] using hgone
  · match exist, ha with
    | false, _ => simp at hgone
    | true, ⟨i, hi, hr, hid, hname, _⟩ =>
      refine ⟨trivial, fun x w₁ ⟨hev, hdead⟩ => ?_⟩
      have hk : Kept s.region w w₁ := .of_evolve hw hev
      match x with
      | none => exact ⟨hk, by simp⟩
      | some () =>
        refine ⟨hk, fun _ => liveCount_after_spinDown hw hi hr hid ?_ hev (hdead rfl)⟩
        by_contra h
        exact hgone (.inr (hname ▸ i.state.dead_iff_name.1 (by simpa using h)))

/-- A change of infra keeps at most one live instance in each region, launches only where none
is live, and reports a termination only when none is left in the region of the job. -/
theorem changeInfra_cloud (s : JobState) (now : Instant) (hw : AtMostOne w) :
    (s.changeInfra now).wp (cloudEnv leftover) NoLiveAtSpinUp
      (fun r w' => Kept s.region w w' ∧ ∀ b s', r = some (b, s') → b = true →
        s.infraState = false → w'.liveCount s.region = 0) w := by
  have himpl : s.changeInfraImpl.wp (cloudEnv leftover) NoLiveAtSpinUp
      (fun r w' => Kept s.region w w' ∧
        (r.1 = true → s.infraState = false → w'.liveCount s.region = 0)) w := by
    unfold JobState.changeInfraImpl
    rw [provider_bind]
    refine ⟨trivial, fun x w₁ ⟨hev, hrep⟩ => ?_⟩
    have hk : Kept s.region w w₁ := .of_evolve hw hev
    match x with
    | none => exact ⟨hk, by simp⟩
    | some a =>
      by_cases h : s.infraState = true
      · simp only [h, if_true]
        exact wp_mono (fun _ _ h => h) (fun _ _ h => ⟨hk.trans h, by simp⟩)
          (launchMode_cloud s a hk.atMostOne (hrep a rfl))
      · simp only [h]
        exact wp_mono (fun _ _ h => h) (fun _ _ h => ⟨hk.trans h.1, fun hb _ => h.2 hb⟩)
          (terminateMode_cloud s a hk.atMostOne (hrep a rfl))
  unfold JobState.changeInfra
  rw [wp_bind]
  refine wp_mono (fun _ _ h => h) (fun r w' ⟨hk, hr⟩ => ⟨hk, fun b s' h hb hs => ?_⟩) himpl
  exact hr ((JobState.afterChange_eq h).1 ▸ hb) hs

theorem heartbeatCheck_cloud (s : JobState) (now : Instant) :
    (s.heartbeatCheck now).wp (cloudEnv leftover) NoLiveAtSpinUp (fun _ w' => Evolve w w') w := by
  unfold JobState.heartbeatCheck
  refine ⟨trivial, fun x w₁ h₁ => ?_⟩
  match x with
  | none => exact h₁
  | some true =>
    refine ⟨trivial, fun x w₂ h₂ => ?_⟩
    match x with
    | none => exact h₁.trans h₂
    | some true => exact h₁.trans h₂
    | some false => exact ⟨trivial, fun _ w₃ h₃ => (h₁.trans h₂).trans h₃⟩
  | some false =>
    dsimp only
    split <;> exact h₁

end Spec

/-- The manager may know of the instance: `instance_id` names it, or it was there at the start. -/
def MayHave (w₀ : Instances) (s : JobState) (i : Instance) : Prop :=
  i.id = s.instanceId ∨ i.id ∈ w₀.map Instance.id

/-- The manager may know of every live instance. -/
def Accounted (w₀ : Instances) (s : JobState) (w : Instances) : Prop :=
  ∀ i ∈ w, i.state.live = true → MayHave w₀ s i

/-- Every live instance that was not there at the start is in the region of the state. -/
def Placed (w₀ : Instances) (s : JobState) (w : Instances) : Prop :=
  ∀ i ∈ w, i.state.live = true → i.region = s.region ∨ i.id ∈ w₀.map Instance.id

theorem Accounted.evolve {w₀ w w' : Instances} {s : JobState} (h : Accounted w₀ s w)
    (hev : Evolve w w') : Accounted w₀ s w' :=
  hev.live (P := fun id _ => id = s.instanceId ∨ id ∈ w₀.map Instance.id) h

theorem Placed.evolve {w₀ w w' : Instances} {s : JobState} (h : Placed w₀ s w)
    (hev : Evolve w w') : Placed w₀ s w' :=
  hev.live (P := fun id r => r = s.region ∨ id ∈ w₀.map Instance.id) h

theorem Accounted.append {w₀ w : Instances} {s : JobState} {i : Instance}
    (h : Accounted w₀ s w) (hi : i.id = s.instanceId) : Accounted w₀ s (w ++ [i]) := by
  intro j hj hl
  rcases List.mem_append.1 hj with hj | hj
  · exact h j hj hl
  · rw [List.mem_singleton.1 hj]
    exact .inl hi

theorem Placed.accounted {w₀ w : Instances} {s s' : JobState} (h : Placed w₀ s w)
    (h0 : w.liveCount s.region = 0) : Accounted w₀ s' w := fun i hi hl =>
  .inr ((h i hi hl).resolve_left (liveCount_eq_zero.1 h0 i hi hl))

section Known

variable {w₀ w : Instances}

theorem launchNew_accounted (s : JobState) (hp : Placed w₀ s w)
    (h0 : w.liveCount s.region = 0) :
    s.launchNew.wp (cloudEnv False) (fun _ _ => True) (fun r w' => Accounted w₀ r.2 w') w := by
  unfold JobState.launchNew
  refine ⟨trivial, fun x w₁ ⟨w₂, hev, hx⟩ => ?_⟩
  have h02 : w₂.liveCount s.region = 0 := Nat.le_zero.1 (h0 ▸ hev.liveCount_le s.region)
  match x with
  | none =>
    rcases hx with rfl | ⟨h, -⟩
    · exact (hp.evolve hev).accounted h02
    · exact h.elim
  | some inst =>
    obtain ⟨st, rfl⟩ := hx
    have hacc : Accounted w₀ { s with instanceId := inst } w₂ := (hp.evolve hev).accounted h02
    exact ⟨trivial, fun _ w₃ h₃ =>
      (hacc.append (i := ⟨inst, s.region, st⟩) rfl).evolve h₃⟩

theorem useExisting_accounted (s : JobState) {i : Instance} (hw : AtMostOne w)
    (hp : Placed w₀ s w) (hi : i ∈ w) (hr : i.region = s.region)
    (hl : i.state.live = true) :
    (s.useExisting i.id).wp (cloudEnv False) (fun _ _ => True)
      (fun r w' => Accounted w₀ r.2 w') w := by
  have hacc : Accounted w₀ { s with instanceId := i.id } w := by
    intro j hj hjl
    rcases hp j hj hjl with hjr | hj₀
    · have hij : i = j := eq_of_liveCount_le_one (hw s.region) hi hj
        (by simp [liveIn, hl, hr]) (by simp [liveIn, hjl, hjr])
      exact .inl (congrArg Instance.id hij).symm
    · exact .inr hj₀
  unfold JobState.useExisting
  dsimp only
  split
  · refine ⟨trivial, fun x w₁ h₁ => ?_⟩
    cases x with
    | none => exact hacc.evolve h₁
    | some _ => exact hacc.evolve h₁
  · exact hacc

theorem launchMode_accounted (s : JobState) (a : Bool × String × String) (hw : AtMostOne w)
    (hp : Placed w₀ s w) (hacc : Accounted w₀ s w) (ha : Reports w s.region a) :
    (s.launchMode a.1 a.2.1 a.2.2).wp (cloudEnv False) (fun _ _ => True)
      (fun r w' => Accounted w₀ r.2 w') w := by
  obtain ⟨exist, inst, state⟩ := a
  unfold JobState.launchMode
  split_ifs with hexist hup hstop
  · subst hexist
    obtain ⟨i, hi, hr, rfl, hname, -⟩ := ha
    exact useExisting_accounted s hw hp hi hr (InstanceState.live_of_upName (hname ▸ hup))
  · subst hexist
    obtain ⟨i, hi, hr, hid, hname, -⟩ := ha
    refine ⟨trivial, fun x w₁ ⟨hev, hdead⟩ => ?_⟩
    match x with
    | none => exact hacc.evolve hev
    | some () =>
      have hl : i.state.live = true := InstanceState.live_of_name (hname ▸ hstop)
      exact launchNew_accounted s (hp.evolve hev)
        (liveCount_after_spinDown hw hi hr hid hl hev (hdead rfl))
  · subst hexist
    obtain ⟨i, -, -, -, hname, hdead⟩ := ha
    refine launchNew_accounted s hp (hdead ?_)
    cases hst : i.state <;> simp_all [InstanceState.name, InstanceState.live]
  · have : exist = false := by simpa using hexist
    subst this
    exact launchNew_accounted s hp ha

theorem terminateMode_accounted (s : JobState) (exist : Bool) (inst state : String)
    (hacc : Accounted w₀ s w) :
    (s.terminateMode exist inst state).wp (cloudEnv False) (fun _ _ => True)
      (fun r w' => Accounted w₀ r.2 w') w := by
  unfold JobState.terminateMode
  split_ifs
  · exact hacc
  · refine ⟨trivial, fun x w₁ ⟨hev, _⟩ => ?_⟩
    match x with
    | none => exact hacc.evolve hev
    | some () => exact hacc.evolve hev

/-- No change of infra loses track of an instance, as long as the one that `instance_id` names is
looked for where it is. -/
theorem changeInfra_accounted (s : JobState) (now : Instant) (hw : AtMostOne w)
    (hacc : Accounted w₀ s w)
    (hregion : s.infraState = true → ∀ i ∈ w, i.state.live = true → i.id = s.instanceId →
      i.region = s.region) :
    (s.changeInfra now).wp (cloudEnv False) (fun _ _ => True)
      (fun r w' => ∀ b s', r = some (b, s') → Accounted w₀ s' w') w := by
  have himpl : s.changeInfraImpl.wp (cloudEnv False) (fun _ _ => True)
      (fun r w' => Accounted w₀ r.2 w') w := by
    unfold JobState.changeInfraImpl
    rw [provider_bind]
    refine ⟨trivial, fun x w₁ ⟨hev, hrep⟩ => ?_⟩
    match x with
    | none => exact hacc.evolve hev
    | some a =>
      by_cases h : s.infraState = true
      · have hp : Placed w₀ s w := fun i hi hl =>
          (hacc i hi hl).imp_left (hregion h i hi hl)
        simp only [h, if_true]
        exact launchMode_accounted s a (hev.atMostOne hw) (hp.evolve hev) (hacc.evolve hev)
          (hrep a rfl)
      · simp only [h]
        exact terminateMode_accounted s a.1 a.2.1 a.2.2 (hacc.evolve hev)
  unfold JobState.changeInfra
  rw [wp_bind]
  refine wp_mono (fun _ _ h => h) (fun r w' hr b s' h => ?_) himpl
  have hid : s'.instanceId = r.2.instanceId := JobState.afterChange_instanceId h
  intro i hi hl
  rw [MayHave, hid]
  exact hr i hi hl

end Known

def launchCalls (s : JobState) (w : Instances) (id : String) : List (ProviderEvent Instances) :=
  [⟨w, .getJobInstance s.jobId s.region, some (false, "", "")⟩,
    ⟨w, s.spinUpOp, some id⟩,
    ⟨w ++ [⟨id, s.region, .running⟩], { s with instanceId := id }.runEnclaveOp, some ()⟩]

theorem exec_launch {leftover : Prop} {s : JobState} {w : Instances} (now : Instant)
    (id : String) (hs : s.infraState = true) (h0 : w.liveCount s.region = 0) :
    Exec (cloudEnv leftover) (s.changeInfra now) w (launchCalls s w id)
      (some (true, { s with instanceId := id, infraChangeScheduled := false }))
      (w ++ [⟨id, s.region, .running⟩]) := by
  have hget : cloudEnv leftover (.getJobInstance s.jobId s.region) w (some (false, "", "")) w :=
    ⟨.refl w, fun a ha => Option.some.inj ha ▸ h0⟩
  have hup : cloudEnv leftover s.spinUpOp w (some id) (w ++ [⟨id, s.region, .running⟩]) :=
    ⟨w, .refl w, .running, rfl⟩
  have himpl : Exec (cloudEnv leftover) s.changeInfraImpl w (launchCalls s w id)
      (true, { s with instanceId := id }) (w ++ [⟨id, s.region, .running⟩]) := by
    unfold JobState.changeInfraImpl
    rw [provider_bind]
    refine .call hget ?_
    dsimp only
    rw [if_pos hs]
    exact .call hup (.call (.refl _) (.ret _ _))
  exact List.append_nil (launchCalls s w id) ▸ himpl.bind (.ret _ _)

theorem step_launch {leftover : Prop} {market : Market} {m : Manager Instances} (now : Instant)
    (id : String) (hrun : m.status = .running) (hsched : m.state.infraChangeScheduled = true)
    (hs : m.state.infraState = true) (h0 : m.world.liveCount m.state.region = 0) :
    Step market (cloudEnv leftover) m ⟨.infraChange, now, launchCalls m.state m.world id⟩
      { m with
        state := { m.state with instanceId := id, infraChangeScheduled := false }
        world := m.world ++ [⟨id, m.state.region, .running⟩] } := by
  have h : Step market (cloudEnv leftover) m _ _ :=
    .infraChange hrun hsched (exec_launch now id hs h0)
  simpa [Manager.afterInfraChange, hs, hrun] using h

/-- The instances after a successful `spin_down` of `id`. -/
def Instances.spunDown (w : Instances) (id : String) : Instances :=
  w.map fun i => if i.id = id then { i with state := .shuttingDown } else i

theorem evolve_spunDown (w : Instances) (id : String) : Evolve w (spunDown w id) := by
  refine List.forall₂_map_right_iff.2 (List.forall₂_same.2 fun i _ => ?_)
  split <;> simp [InstanceState.live]

theorem spunDown_dead {w : Instances} {id : String} {i : Instance} (hi : i ∈ spunDown w id)
    (hid : i.id = id) : i.state.live = false := by
  obtain ⟨j, -, rfl⟩ := List.mem_map.1 hi
  by_cases hj : j.id = id
  · simp [hj, InstanceState.live]
  · simp [hj] at hid

def terminateCalls (s : JobState) (w : Instances) (id : String) : List (ProviderEvent Instances) :=
  [⟨w, .getJobInstance s.jobId s.region, some (true, id, "running")⟩,
    ⟨w, .spinDown id s.jobId s.region, some ()⟩]

theorem step_terminate {leftover : Prop} {market : Market} {m : Manager Instances}
    (now : Instant) (id : String) (hrun : m.status = .running)
    (hsched : m.state.infraChangeScheduled = true) (hs : m.state.infraState = false)
    (hi : ⟨id, m.state.region, .running⟩ ∈ m.world) :
    Step market (cloudEnv leftover) m ⟨.infraChange, now, terminateCalls m.state m.world id⟩
      { m with
        state := { m.state with infraChangeScheduled := false }
        world := spunDown m.world id
        status := .returned 0 } := by
  have hget : cloudEnv leftover (.getJobInstance m.state.jobId m.state.region) m.world
      (some (true, id, "running")) m.world :=
    ⟨.refl _, fun a ha => Option.some.inj ha ▸
      ⟨_, hi, rfl, rfl, rfl, by simp [InstanceState.live]⟩⟩
  have hdown : cloudEnv leftover (.spinDown id m.state.jobId m.state.region) m.world (some ())
      (spunDown m.world id) :=
    ⟨evolve_spunDown _ id, fun _ _ hj hjid => spunDown_dead hj hjid⟩
  have himpl : Exec (cloudEnv leftover) m.state.changeInfraImpl m.world
      (terminateCalls m.state m.world id) (true, m.state) (spunDown m.world id) := by
    unfold JobState.changeInfraImpl
    rw [provider_bind]
    refine .call hget ?_
    dsimp only
    rw [if_neg (by simp [hs])]
    exact .call hdown (.ret _ _)
  have hx : Exec (cloudEnv leftover) (m.state.changeInfra now) m.world
      (terminateCalls m.state m.world id)
      (some (true, { m.state with infraChangeScheduled := false })) (spunDown m.world id) :=
    List.append_nil (terminateCalls m.state m.world id) ▸ himpl.bind (.ret _ _)
  have h : Step market (cloudEnv leftover) m _ _ := .infraChange hrun hsched hx
  simpa [Manager.afterInfraChange, hs, hrun] using h

/-- The logs that no retry can get past: unreadable ones, ones that the state contradicts, and
unknown events. -/
def JobState.LogRejected (market : Market) (s : JobState) (log : Log) : Prop :=
  match log.event with
  | some .jobOpened => ∀ s', s.openedState market log = some s' →
      whitelistBlacklistCheck log market.addressWhitelist market.addressBlacklist = some true ∧
      findRateCard market.rates s'.region s'.instanceType = none
  | some .jobSettled => market.codec.settledData log.data = none
  | some .jobDeposited | some .jobWithdrew | some .jobReviseRateInitiated =>
    market.codec.u256Data log.data = none
  | some .jobReviseRateFinalized => market.codec.u256Data log.data ≠ some s.rate
  | some .metadataUpdated => s.updateUrl market log = none
  | some .jobClosed | some .jobReviseRateCancelled => False
  | none => True

theorem JobState.logRejected_of_failed {market : Market} {s s' : JobState} {log : Log}
    {now : Instant} (h : s.processLog market (some log) now = some (s', -2)) :
    s.LogRejected market log := by
  have h := JobState.processLog_event h
  unfold JobState.LogRejected
  match log.event, h with
  | some .jobOpened, h =>
    intro s₁ hopened
    have h : s₁.checkOpened market log now = some (s', -2) :=
      (JobState.processOpened_read hopened).symm.trans h
    obtain ⟨-, h, -⟩ | ⟨hok, ⟨hcard, -, -⟩ | ⟨card, -, hlaunch⟩⟩ := JobState.checkOpened_cases h
    · cases h
    · -- the list let it pass, and there is no rate card
      exact ⟨hok, hcard⟩
    · cases (JobState.launchIfPaid_cases hlaunch).1
  | some .jobSettled, h =>
    cases hdata : market.codec.settledData log.data with
    | none => rfl
    | some _ => simp [JobState.processEvent, JobState.processSettled, hdata] at h
  | some .jobClosed, h => cases (JobState.processClosed_cases h).1
  | some .jobDeposited, h =>
    cases hdata : market.codec.u256Data log.data with
    | none => rfl
    | some _ => simp [JobState.processEvent, JobState.processDeposited, hdata] at h
  | some .jobWithdrew, h =>
    cases hdata : market.codec.u256Data log.data with
    | none => rfl
    | some _ => simp [JobState.processEvent, JobState.processWithdrew, hdata] at h
  | some .jobReviseRateInitiated, h =>
    obtain ⟨-, hdata, -⟩ | ⟨h, -⟩ := JobState.processReviseRateInitiated_cases h
    · exact hdata
    · cases h
  | some .jobReviseRateCancelled, h => cases h
  | some .jobReviseRateFinalized, h =>
    intro hdata
    simp [JobState.processEvent, JobState.processReviseRateFinalized, hdata] at h
  | some .metadataUpdated, h =>
    obtain ⟨-, hurl, -⟩ | ⟨h, -⟩ := JobState.processMetadataUpdated_cases h
    · exact hurl
    · cases h
  | none, _ => trivial

/-- The steps that leave nothing behind: a log that ends the manager finds no live instance among
those that the manager may know of, and a change of infra finds the live ones in the region that
the state records: a launch the one that `instance_id` names, a termination each of them. -/
def LeavesNothing (market : Market) (w₀ : Instances) (m : Manager Instances)
    (e : Label Instances) : Prop :=
  match e.branch with
  | .log (some log) => m.state.LogRejected market log →
      ∀ i ∈ m.world, MayHave w₀ m.state i → i.state.live = false
  | .infraChange => ∀ i ∈ m.world, i.state.live = true →
      (if m.state.infraState then i.id = m.state.instanceId else MayHave w₀ m.state i) →
      i.region = m.state.region
  | _ => True

/-- A running manager may know of every live instance; one that has returned for good has left
none. -/
structure LeakFree (w₀ : Instances) (m : Manager Instances) : Prop where
  atMostOne : m.world.AtMostOne
  accounted : m.status = .running → Accounted w₀ m.state m.world
  noneLive : m.status = .returned 0 ∨ m.status = .returned (-2) → m.world.NoneLive

section Steps

variable {leftover : Prop} {market : Market} {m m' : Manager Instances} {e : Label Instances}
  {now : Instant}

theorem step_atMostOne (hm : m.world.AtMostOne) (h : Step market (cloudEnv leftover) m e m') :
    m'.world.AtMostOne := by
  cases h with
  | log log now _ => rwa [Manager.afterLog_world]
  | @heartbeat now t r w _ _ hx =>
    rw [Manager.afterState_world]
    exact (hx.sound (heartbeatCheck_cloud m.state now)).2.atMostOne hm
  | insolvency now => rwa [Manager.afterState_world]
  | @infraChange now t r w _ _ hx =>
    rw [Manager.afterInfraChange_world]
    exact (hx.sound (changeInfra_cloud m.state now hm)).2.1.atMostOne

/-- A termination that is reported done has left no live instance. -/
theorem noneLive_of_terminated {t : List (ProviderEvent Instances)}
    {r : Option (Bool × JobState)} {w : Instances} {c : ℤ} (hm : m.world.AtMostOne)
    (honly : m.state.infraState = false → m.world.OnlyIn m.state.region)
    (hx : Exec (cloudEnv leftover) (m.state.changeInfra now) m.world t r w)
    (hret : (m.afterInfraChange w r).status = .returned c) : w.NoneLive := by
  obtain ⟨hk, hend⟩ := (hx.sound (changeInfra_cloud m.state now hm)).2
  obtain ⟨-, s, rfl, hs⟩ := Manager.afterInfraChange_returned hret
  -- a change of infra does not touch what is wanted
  have hframe := (hx.sound (m.state.changeInfra_wp _ now m.world)).2 true s rfl
  have hoff : m.state.infraState = false := hframe.infraState ▸ hs
  exact noneLive_of_onlyIn (hk.onlyIn (honly hoff)) (hend true s rfl rfl hoff)

theorem LeakFree.accounted_step {w₀ : Instances} (hm : LeakFree w₀ m)
    (hc : LeavesNothing market w₀ m e) (h : Step market (cloudEnv False) m e m')
    (hrun' : m'.status = .running) : Accounted w₀ m'.state m'.world := by
  cases h with
  | log log now hrun =>
    obtain ⟨s, res, hlog, -, -, hs⟩ := Manager.afterLog_running hrun'
    rw [hs]
    intro i hi hl
    rw [MayHave, (JobState.processLog_keeps hlog).2]
    exact hm.accounted hrun i hi hl
  | @heartbeat now t r w hrun _ hx =>
    obtain ⟨s, rfl⟩ := Manager.afterState_running hrun'
    have hev : Evolve m.world w := (hx.sound (heartbeatCheck_cloud m.state now)).2
    have hid : s.instanceId = m.state.instanceId := by
      obtain ⟨-, h | ⟨-, -, h⟩⟩ := JobState.heartbeatCheck_exec hx
      · rw [Option.some.inj h]
      · obtain ⟨t, rfl⟩ := JobState.scheduleLaunch_eq h.symm
        rfl
    intro i hi hl
    show i.id = s.instanceId ∨ i.id ∈ _
    rw [hid]
    exact (hm.accounted hrun).evolve hev i hi hl
  | insolvency now hrun =>
    obtain ⟨s, hs⟩ := Manager.afterState_running hrun'
    obtain ⟨t, rfl⟩ := JobState.scheduleTermination_eq hs
    rw [hs]
    exact hm.accounted hrun
  | @infraChange now t r w hrun _ hx =>
    obtain ⟨b, s, rfl⟩ := Manager.afterInfraChange_running hrun'
    refine (hx.sound (changeInfra_accounted m.state now hm.atMostOne (hm.accounted hrun)
      fun hon i hi hl hid => ?_)).2 b s rfl
    exact hc i hi hl (by rwa [if_pos hon])

theorem LeakFree.step {w₀ : Instances} (hm : LeakFree w₀ m) (hc : LeavesNothing market w₀ m e)
    (h : Step market (cloudEnv False) m e m') : LeakFree w₀ m' := by
  refine ⟨step_atMostOne hm.atMostOne h, hm.accounted_step hc h, fun hret => ?_⟩
  cases h with
  | log log now hrun =>
    rw [Manager.afterLog_world]
    rcases hret with hret | hret
    · obtain ⟨s, hs⟩ := Manager.afterLog_returned hret
      exact absurd hret (by simp [hs, Manager.afterLog])
    · obtain ⟨s, hs⟩ := Manager.afterLog_returned hret
      cases log with
      | none => cases hs
      -- only a log that was rejected ends the manager, with -2
      | some log =>
        intro i hi
        by_contra hl
        have hl : i.state.live = true := by simpa using hl
        have hdead := hc (JobState.logRejected_of_failed hs) i hi (hm.accounted hrun i hi hl)
        simp [hl] at hdead
  | heartbeat hrun =>
    rcases hret with hret | hret <;> simpa [hrun] using Manager.afterState_returned hret
  | insolvency now hrun =>
    rcases hret with hret | hret <;> simpa [hrun] using Manager.afterState_returned hret
  | infraChange hrun _ hx =>
    rw [Manager.afterInfraChange_world]
    have honly : m.state.infraState = false → m.world.OnlyIn m.state.region := fun hoff i hi hl =>
      hc i hi hl (by rw [if_neg (by simp [hoff])]; exact hm.accounted hrun i hi hl)
    rcases hret with hret | hret <;> exact noneLive_of_terminated hm.atMostOne honly hx hret

end Steps

/-- Where `get_job_instance` reports a live instance whenever the region has one, a run whose
steps all leave nothing behind and which returns for good leaves no live instance of the job. -/
theorem no_leak {answers : Instances → String → Bool × String × String → Prop}
    (hanswers : ∀ w region a, answers w region a → Reports w region a) {market : Market}
    {nowTs : Duration} {now : Instant} {jobId : JobId} {delay : ℕ} {regions : List String}
    {w : Instances} {es : List (Label Instances)} {m : Manager Instances} (hw : w.AtMostOne)
    (h : Along (Step market (answeringEnv answers)) (LeavesNothing market w)
      (.start nowTs now jobId delay regions w) es m)
    (hret : m.status = .returned 0 ∨ m.status = .returned (-2)) : m.world.NoneLive := by
  have hstart : LeakFree w (Manager.start nowTs now jobId delay regions w) :=
    ⟨hw, fun _ i hi _ => .inr (List.mem_map_of_mem hi), by simp [Manager.start]⟩
  have hm : LeakFree w m := h.invariant (fun _ _ _ (hm : LeakFree w _) hc hs =>
    hm.step hc (hs.mono fun _ _ _ _ hx => answeringEnv_refines hanswers hx)) hstart
  exact hm.noneLive hret

namespace Sample

def launched : JobState := { opened with instanceId := "i-0", infraChangeScheduled := false }

def launchedManager : Manager Instances :=
  ⟨launched, [⟨"i-0", "ap-south-1", .running⟩], .running, [openLog]⟩

def launchLabel : Label Instances :=
  ⟨.infraChange, 300 * 10 ^ 9, launchCalls opened [] "i-0"⟩

theorem along_launched {cond : Manager Instances → Label Instances → Prop}
    (hopen : cond (start []) openLabel)
    (hlaunch : cond ⟨opened, [], .running, [openLog]⟩ launchLabel) :
    Along (Step (market []) (cloudEnv False)) cond (start []) [openLabel, launchLabel]
      launchedManager :=
  .cons hopen step_open (.cons hlaunch (step_launch _ "i-0" rfl rfl rfl rfl) (.nil _))

def terminating (now : Instant) : JobState := { launched with
  infraState := false
  infraChangeScheduled := true
  infraChangeTime := now }

theorem processLog_launchedClose : launched.processLog (market []) (some closeLog) (400 * 10 ^ 9) =
    some (terminating (400 * 10 ^ 9), 0) := by
  rw [processLog_close]
  rfl

def closedManager : Manager Instances :=
  ⟨terminating (400 * 10 ^ 9), launchedManager.world, .running, [openLog, closeLog]⟩

def closeLabel : Label Instances := ⟨.log (some closeLog), 400 * 10 ^ 9, []⟩
def terminateLabel : Label Instances :=
  ⟨.infraChange, 400 * 10 ^ 9, terminateCalls closedManager.state closedManager.world "i-0"⟩

theorem step_close :
    Step (market []) (cloudEnv False) launchedManager closeLabel closedManager := by
  have h : Step (market []) (cloudEnv False) launchedManager closeLabel
      (launchedManager.afterLog (some closeLog) (some (terminating (400 * 10 ^ 9), 0))) :=
    step_log rfl processLog_launchedClose
  exact h

theorem abiWord_length (n : ℕ) : (abiWord n).length = 32 := by simp [abiWord]

theorem abiString_length (n : ℕ) (s : String) :
    (abiWord n ++ abiString s)[63]? = some (UInt8.ofNat s.length) := by
  have hlast : (abiWord s.length)[31]? = some (UInt8.ofNat s.length) := by simp [abiWord]
  rw [List.getElem?_append_right (by rw [abiWord_length]; omega), abiWord_length, abiString,
    List.append_assoc, List.getElem?_append_left (by rw [abiWord_length]; omega)]
  exact hlast

theorem metadata_length (url instance_ : String) : (metadata url instance_).length =
    url.length + instance_.length + (metadata "" "").length := by
  unfold metadata
  generalize "\x7b\"region\":\"ap-south-1\",\"url\":\"" = first
  generalize "\",\"instance\":\"" = second
  generalize "\",\"memory\":4096,\"vcpu\":2\x7d" = third
  simp only [String.length_append, String.length_empty]
  omega

theorem updateData_ne {i j : String} (h : i.length % 256 ≠ j.length % 256) :
    updateData i ≠ updateData j := by
  intro heq
  have hbyte : (updateData i)[63]? = (updateData j)[63]? := by rw [heq]
  have hlast : UInt8.ofNat (metadata updatedUrl i).length =
      UInt8.ofNat (metadata updatedUrl j).length := by
    simpa only [updateData, abiString_length, Option.some.injEq] using hbyte
  have hmod := congrArg UInt8.toNat hlast
  rw [UInt8.toNat_ofNat', UInt8.toNat_ofNat', metadata_length, metadata_length _ j] at hmod
  omega

theorem codec_badUpdateData : codec.stringData (updateData "c6a.large") =
    some (metadata updatedUrl "c6a.large") := by
  have hne : updateData "c6a.large" ≠ updateData "c6a.xlarge" := updateData_ne (by decide)
  dsimp only [codec]
  rw [if_neg hne, if_pos rfl]

theorem codec_parseBadUpdate : codec.parseJson (metadata updatedUrl "c6a.large") =
    some (json updatedUrl "c6a.large") := by
  have hopened : metadata updatedUrl "c6a.large" ≠ metadata url "c6a.xlarge" := by decide
  have hupdate : metadata updatedUrl "c6a.large" ≠ metadata updatedUrl "c6a.xlarge" := by
    decide
  dsimp only [codec]
  rw [if_neg hopened, if_neg hupdate, if_pos rfl]

theorem processLog_badUpdate : launched.processLog (market []) (some badUpdateLog)
    (400 * 10 ^ 9) = some (terminating (400 * 10 ^ 9), -2) := by
  have hcheck : launched.checkUpdate (json updatedUrl "c6a.large") = none := by rfl
  have hdata : (market []).codec.stringData badUpdateLog.data =
      some (metadata updatedUrl "c6a.large") := codec_badUpdateData
  have hv : (market []).codec.parseJson (metadata updatedUrl "c6a.large") =
      some (json updatedUrl "c6a.large") := codec_parseBadUpdate
  rw [JobState.processLog_of_event badUpdateLog_event, JobState.processEvent,
    JobState.processMetadataUpdated_read hdata hv, hcheck]
  rfl

end Sample

/-- The sample job, launched and closed, ends with its instance shut down. -/
theorem no_leak_closed : (spunDown Sample.launchedManager.world "i-0").NoneLive := by
  have hopen : LeavesNothing (Sample.market []) [] (Sample.start []) Sample.openLabel := by
    intro _ i hi
    cases hi
  have hlaunch : LeavesNothing (Sample.market []) []
      ⟨Sample.opened, [], .running, [Sample.openLog]⟩ Sample.launchLabel := by
    intro i hi
    cases hi
  have hclose : LeavesNothing (Sample.market []) [] Sample.launchedManager
      Sample.closeLabel := by
    exact fun h => h.elim
  have hend : LeavesNothing (Sample.market []) [] Sample.closedManager
      Sample.terminateLabel := by
    intro i hi _ _
    rw [List.mem_singleton.1 hi]
    rfl
  have hrun : Along (Step (Sample.market []) (cloudEnv False)) _ _ _ _ :=
    (Sample.along_launched hopen hlaunch).append (.cons hclose Sample.step_close (.cons hend
      (step_terminate (400 * 10 ^ 9) "i-0" rfl rfl rfl (by decide)) (.nil _)))
  exact no_leak (fun _ _ _ h => h) (fun r => by simp [liveCount])
    (hrun.mono fun _ _ _ hs => hs.mono fun _ _ _ _ => answeringEnv_reports) (.inl rfl)

/-- The metadata update of `test_other_metadata_update_after_spin_up`, once the instance runs:
the manager schedules a termination, returns -2 and leaves the instance running. -/
theorem bad_update_leaks : ∃ es m,
    Run (Step (Sample.market []) (cloudEnv False)) (Sample.start []) es m ∧
      m.status = .returned (-2) ∧ ¬m.world.NoneLive := by
  have hrun : Along _ (fun _ _ => True) _ _ _ := Sample.along_launched trivial trivial
  have hlog : Step (Sample.market []) (cloudEnv False) Sample.launchedManager
      ⟨.log (some Sample.badUpdateLog), 400 * 10 ^ 9, []⟩ _ :=
    step_log rfl Sample.processLog_badUpdate
  exact ⟨_, _, hrun.run.append (.cons hlog (.nil _)), rfl, by decide⟩

end Oyster.ControlPlane
