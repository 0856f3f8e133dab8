import Mathlib.Data.List.Forall2
import Oyster.ControlPlane.JobManager

/-!
The world of a job is the list of its instances, in every region. An instance that has ended
stays in the list. `Evolve` is what the provider may do on its own: change the state of an
instance, but never bring one back.
-/

namespace Oyster.ControlPlane

inductive InstanceState where
  | pending
  | running
  | shuttingDown
  | terminated
  | stopping
  | stopped
deriving DecidableEq

namespace InstanceState

def name : InstanceState → String
  | pending => "pending"
  | running => "running"
  | shuttingDown => "shutting-down"
  | terminated => "terminated"
  | stopping => "stopping"
  | stopped => "stopped"

def live : InstanceState → Bool
  | shuttingDown | terminated => false
  | _ => true

def up : InstanceState → Bool
  | pending | running => true
  | _ => false

theorem live_of_up {st : InstanceState} (h : st.up = true) : st.live = true := by
  cases st <;> simp_all [up, live]

theorem live_of_name {st : InstanceState} (h : st.name = "stopping" ∨ st.name = "stopped") :
    st.live = true := by
  cases st <;> simp_all [live, name]

theorem live_of_upName {st : InstanceState} (h : st.name = "pending" ∨ st.name = "running") :
    st.live = true := by
  cases st <;> simp_all [live, name]

theorem dead_iff_name (st : InstanceState) :
    st.live = false ↔ st.name = "shutting-down" ∨ st.name = "terminated" := by
  cases st <;> simp [live, name]

end InstanceState

structure Instance where
  id : String
  region : String
  state : InstanceState
deriving DecidableEq

abbrev Instances := List Instance

def liveIn (r : String) (i : Instance) : Bool := i.state.live && i.region == r

namespace Instances

def liveCount (w : Instances) (r : String) : ℕ := w.countP (liveIn r)

/-- No instance of the job is live in any region. -/
def NoneLive (w : Instances) : Prop := ∀ i ∈ w, i.state.live = false

instance (w : Instances) : Decidable (NoneLive w) :=
  inferInstanceAs (Decidable (∀ i ∈ w, i.state.live = false))

def OnlyIn (w : Instances) (r : String) : Prop := ∀ i ∈ w, i.state.live = true → i.region = r

def AtMostOne (w : Instances) : Prop := ∀ r, w.liveCount r ≤ 1

/-- What may happen to the instances without a call: states change, ended ones stay ended. -/
def Evolve (w w' : Instances) : Prop :=
  List.Forall₂ (fun i j => j.id = i.id ∧ j.region = i.region ∧
    (j.state.live = true → i.state.live = true)) w w'

theorem Evolve.refl (w : Instances) : Evolve w w :=
  List.forall₂_same.2 fun _ _ => ⟨rfl, rfl, id⟩

theorem Evolve.trans {w w' w'' : Instances} (h : Evolve w w') (h' : Evolve w' w'') :
    Evolve w w'' := by
  induction h generalizing w'' with
  | nil => exact h'
  | cons hij _ ih =>
    cases h' with
    | cons hjk h' =>
      exact .cons ⟨hjk.1.trans hij.1, hjk.2.1.trans hij.2.1, fun h => hij.2.2 (hjk.2.2 h)⟩ (ih h')

theorem Evolve.mem {w w' : Instances} (h : Evolve w w') {j : Instance} (hj : j ∈ w') :
    ∃ i ∈ w, j.id = i.id ∧ j.region = i.region ∧ (j.state.live = true → i.state.live = true) := by
  induction h with
  | nil => simp at hj
  | cons hij _ ih =>
    rcases List.mem_cons.1 hj with rfl | hj
    · exact ⟨_, List.mem_cons_self, hij⟩
    · obtain ⟨i, hi, hij⟩ := ih hj
      exact ⟨i, List.mem_cons_of_mem _ hi, hij⟩

theorem Evolve.liveCount_le {w w' : Instances} (h : Evolve w w') (r : String) :
    w'.liveCount r ≤ w.liveCount r := by
  induction h with
  | nil => rfl
  | @cons i j w w' hij _ ih =>
    have hmono : liveIn r j = true → liveIn r i = true := by
      simp only [liveIn, Bool.and_eq_true, beq_iff_eq]
      exact fun hj => ⟨hij.2.2 hj.1, hij.2.1 ▸ hj.2⟩
    simp only [liveCount, List.countP_cons] at ih ⊢
    cases hj : liveIn r j with
    | false => simp only [Bool.false_eq_true, if_false]; omega
    | true => simp only [hmono hj, if_true]; omega

theorem Evolve.atMostOne {w w' : Instances} (h : Evolve w w') (hw : AtMostOne w) :
    AtMostOne w' :=
  fun r => (h.liveCount_le r).trans (hw r)

theorem Evolve.live {w w' : Instances} (h : Evolve w w') {P : String → String → Prop}
    (hw : ∀ i ∈ w, i.state.live = true → P i.id i.region) :
    ∀ j ∈ w', j.state.live = true → P j.id j.region := by
  intro j hj hl
  obtain ⟨i, hi, hid, hr, hlive⟩ := h.mem hj
  rw [hid, hr]
  exact hw i hi (hlive hl)

theorem Evolve.onlyIn {w w' : Instances} (h : Evolve w w') {r : String} (hw : OnlyIn w r) :
    OnlyIn w' r :=
  h.live (P := fun _ region => region = r) hw

theorem OnlyIn.append {w : Instances} {r : String} {i : Instance} (hw : OnlyIn w r)
    (hi : i.region = r) : OnlyIn (w ++ [i]) r := by
  intro j hj hl
  rcases List.mem_append.1 hj with hj | hj
  · exact hw j hj hl
  · rw [List.mem_singleton.1 hj, hi]

theorem liveCount_eq_zero {w : Instances} {r : String} :
    w.liveCount r = 0 ↔ ∀ i ∈ w, i.state.live = true → i.region ≠ r := by
  simp [liveCount, List.countP_eq_zero, liveIn]

theorem noneLive_of_onlyIn {w : Instances} {r : String} (h : OnlyIn w r)
    (h0 : w.liveCount r = 0) : NoneLive w := by
  intro i hi
  by_contra hl
  have hl : i.state.live = true := by simpa using hl
  exact liveCount_eq_zero.1 h0 i hi hl (h i hi hl)

theorem eq_of_liveCount_le_one {w : Instances} {r : String} (h : w.liveCount r ≤ 1)
    {i j : Instance} (hi : i ∈ w) (hj : j ∈ w) (hil : liveIn r i = true)
    (hjl : liveIn r j = true) : i = j := by
  rw [liveCount, List.countP_eq_length_filter] at h
  have hi' := List.mem_filter.2 ⟨hi, hil⟩
  have hj' := List.mem_filter.2 ⟨hj, hjl⟩
  match hf : w.filter (liveIn r), h with
  | [], _ => simp [hf] at hi'
  | [x], _ =>
    rw [hf, List.mem_singleton] at hi' hj'
    rw [hi', hj']

theorem atMostOne_append {w : Instances} {i : Instance} (hw : AtMostOne w)
    (h0 : w.liveCount i.region = 0) : AtMostOne (w ++ [i]) := by
  intro r
  have happ : (w ++ [i]).liveCount r = w.liveCount r + if liveIn r i then 1 else 0 := by
    simp [liveCount, List.countP_append, List.countP_cons]
  rw [happ]
  by_cases hr : i.region = r
  · subst hr
    split <;> omega
  · have : liveIn r i = false := by simp [liveIn, hr]
    simpa [this] using hw r

/-- `get_job_instance` reports an instance of the region, and a live one if there is any. -/
def Reports (w : Instances) (region : String) : Bool × String × String → Prop
  | (false, _, _) => w.liveCount region = 0
  | (true, id, state) => ∃ i ∈ w, i.region = region ∧ i.id = id ∧ i.state.name = state ∧
      (i.state.live = false → w.liveCount region = 0)

/-- Only `spin_up` adds an instance, and only a successful one unless `leftover`. -/
def SpunUp (leftover : Prop) (region : String) (w : Instances) (x : Option String)
    (w' : Instances) : Prop :=
  ∃ w₁, Evolve w w₁ ∧ match x with
    | none => w' = w₁ ∨ leftover ∧ ∃ i : Instance, i.region = region ∧ w' = w₁ ++ [i]
    | some id => ∃ st, w' = w₁ ++ [⟨id, region, st⟩]

/-- An `InfraProvider` over its instances: any call may fail and the instances may change on
their own before any answer. A successful `spin_down` ends the instance it names. -/
def cloudEnv (leftover : Prop) : Prog.Env ProviderOp ProviderAns Instances
  | .spinUp _ _ _ region _ _ _, w, x, w' => SpunUp leftover region w x w'
  | .spinDown id _ _, w, x, w' => Evolve w w' ∧
      (x = some () → ∀ i ∈ w', i.id = id → i.state.live = false)
  | .getJobInstance _ region, w, x, w' => Evolve w w' ∧ ∀ a, x = some a → Reports w' region a
  | .checkInstanceRunning _ _, w, _, w' => Evolve w w'
  | .checkEnclaveRunning _ _, w, _, w' => Evolve w w'
  | .runEnclave .., w, _, w' => Evolve w w'
  | .updateEnclaveImage .., w, _, w' => Evolve w w'

/-- The same without a word on what `get_job_instance` reports: that is what `answers` allows. A
failed `spin_up` leaves nothing. -/
def answeringEnv (answers : Instances → String → Bool × String × String → Prop) :
    Prog.Env ProviderOp ProviderAns Instances
  | .getJobInstance _ region, w, x, w' => Evolve w w' ∧ ∀ a, x = some a → answers w' region a
  | op, w, x, w' => cloudEnv False op w x w'

theorem answeringEnv_refines {answers : Instances → String → Bool × String × String → Prop}
    (hanswers : ∀ w region a, answers w region a → Reports w region a) {op : ProviderOp}
    {w w' : Instances} {x : ProviderAns op} (h : answeringEnv answers op w x w') :
    cloudEnv False op w x w' := by
  cases op with
  | getJobInstance job region => exact ⟨h.1, fun a ha => hanswers w' region a (h.2 a ha)⟩
  | _ => exact h

theorem answeringEnv_reports {op : ProviderOp} {w w' : Instances} {x : ProviderAns op}
    (h : cloudEnv False op w x w') : answeringEnv Reports op w x w' := by
  cases op <;> exact h

end Instances

end Oyster.ControlPlane
