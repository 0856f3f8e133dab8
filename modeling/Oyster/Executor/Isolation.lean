import Oyster.Executor.Execution

namespace Oyster.Executor

open Workerd (createCodeFile)

variable {rt : Runtime} {m m' : Machine} {t t' : JobTask} {action : Option JobAction}

theorem append_inj_left {a b c d : String} (h : a ++ b = c ++ d)
    (hlen : b.toList.length = d.toList.length) : a = c ∧ b = d := by
  have hlist := congrArg String.toList h
  rw [String.toList_append, String.toList_append] at hlist
  obtain ⟨ha, hb⟩ := List.append_inj' hlist hlen
  exact ⟨String.toList_injective ha, String.toList_injective hb⟩

theorem encodeToString_length (r : Vector UInt8 4) :
    (Hex.encodeToString r.toList).toList.length = 8 := by
  rw [Hex.encodeToString, String.toList_ofList, List.length_map, Hex.length_encode,
    Vector.length_toList]

theorem encodeToString_injective : Function.Injective Hex.encodeToString := by
  intro a b h
  have hchars : Workerd.hexChars a = Workerd.hexChars b := by
    have hlist := congrArg String.toList h
    rwa [Hex.encodeToString, Hex.encodeToString, String.toList_ofList, String.toList_ofList]
      at hlist
  have hencode : Hex.encode a = Hex.encode b := by
    rw [← Workerd.utf8_hexChars, hchars, Workerd.utf8_hexChars]
  have hdecode := Hex.decode_encode a
  rw [hencode, Hex.decode_encode] at hdecode
  exact (Except.ok.inj hdecode).symm

variable {r r' : Request}

theorem fileName_inj (h : r.fileName = r'.fileName) : r.key = r'.key := by
  obtain ⟨hhead, hslug⟩ := append_inj_left h (by rw [encodeToString_length, encodeToString_length])
  obtain ⟨hhash, -⟩ := append_inj_left hhead rfl
  exact Prod.ext hhash (Vector.toList_inj.1 (encodeToString_injective hslug))

theorem module_inj (h : r.module = r'.module) : r.key = r'.key :=
  fileName_inj (append_inj_left h rfl).1

theorem config_inj (h : r.config = r'.config) : r.key = r'.key :=
  fileName_inj (append_inj_left h rfl).1

theorem module_ne_config : r.module ≠ r'.config := by
  intro h
  have hlast := congrArg (fun name : String => name.toList.getLast?) h
  simp only [Request.module, Request.config, String.toList_append] at hlast
  rw [List.getLast?_append_of_ne_nil _ (by decide), List.getLast?_append_of_ne_nil _ (by decide)]
    at hlast
  exact absurd hlast (by decide)

theorem path_inj {a b : String} (h : rt.path a = rt.path b) : a = b := by
  have hlist := congrArg String.toList h
  simp only [Runtime.path, String.toList_append] at hlist
  exact String.toList_injective (List.append_cancel_left hlist)

/-- The code of the request, as the RPC answers. -/
def Fetched (rt : Runtime) (r : Request) (code : List UInt8) : Prop :=
  ∃ answer, rt.answers r.codeHash answer ∧
    createCodeFile answer rt.codeContractAddr true = some (.ok code)

/-- An output is what its error code says. -/
def Explained (rt : Runtime) (r : Request) (o : JobOutput) : Prop :=
  (o.errorCode = 0 ∧ ∃ code, Fetched rt r code ∧ rt.parses code = true ∧
    rt.serves code r.codeInputs o.output) ∨
  o.output = [] ∧
    ((∃ answer write err, rt.answers r.codeHash answer ∧
        createCodeFile answer rt.codeContractAddr write = some (.error err) ∧
        codeFileOutput o.totalTime err = some o) ∨
      (o.errorCode = 3 ∧ ∃ code, Fetched rt r code ∧ rt.parses code = false) ∨
      (o.errorCode = 4 ∧ o.totalTime = r.userDeadline))

def Worker.Of (rt : Runtime) (config : String) (port : UInt16) (code : List UInt8) :
    Worker → Prop
  | .starting c => c = config
  | .serving p c => p = port ∧ c = code ∧ rt.parses code = true
  | .broken c => c = code ∧ rt.parses code = false
  | .failed => True

structure Runs (rt : Runtime) (m : Machine) (e : Execution) (cgroup : String) : Prop where
  module : m.files (rt.path e.request.module) = some (.code e.code)
  worker : ∃ port w, getPort cgroup = .ok port ∧
    m.files (rt.path e.request.config) = some (.config port e.request.module) ∧
    m.workers cgroup = some w ∧ w.Of rt (rt.path e.request.config) port e.code

def Stage.coded : Stage → Bool
  | .reserve | .getPort _ | .createConfigFile _ _ | .execute _ _ | .waitForPort _ | .readStderr
  | .getWorkerdResponse _ => true
  | .createCodeFile | .leave | .cleanupConfigFile | .cleanupCodeFile | .over => false

def Stage.returned : Stage → Bool
  | .cleanupConfigFile | .cleanupCodeFile | .over => true
  | _ => false

structure ExecKnown (rt : Runtime) (m : Machine) (e : Execution) : Prop where
  fetched : e.stage.coded = true ∨ (∃ cgroup, .kill cgroup ∈ e.guards) → Fetched rt e.request e.code
  coded : e.stage.coded = true → m.files (rt.path e.request.module) = some (.code e.code)
  configured : ∀ cgroup port, e.stage = .execute cgroup port →
    m.files (rt.path e.request.config) = some (.config port e.request.module)
  runs : ∀ cgroup, .kill cgroup ∈ e.guards → Runs rt m e cgroup
  returned : e.stage.returned = true → e.guards = []
  output : ∀ o, e.output = some o → Explained rt e.request o

def JobKnown (rt : Runtime) (m : Machine) : JobTask → Prop
  | .new => True
  | .exec e => ExecKnown rt m e

structure Good (s : Executions) : Prop where
  past : ∀ t ∈ s.tasks, ∃ hist, Job.Past hist t.job
  held : ∀ (i j : ℕ) (a b : JobTask), i ≠ j → s.tasks[i]? = some a → s.tasks[j]? = some b →
    a.job.held.Disjoint b.job.held
  ports : ∀ (i j : ℕ) (a b : JobTask), i ≠ j → s.tasks[i]? = some a → s.tasks[j]? = some b →
    ∀ c ∈ a.job.held, ∀ d ∈ b.job.held, getPort c ≠ getPort d
  keys : ∀ (i j : ℕ) (a b : Execution), i ≠ j → s.tasks[i]? = some (.exec a) →
    s.tasks[j]? = some (.exec b) → a.request.key ≠ b.request.key
  workers : ∀ cgroup w, s.shared.workers cgroup = some w →
    ∃ t ∈ s.tasks, .kill cgroup ∈ t.job.guards

theorem held_of_kill {hist : List JobAction} {job : Job} (h : Job.Past hist job) {cgroup : String}
    (hk : .kill cgroup ∈ job.guards) : job.held = [cgroup] ∧
      (job.guards = [.kill cgroup, .release cgroup]) := by
  cases h with
  | waitForPort | readStderr | getWorkerdResponse | leaveSpawned =>
    simp only [List.mem_cons, Guard.kill.injEq, reduceCtorEq, List.not_mem_nil, or_false] at hk
    subst hk
    exact ⟨rfl, rfl⟩
  | _ => simp [Job.first] at hk

theorem files_setFile (m : Machine) {path path' : String} (h : path' ≠ path)
    (content : Option Content) : (m.setFile path content).files path' = m.files path' :=
  Function.update_of_ne h _ _

theorem workers_setWorker (m : Machine) {cgroup cgroup' : String} (h : cgroup' ≠ cgroup)
    (worker : Option Worker) : (m.setWorker cgroup worker).workers cgroup' = m.workers cgroup' :=
  Function.update_of_ne h _ _

theorem workers_setWorker_self (m : Machine) (cgroup : String) (worker : Option Worker) :
    (m.setWorker cgroup worker).workers cgroup = worker :=
  Function.update_self _ _ _

structure Frame (rt : Runtime) (m m' : Machine) (t : JobTask) : Prop where
  files : ∀ r : Request, (∀ e, t = .exec e → r.key ≠ e.request.key) →
    m'.files (rt.path r.module) = m.files (rt.path r.module) ∧
      m'.files (rt.path r.config) = m.files (rt.path r.config)
  workers : ∀ cgroup, cgroup ∉ t.job.held → m'.workers cgroup = m.workers cgroup

theorem Frame.same (h : m'.files = m.files) (hw : m'.workers = m.workers) : Frame rt m m' t :=
  ⟨fun _ _ => by rw [h]; exact ⟨rfl, rfl⟩, fun _ _ => by rw [hw]⟩

theorem Frame.module (m : Machine) (e : Execution) (content : Option Content) :
    Frame rt m (m.setFile (rt.path e.request.module) content) (.exec e) where
  files _ hr := ⟨files_setFile m (fun h => hr e rfl (module_inj (path_inj h))) content,
    files_setFile m (fun h => module_ne_config (path_inj h).symm) content⟩
  workers _ _ := rfl

theorem Frame.config (m : Machine) (e : Execution) (content : Option Content) :
    Frame rt m (m.setFile (rt.path e.request.config) content) (.exec e) where
  files _ hr := ⟨files_setFile m (fun h => module_ne_config (path_inj h)) content,
    files_setFile m (fun h => hr e rfl (config_inj (path_inj h))) content⟩
  workers _ _ := rfl

theorem Frame.worker (m : Machine) {cgroup : String} (hheld : cgroup ∈ t.job.held)
    (worker : Option Worker) : Frame rt m (m.setWorker cgroup worker) t where
  files _ _ := ⟨rfl, rfl⟩
  workers _ hc := workers_setWorker m (fun h => hc (by rw [h]; exact hheld)) worker

theorem held_of_execute {hist : List JobAction} {e : Execution} (h : Job.Past hist e.job)
    {cgroup : String} {port : UInt16} (hs : e.stage = .execute cgroup port) :
    e.job.held = [cgroup] ∧ e.guards = [.release cgroup] ∧ getPort cgroup = .ok port := by
  rw [job_of_stage hs] at h ⊢
  generalize hg : e.guards = gs at h
  cases h with
  | execute _ _ hport => exact ⟨rfl, rfl, hport⟩

theorem JobTask.Step.frame (h : JobTask.Step rt m t action m' t') {hist : List JobAction}
    (hpast : Job.Past hist t.job) : Frame rt m m' t := by
  cases h with
  | touchCodeFile | createCodeFile => exact .module _ _ _
  | touchConfigFile | createConfigFile => exact .config _ _ _
  | execute hs =>
    refine .worker _ ?_ _
    rw [JobTask.job, (held_of_execute hpast hs).1]
    exact List.mem_singleton_self _
  | workerStarts hk =>
    refine .worker _ ?_ _
    rw [(held_of_kill hpast hk).1]
    exact List.mem_singleton_self _
  | kill _ hg =>
    refine .worker _ ?_ _
    rw [(held_of_kill hpast (by rw [JobTask.job, Execution.job, hg]; exact List.mem_cons_self)).1]
    exact List.mem_singleton_self _
  | cleanupConfigFile _ hm =>
    rcases hm with rfl | rfl
    · exact .config _ _ _
    · exact .same rfl rfl
  | cleanupCodeFile _ hm =>
    rcases hm with rfl | rfl
    · exact .module _ _ _
    · exact .same rfl rfl
  | _ => exact .same rfl rfl

theorem ExecKnown.frame {e : Execution} (h : ExecKnown rt m e) (hf : Frame rt m m' t)
    (hkey : ∀ e', t = .exec e' → e.request.key ≠ e'.request.key)
    (hkill : ∀ cgroup, .kill cgroup ∈ e.guards → cgroup ∉ t.job.held) : ExecKnown rt m' e := by
  obtain ⟨hmodule, hconfig⟩ := hf.files e.request hkey
  refine ⟨h.fetched, fun hs => hmodule.trans (h.coded hs),
    fun c p hs => hconfig.trans (h.configured c p hs), fun c hc => ?_, h.returned, h.output⟩
  obtain ⟨hcode, port, w, hport, hfile, hw, hof⟩ := h.runs c hc
  exact ⟨hmodule.trans hcode, port, w, hport, hconfig.trans hfile,
    (hf.workers c (hkill c hc)).trans hw, hof⟩

section

variable {e : Execution} {hist : List JobAction}

theorem guards_createCodeFile (h : Job.Past hist e.job) (hs : e.stage = .createCodeFile) :
    e.guards = [] := by
  rw [job_of_stage hs] at h
  generalize e.guards = gs at h
  cases h
  rfl

theorem guards_reserve (h : Job.Past hist e.job) (hs : e.stage = .reserve) : e.guards = [] := by
  rw [job_of_stage hs] at h
  generalize e.guards = gs at h
  cases h
  rfl

theorem guards_createConfigFile {cgroup : String} {port : UInt16} (h : Job.Past hist e.job)
    (hs : e.stage = .createConfigFile cgroup port) : e.guards = [.release cgroup] := by
  rw [job_of_stage hs] at h
  generalize e.guards = gs at h
  cases h
  rfl

theorem ExecKnown.bare (hs : e.stage.coded = false) (hg : e.guards = [])
    (ho : ∀ o, e.output = some o → Explained rt e.request o)
    (hx : ∀ c p, e.stage ≠ .execute c p) : ExecKnown rt m e where
  fetched h := by
    rcases h with h | ⟨c, hc⟩
    · exact absurd (hs.symm.trans h) Bool.false_ne_true
    · rw [hg] at hc
      exact absurd hc List.not_mem_nil
  coded h := absurd (hs.symm.trans h) Bool.false_ne_true
  configured c p h := absurd h (hx c p)
  runs c hc := by
    rw [hg] at hc
    exact absurd hc List.not_mem_nil
  returned _ := hg
  output := ho

theorem ExecKnown.goTo (h : ExecKnown rt m e) {stage : Stage}
    (hc : stage.coded = true → e.stage.coded = true) (hx : ∀ c p, stage ≠ .execute c p)
    (hr : stage.returned = true → e.guards = []) : ExecKnown rt m (e.goTo stage) where
  fetched hf := h.fetched (hf.imp_left hc)
  coded hs := h.coded (hc hs)
  configured c p hs := absurd hs (hx c p)
  runs c hk := ⟨(h.runs c hk).module, (h.runs c hk).worker⟩
  returned := hr
  output := h.output

theorem ExecKnown.exit (h : ExecKnown rt m e) {output : Option JobOutput}
    (ho : ∀ o, output = some o → Explained rt e.request o) : ExecKnown rt m (e.exit output) where
  fetched hf := h.fetched (hf.imp_left fun hs => absurd hs Bool.false_ne_true)
  coded hs := absurd hs Bool.false_ne_true
  configured _ _ hs := nomatch hs
  runs c hk := ⟨(h.runs c hk).module, (h.runs c hk).worker⟩
  returned hs := absurd hs Bool.false_ne_true
  output := ho

theorem codeFileOutput_eq {totalTime : ℕ} {err : Workerd.ServerlessError} {o : JobOutput}
    (h : codeFileOutput totalTime err = some o) : o.output = [] ∧ o.totalTime = totalTime := by
  cases err <;> cases h <;> exact ⟨rfl, rfl⟩

theorem Runs.started {cgroup config : String} (h : Runs rt m e cgroup)
    (hw : m.workers cgroup = some (.starting config)) :
    Runs rt (m.setWorker cgroup (some (m.started rt config))) e cgroup := by
  obtain ⟨hmodule, port, w, hport, hconfig, hw', hof⟩ := h
  cases hw.symm.trans hw'
  refine ⟨hmodule, port, _, hport, hconfig, Function.update_self _ _ _, ?_⟩
  have hc : config = rt.path e.request.config := hof
  rw [hc, Machine.started, hconfig]
  simp only [hmodule]
  split
  next hparses => exact ⟨rfl, rfl, hparses⟩
  next hparses => exact ⟨rfl, Bool.eq_false_iff.2 hparses⟩

theorem served_own {s : Executions} {i : ℕ} (hgood : Good s)
    (hknown : ∀ u ∈ s.tasks, JobKnown rt s.shared u) (hi : s.tasks[i]? = some (.exec e))
    {port : UInt16} (hport : e.job.port = some port) {cgroup : String} {code : List UInt8}
    (hw : s.shared.workers cgroup = some (.serving port code)) :
    code = e.code ∧ rt.parses code = true := by
  obtain ⟨u, hu, hkill⟩ := hgood.workers cgroup _ hw
  obtain ⟨j, hj⟩ := List.mem_iff_getElem?.1 hu
  cases u with
  | new => exact absurd hkill List.not_mem_nil
  | exec e' =>
    obtain ⟨-, port', w, hport', -, hw', hof⟩ := (hknown _ hu).runs cgroup hkill
    cases hw.symm.trans hw'
    obtain ⟨rfl, hcode, hparses⟩ := hof
    by_cases hij : i = j
    · subst hij
      cases hi.symm.trans hj
      exact ⟨hcode, hcode ▸ hparses⟩
    · -- the port of another job's cgroup is another one
      obtain ⟨hist, hpast⟩ := hgood.past _ (List.mem_of_getElem? hi)
      obtain ⟨hist', hpast'⟩ := hgood.past _ hu
      obtain ⟨c, hc, hcport⟩ := hpast.port hport
      have hheld : cgroup ∈ (JobTask.exec e').job.held := by
        rw [(held_of_kill hpast' hkill).1]
        exact List.mem_singleton_self _
      exact absurd (hcport.trans hport'.symm) (hgood.ports i j _ _ hij hi hj c hc cgroup hheld)

theorem JobTask.Step.known {s : Executions} {i : ℕ} (h : JobTask.Step rt s.shared t action m' t')
    (hgood : Good s) (hknown : ∀ u ∈ s.tasks, JobKnown rt s.shared u)
    (hi : s.tasks[i]? = some t) : JobKnown rt m' t' := by
  have hmem := List.mem_of_getElem? hi
  have hk := hknown t hmem
  obtain ⟨hist, hpast⟩ := hgood.past t hmem
  have hnone : ∀ (r : Request) (o : JobOutput), none = some o → Explained rt r o := fun _ _ h =>
    nomatch h
  cases h with
  | arrive => exact .bare rfl rfl (hnone _) nofun
  | touchCodeFile hs =>
    have hg := guards_createCodeFile hpast hs
    exact .bare (by rw [hs]; rfl) hg hk.output (by rw [hs]; nofun)
  | createCodeFile hs hanswer hcode =>
    have hg := guards_createCodeFile hpast hs
    refine ⟨fun _ => ⟨_, hanswer, hcode⟩, fun _ => Function.update_self _ _ _, nofun,
      fun c hc => ?_, nofun, hk.output⟩
    rw [hg] at hc
    exact absurd hc List.not_mem_nil
  | @createCodeFileFailed e answer write err totalTime hs hanswer herr =>
    refine hk.exit fun o ho => .inr ?_
    obtain ⟨hempty, htime⟩ := codeFileOutput_eq ho
    exact ⟨hempty, .inl ⟨answer, write, err, hanswer, herr, htime ▸ ho⟩⟩
  | createCodeFilePanics hs =>
    exact hk.goTo nofun nofun fun _ => guards_createCodeFile hpast hs
  | reserve hs =>
    have hg := guards_reserve hpast hs
    have hstage : Stage.coded _ = true := congrArg Stage.coded hs
    refine ⟨fun _ => hk.fetched (.inl hstage), fun _ => hk.coded hstage, nofun, fun c hc => ?_,
      nofun, hk.output⟩
    rw [hg] at hc
    simp at hc
  | reserveFailed | getPortFailed | createConfigFileFailed | executeFailed | readStderr
  | getWorkerdResponseFailed => exact hk.exit (hnone _)
  | getPort hs => exact hk.goTo (fun _ => congrArg Stage.coded hs) nofun nofun
  | touchConfigFile hs =>
    have hg := guards_createConfigFile hpast hs
    have hstage : Stage.coded _ = true := congrArg Stage.coded hs
    refine ⟨hk.fetched, fun _ => ?_, by rw [hs]; nofun, fun c hc => ?_, by rw [hs]; nofun,
      hk.output⟩
    · rw [files_setFile _ fun h => module_ne_config (path_inj h)]
      exact hk.coded hstage
    · rw [hg] at hc
      simp at hc
  | @createConfigFile e cgroup port hs =>
    have hg := guards_createConfigFile hpast hs
    have hstage : e.stage.coded = true := congrArg Stage.coded hs
    refine ⟨fun _ => hk.fetched (.inl hstage), fun _ => ?_, fun c p heq => ?_, fun c hc => ?_,
      nofun, hk.output⟩
    · exact (files_setFile _ (fun h => module_ne_config (path_inj h)) _).trans (hk.coded hstage)
    · cases heq
      exact Function.update_self _ _ _
    · have hc : .kill c ∈ e.guards := hc
      rw [hg] at hc
      simp at hc
  | @execute e cgroup port hs =>
    obtain ⟨-, hg, hport⟩ := held_of_execute hpast hs
    have hstage : e.stage.coded = true := congrArg Stage.coded hs
    refine ⟨fun _ => hk.fetched (.inl hstage), fun _ => hk.coded hstage, nofun, fun c hc => ?_,
      nofun, hk.output⟩
    dsimp only at hc
    rw [hg] at hc
    simp only [List.mem_cons, Guard.kill.injEq, reduceCtorEq, List.not_mem_nil, or_false] at hc
    subst hc
    exact ⟨hk.coded hstage, port, _, hport, hk.configured _ _ hs, Function.update_self _ _ _, rfl⟩
  | @workerStarts e cgroup config hkill hw =>
    refine ⟨hk.fetched, hk.coded, hk.configured, fun c hc => ?_, hk.returned, hk.output⟩
    have hone := (held_of_kill hpast hkill).1.symm.trans (held_of_kill hpast hc).1
    rw [← (List.cons.inj hone).1]
    exact (hk.runs cgroup hkill).started hw
  | waitForPort hs | waitForPortFailed hs =>
    exact hk.goTo (fun _ => congrArg Stage.coded hs) nofun nofun
  | @readSyntaxError e cgroup code totalTime hs hkill hw =>
    refine hk.exit fun o ho => .inr ?_
    obtain ⟨-, port, w, -, -, hw', hof⟩ := hk.runs cgroup hkill
    cases hw.symm.trans hw'
    cases ho
    exact ⟨rfl, .inr (.inl ⟨rfl, e.code, hk.fetched (.inr ⟨_, hkill⟩), hof.2⟩)⟩
  | @getWorkerdResponse e port cgroup code response totalTime hs hw hserves =>
    refine hk.exit fun o ho => .inl ?_
    have hport : e.job.port = some port := by rw [job_of_stage hs]; rfl
    obtain ⟨rfl, hparses⟩ := served_own hgood hknown hi hport hw
    cases ho
    exact ⟨rfl, e.code, hk.fetched (.inl (congrArg Stage.coded hs)), hparses, hserves⟩
  | timeout =>
    refine hk.exit fun o ho => .inr ?_
    cases ho
    exact ⟨rfl, .inr (.inr ⟨rfl, rfl⟩)⟩
  | @kill e cgroup gs hs hg =>
    have hkill : .kill cgroup ∈ e.guards := by rw [hg]; exact List.mem_cons_self
    have hgs := hg.symm.trans (held_of_kill hpast hkill).2
    obtain ⟨-, rfl⟩ := List.cons.inj hgs
    refine ⟨fun hf => hk.fetched ?_, fun h => ?_, fun c p h => hk.configured c p h, fun c hc => ?_,
      fun h => ?_, hk.output⟩
    · exact .inr ⟨cgroup, hkill⟩
    · exact absurd ((congrArg Stage.coded hs).symm.trans h) Bool.false_ne_true
    · simp at hc
    · exact absurd ((congrArg Stage.returned hs).symm.trans h) Bool.false_ne_true
  | @release e cgroup gs hs hg =>
    have hsub : ∀ c, .kill c ∈ gs → .kill c ∈ e.guards := fun c hc => by
      rw [hg]
      exact List.mem_cons_of_mem _ hc
    refine ⟨fun hf => hk.fetched (hf.imp_right fun ⟨c, hc⟩ => ⟨c, hsub c hc⟩), fun h => hk.coded h,
      fun c p h => hk.configured c p h, fun c hc => ?_, fun h => ?_, hk.output⟩
    · exact ⟨(hk.runs c (hsub c hc)).module, (hk.runs c (hsub c hc)).worker⟩
    · exact absurd ((congrArg Stage.returned hs).symm.trans h) Bool.false_ne_true
  | returned hs hg => exact hk.goTo nofun nofun fun _ => hg
  | @cleanupConfigFile m' e hs | @cleanupCodeFile m' e hs =>
    have hg := hk.returned (congrArg Stage.returned hs)
    exact .bare rfl hg hk.output nofun

end

def JobTask.keys : JobTask → List (String × Vector UInt8 4)
  | .new => []
  | .exec e => [e.request.key]

theorem JobTask.Step.keys (h : JobTask.Step rt m t action m' t') :
    m'.keys = m.keys ∧ t'.keys = t.keys ∨
      ∃ key ∉ m.keys, m'.keys = key :: m.keys ∧ t.keys = [] ∧ t'.keys = [key] := by
  cases h with
  | arrive hnew => exact .inr ⟨_, hnew, rfl, rfl, rfl⟩
  | cleanupConfigFile _ hm | cleanupCodeFile _ hm =>
    rcases hm with rfl | rfl <;> exact .inl ⟨rfl, rfl⟩
  | _ => exact .inl ⟨rfl, rfl⟩

def KeysDrawn (s : Executions) : Prop :=
  (s.tasks.flatMap JobTask.keys).Perm s.shared.keys ∧ s.shared.keys.Nodup

theorem keysDrawn_step {s s' : Executions} {l : Interleave.Label (Option JobAction)}
    (hs : KeysDrawn s) (h : Executions.Step rt s l s') : KeysDrawn s' := by
  obtain ⟨hperm, hnodup⟩ := hs
  cases h with
  | begin =>
    refine ⟨?_, hnodup⟩
    rw [List.flatMap_append]
    simpa [JobTask.keys] using hperm
  | @own i t t' action shared hi hst =>
    obtain ⟨rest, hold, hnew⟩ := Interleave.flatMap_set_perm JobTask.keys hi t'
    rcases hst.keys with ⟨hkeys, htask⟩ | ⟨key, hfresh, hkeys, htask, htask'⟩
    · rw [KeysDrawn, hkeys]
      rw [htask] at hnew
      exact ⟨hnew.trans (hold.symm.trans hperm), hnodup⟩
    · rw [KeysDrawn, hkeys]
      rw [htask, List.nil_append] at hold
      rw [htask'] at hnew
      exact ⟨hnew.trans ((hold.symm.trans hperm).cons key), List.nodup_cons.2 ⟨hfresh, hnodup⟩⟩

theorem mem_guards_job {e : Execution} {guard : Guard} :
    guard ∈ (JobTask.exec e).job.guards ↔ guard ∈ e.guards := Iff.rfl

/-- A worker that is there was there, or its job has just spawned it; a job kills none but its
own. -/
theorem JobTask.Step.workers (h : JobTask.Step rt m t action m' t') {cgroup : String} {w : Worker}
    (hw : m'.workers cgroup = some w) :
    .kill cgroup ∈ t'.job.guards ∨
      (∃ w', m.workers cgroup = some w') ∧ .kill cgroup ∉ t.job.guards := by
  have hsame : ∀ {e e' : Execution} {m₁ : Machine}, m₁.workers = m.workers →
      m₁.workers cgroup = some w → e'.guards = e.guards →
      .kill cgroup ∈ (JobTask.exec e').job.guards ∨
        (∃ w', m.workers cgroup = some w') ∧ .kill cgroup ∉ (JobTask.exec e).job.guards := by
    intro e e' m₁ hm hw hg
    rw [mem_guards_job, mem_guards_job, hg]
    by_cases hmem : .kill cgroup ∈ e.guards
    · exact .inl hmem
    · exact .inr ⟨⟨w, hm ▸ hw⟩, hmem⟩
  cases h with
  | arrive => exact .inr ⟨⟨w, hw⟩, List.not_mem_nil⟩
  | @reserve e g c => 
    rw [mem_guards_job, mem_guards_job]
    by_cases hmem : .kill cgroup ∈ e.guards
    · exact .inl (List.mem_cons_of_mem _ hmem)
    · exact .inr ⟨⟨w, hw⟩, hmem⟩
  | @execute e c port =>
    rw [mem_guards_job, mem_guards_job]
    by_cases hc : cgroup = c
    · rw [hc]
      exact .inl List.mem_cons_self
    · rw [workers_setWorker _ hc] at hw
      by_cases hmem : .kill cgroup ∈ e.guards
      · exact .inl (List.mem_cons_of_mem _ hmem)
      · exact .inr ⟨⟨w, hw⟩, hmem⟩
  | @workerStarts e c config hkill hstart =>
    by_cases hc : cgroup = c
    · rw [hc]
      exact .inl hkill
    · exact hsame rfl ((workers_setWorker _ hc _).symm.trans hw) rfl
  | @kill e c gs hs hg =>
    rw [mem_guards_job, mem_guards_job, hg]
    by_cases hc : cgroup = c
    · rw [hc, workers_setWorker_self] at hw
      cases hw
    · rw [workers_setWorker _ hc] at hw
      by_cases hmem : .kill cgroup ∈ gs
      · exact .inl hmem
      · refine .inr ⟨⟨w, hw⟩, fun h => ?_⟩
        rcases List.mem_cons.1 h with h | h
        · exact hc (Guard.kill.inj h)
        · exact hmem h
  | @release e c gs hs hg =>
    rw [mem_guards_job, mem_guards_job, hg]
    by_cases hmem : .kill cgroup ∈ gs
    · exact .inl hmem
    · refine .inr ⟨⟨w, hw⟩, fun h => ?_⟩
      rcases List.mem_cons.1 h with h | h
      · cases h
      · exact hmem h
  | cleanupConfigFile _ hm | cleanupCodeFile _ hm => 
    rcases hm with rfl | rfl <;> exact hsame rfl hw rfl
  | _ => exact hsame rfl hw rfl

/-- Every worker has its job. -/
def Owned (s : Executions) : Prop :=
  ∀ cgroup w, s.shared.workers cgroup = some w → ∃ t ∈ s.tasks, .kill cgroup ∈ t.job.guards

theorem owned_step {s s' : Executions} {l : Interleave.Label (Option JobAction)} (hs : Owned s)
    (h : Executions.Step rt s l s') : Owned s' := by
  intro cgroup w hw
  cases h with
  | begin =>
    obtain ⟨t, ht, hkill⟩ := hs cgroup w hw
    exact ⟨t, List.mem_append_left _ ht, hkill⟩
  | @own i t t' action shared hi hst =>
    rcases hst.workers hw with hkill | ⟨⟨w', hw'⟩, hnot⟩
    · exact ⟨t', List.mem_iff_getElem?.2 ⟨i, List.getElem?_set_self
        (List.getElem?_eq_some_iff.1 hi).1⟩, hkill⟩
    · -- the job of the worker is another one
      obtain ⟨u, hu, hkill⟩ := hs cgroup w' hw'
      obtain ⟨j, hj⟩ := List.mem_iff_getElem?.1 hu
      by_cases hij : i = j
      · subst hij
        cases hi.symm.trans hj
        exact absurd hkill hnot
      · exact ⟨u, List.mem_iff_getElem?.2 ⟨j, (List.getElem?_set_ne hij).trans hj⟩, hkill⟩

/-- The machine as the executor finds it: with any files. -/
def Machine.Fresh (m : Machine) (entries : List String) : Prop :=
  m.cgroups = Cgroups.new entries ∧ m.workers = (fun _ => none) ∧ m.keys = []

theorem good_run {entries : List String} (hentries : entries.Nodup)
    (hnames : ∀ name ∈ Cgroups.getCgroups entries, ∃ n ≤ 54535, name = workerdName n)
    (hfresh : m.Fresh entries) {es : List (Interleave.Label (Option JobAction))} {s : Executions}
    (h : Run (Executions.Step rt) ⟨m, []⟩ es s) : Good s := by
  obtain ⟨hcgroups, hworkers, hkeys⟩ := hfresh
  obtain ⟨es', hrun⟩ := @Interleave.simulates _ _ _ _ (JobTask.Step rt) _ _ _ Job.first Job.Step
    Machine.cgroups JobTask.job rfl (fun _ _ _ _ _ hst => hst.job) _ _ _ h
  rw [hcgroups] at hrun
  have hperm : (s.shared.cgroups.free ++ (s.tasks.map JobTask.job).flatMap Job.held).Perm
      (Cgroups.getCgroups entries) := by
    have hall := Interleave.conserved Job.conserves rfl hrun
    simpa only [Interleave.elements, List.map_nil, List.flatMap_nil, List.append_nil, Cgroups.new]
      using hall
  have hnodup := hperm.nodup_iff.2 (hentries.filter _)
  have hjob : ∀ (i : ℕ) (a : JobTask), s.tasks[i]? = some a →
      (s.tasks.map JobTask.job)[i]? = some a.job := fun i a ha => by
    rw [List.getElem?_map, ha]
    rfl
  have hdisjoint : ∀ (i j : ℕ) (a b : JobTask), i ≠ j → s.tasks[i]? = some a →
      s.tasks[j]? = some b → a.job.held.Disjoint b.job.held := fun i j a b hij ha hb =>
    Interleave.disjoint_held (List.nodup_append.1 hnodup).2.1 hij (hjob i a ha) (hjob j b hb)
  have hname : ∀ (i : ℕ) (a : JobTask), s.tasks[i]? = some a → ∀ c ∈ a.job.held,
      ∃ n ≤ 54535, c = workerdName n := fun i a ha c hc =>
    hnames c (hperm.subset (List.mem_append_right _
      (List.mem_flatMap.2 ⟨a.job, List.mem_of_getElem? (hjob i a ha), hc⟩)))
  have hkeysDrawn : KeysDrawn s := by
    refine h.invariant (fun _ _ _ hinv hst => keysDrawn_step hinv hst) ⟨?_, ?_⟩
    · rw [hkeys]
      exact .refl _
    · rw [hkeys]
      exact List.nodup_nil
  refine ⟨fun t ht => ?_, hdisjoint, fun i j a b hij ha hb c hc d hd hport => ?_,
    fun i j a b hij ha hb hkey => ?_, ?_⟩
  · obtain ⟨i, hi⟩ := List.mem_iff_getElem?.1 ht
    exact ⟨_, (past_run hrun (hjob i t hi)).1⟩
  · obtain ⟨k, hk, rfl⟩ := hname i a ha c hc
    obtain ⟨n, hn, rfl⟩ := hname j b hb d hd
    rw [getPort_injective hk hn hport] at hc
    exact hdisjoint i j a b hij ha hb hc hd
  · have hapart := Interleave.disjoint_held (hkeysDrawn.1.nodup_iff.2 hkeysDrawn.2) hij ha hb
    exact hapart (List.mem_singleton_self _) (List.mem_singleton.2 hkey)
  · refine h.invariant (fun _ _ _ hinv hst => owned_step hinv hst) fun c w hw => ?_
    rw [hworkers] at hw
    cases hw

theorem known_run {entries : List String} (hentries : entries.Nodup)
    (hnames : ∀ name ∈ Cgroups.getCgroups entries, ∃ n ≤ 54535, name = workerdName n)
    (hfresh : m.Fresh entries) {es : List (Interleave.Label (Option JobAction))} {s : Executions}
    (h : Run (Executions.Step rt) ⟨m, []⟩ es s) : ∀ t ∈ s.tasks, JobKnown rt s.shared t := by
  refine @Interleave.known_run _ _ _ JobTask.new (JobTask.Step rt) (JobKnown rt) Good _ _ _
    (fun _ => trivial)
    (fun s i t action m' t' hgood hknown hi hst => hst.known hgood hknown hi)
    (fun s i j t u action m' t' hgood hij hi hj _ hu hst => ?_)
    (fun _ _ hrun => good_run hentries hnames hfresh hrun)
    (fun _ ht => absurd ht List.not_mem_nil) h
  cases u with
  | new => trivial
  | exec e =>
    obtain ⟨hist, hpast⟩ := hgood.past t (List.mem_of_getElem? hi)
    obtain ⟨hist', hpast'⟩ := hgood.past _ (List.mem_of_getElem? hj)
    refine ExecKnown.frame hu (hst.frame hpast) (fun e' ht => ?_) fun c hc hheld => ?_
    · subst ht
      exact hgood.keys j i e e' (Ne.symm hij) hj hi
    · refine hgood.held i j _ _ hij hi hj hheld ?_
      rw [(held_of_kill hpast' hc).1]
      exact List.mem_singleton_self _

/-- The output of a job is what its error code says, of the code and the inputs of this job; and
a worker that it has spawned, or that listens on its port, has its code and no other. -/
theorem jobs_isolated {entries : List String} (hentries : entries.Nodup)
    (hnames : ∀ name ∈ Cgroups.getCgroups entries, ∃ n ≤ 54535, name = workerdName n)
    (hfresh : m.Fresh entries) {es : List (Interleave.Label (Option JobAction))} {s : Executions}
    (h : Run (Executions.Step rt) ⟨m, []⟩ es s) {e : Execution} (he : .exec e ∈ s.tasks) :
    (∀ o, e.output = some o → Explained rt e.request o) ∧
    (∀ cgroup w, .kill cgroup ∈ e.guards → s.shared.workers cgroup = some w →
      Fetched rt e.request e.code ∧ ∃ port, getPort cgroup = .ok port ∧
        w.Of rt (rt.path e.request.config) port e.code) ∧
    ∀ port cgroup code, e.job.port = some port →
      s.shared.workers cgroup = some (.serving port code) → code = e.code := by
  have hknown := known_run hentries hnames hfresh h
  have hk : ExecKnown rt s.shared e := hknown _ he
  refine ⟨hk.output, fun cgroup w hkill hw => ?_, fun port cgroup code hport hw => ?_⟩
  · obtain ⟨-, port, w', hport, -, hw', hof⟩ := hk.runs cgroup hkill
    cases hw.symm.trans hw'
    exact ⟨hk.fetched (.inr ⟨cgroup, hkill⟩), port, hport, hof⟩
  · obtain ⟨i, hi⟩ := List.mem_iff_getElem?.1 he
    exact (served_own (good_run hentries hnames hfresh h) hknown hi hport hw).1

section Sample

def Machine.spawned (m : Machine) (rt : Runtime) (r : Request) (code : List UInt8)
    (cgroup : String) (g : Cgroups) (port : UInt16) : Machine :=
  let coded := { m with keys := r.key :: m.keys }.setFile (rt.path r.module) (some (.code code))
  ({ coded with cgroups := g }.setFile (rt.path r.config)
    (some (.config port r.module))).setWorker cgroup (some (.starting (rt.path r.config)))

def Request.waiting (r : Request) (code : List UInt8) (cgroup : String) (port : UInt16) :
    Execution where
  request := r
  code := code
  stage := .waitForPort port
  guards := [.kill cgroup, .release cgroup]

variable {r : Request} {code response : List UInt8} {cgroup : String} {port : UInt16}

theorem spawned_run {answer : Except Unit ControlPlane.Json} {g : Cgroups}
    (hkey : r.key ∉ m.keys) (hanswer : rt.answers r.codeHash answer)
    (hcode : createCodeFile answer rt.codeContractAddr true = some (.ok code))
    (hres : m.cgroups.reserve = .ok (cgroup, g)) (hport : getPort cgroup = .ok port) :
    Run (Interleave.Alone (JobTask.Step rt)) (m, .new)
      [none, none, some (.reserve cgroup), none, none, some (.spawn cgroup)]
      (m.spawned rt r code cgroup g port, .exec (r.waiting code cgroup port)) := by
  let keyed : Machine := { m with keys := r.key :: m.keys }
  let coded := keyed.setFile (rt.path r.module) (some (.code code))
  let reserved : Machine := { coded with cgroups := g }
  let configured := reserved.setFile (rt.path r.config) (some (.config port r.module))
  let job (stage : Stage) (guards : List Guard) : Execution := ⟨r, code, stage, guards, none⟩
  have harrive : Interleave.Alone (JobTask.Step rt) (m, .new) none
      (keyed, .exec { request := r }) := .arrive hkey
  have hcoded : Interleave.Alone (JobTask.Step rt) (keyed, .exec { request := r }) none
      (coded, .exec (job .reserve [])) := .createCodeFile rfl hanswer hcode
  have hreserved : Interleave.Alone (JobTask.Step rt) (coded, .exec (job .reserve []))
      (some (.reserve cgroup))
      (reserved, .exec (job (.getPort cgroup) [.release cgroup])) := .reserve rfl hres
  have hnamed : Interleave.Alone (JobTask.Step rt)
      (reserved, .exec (job (.getPort cgroup) [.release cgroup])) none
      (reserved, .exec (job (.createConfigFile cgroup port) [.release cgroup])) :=
    .getPort rfl hport
  have hconfigured : Interleave.Alone (JobTask.Step rt)
      (reserved, .exec (job (.createConfigFile cgroup port) [.release cgroup])) none
      (configured, .exec (job (.execute cgroup port) [.release cgroup])) := .createConfigFile rfl
  have hspawned : Interleave.Alone (JobTask.Step rt)
      (configured, .exec (job (.execute cgroup port) [.release cgroup])) (some (.spawn cgroup))
      (m.spawned rt r code cgroup g port, .exec (r.waiting code cgroup port)) := .execute rfl
  exact .cons harrive <| .cons hcoded <| .cons hreserved <| .cons hnamed <|
    .cons hconfigured <| .cons hspawned <| .nil _

def answered (response : List UInt8) : JobOutput :=
  { output := response, errorCode := 0, totalTime := 1 }

theorem answered_run (hworker : m.workers cgroup = some (.starting (rt.path r.config)))
    (hstarted : m.started rt (rt.path r.config) = .serving port code)
    (hserves : rt.serves code r.codeInputs response) :
    Run (Interleave.Alone (JobTask.Step rt)) (m, .exec (r.waiting code cgroup port))
      [none, none, none] (m.setWorker cgroup (some (.serving port code)),
        .exec { r.waiting code cgroup port with
          stage := .leave
          output := some (answered response) }) := by
  have hserving : (m.setWorker cgroup (some (.serving port code))).workers cgroup =
      some (.serving port code) := workers_setWorker_self _ _ _
  have hstarts : Interleave.Alone (JobTask.Step rt) (m, .exec (r.waiting code cgroup port)) none
      (m.setWorker cgroup (some (.serving port code)), .exec (r.waiting code cgroup port)) := by
    have hstep := @JobTask.Step.workerStarts rt m (r.waiting code cgroup port) cgroup _
      List.mem_cons_self hworker
    rwa [hstarted] at hstep
  have hlistens : Interleave.Alone (JobTask.Step rt)
      (m.setWorker cgroup (some (.serving port code)), .exec (r.waiting code cgroup port)) none
      (m.setWorker cgroup (some (.serving port code)),
        .exec ((r.waiting code cgroup port).goTo (.getWorkerdResponse port))) :=
    .waitForPort rfl hserving
  have hanswers : Interleave.Alone (JobTask.Step rt)
      (m.setWorker cgroup (some (.serving port code)),
        .exec ((r.waiting code cgroup port).goTo (.getWorkerdResponse port))) none
      (m.setWorker cgroup (some (.serving port code)),
        .exec { r.waiting code cgroup port with
          stage := .leave
          output := some (answered response) }) := .getWorkerdResponse rfl hserving hserves
  exact .cons hstarts <| .cons hlistens <| .cons hanswers <| .nil _

/-- Two codes; a worker answers with its code and the inputs. -/
def sampleRuntime : Runtime where
  workerdRuntimePath := "."
  codeContractAddr := Workerd.Sample.contract
  answers codeHash answer := answer = .ok (Workerd.Sample.response
    (Workerd.saveCalldata (if codeHash = "0x41" then [65] else [66])))
  parses _ := true
  serves code inputs output := output = code ++ inputs

def firstRequest : Request := ⟨"0x41", Vector.replicate 4 0, [1], 5000⟩
def secondRequest : Request := ⟨"0x42", Vector.replicate 4 0, [2], 5000⟩

def sampleStart : Machine := { cgroups := ⟨["workerd_20", "workerd_21"]⟩ }

def firstSpawned : Machine :=
  sampleStart.spawned sampleRuntime firstRequest [65] "workerd_20" ⟨["workerd_21"]⟩ 11020

def bothSpawned : Machine :=
  firstSpawned.spawned sampleRuntime secondRequest [66] "workerd_21" ⟨[]⟩ 11021

theorem createCodeFile_sample {code : List UInt8} (h : code = [65] ∨ code = [66]) :
    createCodeFile (.ok (Workerd.Sample.response (Workerd.saveCalldata code)))
      Workerd.Sample.contract true = some (.ok code) := by
  rw [Workerd.createCodeFile_carries (Workerd.Sample.carries _), Workerd.decodeCalldata_save]
  rcases h with rfl | rfl <;> rfl

theorem firstRequest_key_ne : firstRequest.key ≠ secondRequest.key := fun h =>
  absurd (congrArg Prod.fst h) (by decide)

theorem bothSpawned_started :
    bothSpawned.started sampleRuntime (sampleRuntime.path firstRequest.config) =
        .serving 11020 [65] ∧
      bothSpawned.started sampleRuntime (sampleRuntime.path secondRequest.config) =
        .serving 11021 [66] := by
  have hmodules : sampleRuntime.path firstRequest.module ≠
      sampleRuntime.path secondRequest.module := fun h =>
    firstRequest_key_ne (module_inj (path_inj h))
  have hconfigs : sampleRuntime.path firstRequest.config ≠
      sampleRuntime.path secondRequest.config := fun h =>
    firstRequest_key_ne (config_inj (path_inj h))
  have hne {r r' : Request} : sampleRuntime.path r.module ≠ sampleRuntime.path r'.config :=
    fun h => module_ne_config (path_inj h)
  have hparses : ∀ code, sampleRuntime.parses code = true := fun _ => rfl
  constructor
  all_goals
    simp [Machine.started, bothSpawned, firstSpawned, Machine.spawned, Machine.setFile,
      Machine.setWorker, Function.update_of_ne hne, Function.update_of_ne hne.symm,
      Function.update_of_ne hmodules, Function.update_of_ne hconfigs, hparses]

def firstWaiting : Execution := firstRequest.waiting [65] "workerd_20" 11020
def secondWaiting : Execution := secondRequest.waiting [66] "workerd_21" 11021

def firstAnswered : Execution :=
  { firstWaiting with stage := .leave, output := some (answered [65, 1]) }
def secondAnswered : Execution :=
  { secondWaiting with stage := .leave, output := some (answered [66, 2]) }

theorem first_spawns : Run (Interleave.Alone (JobTask.Step sampleRuntime)) (sampleStart, .new)
    [none, none, some (.reserve "workerd_20"), none, none, some (.spawn "workerd_20")]
    (firstSpawned, .exec firstWaiting) := by
  have hanswer : sampleRuntime.answers firstRequest.codeHash
      (.ok (Workerd.Sample.response (Workerd.saveCalldata [65]))) := by
    simp [sampleRuntime, firstRequest]
  exact spawned_run List.not_mem_nil hanswer (createCodeFile_sample (.inl rfl)) rfl (by decide)

theorem second_spawns : Run (Interleave.Alone (JobTask.Step sampleRuntime)) (firstSpawned, .new)
    [none, none, some (.reserve "workerd_21"), none, none, some (.spawn "workerd_21")]
    (bothSpawned, .exec secondWaiting) := by
  have hanswer : sampleRuntime.answers secondRequest.codeHash
      (.ok (Workerd.Sample.response (Workerd.saveCalldata [66]))) := by
    simp [sampleRuntime, secondRequest]
  have hkey : secondRequest.key ∉ firstSpawned.keys := fun h =>
    firstRequest_key_ne (List.mem_singleton.1 h).symm
  exact spawned_run hkey hanswer (createCodeFile_sample (.inr rfl)) rfl (by decide)

/-- Both workers are spawned before either reads its files, and then both jobs are answered. -/
theorem both_answered : ∃ m es, Run (Executions.Step sampleRuntime) ⟨sampleStart, []⟩ es
    ⟨m, [.exec firstAnswered, .exec secondAnswered]⟩ := by
  have hbegin : Run (Executions.Step sampleRuntime) ⟨sampleStart, []⟩ [.begin, .begin]
      ⟨sampleStart, [.new, .new]⟩ := .cons (.begin _) (.cons (.begin _) (.nil _))
  have hfirst : Run (Executions.Step sampleRuntime) ⟨sampleStart, [.new, .new]⟩ _
      ⟨firstSpawned, [.exec firstWaiting, .new]⟩ :=
    Interleave.run_alone first_spawns (i := 0) rfl
  have hsecond : Run (Executions.Step sampleRuntime) ⟨firstSpawned, [.exec firstWaiting, .new]⟩ _
      ⟨bothSpawned, [.exec firstWaiting, .exec secondWaiting]⟩ :=
    Interleave.run_alone second_spawns (i := 1) rfl
  obtain ⟨hstarted, hstarted'⟩ := bothSpawned_started
  let served : Machine := bothSpawned.setWorker "workerd_20" (some (.serving 11020 [65]))
  have hserved : served.started sampleRuntime (sampleRuntime.path secondRequest.config) =
      .serving 11021 [66] := hstarted'
  have hone : Run (Executions.Step sampleRuntime)
      ⟨bothSpawned, [.exec firstWaiting, .exec secondWaiting]⟩ _
      ⟨served, [.exec firstAnswered, .exec secondWaiting]⟩ :=
    Interleave.run_alone (answered_run rfl hstarted rfl) (i := 0) rfl
  have htwo : Run (Executions.Step sampleRuntime)
      ⟨served, [.exec firstAnswered, .exec secondWaiting]⟩ _
      ⟨served.setWorker "workerd_21" (some (.serving 11021 [66])),
        [.exec firstAnswered, .exec secondAnswered]⟩ :=
    Interleave.run_alone (answered_run rfl hserved rfl) (i := 1) rfl
  exact ⟨_, _, (((hbegin.append hfirst).append hsecond).append hone).append htwo⟩

theorem jobs_isolated_sample :
    Explained sampleRuntime firstRequest (answered [65, 1]) ∧
      Explained sampleRuntime secondRequest (answered [66, 2]) := by
  have hentries : Cgroups.getCgroups ["workerd_20", "workerd_21"] =
      ["workerd_20", "workerd_21"] := by decide
  have hnames : ∀ name ∈ Cgroups.getCgroups ["workerd_20", "workerd_21"],
      ∃ n ≤ 54535, name = workerdName n := by
    intro name hname
    rw [hentries] at hname
    rcases List.mem_pair.1 hname with rfl | rfl
    · exact ⟨20, by omega, by decide⟩
    · exact ⟨21, by omega, by decide⟩
  have hfresh : sampleStart.Fresh ["workerd_20", "workerd_21"] :=
    ⟨by rw [Cgroups.new, hentries]; rfl, rfl, rfl⟩
  obtain ⟨m, es, hrun⟩ := both_answered
  have hfirst := (jobs_isolated (by decide) hnames hfresh hrun List.mem_cons_self).1
  have hsecond := (jobs_isolated (by decide) hnames hfresh hrun
    (List.mem_cons_of_mem _ List.mem_cons_self)).1
  exact ⟨hfirst _ rfl, hsecond _ rfl⟩

end Sample

end Oyster.Executor
