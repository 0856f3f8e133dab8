import Oyster.ControlPlane.Enclave
import Oyster.ControlPlane.JobManager

namespace Oyster.ControlPlane

open Prog

/-- A `run-enclave` command, and the url of the image that it found. -/
structure Start where
  cpuCount : ℤ
  memory : ℤ
  debugMode : Bool
  image : Option String
deriving DecidableEq

structure Host where
  /-- the url that `enclave.eif` is the image of, if it is a whole image -/
  eif : Option String := none
  /-- the contents of `image_url.txt` -/
  urlFile : Option String := none
  /-- the last one first -/
  starts : List Start := []
deriving DecidableEq

def isShellMeta (c : Char) : Bool :=
  c.toNat ≤ 32 || [33, 34, 35, 36, 38, 39, 40, 41, 42, 59, 60, 62, 63, 91, 92, 93, 94, 96, 123, 124,
    125, 126].contains c.toNat

/-- A shell takes the text as it stands, and a command does not take it as an option. -/
def Plain (text : String) : Prop :=
  text.toList.all (fun c => !isShellMeta c) ∧ text.toList.head? ≠ some '-'

instance (text : String) : Decidable (Plain text) := inferInstanceAs (Decidable (_ ∧ _))

/-- What a command makes of the host. Nothing is known of a download unless `fetches`, when it
brings the image of its url. -/
def Command.Effect (fetches : Prop) : Command → Host → Host → Prop
  | .download imageUrl, h, h' =>
    ∃ image, h' = { h with eif := image } ∧ (fetches → image = some imageUrl)
  | .writeUrl imageUrl, h, h' =>
    ∃ text, h' = { h with urlFile := text } ∧ (Plain imageUrl → text = some (imageUrl ++ "\n"))
  | .runEnclave cpuCount memory debugMode, h, h' =>
    h' = { h with starts := ⟨cpuCount, memory, debugMode, h.eif⟩ :: h.starts }
  | .readUrl, h, h' | .terminateEnclave, h, h' | .other _, h, h' => h' = h

/-- What `cat` prints. -/
def Host.Reads (h : Host) (stdout stderr : String) : Prop :=
  match h.urlFile with
  | none => stderr ≠ ""
  | some text => stdout = text ∧ stderr = ""

/-- A session with the host. A command that reports an error may have run or not. -/
def hostEnv (fetches : Prop) : Env SshOp SshAns Host
  | .exec command, h, x, h' => (x = none ∧ h' = h) ∨ command.Effect fetches h h' ∧
      ∀ stdout stderr, command = .readUrl → x = some (stdout, stderr) → h.Reads stdout stderr
  | .getInstanceIp .., h, _, h' => h' = h
  | .connect _, h, _, h' => h' = h

section Session

variable {fetches : Prop} {α β : Type} {post : Option β → Host → Prop} {h : Host}

def Silent (fetches : Prop) (p : SshProg α) : Prop :=
  ∀ h, p.run.wp (hostEnv fetches) (fun _ _ => True) (fun _ h' => h' = h) h

theorem Silent.wp_bind {x : SshProg α} {f : α → SshProg β} (hx : Silent fetches x)
    (hnone : post none h)
    (hf : ∀ a, (f a).run.wp (hostEnv fetches) (fun _ _ => True) post h) :
    (x >>= f).run.wp (hostEnv fetches) (fun _ _ => True) post h := by
  rw [wp_run_bind]
  apply wp_mono (fun _ _ h => h) _ (hx h)
  intro a h' hh
  subst hh
  cases a with
  | none => exact hnone
  | some a => exact hf a

theorem Silent.pure (a : α) : Silent fetches (Pure.pure a : SshProg α) := fun _ => rfl

theorem Silent.failure : Silent fetches (failure : SshProg α) := fun _ => rfl

theorem Silent.bind {x : SshProg α} {f : α → SshProg β} (hx : Silent fetches x)
    (hf : ∀ a, Silent fetches (f a)) : Silent fetches (x >>= f) :=
  fun h => hx.wp_bind rfl fun a => hf a h

theorem Silent.exec {command : Command} (hc : ∀ h h', command.Effect fetches h h' → h' = h) :
    Silent fetches (sshExec command) := by
  intro h
  refine ⟨trivial, fun x h' hx => ?_⟩
  rcases hx with ⟨-, hx⟩ | ⟨hx, -⟩
  · exact hx
  · exact hc h h' hx

theorem Silent.other (text : String) : Silent fetches (sshExec (.other text)) :=
  .exec fun _ _ h => h

theorem Silent.sshQuiet {command : Command} (hc : ∀ h h', command.Effect fetches h h' → h' = h) :
    Silent fetches (sshQuiet command) := by
  apply Silent.bind (.exec hc)
  intro out
  dsimp only
  split
  · exact .failure
  · exact .pure ()

theorem Silent.readUrl : Silent fetches (sshExec .readUrl) := .exec fun _ _ h => h

theorem Silent.terminateEnclave : Silent fetches (ControlPlane.sshQuiet .terminateEnclave) :=
  .sshQuiet fun _ _ h => h

theorem Silent.sshQuery (text : String) : Silent fetches (sshQuery (.other text)) := by
  apply Silent.bind (.other text)
  intro out
  dsimp only
  split
  · exact .failure
  · exact .pure _

theorem Silent.quiet (text : String) : Silent fetches (ControlPlane.sshQuiet (.other text)) :=
  .sshQuiet fun _ _ h => h

theorem Silent.connect (instanceId region : String) :
    Silent fetches (Enclave.connect instanceId region) :=
  .bind (fun _ => ⟨trivial, fun _ _ h => h⟩) fun _ _ => ⟨trivial, fun _ _ h => h⟩

theorem Silent.check (l : EifLists) : Silent fetches (Enclave.checkEifBlacklistWhitelist l) := by
  unfold Enclave.checkEifBlacklistWhitelist
  split
  · apply Silent.bind (.other _)
    intro out
    dsimp only
    split
    · exact .failure
    · split
      · exact .failure
      · exact .pure _
  · exact .pure _

theorem Silent.setUpAllocator (reqVcpu reqMem : ℤ) :
    Silent fetches (Enclave.setUpAllocator reqVcpu reqMem) := by
  apply Silent.bind (.other _)
  intro out
  exact .quiet _

theorem Silent.limitBandwidth (bandwidth : ℕ) :
    Silent fetches (Enclave.limitBandwidth bandwidth) := by
  apply Silent.bind (.sshQuery _)
  intro stdout
  split
  · exact .failure
  · apply Silent.bind (.sshQuery _)
    intro stdout
    split
    · exact .bind (.quiet _) fun _ => .quiet _
    · exact .quiet _

theorem Silent.addRules (query policy : String) (rules : List (String × String)) :
    Silent fetches (Enclave.addRules query policy rules) := by
  apply Silent.bind (.sshQuery _)
  intro stdout
  split
  · exact .failure
  · induction rules with
    | nil => exact .pure _
    | cons rule rules ih =>
      obtain ⟨rule, command⟩ := rule
      rw [List.forM_eq_forM, List.forM_cons]
      apply Silent.bind _ fun _ => ih
      dsimp only
      split
      · exact .pure _
      · exact .quiet _

theorem Silent.setUpLogger (debug : Bool) : Silent fetches (Enclave.setUpLogger debug) := by
  unfold Enclave.setUpLogger
  split
  · exact .bind (.quiet _) fun _ => .bind (.quiet _) fun _ => .quiet _
  · exact .pure _

theorem exec_wp {command : Command} {f : String × String → SshProg β}
    (hnone : post none h) (hfailed : ∀ h', command.Effect fetches h h' → post none h')
    (hf : ∀ out h', command.Effect fetches h h' →
      (command = .readUrl → h.Reads out.1 out.2) →
      (f out).run.wp (hostEnv fetches) (fun _ _ => True) post h') :
    (sshExec command >>= f).run.wp (hostEnv fetches) (fun _ _ => True) post h := by
  rw [wp_run_bind]
  refine ⟨trivial, fun x h' hx => ?_⟩
  cases x with
  | none =>
    rcases hx with ⟨-, hh⟩ | ⟨heff, -⟩
    · rw [hh]
      exact hnone
    · exact hfailed h' heff
  | some out =>
    rcases hx with ⟨hx, -⟩ | ⟨heff, hreads⟩
    · simp at hx
    · exact hf out h' heff fun hc => hreads out.1 out.2 hc rfl

structure Replaced (fetches : Prop) (imageUrl : String) (h : Host) (r : Option Unit)
    (h' : Host) : Prop where
  starts : h'.starts = h.starts
  marker : h'.urlFile = h.urlFile ∨ (Plain imageUrl → h'.urlFile = some (imageUrl ++ "\n"))
  image : r = some () → fetches → h'.eif = some imageUrl

theorem downloadImage_wp (l : EifLists) (imageUrl : String) :
    (Enclave.downloadImage l imageUrl).run.wp (hostEnv fetches) (fun _ _ => True)
      (Replaced fetches imageUrl h) h := by
  have hfail : ∀ h', Command.Effect fetches (.download imageUrl) h h' →
      Replaced fetches imageUrl h none h' := by
    rintro h' ⟨image, rfl, -⟩
    exact ⟨rfl, .inl rfl, nofun⟩
  apply exec_wp ⟨rfl, .inl rfl, nofun⟩ hfail
  intro out h₁ heff _
  apply (Silent.check l).wp_bind (hfail h₁ heff)
  intro isEifAllowed
  obtain ⟨image, rfl, himage⟩ := heff
  cases isEifAllowed with
  | false => exact ⟨rfl, .inl rfl, nofun⟩
  | true =>
    apply exec_wp ⟨rfl, .inl rfl, nofun⟩
    · rintro h' ⟨text, rfl, htext⟩
      exact ⟨rfl, .inr htext, nofun⟩
    · rintro out' h' ⟨text, rfl, htext⟩ _
      exact ⟨rfl, .inr htext, fun _ => himage⟩

/-- What a session does to the host: it replaces the image, and it starts the enclave or not. -/
structure Started (fetches : Prop) (imageUrl : String) (cpuCount memory : ℤ) (debugMode : Bool)
    (h h' : Host) : Prop where
  marker : h'.urlFile = h.urlFile ∨ (Plain imageUrl → h'.urlFile = some (imageUrl ++ "\n"))
  starts : h'.starts = h.starts ∨ ∃ image, (fetches → image = some imageUrl) ∧
    h'.starts = ⟨cpuCount, memory, debugMode, image⟩ :: h.starts

variable {imageUrl : String} {reqVcpu reqMem : ℤ} {debugMode : Bool}

theorem Started.refl (h : Host) : Started fetches imageUrl reqVcpu reqMem debugMode h h :=
  ⟨.inl rfl, .inl rfl⟩

theorem Replaced.started {r : Option Unit} {h' : Host} (hr : Replaced fetches imageUrl h r h') :
    Started fetches imageUrl reqVcpu reqMem debugMode h h' :=
  ⟨hr.marker, .inl hr.starts⟩

theorem startEnclave_wp {h₀ : Host} (hr : Replaced fetches imageUrl h₀ (some ()) h) :
    (Enclave.startEnclave reqVcpu reqMem debugMode).run.wp (hostEnv fetches) (fun _ _ => True)
      (fun _ h' => Started fetches imageUrl reqVcpu reqMem debugMode h₀ h') h := by
  have hstart : ∀ h', Command.Effect fetches (.runEnclave reqVcpu reqMem debugMode) h h' →
      Started fetches imageUrl reqVcpu reqMem debugMode h₀ h' := by
    intro h' heff
    rw [show h' = _ from heff]
    refine ⟨hr.marker, .inr ⟨h.eif, hr.image rfl, ?_⟩⟩
    rw [← hr.starts]
  apply exec_wp hr.started hstart
  intro out h' heff _
  dsimp only
  split
  · exact hstart h' heff
  · exact hstart h' heff

theorem downloadImage_then {l : EifLists} {f : Unit → SshProg Unit}
    (hf : ∀ h₁, Replaced fetches imageUrl h (some ()) h₁ →
      (f ()).run.wp (hostEnv fetches) (fun _ _ => True)
        (fun _ h' => Started fetches imageUrl reqVcpu reqMem debugMode h h') h₁) :
    (Enclave.downloadImage l imageUrl >>= f).run.wp (hostEnv fetches) (fun _ _ => True)
      (fun _ h' => Started fetches imageUrl reqVcpu reqMem debugMode h h') h := by
  rw [wp_run_bind]
  apply wp_mono (fun _ _ h => h) _ (downloadImage_wp l imageUrl)
  intro r h₁ hr
  cases r with
  | none => exact hr.started
  | some _ => exact hf h₁ hr

theorem runEnclaveSalmon_wp (l : EifLists) (instanceId region : String) (bandwidth : ℕ) :
    (Enclave.runEnclaveSalmon l instanceId region imageUrl reqVcpu reqMem bandwidth
        debugMode).run.wp (hostEnv fetches) (fun _ _ => True)
      (fun _ h' => Started fetches imageUrl reqVcpu reqMem debugMode h h') h := by
  apply (Silent.connect instanceId region).wp_bind (.refl h)
  intro _
  apply (Silent.setUpAllocator reqVcpu reqMem).wp_bind (.refl h)
  intro _
  apply downloadImage_then
  intro h₁ hr
  apply (Silent.limitBandwidth bandwidth).wp_bind hr.started
  intro _
  apply (Silent.addRules _ _ _).wp_bind hr.started
  intro _
  apply (Silent.setUpLogger debugMode).wp_bind hr.started
  intro _
  exact startEnclave_wp hr

theorem runEnclaveTuna_wp (l : EifLists) (jobId instanceId region : String) (bandwidth : ℕ) :
    (Enclave.runEnclaveTuna l jobId instanceId region imageUrl reqVcpu reqMem bandwidth
        debugMode).run.wp (hostEnv fetches) (fun _ _ => True)
      (fun _ h' => Started fetches imageUrl reqVcpu reqMem debugMode h h') h := by
  apply (Silent.connect instanceId region).wp_bind (.refl h)
  intro _
  apply (Silent.quiet _).wp_bind (.refl h)
  intro _
  apply (Silent.setUpAllocator reqVcpu reqMem).wp_bind (.refl h)
  intro _
  apply downloadImage_then
  intro h₁ hr
  apply (Silent.limitBandwidth bandwidth).wp_bind hr.started
  intro _
  apply (Silent.addRules _ _ _).wp_bind hr.started
  intro _
  apply (Silent.quiet _).wp_bind hr.started
  intro _
  apply (Silent.quiet _).wp_bind hr.started
  intro _
  apply (Silent.setUpLogger debugMode).wp_bind hr.started
  intro _
  exact startEnclave_wp hr

theorem runEnclaveImpl_wp (l : EifLists) (jobId family instanceId region : String)
    (bandwidth : ℕ) :
    (Enclave.runEnclaveImpl l jobId family instanceId region imageUrl reqVcpu reqMem bandwidth
        debugMode).run.wp (hostEnv fetches) (fun _ _ => True)
      (fun _ h' => Started fetches imageUrl reqVcpu reqMem debugMode h h') h := by
  unfold Enclave.runEnclaveImpl
  split_ifs
  · exact runEnclaveSalmon_wp l instanceId region bandwidth
  · exact runEnclaveTuna_wp l jobId instanceId region bandwidth
  · exact .refl h

/-- An update starts the enclave without the debug mode. -/
theorem updateEnclaveImageImpl_wp (l : EifLists) (instanceId region : String) :
    (Enclave.updateEnclaveImageImpl l instanceId region imageUrl reqVcpu reqMem).run.wp
      (hostEnv fetches) (fun _ _ => True)
      (fun _ h' => Started fetches imageUrl reqVcpu reqMem false h h') h := by
  apply (Silent.connect instanceId region).wp_bind (.refl h)
  intro _
  apply Silent.readUrl.wp_bind (.refl h)
  intro out
  dsimp only
  split
  · exact .refl h
  · apply downloadImage_then
    intro h₁ hr
    apply Silent.terminateEnclave.wp_bind hr.started
    intro _
    exact startEnclave_wp hr

/-- Some session ends so. -/
def Ends (fetches : Prop) (p : SshProg α) (h : Host) (r : Option α) (h' : Host) : Prop :=
  ∃ t, Exec (hostEnv fetches) p.run h t r h'

theorem Ends.pure (a : α) (h : Host) : Ends fetches (Pure.pure a : SshProg α) h (some a) h :=
  ⟨[], .ret _ _⟩

theorem Ends.bind {x : SshProg α} {f : α → SshProg β} {a : α} {h₁ h' : Host} {r : Option β}
    (hx : Ends fetches x h (some a) h₁) (hf : Ends fetches (f a) h₁ r h') :
    Ends fetches (x >>= f) h r h' := by
  obtain ⟨t, hx⟩ := hx
  obtain ⟨t', hf⟩ := hf
  exact ⟨t ++ t', hx.run_bind hf⟩

theorem Ends.exec {command : Command} {h' : Host} (out : String × String)
    (heff : command.Effect fetches h h') (hreads : command = .readUrl → h.Reads out.1 out.2) :
    Ends fetches (sshExec command) h (some out) h' := by
  refine ⟨_, .call (.inr ⟨heff, ?_⟩) (.ret _ _)⟩
  rintro stdout stderr hc ⟨⟩
  exact hreads hc

theorem Ends.sshQuiet {command : Command} {h' : Host} (heff : command.Effect fetches h h')
    (hc : command ≠ .readUrl) : Ends fetches (sshQuiet command) h (some ()) h' :=
  .bind (.exec ("", "") heff fun h => absurd h hc) (.pure () h')

theorem Ends.connect (instanceId region : String) (h : Host) :
    Ends fetches (Enclave.connect instanceId region) h (some ()) h :=
  .bind ⟨_, .call (x := some "") rfl (.ret _ _)⟩ ⟨_, .call (x := some ()) rfl (.ret _ _)⟩

theorem Ends.update (instanceId region eifUrl : String) (reqVcpu reqMem : ℤ) (out : String × String)
    (hreads : h.Reads out.1 out.2) (hne : ¬(out.2 = "" ∧ out.1 = eifUrl)) :
    Ends fetches
      (Enclave.updateEnclaveImageImpl ⟨none, none⟩ instanceId region eifUrl reqVcpu reqMem)
      h (some ()) ⟨some eifUrl, some (eifUrl ++ "\n"),
        ⟨reqVcpu, reqMem, false, some eifUrl⟩ :: h.starts⟩ := by
  have hdownload : Ends fetches (Enclave.downloadImage ⟨none, none⟩ eifUrl) h (some ())
      { h with eif := some eifUrl, urlFile := some (eifUrl ++ "\n") } := by
    have hfetch : Command.Effect fetches (.download eifUrl) h { h with eif := some eifUrl } :=
      ⟨_, rfl, fun _ => rfl⟩
    have hwrite : Command.Effect fetches (.writeUrl eifUrl) { h with eif := some eifUrl }
        { h with eif := some eifUrl, urlFile := some (eifUrl ++ "\n") } := ⟨_, rfl, fun _ => rfl⟩
    have hallowed : Ends fetches (Enclave.checkEifBlacklistWhitelist ⟨none, none⟩)
        { h with eif := some eifUrl } (some true) { h with eif := some eifUrl } := .pure true _
    exact .bind (.exec ("", "") hfetch nofun) (.bind hallowed
      (.bind (.exec ("", "") hwrite nofun) (.pure () _)))
  have hstart : ∀ h₁ : Host, Ends fetches (Enclave.startEnclave reqVcpu reqMem false) h₁ (some ())
      { h₁ with starts := ⟨reqVcpu, reqMem, false, h₁.eif⟩ :: h₁.starts } := by
    intro h₁
    have hrun : Command.Effect fetches (.runEnclave reqVcpu reqMem false) h₁
        { h₁ with starts := ⟨reqVcpu, reqMem, false, h₁.eif⟩ :: h₁.starts } := rfl
    exact .bind (.exec ("", "") hrun nofun) (.pure () _)
  have hread : Command.Effect fetches .readUrl h h := rfl
  have hterminate : ∀ h₁, Command.Effect fetches .terminateEnclave h₁ h₁ := fun _ => rfl
  apply Ends.bind (.connect instanceId region h)
  apply Ends.bind (.exec out hread fun _ => hreads)
  dsimp only
  rw [if_neg hne]
  exact .bind hdownload (.bind (.sshQuiet (hterminate _) nofun) (hstart _))

end Session

/-- The hosts of the instances of a job, by the id of the instance. -/
abbrev Hosts := String → Host

/-- EC2 with a session behind each operation that starts an enclave. An instance is launched
without an image. -/
def ec2HostEnv (l : EifLists) (fetches : Prop) : Env Ec2Op Ec2Ans Hosts
  | .sshRunEnclave job id family region imageUrl reqVcpu reqMem bandwidth debug, w, x, w' =>
    ∃ t h', Exec (hostEnv fetches) (Enclave.runEnclaveImpl l job.id family id region imageUrl
      reqVcpu reqMem bandwidth debug).run (w id) t x h' ∧ w' = Function.update w id h'
  | .sshUpdateEnclave id region eifUrl reqVcpu reqMem, w, x, w' =>
    ∃ t h', Exec (hostEnv fetches) (Enclave.updateEnclaveImageImpl l id region eifUrl reqVcpu
      reqMem).run (w id) t x h' ∧ w' = Function.update w id h'
  | .runInstances .., w, _, w' =>
    ∀ id, w' id = w id ∨ w' id = { w id with eif := none, urlFile := none }
  | _, w, _, w' => w' = w

/-- The `InfraProvider` of `aws.rs` over the hosts. -/
def awsHostEnv (l : EifLists) (fetches : Prop) : Env ProviderOp ProviderAns Hosts :=
  fun op w x w' => ∃ t, Exec (ec2HostEnv l fetches) (aws op) w t x w'

def Ec2Op.isSession : Ec2Op → Bool
  | sshRunEnclave .. | sshUpdateEnclave .. => true
  | _ => false

section Calls

variable {α β : Type}

def NoSession (p : AwsProg α) : Prop := p.run.Calls fun op => op.isSession = false

theorem NoSession.pure (a : α) : NoSession (Pure.pure a : AwsProg α) := trivial

theorem NoSession.failure : NoSession (failure : AwsProg α) := trivial

theorem NoSession.okOr (x : Option α) : NoSession (okOr x) := trivial

theorem NoSession.ec2 {op : Ec2Op} (h : op.isSession = false) : NoSession (ec2 op) :=
  ⟨h, fun _ => trivial⟩

theorem NoSession.bind {x : AwsProg α} {f : α → AwsProg β} (hx : NoSession x)
    (hf : ∀ a, NoSession (f a)) : NoSession (x >>= f) :=
  Calls.run_bind hx hf

theorem NoSession.of_reads {p : AwsProg α} (h : Aws.Reads p) : NoSession p := by
  apply Calls.mono _ h
  intro op hop
  cases op <;> first | rfl | cases hop

theorem NoSession.launchInstance (job : JobId) (instanceType family architecture region : String) :
    NoSession (Aws.launchInstance job instanceType family architecture region) :=
  .bind (.of_reads (Aws.reads_launchInputs family architecture region)) fun _ =>
    .bind (.ec2 rfl) fun _ => .bind (.okOr _) .okOr

theorem NoSession.whenExists {exist : Bool} {p : AwsProg Unit} (h : NoSession p) :
    NoSession (whenExists exist p) := by
  cases exist with
  | true => exact h
  | false => exact .pure _

theorem NoSession.spinDownInstance (id : String) (job : JobId) (region : String) :
    NoSession (Aws.spinDownInstance id job region) := by
  have hrelease : NoSession (Aws.releaseAddresses id job region) :=
    .bind (.of_reads (Aws.reads_getInstanceElasticIp id region)) fun _ =>
      .bind (.whenExists (.ec2 rfl)) fun _ =>
        .bind (.of_reads (Aws.reads_getJobElasticIp job region)) fun _ => .whenExists (.ec2 rfl)
  exact .bind hrelease fun _ => .ec2 rfl

theorem NoSession.postSpinUp (job : JobId) (inst region : String) :
    NoSession (Aws.postSpinUp job inst region) := by
  have hallocate : NoSession (Aws.allocateIpAddr job region) := by
    apply NoSession.bind (.of_reads (Aws.reads_getJobElasticIp job region))
    intro found
    obtain ⟨exist, allocId, publicIp⟩ := found
    cases exist with
    | true => exact .pure _
    | false =>
      exact .bind (.ec2 rfl) fun _ => .bind (.okOr _) fun _ => .bind (.okOr _) fun _ => .pure _
  exact .bind hallocate fun _ => .ec2 rfl

theorem NoSession.spinUpInstance (job : JobId) (instanceType family region : String)
    (reqMem reqVcpu : ℤ) :
    NoSession (Aws.spinUpInstance job instanceType family region reqMem reqVcpu) := by
  apply NoSession.bind (.ec2 rfl)
  intro resp
  apply NoSession.bind (.okOr _)
  intro found
  obtain ⟨architecture, vCpus, mem⟩ := found
  dsimp only
  split
  · exact .failure
  · apply NoSession.bind (.launchInstance job instanceType family architecture region)
    intro inst
    apply NoSession.bind
    · apply Calls.bind (NoSession.postSpinUp job inst region)
      exact fun _ => trivial
    · intro done
      cases done with
      | some _ => exact .pure _
      | none => exact .bind (.spinDownInstance inst job region) fun _ => .failure

def ProviderOp.isSession : ProviderOp → Bool
  | runEnclave .. | updateEnclaveImage .. => true
  | _ => false

theorem aws_calls {op : ProviderOp} (h : op.isSession = false) :
    (aws op).Calls fun op => op.isSession = false := by
  cases op with
  | spinUp job instanceType family region reqMem reqVcpu =>
    exact NoSession.spinUpInstance job instanceType family region reqMem reqVcpu
  | spinDown id job region => exact NoSession.spinDownInstance id job region
  | getJobInstance job region => exact NoSession.of_reads (Aws.reads_getJobInstanceId job region)
  | checkInstanceRunning id region =>
    exact NoSession.bind (.of_reads (Aws.reads_getInstanceState id region)) fun _ => .pure _
  | checkEnclaveRunning id region => exact NoSession.bind (.ec2 rfl) fun _ => .pure _
  | runEnclave => simp [ProviderOp.isSession] at h
  | updateEnclaveImage => simp [ProviderOp.isSession] at h

end Calls

/-- The start is the one that the job asks for. -/
def JobState.Agrees (s : JobState) (st : Start) : Prop :=
  st = ⟨s.reqVcpus, s.reqMem, s.debug, some s.eifUrl⟩

/-- What comes before the starts so far agrees with the job. -/
def JobState.Issued (s : JobState) (starts starts' : List Start) : Prop :=
  ∃ new, starts' = new ++ starts ∧ ∀ st ∈ new, s.Agrees st

/-- An operation that starts an enclave is given the fields of the job. -/
def JobState.Asks (s : JobState) : ProviderOp → Prop
  | .runEnclave _ _ _ _ imageUrl reqVcpu reqMem _ debug =>
    imageUrl = s.eifUrl ∧ reqVcpu = s.reqVcpus ∧ reqMem = s.reqMem ∧ debug = s.debug
  | .updateEnclaveImage _ _ eifUrl reqVcpu reqMem =>
    eifUrl = s.eifUrl ∧ reqVcpu = s.reqVcpus ∧ reqMem = s.reqMem
  | _ => True

def ProviderOp.isUpdate : ProviderOp → Bool
  | updateEnclaveImage .. => true
  | _ => false

/-- No image of a debugged job is updated in place. -/
def NoDebugUpdate {σ : Type} (m : Manager σ) (e : Label σ) : Prop :=
  m.state.debug = true → ∀ c ∈ e.calls, c.op.isUpdate = false

namespace JobState

variable {s : JobState}

theorem Issued.refl (starts : List Start) : s.Issued starts starts := ⟨[], rfl, nofun⟩

theorem Issued.trans {a b c : List Start} (h : s.Issued a b) (h' : s.Issued b c) :
    s.Issued a c := by
  obtain ⟨new, rfl, hnew⟩ := h
  obtain ⟨new', rfl, hnew'⟩ := h'
  refine ⟨new' ++ new, (List.append_assoc _ _ _).symm, ?_⟩
  intro st hst
  rcases List.mem_append.1 hst with hst | hst
  · exact hnew' st hst
  · exact hnew st hst

theorem Issued.of_started {debugMode : Bool} {h h' : Host} (hdebug : debugMode = s.debug)
    (hst : Started True s.eifUrl s.reqVcpus s.reqMem debugMode h h') :
    s.Issued h.starts h'.starts := by
  rcases hst.starts with heq | ⟨image, himage, heq⟩
  · rw [heq]
    exact .refl _
  · refine ⟨[⟨s.reqVcpus, s.reqMem, debugMode, image⟩], heq, ?_⟩
    intro st hmem
    rw [List.mem_singleton.1 hmem, himage trivial, hdebug]
    rfl

theorem launchNew_calls (s : JobState) : s.launchNew.Calls s.Asks := by
  refine ⟨trivial, fun x => ?_⟩
  cases x with
  | none => trivial
  | some inst => exact ⟨⟨rfl, rfl, rfl, rfl⟩, fun _ => trivial⟩

theorem useExisting_calls (s : JobState) (inst : String) : (s.useExisting inst).Calls s.Asks := by
  unfold useExisting
  dsimp only
  split
  · refine ⟨⟨rfl, rfl, rfl⟩, fun x => ?_⟩
    cases x <;> trivial
  · trivial

theorem launchMode_calls (s : JobState) (exist : Bool) (inst state : String) :
    (s.launchMode exist inst state).Calls s.Asks := by
  unfold launchMode
  split_ifs
  · exact s.useExisting_calls inst
  · refine ⟨trivial, fun x => ?_⟩
    cases x with
    | none => trivial
    | some _ => exact s.launchNew_calls
  · exact s.launchNew_calls
  · exact s.launchNew_calls

theorem terminateMode_calls (s : JobState) (exist : Bool) (inst state : String) :
    (s.terminateMode exist inst state).Calls s.Asks := by
  unfold terminateMode
  split
  · trivial
  · refine ⟨trivial, fun x => ?_⟩
    cases x <;> trivial

theorem changeInfra_calls (s : JobState) (now : Instant) : (s.changeInfra now).Calls s.Asks := by
  have himpl : s.changeInfraImpl.Calls s.Asks := by
    unfold changeInfraImpl
    rw [provider_bind]
    refine ⟨trivial, fun x => ?_⟩
    match x with
    | none => trivial
    | some (exist, inst, state) =>
      cases hs : s.infraState with
      | true => exact s.launchMode_calls exist inst state
      | false => exact s.terminateMode_calls exist inst state
  unfold changeInfra
  apply himpl.bind
  exact fun _ => trivial

theorem heartbeatCheck_calls (s : JobState) (now : Instant) :
    (s.heartbeatCheck now).Calls s.Asks := by
  refine ⟨trivial, fun x => ?_⟩
  match x with
  | none => trivial
  | some true =>
    refine ⟨trivial, fun y => ?_⟩
    match y with
    | none => trivial
    | some true => trivial
    | some false => exact ⟨⟨rfl, rfl, rfl, rfl⟩, fun _ => trivial⟩
  | some false =>
    dsimp only
    split
    · trivial
    · trivial

end JobState

section Steps

variable {l : EifLists} {market : Market} {m m' : Manager Hosts} {e : Label Hosts}

theorem starts_eq {op : ProviderOp} {w w' : Hosts} {x : ProviderAns op} {fetches : Prop}
    (hop : op.isSession = false) (h : awsHostEnv l fetches op w x w') (id : String) :
    (w' id).starts = (w id).starts := by
  have hstep : ∀ op w₁ x w₂, op.isSession = false → ec2HostEnv l fetches op w₁ x w₂ →
      (w₁ id).starts = (w id).starts → (w₂ id).starts = (w id).starts := by
    intro op w₁ x w₂ hop hx hw
    cases op with
    | runInstances =>
      rcases hx id with hid | hid
      · rw [hid, hw]
      · rw [hid, hw]
    | sshRunEnclave => simp [Ec2Op.isSession] at hop
    | sshUpdateEnclave => simp [Ec2Op.isSession] at hop
    | _ =>
      rw [show w₂ = w₁ from hx]
      exact hw
  obtain ⟨t, h⟩ := h
  exact (h.invariant hstep (h.calls (aws_calls hop)) rfl).2

theorem issued_update {s : JobState} {w : Hosts} {id : String} {h' : Host}
    (h : s.Issued (w id).starts h'.starts) (i : String) :
    s.Issued (w i).starts (Function.update w id h' i).starts := by
  by_cases hi : i = id
  · subst hi
    rw [Function.update_self]
    exact h
  · rw [Function.update_of_ne hi]
    exact .refl _

theorem issued_of_call {s : JobState} {op : ProviderOp} {w w' : Hosts} {x : ProviderAns op}
    (hask : s.Asks op) (hupdate : op.isUpdate = true → s.debug = false)
    (h : awsHostEnv l True op w x w') (i : String) : s.Issued (w i).starts (w' i).starts := by
  cases op with
  | runEnclave job id family region imageUrl reqVcpu reqMem bandwidth debug =>
    obtain ⟨rfl, rfl, rfl, rfl⟩ := hask
    obtain ⟨t, h⟩ := h
    cases h with
    | call hop h =>
      cases h
      obtain ⟨t', h', hx, rfl⟩ := hop
      exact issued_update (.of_started rfl (hx.sound (runEnclaveImpl_wp ..)).2) i
  | updateEnclaveImage id region eifUrl reqVcpu reqMem =>
    obtain ⟨rfl, rfl, rfl⟩ := hask
    obtain ⟨t, h⟩ := h
    cases h with
    | call hop h =>
      cases h
      obtain ⟨t', h', hx, rfl⟩ := hop
      exact issued_update (.of_started (hupdate rfl).symm
        (hx.sound (updateEnclaveImageImpl_wp ..)).2) i
  | _ =>
    rw [starts_eq rfl h i]
    exact .refl _

theorem issued_of_exec {s : JobState} {α : Type} {p : ProviderProg α} {w w' : Hosts}
    {t : List (ProviderEvent Hosts)} {r : α} (hp : p.Calls s.Asks)
    (hupdate : s.debug = true → ∀ c ∈ t, c.op.isUpdate = false)
    (h : Exec (awsHostEnv l True) p w t r w') (i : String) :
    s.Issued (w i).starts (w' i).starts := by
  have hstep : ∀ op w₁ x w₂, s.Asks op ∧ (op.isUpdate = true → s.debug = false) →
      awsHostEnv l True op w₁ x w₂ → s.Issued (w i).starts (w₁ i).starts →
      s.Issued (w i).starts (w₂ i).starts :=
    fun _ _ _ _ hop hx hw => hw.trans (issued_of_call hop.1 hop.2 hx i)
  apply (h.invariant hstep _ (.refl _)).2
  intro c hc
  refine ⟨h.calls hp c hc, ?_⟩
  intro hop
  by_contra hdebug
  have hnot := hupdate (by simpa using hdebug) c hc
  simp [hop] at hnot

/-- Whatever a step of the manager starts agrees with the job as the step finds it. -/
theorem step_issued (hc : NoDebugUpdate m e) (h : Step market (awsHostEnv l True) m e m')
    (i : String) : m.state.Issued (m.world i).starts (m'.world i).starts := by
  cases h with
  | log log now hrun =>
    rw [Manager.afterLog_world]
    exact .refl _
  | heartbeat hrun hid hx =>
    rw [Manager.afterState_world]
    exact issued_of_exec (JobState.heartbeatCheck_calls _ _) hc hx i
  | insolvency now hrun hon =>
    rw [Manager.afterState_world]
    exact .refl _
  | infraChange hrun hsched hx =>
    rw [Manager.afterInfraChange_world]
    exact issued_of_exec (JobState.changeInfra_calls _ _) hc hx i

/-- The last start on an instance was issued by some step of the run, as the job that this step
found asks for it. -/
def LastAgrees (l : EifLists) (market : Market) (m : Manager Hosts) (es : List (Label Hosts))
    (m' : Manager Hosts) (i : String) : Prop :=
  ∃ es₁ e es₂ m₁ m₂ st rest, es = es₁ ++ e :: es₂ ∧
    Run (Step market (awsHostEnv l True)) m es₁ m₁ ∧ Step market (awsHostEnv l True) m₁ e m₂ ∧
    Run (Step market (awsHostEnv l True)) m₂ es₂ m' ∧ (m'.world i).starts = st :: rest ∧
    (m₂.world i).starts = st :: rest ∧ (m₁.world i).starts <:+ rest ∧ m₁.state.Agrees st

/-- In a run that updates no image of a debugged job, and whose downloads bring their images,
every enclave is started as the job asks. Where a debugged job is updated, nothing that is started
agrees. -/
theorem starts_agree (l : EifLists) (market : Market) :
    (∀ m es m' i, Along (Step market (awsHostEnv l True)) NoDebugUpdate m es m' →
      (m'.world i).starts = (m.world i).starts ∨ LastAgrees l market m es m' i) ∧
    ∀ (s : JobState) id fetches w x w' i st, s.debug = true →
      awsHostEnv l fetches (.updateEnclaveImage id s.region s.eifUrl s.reqVcpus s.reqMem) w x w' →
      (w' i).starts = st :: (w i).starts → ¬s.Agrees st := by
  constructor
  · intro m es m' i h
    induction h with
    | nil m => exact .inl rfl
    | @cons m m₁ m' e es hc hs hes ih =>
      rcases ih with heq | ⟨es₁, e', es₂, m₂, m₃, st, rest, rfl, h₁, hs', h₂, hst, hst', hrest, hag⟩
      · -- the step at the head is the last one that may have started an enclave
        obtain ⟨new, hnew, hagree⟩ := step_issued hc hs i
        cases new with
        | nil => exact .inl (heq.trans hnew)
        | cons st new =>
          refine .inr ⟨[], e, es, m, m₁, st, new ++ (m.world i).starts, rfl, .nil m, hs, hes.run,
            heq.trans hnew, hnew, List.suffix_append _ _, ?_⟩
          exact hagree st List.mem_cons_self
      · exact .inr ⟨e :: es₁, e', es₂, m₂, m₃, st, rest, rfl, .cons hs h₁, hs', h₂, hst, hst',
          hrest, hag⟩
  · rintro s id fetches w x w' i st hdebug ⟨t, h⟩ hst hag
    cases h with
    | call hop h =>
      cases h
      obtain ⟨t', h', hx, rfl⟩ := hop
      by_cases hi : i = id
      · subst hi
        rw [Function.update_self] at hst
        rcases (hx.sound (updateEnclaveImageImpl_wp ..)).2.starts with heq | ⟨image, -, heq⟩
        · have hlen := congrArg List.length (heq.symm.trans hst)
          simp at hlen
        · rw [heq] at hst
          injection hst with hst
          rw [← hst] at hag
          have hfalse := congrArg Start.debugMode hag
          rw [hdebug] at hfalse
          simp at hfalse
      · rw [Function.update_of_ne hi] at hst
        have hlen := congrArg List.length hst
        simp at hlen

end Steps

namespace Sample

def updating (debug : Bool) : JobState :=
  { opened with debug := debug, eifUrl := updatedUrl, eifUpdate := true, instanceId := "i-1" }

def hosts (debug : Bool) : Hosts := fun _ =>
  { eif := some url, urlFile := some (url ++ "\n"), starts := [⟨2, 4096, debug, some url⟩] }

def imageUpdateManager (debug : Bool) : Manager Hosts := ⟨updating debug, hosts debug, .running, []⟩

def imageUpdateLabel (debug : Bool) : Label Hosts :=
  ⟨.infraChange, 0,
    [⟨hosts debug, .getJobInstance jobId "ap-south-1", some (true, "i-1", "running")⟩,
    ⟨hosts debug, .updateEnclaveImage "i-1" "ap-south-1" updatedUrl 2 4096, some ()⟩]⟩

theorem step_imageUpdate (debug : Bool) : ∃ m', Step (market []) (awsHostEnv ⟨none, none⟩ True)
    (imageUpdateManager debug) (imageUpdateLabel debug) m' ∧ (m'.world "i-1").starts =
      ⟨2, 4096, false, some updatedUrl⟩ :: (hosts debug "i-1").starts := by
  have hfind : awsHostEnv ⟨none, none⟩ True (.getJobInstance jobId "ap-south-1") (hosts debug)
      (some (true, "i-1", "running")) (hosts debug) :=
    ⟨_, .call (x := some [[⟨some "i-1", some "running"⟩]]) rfl (.ret _ _)⟩
  have hreads : (hosts debug "i-1").Reads (url ++ "\n") "" := ⟨rfl, rfl⟩
  obtain ⟨t, hends⟩ := Ends.update "i-1" "ap-south-1" updatedUrl 2 4096 (url ++ "\n", "") hreads
    (by decide)
  have hupdate : awsHostEnv ⟨none, none⟩ True
      (.updateEnclaveImage "i-1" "ap-south-1" updatedUrl 2 4096) (hosts debug) (some ()) _ :=
    ⟨_, .call ⟨t, _, hends, rfl⟩ (.ret _ _)⟩
  refine ⟨_, .infraChange rfl rfl (.call hfind (.call hupdate (.ret _ _))), ?_⟩
  rw [Manager.afterInfraChange_world, Function.update_self]

theorem starts_agree_sample : ∃ m', LastAgrees ⟨none, none⟩ (market []) (imageUpdateManager false)
    [imageUpdateLabel false] m' "i-1" := by
  obtain ⟨m', hstep, hstarts⟩ := step_imageUpdate false
  have hdebug : NoDebugUpdate (imageUpdateManager false) (imageUpdateLabel false) :=
    fun h => absurd h Bool.false_ne_true
  have h := (starts_agree ⟨none, none⟩ (market [])).1 _ _ _ "i-1" (.cons hdebug hstep (.nil _))
  refine ⟨m', h.resolve_left ?_⟩
  rw [hstarts]
  exact List.cons_ne_self _ _

/-- The enclave of a debugged job is updated to one without the debug mode. -/
theorem update_drops_debug : ∃ m', Step (market []) (awsHostEnv ⟨none, none⟩ True)
    (imageUpdateManager true) (imageUpdateLabel true) m' ∧
    (imageUpdateManager true).state.debug = true ∧
    (m'.world "i-1").starts.head? = some ⟨2, 4096, false, some updatedUrl⟩ ∧
    ¬(imageUpdateManager true).state.Agrees ⟨2, 4096, false, some updatedUrl⟩ := by
  obtain ⟨m', hstep, hstarts⟩ := step_imageUpdate true
  refine ⟨m', hstep, rfl, ?_, ?_⟩
  · rw [hstarts]
    rfl
  · unfold JobState.Agrees
    decide

end Sample

end Oyster.ControlPlane
