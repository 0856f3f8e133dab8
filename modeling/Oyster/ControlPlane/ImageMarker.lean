import Oyster.ControlPlane.EnclaveStart

namespace Oyster.ControlPlane

open Prog

inductive Session where
  | run (jobId family instanceId region imageUrl : String) (reqVcpu reqMem : ℤ) (bandwidth : ℕ)
      (debug : Bool)
  | update (instanceId region eifUrl : String) (reqVcpu reqMem : ℤ)

namespace Session

def url : Session → String
  | run _ _ _ _ imageUrl _ _ _ _ => imageUrl
  | update _ _ eifUrl _ _ => eifUrl

def prog (l : EifLists) : Session → SshProg Unit
  | run jobId family instanceId region imageUrl reqVcpu reqMem bandwidth debug =>
    Enclave.runEnclaveImpl l jobId family instanceId region imageUrl reqVcpu reqMem bandwidth debug
  | update instanceId region eifUrl reqVcpu reqMem =>
    Enclave.updateEnclaveImageImpl l instanceId region eifUrl reqVcpu reqMem

def IsUpdate : Session → Prop
  | run .. => False
  | update .. => True

end Session

structure SessionEvent where
  session : Session
  calls : List (Event SshOp SshAns Host)
  result : Option Unit

def SessionStep (l : EifLists) (fetches : Prop) (h : Host) (e : SessionEvent) (h' : Host) : Prop :=
  Exec (hostEnv fetches) (e.session.prog l).run h e.calls e.result h'

namespace SessionEvent

def Gives (e : SessionEvent) (command : Command) : Prop :=
  ∃ c ∈ e.calls, c.op = .exec command

/-- The session succeeds and leaves the image and the enclave alone. -/
def TakesEarlyReturn (e : SessionEvent) : Prop :=
  e.result = some () ∧ ¬e.Gives (.download e.session.url) ∧ ¬e.Gives .terminateEnclave ∧
    ∀ cpuCount memory debugMode, ¬e.Gives (.runEnclave cpuCount memory debugMode)

/-- The session downloads the image, and terminates and restarts the enclave. -/
def Restarts (e : SessionEvent) : Prop :=
  e.Gives (.download e.session.url) ∧ e.Gives .terminateEnclave ∧
    ∃ cpuCount memory debugMode, e.Gives (.runEnclave cpuCount memory debugMode)

theorem Restarts.not_early {e : SessionEvent} (h : e.Restarts) : ¬e.TakesEarlyReturn :=
  fun hearly => hearly.2.1 h.1

end SessionEvent

/-- Every update with a url that a session has succeeded with takes the early return. -/
def Idempotent (l : EifLists) (fetches : Prop) (url : String) : Prop :=
  ∀ es first es' again h,
    Run (SessionStep l fetches) {} (es ++ first :: (es' ++ [again])) h →
    (∀ e ∈ es ++ first :: (es' ++ [again]), Plain e.session.url) →
    first.result = some () → first.session.url = url →
    again.session.IsUpdate → again.session.url = url → again.TakesEarlyReturn

/-- The marker, if there is one, has been written by `echo`. -/
def Host.Marked (h : Host) : Prop := ∀ text, h.urlFile = some text → ∃ url, text = url ++ "\n"

theorem echo_ne {url : String} (hurl : Plain url) (url' : String) : url' ++ "\n" ≠ url := by
  rintro rfl
  have hall := hurl.1
  rw [List.all_eq_true] at hall
  have hmem : '\n' ∈ (url' ++ "\n").toList := by
    rw [String.toList_append]
    exact List.mem_append_right _ (by decide)
  have hmeta := hall '\n' hmem
  simp [isShellMeta] at hmeta

variable {l : EifLists} {fetches : Prop}

theorem Started.marked {imageUrl : String} {cpuCount memory : ℤ} {debugMode : Bool} {h h' : Host}
    (hst : Started fetches imageUrl cpuCount memory debugMode h h') (hurl : Plain imageUrl)
    (hm : h.Marked) : h'.Marked := by
  intro text htext
  rcases hst.marker with heq | heq
  · exact hm text (heq.symm.trans htext)
  · refine ⟨imageUrl, ?_⟩
    have hecho := htext.symm.trans (heq hurl)
    injection hecho

theorem SessionStep.marked {h h' : Host} {e : SessionEvent} (hs : SessionStep l fetches h e h')
    (hurl : Plain e.session.url) (hm : h.Marked) : h'.Marked := by
  obtain ⟨session, calls, result⟩ := e
  cases session with
  | run => exact (hs.sound (runEnclaveImpl_wp ..)).2.marked hurl hm
  | update => exact (hs.sound (updateEnclaveImageImpl_wp ..)).2.marked hurl hm

section Commands

variable {α β : Type} {h h' : Host} {t : List (Event SshOp SshAns Host)}

theorem sshExec_calls {command : Command} {r : Option (String × String)}
    (hx : Exec (hostEnv fetches) (sshExec command).run h t r h') :
    t = [⟨h, .exec command, r⟩] ∧ hostEnv fetches (.exec command) h r h' := by
  cases hx with
  | call hop hx =>
    cases hx
    exact ⟨rfl, hop⟩

theorem first_call {command : Command} {f : String × String → SshProg β} {b : β}
    (hx : Exec (hostEnv fetches) (sshExec command >>= f).run h t (some b) h') :
    ∃ c ∈ t, c.op = .exec command := by
  obtain ⟨t₁, t₂, _, h₁, rfl, hx, _⟩ := hx.of_run_bind
  obtain ⟨rfl, -⟩ := sshExec_calls hx
  exact ⟨_, List.mem_append_left _ List.mem_cons_self, rfl⟩

theorem replaceImage_calls {eifUrl : String} {reqVcpu reqMem : ℤ}
    (hx : Exec (hostEnv fetches) (Enclave.replaceImage l eifUrl reqVcpu reqMem).run h t (some ())
      h') :
    (∃ c ∈ t, c.op = .exec (.download eifUrl)) ∧ (∃ c ∈ t, c.op = .exec .terminateEnclave) ∧
      ∃ c ∈ t, c.op = .exec (.runEnclave reqVcpu reqMem false) := by
  obtain ⟨t₁, t₂, _, h₁, rfl, hdownload, hx⟩ := hx.of_run_bind
  obtain ⟨t₃, t₄, _, h₂, rfl, hterminate, hstart⟩ := hx.of_run_bind
  obtain ⟨c₁, hc₁, hop₁⟩ := first_call hdownload
  obtain ⟨c₂, hc₂, hop₂⟩ := first_call hterminate
  obtain ⟨c₃, hc₃, hop₃⟩ := first_call hstart
  refine ⟨⟨c₁, ?_, hop₁⟩, ⟨c₂, ?_, hop₂⟩, ⟨c₃, ?_, hop₃⟩⟩
  · exact List.mem_append_left _ hc₁
  · exact List.mem_append_right _ (List.mem_append_left _ hc₂)
  · exact List.mem_append_right _ (List.mem_append_right _ hc₃)

theorem update_restarts {instanceId region eifUrl : String} {reqVcpu reqMem : ℤ}
    (hurl : Plain eifUrl) (hm : h.Marked)
    (hx : Exec (hostEnv fetches)
      (Enclave.updateEnclaveImageImpl l instanceId region eifUrl reqVcpu reqMem).run h t (some ())
      h') :
    (∃ c ∈ t, c.op = .exec (.download eifUrl)) ∧ (∃ c ∈ t, c.op = .exec .terminateEnclave) ∧
      ∃ c ∈ t, c.op = .exec (.runEnclave reqVcpu reqMem false) := by
  obtain ⟨t₁, t₂, _, h₁, rfl, hconnect, hrest⟩ := hx.of_run_bind
  have hh : h₁ = h := (hconnect.sound (Silent.connect instanceId region h)).2
  subst hh
  obtain ⟨t₃, t₄, out, h₂, rfl, hcat, hrest⟩ := hrest.of_run_bind
  obtain ⟨-, hop⟩ := sshExec_calls hcat
  have hreads : h₁.Reads out.1 out.2 := by
    rcases hop with ⟨hnone, -⟩ | ⟨-, hreads⟩
    · simp at hnone
    · exact hreads out.1 out.2 rfl rfl
  have hne : ¬(out.2 = "" ∧ out.1 = eifUrl) := by
    rintro ⟨herr, hout⟩
    unfold Host.Reads at hreads
    split at hreads
    · exact hreads herr
    · rename_i text htext
      obtain ⟨url, rfl⟩ := hm text htext
      exact echo_ne hurl url (hreads.1.symm.trans hout)
  dsimp only at hrest
  rw [if_neg hne] at hrest
  obtain ⟨⟨c₁, hc₁, hop₁⟩, ⟨c₂, hc₂, hop₂⟩, ⟨c₃, hc₃, hop₃⟩⟩ := replaceImage_calls hrest
  have hmem : ∀ c ∈ t₄, c ∈ t₁ ++ (t₃ ++ t₄) := fun c hc =>
    List.mem_append_right _ (List.mem_append_right _ hc)
  exact ⟨⟨c₁, hmem c₁ hc₁, hop₁⟩, ⟨c₂, hmem c₂ hc₂, hop₂⟩, ⟨c₃, hmem c₃ hc₃, hop₃⟩⟩

end Commands

/-- No update of a run ever takes the early return; one that succeeds restarts the enclave. -/
theorem run_update_restarts {es es' : List SessionEvent} {again : SessionEvent} {h h' : Host}
    (hm : h.Marked) (hrun : Run (SessionStep l fetches) h (es ++ again :: es') h')
    (hplain : ∀ e ∈ es ++ again :: es', Plain e.session.url) (hupdate : again.session.IsUpdate)
    (hok : again.result = some ()) : again.Restarts := by
  -- the marker stays what `echo` writes, whatever sessions come before
  induction es generalizing h with
  | nil =>
    cases hrun with
    | cons hs _ =>
      obtain ⟨session, calls, result⟩ := again
      cases session with
      | run => exact absurd hupdate id
      | update instanceId region eifUrl reqVcpu reqMem =>
        have hok : result = some () := hok
        subst hok
        have hurl := hplain _ (List.mem_append_right _ List.mem_cons_self)
        obtain ⟨hdownload, hterminate, hstart⟩ := update_restarts hurl hm hs
        exact ⟨hdownload, hterminate, _, _, _, hstart⟩
  | cons e es ih =>
    cases hrun with
    | cons hs hrun =>
      have hmarked := hs.marked (hplain e List.mem_cons_self) hm
      exact ih hmarked hrun fun e he => hplain e (List.mem_cons_of_mem _ he)

theorem marked_launched : ({} : Host).Marked := nofun

def updated (url : String) (calls : List (Event SshOp SshAns Host)) : SessionEvent :=
  ⟨.update "i-1" "ap-south-1" url 2 4096, calls, some ()⟩

theorem exists_again (fetches : Prop) {url : String} (hurl : Plain url) : ∃ t₁ t₂ h,
    Run (SessionStep ⟨none, none⟩ fetches) {} [updated url t₁, updated url t₂] h := by
  have hmissing : ({} : Host).Reads "" "cat: image_url.txt: No such file or directory" := by
    show "cat: image_url.txt: No such file or directory" ≠ ""
    decide
  have hnone : ¬("cat: image_url.txt: No such file or directory" = "" ∧ "" = url) :=
    fun h => hmissing h.1
  have hmark : ∀ starts, (⟨some url, some (url ++ "\n"), starts⟩ : Host).Reads (url ++ "\n") "" :=
    fun _ => ⟨rfl, rfl⟩
  have hsome : ¬("" = "" ∧ url ++ "\n" = url) := fun h => echo_ne hurl url h.2
  obtain ⟨t₁, h₁⟩ := Ends.update "i-1" "ap-south-1" url 2 4096 ("", _) hmissing hnone
  obtain ⟨t₂, h₂⟩ := Ends.update "i-1" "ap-south-1" url 2 4096 (url ++ "\n", "") (hmark _) hsome
  exact ⟨t₁, t₂, _, .cons h₁ (.cons h₂ (.nil _))⟩

/-- Whatever the url, an update with it is not idempotent: after a session that has succeeded
with it, every further update that succeeds downloads the image and restarts the enclave again,
and on some host it does so. -/
theorem update_never_idempotent {url : String} (hurl : Plain url) :
    ¬Idempotent ⟨none, none⟩ fetches url ∧
    ∀ l es first es' again h,
      Run (SessionStep l fetches) {} (es ++ first :: (es' ++ [again])) h →
      (∀ e ∈ es ++ first :: (es' ++ [again]), Plain e.session.url) →
      first.result = some () → first.session.url = url →
      again.session.IsUpdate → again.session.url = url →
      ¬again.TakesEarlyReturn ∧ (again.result = some () → again.Restarts) := by
  have hall : ∀ l es first es' again h,
      Run (SessionStep l fetches) {} (es ++ first :: (es' ++ [again])) h →
      (∀ e ∈ es ++ first :: (es' ++ [again]), Plain e.session.url) →
      again.session.IsUpdate → again.result = some () → again.Restarts := by
    intro l es first es' again h hrun hplain hupdate hok
    -- the first update is one of the sessions before
    have hlist : es ++ first :: (es' ++ [again]) = (es ++ first :: es') ++ again :: [] := by simp
    rw [hlist] at hrun hplain
    exact run_update_restarts marked_launched hrun hplain hupdate hok
  constructor
  · intro hidem
    obtain ⟨t₁, t₂, h, hrun⟩ := exists_again fetches hurl
    have hplain : ∀ e ∈ [updated url t₁, updated url t₂], Plain e.session.url := by
      simp [updated, Session.url, hurl]
    have hearly := hidem [] _ [] _ h hrun hplain rfl rfl trivial rfl
    exact (hall _ [] _ [] _ h hrun hplain trivial rfl).not_early hearly
  · intro l es first es' again h hrun hplain _ _ hupdate _
    refine ⟨?_, hall l es first es' again h hrun hplain hupdate⟩
    intro hearly
    exact (hall l es first es' again h hrun hplain hupdate hearly.1).not_early hearly

namespace Sample

theorem update_never_idempotent_sample : ¬Idempotent ⟨none, none⟩ True url :=
  (update_never_idempotent (by decide)).1

/-- The same url twice, and the second update restarts the enclave. -/
theorem update_twice : ∃ t₁ t₂ h, Run (SessionStep ⟨none, none⟩ True) {}
      [updated url t₁, updated url t₂] h ∧ (updated url t₂).Restarts ∧
      ¬Idempotent ⟨none, none⟩ True url := by
  have hurl : Plain url := by decide
  obtain ⟨t₁, t₂, h, hrun⟩ := exists_again True hurl
  have hplain : ∀ e ∈ [updated url t₁, updated url t₂], Plain e.session.url := by
    simp [updated, Session.url, hurl]
  have hrestarts : (updated url t₂).Restarts :=
    @run_update_restarts _ _ [updated url t₁] [] _ _ h marked_launched hrun hplain trivial rfl
  refine ⟨t₁, t₂, h, hrun, hrestarts, ?_⟩
  intro hidem
  exact hrestarts.not_early (hidem [] _ [] _ h hrun hplain rfl rfl trivial rfl)

end Sample

end Oyster.ControlPlane
