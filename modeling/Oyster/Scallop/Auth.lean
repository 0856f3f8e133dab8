import Oyster.Scallop.Complete

namespace Oyster.Scallop

open Pipe Prog

/-- A call on the own side with its answer. -/
abbrev SideCall := Σ op : SideOp, SideAns op

/-- The bytes received and the calls on the own side. -/
structure Record where
  received : Bytes := []
  calls : List SideCall := []

namespace Record

/-- Every answer is possible, and is recorded. -/
def env : Env (Op SideOp) (Ans SideAns) Record
  | .send _, w, _, w' => w' = w
  | .recv, w, some b, w' => w' = { w with received := w.received ++ [b] }
  | .recv, w, none, w' => w' = w
  | .loc op, w, x, w' => w' = { w with calls := w.calls ++ [⟨op, x⟩] }

/-- What is set was verified, and not refused. -/
def Vetted (w : Record) : Prop :=
  ∀ key pcrs, (⟨.set key pcrs, ()⟩ : SideCall) ∈ w.calls →
    (∃ attestation, (⟨.verify attestation key, some pcrs⟩ : SideCall) ∈ w.calls) ∧
      ∀ attestation, (⟨.verify attestation key, none⟩ : SideCall) ∉ w.calls

/-- The calls other than `verify` and `set`. -/
def Quiet : SideOp → Prop
  | .verify _ _ => False
  | .set _ _ => False
  | _ => True

/-- From `w` to `w'` the bytes `bs` have arrived, and only quiet calls have been made. -/
structure Adds (w : Record) (bs : Bytes) (w' : Record) : Prop where
  received : w'.received = w.received ++ bs
  calls : ∃ more, w'.calls = w.calls ++ more ∧ ∀ c ∈ more, Quiet c.1

variable {w w' w'' : Record} {bs bs' : Bytes}

theorem Adds.refl (w : Record) : w.Adds [] w :=
  ⟨(List.append_nil _).symm, [], (List.append_nil _).symm, nofun⟩

theorem Adds.trans (h : w.Adds bs w') (h' : w'.Adds bs' w'') : w.Adds (bs ++ bs') w'' := by
  obtain ⟨more, hmore, hquiet⟩ := h.calls
  obtain ⟨more', hmore', hquiet'⟩ := h'.calls
  refine ⟨?_, more ++ more', ?_, ?_⟩
  · rw [h'.received, h.received, List.append_assoc]
  · rw [hmore', hmore, List.append_assoc]
  · intro c hc
    rcases List.mem_append.1 hc with hc | hc
    · exact hquiet c hc
    · exact hquiet' c hc

theorem Adds.mem (h : w.Adds bs w') {c : SideCall} (hc : c ∈ w.calls) : c ∈ w'.calls := by
  obtain ⟨more, hmore, -⟩ := h.calls
  rw [hmore]
  exact List.mem_append_left _ hc

theorem Adds.of_mem (h : w.Adds bs w') {c : SideCall} (hc : c ∈ w'.calls) (hloud : ¬Quiet c.1) :
    c ∈ w.calls := by
  obtain ⟨more, hmore, hquiet⟩ := h.calls
  rw [hmore] at hc
  exact (List.mem_append.1 hc).resolve_right fun hc => hloud (hquiet c hc)

theorem Adds.vetted (h : w.Adds bs w') (hw : w.Vetted) : w'.Vetted := by
  intro key pcrs hset
  obtain ⟨⟨attestation, hsome⟩, hnone⟩ := hw key pcrs (h.of_mem hset id)
  exact ⟨⟨attestation, h.mem hsome⟩, fun attestation h' => hnone attestation (h.of_mem h' id)⟩

end Record

open Record

/-- From a vetted record the program ends in a vetted one, with `post` of its result. -/
abbrev Leads {α : Type} (x : Handshaking α) (w : Record) (post : α → Record → Prop) : Prop :=
  w.Vetted → Ensures env Vetted x post w

section Leads

variable {α β S : Type} {w w' : Record} {bs : Bytes}

def Adding (x : Handshaking α) (prop : α → Bytes → Prop) : Prop :=
  ∀ w, Leads x w fun a w' => ∃ bs, w.Adds bs w' ∧ prop a bs

theorem Adding.pure {prop : α → Bytes → Prop} {a : α} (h : prop a []) :
    Adding (pure a) prop :=
  fun w hw => .pure hw ⟨[], .refl w, h⟩

theorem Adding.throw (e : Fail) (prop : α → Bytes → Prop) : Adding (throw e) prop :=
  fun _ hw => .throw hw

theorem Adding.mono {x : Handshaking α} {prop prop' : α → Bytes → Prop} (h : Adding x prop)
    (hp : ∀ a bs, prop a bs → prop' a bs) : Adding x prop' :=
  fun w hw => (h w hw).mono fun a _ ⟨bs, hadds, ha⟩ => ⟨bs, hadds, hp a bs ha⟩

theorem Adding.bind {x : Handshaking α} {f : α → Handshaking β} {prop : α → Bytes → Prop}
    {prop' : β → Bytes → Prop} (hx : Adding x prop)
    (hf : ∀ a bs, prop a bs → Adding (f a) fun b bs' => prop' b (bs ++ bs')) :
    Adding (x >>= f) prop' := by
  intro w hw
  refine (hx w hw).bind ?_
  rintro a w' hw' ⟨bs, hadds, ha⟩
  refine (hf a bs ha w' hw').mono ?_
  rintro b w'' ⟨bs', hadds', hb⟩
  exact ⟨bs ++ bs', hadds.trans hadds', hb⟩

theorem Adding.ensure (p : Prop) [Decidable p] (e : Fail) :
    Adding (ensure p e) fun _ bs => bs = [] ∧ p := by
  unfold Scallop.ensure
  by_cases hp : p
  · rw [if_pos hp]
    exact .pure ⟨rfl, hp⟩
  · rw [if_neg hp]
    exact .throw e _

theorem Adding.orFail (e : Fail) (x : Option α) :
    Adding (orFail e x) fun a bs => bs = [] ∧ x = some a := by
  cases x with
  | none => exact .throw e _
  | some a => exact .pure ⟨rfl, rfl⟩

theorem Adding.silent {x : Handshaking α} {f : α → Handshaking β} {prop : α → Prop}
    {prop' : β → Bytes → Prop} (hx : Adding x fun a bs => bs = [] ∧ prop a)
    (hf : ∀ a, prop a → Adding (f a) prop') : Adding (x >>= f) prop' := by
  refine hx.bind ?_
  rintro a bs ⟨rfl, ha⟩
  exact hf a ha

theorem Adding.io {x : Party SideAns (Option α)} {prop : α → Bytes → Prop}
    (h : ∀ w, x.wp env (fun _ _ => True)
      (fun r w' => ∃ bs, w.Adds bs w' ∧ ∀ a, r = some a → prop a bs) w) :
    Adding (io x) prop := by
  have hlift : Adding (ExceptT.lift x) fun r bs => ∀ a, r = some a → prop a bs := by
    intro w hw
    refine .lift (wp_mono (fun _ _ h => h) ?_ (h w))
    rintro r w' ⟨bs, hadds, hr⟩
    exact ⟨hadds.vetted hw, bs, hadds, hr⟩
  refine hlift.bind fun r bs hr => (Adding.orFail _ r).mono ?_
  rintro a bs' ⟨rfl, ha⟩
  rw [List.append_nil]
  exact hr a ha

theorem wp_sendAll (bs : Bytes) (w : Record) :
    (sendAll bs : Party SideAns (Option Unit)).wp env (fun _ _ => True)
      (fun _ w' => w.Adds [] w') w := by
  induction bs generalizing w with
  | nil => exact .refl w
  | cons b bs ih =>
    refine ⟨True.intro, fun x w' hx => ?_⟩
    cases hx
    cases x with
    | none => exact .refl w
    | some => exact ih w

theorem Record.Adds.byte (w : Record) (b : UInt8) :
    w.Adds [b] { w with received := w.received ++ [b] } :=
  ⟨rfl, [], (List.append_nil _).symm, nofun⟩

theorem wp_recvExact (n : ℕ) (w : Record) :
    (recvExact n : Party SideAns (Option Bytes)).wp env (fun _ _ => True)
      (fun r w' => ∃ bs, w.Adds bs w' ∧ (∀ a, r = some a → a = bs ∧ bs.length = n) ∧
        (r = none → bs.length < n)) w := by
  induction n generalizing w with
  | zero =>
    refine ⟨[], .refl w, fun a ha => ?_, nofun⟩
    cases ha
    exact ⟨rfl, rfl⟩
  | succ n ih =>
    refine ⟨True.intro, fun x w' hx => ?_⟩
    cases x with
    | none =>
      cases hx
      exact ⟨[], .refl w, nofun, fun _ => Nat.succ_pos n⟩
    | some b =>
      cases hx
      refine (wp_bind _ _ _ _).2 (wp_mono (fun _ _ h => h) ?_ (ih _))
      rintro r w' ⟨bs, hadds, hsome, hnone⟩
      have hadds := (Record.Adds.byte w b).trans hadds
      cases r with
      | none => exact ⟨_, hadds, nofun, fun _ => Nat.succ_lt_succ (hnone rfl)⟩
      | some bs' =>
        obtain ⟨rfl, hlen⟩ := hsome _ rfl
        refine ⟨_, hadds, fun a ha => ?_, nofun⟩
        cases ha
        exact ⟨rfl, congrArg (· + 1) hlen⟩

theorem Adding.recvExact (n : ℕ) :
    Adding (Scallop.io (recvExact n)) fun a bs => a = bs ∧ bs.length = n := by
  refine .io fun w => wp_mono (fun _ _ h => h) ?_ (wp_recvExact n w)
  rintro r w' ⟨bs, hadds, hsome, -⟩
  exact ⟨bs, hadds, hsome⟩

theorem Adding.sendAll (bs : Bytes) :
    Adding (Scallop.io (sendAll bs)) fun _ bs' => bs' = [] := by
  refine .io fun w => wp_mono (fun _ _ h => h) ?_ (wp_sendAll bs w)
  exact fun r w' hadds => ⟨[], hadds, fun _ _ => rfl⟩

theorem Adding.ask (op : SideOp) (h : Quiet op) : Adding (ask op) fun _ bs => bs = [] ∧ True := by
  intro w hw
  refine .lift ⟨True.intro, fun x w' hx => ?_⟩
  cases hx
  have hadds : w.Adds [] { w with calls := w.calls ++ [⟨op, x⟩] } := by
    refine ⟨(List.append_nil _).symm, _, rfl, fun c hc => ?_⟩
    cases List.mem_singleton.1 hc
    exact h
  exact ⟨hadds.vetted hw, [], hadds, rfl, True.intro⟩

theorem Adding.readU16 : Adding readU16 fun n bs => bs = u16ToBe n := by
  refine (Adding.recvExact 2).bind ?_
  rintro a bs ⟨rfl, hlen⟩
  refine .pure ?_
  rw [List.append_nil, u16ToBe_fromBe hlen]

theorem Adding.noiseRead (n : Noiser S) (noise : S) (src dst : ℕ) :
    Adding (noiseRead n noise src dst) fun r bs =>
      ∃ msg, bs = u16ToBe msg.length ++ msg ∧ n.readMessage noise msg dst = some r := by
  refine Adding.readU16.bind ?_
  rintro len _ rfl
  refine (Adding.ensure _ _).silent fun _ _ => (Adding.recvExact len).bind ?_
  rintro msg _ ⟨rfl, rfl⟩
  refine (Adding.orFail _ _).mono ?_
  rintro r _ ⟨rfl, hr⟩
  exact ⟨msg, by rw [List.append_nil], hr⟩

theorem Adding.noiseWrite (n : Noiser S) (noise : S) (payload head : Bytes) (size : ℕ) :
    Adding (noiseWrite n noise payload head size) fun noise' bs =>
      bs = [] ∧ ∃ room msg, n.writeMessage noise payload room = some (msg, noise') := by
  refine (Adding.orFail _ _).silent ?_
  rintro ⟨msg, noise'⟩ hwrite
  refine (Adding.sendAll _).bind ?_
  rintro _ _ rfl
  refine (Adding.ask .flush True.intro).silent fun _ _ => (Adding.ensure _ _).silent fun _ _ => ?_
  exact .pure ⟨rfl, _, msg, hwrite⟩

theorem Adding.staticKey (bs : Option Bytes) :
    Adding (staticKey bs) fun key bs' => bs' = [] ∧ bs = some key.val := by
  unfold Scallop.staticKey
  cases bs with
  | none => exact .throw _ _
  | some bs =>
    dsimp only
    split
    · exact .pure ⟨rfl, rfl⟩
    · exact .throw _ _

theorem Adding.parseAuthRequest (payload : Bytes) :
    Adding (parseAuthRequest payload) fun _ bs => bs = [] ∧ True :=
  (Adding.ensure _ _).silent fun _ _ => (Adding.ensure _ _).silent fun _ _ =>
    .pure ⟨rfl, True.intro⟩

theorem Adding.authPayload : Adding authPayload fun _ bs => bs = [] ∧ True :=
  (Adding.ask .newAuth True.intro).silent fun _ _ => (Adding.ensure _ _).silent fun _ _ =>
    .pure ⟨rfl, True.intro⟩

end Leads

/-- The remote static key of a session does not change. -/
structure Noise.KeepsRemote (N : Noise) : Prop where
  reply : ∀ st payload room msg st', N.handshake.writeMessage st payload room = some (msg, st') →
    N.remoteStatic st' = N.remoteStatic st
  into : ∀ st noise, N.intoTransportMode st = some noise →
    N.transportRemoteStatic noise = N.remoteStatic st
  write : ∀ noise payload room msg noise',
    N.transport.writeMessage noise payload room = some (msg, noise') →
      N.transportRemoteStatic noise' = N.transportRemoteStatic noise
  read : ∀ noise msg room payload noise',
    N.transport.readMessage noise msg room = some (payload, noise') →
      N.transportRemoteStatic noise' = N.transportRemoteStatic noise

/-- The last message that arrived carries the attestation behind `head` bytes and its length, and
was opened in a session with this remote static key. -/
def PeerSent (N : Noise) (head : ℕ) (w : Record) (key : Key) (attestation : Bytes) : Prop :=
  ∃ before msg start noise noise' room,
    w.received = before ++ (u16ToBe msg.length ++ msg) ∧ start.length = head ∧
    N.transportRemoteStatic noise = some key.val ∧
    N.transport.readMessage noise msg room =
      some (start ++ (u16ToBe attestation.length ++ attestation), noise')

/-- The remote sent an attestation that verified, and was set. -/
def Proved (N : Noise) (head : ℕ) (w : Record) (key : Key) : Prop :=
  ∃ attestation pcrs, PeerSent N head w key attestation ∧
    (⟨.verify attestation key, some pcrs⟩ : SideCall) ∈ w.calls ∧
    (⟨.set key pcrs, ()⟩ : SideCall) ∈ w.calls

/-- The auth store knew the key when it was asked. -/
def Known (w : Record) (key : Key) : Prop := (⟨.contains key, true⟩ : SideCall) ∈ w.calls

theorem Proved.adds {N : Noise} {head : ℕ} {w w' : Record} {key : Key} (h : Proved N head w key)
    (hadds : w.Adds [] w') : Proved N head w' key := by
  obtain ⟨attestation, pcrs, hsent, hverify, hset⟩ := h
  have hreceived := hadds.received
  rw [List.append_nil] at hreceived
  refine ⟨attestation, pcrs, ?_, hadds.mem hverify, hadds.mem hset⟩
  unfold PeerSent
  rw [hreceived]
  exact hsent

section Remote

variable {N : Noise} {w : Record} {key : Key} {noise : N.Transport}

theorem leads_shouldAskAuth (key : Key) (w : Record) :
    Leads (shouldAskAuth true key) w fun asks w' =>
      w.Adds [] w' ∧ (asks = false → Known w' key) := by
  intro hw
  refine Ensures.bind (.lift ⟨True.intro, fun known w' hx => ?_⟩)
    (fun known w' hw' (h : w.Adds [] w' ∧ (known = true → Known w' key)) => .pure hw' ⟨h.1, ?_⟩)
  · cases hx
    have hadds : w.Adds [] { w with calls := w.calls ++ [⟨.contains key, known⟩] } := by
      refine ⟨(List.append_nil _).symm, _, rfl, fun c hc => ?_⟩
      cases List.mem_singleton.1 hc
      exact True.intro
    refine ⟨hadds.vetted hw, hadds, fun hknown => ?_⟩
    cases hknown
    exact List.mem_append_right _ (List.mem_singleton.2 rfl)
  · intro hasks
    exact h.2 (by simpa using hasks)

def Record.AllQuiet (w : Record) : Prop := ∀ c ∈ w.calls, Quiet c.1

theorem Record.Adds.allQuiet {w' : Record} {bs : Bytes} (h : w.Adds bs w') (hw : w.AllQuiet) :
    w'.AllQuiet := by
  obtain ⟨more, hmore, hquiet⟩ := h.calls
  intro c hc
  rw [hmore] at hc
  exact (List.mem_append.1 hc).elim (hw c) (hquiet c)

theorem Record.AllQuiet.loud (hquiet : w.AllQuiet) {more : List SideCall} {c : SideCall}
    (hc : c ∈ w.calls ++ more) (hloud : ¬Quiet c.1) : c ∈ more :=
  (List.mem_append.1 hc).resolve_left fun h => hloud (hquiet c h)

theorem Record.AllQuiet.vetted (hquiet : w.AllQuiet) (attestation : Bytes) (key : Key)
    (pcrs : Pcrs) : Vetted { w with calls := w.calls ++
      [⟨.verify attestation key, some pcrs⟩, ⟨.set key pcrs, ()⟩] } := by
  intro key' pcrs' hset
  rcases List.mem_pair.1 (hquiet.loud hset id) with hset | hset
  · cases hset
  · cases hset
    refine ⟨⟨attestation, List.mem_append_right _ List.mem_cons_self⟩, fun attestation' hnone => ?_⟩
    rcases List.mem_pair.1 (hquiet.loud hnone id) with hnone | hnone
    · cases hnone
    · cases hnone

theorem leads_verifyAuth (attestation : Bytes) (key : Key) (hquiet : w.AllQuiet) :
    Leads (verifyAuth attestation key) w fun _ w' =>
      w'.received = w.received ∧ (∀ c ∈ w.calls, c ∈ w'.calls) ∧
      ∃ pcrs, (⟨.verify attestation key, some pcrs⟩ : SideCall) ∈ w'.calls ∧
        (⟨.set key pcrs, ()⟩ : SideCall) ∈ w'.calls := by
  intro _
  have hverify : Ensures env Vetted (ask (.verify attestation key)) (fun pcrs w' =>
      w' = { w with calls := w.calls ++ [⟨.verify attestation key, pcrs⟩] }) w := by
    refine .lift ⟨True.intro, fun pcrs w' hx => ⟨?_, hx⟩⟩
    cases hx
    intro key' pcrs' hset
    cases List.mem_singleton.1 (hquiet.loud hset id)
  refine hverify.bind ?_
  rintro pcrs _ hw' rfl
  cases pcrs with
  -- a refusal ends the handshake before anything is set
  | none => exact .throw hw'
  | some pcrs =>
    show Ensures env Vetted (ask (.set key pcrs)) _ _
    refine .lift ⟨True.intro, fun x w' hx => ?_⟩
    cases hx
    rw [List.append_assoc]
    refine ⟨hquiet.vetted attestation key pcrs, rfl, ?_, pcrs, ?_, ?_⟩
    · intro c hc
      exact List.mem_append_left _ hc
    · exact List.mem_append_right _ List.mem_cons_self
    · exact List.mem_append_right _ (List.mem_cons_of_mem _ List.mem_cons_self)

theorem split_fin {payload : Bytes} {head : ℕ} (hlen : head + 2 ≤ payload.length)
    (h : u16FromBe ((payload.drop head).take 2) = payload.length - (head + 2)) :
    payload = payload.take head ++ (u16ToBe (payload.drop (head + 2)).length ++
      payload.drop (head + 2)) := by
  have htwo : ((payload.drop head).take 2).length = 2 := by
    rw [List.length_take, List.length_drop]
    omega
  rw [List.length_drop, ← h, u16ToBe_fromBe htwo, ← List.drop_drop, List.take_append_drop,
    List.take_append_drop]

theorem peerSent_of_read {payload msg before : Bytes} {head room : ℕ} {noise' : N.Transport}
    (hreceived : w.received = before ++ (u16ToBe msg.length ++ msg))
    (hremote : N.transportRemoteStatic noise = some key.val)
    (hread : N.transport.readMessage noise msg room = some (payload, noise'))
    (hlen : head + 2 ≤ payload.length)
    (h : u16FromBe ((payload.drop head).take 2) = payload.length - (head + 2)) :
    PeerSent N head w key (payload.drop (head + 2)) := by
  refine ⟨before, msg, payload.take head, noise, noise', room, hreceived, ?_, hremote, ?_⟩
  · rw [List.length_take]
    omega
  · rw [← split_fin hlen h]
    exact hread

theorem leads_verifySent {head : ℕ} {attestation : Bytes} (hquiet : w.AllQuiet)
    (hsent : PeerSent N head w key attestation) :
    Leads (verifyAuth attestation key) w fun _ w' =>
      (∀ c ∈ w.calls, c ∈ w'.calls) ∧ Proved N head w' key := by
  intro hw
  refine (leads_verifyAuth attestation key hquiet hw).mono ?_
  rintro _ w' ⟨hreceived, hcalls, pcrs, hverify, hset⟩
  refine ⟨hcalls, attestation, pcrs, ?_, hverify, hset⟩
  unfold PeerSent
  rw [hreceived]
  exact hsent

def Goes (N : Noise) (head : ℕ) (w : Record) (key : Key) (asks : Bool) (noise : N.Transport)
    (w' : Record) : Prop :=
  N.transportRemoteStatic noise = some key.val ∧ (∀ c ∈ w.calls, c ∈ w'.calls) ∧
    (asks = true → Proved N head w' key)

theorem leads_readServerFin (hN : N.KeepsRemote) (hquiet : w.AllQuiet) (asks : Bool)
    (hremote : N.transportRemoteStatic noise = some key.val) :
    Leads (readServerFin N.transport noise key asks) w (Goes N 0 w key asks) := by
  intro hw
  cases asks with
  | false => exact .pure hw ⟨hremote, fun _ hc => hc, nofun⟩
  | true =>
    refine (Adding.noiseRead N.transport noise 65000 65000 w hw).bind ?_
    rintro ⟨payload, noise'⟩ w₁ hw₁ ⟨_, hadds, msg, rfl, hread⟩
    refine (Adding.ensure _ _ w₁ hw₁).bind ?_
    rintro _ w₂ hw₂ ⟨_, hadds₂, rfl, hlen⟩
    refine (Adding.ensure _ _ w₂ hw₂).bind ?_
    rintro _ w₃ hw₃ ⟨_, hadds₃, rfl, hsize⟩
    have hall := hadds.trans (hadds₂.trans hadds₃)
    rw [List.append_nil, List.append_nil] at hall
    have hsent : PeerSent N 0 w₃ key (payload.drop 2) :=
      peerSent_of_read hall.received hremote hread hlen hsize
    refine (leads_verifySent (hall.allQuiet hquiet) hsent hw₃).bind ?_
    rintro _ w₄ hw₄ ⟨hcalls, hproved⟩
    refine .pure hw₄ ⟨(hN.read _ _ _ _ _ hread).trans hremote, ?_, fun _ => hproved⟩
    exact fun c hc => hcalls c (hall.mem hc)

theorem leads_verifyAsked {head : ℕ} {attestation : Bytes} (hquiet : w.AllQuiet) (asks : Bool)
    (hsent : PeerSent N head w key attestation) :
    Leads (verifyAsked asks attestation key) w fun _ w' =>
      (∀ c ∈ w.calls, c ∈ w'.calls) ∧ (asks = true → Proved N head w' key) := by
  intro hw
  cases asks with
  | false => exact .pure hw ⟨fun _ hc => hc, nofun⟩
  | true =>
    refine (leads_verifySent hquiet hsent hw).mono ?_
    exact fun _ _ h => ⟨h.1, fun _ => h.2⟩

theorem leads_readClientFin (hN : N.KeepsRemote) (hquiet : w.AllQuiet) (asks : Bool)
    (hremote : N.transportRemoteStatic noise = some key.val) :
    Leads (readClientFin N.transport noise key asks) w fun r => Goes N 1 w key asks r.2 := by
  intro hw
  refine (Adding.noiseRead N.transport noise 1024 1024 w hw).bind ?_
  rintro ⟨payload, noise'⟩ w₁ hw₁ ⟨_, hadds, msg, rfl, hread⟩
  refine (Adding.ensure _ _ w₁ hw₁).bind ?_
  rintro _ w₂ hw₂ ⟨_, hadds₂, rfl, hlen⟩
  refine (Adding.ensure _ _ w₂ hw₂).bind ?_
  rintro _ w₃ hw₃ ⟨_, hadds₃, rfl, hsize⟩
  have hall := hadds.trans (hadds₂.trans hadds₃)
  rw [List.append_nil, List.append_nil] at hall
  -- the length checks are what makes the attestation the rest of the message
  have hsent : PeerSent N 1 w₃ key (payload.drop 3) :=
    peerSent_of_read hall.received hremote hread hlen hsize
  refine (leads_verifyAsked (hall.allQuiet hquiet) asks hsent hw₃).bind ?_
  rintro _ w₄ hw₄ ⟨hcalls, hproved⟩
  refine (Adding.ensure _ _ w₄ hw₄).bind ?_
  rintro _ w₅ hw₅ ⟨_, hadds₅, rfl, -⟩
  refine .pure hw₅ ⟨(hN.read _ _ _ _ _ hread).trans hremote, ?_, fun h => (hproved h).adds hadds₅⟩
  exact fun c hc => hadds₅.mem (hcalls c (hall.mem hc))

/-- The program keeps the remote of the session. -/
abbrev Keeping (N : Noise) (noise : N.Transport) (x : Handshaking N.Transport) : Prop :=
  Adding x fun noise' bs =>
    bs = [] ∧ N.transportRemoteStatic noise' = N.transportRemoteStatic noise

theorem keeping_write (hN : N.KeepsRemote) (payload head : Bytes) (size : ℕ) :
    Keeping N noise (noiseWrite N.transport noise payload head size) := by
  refine (Adding.noiseWrite N.transport noise payload head size).mono ?_
  rintro noise' bs ⟨rfl, room, msg, hwrite⟩
  exact ⟨rfl, hN.write _ _ _ _ _ hwrite⟩

theorem keeping_sendClientFin (hN : N.KeepsRemote) (shouldSend asks : Bool) :
    Keeping N noise (sendClientFin N.transport noise shouldSend asks) := by
  have hencode : ∀ size payload,
      Keeping N noise (encodeClientFin N.transport noise size payload asks) :=
    fun size payload => (Adding.ensure _ _).silent fun _ _ => keeping_write hN _ _ _
  cases shouldSend with
  | false => exact hencode _ _
  | true => exact Adding.authPayload.silent fun payload _ => hencode _ payload

theorem keeping_sendServerFin (hN : N.KeepsRemote) (shouldSend : Bool) :
    Keeping N noise (sendServerFin N.transport noise shouldSend) := by
  cases shouldSend with
  | false => exact .pure ⟨rfl, rfl⟩
  | true => exact Adding.authPayload.silent fun payload _ => keeping_write hN _ _ _

end Remote

section Sides

variable {α β : Type} {w : Record} {goal : β → Record → Prop} {f : α → Handshaking β}
  {prop : α → Bytes → Prop} {x : Handshaking α}

theorem Leads.adding (hx : Adding x prop)
    (hf : ∀ a w' bs, w.Adds bs w' → prop a bs → Leads (f a) w' goal) : Leads (x >>= f) w goal :=
  fun hw => (hx w hw).bind fun a w' hw' ⟨bs, hadds, ha⟩ => hf a w' bs hadds ha hw'

theorem Leads.quiet (hquiet : w.AllQuiet) (hx : Adding x prop)
    (hf : ∀ a w' bs, w'.AllQuiet → prop a bs → Leads (f a) w' goal) : Leads (x >>= f) w goal :=
  Leads.adding hx fun a w' bs hadds ha => hf a w' bs (hadds.allQuiet hquiet) ha

/-- The remote of the stream was known, or has proved itself. -/
def Authentic (N : Noise) (head : ℕ) (stream : ScallopStream N.Transport) (w : Record) : Prop :=
  ∃ key : Key, N.transportRemoteStatic stream.noise = some key.val ∧
    (Known w key ∨ Proved N head w key)

variable {N : Noise}

theorem Goes.authentic {head : ℕ} {key : Key} {asks : Bool} {noise : N.Transport} {w' : Record}
    (h : Goes N head w key asks noise w') (hknown : asks = false → Known w key) :
    N.transportRemoteStatic noise = some key.val ∧ (Known w' key ∨ Proved N head w' key) := by
  obtain ⟨hremote, hcalls, hproved⟩ := h
  refine ⟨hremote, ?_⟩
  cases asks with
  | false => exact .inl (hcalls _ (hknown rfl))
  | true => exact .inr (hproved rfl)

theorem leads_newClient (hN : N.KeepsRemote) (secret : Bytes) (auther : Bool) :
    Leads (newClient N secret true auther) {} (Authentic N 0) := by
  have hquiet : Record.AllQuiet {} := nofun
  refine Leads.quiet hquiet (Adding.orFail _ _) fun _ _ _ hquiet _ => ?_
  refine Leads.quiet hquiet (Adding.noiseWrite _ _ _ _ _) fun _ _ _ hquiet _ => ?_
  refine Leads.quiet hquiet Adding.readU16 fun _ _ _ hquiet _ => ?_
  refine Leads.quiet hquiet (Adding.ensure _ _) fun _ _ _ hquiet _ => ?_
  refine Leads.quiet hquiet (Adding.noiseRead _ _ _ _) fun r _ _ hquiet _ => ?_
  refine Leads.quiet hquiet (Adding.parseAuthRequest r.1) fun _ _ _ hquiet _ => ?_
  refine Leads.quiet hquiet (Adding.ensure _ _) fun _ _ _ hquiet _ => ?_
  refine Leads.quiet hquiet (Adding.staticKey _) fun key w₁ _ hquiet hkey => ?_
  -- from here on the key is fixed, and the session must keep it
  refine fun hw => (leads_shouldAskAuth key w₁ hw).bind fun asks w₂ hw₂ ⟨hadds₂, hknown⟩ => ?_
  have hquiet := hadds₂.allQuiet hquiet
  refine Leads.adding (Adding.orFail _ _) (fun noise w₃ _ hadds₃ hinto => ?_) hw₂
  have hquiet := hadds₃.allQuiet hquiet
  have hremote := (hN.into _ _ hinto.2).trans hkey.2
  refine Leads.adding (keeping_sendClientFin hN _ asks) fun noise' w₄ _ hadds₄ hkeep => ?_
  have hquiet := hadds₄.allQuiet hquiet
  refine fun hw₄ => (leads_readServerFin hN hquiet asks (hkeep.2.trans hremote) hw₄).bind ?_
  intro noise'' w₅ hw₅ hgoes
  exact .pure hw₅ ⟨key, hgoes.authentic fun h => hadds₄.mem (hadds₃.mem (hknown h))⟩

theorem leads_newServer (hN : N.KeepsRemote) (secret : Bytes) (auther : Bool) :
    Leads (newServer N secret true auther) {} (Authentic N 1) := by
  have hquiet : Record.AllQuiet {} := nofun
  refine Leads.quiet hquiet (Adding.orFail _ _) fun _ _ _ hquiet _ => ?_
  refine Leads.quiet hquiet Adding.readU16 fun _ _ _ hquiet _ => ?_
  refine Leads.quiet hquiet (Adding.ensure _ _) fun _ _ _ hquiet _ => ?_
  refine Leads.quiet hquiet (Adding.noiseRead _ _ _ _) fun r _ _ hquiet _ => ?_
  refine Leads.quiet hquiet (Adding.ensure _ _) fun _ _ _ hquiet _ => ?_
  refine Leads.quiet hquiet (Adding.staticKey _) fun key w₁ _ hquiet hkey => ?_
  refine fun hw => (leads_shouldAskAuth key w₁ hw).bind fun asks w₂ hw₂ ⟨hadds₂, hknown⟩ => ?_
  have hquiet := hadds₂.allQuiet hquiet
  refine Leads.adding (Adding.noiseWrite _ _ _ _ _) (fun st w₃ _ hadds₃ hwrite => ?_) hw₂
  have hquiet := hadds₃.allQuiet hquiet
  refine Leads.adding (Adding.orFail _ _) fun noise w₄ _ hadds₄ hinto => ?_
  have hquiet := hadds₄.allQuiet hquiet
  obtain ⟨-, room, msg, hwrite⟩ := hwrite
  have hremote := ((hN.into _ _ hinto.2).trans (hN.reply _ _ _ _ _ hwrite)).trans hkey.2
  refine fun hw₄ => (leads_readClientFin hN hquiet asks hremote hw₄).bind ?_
  intro r w₅ hw₅ hgoes
  obtain ⟨hremote, hauth⟩ := hgoes.authentic fun h => hadds₄.mem (hadds₃.mem (hknown h))
  -- what follows receives nothing, so `CLIENTFIN` stays the last message
  refine Leads.adding (Adding.ensure _ _) (fun _ w₆ _ hadds₆ hensure => ?_) hw₅
  refine Leads.adding (keeping_sendServerFin hN _) fun noise' w₇ _ hadds₇ hkeep => ?_
  obtain ⟨rfl, -⟩ := hensure
  obtain ⟨rfl, hkeep⟩ := hkeep
  have hadds := hadds₆.trans hadds₇
  refine fun hw₇ => .pure hw₇ ⟨key, hkeep.trans hremote, ?_⟩
  exact hauth.imp hadds.mem fun h => h.adds hadds

end Sides

/-- However the calls are answered, `r` is a stream only for an authentic remote, and nothing is
set that has not been verified. -/
def Authenticates (N : Noise) (head : ℕ) (call : Handshaking (ScallopStream N.Transport)) : Prop :=
  ∀ t r w, Exec env call.run {} t r w →
    w.Vetted ∧ ∀ stream, r = .ok stream → Authentic N head stream w

theorem Leads.authenticates {N : Noise} {head : ℕ} {call : Handshaking (ScallopStream N.Transport)}
    (h : Leads call {} (Authentic N head)) : Authenticates N head call :=
  fun _ _ _ hx => (h nofun).exec hx

/-- Both sides authenticate the remote, whatever it sends. -/
theorem scallop_authenticates {N : Noise} (hN : N.KeepsRemote) (secret : Bytes) (auther : Bool) :
    Authenticates N 0 (newClient N secret true auther) ∧
      Authenticates N 1 (newServer N secret true auther) :=
  ⟨(leads_newClient hN secret auther).authenticates,
    (leads_newServer hN secret auther).authenticates⟩

theorem clearNoise_keepsRemote : clearNoise.KeepsRemote where
  reply st payload room msg st' h := by
    obtain ⟨-, h⟩ := Option.ite_none_right_eq_some.1 h
    cases h
    rfl
  into st noise h := h.symm
  write noise payload room msg noise' h := by
    obtain ⟨-, h⟩ := Option.ite_none_right_eq_some.1 h
    cases h
    rfl
  read noise msg room payload noise' h := by
    obtain ⟨-, h⟩ := Option.ite_none_right_eq_some.1 h
    cases h
    rfl

/-- What a side does over the pipes is one of its runs. -/
theorem exec_of_path {answer : ∀ op, SideAns op} {α : Type} {p p' : Party SideAns α} {t : List Act}
    {r : α} (h : Path answer p t p') (hp : p' = .ret r) (w : Record) :
    ∃ es w', Exec env p w es r w' := by
  induction h generalizing w with
  | refl p =>
    cases hp
    exact ⟨[], w, .ret r w⟩
  | send _ ih =>
    obtain ⟨es, w', hx⟩ := ih hp w
    exact ⟨_, w', .call rfl hx⟩
  | @recv b _ _ _ _ ih =>
    obtain ⟨es, w', hx⟩ := ih hp { w with received := w.received ++ [b] }
    have hb : env .recv w (some b) { w with received := w.received ++ [b] } := rfl
    exact ⟨_, w', .call hb hx⟩
  | @loc op _ _ _ _ ih =>
    obtain ⟨es, w', hx⟩ := ih hp { w with calls := w.calls ++ [⟨op, answer op⟩] }
    exact ⟨_, w', .call rfl hx⟩

/-- A client that asks for an attestation, and gets one of a single byte. -/
theorem scallop_authenticates_asking : ∃ es stream w,
    Exec env (newClient clearNoise (keyOf 1).val true true).run {} es (.ok stream) w ∧
      Authentic clearNoise 0 stream w := by
  have haccepts : (asking [7]).Accepts (asking [7]) (keyOf 2) := asking_accepts (by decide) _
  obtain ⟨fin, serverFin, _, _, _, _, hfin⟩ := (clearIX (keyOf 1) (keyOf 2)).exists_fin
    (c := asking [7]) (s := asking [7]) (fun _ => by decide) (fun _ => by decide)
  obtain ⟨stream, hclient⟩ := (clearIX (keyOf 1) (keyOf 2)).client_does hfin
    (fun _ => asking_accepts (by decide) _) (fun _ => haccepts)
  obtain ⟨es, w, hx⟩ := exec_of_path hclient rfl {}
  refine ⟨es, stream, w, hx, ?_⟩
  exact ((scallop_authenticates clearNoise_keepsRemote _ true).1 _ _ _ hx).2 stream rfl

end Oyster.Scallop
