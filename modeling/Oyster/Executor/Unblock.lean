import Oyster.Executor.Resend

namespace Oyster.Executor

variable {W D T : Type}

namespace PendingTxnData

/-- The transaction has been changed in its hash, its gas and its history at most. -/
structure SameTxn (p q : PendingTxnData W D T) : Prop where
  nonce : p.nonce = q.nonce
  httpRpcClient : p.httpRpcClient = q.httpRpcClient
  txnData : p.txnData = q.txnData

/-- Everything that was sent for the nonce, from the first on. -/
def GasGrows (p : PendingTxnData W D T) : Prop :=
  p.sends.Pairwise fun t t' => t.gas ≤ t'.gas ∧ t.gasPrice ≤ t'.gasPrice

def SentInOrder (p : PendingTxnData W D T) : Prop :=
  (∀ t ∈ p.sends, t.nonce = p.nonce ∧ t.sender = p.httpRpcClient) ∧ p.GasGrows

/-- All sends were made for the nonce of the transaction, and none with more gas than it has. -/
structure Tracked (generateTxn : JobsTxnMetadata D → Option T) (p : PendingTxnData W D T) :
    Prop where
  payload : ∃ payload, generateTxn p.txnData = some payload
  grows : p.GasGrows
  sends : ∀ t ∈ p.sends, t.nonce = p.nonce ∧ t.sender = p.httpRpcClient ∧
    t.gas ≤ p.gasLimit ∧ t.gasPrice ≤ p.gasPrice

variable {generateTxn : JobsTxnMetadata D → Option T} {p q r : PendingTxnData W D T}

theorem Tracked.sentInOrder (h : p.Tracked generateTxn) : p.SentInOrder :=
  ⟨fun t ht => ⟨(h.sends t ht).1, (h.sends t ht).2.1⟩, h.grows⟩

theorem SameTxn.refl (p : PendingTxnData W D T) : p.SameTxn p := ⟨rfl, rfl, rfl⟩

theorem SameTxn.trans (h : p.SameTxn q) (h' : q.SameTxn r) : p.SameTxn r :=
  ⟨h.nonce.trans h'.nonce, h.httpRpcClient.trans h'.httpRpcClient, h.txnData.trans h'.txnData⟩

theorem bumpGasLimit_eq_none : p.bumpGasLimit = none ↔ ¬p.LimitFits := by
  unfold bumpGasLimit
  split_ifs with hfits
  · exact iff_of_false nofun (not_not.2 hfits)
  · exact iff_of_true rfl hfits

theorem bumpGasPrice_eq_none : p.bumpGasPrice = none ↔ ¬p.PriceFits := by
  unfold bumpGasPrice
  split_ifs with hfits
  · exact iff_of_false nofun (not_not.2 hfits)
  · exact iff_of_true rfl hfits

theorem Tracked.raise (h : p.Tracked generateTxn) {gasLimit gasPrice : ℕ}
    (hlimit : p.gasLimit ≤ gasLimit) (hprice : p.gasPrice ≤ gasPrice) :
    Tracked generateTxn { p with gasLimit := gasLimit, gasPrice := gasPrice } where
  payload := h.payload
  grows := h.grows
  sends := by
    intro t ht
    obtain ⟨hnonce, hsender, hgas, hgasPrice⟩ := h.sends t ht
    exact ⟨hnonce, hsender, Nat.le_trans hgas hlimit, Nat.le_trans hgasPrice hprice⟩

theorem Tracked.bumpGasLimit (h : p.Tracked generateTxn) (hq : p.bumpGasLimit = some q) :
    q.Tracked generateTxn ∧ q.SameTxn p := by
  unfold PendingTxnData.bumpGasLimit at hq
  split_ifs at hq
  cases hq
  exact ⟨h.raise (Nat.le_add_right _ _) (Nat.le_refl _), ⟨rfl, rfl, rfl⟩⟩

theorem Tracked.bumpGasPrice (h : p.Tracked generateTxn) (hq : p.bumpGasPrice = some q) :
    q.Tracked generateTxn ∧ q.SameTxn p := by
  unfold PendingTxnData.bumpGasPrice at hq
  split_ifs at hq
  cases hq
  have hprice : p.gasPrice ≤ (100 + resendGasPriceIncrementPercent) * p.gasPrice / 100 := by
    unfold resendGasPriceIncrementPercent
    omega
  exact ⟨h.raise (Nat.le_refl _) hprice, ⟨rfl, rfl, rfl⟩⟩

theorem Tracked.record (h : p.Tracked generateTxn) (payload : Option T) :
    (p.record (p.request payload)).Tracked generateTxn where
  payload := h.payload
  grows := by
    apply List.pairwise_append.2
    refine ⟨h.grows, List.pairwise_singleton _ _, ?_⟩
    intro t ht t' ht'
    rw [List.mem_singleton.1 ht']
    exact (h.sends t ht).2.2
  sends := by
    intro t ht
    rcases List.mem_append.1 ht with ht | ht
    · exact h.sends t ht
    · rw [List.mem_singleton.1 ht]
      exact ⟨rfl, rfl, Nat.le_refl _, Nat.le_refl _⟩

end PendingTxnData

namespace Resender

section Known

variable (generateTxn : JobsTxnMetadata D → Option T) (popped : Option (PendingTxnData W D T))
  (client : Option W)

structure Working (p : PendingTxnData W D T) : Prop where
  tracked : p.Tracked generateTxn
  popped : ∃ q, popped = some q ∧ p.SameTxn q
  client : ∃ wallet, client = some wallet

/-- The request is for the nonce of the transaction and signed by its wallet. -/
def ForNonce (txn : TxnRequest W T) (p : PendingTxnData W D T) : Prop :=
  txn.nonce = p.nonce ∧ txn.sender = p.httpRpcClient

def TaskInv : Resend W D T → Prop
  | .idle | .stopped | .panicked => True
  | .monitoring p | .dummy p => Working generateTxn popped client p
  | .retrying p sendDummy | .replacing p sendDummy =>
    Working generateTxn popped client p ∧ sendDummy = true
  | .handing currentGasAddress p =>
    Working generateTxn popped client p ∧ currentGasAddress ≠ p.httpRpcClient
  | .sending txn p sendDummy =>
    Working generateTxn popped client p ∧ sendDummy = true ∧ ForNonce txn p
  | .sendingDummy txn p | .confirming txn p =>
    Working generateTxn popped client p ∧ ForNonce txn p ∧ txn.payload = none

def TaskInvAfter (task : Option (Resend W D T)) : Prop :=
  ∀ t, task = some t → TaskInv generateTxn popped client t

end Known

structure Inv (generateTxn : JobsTxnMetadata D → Option T) (s : Resender W D T) : Prop where
  pendingTxns : ∀ p ∈ s.pendingTxns, p.Tracked generateTxn
  client : s.pendingTxns ≠ [] → ∃ wallet, s.httpRpcClient = some wallet
  task : TaskInv generateTxn s.popped s.httpRpcClient s.task

section Task

variable {generateTxn : JobsTxnMetadata D → Option T} {popped : Option (PendingTxnData W D T)}
  {client : Option W} {p q : PendingTxnData W D T}

theorem Working.next (h : Working generateTxn popped client p) (hq : q.Tracked generateTxn)
    (hsame : q.SameTxn p) : Working generateTxn popped client q := by
  obtain ⟨r, hpopped, hr⟩ := h.popped
  exact ⟨hq, ⟨r, hpopped, hsame.trans hr⟩, h.client⟩

theorem Working.bumpGasLimit (h : Working generateTxn popped client p)
    (hq : p.bumpGasLimit = some q) : Working generateTxn popped client q :=
  h.next (h.tracked.bumpGasLimit hq).1 (h.tracked.bumpGasLimit hq).2

theorem Working.bumpGasPrice (h : Working generateTxn popped client p)
    (hq : p.bumpGasPrice = some q) : Working generateTxn popped client q :=
  h.next (h.tracked.bumpGasPrice hq).1 (h.tracked.bumpGasPrice hq).2

theorem Working.record (h : Working generateTxn popped client p) (payload : Option T) :
    Working generateTxn popped client (p.record (p.request payload)) :=
  h.next (h.tracked.record payload) ⟨rfl, rfl, rfl⟩

theorem afterError_inv (h : Working generateTxn popped client p) (error : JobsTxnSendError) :
    TaskInvAfter generateTxn popped client (afterError p true error) := by
  intro t ht
  cases error with
  | nonceTooLow =>
    cases ht
    trivial
  | outOfGas =>
    dsimp only [afterError] at ht
    obtain ⟨q, hq, rfl⟩ := Option.map_eq_some_iff.1 ht
    exact ⟨h.bumpGasLimit hq, rfl⟩
  | gasPriceLow =>
    dsimp only [afterError] at ht
    obtain ⟨q, hq, rfl⟩ := Option.map_eq_some_iff.1 ht
    exact ⟨h.bumpGasPrice hq, rfl⟩
  | gasTooHigh | contractExecution =>
    cases ht
    exact h
  | nonceTooHigh | networkConnectivity | otherRetryable =>
    cases ht
    exact ⟨h, rfl⟩

theorem afterDummyError_inv (h : Working generateTxn popped client p) (error : JobsTxnSendError) :
    TaskInvAfter generateTxn popped client (afterDummyError p error) := by
  intro t ht
  cases error with
  | nonceTooLow =>
    cases ht
    trivial
  | outOfGas =>
    dsimp only [afterDummyError] at ht
    obtain ⟨q, hq, rfl⟩ := Option.map_eq_some_iff.1 ht
    exact h.bumpGasLimit hq
  | gasPriceLow =>
    dsimp only [afterDummyError] at ht
    obtain ⟨q, hq, rfl⟩ := Option.map_eq_some_iff.1 ht
    exact h.bumpGasPrice hq
  | nonceTooHigh | gasTooHigh | contractExecution | networkConnectivity | otherRetryable =>
    cases ht
    exact h

end Task

section States

variable {generateTxn : JobsTxnMetadata D → Option T} {s s' : Resender W D T}
  {p : PendingTxnData W D T}

theorem Inv.goOn (h : s.Inv generateTxn) {task : Option (Resend W D T)}
    (ht : TaskInvAfter generateTxn s.popped s.httpRpcClient task) :
    (s.goOn task).Inv generateTxn := by
  cases task with
  | none => exact ⟨h.pendingTxns, h.client, trivial⟩
  | some t => exact ⟨h.pendingTxns, h.client, ht t rfl⟩

theorem Inv.pop (h : s.Inv generateTxn) : s.pop.Inv generateTxn := by
  unfold Resender.pop
  cases hpending : s.pendingTxns with
  | nil =>
    refine ⟨?_, ?_, ?_⟩
    · exact nofun
    · intro hne
      exact absurd rfl hne
    · dsimp only
      split_ifs
      · trivial
      · trivial
  | cons p pendingTxns =>
    have hmem : p ∈ s.pendingTxns := by
      rw [hpending]
      exact List.mem_cons_self
    have hclient := h.client (List.ne_nil_of_mem hmem)
    refine ⟨?_, fun _ => hclient, ?_⟩
    · intro q hq
      apply h.pendingTxns
      rw [hpending]
      exact List.mem_cons_of_mem p hq
    · exact ⟨h.pendingTxns p hmem, ⟨p, rfl, .refl p⟩, hclient⟩

theorem TaskInv.setClient {popped : Option (PendingTxnData W D T)} {client : Option W} {wallet : W}
    {task : Resend W D T} (h : TaskInv generateTxn popped client task) :
    TaskInv generateTxn popped (some wallet) task := by
  have hworking : ∀ p, Working generateTxn popped client p →
      Working generateTxn popped (some wallet) p := fun p hp =>
    ⟨hp.tracked, hp.popped, wallet, rfl⟩
  cases task with
  | idle | stopped | panicked => trivial
  | monitoring p | dummy p => exact hworking p h
  | retrying p sendDummy | replacing p sendDummy => exact ⟨hworking p h.1, h.2⟩
  | handing currentGasAddress p => exact ⟨hworking p h.1, h.2⟩
  | sending txn p sendDummy => exact ⟨hworking p h.1, h.2⟩
  | sendingDummy txn p | confirming txn p => exact ⟨hworking p h.1, h.2⟩

theorem Inv.fresh (h : s.Fresh) : s.Inv generateTxn := by
  refine ⟨?_, ?_, ?_⟩
  · rw [h.pendingTxns]
    exact nofun
  · intro hne
    exact absurd h.pendingTxns hne
  · rw [h.task]
    trivial

theorem TaskInv.tracked {popped : Option (PendingTxnData W D T)} {client : Option W}
    {task : Resend W D T} (h : TaskInv generateTxn popped client task)
    (hheld : task.held = some p) : p.Tracked generateTxn := by
  cases task with
  | idle | stopped | panicked => cases hheld
  | monitoring q | dummy q =>
    cases hheld
    exact Working.tracked h
  | retrying q sendDummy | replacing q sendDummy | handing currentGasAddress q
  | sending txn q sendDummy | sendingDummy txn q | confirming txn q =>
    cases hheld
    exact h.1.tracked

/-- `txn` has been passed to `send_transaction`. -/
def InFlight (task : Resend W D T) (txn : TxnRequest W T) : Prop :=
  (∃ p sendDummy, task = .sending txn p sendDummy) ∨ ∃ p, task = .sendingDummy txn p

/-- One of the ways in which the work on a popped transaction may end. -/
inductive Disposed (s : Resender W D T) (e : ResendEvent W D T) (s' : Resender W D T)
    (popped : PendingTxnData W D T) : Prop
  | mined {p : PendingTxnData W D T} : s.task = .monitoring p → e = .receipt true →
    Disposed s e s' popped
  | nonceTooLow {txn : TxnRequest W T} {error : String} : InFlight s.task txn →
    ForNonce txn popped → e = .refused error → parseSendError error = .nonceTooLow →
    Disposed s e s' popped
  | pushedBack {p : PendingTxnData W D T} {hash now : ℕ} : e = .accepted hash now →
    s'.pendingTxns = p :: s.pendingTxns → p.SameTxn popped → p.txnHash = hash →
    Disposed s e s' popped
  | handedOver {currentGasAddress : W} {p : PendingTxnData W D T} :
    s.task = .handing currentGasAddress p → currentGasAddress ≠ popped.httpRpcClient →
    s'.handed = s.handed ++ [popped.txnData] → Disposed s e s' popped
  | walletChanged {currentGasAddress : W} {p : PendingTxnData W D T} : s.task = .dummy p →
    s.httpRpcClient = some currentGasAddress → currentGasAddress ≠ popped.httpRpcClient →
    Disposed s e s' popped
  | unblocked {txn : TxnRequest W T} {p : PendingTxnData W D T} : s.task = .confirming txn p →
    e = .confirmed true → txn.payload = none → ForNonce txn popped → Disposed s e s' popped

/-- The gas limit and the gas price that are to be raised do not overflow. -/
def BumpsFit (s : Resender W D T) (e : ResendEvent W D T) : Prop :=
  match s.task, e with
  | .monitoring p, .receipt false => p.LimitFits ∧ p.PriceFits
  | .sending _ p _, .refused error | .sendingDummy _ p, .refused error =>
    (parseSendError error = .outOfGas → p.LimitFits) ∧
      (parseSendError error = .gasPriceLow → p.PriceFits)
  | _, _ => True

theorem goOn_held (s : Resender W D T) (task : Option (Resend W D T)) :
    (s.goOn task).task.held = task.bind Resend.held := by
  cases task <;> rfl

theorem bumps_eq_none_iff {p : PendingTxnData W D T} :
    p.bumpGasLimit.bind (·.bumpGasPrice) = none ↔ ¬(p.LimitFits ∧ p.PriceFits) := by
  cases hlimit : p.bumpGasLimit with
  | none =>
    have hnot := PendingTxnData.bumpGasLimit_eq_none.1 hlimit
    exact iff_of_true rfl fun h => hnot h.1
  | some q =>
    have hfits : p.LimitFits := by
      by_contra hnot
      rw [PendingTxnData.bumpGasLimit_eq_none.2 hnot] at hlimit
      cases hlimit
    have hprice : q.gasPrice = p.gasPrice := by
      unfold PendingTxnData.bumpGasLimit at hlimit
      rw [if_pos hfits] at hlimit
      rw [← Option.some.inj hlimit]
    rw [Option.bind_some, PendingTxnData.bumpGasPrice_eq_none]
    unfold PendingTxnData.PriceFits
    rw [hprice, and_iff_right hfits]

theorem bump_of_held {x : Option (PendingTxnData W D T)}
    {next : PendingTxnData W D T → Resend W D T}
    (h : (x.map next).bind Resend.held = none) (hnext : ∀ q, (next q).held ≠ none) : x = none := by
  cases x with
  | none => rfl
  | some q => exact absurd h (hnext q)

theorem afterError_held {p : PendingTxnData W D T} {error : JobsTxnSendError}
    (h : (afterError p true error).bind Resend.held = none) : error = .nonceTooLow ∨
      error = .outOfGas ∧ ¬p.LimitFits ∨ error = .gasPriceLow ∧ ¬p.PriceFits := by
  cases error with
  | nonceTooLow => exact .inl rfl
  | outOfGas =>
    dsimp only [afterError] at h
    have hbump := bump_of_held h fun _ => nofun
    exact .inr (.inl ⟨rfl, PendingTxnData.bumpGasLimit_eq_none.1 hbump⟩)
  | gasPriceLow =>
    dsimp only [afterError] at h
    have hbump := bump_of_held h fun _ => nofun
    exact .inr (.inr ⟨rfl, PendingTxnData.bumpGasPrice_eq_none.1 hbump⟩)
  | gasTooHigh | contractExecution | nonceTooHigh | networkConnectivity | otherRetryable => cases h

theorem afterDummyError_held {p : PendingTxnData W D T} {error : JobsTxnSendError}
    (h : (afterDummyError p error).bind Resend.held = none) : error = .nonceTooLow ∨
      error = .outOfGas ∧ ¬p.LimitFits ∨ error = .gasPriceLow ∧ ¬p.PriceFits := by
  cases error with
  | nonceTooLow => exact .inl rfl
  | outOfGas =>
    dsimp only [afterDummyError] at h
    have hbump := bump_of_held h fun _ => nofun
    exact .inr (.inl ⟨rfl, PendingTxnData.bumpGasLimit_eq_none.1 hbump⟩)
  | gasPriceLow =>
    dsimp only [afterDummyError] at h
    have hbump := bump_of_held h fun _ => nofun
    exact .inr (.inr ⟨rfl, PendingTxnData.bumpGasPrice_eq_none.1 hbump⟩)
  | gasTooHigh | contractExecution | nonceTooHigh | networkConnectivity | otherRetryable => cases h

theorem fits_of_tooLow {p : PendingTxnData W D T} {after : JobsTxnSendError → Option (Resend W D T)}
    {error : JobsTxnSendError} (hlimit : ¬p.LimitFits → after .outOfGas = none)
    (hprice : ¬p.PriceFits → after .gasPriceLow = none)
    (h : (after error).bind Resend.held = none → error = .nonceTooLow) :
    (error = .outOfGas → p.LimitFits) ∧ (error = .gasPriceLow → p.PriceFits) := by
  constructor
  · rintro rfl
    by_contra hnot
    rw [hlimit hnot] at h
    cases h rfl
  · rintro rfl
    by_contra hnot
    rw [hprice hnot] at h
    cases h rfl

theorem Disposed.found {p popped : PendingTxnData W D T} {found : Bool}
    (h : Disposed s (.receipt found) s' popped) (htask : s.task = .monitoring p) :
    found = true := by
  cases h with
  | mined _ he =>
    cases he
    rfl
  | nonceTooLow _ _ he => cases he
  | pushedBack he => cases he
  | handedOver htask' => cases htask.symm.trans htask'
  | walletChanged htask' => cases htask.symm.trans htask'
  | unblocked _ he => cases he

theorem Disposed.tooLow {txn : TxnRequest W T} {popped : PendingTxnData W D T} {error : String}
    (h : Disposed s (.refused error) s' popped) (hflight : InFlight s.task txn) :
    parseSendError error = .nonceTooLow := by
  have hno : ∀ p currentGasAddress, s.task ≠ .dummy p ∧ s.task ≠ .handing currentGasAddress p := by
    intro p currentGasAddress
    rcases hflight with ⟨q, sendDummy, hq⟩ | ⟨q, hq⟩ <;> rw [hq] <;> exact ⟨nofun, nofun⟩
  cases h with
  | mined _ he => cases he
  | nonceTooLow _ _ he herror =>
    cases he
    exact herror
  | pushedBack he => cases he
  | handedOver htask => exact absurd htask (hno _ _).2
  | @walletChanged currentGasAddress p htask => exact absurd htask (hno p currentGasAddress).1
  | unblocked _ he => cases he

/-- What was sent for every transaction that is pending or worked on has only grown in gas. -/
def GasNeverDecreases (s : Resender W D T) : Prop :=
  (∀ p ∈ s.pendingTxns, p.SentInOrder) ∧ ∀ p, s.task.held = some p → p.SentInOrder

theorem Inv.gasNeverDecreases (h : s.Inv generateTxn) : s.GasNeverDecreases :=
  ⟨fun p hp => (h.pendingTxns p hp).sentInOrder, fun _ hp => (h.task.tracked hp).sentInOrder⟩

end States

section Steps

variable [DecidableEq W] {generateTxn : JobsTxnMetadata D → Option T} {s s' : Resender W D T}
  {e : ResendEvent W D T} {p : PendingTxnData W D T}

theorem replace_inv (h : Working generateTxn s.popped s.httpRpcClient p) :
    TaskInvAfter generateTxn s.popped s.httpRpcClient (s.replace generateTxn p true) := by
  obtain ⟨payload, hpayload⟩ := h.tracked.payload
  obtain ⟨wallet, hwallet⟩ := h.client
  intro t ht
  simp only [replace, hpayload, hwallet, Option.bind_eq_bind, Option.bind_some] at ht
  split_ifs at ht with hne
  · cases ht
    exact ⟨h, hne⟩
  · cases ht
    exact ⟨h.record (some payload), rfl, rfl, rfl⟩

theorem replaceByDummy_inv (h : Working generateTxn s.popped s.httpRpcClient p) :
    TaskInvAfter generateTxn s.popped s.httpRpcClient (s.replaceByDummy p) := by
  obtain ⟨wallet, hwallet⟩ := h.client
  intro t ht
  simp only [replaceByDummy, hwallet, Option.bind_eq_bind, Option.bind_some] at ht
  split_ifs at ht with hne
  · cases ht
    trivial
  · cases ht
    exact ⟨h.record none, ⟨rfl, rfl⟩, rfl⟩

/-- Every step of the task keeps the invariant. -/
theorem Inv.stepTask (h : s.Inv generateTxn) (halive : e ≠ .handedOver false)
    (hs : s.stepTask generateTxn s.task e = some s') : s'.Inv generateTxn := by
  have ht := h.task
  cases htask : s.task with
  | idle =>
    rw [htask] at hs
    cases e with
    | go =>
      cases hs
      exact h.pop
    | _ => cases hs
  | monitoring p =>
    rw [htask] at hs ht
    cases e with
    -- not mined: the gas and the price are both raised
    | receipt found =>
      cases hs
      apply h.goOn
      intro t hnext
      cases found with
      | true =>
        cases hnext
        trivial
      | false =>
        rw [if_neg Bool.false_ne_true] at hnext
        obtain ⟨q, hq, rfl⟩ := Option.map_eq_some_iff.1 hnext
        obtain ⟨r, hr, hq⟩ := Option.bind_eq_some_iff.1 hq
        exact ⟨(Working.bumpGasLimit ht hr).bumpGasPrice hq, rfl⟩
    | _ => cases hs
  | retrying p sendDummy =>
    rw [htask] at hs ht
    obtain ⟨hworking, rfl⟩ := ht
    cases e with
    | clock now =>
      cases hs
      apply h.goOn
      intro t hnext
      cases hnext
      split_ifs
      · exact ⟨hworking, rfl⟩
      · exact hworking
    | _ => cases hs
  | replacing p sendDummy =>
    rw [htask] at hs ht
    obtain ⟨hworking, rfl⟩ := ht
    cases e with
    | go =>
      cases hs
      exact h.goOn (replace_inv hworking)
    | _ => cases hs
  | handing currentGasAddress p =>
    rw [htask] at hs ht
    cases e with
    | handedOver ok =>
      cases ok with
      -- a receiver that is gone would end the task
      | false => exact absurd rfl halive
      | true =>
        cases hs
        exact ⟨h.pendingTxns, h.client, trivial⟩
    | _ => cases hs
  | sending txn p sendDummy =>
    rw [htask] at hs ht
    obtain ⟨hworking, rfl, -⟩ := ht
    cases e with
    | accepted hash now =>
      cases hs
      -- it goes back to the front of the queue under its new hash
      refine ⟨?_, fun _ => hworking.client, trivial⟩
      intro q hq
      rcases List.mem_cons.1 hq with rfl | hq
      · exact ⟨hworking.tracked.payload, hworking.tracked.grows, hworking.tracked.sends⟩
      · exact h.pendingTxns q hq
    | refused error =>
      cases hs
      exact h.goOn (afterError_inv hworking _)
    | _ => cases hs
  | dummy p =>
    rw [htask] at hs ht
    cases e with
    | go =>
      cases hs
      exact h.goOn (replaceByDummy_inv ht)
    | _ => cases hs
  | sendingDummy txn p =>
    rw [htask] at hs ht
    cases e with
    | accepted hash now =>
      cases hs
      exact ⟨h.pendingTxns, h.client, ht⟩
    | refused error =>
      cases hs
      exact h.goOn (afterDummyError_inv ht.1 _)
    | _ => cases hs
  | confirming txn p =>
    rw [htask] at hs ht
    cases e with
    | confirmed ok =>
      cases hs
      refine ⟨h.pendingTxns, h.client, ?_⟩
      cases ok with
      | true => trivial
      | false => exact ht.1
    | _ => cases hs
  | stopped =>
    rw [htask] at hs
    cases hs
  | panicked =>
    rw [htask] at hs
    cases hs

theorem Inv.step (h : s.Inv generateTxn) (hs : Step generateTxn s e s') : s'.Inv generateTxn := by
  obtain ⟨halive, hs⟩ := hs
  cases e with
  -- the sender queues what it has just sent
  | pushBack p =>
    simp only [Resender.step, Option.bind_eq_bind, Option.bind_eq_some_iff] at hs
    obtain ⟨payload, hpayload, wallet, hwallet, hs⟩ := hs
    cases hs
    refine ⟨?_, fun _ => ⟨wallet, hwallet⟩, h.task⟩
    intro q hq
    rcases List.mem_append.1 hq with hq | hq
    · exact h.pendingTxns q hq
    · rw [List.mem_singleton.1 hq]
      refine ⟨⟨payload, hpayload⟩, List.pairwise_singleton _ _, ?_⟩
      intro t ht
      rw [List.mem_singleton.1 ht]
      exact ⟨rfl, rfl, Nat.le_refl _, Nat.le_refl _⟩
  | setClient wallet =>
    cases hs
    exact ⟨h.pendingTxns, fun _ => ⟨wallet, rfl⟩, h.task.setClient⟩
  | deregister =>
    cases hs
    exact ⟨h.pendingTxns, h.client, h.task⟩
  | go => exact h.stepTask halive hs
  | receipt found => exact h.stepTask halive hs
  | clock now => exact h.stepTask halive hs
  | handedOver ok => exact h.stepTask halive hs
  | accepted hash now => exact h.stepTask halive hs
  | refused error => exact h.stepTask halive hs
  | confirmed ok => exact h.stepTask halive hs

/-- If the step ends the work on the popped transaction, it does so in one of these ways. -/
def LeavesDisposed (generateTxn : JobsTxnMetadata D → Option T) (s : Resender W D T)
    (e : ResendEvent W D T) : Prop :=
  ∀ popped s', s.task.held ≠ none → s.popped = some popped → s.step generateTxn e = some s' →
    s'.task.held = none → Disposed s e s' popped

theorem Inv.disposed (h : s.Inv generateTxn) (halive : e ≠ .handedOver false)
    (hfits : s.BumpsFit e) {popped : PendingTxnData W D T} (hpopped : s.popped = some popped)
    (hheld : s.task.held ≠ none) (hs : s.stepTask generateTxn s.task e = some s')
    (hleft : s'.task.held = none) : s.Disposed e s' popped := by
  have ht := h.task
  have hsame : ∀ p, Working generateTxn s.popped s.httpRpcClient p → p.SameTxn popped := by
    intro p hp
    obtain ⟨q, hq, hsame⟩ := hp.popped
    cases hpopped.symm.trans hq
    exact hsame
  have hfor : ∀ txn p, Working generateTxn s.popped s.httpRpcClient p → ForNonce txn p →
      ForNonce txn popped := fun _ p hp h =>
    ⟨h.1.trans (hsame p hp).nonce, h.2.trans (hsame p hp).httpRpcClient⟩
  unfold BumpsFit at hfits
  cases htask : s.task with
  | idle | stopped | panicked =>
    rw [htask] at hheld
    exact absurd rfl hheld
  | monitoring p =>
    rw [htask] at hs hfits
    cases e with
    | receipt found =>
      cases hs
      cases found with
      | true => exact .mined htask rfl
      | false =>
        rw [goOn_held, if_neg Bool.false_ne_true] at hleft
        cases hbumps : p.bumpGasLimit.bind (·.bumpGasPrice) with
        -- the bump would have panicked
        | none => exact absurd hfits (bumps_eq_none_iff.1 hbumps)
        | some q =>
          rw [hbumps] at hleft
          cases hleft
    | _ => cases hs
  | retrying p sendDummy =>
    rw [htask] at hs ht
    obtain ⟨-, rfl⟩ := ht
    cases e with
    | clock now =>
      cases hs
      rw [goOn_held] at hleft
      split_ifs at hleft
      · cases hleft
      · cases hleft
    | _ => cases hs
  | replacing p sendDummy =>
    rw [htask] at hs ht
    obtain ⟨hworking, rfl⟩ := ht
    cases e with
    | go =>
      cases hs
      obtain ⟨payload, hpayload⟩ := hworking.tracked.payload
      obtain ⟨wallet, hwallet⟩ := hworking.client
      simp only [goOn_held, replace, hpayload, hwallet, Option.bind_eq_bind,
        Option.bind_some] at hleft
      split_ifs at hleft
      · cases hleft
      · cases hleft
    | _ => cases hs
  | handing currentGasAddress p =>
    rw [htask] at hs ht
    obtain ⟨hworking, hne⟩ := ht
    cases e with
    | handedOver ok =>
      cases ok with
      | false => exact absurd rfl halive
      | true =>
        cases hs
        rw [(hsame p hworking).httpRpcClient] at hne
        refine .handedOver htask hne ?_
        rw [(hsame p hworking).txnData]
    | _ => cases hs
  | sending txn p sendDummy =>
    rw [htask] at hs ht hfits
    obtain ⟨hworking, rfl, hnonce⟩ := ht
    cases e with
    | accepted hash now =>
      cases hs
      have hp := hsame p hworking
      exact .pushedBack rfl rfl ⟨hp.nonce, hp.httpRpcClient, hp.txnData⟩ rfl
    | refused error =>
      cases hs
      rw [goOn_held] at hleft
      obtain herror | ⟨herror, hnot⟩ | ⟨herror, hnot⟩ := afterError_held hleft
      · exact .nonceTooLow (.inl ⟨p, true, htask⟩) (hfor txn p hworking hnonce) rfl herror
      · exact absurd (hfits.1 herror) hnot
      · exact absurd (hfits.2 herror) hnot
    | _ => cases hs
  | dummy p =>
    rw [htask] at hs ht
    obtain ⟨wallet, hwallet⟩ := ht.client
    cases e with
    | go =>
      cases hs
      simp only [goOn_held, replaceByDummy, hwallet, Option.bind_eq_bind,
        Option.bind_some] at hleft
      split_ifs at hleft with hne
      · rw [(hsame p ht).httpRpcClient] at hne
        exact .walletChanged htask hwallet hne
      · cases hleft
    | _ => cases hs
  | sendingDummy txn p =>
    rw [htask] at hs ht hfits
    obtain ⟨hworking, hnonce, -⟩ := ht
    cases e with
    | accepted hash now =>
      cases hs
      cases hleft
    | refused error =>
      cases hs
      rw [goOn_held] at hleft
      obtain herror | ⟨herror, hnot⟩ | ⟨herror, hnot⟩ := afterDummyError_held hleft
      · exact .nonceTooLow (.inr ⟨p, htask⟩) (hfor txn p hworking hnonce) rfl herror
      · exact absurd (hfits.1 herror) hnot
      · exact absurd (hfits.2 herror) hnot
    | _ => cases hs
  | confirming txn p =>
    rw [htask] at hs ht
    obtain ⟨hworking, hnonce, hpayload⟩ := ht
    cases e with
    | confirmed ok =>
      cases ok with
      | true => exact .unblocked htask rfl hpayload (hfor txn p hworking hnonce)
      | false =>
        cases hs
        cases hleft
    | _ => cases hs

/-- A bump that overflows panics, which is none of the listed ways. -/
theorem Inv.fits (h : s.Inv generateTxn) (hs : s.stepTask generateTxn s.task e = some s')
    (hleaves : s.task.held ≠ none → ∀ popped, s.popped = some popped → s'.task.held = none →
      s.Disposed e s' popped) : s.BumpsFit e := by
  have ht := h.task
  unfold BumpsFit
  cases htask : s.task with
  | monitoring p =>
    rw [htask] at hs ht hleaves
    obtain ⟨popped, hpopped, -⟩ := ht.popped
    cases e with
    | receipt found =>
      cases hs
      cases found with
      | true => trivial
      | false =>
        by_contra hnot
        rw [goOn_held, if_neg Bool.false_ne_true, bumps_eq_none_iff.2 hnot] at hleaves
        exact absurd ((hleaves nofun popped hpopped rfl).found htask) Bool.false_ne_true
    | _ => trivial
  | sending txn p sendDummy =>
    rw [htask] at hs ht hleaves
    obtain ⟨popped, hpopped, -⟩ := ht.1.popped
    cases e with
    | refused error =>
      cases hs
      rw [goOn_held] at hleaves
      apply @fits_of_tooLow _ _ _ _ (afterError p sendDummy)
      · intro hnot
        rw [afterError, PendingTxnData.bumpGasLimit_eq_none.2 hnot]
        rfl
      · intro hnot
        rw [afterError, PendingTxnData.bumpGasPrice_eq_none.2 hnot]
        rfl
      · intro hnone
        exact (hleaves nofun popped hpopped hnone).tooLow (.inl ⟨p, sendDummy, htask⟩)
    | _ => trivial
  | sendingDummy txn p =>
    rw [htask] at hs ht hleaves
    obtain ⟨popped, hpopped, -⟩ := ht.1.popped
    cases e with
    | refused error =>
      cases hs
      rw [goOn_held] at hleaves
      apply @fits_of_tooLow _ _ _ _ (afterDummyError p)
      · intro hnot
        rw [afterDummyError, PendingTxnData.bumpGasLimit_eq_none.2 hnot]
        rfl
      · intro hnot
        rw [afterDummyError, PendingTxnData.bumpGasPrice_eq_none.2 hnot]
        rfl
      · intro hnone
        exact (hleaves nofun popped hpopped hnone).tooLow (.inr ⟨p, htask⟩)
    | _ => trivial
  | _ => cases e <;> trivial

theorem step_held (hs : s.step generateTxn e = some s') :
    s.stepTask generateTxn s.task e = some s' ∨ s'.task = s.task ∧ s.BumpsFit e := by
  cases e with
  | pushBack p =>
    simp only [Resender.step, Option.bind_eq_bind, Option.bind_eq_some_iff] at hs
    obtain ⟨payload, -, wallet, -, hs⟩ := hs
    cases hs
    refine .inr ⟨rfl, ?_⟩
    unfold BumpsFit
    cases s.task <;> trivial
  | setClient wallet =>
    cases hs
    refine .inr ⟨rfl, ?_⟩
    unfold BumpsFit
    cases s.task <;> trivial
  | deregister =>
    cases hs
    refine .inr ⟨rfl, ?_⟩
    unfold BumpsFit
    cases s.task <;> trivial
  | go | receipt | clock | handedOver | accepted | refused | confirmed => exact .inl hs

/-- A step ends the work on a transaction in one of the listed ways, if at all, exactly when no
bump of its gas overflows. -/
theorem Inv.leavesDisposed_iff (h : s.Inv generateTxn) (hs : Step generateTxn s e s') :
    LeavesDisposed generateTxn s e ↔ s.BumpsFit e := by
  obtain ⟨halive, hs⟩ := hs
  rcases step_held hs with htask | ⟨hsame, hfits⟩
  · constructor
    · intro hleaves
      exact h.fits htask fun hheld popped hpopped hleft => hleaves popped s' hheld hpopped hs hleft
    · intro hfits popped s'' hheld hpopped hs'' hleft
      cases hs.symm.trans hs''
      exact h.disposed halive hfits hpopped hheld htask hleft
  · refine iff_of_true ?_ hfits
    intro popped s'' hheld _ hs'' hleft
    cases hs.symm.trans hs''
    rw [hsame] at hleft
    exact absurd hleft hheld

/-- In every run while the receiver of the channel is alive, the work on a popped transaction ends
only in the listed ways exactly as long as no bump of its gas overflows, and no send for a nonce
has less gas or a lower gas price than one before it. -/
theorem no_nonce_abandoned {start : Resender W D T} {es : List (ResendEvent W D T)}
    (hstart : start.Fresh) (h : Run (Step generateTxn) start es s) :
    (Along (Step generateTxn) (LeavesDisposed generateTxn) start es s ↔
      Along (Step generateTxn) BumpsFit start es s) ∧ s.GasNeverDecreases := by
  have hinv : start.Inv generateTxn := .fresh hstart
  -- one step at a time: the invariant carries over, and decides it
  refine ⟨⟨fun hleaves => ?_, fun hfits => ?_⟩, ?_⟩
  · exact hleaves.of_invariant (fun _ _ _ hs _ hstep => hs.step hstep)
      (fun _ _ _ hs hleaves hstep => (hs.leavesDisposed_iff hstep).1 hleaves) hinv
  · exact hfits.of_invariant (fun _ _ _ hs _ hstep => hs.step hstep)
      (fun _ _ _ hs hfits hstep => (hs.leavesDisposed_iff hstep).2 hfits) hinv
  · exact (h.invariant (fun _ _ _ hs hstep => hs.step hstep) hinv).gasNeverDecreases

end Steps

namespace Sample

def start : Resender ℕ Unit Unit where
  httpRpcClient := none
  enclaveRegistered := true
  pendingTxns := []
  task := .idle
  handed := []
  popped := none

def pending (gasPrice : ℕ) : PendingTxnData ℕ Unit Unit where
  txnHash := 1
  txnData := ⟨(), 10⟩
  httpRpcClient := 1
  nonce := 5
  gasLimit := 100000
  gasPrice := gasPrice
  lastMonitorInstant := 0
  sends := []

def generate : JobsTxnMetadata Unit → Option Unit := fun _ => some ()

/-- The transaction is not mined in time, and its replacement is accepted. -/
theorem no_nonce_abandoned_sample :
    ∃ s, Run (Step generate) start
        [.setClient 1, .pushBack (pending 1000), .go, .receipt false, .clock 0, .go, .accepted 2 1]
        s ∧
      Along (Step generate) (LeavesDisposed generate) start
        [.setClient 1, .pushBack (pending 1000), .go, .receipt false, .clock 0, .go, .accepted 2 1]
        s ∧
      s.GasNeverDecreases ∧ s.pendingTxns.map (fun p => (p.txnHash, p.nonce, p.gasPrice)) =
        [(2, 5, 1100)] := by
  have hrun : ∃ s, Along (Step generate) BumpsFit start
      [.setClient 1, .pushBack (pending 1000), .go, .receipt false, .clock 0, .go, .accepted 2 1]
      s ∧ s.pendingTxns.map (fun p => (p.txnHash, p.nonce, p.gasPrice)) = [(2, 5, 1100)] :=
    ⟨_, .cons trivial ⟨nofun, rfl⟩ (.cons trivial ⟨nofun, rfl⟩ (.cons trivial ⟨nofun, rfl⟩
      (.cons ⟨by decide, by decide⟩ ⟨nofun, rfl⟩ (.cons trivial ⟨nofun, rfl⟩
      (.cons trivial ⟨nofun, rfl⟩ (.cons trivial ⟨nofun, rfl⟩ (.nil _))))))), rfl⟩
  obtain ⟨s, hfits, hpending⟩ := hrun
  have hall := no_nonce_abandoned ⟨rfl, rfl⟩ hfits.run
  exact ⟨s, hfits.run, hall.1.2 hfits, hall.2, hpending⟩

/-- The gas price of a transaction that is not mined in time cannot be raised: the task is gone,
and nothing has happened to the transaction. -/
theorem nonce_abandoned_sample :
    ∃ s, Run (Step generate) start
        [.setClient 1, .pushBack (pending (2 ^ 250)), .go, .receipt false] s ∧
      s.task = .panicked ∧ s.pendingTxns = [] ∧
      ¬Along (Step generate) (LeavesDisposed generate) start
        [.setClient 1, .pushBack (pending (2 ^ 250)), .go, .receipt false] s := by
  have hrun : ∃ s, Run (Step generate) start
      [.setClient 1, .pushBack (pending (2 ^ 250)), .go, .receipt false] s ∧
      s.task = .panicked ∧ s.pendingTxns = [] :=
    ⟨_, .cons ⟨nofun, rfl⟩ (.cons ⟨nofun, rfl⟩ (.cons ⟨nofun, rfl⟩ (.cons ⟨nofun, rfl⟩
      (.nil _)))), rfl, rfl⟩
  obtain ⟨s, hrun, htask, hpending⟩ := hrun
  refine ⟨s, hrun, htask, hpending, ?_⟩
  intro h
  obtain _ | ⟨-, ⟨-, hs⟩, h⟩ := h
  cases hs
  obtain _ | ⟨-, ⟨-, hs⟩, h⟩ := h
  cases hs
  obtain _ | ⟨-, ⟨-, hs⟩, h⟩ := h
  cases hs
  obtain _ | ⟨hleaves, -, -⟩ := h
  have hdisposed := hleaves _ _ nofun rfl rfl rfl
  exact absurd (hdisposed.found rfl) Bool.false_ne_true

end Sample

end Resender

end Oyster.Executor
