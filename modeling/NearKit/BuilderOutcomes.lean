import NearKit.BuilderChains

/-!
# What comes out of a builder

Every transaction that an operation returns or submits has the builder's receiver and
its actions. A delegate action has them too, without their wrapping; whether it is made
depends on the actions and on two sums, which a build with overflow checks verifies.
-/
namespace NearKit
open Borsh

/-! ## Transactions -/

/-- Only transactions like this are submitted. -/
def submitting (P : Transaction → Prop) : Monitor Request Answer Unit where
  start := ()
  allows _ q := ∀ tx status, q = .sendTx tx status → P tx.transaction
  next _ _ _ := ()

/-- Every transaction that is made of the builder is like this. -/
structure BuilderAt.Yields [Crates] {s : Stage} (b : BuilderAt s) (P : Transaction → Prop) : Prop where
  build : (BuilderAt.build b).Obeys (submitting P) (fun _ r => ∀ tx, r = .ok tx → P tx) ()
  buildOffline : ∀ signerId publicKey blockHash nonce tx,
    b.finish.buildOffline signerId publicKey blockHash nonce = .ok tx → P tx
  sign : (BuilderAt.sign b).Obeys (submitting P)
    (fun _ r => ∀ tx, r = .ok tx → P tx.transaction) ()
  signOffline : ∀ blockHash nonce, (BuilderAt.signOffline blockHash nonce b).Obeys (submitting P)
    (fun _ r => ∀ tx, r = .ok tx → P tx.transaction) ()
  send : ∀ level retries, (((BuilderAt.send b).waitUntil level).withMaxNonceRetries retries).intoFuture.Obeys
    (submitting P) (fun _ _ => True) ()

namespace TransactionBuilder

/-- The transaction has the builder's receiver and actions. -/
def Made (b : TransactionBuilder) (tx : Transaction) : Prop :=
  tx.receiverId = b.receiverId ∧ tx.actions = b.actions

def MadeIn (b : TransactionBuilder) : Phase → Prop
  | .allocated tx => b.Made tx
  | .signed tx => b.Made tx.transaction
  | _ => True

variable {b : TransactionBuilder}

private theorem MadeIn.next {phase : Phase} (h : b.MadeIn phase) (q : Request) (a : Answer q) :
    b.MadeIn (b.nextPhase phase q a) := by
  unfold nextPhase
  split
  · trivial
  · trivial
  · trivial
  · exact ⟨rfl, rfl⟩
  · exact h
  · trivial
  · trivial
  · trivial

variable [Crates]

theorem obeys_submitting {α : Type} {p : Process Request Answer α} {post : Phase → α → Prop}
    {post' : Unit → α → Prop} (h : p.Obeys b.attempts post (.idle none))
    (hpost : ∀ phase r, b.MadeIn phase → post phase r → post' () r) :
    p.Obeys (submitting b.Made) post' () := by
  apply h.simulate (fun phase _ => b.MadeIn phase) _ (fun phase _ r => hpost phase r) trivial
  intro phase _ q hphase hallows
  refine ⟨?_, fun a => hphase.next q a⟩
  rintro tx status rfl
  obtain ⟨rfl⟩ := hallows.sendTx_inv
  exact hphase

private theorem build_yields (b : TransactionBuilder) :
    b.build.Obeys (submitting b.Made) (fun _ r => ∀ tx, r = .ok tx → b.Made tx) () := by
  apply obeys_submitting b.build_obeys
  intro phase r hphase hr tx htx
  rw [hr tx htx] at hphase
  exact hphase

private theorem sign_yields (b : TransactionBuilder) :
    b.sign.Obeys (submitting b.Made) (fun _ r => ∀ tx, r = .ok tx → b.Made tx.transaction) () := by
  apply obeys_submitting b.sign_obeys
  intro phase r hphase hr tx htx
  rw [hr tx htx] at hphase
  exact hphase

private theorem signOffline_yields (b : TransactionBuilder) (blockHash : CryptoHash)
    (nonce : Nonce) : (b.signOffline blockHash nonce).Obeys (submitting b.Made)
      (fun _ r => ∀ tx, r = .ok tx → b.Made tx.transaction) () := by
  unfold signOffline
  by_cases ha : b.actions.isEmpty
  · rw [if_pos ha]
    exact nofun
  · rw [if_neg ha]
    cases b.effectiveSigner with
    | none => exact nofun
    | some signer =>
      refine ⟨nofun, fun key => ?_⟩
      cases hhash : (b.transaction signer.accountId key.publicKey nonce blockHash).getHash with
      | error e =>
        simp only [hhash]
        exact nofun
      | ok txHash =>
        simp only [hhash]
        refine ⟨nofun, fun signature => ?_⟩
        cases signature with
        | error e => exact nofun
        | ok signature =>
          intro tx htx
          cases htx
          exact ⟨rfl, rfl⟩

omit [Crates] in
private theorem buildOffline_yields {b : TransactionBuilder} {signerId : AccountId}
    {publicKey : PublicKey} {blockHash : CryptoHash} {nonce : Nonce} {tx : Transaction}
    (h : b.buildOffline signerId publicKey blockHash nonce = .ok tx) : b.Made tx := by
  unfold buildOffline at h
  split at h
  · cases h
  · cases h
    exact ⟨rfl, rfl⟩

end TransactionBuilder

theorem TransactionSend.intoFuture_yields [Crates] (t : TransactionSend) :
    t.intoFuture.Obeys (submitting t.builder.Made) (fun _ _ => True) () :=
  TransactionBuilder.obeys_submitting t.intoFuture_obeys fun _ _ _ _ => trivial

theorem BuilderAt.yields [Crates] {s : Stage} (b : BuilderAt s) :
    BuilderAt.Yields b b.finish.Made where
  build := b.finish.build_yields
  buildOffline _ _ _ _ _ h := TransactionBuilder.buildOffline_yields h
  sign := by
    cases s with
    | transaction => exact TransactionBuilder.sign_yields b
    | call => exact (CallBuilder.finish b).sign_yields
  signOffline blockHash nonce := by
    cases s with
    | transaction => exact TransactionBuilder.signOffline_yields b blockHash nonce
    | call => exact (CallBuilder.finish b).signOffline_yields blockHash nonce
  send level retries := by
    have h := TransactionSend.intoFuture_yields
      (((BuilderAt.send b).waitUntil level).withMaxNonceRetries retries)
    cases s with
    | transaction => exact h
    | call => exact h

private theorem submitting_mono {P R : Transaction → Prop} (h : ∀ tx, P tx → R tx) {α : Type}
    {p : Process Request Answer α} {post post' : α → Prop} (hpost : ∀ r, post r → post' r)
    (hp : p.Obeys (submitting P) (fun _ r => post r) ()) :
    p.Obeys (submitting R) (fun _ r => post' r) () := by
  apply hp.simulate (fun _ _ => True) _ (fun _ _ r _ => hpost r) trivial
  intro _ _ q _ hallows
  exact ⟨fun tx status hq => h _ (hallows tx status hq), fun _ => trivial⟩

private theorem BuilderAt.Yields.imp [Crates] {s : Stage} {b : BuilderAt s}
    {P R : Transaction → Prop} (hb : BuilderAt.Yields b P) (h : ∀ tx, P tx → R tx) :
    BuilderAt.Yields b R where
  build := submitting_mono h (fun _ hr tx htx => h tx (hr tx htx)) hb.build
  buildOffline signerId publicKey blockHash nonce tx htx :=
    h tx (hb.buildOffline signerId publicKey blockHash nonce tx htx)
  sign := submitting_mono h (fun _ hr tx htx => h _ (hr tx htx)) hb.sign
  signOffline blockHash nonce :=
    submitting_mono h (fun _ hr tx htx => h _ (hr tx htx)) (hb.signOffline blockHash nonce)
  send level retries := submitting_mono h (fun _ _ => trivial) (hb.send level retries)

/-! ## Delegate actions -/

/-- An addition of the source. It panics on overflow in a build with overflow checks and
wraps in one without. -/
def addU64 (overflowChecks : Bool) (a b : UInt64) : Option UInt64 :=
  if overflowChecks = true ∧ 2 ^ 64 ≤ a.toNat + b.toNat then none else some (a + b)

namespace TransactionBuilder
variable [Crates]

/-- `delegateAt` with the overflow checks of the build. -/
def delegateAtIn (overflowChecks : Bool) (b : TransactionBuilder) (options : DelegateOptions)
    (key : SigningKey) (senderId : AccountId) (nonce : Nonce) : Operation DelegateResult :=
  match options.maxBlockHeight with
  | some h => b.signDelegate key senderId nonce h
  | none =>
    .ask .status fun
    | .error e => .done (.err (.fromRpc e))
    | .ok latestBlockHeight =>
      (addU64 overflowChecks latestBlockHeight (options.blockHeightOffset.getD 200)).elim
        (.done .panic) (b.signDelegate key senderId nonce)

/-- `TransactionBuilder::delegate` with the overflow checks of the build. -/
def delegateIn (overflowChecks : Bool) (b : TransactionBuilder) (options : DelegateOptions) :
    Operation DelegateResult :=
  if b.actions.isEmpty then
    .done (.err (.invalidTransaction "Delegate action requires at least one action"))
  else if b.actions.any Action.isDelegate then
    .done (.err (.invalidTransaction
      "Delegate actions cannot contain nested signed delegate actions"))
  else match b.effectiveSigner with
  | none => .done (.err .noSigner)
  | some signer =>
    let senderId := signer.accountId
    .ask (.key signer) fun key =>
    match options.nonce with
    | some n => b.delegateAtIn overflowChecks options key senderId n
    | none =>
      .ask (.viewAccessKey senderId key.publicKey .optimistic) fun
      | .error e => .done (.err (.fromRpc e))
      | .ok accessKey =>
        (addU64 overflowChecks accessKey.nonce 1).elim (.done .panic) fun nonce =>
          b.delegateAtIn overflowChecks options key senderId nonce

private theorem delegateAtIn_false (b : TransactionBuilder) (options : DelegateOptions)
    (key : SigningKey) (senderId : AccountId) (nonce : Nonce) :
    b.delegateAtIn false options key senderId nonce = b.delegateAt options key senderId nonce := by
  unfold delegateAtIn delegateAt
  cases options.maxBlockHeight with
  | some h => rfl
  | none =>
    apply congrArg (Process.ask Request.status)
    funext status
    cases status with
    | error e => rfl
    | ok latestBlockHeight => rfl

/-- Without overflow checks, `delegate` is the operation of the other modules. -/
theorem delegateIn_false (b : TransactionBuilder) (options : DelegateOptions) :
    b.delegateIn false options = b.delegate options := by
  unfold delegateIn delegate
  simp only [delegateAtIn_false]
  rfl

end TransactionBuilder

/-- The RPC or the signer did not fail. -/
def Succeeds : Exchange Request Answer → Prop
  | ⟨.viewAccessKey .., .error _⟩ => False
  | ⟨.status, .error _⟩ => False
  | ⟨.sign .., .error _⟩ => False
  | _ => True

/-- The sum that `delegate` computes from the answer fits in a `u64`. -/
def SumFits (options : DelegateOptions) : Exchange Request Answer → Prop
  | ⟨.viewAccessKey .., .ok accessKey⟩ => accessKey.nonce.toNat + 1 < 2 ^ 64
  | ⟨.status, .ok latestBlockHeight⟩ =>
    latestBlockHeight.toNat + (options.blockHeightOffset.getD 200).toNat < 2 ^ 64
  | _ => True

theorem addU64_eq_none {overflowChecks : Bool} {a b : UInt64} :
    addU64 overflowChecks a b = none ↔ ¬ (overflowChecks = true → a.toNat + b.toNat < 2 ^ 64) := by
  unfold addU64
  split
  · next h => simpa using h
  · next h => simpa using h

theorem addU64_eq_some {overflowChecks : Bool} {a b c : UInt64}
    (h : addU64 overflowChecks a b = some c) :
    overflowChecks = true → a.toNat + b.toNat < 2 ^ 64 := by
  by_contra hfits
  rw [addU64_eq_none.mpr hfits] at h
  cases h

namespace NonDelegateAction

theorem map_inner_filterMap {actions : List Action} (h : ∀ a ∈ actions, a.isDelegate = false) :
    (actions.filterMap fromAction).map inner = actions := by
  induction actions with
  | nil => rfl
  | cons a actions ih =>
    cases hx : fromAction a with
    | none =>
      have hdelegate := fromAction_eq_none.mp hx
      rw [h a List.mem_cons_self] at hdelegate
      cases hdelegate
    | some x =>
      rw [List.filterMap_cons_some hx, List.map_cons, fromAction_eq_some.mp hx,
        ih fun a' ha' => h a' (List.mem_cons_of_mem _ ha')]

variable [Crates]

theorem parts_inner (x : NonDelegateAction) :
    Format.action.parts x.inner = Format.nonDelegateAction.parts x := by
  rcases x with _ | _ | _ | _ | _ | _ | _ | _ | d | _ | _ | _ | _ | _ | d
  all_goals first | exact d.elim | rfl

private theorem parts_map_inner (xs : List NonDelegateAction) :
    Format.action.vec.parts (xs.map inner) = Format.nonDelegateAction.vec.parts xs := by
  show Part.length (xs.map inner).length :: (xs.map inner).flatMap Format.action.parts =
    Part.length xs.length :: xs.flatMap Format.nonDelegateAction.parts
  rw [List.length_map, List.flatMap_map]
  simp only [parts_inner]

end NonDelegateAction

/-- Only the lengths inside its actions can keep a delegate action from being encoded. -/
theorem DelegateAction.fits_iff [Crates] (d : DelegateAction) :
    Format.delegateAction.Fits d ↔ Format.action.vec.Fits (d.actions.map NonDelegateAction.inner) := by
  have hparts : Format.delegateAction.parts d = .accountId d.senderId :: .accountId d.receiverId ::
      (Format.nonDelegateAction.vec.parts d.actions ++ [.publicKey d.publicKey]) :=
    rfl
  unfold Format.Fits
  rw [hparts, NonDelegateAction.parts_map_inner]
  simp only [List.forall_mem_cons, List.forall_mem_append, Part.Fits, true_and, List.not_mem_nil,
    false_imp_iff, implies_true, and_true]

namespace DelegateAction
variable [Crates] {d : DelegateAction}

private theorem getHash_eq_ok : (∃ hash, d.getHash = .ok hash) ↔ Format.delegateAction.Fits d := by
  refine Iff.trans ?_ (Format.delegateAction.lawful.fits_iff d).symm
  unfold getHash serializeForSigning hashOf Codec.toVec
  cases Format.delegateAction.write d with
  | error e => exact ⟨nofun, nofun⟩
  | ok bytes => exact ⟨fun _ => ⟨bytes, rfl⟩, fun _ => ⟨_, rfl⟩⟩

private theorem exists_toBase64 (h : Format.delegateAction.Fits d) (signature : Signature) :
    ∃ payload, (d.sign signature).toBase64 = .ok payload := by
  have hfits : Format.signedDelegateAction.Fits (d.sign signature) := by
    intro p hp
    rcases List.mem_append.mp hp with hp | hp
    · exact h p hp
    · cases hp
  obtain ⟨bytes, hbytes⟩ := (Format.signedDelegateAction.lawful.fits_iff _).mp hfits
  refine ⟨Base64.encode bytes, ?_⟩
  unfold SignedDelegateAction.toBase64 SignedDelegateAction.toBytes Codec.toVec
  rw [hbytes]
  rfl

end DelegateAction

namespace TransactionBuilder
variable [Crates] {b : TransactionBuilder} {options : DelegateOptions} {key : SigningKey}
variable {senderId : AccountId} {nonce : Nonce} {overflowChecks : Bool}
variable {σ : Type} {H : σ → (q : Request) → Answer q → σ → Prop} {s s' : σ}
variable {tr : List (Exchange Request Answer)} {r : Exit DelegateResult}

/-- What a run of `delegate` comes to once the actions have been accepted. -/
structure Delegates (b : TransactionBuilder) (options : DelegateOptions) (overflowChecks : Bool)
    (tr : List (Exchange Request Answer)) (r : Exit DelegateResult) : Prop where
  succeeds : (∃ result, r = .ok result) ↔
    Format.action.vec.Fits b.actions ∧ (overflowChecks = true → ∀ x ∈ tr, SumFits options x)
  carries : ∀ result, r = .ok result →
    result.signedDelegateAction.delegateAction.receiverId = b.receiverId ∧
    result.signedDelegateAction.delegateAction.actions.map NonDelegateAction.inner = b.actions

theorem Delegates.cons {x : Exchange Request Answer} (h : Delegates b options overflowChecks tr r)
    (hx : overflowChecks = true → SumFits options x) :
    Delegates b options overflowChecks (x :: tr) r where
  succeeds := by
    refine h.succeeds.trans (and_congr_right fun _ => forall_congr' fun hchecks => ?_)
    rw [List.forall_mem_cons]
    exact (and_iff_right (hx hchecks)).symm
  carries := h.carries

/-- A sum that overflows ends the run in a panic. -/
theorem Delegates.overflow {x : Exchange Request Answer}
    (hx : ¬ (overflowChecks = true → SumFits options x)) :
    Delegates b options overflowChecks [x] .panic where
  succeeds := by
    constructor
    · rintro ⟨result, hresult⟩
      cases hresult
    · rintro ⟨-, hsums⟩
      exact absurd (fun hchecks => hsums hchecks x List.mem_cons_self) hx
  carries := nofun

private theorem Delegates.signed {hash : CryptoHash} {signature : Signature}
    {result : DelegateResult} (hfits : Format.action.vec.Fits b.actions)
    (hreceiver : result.signedDelegateAction.delegateAction.receiverId = b.receiverId)
    (hactions : result.signedDelegateAction.delegateAction.actions.map NonDelegateAction.inner =
      b.actions) :
    Delegates b options overflowChecks [⟨.sign key hash, .ok signature⟩] (.ok result) where
  succeeds := by
    refine ⟨fun _ => ⟨hfits, fun _ x hx => ?_⟩, fun _ => ⟨result, rfl⟩⟩
    rw [List.mem_singleton.mp hx]
    trivial
  carries := by
    intro result' hresult
    cases hresult
    exact ⟨hreceiver, hactions⟩

private theorem signDelegate_delegates (hactions : ∀ a ∈ b.actions, a.isDelegate = false)
    {maxBlockHeight : UInt64}
    (h : Completes H s (b.signDelegate key senderId nonce maxBlockHeight) tr s' r)
    (hok : ∀ x ∈ tr, Succeeds x) : Delegates b options overflowChecks tr r := by
  obtain ⟨d, hd⟩ : ∃ d : DelegateAction, d = ⟨senderId, b.receiverId,
    b.actions.filterMap NonDelegateAction.fromAction, nonce, maxBlockHeight, key.publicKey⟩ :=
    ⟨_, rfl⟩
  have hinner : d.actions.map NonDelegateAction.inner = b.actions := by
    rw [hd]
    exact NonDelegateAction.map_inner_filterMap hactions
  have hreceiver : d.receiverId = b.receiverId := by rw [hd]
  have hfits : Format.delegateAction.Fits d ↔ Format.action.vec.Fits b.actions := by
    rw [DelegateAction.fits_iff, hinner]
  cases hhash : d.getHash with
  | error e =>
    rw [signDelegate_eq_panic hd hhash] at h
    obtain ⟨rfl, -, rfl⟩ := h.done_inv
    refine ⟨⟨nofun, fun hfit => ?_⟩, nofun⟩
    obtain ⟨hash, hok⟩ := DelegateAction.getHash_eq_ok.mpr (hfits.mpr hfit.1)
    rw [hhash] at hok
    cases hok
  | ok hash =>
    have hfit := DelegateAction.getHash_eq_ok.mp ⟨hash, hhash⟩
    rw [signDelegate_eq hd hhash] at h
    obtain ⟨answer, mid, rest, rfl, -, h₁⟩ := h.ask_inv
    cases answer with
    | error e => exact False.elim (hok _ List.mem_cons_self)
    | ok signature =>
      obtain ⟨payload, hpayload⟩ := DelegateAction.exists_toBase64 hfit signature
      simp only [hpayload] at h₁
      obtain ⟨rfl, -, rfl⟩ := h₁.done_inv
      have hsigned : (d.sign signature).delegateAction = d := rfl
      exact .signed (hfits.mp hfit) (by rw [hsigned, hreceiver]) (by rw [hsigned, hinner])

/-- How a run goes on from a nonce: it signs for the given height or for the sum of the latest
height and the offset, or it ends with the status. -/
inductive FromNonce (overflowChecks : Bool) (options : DelegateOptions)
    (sign : UInt64 → Operation DelegateResult) (H : σ → (q : Request) → Answer q → σ → Prop)
    (s' : σ) : σ → List (Exchange Request Answer) → Exit DelegateResult → Prop where
  | given {t height xs x} (run : Completes H t (sign height) xs s' x) :
      FromNonce overflowChecks options sign H s' t xs x
  | failed {t e} :
      FromNonce overflowChecks options sign H s' t [⟨.status, .error e⟩] (.err (.fromRpc e))
  | overflow {t} {latestBlockHeight : UInt64}
      (sum : addU64 overflowChecks latestBlockHeight (options.blockHeightOffset.getD 200) = none) :
      FromNonce overflowChecks options sign H s' t [⟨.status, .ok latestBlockHeight⟩] .panic
  | summed {t mid height xs x} {latestBlockHeight : UInt64}
      (sum : addU64 overflowChecks latestBlockHeight (options.blockHeightOffset.getD 200) =
        some height)
      (run : Completes H mid (sign height) xs s' x) :
      FromNonce overflowChecks options sign H s' t (⟨.status, .ok latestBlockHeight⟩ :: xs) x

theorem delegateAtIn_inv
    (h : Completes H s (b.delegateAtIn overflowChecks options key senderId nonce) tr s' r) :
    FromNonce overflowChecks options (b.signDelegate key senderId nonce) H s' s tr r := by
  unfold delegateAtIn at h
  cases hheight : options.maxBlockHeight with
  | some height =>
    rw [hheight] at h
    exact .given h
  | none =>
    rw [hheight] at h
    obtain ⟨status, mid, rest, rfl, -, h₁⟩ := h.ask_inv
    cases status with
    | error e =>
      obtain ⟨rfl, -, rfl⟩ := h₁.done_inv
      exact .failed
    | ok latestBlockHeight =>
      cases hsum : addU64 overflowChecks latestBlockHeight (options.blockHeightOffset.getD 200) with
      | none =>
        simp only [hsum] at h₁
        obtain ⟨rfl, -, rfl⟩ := h₁.done_inv
        exact .overflow hsum
      | some height =>
        simp only [hsum] at h₁
        exact .summed hsum h₁

/-- How a run of `delegate` goes: it fails at once, or it claims a key and goes on from the
given nonce or from the one after the nonce fetched, or it ends with the access key. -/
inductive FromActions (overflowChecks : Bool) (b : TransactionBuilder) (options : DelegateOptions)
    (H : σ → (q : Request) → Answer q → σ → Prop) (s' : σ) :
    σ → List (Exchange Request Answer) → Exit DelegateResult → Prop where
  | rejected {t e} (reason : b.actions = [] ∨ (∃ a ∈ b.actions, a.isDelegate = true) ∨
      b.effectiveSigner = none) : FromActions overflowChecks b options H s' t [] (.err e)
  | given {t mid n xs x} {signer : Signer} {k : SigningKey}
      (run : Completes H mid (b.delegateAtIn overflowChecks options k signer.accountId n) xs s' x) :
      FromActions overflowChecks b options H s' t (⟨.key signer, k⟩ :: xs) x
  | failed {t e} {signer : Signer} {k : SigningKey} :
      FromActions overflowChecks b options H s' t [⟨.key signer, k⟩,
        ⟨.viewAccessKey signer.accountId k.publicKey .optimistic, .error e⟩] (.err (.fromRpc e))
  | overflow {t} {signer : Signer} {k : SigningKey} {accessKey : AccessKeyView}
      (sum : addU64 overflowChecks accessKey.nonce 1 = none) :
      FromActions overflowChecks b options H s' t [⟨.key signer, k⟩,
        ⟨.viewAccessKey signer.accountId k.publicKey .optimistic, .ok accessKey⟩] .panic
  | fetched {t mid n xs x} {signer : Signer} {k : SigningKey} {accessKey : AccessKeyView}
      (sum : addU64 overflowChecks accessKey.nonce 1 = some n)
      (run : Completes H mid (b.delegateAtIn overflowChecks options k signer.accountId n) xs s' x) :
      FromActions overflowChecks b options H s' t (⟨.key signer, k⟩ ::
        ⟨.viewAccessKey signer.accountId k.publicKey .optimistic, .ok accessKey⟩ :: xs) x

theorem delegateIn_inv (h : Completes H s (b.delegateIn overflowChecks options) tr s' r) :
    FromActions overflowChecks b options H s' s tr r := by
  unfold delegateIn at h
  split at h
  · next hempty =>
    obtain ⟨rfl, -, rfl⟩ := h.done_inv
    exact .rejected (.inl (by simpa using hempty))
  · split at h
    · next hany =>
      obtain ⟨rfl, -, rfl⟩ := h.done_inv
      exact .rejected (.inr (.inl (by simpa using hany)))
    · split at h
      · next hnone =>
        obtain ⟨rfl, -, rfl⟩ := h.done_inv
        exact .rejected (.inr (.inr hnone))
      · next signer hsigner =>
        obtain ⟨key, mid, rest, rfl, -, h₁⟩ := h.ask_inv
        cases hnonce : options.nonce with
        | some n =>
          simp only [hnonce] at h₁
          exact .given h₁
        | none =>
          simp only [hnonce] at h₁
          obtain ⟨view, mid', rest', rfl, -, h₂⟩ := h₁.ask_inv
          cases view with
          | error e =>
            obtain ⟨rfl, -, rfl⟩ := h₂.done_inv
            exact .failed
          | ok accessKey =>
            cases hsum : addU64 overflowChecks accessKey.nonce 1 with
            | none =>
              simp only [hsum] at h₂
              obtain ⟨rfl, -, rfl⟩ := h₂.done_inv
              exact .overflow hsum
            | some nonce =>
              simp only [hsum] at h₂
              exact .fetched hsum h₂

private theorem delegateAtIn_delegates (hactions : ∀ a ∈ b.actions, a.isDelegate = false)
    (h : Completes H s (b.delegateAtIn overflowChecks options key senderId nonce) tr s' r)
    (hok : ∀ x ∈ tr, Succeeds x) : Delegates b options overflowChecks tr r := by
  cases delegateAtIn_inv h with
  | given run => exact signDelegate_delegates hactions run hok
  | failed => exact False.elim (hok _ List.mem_cons_self)
  | overflow sum => exact .overflow (addU64_eq_none.mp sum)
  | summed sum run =>
    obtain ⟨-, hok⟩ := List.forall_mem_cons.mp hok
    exact (signDelegate_delegates hactions run hok).cons (addU64_eq_some sum)

private theorem delegateIn_delegates {signer : Signer} (hsigner : b.effectiveSigner = some signer)
    (hne : b.actions ≠ []) (hactions : ∀ a ∈ b.actions, a.isDelegate = false)
    (h : Completes H s (b.delegateIn overflowChecks options) tr s' r)
    (hok : ∀ x ∈ tr, Succeeds x) : Delegates b options overflowChecks tr r := by
  cases delegateIn_inv h with
  | rejected reason =>
    rcases reason with hempty | ⟨a, ha, hdelegate⟩ | hnone
    · exact absurd hempty hne
    · rw [hactions a ha] at hdelegate
      cases hdelegate
    · rw [hsigner] at hnone
      cases hnone
  | given run =>
    obtain ⟨-, hok⟩ := List.forall_mem_cons.mp hok
    exact (delegateAtIn_delegates hactions run hok).cons fun _ => trivial
  | failed => exact False.elim (hok _ (List.mem_cons_of_mem _ List.mem_cons_self))
  | overflow sum => exact (Delegates.overflow (addU64_eq_none.mp sum)).cons fun _ => trivial
  | fetched sum run =>
    obtain ⟨-, hok⟩ := List.forall_mem_cons.mp hok
    obtain ⟨-, hok⟩ := List.forall_mem_cons.mp hok
    refine Delegates.cons ?_ fun _ => trivial
    exact (delegateAtIn_delegates hactions run hok).cons (addU64_eq_some sum)

theorem delegateIn_rejects (h : Completes H s (b.delegateIn overflowChecks options) tr s' r)
    (hactions : ¬ (b.actions ≠ [] ∧ ∀ a ∈ b.actions, a.isDelegate = false)) :
    ¬ ∃ result, r = .ok result := by
  unfold delegateIn at h
  by_cases hempty : b.actions.isEmpty = true
  · rw [if_pos hempty] at h
    obtain rfl := h.done_result
    exact nofun
  · have hany : b.actions.any Action.isDelegate = true := by
      by_contra hany
      exact hactions ⟨by simpa using hempty, by simpa using hany⟩
    rw [if_neg hempty, if_pos hany] at h
    obtain rfl := h.done_result
    exact nofun

end TransactionBuilder

/-! ## Faithfulness -/

/-- `delegate` succeeds exactly on a list that is not empty and has no delegate action,
and signs that list. -/
structure DelegatesRequested (requested : List Action) (r : Exit DelegateResult) : Prop where
  succeeds : (∃ result, r = .ok result) ↔
    requested ≠ [] ∧ ∀ a ∈ requested, a.isDelegate = false
  carries : ∀ result, r = .ok result →
    result.signedDelegateAction.delegateAction.actions.map NonDelegateAction.inner = requested

/-- If the list is one that `delegate` accepts, its lengths can be written and, with
overflow checks, the two sums do not overflow. -/
def Delegable [Crates] (requested : List Action) (overflowChecks : Bool) (options : DelegateOptions)
    (tr : List (Exchange Request Answer)) : Prop :=
  requested ≠ [] → (∀ a ∈ requested, a.isDelegate = false) →
    Format.action.vec.Fits requested ∧ (overflowChecks = true → ∀ x ∈ tr, SumFits options x)

namespace BuilderAt
variable [Crates]

def delegateIn (overflowChecks : Bool) (options : DelegateOptions) {s : Stage} (b : BuilderAt s) :
    Operation DelegateResult :=
  b.finish.delegateIn overflowChecks options

theorem delegateIn_false (options : DelegateOptions) {s : Stage} (b : BuilderAt s) :
    BuilderAt.delegateIn false options b = BuilderAt.delegate options b := by
  cases s with
  | transaction => exact TransactionBuilder.delegateIn_false b options
  | call => exact (CallBuilder.finish b).delegateIn_false options

theorem delegatesRequested_iff {requested : List Action} {overflowChecks : Bool}
    {options : DelegateOptions} {σ : Type} {H : σ → (q : Request) → Answer q → σ → Prop} {s₀ s₁ : σ}
    {tr : List (Exchange Request Answer)} {r : Exit DelegateResult} {s : Stage} {b : BuilderAt s}
    (hactions : b.finish.actions = requested) (hsigner : b.finish.effectiveSigner ≠ none)
    (run : Completes H s₀ (BuilderAt.delegateIn overflowChecks options b) tr s₁ r)
    (hok : ∀ x ∈ tr, Succeeds x) :
    DelegatesRequested requested r ↔ Delegable requested overflowChecks options tr := by
  obtain ⟨signer, hsigner⟩ := Option.ne_none_iff_exists'.mp hsigner
  subst hactions
  by_cases haccepted : b.finish.actions ≠ [] ∧ ∀ a ∈ b.finish.actions, a.isDelegate = false
  · have hdelegates := TransactionBuilder.delegateIn_delegates hsigner haccepted.1 haccepted.2 run hok
    constructor
    · intro h _ _
      exact hdelegates.succeeds.mp (h.succeeds.mpr haccepted)
    · intro h
      have hsucceeds := hdelegates.succeeds.mpr (h haccepted.1 haccepted.2)
      exact ⟨iff_of_true hsucceeds haccepted, fun result hr => (hdelegates.carries result hr).2⟩
  · have hrejects := TransactionBuilder.delegateIn_rejects run haccepted
    constructor
    · intro _ hne hall
      exact absurd ⟨hne, hall⟩ haccepted
    · intro _
      exact ⟨iff_of_false hrejects haccepted, fun result hr => absurd ⟨result, hr⟩ hrejects⟩

end BuilderAt

/-- The chain's requested actions are what its transactions and, as long as everything it
asks for succeeds, its delegate action have, in order. -/
theorem chain_builds_requested [Crates] [GlobalContracts] {url : Network} {signer : Option Signer}
    {receiverId : AccountId} {maxNonceRetries : UInt32} {s : Stage} (chain : Chain s) :
    BuilderAt.Yields (chain.run (.new url signer receiverId maxNonceRetries))
        (fun tx => tx.actions = chain.actions) ∧
      ∀ (overflowChecks : Bool) (options : DelegateOptions) (σ : Type)
        (H : σ → (q : Request) → Answer q → σ → Prop) (s₀ s₁ : σ)
        (tr : List (Exchange Request Answer)) (r : Exit DelegateResult),
        (chain.run (.new url signer receiverId maxNonceRetries)).finish.effectiveSigner ≠ none →
        Completes H s₀ (BuilderAt.delegateIn overflowChecks options
          (chain.run (.new url signer receiverId maxNonceRetries))) tr s₁ r →
        (∀ x ∈ tr, Succeeds x) →
        (DelegatesRequested chain.actions r ↔ Delegable chain.actions overflowChecks options tr) := by
  have hactions : (chain.run (.new url signer receiverId maxNonceRetries)).finish.actions =
      chain.actions := chain.actions_run rfl
  constructor
  · rw [← hactions]
    exact (BuilderAt.yields _).imp fun tx htx => htx.2
  · intro overflowChecks options σ H s₀ s₁ tr r hsigner run hok
    exact BuilderAt.delegatesRequested_iff hactions hsigner run hok

/-! ## Samples -/

/-- A transfer and a pending call, with the gas set twice. -/
def Chain.sample : Chain .call :=
  .step (.step (.step (.step .start (.action (.transfer 1))) (.call "greet")) (.setting (.gas 5)))
    (.setting (.gas 7))

def sampleDelegated : List Action := [.transfer ⟨1⟩, .functionCall ⟨"greet", [], 7, 0⟩]

/-- The digest is that of the delegate action of these actions. -/
@[reducible] def Crates.delegating : Crates :=
  { Crates.accepting with
    sha256 := fun _ =>
      ⟨[30, 149, 115, 211, 146, 228, 4, 132, 16, 220, 113, 84, 187, 168, 253, 56, 40, 91, 199, 26, 60,
        24, 63, 94, 225, 115, 167, 124, 170, 177, 137, 201], rfl⟩ }

/-- A handler that lets everything succeed. -/
def succeeding (_ : Unit) (q : Request) (a : Answer q) (_ : Unit) : Prop := Succeeds ⟨q, a⟩

theorem exists_succeeding (s : Unit) (q : Request) : ∃ a s', succeeding s q a s' := by
  cases q with
  | key signer => exact ⟨(⟨.sample 0, 0⟩ : SigningKey), (), trivial⟩
  | publicKey signer => exact ⟨PublicKey.sample 0, (), trivial⟩
  | viewAccessKey id key finality => exact ⟨.ok (.sample 0), (), trivial⟩
  | status => exact ⟨.ok (0 : UInt64), (), trivial⟩
  | nextNonce network id key chain => exact ⟨(0 : Nonce), (), trivial⟩
  | sign key message => exact ⟨.ok Signature.zero, (), trivial⟩
  | sendTx tx status => exact ⟨.error (.timeout 0), (), trivial⟩

theorem Completes.succeeds {α : Type} {p : Process Request Answer α} {s s' : Unit}
    {tr : List (Exchange Request Answer)} {r : α} (h : Completes succeeding s p tr s' r) :
    ∀ x ∈ tr, Succeeds x :=
  h.forall_mem fun _ _ _ _ ha => ha

theorem chain_builds_requested_sample : ∃ tr s r,
    Completes succeeding () (@BuilderAt.delegateIn Crates.delegating false ⟨some 100, none, some 7⟩ _
      (@Chain.run GlobalContracts.sample (.new "testnet" (some .sample) .bob 0) _ .sample)) tr s r ∧
    DelegatesRequested sampleDelegated r := by
  let _ := Crates.delegating
  let _ := GlobalContracts.sample
  have hsigner : (Chain.sample.run (.new "testnet" (some .sample) .bob 0)).finish.effectiveSigner =
    some .sample := rfl
  obtain ⟨tr, s, r, run⟩ := Process.exists_completes exists_succeeding
    (BuilderAt.delegateIn false ⟨some 100, none, some 7⟩
      (Chain.sample.run (.new "testnet" (some .sample) .bob 0))) ()
  have hfits : Format.action.vec.Fits sampleDelegated := by decide
  have h := (chain_builds_requested Chain.sample).2 _ _ _ _ _ _ _ _ (hsigner ▸ Option.some_ne_none _)
    run run.succeeds
  exact ⟨tr, s, r, run, h.mpr fun _ _ => ⟨hfits, fun hchecks => absurd hchecks Bool.false_ne_true⟩⟩

def Chain.transfer : Chain .transaction := .step .start (.action (.transfer 1))

def Chain.deploy (code : Bytes) : Chain .transaction := .step .start (.action (.deploy code))

private theorem not_fits_deploy [Crates] {code : Bytes} (h : 2 ^ 32 ≤ code.length) :
    ¬ Format.action.vec.Fits [.deployContract ⟨code⟩] := by
  intro hfits
  have hmem : Part.length code.length ∈ Format.action.vec.parts [.deployContract ⟨code⟩] :=
    List.mem_cons_of_mem _ (List.mem_append_left _ List.mem_cons_self)
  exact absurd (hfits _ hmem) (Nat.not_lt.mpr h)

/-- A block height offset of `u64::MAX` overflows in a build with overflow checks, and a
contract of 4 GiB has no encoding. -/
theorem delegate_panics :
    (∃ tr s r, Completes succeeding () (@BuilderAt.delegateIn Crates.accepting true
        ⟨none, some 18446744073709551615, none⟩ _
        (@Chain.run GlobalContracts.sample (.new "testnet" (some .sample) .bob 0) _ .transfer))
        tr s r ∧ ¬ DelegatesRequested Chain.transfer.actions r) ∧
    (∃ tr s r, Completes succeeding () (@BuilderAt.delegateIn Crates.accepting false
        ⟨some 100, none, some 7⟩ _ (@Chain.run GlobalContracts.sample
          (.new "testnet" (some .sample) .bob 0) _ (.deploy (List.replicate (2 ^ 32) 0))))
        tr s r ∧ ¬ DelegatesRequested (Chain.deploy (List.replicate (2 ^ 32) 0)).actions r) := by
  let _ := Crates.accepting
  let _ := GlobalContracts.sample
  constructor
  · have run : Completes succeeding () (BuilderAt.delegateIn true
        ⟨none, some 18446744073709551615, none⟩
        (Chain.transfer.run (.new "testnet" (some .sample) .bob 0)))
        [⟨.key .sample, (⟨.sample 0, 0⟩ : SigningKey)⟩,
          ⟨.viewAccessKey .alice (.sample 0) .optimistic, .ok (.sample 5)⟩,
          ⟨.status, .ok (1 : UInt64)⟩] () (Exit.panic : Exit DelegateResult) := by
      refine .ask (?_ : succeeding () _ _ ()) (.ask (?_ : succeeding () _ _ ())
        (.ask (?_ : succeeding () _ _ ()) (.done () Exit.panic)))
      all_goals trivial
    refine ⟨_, _, _, run, fun h => ?_⟩
    obtain ⟨result, hresult⟩ := h.succeeds.mpr (by decide)
    cases hresult
  · obtain ⟨code, hcode⟩ : ∃ code : Bytes, code = List.replicate (2 ^ 32) 0 := ⟨_, rfl⟩
    rw [← hcode]
    have hlength : 2 ^ 32 ≤ code.length := by rw [hcode, List.length_replicate]
    obtain ⟨tr, s, r, run⟩ := Process.exists_completes exists_succeeding
      (BuilderAt.delegateIn false ⟨some 100, none, some 7⟩
        ((Chain.deploy code).run (.new "testnet" (some .sample) .bob 0))) ()
    refine ⟨tr, s, r, run, fun h => ?_⟩
    have hsigner : ((Chain.deploy code).run
      (.new "testnet" (some .sample) .bob 0)).finish.effectiveSigner = some .sample := rfl
    have hdelegable := (BuilderAt.delegatesRequested_iff (Chain.actions_run rfl _)
      (hsigner ▸ Option.some_ne_none _) run run.succeeds).mp h
    have hne : (Chain.deploy code).actions ≠ [] := List.cons_ne_nil _ _
    have hactions : ∀ a ∈ (Chain.deploy code).actions, a.isDelegate = false := by
      intro a ha
      rw [List.mem_singleton.mp ha]
      rfl
    exact not_fits_deploy hlength (hdelegable hne hactions).1

end NearKit
