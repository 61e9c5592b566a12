import NearKit.BuilderOutcomes

/-!
# The receiver of a chain

Every action that a chain asks for has an addressee: the derived account of a state
initialization, the sender of a delegate action, the receiver in effect for any other
action. A transaction has one receiver, the addressee of the last action.
-/
namespace NearKit

variable [GlobalContracts]

/-- The account for which a method call adds an action, if it adds one. -/
def MethodCall.addressee {s t : Stage} (current : AccountId) : MethodCall s t → Option AccountId
  | .action (.stateInit init _) => some (GlobalContracts.deriveAccountId init)
  | .action _ => some current
  | .signedDelegateAction signedDelegate => some signedDelegate.delegateAction.senderId
  | .call _ => some current
  | .setting _ => none
  | .finish => none
  | .signWith _ => none
  | .maxNonceRetries _ => none

def Chain.addressees (new : TransactionBuilder) : {s : Stage} → Chain s → List AccountId
  | _, .start => []
  | _, .step chain method =>
    chain.addressees new ++ (method.addressee (chain.run new).finish.receiverId).toList

/-- Every action goes to its own addressee. -/
def Chain.Consistent {s : Stage} (chain : Chain s) (new : TransactionBuilder) (receiverId : AccountId) :
    Prop :=
  ∀ id ∈ chain.addressees new, id = receiverId

theorem MethodCall.receiverId_apply {s t : Stage} (b : BuilderAt s) (m : MethodCall s t) :
    (m.apply b).finish.receiverId =
      (m.addressee b.finish.receiverId).getD b.finish.receiverId := by
  cases m with
  | action method =>
    cases s with
    | transaction => cases method <;> rfl
    | call => cases method <;> rfl
  | signedDelegateAction signedDelegate => rfl
  | call method => cases s <;> rfl
  | setting x => cases x <;> rfl
  | finish => rfl
  | signWith signer => cases s <;> rfl
  | maxNonceRetries retries => cases s <;> rfl

namespace Requested

omit [GlobalContracts] in
private theorem length_configure (x : Setting) (rs : List Requested) :
    (configure x rs).length = rs.length := by
  induction rs with
  | nil => rfl
  | cons r rs ih =>
    cases rs with
    | nil => cases r <;> rfl
    | cons r' rs =>
      have hcons : configure x (r :: r' :: rs) = r :: configure x (r' :: rs) := by cases r <;> rfl
      rw [hcons, List.length_cons, ih]
      rfl

end Requested

namespace Chain
variable {s : Stage} {new : TransactionBuilder}

theorem length_addressees (chain : Chain s) :
    (chain.addressees new).length = chain.actions.length := by
  unfold Chain.actions
  rw [List.length_map]
  induction chain with
  | start => rfl
  | step chain method ih =>
    show (chain.addressees new ++ _).length = (method.request chain.requested).length
    rw [List.length_append, ih]
    cases method with
    | action method => cases method <;> simp [MethodCall.addressee, MethodCall.request]
    | signedDelegateAction signedDelegate => simp [MethodCall.addressee, MethodCall.request]
    | call method => simp [MethodCall.addressee, MethodCall.request]
    | setting x => exact (Requested.length_configure x _).symm
    | finish => rfl
    | signWith signer => rfl
    | maxNonceRetries retries => rfl

theorem receiverId_run (chain : Chain s) :
    (chain.run new).finish.receiverId = (chain.addressees new).getLast?.getD new.receiverId := by
  induction chain with
  | start => rfl
  | step chain method ih =>
    show (method.apply (chain.run new)).finish.receiverId = _
    rw [MethodCall.receiverId_apply, addressees]
    cases method.addressee (chain.run new).finish.receiverId with
    | none => simpa using ih
    | some id => simp

/-- If some receiver suits every action, the one of the transaction does. -/
theorem exists_consistent_iff (chain : Chain s) :
    (∃ receiverId, chain.Consistent new receiverId) ↔
      chain.Consistent new ((chain.addressees new).getLast?.getD new.receiverId) := by
  constructor
  · rintro ⟨receiverId, h⟩ id hid
    have hne : (chain.addressees new).getLast? ≠ none :=
      fun hnone => List.ne_nil_of_mem hid (List.getLast?_eq_none_iff.mp hnone)
    obtain ⟨last, hlast⟩ := Option.ne_none_iff_exists'.mp hne
    rw [hlast, Option.getD_some, h id hid, h last (List.mem_of_getLast? hlast)]
  · intro h
    exact ⟨_, h⟩

end Chain

/-- The transactions of a chain go to the addressee of its last action. That is where all
its actions belong if any one receiver suits them, and where the transaction is built to
go if none does. -/
theorem chain_receiver [Crates] {s : Stage} (chain : Chain s) (url : Network)
    (signer : Option Signer) (receiverId : AccountId) (maxNonceRetries : UInt32) :
    let new := TransactionBuilder.new url signer receiverId maxNonceRetries
    let receiver := (chain.addressees new).getLast?.getD receiverId
    (chain.addressees new).length = chain.actions.length ∧
    BuilderAt.Yields (chain.run new)
      (fun tx => tx.receiverId = receiver ∧ tx.actions = chain.actions) ∧
    ((∃ id, chain.Consistent new id) ↔ chain.Consistent new receiver) ∧
    ∀ signerId publicKey blockHash nonce,
      (chain.run new).finish.buildOffline signerId publicKey blockHash nonce =
        if chain.actions.isEmpty then .error TransactionBuilder.atLeastOneAction
        else .ok ⟨signerId, publicKey, nonce, receiver, blockHash, chain.actions⟩ := by
  intro new receiver
  have hactions : (chain.run new).finish.actions = chain.actions := chain.actions_run rfl
  have hreceiver : (chain.run new).finish.receiverId = receiver := chain.receiverId_run
  refine ⟨chain.length_addressees, ?_, chain.exists_consistent_iff, ?_⟩
  · rw [← hactions, ← hreceiver]
    exact BuilderAt.yields _
  · intro signerId publicKey blockHash nonce
    unfold TransactionBuilder.buildOffline TransactionBuilder.transaction
    rw [hactions, hreceiver]

/-! ## Samples -/

def Chain.transferThenInit : Chain .transaction :=
  .step Chain.transfer (.action (.stateInit .sample 1))

omit [GlobalContracts] in
/-- The state initialization takes the transfer to its own account. -/
theorem stateInit_redirects_transfer :
    let _ := GlobalContracts.sample
    let new := TransactionBuilder.new "testnet" none .bob 0
    (¬ ∃ id, Chain.transferThenInit.Consistent new id) ∧
    (Chain.transferThenInit.run new).finish.buildOffline .alice (.sample 0) (.zeros 32) 7 =
      .ok ⟨.alice, .sample 0, 7, StateInit.sampleAccount, .zeros 32,
        [.transfer ⟨1⟩, .deterministicStateInit ⟨.sample, 1⟩]⟩ := by
  intro _ new
  refine ⟨?_, rfl⟩
  rintro ⟨id, h⟩
  have hbob := h .bob List.mem_cons_self
  have haccount := h StateInit.sampleAccount (List.mem_cons_of_mem _ List.mem_cons_self)
  have hne : AccountId.bob ≠ StateInit.sampleAccount := by decide
  exact hne (hbob.trans haccount.symm)

end NearKit
