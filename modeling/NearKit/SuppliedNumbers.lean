import NearKit.BuilderOutcomes
import NearKit.TransactionResponses

/-!
# Sums of supplied numbers

Nonces, block heights and gas come from a node or from the caller and are added as they are.
A sum that does not fit in a `u64` panics in a build with overflow checks and wraps in one
without, so that each result is right exactly when its sum fits.
-/
namespace NearKit

/-! ## Additions -/

theorem eq_add_of_addU64 {overflowChecks : Bool} {a b c : UInt64}
    (h : addU64 overflowChecks a b = some c) : c = a + b := by
  unfold addU64 at h
  split at h
  · cases h
  · exact (Option.some.inj h).symm

/-- The addition gives the sum of the numbers. -/
def ExactSum (overflowChecks : Bool) (a b : UInt64) : Prop :=
  ∃ c, addU64 overflowChecks a b = some c ∧ c.toNat = a.toNat + b.toNat

theorem toNat_add_of_fits {a b : UInt64} (h : a.toNat + b.toNat < 2 ^ 64) :
    (a + b).toNat = a.toNat + b.toNat := by
  rw [UInt64.toNat_add]
  exact Nat.mod_eq_of_lt h

theorem addU64_of_fits {a b : UInt64} (overflowChecks : Bool) (h : a.toNat + b.toNat < 2 ^ 64) :
    addU64 overflowChecks a b = some (a + b) :=
  if_neg fun hoverflow => Nat.not_le.mpr h hoverflow.2

private theorem exactSum_iff {overflowChecks : Bool} {a b : UInt64} :
    ExactSum overflowChecks a b ↔ a.toNat + b.toNat < 2 ^ 64 := by
  constructor
  · rintro ⟨c, -, hc⟩
    exact hc ▸ c.toNat_lt
  · intro h
    exact ⟨a + b, addU64_of_fits overflowChecks h, toNat_add_of_fits h⟩

theorem le_add_iff {a b : UInt64} : a ≤ a + b ↔ a.toNat + b.toNat < 2 ^ 64 := by
  have ha := a.toNat_lt
  have hb := b.toNat_lt
  rw [UInt64.le_iff_toNat_le, UInt64.toNat_add]
  omega

theorem lt_succ_iff {a : UInt64} : a < a + 1 ↔ a.toNat + 1 < 2 ^ 64 := by
  have ha := a.toNat_lt
  have hone : (1 : UInt64).toNat = 1 := rfl
  rw [UInt64.lt_iff_toNat_lt, UInt64.toNat_add, hone]
  omega

/-! ## The nonce manager -/

namespace NonceManager

/-- `NonceManager::next` with the overflow checks of the build; `none` is the panic. -/
def nextIn (overflowChecks : Bool) (m : NonceManager) (network : Network) (accountId : AccountId)
    (publicKey : PublicKey) (blockchainNonce : Nonce) : Option (Nonce × NonceManager) :=
  let key := (network, accountId, publicKey)
  (addU64 overflowChecks (m.base key blockchainNonce) 1).map fun nonce =>
    (nonce, ⟨Function.update m.nonces key (some nonce)⟩)

variable {m : NonceManager} {network : Network} {accountId : AccountId} {publicKey : PublicKey}
variable {blockchainNonce : Nonce} {overflowChecks : Bool}

private theorem nextIn_eq_some {result : Nonce × NonceManager} :
    m.nextIn overflowChecks network accountId publicKey blockchainNonce = some result ↔
      (overflowChecks = true → m.Below (network, accountId, publicKey) blockchainNonce) ∧
        result = m.next network accountId publicKey blockchainNonce := by
  unfold nextIn
  rw [Option.map_eq_some_iff]
  constructor
  · rintro ⟨nonce, hnonce, rfl⟩
    refine ⟨addU64_eq_some hnonce, ?_⟩
    rw [eq_add_of_addU64 hnonce]
    rfl
  · rintro ⟨hbelow, rfl⟩
    cases hsum : addU64 overflowChecks (m.base (network, accountId, publicKey) blockchainNonce) 1 with
    | none => exact absurd hbelow (addU64_eq_none.mp hsum)
    | some nonce =>
      refine ⟨nonce, rfl, ?_⟩
      rw [eq_add_of_addU64 hsum]
      rfl

/-- The call hands out a nonce above the chain nonce. -/
def Allocates (overflowChecks : Bool) (m : NonceManager) (network : Network)
    (accountId : AccountId) (publicKey : PublicKey) (blockchainNonce : Nonce) : Prop :=
  ∃ nonce m', m.nextIn overflowChecks network accountId publicKey blockchainNonce =
    some (nonce, m') ∧ blockchainNonce < nonce

theorem allocates_iff : Allocates overflowChecks m network accountId publicKey blockchainNonce ↔
    m.Below (network, accountId, publicKey) blockchainNonce := by
  obtain ⟨base, hbase⟩ : ∃ base, base = m.base (network, accountId, publicKey) blockchainNonce :=
    ⟨_, rfl⟩
  have hle : blockchainNonce ≤ base := hbase ▸ m.le_base _ _
  have hnext : (m.next network accountId publicKey blockchainNonce).1 = base + 1 := hbase ▸ rfl
  have hbelow : m.Below (network, accountId, publicKey) blockchainNonce ↔ base < base + 1 := by
    rw [lt_succ_iff, hbase]
    rfl
  constructor
  · rintro ⟨nonce, m', hresult, hlt⟩
    obtain ⟨-, hvalue⟩ := nextIn_eq_some.mp hresult
    have hnonce : nonce = base + 1 := (congrArg Prod.fst hvalue).trans hnext
    -- a wrapped nonce is zero, above nothing
    rw [hbelow, lt_succ_iff]
    have hmax := base.toNat_lt
    have hone : (1 : UInt64).toNat = 1 := rfl
    rw [hnonce, UInt64.lt_iff_toNat_lt, UInt64.toNat_add, hone] at hlt
    omega
  · intro h
    refine ⟨_, _, nextIn_eq_some.mpr ⟨fun _ => h, rfl⟩, ?_⟩
    show blockchainNonce < (m.next network accountId publicKey blockchainNonce).1
    rw [hnext]
    exact UInt64.lt_of_le_of_lt hle (hbelow.mp h)

end NonceManager

/-! ## Delegate actions -/

/-- The sum that the answer is used in is exact. -/
def SumExact (overflowChecks : Bool) (options : DelegateOptions) : Exchange Request Answer → Prop
  | ⟨.viewAccessKey .., .ok accessKey⟩ => ExactSum overflowChecks accessKey.nonce 1
  | ⟨.status, .ok latestBlockHeight⟩ =>
    ExactSum overflowChecks latestBlockHeight (options.blockHeightOffset.getD 200)
  | _ => True

/-- The nonce is above the one fetched, the height at least the one fetched. -/
def AboveFetched (d : DelegateAction) : Exchange Request Answer → Prop
  | ⟨.viewAccessKey .., .ok accessKey⟩ => accessKey.nonce < d.nonce
  | ⟨.status, .ok latestBlockHeight⟩ => latestBlockHeight ≤ d.maxBlockHeight
  | _ => True

/-- The answer went into the action. -/
def SumUsed (options : DelegateOptions) (d : DelegateAction) : Exchange Request Answer → Prop
  | ⟨.viewAccessKey .., .ok accessKey⟩ => d.nonce = accessKey.nonce + 1
  | ⟨.status, .ok latestBlockHeight⟩ =>
    d.maxBlockHeight = latestBlockHeight + options.blockHeightOffset.getD 200
  | _ => True

section
variable {overflowChecks : Bool} {options : DelegateOptions} {d : DelegateAction}

private theorem sumExact_iff (x : Exchange Request Answer) :
    SumExact overflowChecks options x ↔ SumFits options x := by
  obtain ⟨q, a⟩ := x
  cases q with
  | viewAccessKey id key finality =>
    cases a with
    | error e => exact Iff.rfl
    | ok accessKey => exact exactSum_iff
  | status =>
    cases a with
    | error e => exact Iff.rfl
    | ok latestBlockHeight => exact exactSum_iff
  | _ => exact Iff.rfl

private theorem aboveFetched_iff {x : Exchange Request Answer} (h : SumUsed options d x) :
    AboveFetched d x ↔ SumFits options x := by
  obtain ⟨q, a⟩ := x
  cases q with
  | viewAccessKey id key finality =>
    cases a with
    | error e => exact Iff.rfl
    | ok accessKey =>
      have hnonce : d.nonce = accessKey.nonce + 1 := h
      show accessKey.nonce < d.nonce ↔ accessKey.nonce.toNat + 1 < 2 ^ 64
      rw [hnonce]
      exact lt_succ_iff
  | status =>
    cases a with
    | error e => exact Iff.rfl
    | ok latestBlockHeight =>
      have hheight : d.maxBlockHeight = latestBlockHeight + options.blockHeightOffset.getD 200 := h
      show latestBlockHeight ≤ d.maxBlockHeight ↔ _
      rw [hheight]
      exact le_add_iff
  | _ => exact Iff.rfl

end

namespace TransactionBuilder
variable [Crates] {b : TransactionBuilder} {options : DelegateOptions} {key : SigningKey}
variable {senderId : AccountId} {nonce : Nonce} {overflowChecks : Bool}
variable {σ : Type} {H : σ → (q : Request) → Answer q → σ → Prop} {s s' : σ}
variable {tr : List (Exchange Request Answer)} {result : DelegateResult}

private theorem signDelegate_uses {maxBlockHeight : UInt64}
    (h : Completes H s (b.signDelegate key senderId nonce maxBlockHeight) tr s' (.ok result)) :
    result.signedDelegateAction.delegateAction.nonce = nonce ∧
      result.signedDelegateAction.delegateAction.maxBlockHeight = maxBlockHeight ∧
      ∀ x ∈ tr, SumUsed options result.signedDelegateAction.delegateAction x := by
  cases hhash : DelegateAction.getHash ⟨senderId, b.receiverId,
      b.actions.filterMap NonDelegateAction.fromAction, nonce, maxBlockHeight, key.publicKey⟩ with
  | error e =>
    rw [signDelegate_eq_panic rfl hhash] at h
    cases h.done_result
  | ok hash =>
    rw [signDelegate_eq rfl hhash] at h
    obtain ⟨answer, mid, rest, rfl, -, h₁⟩ := h.ask_inv
    cases answer with
    | error e =>
      cases h₁.done_result
    | ok signature =>
      simp only at h₁
      split at h₁
      · cases h₁.done_result
      · obtain ⟨rfl, -, hr⟩ := h₁.done_inv
        cases hr
        refine ⟨rfl, rfl, ?_⟩
        rintro x hx
        rw [List.mem_singleton.mp hx]
        trivial

private theorem delegateAtIn_uses
    (h : Completes H s (b.delegateAtIn overflowChecks options key senderId nonce) tr s' (.ok result)) :
    result.signedDelegateAction.delegateAction.nonce = nonce ∧
      ∀ x ∈ tr, SumUsed options result.signedDelegateAction.delegateAction x := by
  cases delegateAtIn_inv h with
  | given run =>
    obtain ⟨hnonce, -, hused⟩ := signDelegate_uses run
    exact ⟨hnonce, hused⟩
  | summed sum run =>
    obtain ⟨hnonce, hmax, hused⟩ := signDelegate_uses run
    exact ⟨hnonce, List.forall_mem_cons.mpr ⟨hmax.trans (eq_add_of_addU64 sum), hused⟩⟩

/-- What `delegate` fetches goes into the action that it returns. -/
theorem delegateIn_uses
    (h : Completes H s (b.delegateIn overflowChecks options) tr s' (.ok result)) :
    ∀ x ∈ tr, SumUsed options result.signedDelegateAction.delegateAction x := by
  cases delegateIn_inv h with
  | given run => exact List.forall_mem_cons.mpr ⟨trivial, (delegateAtIn_uses run).2⟩
  | fetched sum run =>
    obtain ⟨hnonce, hused⟩ := delegateAtIn_uses run
    have hfetched := hnonce.trans (eq_add_of_addU64 sum)
    exact List.forall_mem_cons.mpr ⟨trivial, List.forall_mem_cons.mpr ⟨hfetched, hused⟩⟩

end TransactionBuilder

/-- No sum of a run overflows, and what it returns is above what it fetched. -/
structure DelegatesAbove (overflowChecks : Bool) (options : DelegateOptions)
    (tr : List (Exchange Request Answer)) (r : Exit DelegateResult) : Prop where
  exact : ∀ x ∈ tr, SumExact overflowChecks options x
  above : ∀ result, r = .ok result →
    ∀ x ∈ tr, AboveFetched result.signedDelegateAction.delegateAction x

section
variable [Crates] {b : TransactionBuilder} {options : DelegateOptions} {overflowChecks : Bool}
variable {σ : Type} {H : σ → (q : Request) → Answer q → σ → Prop} {s s' : σ}
variable {tr : List (Exchange Request Answer)} {r : Exit DelegateResult}

theorem aboveFetched_iff_of_run {result : DelegateResult}
    (h : Completes H s (b.delegateIn overflowChecks options) tr s' (.ok result)) :
    (∀ x ∈ tr, AboveFetched result.signedDelegateAction.delegateAction x) ↔
      ∀ x ∈ tr, SumFits options x :=
  forall₂_congr fun x hx => aboveFetched_iff (TransactionBuilder.delegateIn_uses h x hx)

theorem delegatesAbove_iff (h : Completes H s (b.delegateIn overflowChecks options) tr s' r) :
    DelegatesAbove overflowChecks options tr r ↔ ∀ x ∈ tr, SumFits options x := by
  have hexact : (∀ x ∈ tr, SumExact overflowChecks options x) ↔ ∀ x ∈ tr, SumFits options x :=
    forall₂_congr fun x _ => sumExact_iff x
  constructor
  · exact fun habove => hexact.mp habove.exact
  · intro hfits
    refine ⟨hexact.mpr hfits, ?_⟩
    rintro result rfl
    exact (aboveFetched_iff_of_run h).mpr hfits

end

/-! ## Gas -/

/-- `Iterator::sum` of a `u64`. -/
def sumU64 (overflowChecks : Bool) (xs : List UInt64) : Option UInt64 :=
  xs.foldlM (addU64 overflowChecks) 0

private theorem exists_foldlM_addU64 (overflowChecks : Bool) {xs : List UInt64} {acc : UInt64}
    (h : acc.toNat + (xs.map UInt64.toNat).sum < 2 ^ 64) :
    ∃ c, xs.foldlM (addU64 overflowChecks) acc = some c ∧
      c.toNat = acc.toNat + (xs.map UInt64.toNat).sum := by
  induction xs generalizing acc with
  | nil => exact ⟨acc, rfl, rfl⟩
  | cons x xs ih =>
    rw [List.map_cons, List.sum_cons, ← Nat.add_assoc] at h ⊢
    have hx : acc.toNat + x.toNat < 2 ^ 64 := by omega
    rw [← toNat_add_of_fits hx] at h ⊢
    rw [List.foldlM_cons, addU64_of_fits overflowChecks hx]
    exact ih h

namespace Rpc.FinalExecutionOutcome
variable {Status : Type}

def receiptGas (outcome : FinalExecutionOutcome Status) : List UInt64 :=
  outcome.receiptsOutcome.map fun r => r.outcome.gasBurnt

/-- `FinalExecutionOutcome::total_gas_used` with the overflow checks of the build; `none` is
the panic. -/
def totalGasUsed (overflowChecks : Bool) (outcome : FinalExecutionOutcome Status) :
    Option UInt64 := do
  let txGas := outcome.transactionOutcome.outcome.gasBurnt
  let receiptGas ← sumU64 overflowChecks outcome.receiptGas
  addU64 overflowChecks txGas receiptGas

def gasBurnt (outcome : FinalExecutionOutcome Status) : ℕ :=
  outcome.transactionOutcome.outcome.gasBurnt.toNat + (outcome.receiptGas.map UInt64.toNat).sum

def TotalsGas (overflowChecks : Bool) (outcome : FinalExecutionOutcome Status) : Prop :=
  ∃ gas, outcome.totalGasUsed overflowChecks = some gas ∧ gas.toNat = outcome.gasBurnt

theorem totalsGas_iff {overflowChecks : Bool} {outcome : FinalExecutionOutcome Status} :
    outcome.TotalsGas overflowChecks ↔ outcome.gasBurnt < 2 ^ 64 := by
  constructor
  · rintro ⟨gas, -, hgas⟩
    exact hgas ▸ gas.toNat_lt
  · intro h
    have hzero : (0 : UInt64).toNat = 0 := rfl
    have hreceipts : (0 : UInt64).toNat + (outcome.receiptGas.map UInt64.toNat).sum < 2 ^ 64 := by
      unfold gasBurnt at h
      omega
    obtain ⟨gas, hsum, hgas⟩ := exists_foldlM_addU64 overflowChecks hreceipts
    rw [hzero, Nat.zero_add] at hgas
    have hfits : outcome.transactionOutcome.outcome.gasBurnt.toNat + gas.toNat < 2 ^ 64 := by
      rw [hgas]
      exact h
    refine ⟨outcome.transactionOutcome.outcome.gasBurnt + gas, ?_, ?_⟩
    · have hreceiptGas : sumU64 overflowChecks outcome.receiptGas = some gas := hsum
      unfold totalGasUsed
      simp only
      rw [hreceiptGas]
      exact addU64_of_fits overflowChecks hfits
    · rw [toNat_add_of_fits hfits, hgas]
      rfl

end Rpc.FinalExecutionOutcome

/-! ## All of them -/

/-- Each operation is right, and adds without an overflow, exactly when its sums fit. -/
theorem supplied_numbers_iff [Crates] :
    (∀ overflowChecks m network accountId publicKey blockchainNonce,
      NonceManager.Allocates overflowChecks m network accountId publicKey blockchainNonce ↔
        m.Below (network, accountId, publicKey) blockchainNonce) ∧
    (∀ overflowChecks (b : TransactionBuilder) options (σ : Type)
      (H : σ → (q : Request) → Answer q → σ → Prop) s tr s' r,
      Completes H s (b.delegateIn overflowChecks options) tr s' r →
        (DelegatesAbove overflowChecks options tr r ↔ ∀ x ∈ tr, SumFits options x) ∧
        ∀ result, r = .ok result →
          ((∀ x ∈ tr, AboveFetched result.signedDelegateAction.delegateAction x) ↔
            ∀ x ∈ tr, SumFits options x)) ∧
    ∀ overflowChecks (Status : Type) (outcome : Rpc.FinalExecutionOutcome Status),
      outcome.TotalsGas overflowChecks ↔ outcome.gasBurnt < 2 ^ 64 := by
  refine ⟨fun _ _ _ _ _ _ => NonceManager.allocates_iff, ?_,
    fun _ _ _ => Rpc.FinalExecutionOutcome.totalsGas_iff⟩
  intro overflowChecks b options σ H s tr s' r h
  refine ⟨delegatesAbove_iff h, ?_⟩
  rintro result rfl
  exact aboveFetched_iff_of_run h

/-- An outcome of a transaction with one receipt that burn this gas. -/
def Rpc.FinalExecutionOutcome.burning (txGas receiptGas : UInt64) : FinalExecutionOutcome Unit :=
  let outcome (gas : UInt64) : ExecutionOutcomeWithId Unit :=
    ⟨.zeros 32, ⟨.alice, gas, ⟨0⟩, [], [], (), none⟩, [], .zeros 32⟩
  ⟨.successValue "", ⟨.alice, .sample 0, 1, .bob, .zeros 32, [], .zero, none, none, none⟩,
    outcome txGas, [outcome receiptGas], []⟩

def wrappingOptions : DelegateOptions := ⟨none, some 18446744073709551615, none⟩

private theorem exists_wrapping_run [Crates] (overflowChecks : Bool) : ∃ tr s r,
    Completes succeeding () ((TransactionBuilder.sample 0).delegateIn overflowChecks wrappingOptions)
      tr s r ∧ ⟨.status, .ok (1 : UInt64)⟩ ∈ tr := by
  obtain ⟨tr, s, r, run⟩ := Process.exists_completes exists_succeeding
    ((addU64 overflowChecks 1 (wrappingOptions.blockHeightOffset.getD 200)).elim (.done .panic)
      ((TransactionBuilder.sample 0).signDelegate ⟨.sample 0, 0⟩ .alice 6)) ()
  have hsum : addU64 overflowChecks (AccessKeyView.sample 5).nonce 1 = some 6 :=
    addU64_of_fits overflowChecks (by decide)
  have hview : Completes succeeding ()
      ((addU64 overflowChecks (AccessKeyView.sample 5).nonce 1).elim (.done .panic) fun nonce =>
        (TransactionBuilder.sample 0).delegateAtIn overflowChecks wrappingOptions ⟨.sample 0, 0⟩
          .alice nonce) (⟨.status, .ok (1 : UInt64)⟩ :: tr) s r := by
    rw [hsum]
    exact .ask (trivial : succeeding () .status (.ok (1 : UInt64)) ()) run
  have hdelegate : Completes succeeding ()
      ((TransactionBuilder.sample 0).delegateIn overflowChecks wrappingOptions)
      (⟨.key .sample, (⟨.sample 0, 0⟩ : SigningKey)⟩ ::
        ⟨.viewAccessKey .alice (.sample 0) .optimistic, .ok (.sample 5)⟩ ::
        ⟨.status, .ok (1 : UInt64)⟩ :: tr) s r := by
    refine .ask (?_ : succeeding () _ _ ()) (.ask (?_ : succeeding () _ _ ()) hview)
    all_goals trivial
  exact ⟨_, s, r, hdelegate,
    List.mem_cons_of_mem _ (List.mem_cons_of_mem _ List.mem_cons_self)⟩

/-- In both builds, the last nonce has no successor, a block height offset of `u64::MAX`
leads back, and the gas of the two executions does not fit. -/
theorem supplied_numbers_overflow :
    (∀ overflowChecks, ¬ NonceManager.Allocates overflowChecks .new "testnet" .alice (.sample 0)
      18446744073709551615) ∧
    (∀ overflowChecks, ∃ tr s r, Completes succeeding ()
      (@TransactionBuilder.delegateIn Crates.accepting overflowChecks (.sample 0) wrappingOptions)
        tr s r ∧ ¬ DelegatesAbove overflowChecks wrappingOptions tr r) ∧
    ∀ overflowChecks, ¬ (Rpc.FinalExecutionOutcome.burning 18446744073709551615 1).TotalsGas
      overflowChecks := by
  let _ := Crates.accepting
  refine ⟨?_, ?_, ?_⟩
  · intro overflowChecks h
    exact absurd (NonceManager.allocates_iff.mp h) (by decide)
  · intro overflowChecks
    obtain ⟨tr, s, r, run, hmem⟩ := exists_wrapping_run overflowChecks
    refine ⟨tr, s, r, run, fun h => ?_⟩
    have hfits : (1 : UInt64).toNat + (18446744073709551615 : UInt64).toNat < 2 ^ 64 :=
      (delegatesAbove_iff run).mp h _ hmem
    exact absurd hfits (by decide)
  · intro overflowChecks h
    exact absurd (Rpc.FinalExecutionOutcome.totalsGas_iff.mp h) (by decide)

end NearKit
