import NearKit.TransactionOperations

/-!
# The retry budget of a send

How many transactions one send submits, for every script of `send_tx` results. Both
transient rejections are meant to draw on one budget; the guard of the `Expired` arm
gives up one retry early, and this is the only way the budget is missed.
-/
namespace NearKit
open Borsh

abbrev SendResult := Except RpcError RawTransactionResponse

/-- `InvalidNonce` and `Expired`. -/
def SendResult.isTransient : SendResult → Bool
  | .error (.invalidTx e) => e.isTransient
  | _ => false

def SendResult.expired : SendResult := .error (.invalidTx .expired)

private theorem SendResult.isTransient_iff {result : SendResult} : result.isTransient = true ↔
    (∃ ak tn, result = .error (.invalidTx (.invalidNonce ak tn))) ∨ result = .expired := by
  constructor
  · intro h
    rcases result with (e | _)
    · cases e with
      | invalidTx e =>
        cases e with
        | invalidNonce ak tn => exact .inl ⟨ak, tn, rfl⟩
        | expired => exact .inr rfl
        | _ => cases h
      | _ => cases h
    · cases h
  · rintro (⟨ak, tn, rfl⟩ | rfl) <;> rfl

namespace TransactionSend
variable [Crates]

omit [Crates] in
/-- Access-key fetches and signing succeed, and the `n`-th `send_tx` is answered by the
script. The state counts the submissions. -/
def Scripted (script : ℕ → SendResult) (sent : ℕ) : (q : Request) → Answer q → ℕ → Prop
  | .viewAccessKey .., a, sent' => (∃ accessKey, a = .ok accessKey) ∧ sent' = sent
  | .sign .., a, sent' => (∃ signature, a = .ok signature) ∧ sent' = sent
  | .sendTx .., a, sent' => a = script sent ∧ sent' = sent + 1
  | _, _, sent' => sent' = sent

/-- The exchanges of one attempt: a key, a fetch, a nonce, a signature, a submission. The
transaction carries the block hash just fetched and the signature just made. -/
def Round (t : TransactionSend) (signer : Signer) (result : SendResult)
    (round : List (Exchange Request Answer)) : Prop :=
  ∃ (key : SigningKey) (accessKey : AccessKeyView) (chain nonce : Nonce) (txHash : CryptoHash)
    (signature : Signature),
    (t.builder.transaction signer.accountId key.publicKey nonce accessKey.blockHash).getHash =
      .ok txHash ∧
    round =
      [⟨.key signer, key⟩,
        ⟨.viewAccessKey signer.accountId key.publicKey .final, .ok accessKey⟩,
        ⟨.nextNonce t.builder.url signer.accountId key.publicKey chain, nonce⟩,
        ⟨.sign key txHash, .ok signature⟩,
        ⟨.sendTx ⟨t.builder.transaction signer.accountId key.publicKey nonce accessKey.blockHash,
          signature⟩ t.waitLevel.status, result⟩]

omit [Crates] in
/-- What a send returns when it does not retry. -/
def lastExit (t : TransactionSend) (signerId : AccountId) : SendResult → Exit SendResponse
  | .ok response => .ofExcept (t.waitLevel.convert response signerId)
  | .error e => .err (.fromRpc e)

/-! ## One attempt -/

omit [Crates] in
/-- The guards of the two retry arms, on natural numbers. -/
def Retries (m i : ℕ) (result : SendResult) : Prop :=
  result.isTransient = true ∧ i < m ∧ (result = SendResult.expired → i + 1 < m)

omit [Crates] in
private theorem afterSend_of_not_isTransient (t : TransactionSend) (signerId : AccountId)
    (attempt : UInt32) (again : Option Error → Option Nonce → Operation SendResponse)
    {result : SendResult} (h : result.isTransient = false) :
    t.afterSend signerId attempt again result = .done (t.lastExit signerId result) := by
  cases result with
  | ok response => rfl
  | error e =>
    cases e with
    | invalidTx e =>
      cases e with
      | invalidNonce | expired => cases h
      | _ => rfl
    | _ => rfl

omit [Crates] in
private theorem afterSend_cases (t : TransactionSend) (signerId : AccountId) (attempt : UInt32)
    (hm : t.builder.maxNonceRetries.toNat < 2 ^ 32 - 1)
    (ha : attempt.toNat ≤ t.builder.maxNonceRetries.toNat)
    (again : Option Error → Option Nonce → Operation SendResponse) (result : SendResult) :
    (Retries t.builder.maxNonceRetries.toNat attempt.toNat result ∧
      ∃ e ak, t.afterSend signerId attempt again result = again e ak) ∨
    (¬ Retries t.builder.maxNonceRetries.toNat attempt.toNat result ∧
      t.afterSend signerId attempt again result = .done (t.lastExit signerId result)) := by
  have hsucc : (attempt + 1).toNat = attempt.toNat + 1 := by
    rw [UInt32.toNat_add]
    exact Nat.mod_eq_of_lt (by change attempt.toNat + 1 < 2 ^ 32; omega)
  cases ht : result.isTransient with
  | false =>
    exact .inr ⟨fun h => Bool.noConfusion (ht.symm.trans h.1),
      afterSend_of_not_isTransient t signerId attempt again ht⟩
  | true =>
    rcases SendResult.isTransient_iff.mp ht with ⟨ak, tn, rfl⟩ | rfl
    · by_cases hlt : attempt < t.builder.maxNonceRetries
      · have hnat := UInt32.lt_iff_toNat_lt.mp hlt
        exact .inl ⟨⟨rfl, hnat, fun h => by cases h⟩, _, _, if_pos hlt⟩
      · exact .inr ⟨fun h => hlt (UInt32.lt_iff_toNat_lt.mpr h.2.1), if_neg hlt⟩
    · by_cases hlt : attempt + 1 < t.builder.maxNonceRetries
      · have hnat := UInt32.lt_iff_toNat_lt.mp hlt
        rw [hsucc] at hnat
        exact .inl ⟨⟨rfl, by omega, fun _ => hnat⟩, _, _, if_pos hlt⟩
      · refine .inr ⟨fun h => hlt (UInt32.lt_iff_toNat_lt.mpr ?_), if_neg hlt⟩
        rw [hsucc]
        exact h.2.2 rfl

private theorem completes_round {t : TransactionSend} {signer : Signer} {script : ℕ → SendResult}
    {left sent n : ℕ} {attempt : UInt32} {e : Option Error} {ak : Option Nonce}
    {tr : List (Exchange Request Answer)} {r : Exit SendResponse}
    (h : Completes (Scripted script) sent (t.retryLoop signer (left + 1) attempt e ak) tr n r)
    (hr : r ≠ .panic ∨ Format.action.vec.Fits t.builder.actions) :
    ∃ round rest, tr = round ++ rest ∧ t.Round signer (script sent) round ∧
      Completes (Scripted script) (sent + 1) (t.afterSend signer.accountId attempt
        (fun e ak => t.retryLoop signer left (attempt + 1) e ak) (script sent)) rest n r := by
  obtain ⟨key, s₁, tr₁, rfl, hs₁, h₁⟩ := Completes.ask_inv h
  obtain ⟨view, s₂, tr₂, rfl, ⟨⟨accessKey, rfl⟩, hs₂⟩, h₂⟩ := Completes.ask_inv h₁
  obtain ⟨nonce, s₃, tr₃, rfl, hs₃, h₃⟩ := Completes.ask_inv h₂
  have hsent : s₃ = sent := hs₃.trans (hs₂.trans hs₁)
  subst hsent
  let tx := t.builder.transaction signer.accountId key.publicKey nonce accessKey.blockHash
  cases hhash : tx.getHash with
  | error err =>
    simp only [tx] at hhash
    simp only [hhash] at h₃
    rcases hr with hr | hfits
    · exact absurd h₃.done_result hr
    · obtain ⟨hash, hok⟩ := t.builder.exists_getHash hfits signer.accountId key.publicKey nonce
        accessKey.blockHash
      cases hhash.symm.trans hok
  | ok txHash =>
    simp only [tx] at hhash
    simp only [hhash] at h₃
    obtain ⟨sig, s₄, tr₄, rfl, ⟨⟨signature, rfl⟩, rfl⟩, h₄⟩ := Completes.ask_inv h₃
    obtain ⟨result, s₅, tr₅, rfl, ⟨rfl, rfl⟩, h₅⟩ := Completes.ask_inv h₄
    exact ⟨_, tr₅, rfl, ⟨key, accessKey, _, nonce, txHash, signature, hhash, rfl⟩, h₅⟩

/-! ## The loop -/

/-- What the loop does from its `sent`-th submission on. -/
structure LoopRun (t : TransactionSend) (signer : Signer) (script : ℕ → SendResult) (sent : ℕ)
    (tr : List (Exchange Request Answer)) (n : ℕ) (r : Exit SendResponse) : Prop where
  lt : sent < n
  /-- Every result before the last is retried, and the last is not. -/
  retried : ∀ i, sent ≤ i → i + 1 < n →
    Retries t.builder.maxNonceRetries.toNat i (script i)
  stopped : ¬ Retries t.builder.maxNonceRetries.toNat (n - 1) (script (n - 1))
  exit : r = t.lastExit signer.accountId (script (n - 1))
  rounds : ∃ rounds : List (List (Exchange Request Answer)), tr = rounds.flatten ∧
    rounds.length = n - sent ∧ ∀ round ∈ rounds, ∃ result, t.Round signer result round

private theorem LoopRun.stop {t : TransactionSend} {signer : Signer} {script : ℕ → SendResult}
    {sent : ℕ} {round : List (Exchange Request Answer)}
    (hround : t.Round signer (script sent) round)
    (hret : ¬ Retries t.builder.maxNonceRetries.toNat sent (script sent)) :
    t.LoopRun signer script sent round (sent + 1) (t.lastExit signer.accountId (script sent)) where
  lt := Nat.lt_succ_self sent
  retried i hi hlt := absurd hlt (by omega)
  stopped := hret
  exit := rfl
  rounds := by
    refine ⟨[round], by simp, by simp, ?_⟩
    intro r hr
    rw [List.mem_singleton.mp hr]
    exact ⟨_, hround⟩

private theorem LoopRun.again {t : TransactionSend} {signer : Signer} {script : ℕ → SendResult}
    {sent n : ℕ} {round rest : List (Exchange Request Answer)} {r : Exit SendResponse}
    (hround : t.Round signer (script sent) round)
    (hret : Retries t.builder.maxNonceRetries.toNat sent (script sent))
    (hrest : t.LoopRun signer script (sent + 1) rest n r) :
    t.LoopRun signer script sent (round ++ rest) n r where
  lt := Nat.lt_of_succ_lt hrest.lt
  retried i hi hlt := by
    by_cases h : i = sent
    · rw [h]
      exact hret
    · exact hrest.retried i (by omega) hlt
  stopped := hrest.stopped
  exit := hrest.exit
  rounds := by
    obtain ⟨rounds, rfl, hlen, hall⟩ := hrest.rounds
    have hlt := hrest.lt
    refine ⟨round :: rounds, by simp, by simp only [List.length_cons]; omega, ?_⟩
    exact List.forall_mem_cons.mpr ⟨⟨_, hround⟩, hall⟩

private theorem retryLoop_run {t : TransactionSend} {signer : Signer} {script : ℕ → SendResult}
    (hm : t.builder.maxNonceRetries.toNat < 2 ^ 32 - 1) {left sent n : ℕ} {attempt : UInt32}
    {e : Option Error} {ak : Option Nonce} {tr : List (Exchange Request Answer)}
    {r : Exit SendResponse} (ha : attempt.toNat = sent)
    (hl : sent + left = t.builder.maxNonceRetries.toNat)
    (h : Completes (Scripted script) sent
      (t.retryLoop signer (left + 1) attempt e ak) tr n r)
    (hr : r ≠ .panic ∨ Format.action.vec.Fits t.builder.actions) :
    t.LoopRun signer script sent tr n r := by
  induction left generalizing sent attempt e ak tr with
  | zero =>
    obtain ⟨round, rest, rfl, hround, hrest⟩ := completes_round h hr
    have hcases := afterSend_cases t signer.accountId attempt hm (by omega)
      (fun e ak => t.retryLoop signer 0 (attempt + 1) e ak) (script sent)
    rw [ha] at hcases
    rcases hcases with ⟨hret, -⟩ | ⟨hret, heq⟩
    · exact absurd hret.2.1 (by omega)
    · rw [heq] at hrest
      obtain ⟨rfl, rfl, rfl⟩ := Completes.done_inv hrest
      rw [List.append_nil]
      exact LoopRun.stop hround hret
  | succ left ih =>
    obtain ⟨round, rest, rfl, hround, hrest⟩ := completes_round h hr
    have hcases := afterSend_cases t signer.accountId attempt hm (by omega)
      (fun e ak => t.retryLoop signer (left + 1) (attempt + 1) e ak) (script sent)
    rw [ha] at hcases
    rcases hcases with ⟨hret, e', ak', heq⟩ | ⟨hret, heq⟩
    · rw [heq] at hrest
      have hsucc : (attempt + 1).toNat = sent + 1 := by
        rw [UInt32.toNat_add, ← ha]
        exact Nat.mod_eq_of_lt (by change attempt.toNat + 1 < 2 ^ 32; omega)
      exact LoopRun.again hround hret (ih hsucc (by omega) hrest)
    · rw [heq] at hrest
      obtain ⟨rfl, rfl, rfl⟩ := Completes.done_inv hrest
      rw [List.append_nil]
      exact LoopRun.stop hround hret

/-! ## The budget -/

omit [Crates] in
/-- The index of the first result that is not transient, or `m + 1`. -/
def firstFinal (script : ℕ → SendResult) (m : ℕ) : ℕ :=
  (List.range (m + 1)).findIdx fun i => !(script i).isTransient

omit [Crates] in
/-- The first `m` results are transient and the last of them is `Expired`. -/
def LastRetryExpired (script : ℕ → SendResult) (m : ℕ) : Prop :=
  0 < m ∧ (∀ i < m, (script i).isTransient = true) ∧ script (m - 1) = SendResult.expired

/-- The budget as it is meant: so many submissions, each attempt with its own fetch and
signature, and the last node error returned. -/
structure BudgetKept (t : TransactionSend) (signer : Signer) (script : ℕ → SendResult)
    (tr : List (Exchange Request Answer)) (n : ℕ) (r : Exit SendResponse) : Prop where
  submissions : n = min (t.builder.maxNonceRetries.toNat + 1)
    (1 + firstFinal script t.builder.maxNonceRetries.toNat)
  rounds : ∃ rounds : List (List (Exchange Request Answer)), tr = rounds.flatten ∧
    rounds.length = n ∧ ∀ round ∈ rounds, ∃ result, t.Round signer result round
  lastError : ∀ e, script (n - 1) = .error e → r = .err (.fromRpc e)
  fallthrough : r ≠ .err unknownError

omit [Crates] in
private theorem firstFinal_eq {script : ℕ → SendResult} {m k : ℕ} (hk : k ≤ m)
    (hf : (script k).isTransient = false) (ht : ∀ i < k, (script i).isTransient = true) :
    firstFinal script m = k := by
  have hlen : k < (List.range (m + 1)).length := by
    rw [List.length_range]
    exact Nat.lt_succ_of_le hk
  refine (List.findIdx_eq hlen).mpr ⟨?_, ?_⟩
  · rw [List.getElem_range, hf]
    rfl
  · intro i hi
    rw [List.getElem_range, ht i hi]
    rfl

omit [Crates] in
private theorem le_firstFinal {script : ℕ → SendResult} {m k : ℕ} (hk : k ≤ m + 1)
    (ht : ∀ i < k, (script i).isTransient = true) : k ≤ firstFinal script m := by
  cases k with
  | zero => exact Nat.zero_le _
  | succ k =>
    have hlen : k < (List.range (m + 1)).length := by
      rw [List.length_range]
      exact hk
    apply List.lt_findIdx_of_not hlen
    intro i hi
    rw [List.getElem_range, ht i (Nat.lt_succ_of_le hi)]
    decide

omit [Crates] in
/-- No text of a response conversion is the text of the fallthrough. -/
theorem convert_ne (level : WaitLevel) (response : RawTransactionResponse) (signerId : AccountId) :
    level.convert response signerId ≠ .error unknownError := by
  have hextract : ∀ name, WaitLevel.extractOutcome response name ≠ .error unknownError := by
    intro name h
    unfold WaitLevel.extractOutcome WaitLevel.missingOutcome unknownError at h
    split at h
    · have htext := congrArg String.toList (Error.invalidTransaction.inj (Except.error.inj h))
      simp [String.toList_append, toString] at htext
    · split at h
      · cases h
      · cases h
  have hmap : ∀ name,
      SendResponse.outcome <$> WaitLevel.extractOutcome response name ≠ .error unknownError := by
    intro name h
    cases hx : WaitLevel.extractOutcome response name with
    | ok outcome =>
      rw [hx] at h
      cases h
    | error e =>
      rw [hx] at h
      cases h
      exact hextract name hx
  cases level with
  | submitted | included | includedFinal => exact nofun
  | executedOptimistic | executed | final => exact hmap _

omit [Crates] in
theorem lastExit_ne (t : TransactionSend) (signerId : AccountId) (result : SendResult) :
    t.lastExit signerId result ≠ .panic ∧ t.lastExit signerId result ≠ .err unknownError := by
  cases result with
  | error e => exact ⟨nofun, by cases e <;> simp [lastExit, Error.fromRpc, unknownError]⟩
  | ok response =>
    have hconvert := convert_ne t.waitLevel response signerId
    simp only [lastExit]
    cases hx : t.waitLevel.convert response signerId with
    | ok value => simp [Exit.ofExcept]
    | error e =>
      rw [hx] at hconvert
      simpa [Exit.ofExcept] using hconvert

namespace LoopRun
variable {t : TransactionSend} {signer : Signer} {script : ℕ → SendResult}
variable {tr : List (Exchange Request Answer)} {n : ℕ} {r : Exit SendResponse}

private theorem isTransient (run : t.LoopRun signer script 0 tr n r) {i : ℕ} (hi : i < n - 1) :
    (script i).isTransient = true :=
  (run.retried i (Nat.zero_le i) (by omega)).1

theorem le (run : t.LoopRun signer script 0 tr n r) : n ≤ t.builder.maxNonceRetries.toNat + 1 := by
  by_cases hn : 1 < n
  · have hlt := (run.retried (n - 2) (Nat.zero_le _) (by omega)).2.1
    omega
  · omega

/-- A run that gave up on a transient rejection has no iteration left, or it is the last
but one and the rejection is `Expired`. -/
theorem of_isTransient (run : t.LoopRun signer script 0 tr n r)
    (ht : (script (n - 1)).isTransient = true) :
    n = t.builder.maxNonceRetries.toNat + 1 ∨
      (n = t.builder.maxNonceRetries.toNat ∧ script (n - 1) = SendResult.expired) := by
  have hlt := run.lt
  have hle := run.le
  by_cases hlast : n = t.builder.maxNonceRetries.toNat + 1
  · exact .inl hlast
  · have hstop := run.stopped
    simp only [Retries, ht, true_and, not_and, Classical.not_imp] at hstop
    obtain ⟨hexp, hge⟩ := hstop (by omega)
    exact .inr ⟨by omega, hexp⟩

/-- The submissions are those of the budget unless the last retry met `Expired`. -/
theorem submissions_iff (run : t.LoopRun signer script 0 tr n r) :
    n = min (t.builder.maxNonceRetries.toNat + 1)
        (1 + firstFinal script t.builder.maxNonceRetries.toNat) ↔
      ¬ LastRetryExpired script t.builder.maxNonceRetries.toNat := by
  have hlt := run.lt
  have hle := run.le
  have hearlier : ∀ i < n - 1, (script i).isTransient = true := fun i hi => run.isTransient hi
  -- an `Expired` in the last place of the budget is not retried
  have hretry : LastRetryExpired script t.builder.maxNonceRetries.toNat →
      n ≠ t.builder.maxNonceRetries.toNat + 1 := by
    intro hbad hn
    have hret := run.retried (t.builder.maxNonceRetries.toNat - 1) (Nat.zero_le _)
      (by have := hbad.1; omega)
    have hsucc := hret.2.2 hbad.2.2
    omega
  cases ht : (script (n - 1)).isTransient with
  | false =>
    have hfirst := firstFinal_eq (m := t.builder.maxNonceRetries.toNat) (by omega) ht hearlier
    refine iff_of_true (by omega) ?_
    intro hbad
    by_cases hn : n - 1 < t.builder.maxNonceRetries.toNat
    · rw [hbad.2.1 _ hn] at ht
      cases ht
    · exact hretry hbad (by omega)
  | true =>
    have hall : ∀ i < n, (script i).isTransient = true := by
      intro i hi
      by_cases h : i = n - 1
      · rw [h]
        exact ht
      · exact hearlier i (by omega)
    have hfirst := le_firstFinal (m := t.builder.maxNonceRetries.toNat) hle hall
    rcases run.of_isTransient ht with hn | ⟨hn, hexp⟩
    · exact iff_of_true (by omega) fun hbad => hretry hbad hn
    · refine iff_of_false (by omega) (not_not_intro ⟨by omega, ?_, ?_⟩)
      · rwa [← hn]
      · rwa [← hn]

theorem budgetKept_iff (run : t.LoopRun signer script 0 tr n r) :
    t.BudgetKept signer script tr n r ↔
      ¬ LastRetryExpired script t.builder.maxNonceRetries.toNat := by
  rw [← run.submissions_iff]
  constructor
  · exact BudgetKept.submissions
  · intro hn
    refine ⟨hn, run.rounds, ?_, ?_⟩
    · intro e he
      rw [run.exit, he]
      rfl
    · rw [run.exit]
      exact (lastExit_ne t _ _).2

end LoopRun

/-! ## Whole sends -/

omit [Crates] in
theorem exists_scripted (script : ℕ → SendResult) (sent : ℕ) (q : Request) :
    ∃ a sent', Scripted script sent q a sent' := by
  cases q with
  | key _ => exact ⟨⟨.sample 0, 0⟩, sent, rfl⟩
  | publicKey _ => exact ⟨.sample 0, sent, rfl⟩
  | viewAccessKey _ _ _ => exact ⟨.ok (.sample 0), sent, ⟨_, rfl⟩, rfl⟩
  | status => exact ⟨.ok 0, sent, rfl⟩
  | nextNonce _ _ _ _ => exact ⟨0, sent, rfl⟩
  | sign _ _ => exact ⟨.ok .zero, sent, ⟨_, rfl⟩, rfl⟩
  | sendTx _ _ => exact ⟨script sent, sent + 1, rfl, rfl⟩

theorem intoFuture_run {t : TransactionSend} {signer : Signer} {script : ℕ → SendResult} {n : ℕ}
    {tr : List (Exchange Request Answer)} {r : Exit SendResponse} (ha : t.builder.actions ≠ [])
    (hs : t.builder.effectiveSigner = some signer)
    (hm : t.builder.maxNonceRetries.toNat < 2 ^ 32 - 1)
    (h : Completes (Scripted script) 0 t.intoFuture tr n r)
    (hr : r ≠ .panic ∨ Format.action.vec.Fits t.builder.actions) :
    t.LoopRun signer script 0 tr n r := by
  rw [intoFuture_eq ha hs] at h
  exact retryLoop_run hm rfl (Nat.zero_add _) h hr

/-- For every budget and every script of results: the send runs to its end, without a
panic unless an action is too long to be hashed, and it keeps its budget if and only if
the last retry of the budget does not meet `Expired` after transient rejections only. -/
theorem intoFuture_budget (t : TransactionSend) (signer : Signer) (script : ℕ → SendResult)
    (ha : t.builder.actions ≠ []) (hs : t.builder.effectiveSigner = some signer)
    (hm : t.builder.maxNonceRetries.toNat < 2 ^ 32 - 1) :
    (∃ tr n r, Completes (Scripted script) 0 t.intoFuture tr n r ∧
      (Format.action.vec.Fits t.builder.actions → r ≠ .panic)) ∧
    ∀ tr n r, Completes (Scripted script) 0 t.intoFuture tr n r → r ≠ .panic →
      (t.BudgetKept signer script tr n r ↔
        ¬ LastRetryExpired script t.builder.maxNonceRetries.toNat) := by
  constructor
  · obtain ⟨tr, n, r, hrun⟩ := t.intoFuture.exists_completes (exists_scripted script) 0
    refine ⟨tr, n, r, hrun, fun hfits => ?_⟩
    rw [(intoFuture_run ha hs hm hrun (.inr hfits)).exit]
    exact (lastExit_ne t _ _).1
  · intro tr n r hrun hr
    exact (intoFuture_run ha hs hm hrun (.inl hr)).budgetKept_iff

omit [Crates] in
/-- Two retries, both spent on rejections before `Expired` meets an empty budget. -/
theorem intoFuture_budget_sample :
    let script : ℕ → SendResult := fun i =>
      if i = 0 then .error (.invalidTx .expired)
      else if i = 1 then .error (.invalidTx (.invalidNonce 8 8)) else SendResult.expired
    ∃ tr r, Completes (Scripted script) 0 (@intoFuture Crates.accepting (.sample 2)) tr 3 r ∧
      r = .err (.invalidTx .expired) := by
  let _ := Crates.accepting
  intro script
  have hlast : ¬ LastRetryExpired script 2 := fun h => by cases h.2.2
  obtain ⟨⟨tr, n, r, hrun, hok⟩, hbudget⟩ :=
    intoFuture_budget (.sample 2) .sample script (by decide) rfl (by decide)
  have hr : r ≠ .panic := hok (by decide)
  have hkept := (hbudget tr n r hrun hr).mpr hlast
  have hn : n = 3 := hkept.submissions
  subst hn
  exact ⟨tr, r, hrun, hkept.lastError _ rfl⟩

omit [Crates] in
/-- One retry is promised and the first answer is `Expired`: the send gives up at once. -/
theorem expired_spends_no_retry :
    ∃ tr n r, Completes (Scripted fun _ => SendResult.expired) 0
        (@intoFuture Crates.accepting (.sample 1)) tr n r ∧ r ≠ .panic ∧
      ¬ @BudgetKept Crates.accepting (.sample 1) .sample (fun _ => SendResult.expired) tr n r := by
  let _ := Crates.accepting
  let script : ℕ → SendResult := fun _ => SendResult.expired
  obtain ⟨tr, n, r, hrun⟩ :=
    (intoFuture (.sample 1)).exists_completes (exists_scripted script) 0
  have hloop := @intoFuture_run _ _ .sample _ _ _ _ (by decide) rfl (by decide) hrun
    (.inr (by decide))
  refine ⟨tr, n, r, hrun, ?_, ?_⟩
  · rw [hloop.exit]
    exact (lastExit_ne _ _ _).1
  · rw [hloop.budgetKept_iff]
    exact not_not_intro ⟨by decide, fun _ _ => rfl, rfl⟩

end TransactionSend
end NearKit
