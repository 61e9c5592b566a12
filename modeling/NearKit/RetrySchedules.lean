import NearKit.RpcCalls
import Mathlib.Data.List.Range

/-!
# Retry schedules

The retry loop of the RPC client in a build with overflow checks, where an arithmetic
overflow is a panic. What such a run does without a panic, a build without checks does
too.
-/
namespace NearKit

def checkedMul (a b : UInt64) : Option UInt64 :=
  if a.toNat * b.toNat < 2 ^ 64 then some (a * b) else none

def checkedPow (base : UInt64) (exp : UInt32) : Option UInt64 :=
  if base.toNat ^ exp.toNat < 2 ^ 64 then some (UInt64.ofNat (base.toNat ^ exp.toNat)) else none

namespace RetryConfig

def checkedTotalAttempts (config : RetryConfig) : Option UInt32 :=
  if config.maxRetries.toNat + 1 < 2 ^ 32 then some (config.maxRetries + 1) else none

def checkedDelay (config : RetryConfig) (attempt : UInt32) : Option UInt64 :=
  (checkedPow 2 attempt).bind fun factor =>
  (checkedMul config.initialDelayMs factor).map fun delay => min delay config.maxDelayMs

/-- The delay before retry `i`, computed exactly. -/
def exactDelay (config : RetryConfig) (i : ℕ) : ℕ :=
  min (config.initialDelayMs.toNat * 2 ^ i) config.maxDelayMs.toNat

/-- The values in the computation of delay `i` fit in a `u64`. -/
def Fits (config : RetryConfig) (i : ℕ) : Prop :=
  2 ^ i < 2 ^ 64 ∧ config.initialDelayMs.toNat * 2 ^ i < 2 ^ 64

variable {config : RetryConfig} {attempt : UInt32}

private theorem exactDelay_le (i : ℕ) : config.exactDelay i ≤ config.maxDelayMs.toNat :=
  Nat.min_le_right _ _

private theorem exactDelay_mono : Monotone config.exactDelay := by
  intro i j h
  have hpow : 2 ^ i ≤ 2 ^ j := Nat.pow_le_pow_right (by norm_num) h
  have hmul := Nat.mul_le_mul_left config.initialDelayMs.toNat hpow
  unfold exactDelay
  omega

theorem checkedPow_two (h : 2 ^ attempt.toNat < 2 ^ 64) :
    checkedPow 2 attempt = some (UInt64.ofNat (2 ^ attempt.toNat)) :=
  if_pos h

theorem checkedDelay_of_fits (h : config.Fits attempt.toNat) :
    config.checkedDelay attempt = some (config.delay attempt) := by
  have hfactor : (UInt64.ofNat (2 ^ attempt.toNat)).toNat = 2 ^ attempt.toNat :=
    UInt64.toNat_ofNat_of_lt' h.1
  have hmul : config.initialDelayMs.toNat * (UInt64.ofNat (2 ^ attempt.toNat)).toNat < 2 ^ 64 := by
    rw [hfactor]
    exact h.2
  unfold checkedDelay
  rw [checkedPow_two h.1, Option.bind_some, checkedMul, if_pos hmul]
  rfl

theorem checkedDelay_of_not_fits (h : ¬ config.Fits attempt.toNat) :
    config.checkedDelay attempt = none := by
  unfold checkedDelay
  by_cases hpow : 2 ^ attempt.toNat < 2 ^ 64
  · have hfactor : (UInt64.ofNat (2 ^ attempt.toNat)).toNat = 2 ^ attempt.toNat :=
      UInt64.toNat_ofNat_of_lt' hpow
    have hmul : ¬ config.initialDelayMs.toNat * (UInt64.ofNat (2 ^ attempt.toNat)).toNat <
        2 ^ 64 := by
      rw [hfactor]
      exact fun hlt => h ⟨hpow, hlt⟩
    rw [checkedPow_two hpow, Option.bind_some, checkedMul, if_neg hmul]
    rfl
  · have hnone : checkedPow 2 attempt = none := if_neg hpow
    rw [hnone]
    rfl

private theorem delay_of_checked {delay : UInt64} (h : config.checkedDelay attempt = some delay) :
    config.delay attempt = delay := by
  by_cases hfits : config.Fits attempt.toNat
  · rw [checkedDelay_of_fits hfits] at h
    exact Option.some.inj h
  · rw [checkedDelay_of_not_fits hfits] at h
    cases h

private theorem toNat_delay (h : config.Fits attempt.toNat) :
    (config.delay attempt).toNat = config.exactDelay attempt.toNat := by
  have hproduct : (config.initialDelayMs * UInt64.ofNat (2 ^ attempt.toNat)).toNat =
      config.initialDelayMs.toNat * 2 ^ attempt.toNat := by
    rw [UInt64.toNat_mul, UInt64.toNat_ofNat_of_lt' h.1, Nat.mod_eq_of_lt h.2]
  unfold exactDelay
  rw [← hproduct]
  show (if _ ≤ config.maxDelayMs then _ else config.maxDelayMs : UInt64).toNat = _
  split
  · next hle =>
    have := UInt64.le_iff_toNat_le.mp hle
    omega
  · next hlt =>
    have := mt UInt64.le_iff_toNat_le.mpr hlt
    omega

end RetryConfig

/-! ## The loop with overflow checks -/

namespace RpcClient
variable {P R : Type}

/-- The iterations `attempt..total_attempts`, `left` of them. -/
def callLoopChecked (config : RetryConfig) (method : String) (params : P) (total : UInt32) (left : ℕ)
    (attempt : UInt32) : Call P R :=
  match left with
  | 0 => .done none
  | left + 1 =>
    .ask .requestId fun requestId =>
    .ask (.tryCall ⟨"2.0", requestId, method, params⟩) fun
    | .ok result => .done (some (.ok result))
    | .error e =>
      if e.isRetryable = true ∧ attempt < total - 1 then
        match config.checkedDelay attempt with
        | none => .done none
        | some delay =>
          .ask (.sleep delay) fun _ =>
          callLoopChecked config method params total left (attempt + 1)
      else .done (some (.error e))

def callChecked (config : RetryConfig) (method : String) (params : P) : Call P R :=
  match config.checkedTotalAttempts with
  | none => .done none
  | some total => callLoopChecked config method params total total.toNat 0

end RpcClient

/-! ## Runs over a script of results -/

/-- Whether a result may be followed by another attempt. -/
def Retried {R : Type} (a : Except RpcError R) : Prop := ∃ e, a = .error e ∧ e.isRetryable = true

section
variable {P R : Type}

/-- The results of the attempts are given in advance; the state counts the attempts. -/
def scripted (results : ℕ → Except RpcError R) :
    ℕ → (q : CallRequest P) → CallAnswer P R q → ℕ → Prop
  | n, .tryCall _, a, n' => a = results n ∧ n' = n + 1
  | n, _, _, n' => n' = n

def attemptsOf : List (Exchange (CallRequest P) (CallAnswer P R)) → List (Except RpcError R)
  | [] => []
  | ⟨.tryCall _, a⟩ :: tr => a :: attemptsOf tr
  | _ :: tr => attemptsOf tr

def delaysOf : List (Exchange (CallRequest P) (CallAnswer P R)) → List UInt64
  | [] => []
  | ⟨.sleep ms, _⟩ :: tr => ms :: delaysOf tr
  | _ :: tr => delaysOf tr

/-- The run of the loop from attempt `first` to attempt `last`. -/
structure RunsTo (config : RetryConfig) (results : ℕ → Except RpcError R) (first last : ℕ)
    (tr : List (Exchange (CallRequest P) (CallAnswer P R)))
    (r : Option (Except RpcError R)) : Prop where
  le_last : first ≤ last
  last_le : last ≤ config.maxRetries.toNat
  attempts : attemptsOf tr = (List.range' first (last + 1 - first)).map results
  retried : ∀ i, first ≤ i → i < last → Retried (results i)
  stopped : ¬ Retried (results last) ∨ last = config.maxRetries.toNat
  result : r = some (results last)
  delays : (delaysOf tr).map UInt64.toNat = (List.range' first (last - first)).map config.exactDelay

/-- No value overflows in a call that gets these results. -/
structure RetryConfig.Safe (config : RetryConfig) (results : ℕ → Except RpcError R) : Prop where
  total : config.maxRetries.toNat + 1 < 2 ^ 32
  delays : ∀ i < config.maxRetries.toNat, (∀ j ≤ i, Retried (results j)) → config.Fits i

/-- What one iteration does, newest state last: it returns its result, or its delay
overflows, or it pauses and the loop goes on. -/
inductive Iteration (config : RetryConfig) (method : String) (params : P) (total : UInt32)
    (results : ℕ → Except RpcError R) (left k : ℕ) (attempt : UInt32) (s : ℕ) :
    List (Exchange (CallRequest P) (CallAnswer P R)) → Option (Except RpcError R) → Prop where
  | returns (h : ¬ (Retried (results k) ∧ attempt < total - 1)) :
    Iteration config method params total results left k attempt s [] (some (results k))
  | overflows (h : Retried (results k) ∧ attempt < total - 1)
    (delay : config.checkedDelay attempt = none) :
    Iteration config method params total results left k attempt s [] none
  | pauses {delay : UInt64} {tr : List (Exchange (CallRequest P) (CallAnswer P R))}
    {r : Option (Except RpcError R)} (h : Retried (results k) ∧ attempt < total - 1)
    (checked : config.checkedDelay attempt = some delay)
    (rest : Completes (scripted results) (k + 1)
      (RpcClient.callLoopChecked config method params total left (attempt + 1)) tr s r) :
    Iteration config method params total results left k attempt s (⟨.sleep delay, ()⟩ :: tr) r

variable {config : RetryConfig} {method : String} {params : P} {total : UInt32}
variable {results : ℕ → Except RpcError R} {left k s : ℕ} {attempt : UInt32}
variable {tr : List (Exchange (CallRequest P) (CallAnswer P R))} {r : Option (Except RpcError R)}

theorem callLoopChecked_inv
    (h : Completes (scripted results) k
      (RpcClient.callLoopChecked config method params total (left + 1) attempt) tr s r) :
    ∃ id request tr', tr = ⟨.requestId, id⟩ :: ⟨.tryCall request, results k⟩ :: tr' ∧
      Iteration config method params total results left k attempt s tr' r := by
  obtain ⟨id, n, tr₁, rfl, hn, h₁⟩ := h.ask_inv
  have hn : n = k := hn
  subst hn
  obtain ⟨a, n', tr₂, rfl, ⟨rfl, rfl⟩, h₂⟩ := h₁.ask_inv
  refine ⟨id, _, tr₂, rfl, ?_⟩
  cases ha : results n with
  | ok result =>
    simp only [ha] at h₂
    obtain ⟨rfl, -, rfl⟩ := h₂.done_inv
    rw [← ha]
    apply Iteration.returns
    rintro ⟨⟨e, he, -⟩, -⟩
    rw [ha] at he
    cases he
  | error e =>
    simp only [ha] at h₂
    by_cases hretry : e.isRetryable = true ∧ attempt < total - 1
    · have hretried : Retried (results n) ∧ attempt < total - 1 := ⟨⟨e, ha, hretry.1⟩, hretry.2⟩
      rw [if_pos hretry] at h₂
      cases hdelay : config.checkedDelay attempt with
      | none =>
        simp only [hdelay] at h₂
        obtain ⟨rfl, -, rfl⟩ := h₂.done_inv
        exact .overflows hretried hdelay
      | some delay =>
        simp only [hdelay] at h₂
        obtain ⟨⟨⟩, n', tr₃, rfl, hn', h₃⟩ := h₂.ask_inv
        have hn' : n' = n + 1 := hn'
        subst hn'
        exact .pauses hretried hdelay h₃
    · rw [if_neg hretry] at h₂
      obtain ⟨rfl, -, rfl⟩ := h₂.done_inv
      rw [← ha]
      apply Iteration.returns
      rintro ⟨⟨e', he', hr⟩, hlt⟩
      rw [ha] at he'
      cases he'
      exact hretry ⟨hr, hlt⟩

/-- The comparison that ends the loop is exact. -/
theorem lt_total_sub_one (htotal : total.toNat = config.maxRetries.toNat + 1) :
    attempt < total - 1 ↔ attempt.toNat < config.maxRetries.toNat := by
  have hone : (1 : UInt32) ≤ total := by
    rw [UInt32.le_iff_toNat_le, htotal]
    show 1 ≤ config.maxRetries.toNat + 1
    omega
  rw [UInt32.lt_iff_toNat_lt, UInt32.toNat_sub_of_le _ _ hone, htotal]
  rfl

theorem toNat_add_one (h : attempt.toNat < config.maxRetries.toNat) :
    (attempt + 1).toNat = attempt.toNat + 1 := by
  have hmax := config.maxRetries.toNat_lt
  rw [UInt32.toNat_add]
  apply Nat.mod_eq_of_lt
  show attempt.toNat + 1 < 2 ^ 32
  omega

theorem RunsTo.pause {last : ℕ} {delay : UInt64} {id : UInt64} {request : JsonRpcRequest P}
    (h : RunsTo config results (k + 1) last tr r) (hretried : Retried (results k))
    (hdelay : delay.toNat = config.exactDelay k) :
    RunsTo config results k last
      (⟨.requestId, id⟩ :: ⟨.tryCall request, results k⟩ :: ⟨.sleep delay, ()⟩ :: tr) r where
  le_last := Nat.le_of_succ_le h.le_last
  last_le := h.last_le
  attempts := by
    have hle := h.le_last
    have hlength : last + 1 - k = last + 1 - (k + 1) + 1 := by omega
    show results k :: attemptsOf tr = _
    rw [h.attempts, hlength, List.range'_succ, List.map_cons]
  retried := by
    intro i hk hlast
    rcases Nat.eq_or_lt_of_le hk with rfl | hlt
    · exact hretried
    · exact h.retried i hlt hlast
  stopped := h.stopped
  result := h.result
  delays := by
    have hle := h.le_last
    have hlength : last - k = last - (k + 1) + 1 := by omega
    show delay.toNat :: (delaysOf tr).map UInt64.toNat = _
    rw [h.delays, hdelay, hlength, List.range'_succ, List.map_cons]

theorem RunsTo.last {id : UInt64} {request : JsonRpcRequest P} (hk : k ≤ config.maxRetries.toNat)
    (hstop : ¬ Retried (results k) ∨ k = config.maxRetries.toNat) :
    RunsTo config results k k [⟨.requestId, id⟩, ⟨.tryCall request, results k⟩]
      (some (results k)) where
  le_last := Nat.le_refl k
  last_le := hk
  attempts := by
    rw [Nat.add_sub_cancel_left]
    rfl
  retried := by
    intro i hle hlt
    omega
  stopped := hstop
  result := rfl
  delays := by
    rw [Nat.sub_self]
    rfl

private theorem exists_runsTo (hsafe : config.Safe results)
    (htotal : total.toNat = config.maxRetries.toNat + 1)
    (hleft : attempt.toNat + left = config.maxRetries.toNat + 1) (hpos : 0 < left)
    (hbefore : ∀ i < attempt.toNat, Retried (results i))
    (h : Completes (scripted results) attempt.toNat
      (RpcClient.callLoopChecked config method params total left attempt) tr s r) :
    ∃ last, RunsTo config results attempt.toNat last tr r := by
  induction left generalizing attempt tr with
  | zero => cases hpos
  | succ left ih =>
    obtain ⟨id, request, tr', rfl, hiteration⟩ := callLoopChecked_inv h
    cases hiteration with
    | returns hstop =>
      rw [lt_total_sub_one htotal] at hstop
      refine ⟨attempt.toNat, .last (by omega) ?_⟩
      by_cases hretried : Retried (results attempt.toNat)
      · have hge : ¬ attempt.toNat < config.maxRetries.toNat := fun hlt => hstop ⟨hretried, hlt⟩
        exact .inr (by omega)
      · exact .inl hretried
    | overflows hretry hdelay =>
      have hlt := (lt_total_sub_one htotal).mp hretry.2
      have hfits : config.Fits attempt.toNat := by
        apply hsafe.delays _ hlt
        intro j hj
        rcases Nat.eq_or_lt_of_le hj with rfl | hj
        · exact hretry.1
        · exact hbefore j hj
      rw [RetryConfig.checkedDelay_of_fits hfits] at hdelay
      cases hdelay
    | @pauses delay tr'' _ hretry hdelay hrest =>
      have hlt := (lt_total_sub_one htotal).mp hretry.2
      have hbefore' : ∀ i < attempt.toNat + 1, Retried (results i) := by
        intro i hi
        rcases Nat.eq_or_lt_of_le (Nat.le_of_lt_succ hi) with rfl | hi
        · exact hretry.1
        · exact hbefore i hi
      have hfits : config.Fits attempt.toNat :=
        hsafe.delays _ hlt fun j hj => hbefore' j (Nat.lt_succ_of_le hj)
      rw [RetryConfig.checkedDelay_of_fits hfits] at hdelay
      cases hdelay
      have hnext := toNat_add_one hlt
      rw [← hnext] at hrest hbefore'
      obtain ⟨last, hruns⟩ := ih (by omega) (by omega) hbefore' hrest
      rw [hnext] at hruns
      exact ⟨last, hruns.pause hretry.1 (RetryConfig.toNat_delay hfits)⟩

/-- Once a delay overflows that the script makes the loop compute, every run panics. -/
theorem panics_of_overflow (htotal : total.toNat = config.maxRetries.toNat + 1)
    {i : ℕ} (hi : i < config.maxRetries.toNat) (hretried : ∀ j ≤ i, Retried (results j))
    (hfits : ¬ config.Fits i) (hle : attempt.toNat ≤ i)
    (h : Completes (scripted results) attempt.toNat
      (RpcClient.callLoopChecked config method params total left attempt) tr s r) : r = none := by
  induction left generalizing attempt tr with
  | zero =>
    obtain rfl := h.done_result
    rfl
  | succ left ih =>
    obtain ⟨id, request, tr', rfl, hiteration⟩ := callLoopChecked_inv h
    cases hiteration with
    | returns hstop =>
      rw [lt_total_sub_one htotal] at hstop
      exact absurd ⟨hretried _ hle, by omega⟩ hstop
    | overflows => rfl
    | pauses hretry hdelay hrest =>
      have hlt := (lt_total_sub_one htotal).mp hretry.2
      have hne : attempt.toNat ≠ i := by
        rintro rfl
        rw [RetryConfig.checkedDelay_of_not_fits hfits] at hdelay
        cases hdelay
      have hnext := toNat_add_one hlt
      rw [← hnext] at hrest
      exact ih (by omega) hrest

private theorem RunsTo.toNat_mem_delays {first last : ℕ} (h : RunsTo config results first last tr r)
    {delay : UInt64} (hdelay : delay ∈ delaysOf tr) : ∃ i, delay.toNat = config.exactDelay i := by
  have hmem : delay.toNat ∈ (delaysOf tr).map UInt64.toNat := List.mem_map_of_mem hdelay
  rw [h.delays] at hmem
  obtain ⟨i, -, hi⟩ := List.mem_map.mp hmem
  exact ⟨i, hi.symm⟩

private theorem RunsTo.delays_le {first last : ℕ} (h : RunsTo config results first last tr r) :
    ∀ delay ∈ delaysOf tr, delay ≤ config.maxDelayMs := by
  intro delay hdelay
  obtain ⟨i, hi⟩ := h.toNat_mem_delays hdelay
  rw [UInt64.le_iff_toNat_le, hi]
  exact RetryConfig.exactDelay_le i

private theorem RunsTo.delays_sorted {first last : ℕ} (h : RunsTo config results first last tr r) :
    (delaysOf tr).Pairwise (· ≤ ·) := by
  have hsorted : ((delaysOf tr).map UInt64.toNat).Pairwise (· ≤ ·) := by
    rw [h.delays]
    apply List.Pairwise.map _ (fun i j hij => RetryConfig.exactDelay_mono hij)
    exact List.pairwise_le_range'
  exact (List.pairwise_map.mp hsorted).imp UInt64.le_iff_toNat_le.mpr

theorem toNat_totalAttempts (h : config.maxRetries.toNat + 1 < 2 ^ 32) :
    (config.maxRetries + 1).toNat = config.maxRetries.toNat + 1 := by
  rw [UInt32.toNat_add]
  exact Nat.mod_eq_of_lt h

theorem callChecked_of_total (h : config.maxRetries.toNat + 1 < 2 ^ 32) :
    (RpcClient.callChecked config method params : Call P R) =
      RpcClient.callLoopChecked config method params (config.maxRetries + 1)
        (config.maxRetries + 1).toNat 0 := by
  unfold RpcClient.callChecked RetryConfig.checkedTotalAttempts
  rw [if_pos h]

theorem callChecked_of_total_overflow (h : ¬ config.maxRetries.toNat + 1 < 2 ^ 32) :
    (RpcClient.callChecked config method params : Call P R) = .done none := by
  unfold RpcClient.callChecked RetryConfig.checkedTotalAttempts
  rw [if_neg h]

/-! ## The schedule -/

/-- A call that gets these results runs to its end, and however it runs, it does not
panic, it makes the attempts `0..=last` and returns the result of the last of them, after
exact delays that never shrink and never exceed the maximum. -/
structure RetriesExactly (config : RetryConfig) (method : String) (params : P)
    (results : ℕ → Except RpcError R) : Prop where
  completes : ∃ (tr : List (Exchange (CallRequest P) (CallAnswer P R))) (s : ℕ)
    (r : Option (Except RpcError R)),
    Completes (scripted results) 0 (RpcClient.callChecked config method params) tr s r
  runs : ∀ {tr : List (Exchange (CallRequest P) (CallAnswer P R))} {s : ℕ}
    {r : Option (Except RpcError R)},
    Completes (scripted results) 0 (RpcClient.callChecked config method params) tr s r →
    (∃ last, RunsTo config results 0 last tr r) ∧ (delaysOf tr).Pairwise (· ≤ ·) ∧
      ∀ delay ∈ delaysOf tr, delay ≤ config.maxDelayMs

private theorem exists_scripted (n : ℕ) (q : CallRequest P) :
    ∃ a n', scripted results n q a n' := by
  cases q with
  | requestId => exact ⟨(0 : UInt64), n, rfl⟩
  | tryCall request => exact ⟨results n, n + 1, rfl, rfl⟩
  | sleep ms => exact ⟨(), n, rfl⟩

theorem RetriesExactly.ne_none (h : RetriesExactly config method params results)
    (hrun : Completes (scripted results) 0 (RpcClient.callChecked config method params) tr s r) :
    r ≠ none := by
  obtain ⟨⟨last, hruns⟩, -⟩ := h.runs hrun
  rw [hruns.result]
  exact Option.some_ne_none _

theorem RetriesExactly.total_fits (h : RetriesExactly config method params results) :
    config.maxRetries.toNat + 1 < 2 ^ 32 := by
  by_contra htotal
  obtain ⟨tr, s, r, hrun⟩ := h.completes
  have hnone : r = none := by
    rw [callChecked_of_total_overflow htotal] at hrun
    exact hrun.done_result
  exact h.ne_none hrun hnone

theorem RetriesExactly.safe (h : RetriesExactly config method params results) :
    config.Safe results := by
  refine ⟨h.total_fits, fun i hi hretried => ?_⟩
  by_contra hfits
  obtain ⟨tr, s, r, hrun⟩ := h.completes
  have hloop := hrun
  rw [callChecked_of_total h.total_fits] at hloop
  exact h.ne_none hrun
    (panics_of_overflow (toNat_totalAttempts h.total_fits) hi hretried hfits
      (show (0 : UInt32).toNat ≤ i from Nat.zero_le i) hloop)

private theorem RetryConfig.Safe.retriesExactly (hsafe : config.Safe results) :
    RetriesExactly config method params results := by
  refine ⟨Process.exists_completes exists_scripted _ 0, ?_⟩
  intro tr s r hrun
  have htotal := toNat_totalAttempts hsafe.total
  rw [callChecked_of_total hsafe.total] at hrun
  have hleft : (0 : UInt32).toNat + (config.maxRetries + 1).toNat =
      config.maxRetries.toNat + 1 := by
    rw [htotal]
    exact Nat.zero_add _
  have hbefore : ∀ i < (0 : UInt32).toNat, Retried (results i) :=
    fun i hi => absurd hi (Nat.not_lt_zero i)
  obtain ⟨last, hruns⟩ := exists_runsTo hsafe htotal hleft (by omega) hbefore hrun
  exact ⟨⟨last, hruns⟩, hruns.delays_sorted, hruns.delays_le⟩

theorem callChecked_retriesExactly_iff (config : RetryConfig) (method : String) (params : P)
    (results : ℕ → Except RpcError R) :
    RetriesExactly config method params results ↔ config.Safe results :=
  ⟨RetriesExactly.safe, RetryConfig.Safe.retriesExactly⟩

/-- The largest `max_retries` leaves no attempt at all, and sixty retries of an
unavailable service overflow long after the delay has reached its maximum. -/
theorem call_overflows :
    ¬ RetriesExactly ⟨4294967295, 500, 5000⟩ "block" () (fun _ => (.ok () : Except RpcError Unit)) ∧
    ¬ RetriesExactly ⟨60, 500, 5000⟩ "block" ()
      (fun _ => (.error (.network "service unavailable" (some 503) true) : Except RpcError Unit)) := by
  constructor
  · intro h
    exact absurd h.total_fits (by decide)
  · intro h
    have hfits := h.safe.delays 56 (by decide) fun j _ => ⟨_, rfl, rfl⟩
    exact absurd hfits.2 (by decide)

/-! ## Builds without overflow checks -/

private theorem callLoop_of_checked {σ : Type}
    {H : σ → (q : CallRequest P) → CallAnswer P R q → σ → Prop}
    {s s' : σ} {result : Except RpcError R}
    (h : Completes H s (RpcClient.callLoopChecked config method params config.totalAttempts left attempt)
      tr s' (some result)) :
    Completes H s (RpcClient.callLoop config method params left attempt) tr s' (some result) := by
  induction left generalizing attempt tr s with
  | zero => exact h
  | succ left ih =>
    obtain ⟨id, s₁, tr₁, rfl, hid, h₁⟩ := h.ask_inv
    obtain ⟨a, s₂, tr₂, rfl, ha, h₂⟩ := h₁.ask_inv
    refine .ask hid (.ask ha ?_)
    cases a with
    | ok value => exact h₂
    | error e =>
      by_cases hretry : e.isRetryable = true ∧ attempt < config.totalAttempts - 1
      · simp only [if_pos hretry] at h₂ ⊢
        cases hdelay : config.checkedDelay attempt with
        | none =>
          simp only [hdelay] at h₂
          have hresult := h₂.done_result
          cases hresult
        | some delay =>
          have hexact := RetryConfig.delay_of_checked hdelay
          simp only [hdelay] at h₂
          obtain ⟨⟨⟩, s₃, tr₃, rfl, hsleep, h₃⟩ := h₂.ask_inv
          subst hexact
          exact .ask hsleep (ih h₃)
      · simp only [if_neg hretry] at h₂ ⊢
        exact h₂

/-- A run that does not panic with overflow checks is a run of the build without them. -/
theorem call_of_callChecked {σ : Type} {H : σ → (q : CallRequest P) → CallAnswer P R q → σ → Prop}
    {s s' : σ} {result : Except RpcError R}
    (h : Completes H s (RpcClient.callChecked config method params) tr s' (some result)) :
    Completes H s (RpcClient.call config method params) tr s' (some result) := by
  by_cases htotal : config.maxRetries.toNat + 1 < 2 ^ 32
  · rw [callChecked_of_total htotal] at h
    exact callLoop_of_checked h
  · rw [callChecked_of_total_overflow htotal] at h
    have hresult := h.done_result
    cases hresult

end
end NearKit
