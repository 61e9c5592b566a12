import NearKit.Actions

/-!
# The nonce manager

One counter for each network, account and key. A call takes the larger of the counter
and the caller's chain nonce, adds one and keeps the result. Calls are atomic under the
mutex, so any interleaving of callers is a sequence of calls in lock order.
-/
namespace NearKit

abbrev Network := String

abbrev NonceKey := Network × AccountId × PublicKey

/-- The cached value of a key is the last nonce handed out for it. -/
structure NonceManager where
  nonces : NonceKey → Option Nonce

structure NextCall where
  network : Network
  accountId : AccountId
  publicKey : PublicKey
  blockchainNonce : Nonce
  deriving DecidableEq

def NextCall.key (c : NextCall) : NonceKey := (c.network, c.accountId, c.publicKey)

namespace NonceManager

def new : NonceManager := ⟨fun _ => none⟩

/-- The value that is incremented: the cached nonce, raised to the chain nonce. -/
def base (m : NonceManager) (key : NonceKey) (blockchainNonce : Nonce) : Nonce :=
  match m.nonces key with
  | some n => max n blockchainNonce
  | none => blockchainNonce

/-- `NonceManager::next`, with the state it leaves under the mutex. -/
def next (m : NonceManager) (network : Network) (accountId : AccountId) (publicKey : PublicKey)
    (blockchainNonce : Nonce) : Nonce × NonceManager :=
  let key := (network, accountId, publicKey)
  let nonce := m.base key blockchainNonce + 1
  (nonce, ⟨Function.update m.nonces key (some nonce)⟩)

/-- The counter of the call stays below `u64::MAX`. -/
def Below (m : NonceManager) (key : NonceKey) (blockchainNonce : Nonce) : Prop :=
  (m.base key blockchainNonce).toNat + 1 < 2 ^ 64

instance (m : NonceManager) (key : NonceKey) (blockchainNonce : Nonce) :
    Decidable (m.Below key blockchainNonce) :=
  inferInstanceAs (Decidable (_ < _))

/-- The manager has handed out `n` or a later nonce for the key. -/
def Reached (m : NonceManager) (key : NonceKey) (n : Nonce) : Prop :=
  ∃ c, m.nonces key = some c ∧ n ≤ c

/-! ## One call -/

theorem toNat_max (a b : UInt64) : (max a b).toNat = max a.toNat b.toNat := by
  show (if a ≤ b then b else a).toNat = max a.toNat b.toNat
  by_cases h : a ≤ b
  · rw [if_pos h]
    exact (Nat.max_eq_right (UInt64.le_iff_toNat_le.mp h)).symm
  · have hlt : b.toNat < a.toNat := UInt64.lt_iff_toNat_lt.mp (UInt64.not_le.mp h)
    rw [if_neg h]
    exact (Nat.max_eq_left hlt.le).symm

theorem toNat_succ {n : UInt64} (h : n.toNat + 1 < 2 ^ 64) : (n + 1).toNat = n.toNat + 1 := by
  rw [UInt64.toNat_add]
  exact Nat.mod_eq_of_lt h

theorem le_base (m : NonceManager) (key : NonceKey) (blockchainNonce : Nonce) :
    blockchainNonce ≤ m.base key blockchainNonce := by
  unfold base
  cases m.nonces key with
  | none => exact UInt64.le_refl _
  | some n =>
    apply UInt64.le_iff_toNat_le.mpr
    rw [toNat_max]
    exact Nat.le_max_right _ _

theorem le_base_of_reached {m : NonceManager} {key : NonceKey} {n : Nonce} (h : m.Reached key n)
    (blockchainNonce : Nonce) : n ≤ m.base key blockchainNonce := by
  obtain ⟨c, hc, hn⟩ := h
  have hmax : c ≤ max c blockchainNonce := by
    apply UInt64.le_iff_toNat_le.mpr
    rw [toNat_max]
    exact Nat.le_max_left _ _
  simp only [base, hc]
  exact UInt64.le_trans hn hmax

/-- A cached nonce is its own base for every chain nonce that it has reached. -/
theorem base_of_reached {m : NonceManager} {key : NonceKey} {n : Nonce} (h : m.Reached key n) :
    some (m.base key n) = m.nonces key := by
  obtain ⟨c, hc, hle⟩ := h
  have hmax : max c n = c := by
    apply UInt64.toNat_inj.mp
    rw [toNat_max]
    exact Nat.max_eq_left (UInt64.le_iff_toNat_le.mp hle)
  simp only [base, hc, hmax]

variable {m : NonceManager} {network : Network} {accountId : AccountId} {publicKey : PublicKey}
variable {blockchainNonce : Nonce}

theorem lt_next_of_le_base {n : Nonce} (hb : m.Below (network, accountId, publicKey) blockchainNonce)
    (hn : n ≤ m.base (network, accountId, publicKey) blockchainNonce) :
    n < (m.next network accountId publicKey blockchainNonce).1 := by
  apply UInt64.lt_iff_toNat_lt.mpr
  have hle := UInt64.le_iff_toNat_le.mp hn
  have hs : (m.next network accountId publicKey blockchainNonce).1.toNat = _ := toNat_succ hb
  rw [hs]
  exact Nat.lt_succ_of_le hle

/-- A call hands out more than the chain nonce it was given. -/
theorem chain_lt_next (hb : m.Below (network, accountId, publicKey) blockchainNonce) :
    blockchainNonce < (m.next network accountId publicKey blockchainNonce).1 :=
  lt_next_of_le_base hb (le_base _ _ _)

/-- A call hands out more than every nonce handed out before it. -/
theorem reached_lt_next {n : Nonce} (hb : m.Below (network, accountId, publicKey) blockchainNonce)
    (hn : m.Reached (network, accountId, publicKey) n) :
    n < (m.next network accountId publicKey blockchainNonce).1 :=
  lt_next_of_le_base hb (le_base_of_reached hn _)

theorem nonces_next_self :
    (m.next network accountId publicKey blockchainNonce).2.nonces (network, accountId, publicKey) =
      some (m.next network accountId publicKey blockchainNonce).1 :=
  Function.update_self ..

theorem nonces_next_of_ne {key : NonceKey} (h : key ≠ (network, accountId, publicKey)) :
    (m.next network accountId publicKey blockchainNonce).2.nonces key = m.nonces key :=
  Function.update_of_ne h _ _

theorem reached_next_self {n : Nonce}
    (hn : n ≤ (m.next network accountId publicKey blockchainNonce).1) :
    (m.next network accountId publicKey blockchainNonce).2.Reached (network, accountId, publicKey) n :=
  ⟨_, nonces_next_self, hn⟩

theorem Reached.next {key : NonceKey} {n : Nonce} (h : m.Reached key n)
    (hb : m.Below (network, accountId, publicKey) blockchainNonce) :
    (m.next network accountId publicKey blockchainNonce).2.Reached key n := by
  by_cases hk : key = (network, accountId, publicKey)
  · subst hk
    exact reached_next_self (UInt64.le_of_lt (reached_lt_next hb h))
  · obtain ⟨c, hc, hn⟩ := h
    exact ⟨c, (nonces_next_of_ne hk).trans hc, hn⟩

/-! ## Sequences of calls -/

end NonceManager

/-- One call in lock order, with the states around it. -/
structure Allocation where
  call : NextCall
  before : NonceManager
  nonce : Nonce
  after : NonceManager

namespace NonceManager

/-- The calls served one after the other. -/
def serve (m : NonceManager) : List NextCall → List Allocation
  | [] => []
  | c :: cs =>
    let r := m.next c.network c.accountId c.publicKey c.blockchainNonce
    ⟨c, m, r.1, r.2⟩ :: serve r.2 cs

def AllBelow (m : NonceManager) (cs : List NextCall) : Prop :=
  ∀ e ∈ m.serve cs, e.before.Below e.call.key e.call.blockchainNonce

/-- Once reached, a nonce stays below everything handed out later for its key. -/
theorem lt_of_mem_serve {m : NonceManager} {cs : List NextCall} (hb : m.AllBelow cs) {key : NonceKey}
    {n : Nonce} (hr : m.Reached key n) : ∀ e ∈ m.serve cs, e.call.key = key → n < e.nonce := by
  induction cs generalizing m with
  | nil => simp [serve]
  | cons c cs ih =>
    have hbc : m.Below c.key c.blockchainNonce := hb _ List.mem_cons_self
    have hbs : NonceManager.AllBelow _ cs := fun e he => hb e (List.mem_cons_of_mem _ he)
    intro e he hk
    rcases List.mem_cons.mp he with he | he
    · subst he
      subst hk
      exact reached_lt_next hbc hr
    · exact ih hbs (hr.next hbc) e he hk

/-- The nonces of one key grow in lock order, above every chain nonce given so far. -/
theorem serve_pairwise {m : NonceManager} {cs : List NextCall} (hb : m.AllBelow cs) :
    (m.serve cs).Pairwise fun e e' => e.call.key = e'.call.key →
      e.nonce < e'.nonce ∧ e.call.blockchainNonce < e'.nonce := by
  induction cs generalizing m with
  | nil => exact .nil
  | cons c cs ih =>
    have hbc : m.Below c.key c.blockchainNonce := hb _ List.mem_cons_self
    have hbs : NonceManager.AllBelow _ cs := fun e he => hb e (List.mem_cons_of_mem _ he)
    apply List.Pairwise.cons
    · intro e he hk
      have hself : (m.next c.network c.accountId c.publicKey c.blockchainNonce).2.Reached c.key
          (m.next c.network c.accountId c.publicKey c.blockchainNonce).1 :=
        reached_next_self (UInt64.le_refl _)
      have hlt := lt_of_mem_serve hbs hself e he hk.symm
      exact ⟨hlt, UInt64.lt_trans (chain_lt_next hbc) hlt⟩
    · exact ih hbs

/-- Every call hands out more than its chain nonce and leaves the other keys alone. -/
theorem serve_step {m : NonceManager} {cs : List NextCall} (hb : m.AllBelow cs) :
    ∀ e ∈ m.serve cs, e.call.blockchainNonce < e.nonce ∧
      ∀ key, key ≠ e.call.key → e.after.nonces key = e.before.nonces key := by
  induction cs generalizing m with
  | nil => simp [serve]
  | cons c cs ih =>
    have hbs : NonceManager.AllBelow _ cs := fun e he => hb e (List.mem_cons_of_mem _ he)
    intro e he
    rcases List.mem_cons.mp he with rfl | he
    · exact ⟨chain_lt_next (hb _ List.mem_cons_self), fun _ hk => nonces_next_of_ne hk⟩
    · exact ih hbs e he

/-- For every initial state and every sequence of calls: the nonces of one key are
pairwise distinct and grow in lock order, each above the chain nonce of its own call and
of every earlier call for the key, and no call changes the entry of another key. -/
theorem allocations_fresh (m : NonceManager) (cs : List NextCall) (hb : m.AllBelow cs) :
    ((m.serve cs).Pairwise fun e e' => e.call.key = e'.call.key →
      e.nonce ≠ e'.nonce ∧ e.nonce < e'.nonce ∧ e.call.blockchainNonce < e'.nonce) ∧
    ∀ e ∈ m.serve cs, e.call.blockchainNonce < e.nonce ∧
      ∀ key, key ≠ e.call.key → e.after.nonces key = e.before.nonces key := by
  constructor
  · apply (serve_pairwise hb).imp
    intro e e' h hk
    have hlt := (h hk).1
    exact ⟨fun he => UInt64.lt_irrefl _ (he ▸ hlt), h hk⟩
  · exact serve_step hb

/-- A stale chain nonce, then one that has moved past the cache. -/
def sampleCalls : List NextCall :=
  [⟨"testnet", .alice, .sample 0, 10⟩, ⟨"testnet", .alice, .sample 0, 10⟩,
    ⟨"testnet", .bob, .sample 2, 20⟩, ⟨"testnet", .alice, .sample 0, 15⟩]

theorem allocations_fresh_sample :
    (new.serve sampleCalls).map Allocation.nonce = [11, 12, 21, 16] ∧
    (new.serve sampleCalls).Pairwise fun e e' => e.call.key = e'.call.key →
      e.nonce ≠ e'.nonce ∧ e.nonce < e'.nonce ∧ e.call.blockchainNonce < e'.nonce :=
  ⟨by decide, (allocations_fresh new sampleCalls
    (by decide : ∀ e ∈ new.serve sampleCalls, e.before.Below e.call.key e.call.blockchainNonce)).1⟩

end NonceManager
end NearKit
