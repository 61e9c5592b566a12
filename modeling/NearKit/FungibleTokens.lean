import NearKit.Errors
import NearKit.JsonDecoding
import NearKit.OnceCells
import NearKit.TokenAmounts

/-!
# The client of a fungible token

Its operations share two cells, for the metadata of the token and for the bounds of the
storage deposit. An amount carries the decimals and the symbol of the metadata, and amounts
are added only if these agree.
-/
namespace NearKit
open Borsh

/-! ## Arithmetic of amounts -/

namespace FtAmount

def sameToken (a b : FtAmount) : Bool := ¬ (a.decimals ≠ b.decimals ∨ a.symbol ≠ b.symbol)

/-- The amount of the same token with the result of a checked operation. -/
def withRaw (a : FtAmount) (raw : Option ℕ) : Option FtAmount :=
  raw.map fun raw => { a with raw := .ofNat 128 raw }

def checkedAdd (a b : FtAmount) : Option FtAmount :=
  if a.sameToken b then a.withRaw (Checked.add u128Bound a.raw.toNat b.raw.toNat) else none

def checkedSub (a b : FtAmount) : Option FtAmount :=
  if a.sameToken b then a.withRaw (Checked.sub a.raw.toNat b.raw.toNat) else none

def checkedMul (a : FtAmount) (multiplier : BitVec 128) : Option FtAmount :=
  a.withRaw (Checked.mul u128Bound a.raw.toNat multiplier.toNat)

def checkedDiv (a : FtAmount) (divisor : BitVec 128) : Option FtAmount :=
  if divisor = 0 then none else some { a with raw := a.raw / divisor }

def saturatingAdd (a b : FtAmount) : Option FtAmount :=
  if a.sameToken b then
    some { a with raw := .ofNat 128 (min (a.raw.toNat + b.raw.toNat) (u128Bound - 1)) }
  else none

def saturatingSub (a b : FtAmount) : Option FtAmount :=
  if a.sameToken b then some { a with raw := .ofNat 128 (a.raw.toNat - b.raw.toNat) } else none

variable {a b c : FtAmount}

theorem sameToken_iff : a.sameToken b = true ↔ a.decimals = b.decimals ∧ a.symbol = b.symbol := by
  simp [sameToken]

/-- The amount is one of the token, with this number. -/
def Is (a c : FtAmount) (n : ℕ) : Prop :=
  c.decimals = a.decimals ∧ c.symbol = a.symbol ∧ c.raw.toNat = n

theorem eq_ofNat_iff {n : ℕ} (h : n < 2 ^ 128) :
    { a with raw := .ofNat 128 n } = c ↔ a.Is c n := by
  constructor
  · rintro rfl
    exact ⟨rfl, rfl, Nat.mod_eq_of_lt h⟩
  · obtain ⟨raw, decimals, symbol⟩ := c
    rintro ⟨rfl, rfl, rfl⟩
    simp

theorem exists_below_iff {n : ℕ} :
    (∃ m, Checked.below u128Bound n = some m ∧ a.Is c m) ↔ a.Is c n := by
  constructor
  · rintro ⟨m, hm, hc⟩
    obtain ⟨-, rfl⟩ := Checked.below_eq_some.mp hm
    exact hc
  · intro hc
    exact ⟨n, Checked.below_of_lt (hc.2.2 ▸ c.raw.isLt), hc⟩

/-- Two amounts may be computed with, and only the numbers decide whether they can be. -/
structure Computable (a b : FtAmount) : Prop where
  checkedAdd : ∀ c, a.checkedAdd b = some c ↔ a.Is c (a.raw.toNat + b.raw.toNat)
  checkedSub : ∀ c, a.checkedSub b = some c ↔
    b.raw.toNat ≤ a.raw.toNat ∧ a.Is c (a.raw.toNat - b.raw.toNat)
  saturatingAdd : ∀ c, a.saturatingAdd b = some c ↔
    a.Is c (min (a.raw.toNat + b.raw.toNat) (2 ^ 128 - 1))
  saturatingSub : ∀ c, a.saturatingSub b = some c ↔ a.Is c (a.raw.toNat - b.raw.toNat)

theorem computable (h : a.sameToken b = true) : a.Computable b where
  checkedAdd c := by
    rw [FtAmount.checkedAdd, if_pos h, withRaw, Checked.add, Checked.below]
    by_cases hlt : a.raw.toNat + b.raw.toNat < u128Bound
    · rw [if_pos hlt, Option.map_some, Option.some_inj]
      exact eq_ofNat_iff hlt
    · rw [if_neg hlt]
      refine iff_of_false (by simp) ?_
      rintro ⟨-, -, hraw⟩
      rw [← hraw] at hlt
      exact hlt c.raw.isLt
  checkedSub c := by
    rw [FtAmount.checkedSub, if_pos h, withRaw, Checked.sub]
    have hlt : a.raw.toNat - b.raw.toNat < 2 ^ 128 := Nat.lt_of_le_of_lt (Nat.sub_le ..) a.raw.isLt
    by_cases hle : b.raw.toNat ≤ a.raw.toNat
    · rw [if_pos hle, Option.map_some, Option.some_inj, eq_ofNat_iff hlt, and_iff_right hle]
    · rw [if_neg hle]
      exact iff_of_false (by simp) fun hc => hle hc.1
  saturatingAdd c := by
    rw [FtAmount.saturatingAdd, if_pos h, Option.some_inj]
    apply eq_ofNat_iff
    simp only [u128Bound]
    omega
  saturatingSub c := by
    rw [FtAmount.saturatingSub, if_pos h, Option.some_inj]
    apply eq_ofNat_iff
    have hlt := a.raw.isLt
    omega

/-! ### Folds -/

private theorem Is.sameToken {n : ℕ} (h : a.Is b n) : b.sameToken c = a.sameToken c := by
  unfold FtAmount.sameToken
  rw [h.1, h.2.1]

private theorem Is.of_is {n m : ℕ} (h : a.Is b n) : b.Is c m ↔ a.Is c m := by
  unfold Is
  rw [h.1, h.2.1]

/-- An operation on amounts of one token that computes this on their numbers. -/
structure Computes (op : FtAmount → FtAmount → Option FtAmount) (step : ℕ → ℕ → Option ℕ) :
    Prop where
  eq_some : ∀ a b c, op a b = some c ↔
    a.sameToken b = true ∧ ∃ n, step a.raw.toNat b.raw.toNat = some n ∧ a.Is c n
  bounded : ∀ n m k, step n m = some k → n < 2 ^ 128 → k < 2 ^ 128

theorem Computes.foldlM {op : FtAmount → FtAmount → Option FtAmount} {step : ℕ → ℕ → Option ℕ}
    (h : Computes op step) (a : FtAmount) (xs : List FtAmount) :
    xs.foldlM op a = some c ↔ (∀ x ∈ xs, a.sameToken x = true) ∧
      ∃ n, (xs.map fun x => x.raw.toNat).foldlM step a.raw.toNat = some n ∧ a.Is c n := by
  induction xs generalizing a with
  | nil =>
    simp only [List.foldlM_nil, List.map_nil, List.not_mem_nil, false_imp_iff, implies_true, true_and]
    constructor
    · rintro ⟨⟩
      exact ⟨_, rfl, rfl, rfl, rfl⟩
    · obtain ⟨raw, decimals, symbol⟩ := c
      rintro ⟨_, ⟨⟩, rfl, rfl, hraw⟩
      obtain rfl := BitVec.eq_of_toNat_eq hraw
      rfl
  | cons x xs ih =>
    simp only [List.foldlM_cons, List.map_cons, Option.bind_eq_bind, Option.bind_eq_some_iff,
      List.forall_mem_cons]
    constructor
    · rintro ⟨d, hd, hc⟩
      obtain ⟨hx, n, hn, hdn⟩ := (h.eq_some a x d).mp hd
      obtain ⟨hxs, m, hm, hcm⟩ := (ih d).mp hc
      rw [hdn.2.2] at hm
      exact ⟨⟨hx, fun y hy => hdn.sameToken ▸ hxs y hy⟩, m, ⟨n, hn, hm⟩, hdn.of_is.mp hcm⟩
    · rintro ⟨⟨hx, hxs⟩, m, ⟨n, hn, hm⟩, hcm⟩
      have hdn : a.Is { a with raw := .ofNat 128 n } n :=
        (eq_ofNat_iff (h.bounded _ _ _ hn a.raw.isLt)).mp rfl
      refine ⟨_, (h.eq_some a x _).mpr ⟨hx, n, hn, hdn⟩, (ih _).mpr ⟨?_, m, ?_, hdn.of_is.mpr hcm⟩⟩
      · exact fun y hy => hdn.sameToken.trans (hxs y hy)
      · rw [hdn.2.2]
        exact hm

private theorem checkedAdd_computes : Computes checkedAdd (Checked.add u128Bound) where
  eq_some a b c := by
    by_cases h : a.sameToken b = true
    · rw [(computable h).checkedAdd, and_iff_right h]
      exact exists_below_iff.symm
    · rw [checkedAdd, if_neg h]
      exact iff_of_false nofun fun hc => h hc.1
  bounded n m k h _ := by
    obtain ⟨hlt, rfl⟩ := Checked.below_eq_some.mp h
    exact hlt

private theorem checkedSub_computes : Computes checkedSub Checked.sub where
  eq_some a b c := by
    by_cases h : a.sameToken b = true
    · rw [(computable h).checkedSub, and_iff_right h]
      simp only [Checked.sub, Option.ite_none_right_eq_some, Option.some.injEq, and_assoc,
        exists_and_left, exists_eq_left']
    · rw [checkedSub, if_neg h]
      exact iff_of_false nofun fun hc => h hc.1
  bounded n m k h hn := by
    simp only [Checked.sub, Option.ite_none_right_eq_some, Option.some.injEq] at h
    omega

private theorem saturatingAdd_computes :
    Computes saturatingAdd (fun n m => some (min (n + m) (2 ^ 128 - 1))) where
  eq_some a b c := by
    by_cases h : a.sameToken b = true
    · rw [(computable h).saturatingAdd, and_iff_right h]
      simp
    · rw [saturatingAdd, if_neg h]
      exact iff_of_false nofun fun hc => h hc.1
  bounded n m k h hn := by
    simp only [Option.some.injEq] at h
    omega

private theorem foldlM_add (ns : List ℕ) {n : ℕ} (h : n < u128Bound) :
    ns.foldlM (Checked.add u128Bound) n = Checked.below u128Bound (n + ns.sum) := by
  induction ns generalizing n with
  | nil => exact (Checked.below_of_lt h).symm
  | cons m ns ih =>
    rw [List.foldlM_cons, List.sum_cons, ← Nat.add_assoc]
    by_cases hlt : n + m < u128Bound
    · rw [Checked.add_of_lt hlt]
      exact ih hlt
    · have hle : u128Bound ≤ n + m := Nat.not_lt.mp hlt
      rw [Checked.add, Checked.below_of_le hle, Checked.below_of_le (Nat.le_add_right_of_le hle)]
      rfl

private theorem foldlM_sub (ns : List ℕ) (n : ℕ) :
    ns.foldlM Checked.sub n = Checked.sub n ns.sum := by
  induction ns generalizing n with
  | nil => simp [Checked.sub]
  | cons m ns ih =>
    rw [List.foldlM_cons, List.sum_cons]
    by_cases hle : m ≤ n
    · rw [Checked.sub_of_le hle]
      refine (ih (n - m)).trans ?_
      simp only [Checked.sub]
      split <;> split
      · congr 1
        omega
      · omega
      · omega
      · rfl
    · simp only [Checked.sub, if_neg hle]
      rw [if_neg (by omega)]
      rfl

private theorem foldlM_saturating (ns : List ℕ) {n : ℕ} (h : n < 2 ^ 128) :
    ns.foldlM (fun n m => some (min (n + m) (2 ^ 128 - 1))) n =
      some (min (n + ns.sum) (2 ^ 128 - 1)) := by
  induction ns generalizing n with
  | nil =>
    rw [List.sum_nil, Nat.add_zero, Nat.min_eq_left (by omega)]
    rfl
  | cons m ns ih =>
    rw [List.foldlM_cons, List.sum_cons]
    refine (ih (by omega)).trans ?_
    congr 1
    omega

def total (xs : List FtAmount) : ℕ := (xs.map fun x => x.raw.toNat).sum

private theorem total_replicate (k : ℕ) : total (List.replicate k a) = k * a.raw.toNat := by
  simp [total]

private theorem foldlM_checkedAdd (a : FtAmount) (xs : List FtAmount) :
    xs.foldlM checkedAdd a = some c ↔
      (∀ x ∈ xs, a.sameToken x = true) ∧ a.Is c (a.raw.toNat + total xs) := by
  rw [checkedAdd_computes.foldlM, foldlM_add _ a.raw.isLt, exists_below_iff, total]

private theorem checkedMul_eq_some {multiplier : BitVec 128} :
    a.checkedMul multiplier = some c ↔ a.Is c (a.raw.toNat * multiplier.toNat) := by
  rw [← exists_below_iff, checkedMul, withRaw, Option.map_eq_some_iff]
  refine exists_congr fun n => and_congr_right fun hn => ?_
  obtain ⟨hlt, rfl⟩ := Checked.below_eq_some.mp hn
  exact eq_ofNat_iff hlt

/-- Whatever the order in which amounts are added or taken away: all have to be of one token,
the exact sum has to fit, and a saturating sum is the exact one cut off. A multiple is the sum
of as many copies. -/
theorem folds_exact (a : FtAmount) (xs : List FtAmount) (multiplier : BitVec 128) (c : FtAmount) :
    (xs.foldlM checkedAdd a = some c ↔
      (∀ x ∈ xs, a.sameToken x = true) ∧ a.Is c (a.raw.toNat + total xs)) ∧
    (xs.foldlM checkedSub a = some c ↔ (∀ x ∈ xs, a.sameToken x = true) ∧
      total xs ≤ a.raw.toNat ∧ a.Is c (a.raw.toNat - total xs)) ∧
    (xs.foldlM saturatingAdd a = some c ↔ (∀ x ∈ xs, a.sameToken x = true) ∧
      a.Is c (min (a.raw.toNat + total xs) (2 ^ 128 - 1))) ∧
    a.checkedMul multiplier =
      (List.replicate multiplier.toNat a).foldlM checkedAdd { a with raw := 0 } := by
  refine ⟨?_, ?_, ?_, ?_⟩
  · exact foldlM_checkedAdd a xs
  · rw [checkedSub_computes.foldlM, foldlM_sub]
    simp only [Checked.sub, Option.ite_none_right_eq_some, Option.some.injEq, and_assoc,
      exists_and_left, exists_eq_left', total]
  · rw [saturatingAdd_computes.foldlM, foldlM_saturating _ a.raw.isLt]
    simp only [Option.some.injEq, exists_eq_left', total]
  · apply Option.ext
    intro c
    rw [foldlM_checkedAdd, checkedMul_eq_some, total_replicate]
    refine (and_iff_right fun x hx => ?_).symm.trans (and_congr_right fun _ => ?_)
    · rw [List.eq_of_mem_replicate hx]
      exact sameToken_iff.mpr ⟨rfl, rfl⟩
    · simp [Is, Nat.mul_comm]

end FtAmount

/-! ## Contract data -/

/-- What the code asks of `serde_json` and of the crate of `NearToken`. -/
class TokenCrates where
  /-- `serde_json::from_slice`, up to the tree of values. -/
  fromSlice : Bytes → Except SerdeError Json
  nearToken : Json.Decoder NearToken

structure FtMetadata where
  spec : String
  name : String
  symbol : String
  decimals : UInt8
  icon : Option String
  reference : Option String
  referenceHash : Option String
  deriving DecidableEq

structure StorageBalanceBounds where
  min : NearToken
  max : Option NearToken
  deriving DecidableEq

structure StorageBalance where
  total : NearToken
  available : NearToken
  deriving DecidableEq

namespace Json

def u8 : Decoder UInt8
  | number (.posInt n) => if n.toNat < 2 ^ 8 then .ok n.toUInt8 else .error .invalidType
  | _ => .error .invalidType

def ftMetadata : Decoder FtMetadata := fun json => do
  let fields ← structFields
    ["spec", "name", "symbol", "decimals", "icon", "reference", "reference_hash"] 7 json
  let spec ← required fields "spec" asString
  let name ← required fields "name" asString
  let symbol ← required fields "symbol" asString
  let decimals ← required fields "decimals" u8
  let icon ← optional fields "icon" asString
  let reference ← optional fields "reference" asString
  let referenceHash ← optional fields "reference_hash" asString
  return ⟨spec, name, symbol, decimals, icon, reference, referenceHash⟩

variable [TokenCrates]

def storageBalanceBounds : Decoder StorageBalanceBounds := fun json => do
  let fields ← structFields ["min", "max"] 2 json
  let min ← required fields "min" TokenCrates.nearToken
  let max ← optional fields "max" TokenCrates.nearToken
  return ⟨min, max⟩

def storageBalance : Decoder StorageBalance := fun json => do
  let fields ← structFields ["total", "available"] 2 json
  let total ← required fields "total" TokenCrates.nearToken
  let available ← required fields "available" TokenCrates.nearToken
  return ⟨total, available⟩

end Json

/-- `ViewFunctionResult::json`: no bytes stand for `null`. -/
def viewFunctionJson [TokenCrates] {α : Type} (decode : Json.Decoder α) (result : Bytes) :
    Except SerdeError α := do
  let json ← TokenCrates.fromSlice (if result.isEmpty then "null".toUTF8.toList else result)
  decode json

/-! ## The operations -/

/-- The errors of the client, and a future that is dropped while it fetches. -/
inductive TokenError where
  | client (error : Error)
  | json (error : SerdeError)
  | dropped
  deriving DecidableEq

inductive FtCell where
  | metadata | storageBounds
  deriving DecidableEq

abbrev FtCell.Value : FtCell → Type
  | metadata => FtMetadata
  | storageBounds => StorageBalanceBounds

/-- The views that fill no cell. -/
inductive FtView where
  | balanceOf (accountId : AccountId)
  | totalSupply
  | storageBalanceOf (accountId : AccountId)
  deriving DecidableEq

/-- The `result` of `RpcClient::view_function`. -/
abbrev ViewAnswer := Except RpcError Bytes

abbrev FtRequest := CellRequest FtCell FtCell.Value FtView

/-- A fetch is answered `none` if its caller drops the future. -/
abbrev FtAnswer : FtRequest → Type :=
  CellAnswer FtCell.Value (fun _ => ViewAnswer) (fun _ => Option ViewAnswer)

abbrev FtProcess (α : Type) := Process FtRequest FtAnswer (Except TokenError α)

variable [TokenCrates]

/-- What is made of the answer to a view. -/
def viewJson {α : Type} (decode : Json.Decoder α) : ViewAnswer → Except TokenError α
  | .error e => .error (.client (.fromRpc e))
  | .ok result => (viewFunctionJson decode result).mapError .json

namespace FtCell

def decode : (c : FtCell) → Json.Decoder c.Value
  | metadata => Json.ftMetadata
  | storageBounds => Json.storageBalanceBounds

def parse (c : FtCell) : Option ViewAnswer → Except TokenError c.Value
  | none => .error .dropped
  | some answer => viewJson c.decode answer

def get (c : FtCell) : FtProcess c.Value := getOrTryInit parse c

end FtCell

def rawAmount (what : String) (answer : ViewAnswer) : Except TokenError (BitVec 128) :=
  match viewJson Json.asString answer with
  | .error e => .error e
  | .ok text =>
    match Numeral.fromStr u128Bound text.toList with
    | none => .error (.client (.rpc (.invalidResponse s!"Invalid {what} format: {text}")))
    | some raw => .ok (.ofNat 128 raw)

def FtAmount.fromMetadata (raw : BitVec 128) (metadata : FtMetadata) : FtAmount :=
  ⟨raw, metadata.decimals, metadata.symbol⟩

namespace FungibleToken

def metadata : FtProcess FtMetadata := FtCell.metadata.get

def storageBalanceBounds : FtProcess StorageBalanceBounds := FtCell.storageBounds.get

/-- `balance_of` and `total_supply`: the metadata, and then the view. -/
def amount (view : FtView) (what : String) : FtProcess FtAmount :=
  metadata.bind fun
  | .error e => .done (.error e)
  | .ok metadata =>
    .ask (.call view) fun answer =>
    .done ((rawAmount what answer).map fun raw => .fromMetadata raw metadata)

def balanceOf (accountId : AccountId) : FtProcess FtAmount := amount (.balanceOf accountId) "balance"

def totalSupply : FtProcess FtAmount := amount .totalSupply "supply"

def storageBalanceOf (accountId : AccountId) : FtProcess (Option StorageBalance) :=
  .ask (.call (.storageBalanceOf accountId)) fun answer =>
  .done (viewJson (Json.option Json.storageBalance) answer)

def isRegistered (accountId : AccountId) : FtProcess Bool :=
  (storageBalanceOf accountId).map (Except.map Option.isSome)

end FungibleToken

inductive FtOperation where
  | metadata
  | storageBalanceBounds
  | balanceOf (accountId : AccountId)
  | totalSupply
  | storageBalanceOf (accountId : AccountId)
  | isRegistered (accountId : AccountId)
  deriving DecidableEq

inductive FtResult where
  | metadata (result : Except TokenError FtMetadata)
  | bounds (result : Except TokenError StorageBalanceBounds)
  | amount (result : Except TokenError FtAmount)
  | balance (result : Except TokenError (Option StorageBalance))
  | registered (result : Except TokenError Bool)

def FtResult.error : FtResult → Option TokenError
  | metadata (.error e) => some e
  | bounds (.error e) => some e
  | amount (.error e) => some e
  | balance (.error e) => some e
  | registered (.error e) => some e
  | _ => none

def FtOperation.process : FtOperation → Process FtRequest FtAnswer FtResult
  | metadata => FungibleToken.metadata.map .metadata
  | storageBalanceBounds => FungibleToken.storageBalanceBounds.map .bounds
  | balanceOf accountId => (FungibleToken.balanceOf accountId).map .amount
  | totalSupply => FungibleToken.totalSupply.map .amount
  | storageBalanceOf accountId => (FungibleToken.storageBalanceOf accountId).map .balance
  | isRegistered accountId => (FungibleToken.isRegistered accountId).map .registered

/-! ## What an operation relies on -/

def Failure (e : TokenError) : Exchange FtRequest FtAnswer → Prop
  | ⟨.fetch c, answer⟩ => FtCell.parse c answer = .error e
  | ⟨.call (.balanceOf _), answer⟩ => rawAmount "balance" answer = .error e
  | ⟨.call .totalSupply, answer⟩ => rawAmount "supply" answer = .error e
  | ⟨.call (.storageBalanceOf _), answer⟩ =>
    viewJson (Json.option Json.storageBalance) answer = .error e
  | _ => False

/-- The operation has found the value in the cell, or has put it there. -/
def Seen (xs : List (Exchange FtRequest FtAnswer)) (c : FtCell) (v : c.Value) : Prop :=
  ⟨.enter c, some v⟩ ∈ xs ∨ ⟨.set c v, ()⟩ ∈ xs

/-- The view that an operation reads an amount from. -/
def FtOperation.amountView : FtOperation → Option FtView
  | balanceOf accountId => some (.balanceOf accountId)
  | totalSupply => some .totalSupply
  | _ => none

/-- An amount of the token's metadata, with the number that the node has answered. -/
def AmountOf (view : FtView) (xs : List (Exchange FtRequest FtAnswer)) (amount : FtAmount) : Prop :=
  ∃ metadata what answer, Seen xs .metadata metadata ∧ ⟨.call view, answer⟩ ∈ xs ∧
    rawAmount what answer = .ok amount.raw ∧ amount = .fromMetadata amount.raw metadata

/-- A result is what the operation has seen, or one of its own views has failed. -/
structure Explained {α : Type} (shows : List (Exchange FtRequest FtAnswer) → α → Prop)
    (xs : List (Exchange FtRequest FtAnswer)) (r : Except TokenError α) : Prop where
  ok : ∀ a, r = .ok a → shows xs a
  error : ∀ e, r = .error e → ∃ x ∈ xs, Failure e x

def FtResult.Explained (operation : FtOperation) (xs : List (Exchange FtRequest FtAnswer)) :
    FtResult → Prop
  | .metadata r => NearKit.Explained (fun xs => Seen xs .metadata) xs r
  | .bounds r => NearKit.Explained (fun xs => Seen xs .storageBounds) xs r
  | .amount r => NearKit.Explained
    (fun xs amount => ∃ view, operation.amountView = some view ∧ AmountOf view xs amount) xs r
  | .balance r => NearKit.Explained (fun _ _ => True) xs r
  | .registered r => NearKit.Explained (fun _ _ => True) xs r

/-- Everything is allowed and recorded. -/
abbrev ftRecording : Monitor FtRequest FtAnswer (List (Exchange FtRequest FtAnswer)) :=
  .recording fun _ _ => True

theorem FtCell.get_explained (c : FtCell) (xs : List (Exchange FtRequest FtAnswer)) :
    c.get.Obeys ftRecording (Explained fun xs v => Seen xs c v) xs := by
  refine ⟨trivial, fun entered => ?_⟩
  cases entered with
  | some value =>
    refine ⟨?_, nofun⟩
    rintro _ ⟨⟩
    exact .inl List.mem_cons_self
  | none =>
    refine ⟨trivial, fun answer => ?_⟩
    simp only
    cases hparse : FtCell.parse c answer with
    | error e =>
      refine ⟨trivial, fun _ => ⟨nofun, ?_⟩⟩
      rintro _ ⟨⟩
      exact ⟨⟨.fetch c, answer⟩, List.mem_cons_of_mem _ List.mem_cons_self, hparse⟩
    | ok value =>
      refine ⟨trivial, fun _ => ⟨?_, nofun⟩⟩
      rintro _ ⟨⟩
      exact .inr List.mem_cons_self

namespace FungibleToken

private theorem amount_explained {view : FtView} {what : String}
    (hview : ∀ e answer, rawAmount what answer = .error e → Failure e ⟨.call view, answer⟩) :
    (amount view what).Obeys ftRecording (Explained (AmountOf view)) [] := by
  apply (FtCell.metadata.get_explained []).bind
  intro xs r hr
  cases r with
  | error e =>
    refine ⟨nofun, ?_⟩
    rintro _ ⟨⟩
    exact hr.error e rfl
  | ok metadata =>
    refine ⟨trivial, fun answer => ?_⟩
    show Explained (AmountOf view) (⟨.call view, answer⟩ :: xs)
      ((rawAmount what answer).map fun raw => .fromMetadata raw metadata)
    cases hraw : rawAmount what answer with
    | error e =>
      refine ⟨nofun, ?_⟩
      rintro _ ⟨⟩
      exact ⟨_, List.mem_cons_self, hview e answer hraw⟩
    | ok raw =>
      refine ⟨?_, nofun⟩
      rintro _ ⟨⟩
      refine ⟨metadata, what, answer, ?_, List.mem_cons_self, hraw, rfl⟩
      exact (hr.ok metadata rfl).imp (List.mem_cons_of_mem _) (List.mem_cons_of_mem _)

private theorem storageBalanceOf_explained (accountId : AccountId) :
    (storageBalanceOf accountId).Obeys ftRecording (Explained fun _ _ => True) [] := by
  refine ⟨trivial, fun answer => ⟨fun _ _ => trivial, fun e he => ?_⟩⟩
  exact ⟨_, List.mem_cons_self, he⟩

end FungibleToken

private theorem FtOperation.process_explained (operation : FtOperation) :
    operation.process.Obeys ftRecording (FtResult.Explained operation) [] := by
  cases operation with
  | metadata =>
    apply Process.Obeys.map
    exact FtCell.metadata.get_explained []
  | storageBalanceBounds =>
    apply Process.Obeys.map
    exact FtCell.storageBounds.get_explained []
  | balanceOf accountId =>
    have hview : ∀ e answer, rawAmount "balance" answer = .error e →
        Failure e ⟨.call (.balanceOf accountId), answer⟩ := fun _ _ h => h
    apply Process.Obeys.map
    apply (FungibleToken.amount_explained hview).imp
    exact fun xs r h => ⟨fun a ha => ⟨_, rfl, h.ok a ha⟩, h.error⟩
  | totalSupply =>
    have hview : ∀ e answer, rawAmount "supply" answer = .error e →
        Failure e ⟨.call .totalSupply, answer⟩ := fun _ _ h => h
    apply Process.Obeys.map
    apply (FungibleToken.amount_explained hview).imp
    exact fun xs r h => ⟨fun a ha => ⟨_, rfl, h.ok a ha⟩, h.error⟩
  | storageBalanceOf accountId =>
    apply Process.Obeys.map
    exact FungibleToken.storageBalanceOf_explained accountId
  | isRegistered accountId =>
    apply Process.Obeys.map
    apply Process.Obeys.map
    apply (FungibleToken.storageBalanceOf_explained accountId).imp
    intro xs r h
    refine ⟨fun _ _ => trivial, fun e he => h.error e ?_⟩
    cases r with
    | error e' =>
      cases he
      rfl
    | ok balance => cases he

/-- The cells are used as `get_or_try_init` uses them. -/
theorem FtOperation.process_obeys (operation : FtOperation) :
    operation.process.Obeys (cellMonitor _ FtCell.parse) (fun _ _ => True) .idle := by
  have hview : ∀ view what, (FungibleToken.amount view what).Obeys (cellMonitor _ FtCell.parse)
      (fun _ _ => True) .idle := by
    intro view what
    apply (getOrTryInit_obeys FtCell.parse .metadata).bind
    rintro phase r rfl
    cases r with
    | error e => trivial
    | ok metadata => exact ⟨.call view, fun _ => trivial⟩
  cases operation with
  | metadata => exact ((getOrTryInit_obeys FtCell.parse .metadata).imp fun _ _ _ => trivial).map
  | storageBalanceBounds =>
    exact ((getOrTryInit_obeys FtCell.parse .storageBounds).imp fun _ _ _ => trivial).map
  | balanceOf accountId => exact (hview _ _).map
  | totalSupply => exact (hview _ _).map
  | storageBalanceOf accountId => exact ⟨.call _, fun _ => trivial⟩
  | isRegistered accountId => exact ⟨.call _, fun _ => trivial⟩

/-! ## One client -/

/-- The cells of `tokio` within a state that may have more to it. The node answers what it
likes. -/
structure FtClient (ι σ : Type) where
  cells : σ → (c : FtCell) → CellState ι c.Value
  step : ι → σ → (q : FtRequest) → FtAnswer q → σ → Prop
  documented : ∀ i s q a s', step i s q a s' → CellStep i (cells s) q a (cells s')

section
variable {ι σ : Type} [DecidableEq ι] {client : FtClient ι σ} {operations : ι → FtOperation}
variable {s₀ s : σ} {es : List (Occurrence ι σ FtRequest FtAnswer FtResult)}
variable {ps : ι → Option (Process FtRequest FtAnswer FtResult)}

omit [TokenCrates] [DecidableEq ι] in
private theorem Seen.mono {xs ys : List (Exchange FtRequest FtAnswer)} {c : FtCell} {v : c.Value}
    (h : Seen xs c v) (hxs : xs ⊆ ys) : Seen ys c v :=
  h.imp (fun hmem => hxs hmem) fun hmem => hxs hmem

private theorem Seen.fetched (hset : SetOnce FtCell.parse es) {i : ι} {c : FtCell} {v : c.Value}
    (h : Seen (exchangesOf i es) c v) : Fetched FtCell.parse es c v := by
  rcases h with hmem | hmem
  · obtain ⟨t, hasked⟩ := exists_asked_of_mem_exchangesOf hmem
    exact hset.origin i t c v (.inl hasked)
  · obtain ⟨t, hasked⟩ := exists_asked_of_mem_exchangesOf hmem
    exact hset.origin i t c v (.inr hasked)

private theorem FtResult.Explained.error {operation : FtOperation}
    {xs : List (Exchange FtRequest FtAnswer)} {r : FtResult} {e : TokenError}
    (h : r.Explained operation xs) (he : r.error = some e) : ∃ x ∈ xs, Failure e x := by
  cases r with
  | metadata r | bounds r | amount r | balance r | registered r =>
    cases r with
    | ok a => cases he
    | error e' =>
      cases he
      exact NearKit.Explained.error h e rfl

/-- Any number of operations of one client, in every interleaving. The metadata and the bounds
are not fetched again after a fetch that has succeeded. All amounts have the decimals and the
symbol of the one metadata that was fetched, each with the number of an answer to its own
operation, and any two of them may be computed with. An error is one that the operation itself
has met. -/
theorem FungibleToken.amounts_agree (hempty : ∀ c, client.cells s₀ c = .empty)
    (run : Interleaving client.step (fun i => (operations i).process) s₀ es s ps) :
    SetOnce FtCell.parse es ∧
    (∀ i amount, .returned i (.amount (.ok amount)) ∈ es →
      ∃ metadata view what answer, Fetched FtCell.parse es .metadata metadata ∧
        (operations i).amountView = some view ∧ ⟨.call view, answer⟩ ∈ exchangesOf i es ∧
        rawAmount what answer = .ok amount.raw ∧ amount = .fromMetadata amount.raw metadata) ∧
    (∀ i j a b, .returned i (.amount (.ok a)) ∈ es → .returned j (.amount (.ok b)) ∈ es →
      a.Computable b) ∧
    (∀ i r e, .returned i r ∈ es → r.error = some e → ∃ x ∈ exchangesOf i es, Failure e x) := by
  have hset := run.setOnce client.cells client.documented
    (fun i => (operations i).process_obeys) hempty
  have hrecorded := fun i => (run.recorded (operations i).process_explained).2
  have hamount : ∀ i amount, .returned i (.amount (.ok amount)) ∈ es →
      ∃ metadata view what answer, Fetched FtCell.parse es .metadata metadata ∧
        (operations i).amountView = some view ∧ ⟨.call view, answer⟩ ∈ exchangesOf i es ∧
        rawAmount what answer = .ok amount.raw ∧ amount = .fromMetadata amount.raw metadata := by
    intro i amount hreturned
    obtain ⟨xs, hxs, hexplained⟩ := hrecorded i _ hreturned
    obtain ⟨view, hview, metadata, what, answer, hseen, hcall, hraw, hamount⟩ :=
      NearKit.Explained.ok hexplained amount rfl
    exact ⟨metadata, view, what, answer, (hseen.mono hxs).fetched hset, hview, hxs hcall, hraw,
      hamount⟩
  refine ⟨hset, hamount, ?_, ?_⟩
  · intro i j a b ha hb
    obtain ⟨metadata, -, -, -, hfetched, -, -, -, ha⟩ := hamount i a ha
    obtain ⟨metadata', -, -, -, hfetched', -, -, -, hb⟩ := hamount j b hb
    obtain rfl := hset.unique .metadata metadata metadata' hfetched hfetched'
    apply FtAmount.computable
    rw [FtAmount.sameToken_iff, ha, hb]
    exact ⟨rfl, rfl⟩
  · intro i r e hreturned he
    obtain ⟨xs, hxs, hexplained⟩ := hrecorded i r hreturned
    obtain ⟨x, hx, hfailure⟩ := FtResult.Explained.error hexplained he
    exact ⟨x, hxs hx, hfailure⟩

end

/-! ## A sample run -/

section
omit [TokenCrates]

def FtMetadata.sample : FtMetadata := ⟨"ft-1.0.0", "USDC", "USDC", 6, none, none, none⟩

/-- The metadata as its contract writes them. -/
def ftMetadataText : Bytes :=
  [123, 34, 115, 112, 101, 99, 34, 58, 34, 102, 116, 45, 49, 46, 48, 46, 48, 34, 44, 34, 110, 97, 109,
    101, 34, 58, 34, 85, 83, 68, 67, 34, 44, 34, 115, 121, 109, 98, 111, 108, 34, 58, 34, 85, 83, 68,
    67, 34, 44, 34, 100, 101, 99, 105, 109, 97, 108, 115, 34, 58, 54, 125]

def ftAmountText : Bytes := [34, 49, 53, 48, 48, 48, 48, 48, 34]

/-- Answers right for the two texts. -/
@[reducible] def TokenCrates.sample : TokenCrates where
  fromSlice bytes :=
    if bytes = ftMetadataText then
      .ok (.object [("spec", .string "ft-1.0.0"), ("name", .string "USDC"),
        ("symbol", .string "USDC"), ("decimals", .number (.posInt 6))])
    else if bytes = ftAmountText then .ok (.string "1500000")
    else .error .invalidType
  nearToken _ := .error .invalidType

@[reducible] def FtClient.sample : FtClient Bool ((c : FtCell) → CellState Bool c.Value) where
  cells cells := cells
  step := CellStep
  documented _ _ _ _ _ h := h

def ftSampleOperations : Bool → FtOperation
  | true => .totalSupply
  | false => .balanceOf .alice

/-- The second operation finds the metadata that the first has fetched. -/
theorem FungibleToken.amounts_agree_sample : ∃ es s ps,
    Interleaving FtClient.sample.step
      (fun i => @FtOperation.process TokenCrates.sample (ftSampleOperations i)) (fun _ => .empty)
      es s ps ∧
    (FtAmount.mk 1500000 6 "USDC").Computable (FtAmount.mk 1500000 6 "USDC") := by
  let _ := TokenCrates.sample
  let empty : (c : FtCell) → CellState Bool c.Value := fun _ => .empty
  let held := Function.update empty .metadata (.held true)
  let full := Function.update held .metadata (.full .sample)
  have hparse : FtCell.parse .metadata (some (.ok ftMetadataText)) = .ok .sample := rfl
  have hsupply : rawAmount "supply" (.ok ftAmountText) = .ok 1500000 := by decide
  have hbalance : rawAmount "balance" (.ok ftAmountText) = .ok 1500000 := by decide
  have run₀ : Interleaving FtClient.sample.step (fun i => (ftSampleOperations i).process)
      empty [] empty fun i => some (ftSampleOperations i).process := .init
  obtain ⟨ps₁, run₁, hps₁, hne₁⟩ := run₀.ask (i := true) rfl rfl (none : Option FtMetadata)
    (t := held) ⟨rfl, rfl⟩
  obtain ⟨ps₂, run₂, hps₂, hne₂⟩ := run₁.ask hps₁ rfl
    (some (Except.ok ftMetadataText) : Option ViewAnswer) (t := held) rfl
  simp only [hparse] at hps₂
  obtain ⟨ps₃, run₃, hps₃, hne₃⟩ := run₂.ask hps₂ rfl () (t := full) fun _ => rfl
  obtain ⟨ps₄, run₄, hps₄, hne₄⟩ := run₃.ask hps₃ rfl (Except.ok ftAmountText : ViewAnswer)
    (t := full) rfl
  simp only [hsupply] at hps₄
  have run₅ := Interleaving.returned run₄ hps₄
  have hother : Function.update ps₄ true none false = some (ftSampleOperations false).process := by
    rw [Function.update_of_ne Bool.false_ne_true, hne₄ _ Bool.false_ne_true,
      hne₃ _ Bool.false_ne_true, hne₂ _ Bool.false_ne_true, hne₁ _ Bool.false_ne_true]
  obtain ⟨ps₆, run₆, hps₆, -⟩ := run₅.ask hother rfl (some FtMetadata.sample : Option FtMetadata)
    (t := full) ⟨rfl, rfl⟩
  obtain ⟨ps₇, run₇, hps₇, -⟩ := run₆.ask hps₆ rfl (Except.ok ftAmountText : ViewAnswer)
    (t := full) rfl
  simp only [hbalance] at hps₇
  have run₈ := Interleaving.returned run₇ hps₇
  obtain ⟨-, -, hcomputable, -⟩ := amounts_agree (fun _ => rfl) run₈
  refine ⟨_, _, _, run₈, hcomputable true false _ _ ?_ List.mem_cons_self⟩
  iterate 3 apply List.mem_cons_of_mem
  exact List.mem_cons_self

end

end NearKit
