import NearKit.ActionViews
import NearKit.KeyTexts
import NearKit.Pagination
import NearKit.TransactionOperations

/-!
# Views that are read in pages

`view_state_all` and `view_access_key_list` follow the cursors of the pages of a node. A
request is the parameters of one `query` call, and the answer its result. The loop of the
source has no bound; here it stops after so many pages.
-/
namespace NearKit
open Borsh Pagination

/-! ## Parameters of a query -/

inductive ParamValue where
  | text (value : String)
  | number (value : ℕ)
  deriving DecidableEq, Repr

/-- The JSON object with the parameters of a request. -/
abbrev Params := List (String × ParamValue)

namespace Params

def text (params : Params) (name : String) : Option String :=
  match params.lookup name with
  | some (.text value) => some value
  | _ => none

def number (params : Params) (name : String) : Option ℕ :=
  match params.lookup name with
  | some (.number value) => some value
  | _ => none

end Params

def Finality.asStr : Finality → String
  | optimistic => "optimistic"
  | nearFinal => "near-final"
  | final => "final"

inductive SyncCheckpoint where
  | genesis | earliestAvailable
  deriving DecidableEq, Repr

inductive BlockReference where
  | finality (finality : Finality)
  | height (height : UInt64)
  | hash (hash : CryptoHash)
  | syncCheckpoint (checkpoint : SyncCheckpoint)
  deriving DecidableEq

namespace BlockReference

def atHash (hash : CryptoHash) : BlockReference := .hash hash

def toRpcParams : BlockReference → Params
  | finality f => [("finality", .text f.asStr)]
  | height h => [("block_id", .number h.toNat)]
  | hash h => [("block_id", .text (Base58.encode h.val))]
  | syncCheckpoint .genesis => [("sync_checkpoint", .text "genesis")]
  | syncCheckpoint .earliestAvailable => [("sync_checkpoint", .text "earliest_available")]

end BlockReference

/-! ## Pages -/

structure StateItem where
  key : Bytes
  value : Bytes
  deriving DecidableEq

structure ViewStateResult where
  values : List StateItem
  lastKey : Option Bytes
  blockHeight : UInt64
  blockHash : CryptoHash
  deriving DecidableEq

structure ViewStateAllResult where
  values : List StateItem
  blockHeight : UInt64
  blockHash : CryptoHash
  deriving DecidableEq

structure AccessKeyInfoView where
  publicKey : PublicKeyHandle
  accessKey : AccessKeyDetails
  deriving DecidableEq

structure AccessKeyListView where
  keys : List AccessKeyInfoView
  lastKey : Option PublicKeyHandle
  blockHeight : UInt64
  blockHash : CryptoHash
  deriving DecidableEq

/-- A computation that makes `query` calls with results of one type. -/
abbrev Queries (R α : Type) := Process Params (fun _ => Except RpcError R) α

/-- How far a computation that reads page after page has come. -/
inductive Paging (α : Type) where
  | returned (result : Except RpcError α)
  /-- It still has a cursor to follow. -/
  | unfinished
  deriving DecidableEq

def Paging.map {α β : Type} (f : α → β) : Paging α → Paging β
  | returned result => returned (f <$> result)
  | unfinished => unfinished

section
variable {α β : Type} {f : α → β} {r : Paging α}

theorem Paging.exists_of_map_eq_ok {b : β} (h : r.map f = .returned (.ok b)) :
    ∃ a, r = .returned (.ok a) ∧ f a = b := by
  cases r with
  | returned result =>
    cases result with
    | error e => cases h
    | ok a =>
      cases h
      exact ⟨a, rfl, rfl⟩
  | unfinished => cases h

theorem Paging.exists_of_map_eq_returned {result : Except RpcError β} (h : r.map f = .returned result) :
    ∃ result', r = .returned result' := by
  cases r with
  | returned result' => exact ⟨result', rfl⟩
  | unfinished => cases h

@[simp] theorem Paging.map_eq_error {e : RpcError} :
    r.map f = .returned (.error e) ↔ r = .returned (.error e) := by
  cases r with
  | returned result => cases result <;> simp [Paging.map]
  | unfinished => simp [Paging.map]

@[simp] theorem Paging.map_eq_unfinished : r.map f = .unfinished ↔ r = .unfinished := by
  cases r <;> simp [Paging.map]

end

namespace RpcClient

def defaultViewStatePageSize : UInt32 := 10000

def defaultViewAccessKeysPageSize : UInt32 := 100

def viewStateParams (accountId : AccountId) (keyPrefix : Bytes) (afterKey : Option Bytes)
    (limit : Option UInt32) (block : BlockReference) : Params :=
  [("request_type", .text "view_state"), ("account_id", .text accountId.name),
    ("prefix_base64", .text (Base64.encode keyPrefix))] ++
  (afterKey.toList.map fun after => ("after_key_base64", .text (Base64.encode after))) ++
  ((limit.filter fun l => 0 < l).toList.map fun limit => ("limit", .number limit.toNat)) ++
  block.toRpcParams

def viewState (accountId : AccountId) (keyPrefix : Bytes) (afterKey : Option Bytes)
    (limit : Option UInt32) (block : BlockReference) :
    Queries ViewStateResult (Except RpcError ViewStateResult) :=
  .ask (viewStateParams accountId keyPrefix afterKey limit block) .done

abbrev NonZeroU32 := { n : UInt32 // 0 < n }

def viewAccessKeyListParams (accountId : AccountId) (afterKey : Option PublicKeyHandle)
    (limit : Option NonZeroU32) (block : BlockReference) : Params :=
  [("request_type", .text "view_access_key_list"), ("account_id", .text accountId.name)] ++
  (afterKey.toList.map fun after => ("after_key", .text after.display)) ++
  (limit.toList.map fun limit => ("limit", .number limit.val.toNat)) ++
  block.toRpcParams

def viewAccessKeyListPage (accountId : AccountId) (afterKey : Option PublicKeyHandle)
    (limit : Option NonZeroU32) (block : BlockReference) :
    Queries AccessKeyListView (Except RpcError AccessKeyListView) :=
  .ask (viewAccessKeyListParams accountId afterKey limit block) .done

/-! ## Reading all pages -/

section
variable {R ε γ : Type}

/-- `while let Some(cursor) = …`, for at most `fuel` pages: what has been read is extended
by each page, whose cursor is the next. -/
def followCursor (fetch : γ → Queries R (Except RpcError R)) (items : R → List ε)
    (lastKey : R → Option γ) : ℕ → List ε → Option γ → Queries R (Paging (List ε))
  | _, seen, none => .done (.returned (.ok seen))
  | 0, _, some _ => .done .unfinished
  | fuel + 1, seen, some cursor => (fetch cursor).bind fun
    | .error e => .done (.returned (.error e))
    | .ok page => followCursor fetch items lastKey fuel (seen ++ items page) (lastKey page)

/-- The first page is read at the block, and every later one at the hash that the first
reports. The result is the first page and all entries. -/
def readAll (fetch : Option γ → BlockReference → Queries R (Except RpcError R))
    (items : R → List ε) (lastKey : R → Option γ) (blockHash : R → CryptoHash) (fuel : ℕ)
    (block : BlockReference) : Queries R (Paging (R × List ε)) :=
  (fetch none block).bind fun
  | .error e => .done (.returned (.error e))
  | .ok first =>
    let pinned := BlockReference.atHash (blockHash first)
    (followCursor (fun cursor => fetch (some cursor) pinned) items lastKey fuel (items first)
      (lastKey first)).map (Paging.map fun entries => (first, entries))

end

def viewStateLimit (pageSize : UInt32) : UInt32 :=
  if pageSize > 0 then pageSize else defaultViewStatePageSize

def viewStateAll (fuel : ℕ) (accountId : AccountId) (keyPrefix : Bytes) (pageSize : UInt32)
    (block : BlockReference) : Queries ViewStateResult (Paging ViewStateAllResult) :=
  (readAll (fun afterKey block =>
      viewState accountId keyPrefix afterKey (some (viewStateLimit pageSize)) block)
    ViewStateResult.values ViewStateResult.lastKey ViewStateResult.blockHash fuel block).map
  (Paging.map fun (first, values) => ⟨values, first.blockHeight, first.blockHash⟩)

def viewAccessKeyListLimit : NonZeroU32 := ⟨defaultViewAccessKeysPageSize, by decide⟩

def viewAccessKeyList (fuel : ℕ) (accountId : AccountId) (block : BlockReference) :
    Queries AccessKeyListView (Paging AccessKeyListView) :=
  (readAll (fun afterKey block =>
      viewAccessKeyListPage accountId afterKey (some viewAccessKeyListLimit) block)
    AccessKeyListView.keys AccessKeyListView.lastKey AccessKeyListView.blockHash fuel block).map
  (Paging.map fun (first, keys) => { first with keys := keys, lastKey := none })

end RpcClient
end NearKit
