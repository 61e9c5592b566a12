import NearKit.PagedReads
import NearKit.RpcCalls

/-!
# Methods of the RPC client

Each typed method writes its arguments into the parameters of a JSON-RPC request. A node that
looks parameters up by their names reads the same arguments, and so what the retry loop
returns is an answer to the call that was made.
-/
namespace NearKit
open Borsh

/-! ## Calls and requests -/

inductive TypedCall where
  | viewAccount (accountId : AccountId) (block : BlockReference)
  | viewAccessKey (accountId : AccountId) (publicKey : PublicKey) (block : BlockReference)
  | viewAccessKeyListPage (accountId : AccountId) (afterKey : Option PublicKeyHandle)
      (limit : Option RpcClient.NonZeroU32) (block : BlockReference)
  | viewGasKeyNonces (accountId : AccountId) (publicKey : PublicKey) (block : BlockReference)
  | viewFunction (accountId : AccountId) (methodName : String) (args : Bytes) (block : BlockReference)
  | viewCode (accountId : AccountId) (block : BlockReference)
  | viewGlobalContractCode (id : GlobalContractId) (block : BlockReference)
  | viewState (accountId : AccountId) (keyPrefix : Bytes) (afterKey : Option Bytes)
      (limit : Option UInt32) (block : BlockReference)
  | block (block : BlockReference)
  | blockEffects (block : BlockReference)
  | genesisConfig
  | maintenanceWindows (accountId : AccountId)
  | status
  | gasPrice (blockHash : Option CryptoHash)
  | validators (block : Option BlockReference)
  | sendTx (signedTx : SignedTransaction) (waitUntil : TxExecutionStatus)
  | txStatus (txHash : CryptoHash) (senderId : AccountId) (waitUntil : TxExecutionStatus)
  | receiptToTx (receiptId : CryptoHash)
  deriving DecidableEq

/-- Parameters by name, or in order; `none` is `null`. -/
inductive CallParams where
  | named (params : Params)
  | ordered (items : List (Option ParamValue))
  deriving DecidableEq

/-- The method of a JSON-RPC request, and its parameters. -/
structure CallBody where
  method : String
  params : CallParams
  deriving DecidableEq

namespace TxExecutionStatus

def asStr : TxExecutionStatus → String
  | none => "NONE"
  | included => "INCLUDED"
  | executedOptimistic => "EXECUTED_OPTIMISTIC"
  | includedFinal => "INCLUDED_FINAL"
  | executed => "EXECUTED"
  | final => "FINAL"

private theorem asStr_injective : Function.Injective asStr := by
  intro s t h
  cases s <;> cases t <;> first | rfl | exact absurd h (by decide)

end TxExecutionStatus

def blockIdOrNull : Option BlockReference → Option ParamValue
  | some (.height h) => some (.number h.toNat)
  | some (.hash h) => some (.text (CryptoHash.display h))
  | _ => none

namespace TypedCall

def query (requestType : String) (params : Params) : CallBody :=
  ⟨"query", .named (("request_type", .text requestType) :: params)⟩

variable [Crates]

/-- What each method hands to `call`. `none` is the panic of `to_base64`. -/
def body : TypedCall → Option CallBody
  | viewAccount accountId ref => some ⟨"EXPERIMENTAL_view_account",
      .named ([("account_id", .text accountId.name)] ++ ref.toRpcParams)⟩
  | viewAccessKey accountId publicKey ref => some ⟨"EXPERIMENTAL_view_access_key",
      .named ([("account_id", .text accountId.name), ("public_key", .text publicKey.display)] ++
        ref.toRpcParams)⟩
  | viewAccessKeyListPage accountId afterKey limit ref => some ⟨"query",
      .named (RpcClient.viewAccessKeyListParams accountId afterKey limit ref)⟩
  | viewGasKeyNonces accountId publicKey ref => some (query "view_gas_key_nonces"
      ([("account_id", .text accountId.name), ("public_key", .text publicKey.display)] ++
        ref.toRpcParams))
  | viewFunction accountId methodName args ref => some ⟨"EXPERIMENTAL_call_function",
      .named ([("account_id", .text accountId.name), ("method_name", .text methodName),
        ("args_base64", .text (Base64.encode args))] ++ ref.toRpcParams)⟩
  | viewCode accountId ref => some (query "view_code"
      ([("account_id", .text accountId.name)] ++ ref.toRpcParams))
  | viewGlobalContractCode (.codeHash hash) ref => some (query "view_global_contract_code"
      ([("code_hash", .text (CryptoHash.display hash))] ++ ref.toRpcParams))
  | viewGlobalContractCode (.accountId accountId) ref => some
      (query "view_global_contract_code_by_account_id"
        ([("account_id", .text accountId.name)] ++ ref.toRpcParams))
  | viewState accountId keyPrefix afterKey limit ref => some ⟨"query",
      .named (RpcClient.viewStateParams accountId keyPrefix afterKey limit ref)⟩
  | block ref => some ⟨"block", .named ref.toRpcParams⟩
  | blockEffects ref => some ⟨"block_effects", .named ref.toRpcParams⟩
  | genesisConfig => some ⟨"genesis_config", .ordered []⟩
  | maintenanceWindows accountId => some ⟨"maintenance_windows",
      .named [("account_id", .text accountId.name)]⟩
  | status => some ⟨"status", .ordered []⟩
  | gasPrice blockHash => some ⟨"gas_price",
      .ordered [blockHash.map fun hash => .text (CryptoHash.display hash)]⟩
  | validators ref => some ⟨"validators", .ordered [blockIdOrNull ref]⟩
  | sendTx signedTx waitUntil => signedTx.toBase64.toOption.map fun text => ⟨"send_tx",
      .named [("signed_tx_base64", .text text), ("wait_until", .text waitUntil.asStr)]⟩
  | txStatus txHash senderId waitUntil => some ⟨"EXPERIMENTAL_tx_status",
      .named [("tx_hash", .text (CryptoHash.display txHash)),
        ("sender_account_id", .text senderId.name), ("wait_until", .text waitUntil.asStr)]⟩
  | receiptToTx receiptId => some ⟨"EXPERIMENTAL_receipt_to_tx",
      .named [("receipt_id", .text (CryptoHash.display receiptId))]⟩

/-- The call as the node gets to know it: without a page size of 0, and with the latest epoch
for what `validators` cannot express. -/
def canonical : TypedCall → TypedCall
  | viewState accountId keyPrefix afterKey limit ref =>
    viewState accountId keyPrefix afterKey (limit.filter (0 < ·)) ref
  | validators (some (.finality _)) => validators none
  | validators (some (.syncCheckpoint _)) => validators none
  | call => call

end TypedCall

/-! ## What a node reads -/

section
variable {α β : Type}

open Classical in
/-- The value that is written so, if there is one. -/
noncomputable def written (writes : α → β → Prop) (b : β) : Option α :=
  if h : ∃ a, writes a b then some h.choose else none

theorem written_eq_some {writes : α → β → Prop} {a : α} {b : β} (h : writes a b)
    (hunique : ∀ a', writes a' b → a' = a) : written writes b = some a := by
  have hex : ∃ a, writes a b := ⟨a, h⟩
  rw [written, dif_pos hex]
  exact congrArg some (hunique _ hex.choose_spec)

/-- The inverse of a way to write values. -/
noncomputable def unwrite (write : α → β) : β → Option α := written fun a b => b = write a

theorem unwrite_write {write : α → β} (h : Function.Injective write) (a : α) :
    unwrite write (write a) = some a :=
  written_eq_some rfl fun _ heq => (h heq).symm

end

theorem AccountId.name_injective : Function.Injective AccountId.name :=
  fun _ _ h => AccountId.ext h

theorem CryptoHash.display_injective : Function.Injective CryptoHash.display :=
  fun _ _ h => Subtype.ext (Base58.encode_injective h)

private theorem Finality.asStr_injective : Function.Injective Finality.asStr := by
  intro s t h
  cases s <;> cases t <;> first | rfl | exact absurd h (by decide)

def SyncCheckpoint.asStr : SyncCheckpoint → String
  | genesis => "genesis"
  | earliestAvailable => "earliest_available"

private theorem SyncCheckpoint.asStr_injective : Function.Injective asStr := by
  intro s t h
  cases s <;> cases t <;> first | rfl | exact absurd h (by decide)

namespace Params
variable {α : Type}

noncomputable def value (params : Params) (write : α → String) (name : String) : Option α :=
  (params.text name).bind (unwrite write)

noncomputable def optional (params : Params) (write : α → String) (name : String) :
    Option (Option α) :=
  match params.text name with
  | none => some none
  | some text => (unwrite write text).map some

/-- The reference of a block, by the name of its parameter. -/
noncomputable def block (params : Params) : Option BlockReference :=
  match params.lookup "finality", params.lookup "block_id", params.lookup "sync_checkpoint" with
  | some (.text s), none, none => (unwrite Finality.asStr s).map .finality
  | none, some (.number n), none => some (.height (.ofNat n))
  | none, some (.text s), none => (unwrite CryptoHash.display s).map .hash
  | none, none, some (.text s) => (unwrite SyncCheckpoint.asStr s).map .syncCheckpoint
  | _, _, _ => none

theorem block_append {params : Params} (block : BlockReference)
    (hparams : ∀ name ∈ ["finality", "block_id", "sync_checkpoint"], params.lookup name = none) :
    (params ++ block.toRpcParams).block = some block := by
  simp only [List.forall_mem_cons, List.not_mem_nil, false_imp_iff, implies_true, and_true] at hparams
  obtain ⟨hfinality, hblock, hcheckpoint⟩ := hparams
  simp only [Params.block, List.lookup_append, hfinality, hblock, hcheckpoint, Option.none_or]
  cases block with
  | finality f =>
    show (unwrite Finality.asStr f.asStr).map BlockReference.finality = _
    rw [unwrite_write Finality.asStr_injective]
    rfl
  | height h =>
    show some (BlockReference.height (.ofNat h.toNat)) = _
    rw [UInt64.ofNat_toNat]
  | hash h =>
    show (unwrite CryptoHash.display (CryptoHash.display h)).map BlockReference.hash = _
    rw [unwrite_write CryptoHash.display_injective]
    rfl
  | syncCheckpoint c =>
    have hread : (unwrite SyncCheckpoint.asStr c.asStr).map BlockReference.syncCheckpoint =
        some (.syncCheckpoint c) := by
      rw [unwrite_write SyncCheckpoint.asStr_injective]
      rfl
    cases c with
    | genesis => exact hread
    | earliestAvailable => exact hread

private theorem lookup_of_ne {name name' : String} {value : ParamValue} (h : name ≠ name') :
    List.lookup name [(name', value)] = none := by
  rw [List.lookup_cons, beq_eq_false_iff_ne.mpr h]
  rfl

theorem lookup_append_block {params : Params} {name : String} (block : BlockReference)
    (hname : name ∉ ["finality", "block_id", "sync_checkpoint"]) :
    (params ++ block.toRpcParams).lookup name = params.lookup name := by
  simp only [List.mem_cons, List.not_mem_nil, or_false, not_or] at hname
  obtain ⟨hfinality, hblock, hcheckpoint⟩ := hname
  have hnone : block.toRpcParams.lookup name = none := by
    cases block with
    | finality f => exact lookup_of_ne hfinality
    | height h => exact lookup_of_ne hblock
    | hash h => exact lookup_of_ne hblock
    | syncCheckpoint c => cases c <;> exact lookup_of_ne hcheckpoint
  rw [List.lookup_append, hnone, Option.or_none]

private theorem text_append {params rest : Params} {name text : String}
    (h : params.lookup name = some (.text text)) : (params ++ rest).text name = some text := by
  rw [Params.text, List.lookup_append, h]
  rfl

theorem value_eq {params : Params} {write : α → String} {name : String} {a : α}
    (hwrite : Function.Injective write) (h : params.text name = some (write a)) :
    params.value write name = some a := by
  rw [value, h]
  exact unwrite_write hwrite a

theorem optional_eq {params : Params} {write : α → String} {name : String} {a : Option α}
    (hwrite : Function.Injective write) (h : params.text name = a.map write) :
    params.optional write name = some a := by
  rw [optional, h]
  cases a with
  | none => rfl
  | some a => exact congrArg (Option.map some) (unwrite_write hwrite a)

end Params

noncomputable def TypedCall.readQuery (params : Params) : String → Option TypedCall
  | "view_access_key_list" => do
    let limit := (params.number "limit").map UInt32.ofNat
    return .viewAccessKeyListPage (← params.value AccountId.name "account_id")
      (← params.optional PublicKeyHandle.display "after_key")
      (limit.bind fun n => if h : 0 < n then some ⟨n, h⟩ else none) (← params.block)
  | "view_gas_key_nonces" => do
    return .viewGasKeyNonces (← params.value AccountId.name "account_id")
      (← params.value PublicKey.display "public_key") (← params.block)
  | "view_code" => do
    return .viewCode (← params.value AccountId.name "account_id") (← params.block)
  | "view_global_contract_code" => do
    return .viewGlobalContractCode (.codeHash (← params.value CryptoHash.display "code_hash"))
      (← params.block)
  | "view_global_contract_code_by_account_id" => do
    return .viewGlobalContractCode (.accountId (← params.value AccountId.name "account_id"))
      (← params.block)
  | "view_state" => do
    return .viewState (← params.value AccountId.name "account_id")
      (← params.value Base64.encode "prefix_base64")
      (← params.optional Base64.encode "after_key_base64")
      ((params.number "limit").map UInt32.ofNat) (← params.block)
  | _ => none

noncomputable def readBlockId : Option ParamValue → Option (Option BlockReference)
  | none => some none
  | some (.number n) => some (some (.height (.ofNat n)))
  | some (.text s) => (unwrite CryptoHash.display s).map fun hash => some (.hash hash)

private theorem readBlockId_blockIdOrNull (ref : Option BlockReference) :
    readBlockId (blockIdOrNull ref) = some (match ref with
      | some (.height h) => some (.height h)
      | some (.hash h) => some (.hash h)
      | _ => none) := by
  cases ref with
  | none => rfl
  | some ref =>
    cases ref with
    | finality f => rfl
    | height h =>
      simp only [blockIdOrNull, readBlockId, UInt64.ofNat_toNat]
    | hash h =>
      simp only [blockIdOrNull, readBlockId, unwrite_write CryptoHash.display_injective]
      rfl
    | syncCheckpoint c => rfl

section
variable {accountId : AccountId} {block : BlockReference}

private theorem read_viewAccessKeyListParams {afterKey : Option PublicKeyHandle}
    {limit : Option RpcClient.NonZeroU32} :
    TypedCall.readQuery (RpcClient.viewAccessKeyListParams accountId afterKey limit block)
      "view_access_key_list" = some (.viewAccessKeyListPage accountId afterKey limit block) := by
  set params := RpcClient.viewAccessKeyListParams accountId afterKey limit block with hparams
  have haccount : params.value AccountId.name "account_id" = some accountId :=
    Params.value_eq AccountId.name_injective rfl
  have hafter : params.optional PublicKeyHandle.display "after_key" = some afterKey := by
    apply Params.optional_eq PublicKeyHandle.display_injective
    rw [hparams, Params.text, RpcClient.viewAccessKeyListParams,
      Params.lookup_append_block _ (by simp)]
    cases afterKey <;> cases limit <;> rfl
  have hlimit : params.number "limit" = limit.map fun limit => limit.val.toNat := by
    rw [hparams, Params.number, RpcClient.viewAccessKeyListParams,
      Params.lookup_append_block _ (by simp)]
    cases afterKey <;> cases limit <;> rfl
  have hblock : params.block = some block := by
    rw [hparams, RpcClient.viewAccessKeyListParams, Params.block_append]
    simp only [List.forall_mem_cons, List.not_mem_nil, false_imp_iff, implies_true, and_true]
    refine ⟨?_, ?_, ?_⟩ <;> cases afterKey <;> cases limit <;> rfl
  simp only [TypedCall.readQuery]
  rw [haccount, hafter, hlimit, hblock]
  cases limit with
  | none => rfl
  | some limit => simp [limit.property]

private theorem read_viewStateParams {keyPrefix : Bytes} {afterKey : Option Bytes}
    {limit : Option UInt32} :
    TypedCall.readQuery (RpcClient.viewStateParams accountId keyPrefix afterKey limit block)
      "view_state" = some (.viewState accountId keyPrefix afterKey (limit.filter (0 < ·)) block) := by
  set params := RpcClient.viewStateParams accountId keyPrefix afterKey limit block with hparams
  have haccount : params.value AccountId.name "account_id" = some accountId :=
    Params.value_eq AccountId.name_injective rfl
  have hprefix : params.value Base64.encode "prefix_base64" = some keyPrefix :=
    Params.value_eq Base64.encode_injective rfl
  have hafter : params.optional Base64.encode "after_key_base64" = some afterKey := by
    apply Params.optional_eq Base64.encode_injective
    rw [hparams, Params.text, RpcClient.viewStateParams, Params.lookup_append_block _ (by simp)]
    cases afterKey <;> cases limit.filter _ <;> rfl
  have hlimit : params.number "limit" = (limit.filter (0 < ·)).map UInt32.toNat := by
    rw [hparams, Params.number, RpcClient.viewStateParams, Params.lookup_append_block _ (by simp)]
    cases afterKey <;> cases limit.filter _ <;> rfl
  have hblock : params.block = some block := by
    rw [hparams, RpcClient.viewStateParams, Params.block_append]
    simp only [List.forall_mem_cons, List.not_mem_nil, false_imp_iff, implies_true, and_true]
    refine ⟨?_, ?_, ?_⟩ <;> cases afterKey <;> cases limit.filter _ <;> rfl
  have hround : ((limit.filter (0 < ·)).map UInt32.toNat).map UInt32.ofNat = limit.filter (0 < ·) := by
    have hid : UInt32.ofNat ∘ UInt32.toNat = id := funext fun _ => UInt32.ofNat_toNat
    rw [Option.map_map, hid, Option.map_id]
    rfl
  simp only [TypedCall.readQuery]
  rw [haccount, hprefix, hafter, hlimit, hblock, hround]
  rfl

end

section
variable [Crates]

noncomputable def CallBody.read (body : CallBody) : Option TypedCall :=
  match body.method, body.params with
  | "EXPERIMENTAL_view_account", .named params => do
    return .viewAccount (← params.value AccountId.name "account_id") (← params.block)
  | "EXPERIMENTAL_view_access_key", .named params => do
    return .viewAccessKey (← params.value AccountId.name "account_id")
      (← params.value PublicKey.display "public_key") (← params.block)
  | "query", .named params => do
    TypedCall.readQuery params (← params.text "request_type")
  | "EXPERIMENTAL_call_function", .named params => do
    return .viewFunction (← params.value AccountId.name "account_id") (← params.text "method_name")
      (← params.value Base64.encode "args_base64") (← params.block)
  | "block", .named params => params.block.map .block
  | "block_effects", .named params => params.block.map .blockEffects
  | "genesis_config", .ordered [] => some .genesisConfig
  | "maintenance_windows", .named params =>
    (params.value AccountId.name "account_id").map .maintenanceWindows
  | "status", .ordered [] => some .status
  | "gas_price", .ordered [none] => some (.gasPrice none)
  | "gas_price", .ordered [some (.text s)] =>
    (unwrite CryptoHash.display s).map fun hash => .gasPrice (some hash)
  | "validators", .ordered [item] => (readBlockId item).map .validators
  | "send_tx", .named params => do
    return .sendTx (← (params.text "signed_tx_base64").bind
        (written fun (tx : SignedTransaction) s => tx.toBase64 = .ok s))
      (← params.value TxExecutionStatus.asStr "wait_until")
  | "EXPERIMENTAL_tx_status", .named params => do
    return .txStatus (← params.value CryptoHash.display "tx_hash")
      (← params.value AccountId.name "sender_account_id")
      (← params.value TxExecutionStatus.asStr "wait_until")
  | "EXPERIMENTAL_receipt_to_tx", .named params =>
    (params.value CryptoHash.display "receipt_id").map .receiptToTx
  | _, _ => none

private theorem read_query {params : Params} {requestType : String}
    (h : params.text "request_type" = some requestType) :
    CallBody.read ⟨"query", .named params⟩ = TypedCall.readQuery params requestType := by
  simp only [CallBody.read, h]
  rfl

private theorem SignedTransaction.toBase64_eq_ok {tx : SignedTransaction} {text : String}
    (h : tx.toBase64 = .ok text) : ∃ bytes, tx.toBytes = .ok bytes ∧ Base64.encode bytes = text := by
  cases hbytes : tx.toBytes with
  | error e =>
    rw [toBase64, hbytes] at h
    cases h
  | ok bytes =>
    rw [toBase64, hbytes] at h
    exact ⟨bytes, rfl, Except.ok.inj h⟩

private theorem SignedTransaction.eq_of_toBase64 {tx tx' : SignedTransaction} {text : String}
    (h : tx.toBase64 = .ok text) (h' : tx'.toBase64 = .ok text) : tx = tx' := by
  obtain ⟨bytes, hbytes, htext⟩ := toBase64_eq_ok h
  obtain ⟨bytes', hbytes', htext'⟩ := toBase64_eq_ok h'
  have heq := Base64.encode_injective (htext.trans htext'.symm)
  subst heq
  exact Format.signedTransaction.lawful.toVec_injective hbytes hbytes'

/-- The node reads the call that was made. -/
theorem TypedCall.read_body {call : TypedCall} {body : CallBody} (h : call.body = some body) :
    body.read = some call.canonical := by
  cases call with
  | viewAccount accountId ref =>
    cases h
    simp only [CallBody.read]
    rw [Params.value_eq AccountId.name_injective (Params.text_append rfl),
      Params.block_append _ (by simp)]
    rfl
  | viewAccessKey accountId publicKey ref =>
    cases h
    simp only [CallBody.read]
    rw [Params.value_eq AccountId.name_injective (Params.text_append rfl),
      Params.value_eq PublicKey.display_injective (Params.text_append rfl),
      Params.block_append _ (by simp)]
    rfl
  | viewAccessKeyListPage accountId afterKey limit ref =>
    cases h
    rw [read_query rfl]
    exact read_viewAccessKeyListParams
  | viewGasKeyNonces accountId publicKey ref =>
    cases h
    rw [TypedCall.query, read_query rfl, ← List.cons_append]
    simp only [readQuery]
    rw [Params.value_eq AccountId.name_injective (Params.text_append rfl),
      Params.value_eq PublicKey.display_injective (Params.text_append rfl),
      Params.block_append _ (by simp)]
    rfl
  | viewFunction accountId methodName args ref =>
    cases h
    simp only [CallBody.read]
    rw [Params.value_eq AccountId.name_injective (Params.text_append rfl), Params.text_append rfl,
      Params.value_eq Base64.encode_injective (Params.text_append rfl),
      Params.block_append _ (by simp)]
    rfl
  | viewCode accountId ref =>
    cases h
    rw [TypedCall.query, read_query rfl, ← List.cons_append]
    simp only [readQuery]
    rw [Params.value_eq AccountId.name_injective (Params.text_append rfl),
      Params.block_append _ (by simp)]
    rfl
  | viewGlobalContractCode id ref =>
    cases id with
    | codeHash hash =>
      cases h
      rw [TypedCall.query, read_query rfl, ← List.cons_append]
      simp only [readQuery]
      rw [Params.value_eq CryptoHash.display_injective (Params.text_append rfl),
        Params.block_append _ (by simp)]
      rfl
    | accountId accountId =>
      cases h
      rw [TypedCall.query, read_query rfl, ← List.cons_append]
      simp only [readQuery]
      rw [Params.value_eq AccountId.name_injective (Params.text_append rfl),
        Params.block_append _ (by simp)]
      rfl
  | viewState accountId keyPrefix afterKey limit ref =>
    cases h
    rw [read_query rfl]
    exact read_viewStateParams
  | block ref =>
    cases h
    simp only [CallBody.read]
    rw [← List.nil_append ref.toRpcParams, Params.block_append _ (by simp)]
    rfl
  | blockEffects ref =>
    cases h
    simp only [CallBody.read]
    rw [← List.nil_append ref.toRpcParams, Params.block_append _ (by simp)]
    rfl
  | genesisConfig =>
    cases h
    rfl
  | maintenanceWindows accountId =>
    cases h
    simp only [CallBody.read]
    rw [Params.value_eq AccountId.name_injective rfl]
    rfl
  | status =>
    cases h
    rfl
  | gasPrice blockHash =>
    cases h
    cases blockHash with
    | none => rfl
    | some hash =>
      simp only [CallBody.read, Option.map_some]
      rw [unwrite_write CryptoHash.display_injective]
      rfl
  | validators ref =>
    cases h
    simp only [CallBody.read, readBlockId_blockIdOrNull]
    cases ref with
    | none => rfl
    | some ref => cases ref <;> rfl
  | sendTx signedTx waitUntil =>
    obtain ⟨text, htext, rfl⟩ := Option.map_eq_some_iff.mp h
    have hwritten : signedTx.toBase64 = .ok text := by
      cases hbase : signedTx.toBase64 with
      | error e => rw [hbase] at htext; cases htext
      | ok text' => rw [hbase] at htext; cases htext; rfl
    have hread : written (fun (tx : SignedTransaction) s => tx.toBase64 = .ok s) text = some signedTx :=
      written_eq_some hwritten fun _ h' => SignedTransaction.eq_of_toBase64 h' hwritten
    simp only [CallBody.read]
    rw [Params.value_eq TxExecutionStatus.asStr_injective rfl,
      show Params.text _ "signed_tx_base64" = some text from rfl]
    simp only [Option.bind_some, hread]
    rfl
  | txStatus txHash senderId waitUntil =>
    cases h
    simp only [CallBody.read]
    rw [Params.value_eq CryptoHash.display_injective rfl,
      Params.value_eq AccountId.name_injective rfl,
      Params.value_eq TxExecutionStatus.asStr_injective rfl]
    rfl
  | receiptToTx receiptId =>
    cases h
    simp only [CallBody.read]
    rw [Params.value_eq CryptoHash.display_injective rfl]
    rfl

end

/-! ## What the methods return -/

namespace TypedCall
variable {R : Type}

/-- The `map_err` of each method: what a node leaves out of its error is filled in. -/
def mapErr : TypedCall → RpcError → RpcError
  | viewAccessKey accountId _ _, .accessKeyNotFound _ publicKey =>
    .accessKeyNotFound accountId publicKey
  | viewGasKeyNonces accountId _ _, .gasKeyNotFound _ publicKey => .gasKeyNotFound accountId publicKey
  | viewFunction accountId methodName _ _, .contractExecution _ _ message =>
    .contractExecution accountId (some methodName) message
  | viewFunction accountId methodName _ _, .methodNotFound _ _ => .methodNotFound accountId methodName
  | viewGlobalContractCode (.codeHash hash) _, .globalContractNotFound _ =>
    .globalContractNotFound (.codeHash hash)
  | viewGlobalContractCode (.accountId accountId) _, .globalContractNotFound _ =>
    .globalContractNotFound (.accountId accountId)
  | _, e => e

/-- The errors about the key, the method or the global contract that is asked for name it. -/
def Names : TypedCall → RpcError → Prop
  | viewAccessKey accountId _ _, .accessKeyNotFound named _ => named = accountId
  | viewGasKeyNonces accountId _ _, .gasKeyNotFound named _ => named = accountId
  | viewFunction accountId methodName _ _, .contractExecution named method _ =>
    named = accountId ∧ method = some methodName
  | viewFunction accountId methodName _ _, .methodNotFound named method =>
    named = accountId ∧ method = methodName
  | viewGlobalContractCode (.codeHash hash) _, .globalContractNotFound named => named = .codeHash hash
  | viewGlobalContractCode (.accountId accountId) _, .globalContractNotFound named =>
    named = .accountId accountId
  | _, _ => True

private theorem names_mapErr (call : TypedCall) (e : RpcError) : call.Names (call.mapErr e) := by
  cases call with
  | viewAccessKey => cases e <;> trivial
  | viewGasKeyNonces => cases e <;> trivial
  | viewFunction => cases e <;> trivial
  | viewGlobalContractCode id => cases id <;> cases e <;> trivial
  | _ => trivial

variable [Crates]

/-- A method of the client, as far as the response it gets. -/
def perform (config : RetryConfig) (call : TypedCall) : Call CallParams R :=
  match call.body with
  | none => .done none
  | some body => (RpcClient.call config body.method body.params).map
      (Option.map (Except.mapError call.mapErr))

/-- The errors that an existence query takes for an answer. -/
def absent : TypedCall → RpcError → Bool
  | viewAccount .., .accountNotFound _ => true
  | viewCode .., .contractNotDeployed _ => true
  | viewCode .., .accountNotFound _ => true
  | viewGlobalContractCode .., .globalContractNotFound _ => true
  | viewGlobalContractCode .., .accountNotFound _ => true
  | _, _ => false

/-- What an existence query makes of the result of its view. -/
def found (call : TypedCall) : Except RpcError R → Except Error Bool
  | .ok _ => .ok true
  | .error e => if call.absent e then .ok false else .error (.fromRpc e)

end TypedCall

/-- What is missing is missing under every name. -/
theorem TypedCall.absent_mapErr (call : TypedCall) (e : RpcError) :
    call.absent (call.mapErr e) = call.absent e := by
  cases call with
  | viewAccessKey => cases e <;> rfl
  | viewGasKeyNonces => cases e <;> rfl
  | viewFunction => cases e <;> rfl
  | viewGlobalContractCode id => cases id <;> cases e <;> rfl
  | _ => rfl

/-- Only the error that a global contract is missing is changed. -/
theorem TypedCall.mapErr_viewGlobalContractCode_of_not_absent {id : GlobalContractId}
    {block : BlockReference} {e : RpcError} (h : (viewGlobalContractCode id block).absent e = false) :
    (viewGlobalContractCode id block).mapErr e = e := by
  cases e with
  | globalContractNotFound identifier => cases h
  | _ => cases id <;> rfl

section
variable [Crates] {R : Type} (config : RetryConfig) (block : BlockReference)

def AccountExistsQuery.intoFuture (accountId : AccountId) :
    Process (CallRequest CallParams) (CallAnswer CallParams R) (Option (Except Error Bool)) :=
  let call := .viewAccount accountId block
  (TypedCall.perform config call).map (Option.map call.found)

def ContractCodeQuery.exists (accountId : AccountId) :
    Process (CallRequest CallParams) (CallAnswer CallParams R) (Option (Except Error Bool)) :=
  let call := .viewCode accountId block
  (TypedCall.perform config call).map (Option.map call.found)

def GlobalContractQuery.exists (id : GlobalContractId) :
    Process (CallRequest CallParams) (CallAnswer CallParams R) (Option (Except Error Bool)) :=
  let call := .viewGlobalContractCode id block
  (TypedCall.perform config call).map (Option.map call.found)

end

/-- What a client can ask a node for. -/
inductive ClientRead where
  | call (call : TypedCall)
  | accountExists (accountId : AccountId) (block : BlockReference)
  | contractExists (accountId : AccountId) (block : BlockReference)
  | globalContractExists (id : GlobalContractId) (block : BlockReference)

inductive ReadResult (R : Type) where
  | response (result : Except RpcError R)
  | found (result : Except Error Bool)

namespace ClientRead
variable {R : Type}

def asks : ClientRead → TypedCall
  | call c => c
  | accountExists accountId block => .viewAccount accountId block
  | contractExists accountId block => .viewCode accountId block
  | globalContractExists id block => .viewGlobalContractCode id block

/-- What the read returns, by what its call returns. -/
def finish : ClientRead → Except RpcError R → ReadResult R
  | call _, result => .response result
  | read, result => .found (read.asks.found result)

variable [Crates]

def intoFuture (config : RetryConfig) :
    ClientRead → Process (CallRequest CallParams) (CallAnswer CallParams R) (Option (ReadResult R))
  | call c => (c.perform config).map (Option.map .response)
  | accountExists accountId block =>
    (AccountExistsQuery.intoFuture config block accountId).map (Option.map .found)
  | contractExists accountId block =>
    (ContractCodeQuery.exists config block accountId).map (Option.map .found)
  | globalContractExists id block =>
    (GlobalContractQuery.exists config block id).map (Option.map .found)

end ClientRead

/-! ## Attempts -/

section
variable {P R α ι σ : Type} {allows : JsonRpcRequest P → Prop}

/-- The attempts are as `allows` says. -/
def AsksOnly (allows : JsonRpcRequest P → Prop) : CallRequest P → Prop
  | .tryCall request => allows request
  | _ => True

/-- The monitor of calls whose attempts are as `allows` says. -/
abbrev callMonitor (allows : JsonRpcRequest P → Prop) :
    Monitor (CallRequest P) (CallAnswer P R) (List (Exchange (CallRequest P) (CallAnswer P R))) :=
  .recording fun _ => AsksOnly allows

/-- The result comes from the answer to one of the attempts. -/
def Attempted (post : Except RpcError R → α → Prop)
    (xs : List (Exchange (CallRequest P) (CallAnswer P R))) (r : Option α) : Prop :=
  ∀ result ∈ r, ∃ request answer, ⟨.tryCall request, answer⟩ ∈ xs ∧ post answer result

private theorem RpcClient.callLoop_obeys (config : RetryConfig) {method : String} {params : P}
    (hallows : ∀ id, allows ⟨"2.0", id, method, params⟩) (left : ℕ) (attempt : UInt32)
    (xs : List (Exchange (CallRequest P) (CallAnswer P R))) :
    (callLoop config method params left attempt).Obeys (callMonitor allows)
      (Attempted fun answer result => result = answer) xs := by
  have hcall : AllowsCall (R := R) (callMonitor allows) config method params fun _ => True :=
    ⟨fun _ _ => trivial, fun _ id _ => hallows id, fun _ _ _ _ _ _ _ => ⟨trivial, trivial⟩⟩
  apply hcall.callLoop_obeys
  · intro xs id answer _ result hresult
    cases hresult
    exact ⟨_, _, List.mem_cons_self, rfl⟩
  · intro xs result hresult
    cases hresult
  · trivial

/-- In a pool, every attempt is as its process may make it, and every result comes from an
answer that the handler gave in the run. -/
theorem Interleaving.answered [DecidableEq ι]
    {H : ι → σ → (q : CallRequest P) → CallAnswer P R q → σ → Prop}
    {start : ι → Process (CallRequest P) (CallAnswer P R) (Option α)} {s₀ s : σ}
    {es : List (Occurrence ι σ (CallRequest P) (CallAnswer P R) (Option α))} {ps}
    (run : Interleaving H start s₀ es s ps) {i : ι} {post : Except RpcError R → α → Prop}
    (hi : (start i).Obeys (callMonitor allows) (Attempted post) []) :
    (∀ t request answer, .asked i t (.tryCall request) answer ∈ es → allows request) ∧
    (∀ result, .returned i (some result) ∈ es → ∃ t request answer t',
      .asked i t (.tryCall request) answer ∈ es ∧ H i t (.tryCall request) answer t' ∧
        allows request ∧ post answer result) := by
  obtain ⟨hasked, hreturned⟩ := run.recorded hi
  have hallows : ∀ t request answer, .asked i t (.tryCall request) answer ∈ es → allows request := by
    intro t request answer h
    obtain ⟨_, -, hrequest⟩ := hasked _ _ _ h
    exact hrequest
  refine ⟨hallows, ?_⟩
  intro result h
  obtain ⟨xs, hxs, hpost⟩ := hreturned _ h
  obtain ⟨request, answer, hattempt, hresult⟩ := hpost result rfl
  obtain ⟨t, ht⟩ := exists_asked_of_mem_exchangesOf (hxs hattempt)
  obtain ⟨t', hstep⟩ := run.exists_step ht
  exact ⟨t, request, answer, t', ht, hstep, hallows t request answer ht, hresult⟩

end

section
variable [Crates] {R : Type} {config : RetryConfig}

def TypedCall.Asked (call : TypedCall) (request : JsonRpcRequest CallParams) : Prop :=
  CallBody.read ⟨request.method, request.params⟩ = some call.canonical

/-- All attempts of a method ask for the call, and its result is the answer to one of them. -/
theorem TypedCall.perform_obeys (call : TypedCall) : (call.perform config : Call CallParams R).Obeys
    (callMonitor call.Asked) (Attempted fun answer result => result = answer.mapError call.mapErr)
    [] := by
  unfold perform
  cases hbody : call.body with
  | none =>
    intro result hresult
    cases hresult
  | some body =>
    have hasked : ∀ id, call.Asked ⟨"2.0", id, body.method, body.params⟩ := fun _ => read_body hbody
    apply Process.Obeys.map
    apply (RpcClient.callLoop_obeys config hasked _ 0 []).imp
    intro xs r hr result hresult
    obtain ⟨answer, hanswer, rfl⟩ := Option.mem_map.mp hresult
    obtain ⟨request, answer, hattempt, rfl⟩ := hr answer hanswer
    exact ⟨request, _, hattempt, rfl⟩

end

/-! ## Reading from a node -/

/-- A node answers calls as its state allows. What it shows is there, and what it calls
missing is not. -/
structure AnsweringNode (σ R : Type) where
  answers : σ → TypedCall → Except RpcError R → Prop
  present : σ → TypedCall → Prop
  present_of_ok : ∀ {s call response}, answers s call (.ok response) → present s call
  not_present_of_absent : ∀ {s call e}, answers s call (.error e) → call.absent e = true →
    ¬ present s call

/-- The result tells how things stand in a state of the node. -/
def AnsweringNode.Explains {σ R : Type} (node : AnsweringNode σ R) (s : σ) (read : ClientRead) :
    ReadResult R → Prop
  | .response result => ∃ answer, node.answers s read.asks.canonical answer ∧
      result = answer.mapError read.asks.mapErr ∧ ∀ e, result = .error e → read.asks.Names e
  | .found (.ok there) => there = true ↔ node.present s read.asks
  | .found (.error e) => ∃ cause, node.answers s read.asks (.error cause) ∧
      read.asks.absent cause = false ∧ e = .fromRpc cause

private theorem AnsweringNode.explains_finish {σ R : Type} {node : AnsweringNode σ R} {s : σ}
    {read : ClientRead} {answer : Except RpcError R} (h : node.answers s read.asks.canonical answer) :
    node.Explains s read (read.finish (answer.mapError read.asks.mapErr)) := by
  have hfound : read.asks.canonical = read.asks →
      (∀ e, read.asks.absent e = false → read.asks.mapErr e = e) →
      node.Explains s read (.found (read.asks.found (answer.mapError read.asks.mapErr))) := by
    intro hcanonical hmap
    rw [hcanonical] at h
    cases answer with
    | ok response => exact iff_of_true rfl (node.present_of_ok h)
    | error e =>
      simp only [Except.mapError, TypedCall.found, TypedCall.absent_mapErr]
      cases habsent : read.asks.absent e with
      | true => exact iff_of_false Bool.false_ne_true (node.not_present_of_absent h habsent)
      | false => exact ⟨e, h, habsent, congrArg Error.fromRpc (hmap e habsent)⟩
  cases read with
  | call call =>
    refine ⟨answer, h, rfl, ?_⟩
    intro e he
    cases answer with
    | ok response => cases he
    | error e' =>
      cases he
      exact call.names_mapErr e'
  | accountExists accountId block => exact hfound rfl fun _ _ => rfl
  | contractExists accountId block => exact hfound rfl fun _ _ => rfl
  | globalContractExists id block =>
    exact hfound rfl fun e habsent => TypedCall.mapErr_viewGlobalContractCode_of_not_absent habsent

section
variable [Crates] {R : Type} {config : RetryConfig}

private theorem ClientRead.intoFuture_eq (read : ClientRead) :
    (read.intoFuture config : Process _ (CallAnswer CallParams R) _) =
      (read.asks.perform config).map (Option.map read.finish) := by
  have hmap (call : TypedCall) : ((call.perform config : Call CallParams R).map
      (Option.map call.found)).map (Option.map (ReadResult.found (R := R))) =
        (call.perform config).map (Option.map fun r => ReadResult.found (call.found r)) := by
    rw [Process.map_map]
    congr 1
    funext r
    exact Option.map_map _ _ _
  cases read with
  | call call => rfl
  | accountExists accountId block => exact hmap _
  | contractExists accountId block => exact hmap _
  | globalContractExists id block => exact hmap _

private theorem ClientRead.intoFuture_obeys (read : ClientRead) :
    (read.intoFuture config : Process _ (CallAnswer CallParams R) _).Obeys
      (callMonitor read.asks.Asked)
      (Attempted fun answer result => result = read.finish (answer.mapError read.asks.mapErr)) [] := by
  rw [ClientRead.intoFuture_eq]
  apply Process.Obeys.map
  apply read.asks.perform_obeys.imp
  intro xs r hr result hresult
  obtain ⟨response, hresponse, rfl⟩ := Option.mem_map.mp hresult
  obtain ⟨request, answer, hattempt, rfl⟩ := hr response hresponse
  exact ⟨request, answer, hattempt, rfl⟩

/-- In every interleaving of reads with each other and with whatever changes the node, each
attempt asks for the very call of its read, and each result tells how things stand in a
state of the node that it was answered in. -/
theorem reads_explained {ι σ : Type} [DecidableEq ι] (node : AnsweringNode σ R)
    (H : ι → σ → (q : CallRequest CallParams) → CallAnswer CallParams R q → σ → Prop)
    (hH : ∀ i s request call answer s', H i s (.tryCall request) answer s' →
      CallBody.read ⟨request.method, request.params⟩ = some call → node.answers s call answer)
    (config : ι → RetryConfig) (reads : ι → ClientRead) {s₀ s : σ}
    {es : List (Occurrence ι σ (CallRequest CallParams) (CallAnswer CallParams R)
      (Option (ReadResult R)))} {ps}
    (run : Interleaving H (fun i => (reads i).intoFuture (config i)) s₀ es s ps) (i : ι) :
    (∀ t request answer, .asked i t (.tryCall request) answer ∈ es →
      CallBody.read ⟨request.method, request.params⟩ = some (reads i).asks.canonical) ∧
    (∀ result, .returned i (some result) ∈ es → ∃ t request answer,
      .asked i t (.tryCall request) answer ∈ es ∧ node.Explains t (reads i) result) := by
  obtain ⟨hasked, hreturned⟩ := run.answered (reads i).intoFuture_obeys
  refine ⟨hasked, ?_⟩
  intro result h
  obtain ⟨t, request, answer, t', ht, hstep, hread, rfl⟩ := hreturned result h
  exact ⟨t, request, answer, ht, AnsweringNode.explains_finish (hH i t request _ answer t' hstep hread)⟩

end

/-! ### Two reads of an account that is created between them -/

def AnsweringNode.sample : AnsweringNode Bool Unit where
  answers created call answer := match answer with
    | .ok _ => created = true
    | .error e => call.absent e = true → created = false
  present created _ := created = true
  present_of_ok h := h
  not_present_of_absent h habsent hcreated := Bool.false_ne_true ((h habsent).symm.trans hcreated)

def sampleReadHandler [Crates] (_ : Bool) (created : Bool) :
    (q : CallRequest CallParams) → CallAnswer CallParams Unit q → Bool → Prop
  | .tryCall request, answer, _ => ∀ call,
      CallBody.read ⟨request.method, request.params⟩ = some call →
        AnsweringNode.sample.answers created call answer
  | _, _, _ => True

def sampleRead : ClientRead := .accountExists .alice (.finality .final)

def sampleRequest : JsonRpcRequest CallParams :=
  ⟨"2.0", 0, "EXPERIMENTAL_view_account",
    .named [("account_id", .text AccountId.alice.name), ("finality", .text "final")]⟩

abbrev samplePool [Crates] (_ : Bool) :
    Process (CallRequest CallParams) (CallAnswer CallParams Unit) (Option (ReadResult Unit)) :=
  sampleRead.intoFuture ⟨3, 100, 1000⟩

private theorem sampleRead_answers [Crates] {created : Bool} {answer : Except RpcError Unit}
    (h : AnsweringNode.sample.answers created (.viewAccount .alice (.finality .final)) answer) {i s' : Bool} :
    sampleReadHandler i created (.tryCall sampleRequest) answer s' := by
  intro call hread
  have hbody := TypedCall.read_body
    (show TypedCall.body (.viewAccount .alice (.finality .final)) = some _ from rfl)
  cases hread.symm.trans hbody
  exact h

/-- One read is carried out, after a change of the node. -/
theorem exists_sampleRead_run [Crates] (i created : Bool) {es ps s₀ s}
    (run : Interleaving sampleReadHandler samplePool s₀ es s ps) (hps : ps i = some (samplePool i)) :
    ∃ es' ps', Interleaving sampleReadHandler samplePool s₀
        (.returned i (some (.found (.ok created))) :: (es' ++ es)) created ps' ∧
      ∀ j, j ≠ i → ps' j = ps j := by
  obtain ⟨ps₁, run₁, hps₁, hother₁⟩ := run.ask hps (q := .requestId) rfl 0 (t := created) trivial
  cases created with
  | true =>
    have hanswer : AnsweringNode.sample.answers true (.viewAccount .alice (.finality .final)) (.ok ()) :=
      rfl
    obtain ⟨ps₂, run₂, hps₂, hother₂⟩ := run₁.ask hps₁ (q := .tryCall sampleRequest) rfl (.ok ())
      (t := true) (sampleRead_answers hanswer)
    refine ⟨[_, _], _, .returned run₂ hps₂, fun j hj => ?_⟩
    rw [Function.update_of_ne hj, hother₂ j hj, hother₁ j hj]
  | false =>
    have hanswer : AnsweringNode.sample.answers false (.viewAccount .alice (.finality .final))
        (.error (.accountNotFound .alice)) := fun _ => rfl
    obtain ⟨ps₂, run₂, hps₂, hother₂⟩ := run₁.ask hps₁ (q := .tryCall sampleRequest) rfl
      (.error (.accountNotFound .alice)) (t := false) (sampleRead_answers hanswer)
    refine ⟨[_, _], _, .returned run₂ hps₂, fun j hj => ?_⟩
    rw [Function.update_of_ne hj, hother₂ j hj, hother₁ j hj]

theorem reads_explained_sample :
    ∃ es s ps, Interleaving (@sampleReadHandler Crates.accepting) (@samplePool Crates.accepting) false es s ps ∧
      (∃ t request answer, .asked false t (.tryCall request) answer ∈ es ∧
        AnsweringNode.sample.Explains t sampleRead (.found (.ok false))) ∧
      (∃ t request answer, .asked true t (.tryCall request) answer ∈ es ∧
        AnsweringNode.sample.Explains t sampleRead (.found (.ok true))) := by
  let _ := Crates.accepting
  obtain ⟨es, ps, run, hps⟩ := exists_sampleRead_run false false .init rfl
  obtain ⟨es', ps', run', -⟩ := exists_sampleRead_run true true run
    (hps true (by decide))
  have hexplained := fun i => (reads_explained .sample sampleReadHandler
    (fun _ _ _ call _ _ h hread => h call hread) (fun _ => ⟨3, 100, 1000⟩) (fun _ => sampleRead)
    run' i).2
  refine ⟨_, _, _, run', hexplained false _ ?_, hexplained true _ List.mem_cons_self⟩
  exact List.mem_cons_of_mem _ (List.mem_append_right _ List.mem_cons_self)

end NearKit
