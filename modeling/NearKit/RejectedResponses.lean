import NearKit.TransactionResponses

/-!
# Responses of rejected transactions

A node reports an invalid transaction as the final status of a response. At an executed wait
level the report becomes an error of its own, unless the status of an execution in the same
response repeats it: then the outcome is dropped with its final status.
-/
namespace NearKit
open Borsh Json

namespace Rpc

/-! ## Responses of invalid transactions -/

section
variable [RpcCrates]

/-- A response whose final status is an invalid transaction. Every field decodes, and the
status of each execution is one of the wire format, whichever it is. -/
structure RejectedResponse (result : Json) (error : InvalidTxError)
    (outcome : FinalExecutionOutcome Json) : Prop where
  decodes : ∃ fields level, result = .object fields ∧
    required fields "final_execution_status" TxExecutionStatus.fromJson = .ok level ∧
    FinalExecutionOutcome.fromFields .ok fields = .ok outcome
  status_eq : outcome.status = .failure (.invalidTxError error)
  statuses : ∀ json ∈ outcome.statuses, ∃ raw, RawExecutionStatus.fromJson json = .ok raw

variable {result : Json} {error : InvalidTxError} {outcome : FinalExecutionOutcome Json}

theorem exists_statuses_iff {statuses : List Json}
    (h : ∀ json ∈ statuses, ∃ raw, RawExecutionStatus.fromJson json = .ok raw) :
    (∀ json ∈ statuses, ∃ s, ExecutionStatus.fromJson json = .ok s) ↔
      ∀ json ∈ statuses, reportsInvalidTx json = false := by
  refine forall₂_congr fun json hjson => ?_
  obtain ⟨raw, hraw⟩ := h json hjson
  exact exists_executionStatus hraw

/-- A response without its outcome, which is kept or dropped as a whole. -/
theorem RawTransactionResponse.fromJson_object {fields : List (String × Json)}
    {level : TxExecutionStatus}
    (h : required fields "final_execution_status" TxExecutionStatus.fromJson = .ok level) :
    fromJson (.object fields) = .ok ⟨.zeros 32, level,
      (FinalExecutionOutcome.fromFields ExecutionStatus.fromJson fields).toOption⟩ := by
  show (required fields "final_execution_status" TxExecutionStatus.fromJson >>= _) = _
  rw [h]
  rfl

namespace RejectedResponse

/-- The outcome is kept where no execution reports the invalid transaction itself. -/
theorem fromJson_of_not_reported (h : RejectedResponse result error outcome)
    (hstatuses : ∀ json ∈ outcome.statuses, reportsInvalidTx json = false) :
    ∃ level o, RawTransactionResponse.fromJson result = .ok ⟨.zeros 32, level, some o⟩ ∧
      o.status = .failure (.invalidTxError error) := by
  obtain ⟨fields, level, rfl, hlevel, houtcome⟩ := h.decodes
  have hdecode := (exists_statuses_iff h.statuses).mpr hstatuses
  obtain ⟨o, ho⟩ := (FinalExecutionOutcome.succeedsWhen _ fields).mpr ⟨outcome, houtcome, hdecode⟩
  refine ⟨level, o, ?_, ?_⟩
  · rw [RawTransactionResponse.fromJson_object hlevel, ho]
    rfl
  · have hstatus := FinalExecutionOutcome.status_of_fromFields _ ho
    rw [FinalExecutionOutcome.status_of_fromFields _ houtcome, h.status_eq] at hstatus
    exact (Except.ok.inj hstatus).symm

/-- The outcome is dropped where some execution reports the invalid transaction too. -/
theorem fromJson_of_reported (h : RejectedResponse result error outcome) {json : Json}
    (hmem : json ∈ outcome.statuses) (hjson : reportsInvalidTx json = true) :
    ∃ level, RawTransactionResponse.fromJson result = .ok ⟨.zeros 32, level, none⟩ := by
  obtain ⟨fields, level, rfl, hlevel, houtcome⟩ := h.decodes
  refine ⟨level, ?_⟩
  rw [RawTransactionResponse.fromJson_object hlevel]
  cases ho : FinalExecutionOutcome.fromFields ExecutionStatus.fromJson fields with
  | error e => rfl
  | ok o =>
    obtain ⟨raw, hraw, hdecode⟩ := (FinalExecutionOutcome.succeedsWhen _ fields).mp ⟨o, ho⟩
    rw [houtcome] at hraw
    cases hraw
    have hnot := (exists_statuses_iff h.statuses).mp hdecode json hmem
    rw [hjson] at hnot
    cases hnot

end RejectedResponse
end
end Rpc

/-! ## The conversion at an executed level -/

def WaitLevel.executedName : WaitLevel → Option String
  | executedOptimistic => some "ExecutedOptimistic"
  | executed => some "Executed"
  | final => some "Final"
  | _ => none

theorem WaitLevel.convert_of_executedName {level : WaitLevel} {name : String}
    (h : level.executedName = some name) (response : RawTransactionResponse) (senderId : AccountId) :
    level.convert response senderId = .outcome <$> extractOutcome response name := by
  cases level with
  | executedOptimistic | executed | final =>
    cases h
    rfl
  | _ => cases h

namespace Rpc

section
variable [RpcCrates] {result : Json} {error : InvalidTxError} {outcome : FinalExecutionOutcome Json}
  {level : WaitLevel} {name : String}

private theorem Method.finish_of_outcome (method : Method) {response : RawTransactionResponse}
    {o : FinalExecutionOutcome ExecutionStatus} (hlevel : level.executedName = some name)
    (h : RawTransactionResponse.fromJson result = .ok response) (houtcome : response.outcome = some o)
    (hstatus : o.status = .failure (.invalidTxError error)) (txHash : CryptoHash)
    (senderId : AccountId) :
    method.finish level txHash senderId result = .error (.invalidTx error) := by
  have hkept : (method.withHash txHash response).toResponse.outcome = some ⟨o.status⟩ := by
    cases method <;> simp [withHash, RawTransactionResponse.toResponse, houtcome]
  unfold finish
  rw [h]
  dsimp only
  rw [WaitLevel.convert_of_executedName hlevel, WaitLevel.extractOutcome, hkept, hstatus]
  rfl

private theorem Method.finish_of_no_outcome (method : Method) {response : RawTransactionResponse}
    (hlevel : level.executedName = some name)
    (h : RawTransactionResponse.fromJson result = .ok response) (houtcome : response.outcome = none)
    (txHash : CryptoHash) (senderId : AccountId) :
    method.finish level txHash senderId result =
      .error (.invalidTransaction (WaitLevel.missingOutcome txHash name)) := by
  have hnone : (method.withHash txHash response).toResponse.outcome = none := by
    cases method <;> simp [withHash, RawTransactionResponse.toResponse, houtcome]
  have hhash : (method.withHash txHash response).toResponse.transactionHash = txHash := by
    cases method <;> simp [withHash, RawTransactionResponse.toResponse, houtcome]
  unfold finish
  rw [h]
  dsimp only
  rw [WaitLevel.convert_of_executedName hlevel, WaitLevel.extractOutcome, hnone, hhash]
  rfl

namespace RejectedResponse

/-- A rejection that an execution reports too ends as a missing outcome. -/
theorem finish_of_reported (h : RejectedResponse result error outcome)
    (hlevel : level.executedName = some name) {json : Json} (hmem : json ∈ outcome.statuses)
    (hjson : reportsInvalidTx json = true) (method : Method) (txHash : CryptoHash)
    (senderId : AccountId) :
    method.finish level txHash senderId result =
      .error (.invalidTransaction (WaitLevel.missingOutcome txHash name)) := by
  obtain ⟨status, hresponse⟩ := h.fromJson_of_reported hmem hjson
  exact method.finish_of_no_outcome hlevel hresponse rfl txHash senderId

/-- The invalid transaction surfaces exactly when no execution reports it too. -/
theorem surfaces_iff (h : RejectedResponse result error outcome)
    (hlevel : level.executedName = some name) (method : Method) (txHash : CryptoHash)
    (senderId : AccountId) :
    method.finish level txHash senderId result = .error (.invalidTx error) ↔
      ∀ json ∈ outcome.statuses, reportsInvalidTx json = false := by
  constructor
  · intro hfinish json hmem
    by_contra hjson
    rw [h.finish_of_reported hlevel hmem (Bool.not_eq_false _ ▸ hjson)] at hfinish
    cases hfinish
  · intro hstatuses
    obtain ⟨status, o, hresponse, hstatus⟩ := h.fromJson_of_not_reported hstatuses
    exact method.finish_of_outcome hlevel hresponse rfl hstatus txHash senderId

end RejectedResponse
end

/-! ## Samples -/

/-- The response to an invalid transaction whose own execution has the given status. -/
def rejectedFields (status : Json) : List (String × Json) :=
  let hash := Json.string "11111111111111111111111111111111"
  [("final_execution_status", .string "FINAL"),
    ("status", .object [("Failure", .object [("InvalidTxError", .string "InvalidSignature")])]),
    ("transaction", .object [("signer_id", .string "alice.near"),
      ("public_key", .string "ed25519:11111111111111111111111111111111"),
      ("nonce", .number (.posInt 1)), ("receiver_id", .string "bob.near"), ("actions", .array []),
      ("signature", .string
        "ed25519:1111111111111111111111111111111111111111111111111111111111111111"),
      ("hash", hash)]),
    ("transaction_outcome", .object [("id", hash),
      ("outcome", .object [("executor_id", .string "alice.near"),
        ("gas_burnt", .number (.posInt 223182562500)),
        ("tokens_burnt", .string "22318256250000000000"), ("logs", .array []),
        ("receipt_ids", .array []), ("status", status)]),
      ("block_hash", hash),
      ("proof", .array [])]),
    ("receipts_outcome", .array [])]

/-- Whether some execution of a response to an invalid signature reports it too. `none` for
another response. -/
def examine [RpcCrates] (fields : List (String × Json)) : Option Bool :=
  match required fields "final_execution_status" TxExecutionStatus.fromJson,
    FinalExecutionOutcome.fromFields .ok fields with
  | .ok _, .ok o =>
    if o.status = .failure (.invalidTxError .invalidSignature) ∧
        o.statuses.all (fun json => (RawExecutionStatus.fromJson json).isOk) = true then
      some (o.statuses.any reportsInvalidTx)
    else none
  | _, _ => none

theorem rejectedResponse_of_examine [RpcCrates] {fields : List (String × Json)} {reported : Bool}
    (h : examine fields = some reported) :
    ∃ outcome, RejectedResponse (.object fields) .invalidSignature outcome ∧
      outcome.statuses.any reportsInvalidTx = reported := by
  unfold examine at h
  split at h
  · next level o hlevel ho =>
    split at h
    · next hchecks =>
      refine ⟨o, ⟨⟨fields, level, rfl, hlevel, ho⟩, hchecks.1, fun json hmem => ?_⟩, Option.some.inj h⟩
      have hok := List.all_eq_true.mp hchecks.2 json hmem
      cases hraw : RawExecutionStatus.fromJson json with
      | ok raw => exact ⟨raw, rfl⟩
      | error e =>
        rw [hraw] at hok
        cases hok
    · cases h
  · cases h

def executedStatus : Json :=
  .object [("SuccessReceiptId", .string "11111111111111111111111111111111")]

def repeatedStatus : Json :=
  .object [("Failure", .object [("InvalidTxError", .string "InvalidSignature")])]

/-- A rejection that no execution reports surfaces. -/
theorem rejection_surfaces :
    letI := RpcCrates.reading "" .null
    Method.txStatus.finish .final (.zeros 32) .alice (.object (rejectedFields executedStatus)) =
      .error (.invalidTx .invalidSignature) := by
  let crates := RpcCrates.reading "" .null
  have hexamine : examine (rejectedFields executedStatus) = some false := by decide +kernel
  obtain ⟨outcome, h, hreported⟩ := rejectedResponse_of_examine hexamine
  have hlevel : WaitLevel.final.executedName = some "Final" := rfl
  refine (h.surfaces_iff hlevel .txStatus (.zeros 32) .alice).mpr fun json hmem => ?_
  exact Bool.not_eq_true _ ▸ List.any_eq_false.mp hreported json hmem

/-- A rejection that the execution of the transaction repeats is lost. -/
theorem repeated_rejection_lost :
    letI := RpcCrates.reading "" .null
    ∃ outcome,
      RejectedResponse (.object (rejectedFields repeatedStatus)) .invalidSignature outcome ∧
      Method.sendTx.finish .final (.zeros 32) .alice (.object (rejectedFields repeatedStatus)) =
        .error (.invalidTransaction (WaitLevel.missingOutcome (.zeros 32) "Final")) ∧
      Method.sendTx.finish .final (.zeros 32) .alice (.object (rejectedFields repeatedStatus)) ≠
        .error (.invalidTx .invalidSignature) := by
  let crates := RpcCrates.reading "" .null
  have hexamine : examine (rejectedFields repeatedStatus) = some true := by decide +kernel
  obtain ⟨outcome, h, hreported⟩ := rejectedResponse_of_examine hexamine
  obtain ⟨json, hmem, hjson⟩ := List.any_eq_true.mp hreported
  have hlevel : WaitLevel.final.executedName = some "Final" := rfl
  have hlost := h.finish_of_reported hlevel hmem hjson .sendTx (.zeros 32) .alice
  refine ⟨outcome, h, hlost, ?_⟩
  rw [hlost]
  exact nofun

end Rpc
end NearKit
