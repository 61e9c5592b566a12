import NearKit.RpcErrorParsing

/-!
# Retries of HTTP errors

Whether an HTTP error is retried is decided in two places, by the status of a body without
an error envelope and by the parsed error of a body with one. The two agree on the client
errors except where the status asks for a retry.
-/
namespace NearKit
open Json

/-- The error without a type of its own. -/
def RpcError.isGeneric : RpcError → Bool
  | rpc .. => true
  | _ => false

namespace RpcClient

/-! ## Statuses -/

private theorem isRetryableStatus_of_clientError {status : UInt16} (h : status < 500) :
    isRetryableStatus status = true ↔ status = 408 ∨ status = 429 := by
  have h500 : ¬ 500 ≤ status := UInt16.not_le.mpr h
  have h503 : status ≠ 503 := by
    rintro rfl
    exact absurd h (by decide)
  simp [isRetryableStatus, h500, h503]

theorem isRetryable_fallbackError (status : UInt16) (body : String) :
    (fallbackError status body).error.isRetryable = isRetryableStatus status := rfl

private theorem preserve_of_isGeneric {err : AtBlock} (h : err.error.isGeneric = true)
    {status : UInt16} (hle : 400 ≤ status) (hlt : status < 500) (body : String) :
    preserveHttpRetryClassification err status body =
      ⟨.network (httpMessage status body) (some status) false, none, none⟩ := by
  obtain ⟨error, blockHeight, blockHash⟩ := err
  cases error with
  | rpc code message => exact if_pos ⟨hle, hlt⟩
  | _ => cases h

end RpcClient

/-! ## The classified errors have a type -/

private theorem isGeneric_of_classify {error : FunctionCallError} {contractId : AccountId}
    {methodName : Option String} {blockHeight : Option UInt64} {blockHash : Option CryptoHash}
    {e : AtBlock}
    (h : classifyFunctionCallError error contractId methodName blockHeight blockHash = some e) :
    e.error.isGeneric = false := by
  unfold classifyFunctionCallError at h
  split at h
  · cases h
    rfl
  · cases h
    rfl
  · cases h
    rfl
  · obtain ⟨message, -, rfl⟩ := Option.map_eq_some_iff.mp h
    rfl
  · cases h

section
variable [RpcCrates]

private theorem isGeneric_of_classifyLegacy {message : List Char} {contractId : AccountId}
    {methodName : Option String} {blockHeight : Option UInt64} {blockHash : Option CryptoHash}
    {e : AtBlock}
    (h : classifyLegacyFunctionCallError message contractId methodName blockHeight blockHash = some e) :
    e.error.isGeneric = false := by
  unfold classifyLegacyFunctionCallError at h
  dsimp only at h
  split at h
  · obtain ⟨message, -, rfl⟩ := Option.map_eq_some_iff.mp h
    rfl
  split at h
  · cases h
    rfl
  split at h
  · cases h
    rfl
  split at h
  · cases h
    rfl
  · obtain ⟨message, -, rfl⟩ := Option.map_eq_some_iff.mp h
    rfl

namespace RpcClient

private theorem isGeneric_contractError (error : JsonRpcError) (cause : ErrorCause)
    (blockHeight : Option UInt64) (blockHash : Option CryptoHash) :
    (contractError error cause blockHeight blockHash).error.isGeneric = false := by
  unfold contractError
  dsimp only
  split
  · next specificError h =>
    rcases Option.or_eq_some_iff.mp h with h | ⟨-, h⟩
    · obtain ⟨error, -, h⟩ := Option.bind_eq_some_iff.mp h
      exact isGeneric_of_classify h
    · obtain ⟨message, -, h⟩ := List.exists_of_findSome?_eq_some h
      exact isGeneric_of_classifyLegacy h
  · rfl

private theorem isGeneric_ofRejection (message : String) (details : Option Json) :
    (RpcError.ofRejection message details).isGeneric = false := by
  unfold RpcError.ofRejection
  split <;> rfl

/-- A known cause gives a typed error or none. -/
theorem isGeneric_of_parseCause {error : JsonRpcError} {cause : ErrorCause} {e : AtBlock}
    (h : parseCause error cause = some e) : e.error.isGeneric = false := by
  unfold parseCause at h
  dsimp only at h
  split at h
  case h_13 =>
    cases h
    exact isGeneric_contractError ..
  case h_18 =>
    cases h
    exact isGeneric_ofRejection ..
  case h_22 =>
    obtain ⟨accountId, -, h⟩ := Option.bind_eq_some_iff.mp h
    obtain ⟨limit, -, h⟩ := Option.bind_eq_some_iff.mp h
    split at h
    · cases h
      rfl
    · cases h
  all_goals first
    | (cases h; rfl)
    | (obtain ⟨x, -, rfl⟩ := Option.map_eq_some_iff.mp h; rfl)
    | cases h

/-- The parser leaves an error generic exactly where neither its cause nor its data names a type. -/
theorem isGeneric_parseRpcError (error : JsonRpcError) :
    (parseRpcError error).error.isGeneric = true ↔
      error.cause.bind (parseCause error) = none ∧ error.data.bind missingAccount = none := by
  unfold parseRpcError
  cases hcause : error.cause.bind (parseCause error) with
  | some typed =>
    obtain ⟨cause, -, htyped⟩ := Option.bind_eq_some_iff.mp hcause
    simp [isGeneric_of_parseCause htyped]
  | none =>
    cases error.data.bind missingAccount with
    | some accountId => simp [RpcError.isGeneric]
    | none => simp [RpcError.isGeneric]

/-! ## The two classifications -/

/-- The body is an error envelope that the parser maps to no typed error. -/
def UntypedEnvelope (body : String) : Prop :=
  ∃ error, errorEnvelope body = some error ∧ (parseRpcError error).error.isGeneric = true

/-- On a client error, a body with an untyped envelope is retried as one without is. -/
def ClassificationAgrees (status : UInt16) (body : String) : Prop :=
  400 ≤ status → status < 500 → UntypedEnvelope body →
    (httpError status body).error.isRetryable = isRetryableStatus status

theorem untypedEnvelope_iff (body : String) : UntypedEnvelope body ↔
    ∃ error, errorEnvelope body = some error ∧
      error.cause.bind (parseCause error) = none ∧ error.data.bind missingAccount = none := by
  unfold UntypedEnvelope
  simp only [isGeneric_parseRpcError]

/-- An untyped envelope is never retried on a client error. -/
theorem isRetryable_of_untyped {status : UInt16} {body : String} (hle : 400 ≤ status)
    (hlt : status < 500) (h : UntypedEnvelope body) :
    (httpError status body).error.isRetryable = false := by
  obtain ⟨error, herror, hgeneric⟩ := h
  unfold httpError
  rw [herror]
  dsimp only
  rw [preserve_of_isGeneric hgeneric hle hlt]
  rfl

/-- The classifications agree exactly on the statuses and bodies that do not wrap an untyped
error in a status that asks for a retry. -/
theorem classificationAgrees_iff (status : UInt16) (body : String) :
    ClassificationAgrees status body ↔ ¬ ((status = 408 ∨ status = 429) ∧ UntypedEnvelope body) := by
  constructor
  · rintro h ⟨hstatus, huntyped⟩
    have hbounds : 400 ≤ status ∧ status < 500 := by
      rcases hstatus with rfl | rfl <;> decide
    have hagree := h hbounds.1 hbounds.2 huntyped
    rw [isRetryable_of_untyped hbounds.1 hbounds.2 huntyped,
      (isRetryableStatus_of_clientError hbounds.2).mpr hstatus] at hagree
    cases hagree
  · intro h hle hlt huntyped
    have hstatus : ¬ (status = 408 ∨ status = 429) := fun hstatus => h ⟨hstatus, huntyped⟩
    rw [isRetryable_of_untyped hle hlt huntyped]
    rw [← isRetryableStatus_of_clientError hlt, Bool.not_eq_true] at hstatus
    exact hstatus.symm

end RpcClient
end

/-! ## A rate limit in an envelope -/

namespace RpcClient

def rateLimitText : String :=
  "\x7b\"jsonrpc\":\"2.0\",\"id\":1,\"error\":\x7b\"code\":-32000,\"message\":\"rate limited\"\x7d\x7d"

def rateLimitJson : Json :=
  .object [("jsonrpc", .string "2.0"), ("id", .number (.posInt 1)),
    ("error", .object [("code", .number (.negInt (-32000))), ("message", .string "rate limited")])]

/-- A rate limit that a proxy wraps in an error envelope is not retried. -/
theorem rateLimit_not_retried :
    letI := RpcCrates.reading rateLimitText rateLimitJson
    UntypedEnvelope rateLimitText ∧ isRetryableStatus 429 = true ∧
      (httpError 429 rateLimitText).error.isRetryable = false ∧
      ¬ ClassificationAgrees 429 rateLimitText := by
  let crates := RpcCrates.reading rateLimitText rateLimitJson
  have henvelope : errorEnvelope rateLimitText =
      some ⟨-32000, "rate limited", none, none, none⟩ := by
    unfold errorEnvelope parseResponse
    rw [show RpcCrates.parseJson rateLimitText = .ok rateLimitJson from if_pos rfl]
    rfl
  have huntyped : UntypedEnvelope rateLimitText := ⟨_, henvelope, rfl⟩
  have hretried : (httpError 429 rateLimitText).error.isRetryable = false :=
    isRetryable_of_untyped (by decide) (by decide) huntyped
  refine ⟨huntyped, rfl, hretried, fun h => ?_⟩
  have hagree := h (by decide) (by decide) huntyped
  rw [hretried] at hagree
  exact absurd hagree (by decide)

end RpcClient
end NearKit
