import NearKit.TransactionOperations

/-!
# Calls of the RPC client

The retry loop under every RPC method, and `send_tx` on top of it. One attempt is one
exchange with the transport. The JSON text of requests and responses is left out.
-/
namespace NearKit

/-- Delays are in milliseconds. -/
structure RetryConfig where
  maxRetries : UInt32
  initialDelayMs : UInt64
  maxDelayMs : UInt64
  deriving DecidableEq

structure JsonRpcRequest (P : Type) where
  jsonrpc : String
  id : UInt64
  method : String
  params : P
  deriving DecidableEq

/-- What `call` asks for: the next request id, an attempt on the transport, a pause. -/
inductive CallRequest (P : Type) where
  | requestId
  | tryCall (request : JsonRpcRequest P)
  | sleep (ms : UInt64)
  deriving DecidableEq

@[reducible] def CallAnswer (P R : Type) : CallRequest P → Type
  | .requestId => UInt64
  | .tryCall _ => Except RpcError R
  | .sleep _ => Unit

/-- A call ends with its result, or with none where the code panics. -/
abbrev Call (P R : Type) := Process (CallRequest P) (CallAnswer P R) (Option (Except RpcError R))

namespace RetryConfig

def totalAttempts (config : RetryConfig) : UInt32 := config.maxRetries + 1

/-- The pause after a failed attempt. `2u64.pow` wraps. -/
def delay (config : RetryConfig) (attempt : UInt32) : UInt64 :=
  min (config.initialDelayMs * UInt64.ofNat (2 ^ attempt.toNat)) config.maxDelayMs

end RetryConfig

namespace RpcClient
variable {P R : Type}

/-- The iterations `attempt..total_attempts`, `left` of them. -/
def callLoop (config : RetryConfig) (method : String) (params : P) (left : ℕ) (attempt : UInt32) :
    Call P R :=
  match left with
  | 0 => .done none
  | left + 1 =>
    .ask .requestId fun requestId =>
    .ask (.tryCall ⟨"2.0", requestId, method, params⟩) fun
    | .ok result => .done (some (.ok result))
    | .error e =>
      if e.isRetryable = true ∧ attempt < config.totalAttempts - 1 then
        .ask (.sleep (config.delay attempt)) fun _ =>
        callLoop config method params left (attempt + 1)
      else .done (some (.error e))

def call (config : RetryConfig) (method : String) (params : P) : Call P R :=
  callLoop config method params config.totalAttempts.toNat 0

section
variable {S : Type} {M : Monitor (CallRequest P) (CallAnswer P R) S}

/-- The state of a monitor after an attempt with its answer. -/
def attempted (M : Monitor (CallRequest P) (CallAnswer P R) S) (s : S) (request : JsonRpcRequest P)
    (answer : Except RpcError R) : S :=
  M.next (M.next s .requestId request.id) (.tryCall request) answer

/-- The monitor allows a call from every state that is ready for it, and is ready again after
each failure that may pass. -/
structure AllowsCall (M : Monitor (CallRequest P) (CallAnswer P R) S) (config : RetryConfig)
    (method : String) (params : P) (ready : S → Prop) : Prop where
  requestId : ∀ s, ready s → M.allows s .requestId
  tryCall : ∀ s id, ready s →
    M.allows (M.next s .requestId id) (.tryCall ⟨"2.0", id, method, params⟩)
  sleep : ∀ s id e ms, ready s → e.isRetryable = true → 0 < config.maxRetries →
    M.allows (attempted M s ⟨"2.0", id, method, params⟩ (.error e)) (.sleep ms) ∧
    ready (M.next (attempted M s ⟨"2.0", id, method, params⟩ (.error e)) (.sleep ms) ())

/-- The answer to any attempt may be the result of a call. -/
theorem AllowsCall.callLoop_obeys {config : RetryConfig} {method : String} {params : P}
    {ready : S → Prop} (h : AllowsCall M config method params ready)
    {post : S → Option (Except RpcError R) → Prop}
    (hpost : ∀ s id answer, ready s →
      post (attempted M s ⟨"2.0", id, method, params⟩ answer) (some answer))
    (hnone : ∀ s, post s none) (left : ℕ) (attempt : UInt32) {s : S} (hs : ready s) :
    (callLoop config method params left attempt).Obeys M post s := by
  induction left generalizing attempt s with
  | zero => exact hnone s
  | succ left ih =>
    refine ⟨h.requestId s hs, fun id => ⟨h.tryCall s id hs, fun answer => ?_⟩⟩
    cases answer with
    | ok result => exact hpost s id (.ok result) hs
    | error e =>
      by_cases hagain : e.isRetryable = true ∧ attempt < config.totalAttempts - 1
      · have hlt : attempt < config.maxRetries := by
          have hlast := hagain.2
          rwa [RetryConfig.totalAttempts, UInt32.add_sub_cancel] at hlast
        have hpos : 0 < config.maxRetries := UInt32.lt_of_le_of_lt UInt32.zero_le hlt
        obtain ⟨hsleep, hready⟩ := h.sleep s id e (config.delay attempt) hs hagain.1 hpos
        simp only [if_pos hagain]
        exact ⟨hsleep, fun _ => ih (attempt + 1) hready⟩
      · simp only [if_neg hagain]
        exact hpost s id (.error e) hs

end
end RpcClient

/-- The transaction travels as base64. -/
structure SendTxParams where
  signedTx : SignedTransaction
  waitUntil : TxExecutionStatus
  deriving DecidableEq

def RpcClient.sendTx [Crates] (config : RetryConfig) (signedTx : SignedTransaction)
    (waitUntil : TxExecutionStatus) : Call SendTxParams RawTransactionResponse :=
  match signedTx.getHash with
  | .error _ => .done none
  | .ok txHash =>
    (call config "send_tx" ⟨signedTx, waitUntil⟩).map
      (Option.map (Except.map fun response => { response with transactionHash := txHash }))

theorem RpcClient.sendTx_eq [Crates] (config : RetryConfig) {tx : SignedTransaction}
    (status : TxExecutionStatus) {txHash : CryptoHash} (h : tx.getHash = .ok txHash) :
    sendTx config tx status = (call config "send_tx" ⟨tx, status⟩).map
      (Option.map (Except.map fun response => { response with transactionHash := txHash })) := by
  unfold sendTx
  rw [h]

/-! ## Sends over the RPC client -/

/-- The requests of a send whose `send_tx` calls are carried out by the RPC client. -/
inductive WireRequest where
  | client (q : Request)
  | rpc (q : CallRequest SendTxParams)
  deriving DecidableEq

@[reducible] def WireAnswer : WireRequest → Type
  | .client q => Answer q
  | .rpc q => CallAnswer SendTxParams RawTransactionResponse q

/-- How each request of an operation is carried out. -/
def RpcClient.wire [Crates] (config : RetryConfig) :
    (q : Request) → Process WireRequest WireAnswer (Option (Answer q))
  | .sendTx signedTx waitUntil =>
    (sendTx config signedTx waitUntil).expand (fun q => .ask (.rpc q) fun a => .done (some a)) none
  | q => .ask (.client q) fun a => .done (some a)

/-- What a monitor of the wire sees of a `send_tx` call. -/
def Monitor.onRpc {S : Type} (M : Monitor WireRequest WireAnswer S) :
    Monitor (CallRequest SendTxParams) (CallAnswer SendTxParams RawTransactionResponse) S where
  start := M.start
  allows s q := M.allows s (.rpc q)
  next s q a := M.next s (.rpc q) a

/-- A `send_tx` obeys a monitor that allows its call. -/
theorem RpcClient.AllowsCall.wire_sendTx_obeys [Crates] {S : Type}
    {M : Monitor WireRequest WireAnswer S} {config : RetryConfig} {tx : SignedTransaction}
    {status : TxExecutionStatus} {ready : S → Prop}
    (h : AllowsCall M.onRpc config "send_tx" ⟨tx, status⟩ ready)
    {post : S → Option (Except RpcError RawTransactionResponse) → Prop}
    (hpost : ∀ s id answer (txHash : CryptoHash), ready s →
      post (attempted M.onRpc s ⟨"2.0", id, "send_tx", ⟨tx, status⟩⟩ answer)
        (some (answer.map fun response => { response with transactionHash := txHash })))
    (hnone : ∀ s, post s none) {s : S} (hs : ready s) :
    (RpcClient.wire config (.sendTx tx status)).Obeys M post s := by
  have hsend : (sendTx config tx status).Obeys M.onRpc post s := by
    cases hhash : tx.getHash with
    | error e =>
      unfold sendTx
      rw [hhash]
      exact hnone s
    | ok txHash =>
      rw [sendTx_eq config status hhash]
      have hcall : (call config "send_tx" ⟨tx, status⟩).Obeys M.onRpc (fun s r => post s (r.map
          (Except.map fun response => { response with transactionHash := txHash }))) s := by
        refine h.callLoop_obeys ?_ ?_ _ 0 hs
        · exact fun s id answer hs => hpost s id answer txHash hs
        · exact hnone
      exact hcall.map
  refine hsend.expand_or_abort Eq ?_ ?_ rfl
  · rintro s _ q rfl ha
    refine ⟨ha, fun a => ⟨?_, nofun⟩⟩
    rintro _ ⟨⟩
    rfl
  · rintro s _ r rfl hr
    exact hr

/-- `TransactionSend::into_future` down to the attempts on the transport. -/
def TransactionSend.overRpc [Crates] (config : RetryConfig) (t : TransactionSend) :
    Process WireRequest WireAnswer (Exit SendResponse) :=
  t.intoFuture.expand (RpcClient.wire config) .panic

end NearKit
