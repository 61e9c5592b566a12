import NearKit.RpcCalls
import NearKit.RpcErrorParsing
import NearKit.WasiExchanges

/-!
# Calls over WASI

The retry loop of the RPC client over exchanges with a WASI host: every attempt writes the
request to the host and reads the result from its response.
-/
namespace NearKit
open Borsh

/-! ## Texts of bodies -/

namespace Utf8

def between (low high b : UInt8) : Bool := decide (low ≤ b ∧ b ≤ high)

def isContinuation : UInt8 → Bool := between 0x80 0xBF

/-- What has to follow the first byte of a character. -/
def followers (b : UInt8) : Option (List (UInt8 → Bool)) :=
  if b < 0x80 then some []
  else if between 0xC2 0xDF b then some [isContinuation]
  else if b = 0xE0 then some [between 0xA0 0xBF, isContinuation]
  else if b = 0xED then some [between 0x80 0x9F, isContinuation]
  else if between 0xE1 0xEF b then some [isContinuation, isContinuation]
  else if b = 0xF0 then some [between 0x90 0xBF, isContinuation, isContinuation]
  else if b = 0xF4 then some [between 0x80 0x8F, isContinuation, isContinuation]
  else if between 0xF1 0xF3 b then some [isContinuation, isContinuation, isContinuation]
  else none

/-- How many of the bytes follow as they have to. -/
def matching : List (UInt8 → Bool) → Bytes → ℕ
  | p :: ps, b :: bs => if p b then matching ps bs + 1 else 0
  | _, _ => 0

def replacement : Char := '\uFFFD'

/-- Characters, with a replacement for each sequence that breaks off. -/
def lossyChars : ℕ → Bytes → List Char
  | n + 1, b :: rest =>
    match followers b with
    | none => replacement :: lossyChars n rest
    | some ps =>
      let k := matching ps rest
      let chars := if k = ps.length then
          ((Codec.fromUtf8 (b :: rest.take k)).map String.toList).getD []
        else [replacement]
      chars ++ lossyChars n (rest.drop k)
  | _, _ => []

end Utf8

def fromUtf8Lossy (bytes : Bytes) : String :=
  (Codec.fromUtf8 bytes).getD (String.ofList (Utf8.lossyChars bytes.length bytes))

example : fromUtf8Lossy [0x61, 0xE2, 0x82, 0x62, 0xFF] = "a\uFFFDb\uFFFD" := by decide

namespace WasiHttp

/-! ## One attempt -/

inductive WasiRequest where
  | requestId
  | sleep (ms : UInt64)
  | host (call : HostCall)

@[reducible] def WasiAnswer : WasiRequest → Type
  | .requestId => UInt64
  | .sleep _ => Unit
  | .host call => HostAnswer call

/-- Where and how calls are made: requests are written by `serde_json`, results decoded. -/
structure Endpoint (P R : Type) where
  url : List Char
  toVec : JsonRpcRequest P → Except String Bytes
  decode : Json.Decoder R

variable {P R : Type} [RpcCrates]

namespace Endpoint
variable (endpoint : Endpoint P R) (fuel : ℕ)

/-- `try_call`, from the response on. -/
def read (method : String) (response : TransportResponse) : Except RpcError R :=
  (RpcClient.tryCall method endpoint.decode response.status (fromUtf8Lossy response.body)).mapError
    AtBlock.error

def tryCall (request : JsonRpcRequest P) :
    Process WasiRequest WasiAnswer (Option (Except RpcError R)) :=
  match endpoint.toVec request with
  | .error message => .done (some (.error (.json message)))
  | .ok requestBody =>
    ((exchange fuel endpoint.url requestBody).expand
        (fun q => .ask (.host q) fun a => .done (some a)) none).map
      (Option.map fun response => response.bind (endpoint.read request.method))

/-- How the requests of a call are carried out. -/
def carry : (q : CallRequest P) → Process WasiRequest WasiAnswer (Option (CallAnswer P R q))
  | .requestId => .ask .requestId fun id => .done (some id)
  | .sleep ms => .ask (.sleep ms) fun _ => .done (some ())
  | .tryCall request => endpoint.tryCall fuel request

/-- `RpcClient::call` down to the calls of the host. -/
def call (config : RetryConfig) (method : String) (params : P) :
    Process WasiRequest WasiAnswer (Option (Except RpcError R)) :=
  (RpcClient.call config method params).expand (endpoint.carry fuel) none

end Endpoint

/-! ## What a call says to the host -/

/-- Only the requests to the host have resources. -/
def callOwnership : Ownership WasiRequest WasiAnswer Resource where
  parent := Resource.parent
  usage
    | .host call => call.usage
    | _ => ⟨[], [], []⟩
  started
    | .host call, a => call.started a
    | .requestId, _ => []
    | .sleep _, _ => []
  started_sublist q a := by
    cases q with
    | host call => exact ownership.started_sublist call a
    | requestId => exact List.Sublist.refl _
    | sleep ms => exact List.Sublist.refl _

/-- The id of the last attempt, and what it has said and heard. -/
structure CallState where
  id : Option UInt64
  dialogue : Dialogue

section
variable (endpoint : Endpoint P R) (fuel : ℕ) (method : String) (params : P)

omit [RpcCrates] in
/-- The host is told what belongs to the request of the last attempt. -/
def callMonitor : Monitor WasiRequest WasiAnswer CallState where
  start := ⟨none, .new⟩
  allows s
    | .host call => ∃ id requestBody, s.id = some id ∧
        endpoint.toVec ⟨"2.0", id, method, params⟩ = .ok requestBody ∧
        s.dialogue.Allows endpoint.url requestBody call
    | _ => True
  next s
    | .requestId, id => ⟨some id, .new⟩
    | .sleep _, _ => s
    | .host call, a => { s with dialogue := s.dialogue.next call a }

/-- The answer to an attempt is what its dialogue says. -/
def Answers (s : CallState) (answer : Except RpcError R) : Prop :=
  ∃ id, s.id = some id ∧ match endpoint.toVec ⟨"2.0", id, method, params⟩ with
    | .error message => answer = .error (.json message)
    | .ok requestBody => ∃ response, s.dialogue.Explains endpoint.url requestBody fuel (some response) ∧
        answer = response.bind (endpoint.read method)

/-- The host was still delivering a response when the fuel ran out. -/
def Delivering (s : CallState) : Prop := s.dialogue.reads = fuel ∧ s.dialogue.closed = false

end

section
variable {endpoint : Endpoint P R} {fuel : ℕ} {method : String} {params : P}

/-- The monitor of the retry loop: the id that was drawn, and the answer to its attempt. -/
def loopMonitor (method : String) (params : P) :
    Monitor (CallRequest P) (CallAnswer P R) (Option UInt64 × Option (Except RpcError R)) where
  start := (none, none)
  allows s
    | .tryCall request => ∃ id, s = (some id, none) ∧ request = ⟨"2.0", id, method, params⟩
    | _ => True
  next s
    | .requestId, id => (some id, none)
    | .tryCall _, answer => (s.1, some answer)
    | .sleep _, _ => s

omit [RpcCrates] in
/-- The loop returns the answer to its last attempt, unless it makes none. -/
theorem callLoop_obeys (config : RetryConfig) {left : ℕ} {attempt : UInt32}
    (hleft : attempt.toNat + left = config.totalAttempts.toNat)
    (s : Option UInt64 × Option (Except RpcError R)) :
    (RpcClient.callLoop config method params left attempt : Call P R).Obeys
      (loopMonitor method params) (fun s r => (∃ answer, r = some answer ∧ s.2 = some answer) ∨ r = none ∧ left = 0)
      s := by
  induction left generalizing attempt s with
  | zero => exact .inr ⟨rfl, rfl⟩
  | succ left ih =>
    refine ⟨trivial, fun id => ⟨⟨id, rfl, rfl⟩, fun answer => ?_⟩⟩
    cases answer with
    | ok result => exact .inl ⟨_, rfl, rfl⟩
    | error e =>
      by_cases hretry : e.isRetryable = true ∧ attempt < config.totalAttempts - 1
      · simp only [if_pos hretry]
        refine ⟨trivial, fun _ => ?_⟩
        have htoNat : (1 : UInt32).toNat = 1 := rfl
        have hone : (1 : UInt32).toNat ≤ config.totalAttempts.toNat := by omega
        have hlt := UInt32.lt_iff_toNat_lt.mp hretry.2
        rw [UInt32.toNat_sub_of_le _ _ (UInt32.le_iff_toNat_le.mpr hone)] at hlt
        have hnext : (attempt + 1).toNat = attempt.toNat + 1 := by
          have hbound := config.totalAttempts.toNat_lt
          rw [UInt32.toNat_add]
          exact Nat.mod_eq_of_lt (by omega)
        apply (ih (by omega) _).imp
        intro s r hr
        rcases hr with hr | ⟨-, hzero⟩
        · exact .inl hr
        · omega
      · simp only [if_neg hretry]
        exact .inl ⟨_, rfl, rfl⟩

/-- The monitor of a whole call. -/
abbrev wasiMonitor (endpoint : Endpoint P R) (method : String) (params : P) :
    Monitor WasiRequest WasiAnswer (List Resource × CallState) :=
  callOwnership.monitor.prod (callMonitor endpoint method params)

/-- What the result of a call says about its last attempt. -/
def Accounts (endpoint : Endpoint P R) (fuel : ℕ) (config : RetryConfig) (method : String) (params : P)
    (s : CallState) : Option (Except RpcError R) → Prop
  | some answer => Answers endpoint fuel method params s answer
  | none => config.totalAttempts = 0 ∨ Delivering fuel s

/-- The two levels of a call agree: nothing is alive between attempts, and the answer to the
last attempt is what its dialogue says. -/
structure Agrees (endpoint : Endpoint P R) (fuel : ℕ) (method : String) (params : P)
    (s : Option UInt64 × Option (Except RpcError R)) (s' : List Resource × CallState) : Prop where
  alive : s'.1 = []
  id : s'.2.id = s.1
  new : s.2 = none → s'.2.dialogue = .new
  answers : ∀ answer, s.2 = some answer → Answers endpoint fuel method params s'.2 answer

omit [RpcCrates] in
/-- The exchange of an attempt, as part of the call. -/
theorem exchange_obeys_call {id : UInt64} {requestBody : Bytes}
    (hbody : endpoint.toVec ⟨"2.0", id, method, params⟩ = .ok requestBody) :
    ((exchange fuel endpoint.url requestBody).expand
        (fun q => .ask (.host q) fun a => .done (some a)) none).Obeys
      (wasiMonitor endpoint method params)
      (fun s r => (r ≠ none → s.1 = []) ∧ s.2.id = some id ∧
        s.2.dialogue.Explains endpoint.url requestBody fuel r) ([], ⟨some id, .new⟩) := by
  let Same (s : List Resource × Dialogue) (s' : List Resource × CallState) : Prop :=
    s' = (s.1, ⟨some id, s.2⟩)
  refine (exchange_obeys fuel endpoint.url requestBody).expand_or_abort Same ?_ ?_ rfl
  · intro s s' q hs hq
    subst hs
    refine ⟨⟨hq.1, id, requestBody, rfl, hbody, hq.2⟩, fun a => ⟨?_, fun h => by cases h⟩⟩
    intro a' ha'
    cases ha'
    rfl
  · intro s s' r hs hr
    subst hs
    exact ⟨hr.1, rfl, hr.2⟩

private theorem carry_obeys (config : RetryConfig) {s : Option UInt64 × Option (Except RpcError R)}
    {s' : List Resource × CallState} (h : Agrees endpoint fuel method params s s') {q : CallRequest P}
    (hq : (loopMonitor (R := R) method params).allows s q) :
    (endpoint.carry fuel q).Obeys (wasiMonitor endpoint method params)
      (fun s' r => (∀ a, r = some a →
          Agrees endpoint fuel method params ((loopMonitor (R := R) method params).next s q a) s') ∧
        (r = none → Accounts endpoint fuel config method params s'.2 none)) s' := by
  obtain ⟨alive, st⟩ := s'
  obtain ⟨halive, hid, hnew, hanswers⟩ := h
  cases halive
  cases q with
  | requestId =>
    refine ⟨⟨Usage.inOrder_nil _ _, trivial⟩, fun id => ⟨?_, fun h => by cases h⟩⟩
    intro a ha
    cases ha
    exact ⟨rfl, rfl, fun _ => rfl, fun _ h => by cases h⟩
  | sleep ms =>
    refine ⟨⟨Usage.inOrder_nil _ _, trivial⟩, fun _ => ⟨?_, fun h => by cases h⟩⟩
    intro a ha
    cases ha
    exact ⟨rfl, hid, hnew, hanswers⟩
  | tryCall request =>
    obtain ⟨id, rfl, rfl⟩ := hq
    obtain ⟨id', dialogue⟩ := st
    cases hid
    cases hnew rfl
    show (endpoint.tryCall fuel _).Obeys _ _ _
    unfold Endpoint.tryCall
    cases hbody : endpoint.toVec ⟨"2.0", id, method, params⟩ with
    | error message =>
      refine ⟨?_, fun h => by cases h⟩
      intro a ha
      cases ha
      refine ⟨rfl, rfl, fun h => by (cases h), ?_⟩
      intro answer ha
      cases ha
      refine ⟨id, rfl, ?_⟩
      rw [hbody]
    | ok requestBody =>
      apply Process.Obeys.map
      apply (exchange_obeys_call hbody).imp
      intro s r hr
      obtain ⟨halive, hid, hexplains⟩ := hr
      cases r with
      | none => exact ⟨fun _ h => (by cases h), fun _ => .inr hexplains⟩
      | some response =>
        refine ⟨?_, fun h => by cases h⟩
        intro a ha
        cases ha
        refine ⟨halive (Option.some_ne_none _), hid, fun h => by (cases h), ?_⟩
        intro answer ha
        cases ha
        refine ⟨id, hid, ?_⟩
        rw [hbody]
        exact ⟨response, hexplains, rfl⟩

private theorem call_obeys (config : RetryConfig) : (endpoint.call fuel config method params).Obeys
    (wasiMonitor endpoint method params)
    (fun s r => (r ≠ none → s.1 = []) ∧ Accounts endpoint fuel config method params s.2 r)
    ([], ⟨none, .new⟩) := by
  have hloop : (RpcClient.call config method params : Call P R).Obeys (loopMonitor method params)
      (fun s r => (∃ answer, r = some answer ∧ s.2 = some answer) ∨
        r = none ∧ config.totalAttempts.toNat = 0) (none, none) :=
    callLoop_obeys config (Nat.zero_add _) _
  refine hloop.expand_or_abort (Agrees endpoint fuel method params) ?_ ?_ ?_
  · intro s s' q hs hq
    apply (carry_obeys config hs hq).imp
    intro s' r hr
    exact ⟨hr.1, fun h => ⟨fun hsome => absurd rfl hsome, hr.2 h⟩⟩
  · intro s s' r hs hr
    refine ⟨fun _ => hs.alive, ?_⟩
    rcases hr with ⟨answer, rfl, hanswer⟩ | ⟨rfl, hzero⟩
    · exact hs.answers answer hanswer
    · exact .inl (UInt32.toNat_inj.mp hzero)
  · exact ⟨rfl, rfl, fun _ => rfl, fun _ h => by cases h⟩

/-- In every run of a call with any host, over all its attempts: resources are used while they
are alive, each child is ended before its parent, and each is ended as often as it is started;
the host is told exactly what belongs to the request of the attempt; and the result is what
the host answered to the last attempt. A call without a result has made no attempt, or the
host goes on to deliver. -/
theorem wasi_calls {σ : Type} {H : σ → (q : WasiRequest) → WasiAnswer q → σ → Prop}
    (endpoint : Endpoint P R) (fuel : ℕ) (config : RetryConfig) (method : String) (params : P) {s s' : σ}
    {tr : List (Exchange WasiRequest WasiAnswer)} {r : Option (Except RpcError R)}
    (run : Completes H s (endpoint.call fuel config method params) tr s' r) :
    callOwnership.monitor.Accepts [] tr ∧
      (r ≠ none → ∀ resource,
        callOwnership.startedCount resource tr = callOwnership.endedCount resource tr) ∧
      (callMonitor endpoint method params).Accepts ⟨none, .new⟩ tr ∧
      Accounts endpoint fuel config method params
        ((callMonitor endpoint method params).run ⟨none, .new⟩ tr) r := by
  obtain ⟨haccepts, hpost⟩ := run.accepts (call_obeys config)
  obtain ⟨howned, hsaid, hrun⟩ := Monitor.accepts_prod haccepts
  rw [hrun] at hpost
  refine ⟨howned, ?_, hsaid, hpost.2⟩
  intro hr resource
  have hended : callOwnership.monitor.run [] tr = [] := hpost.1 hr
  have hcount := Ownership.count_run List.nodup_nil howned resource
  rw [hended, List.count_nil] at hcount
  omega

end

/-! ### A call that is answered in two chunks -/

omit [RpcCrates]

def sampleRequestText : String :=
  "\x7b\"jsonrpc\":\"2.0\",\"id\":0,\"method\":\"gas_price\",\"params\":[null]\x7d"

def sampleResponseText : String :=
  "\x7b\"jsonrpc\":\"2.0\",\"id\":0,\"result\":\x7b\"gas_price\":\"100000000\"\x7d\x7d"

def sampleResponseJson : Json :=
  .object [("jsonrpc", .string "2.0"), ("id", .number (.posInt 0)),
    ("result", .object [("gas_price", .string "100000000")])]

def sampleEndpoint : Endpoint Unit Json where
  url := "http://localhost:3030".toList
  toVec _ := .ok (Codec.utf8 sampleRequestText)
  decode := .ok

/-- The answers to the requests of the call, by how many were made before. -/
def sampleAnswer (n : ℕ) : (q : WasiRequest) → WasiAnswer q
  | .requestId => 0
  | .sleep _ => ()
  | .host call => match call with
    | .status => 200
    | .getResponse => some (.ok (.ok ()))
    | .blockingRead _ =>
      if n < 21 then .ok ((Codec.utf8 sampleResponseText).take 10)
      else if n < 22 then .ok ((Codec.utf8 sampleResponseText).drop 10)
      else .error .closed
    | .fieldsFromList _ => .ok ()
    | .setMethodPost | .setScheme _ | .setAuthority _ | .setPathWithQuery _ => .ok ()
    | .requestBody | .write | .consume | .stream => .ok ()
    | .handle | .finishOutgoing => .ok ()
    | .blockingWriteAndFlush _ => .ok ()
    | .toDebugString => ""
    | .newRequest | .subscribe | .block | .finishIncoming | .drop _ => ()

def sampleResult : Json := .object [("gas_price", .string "100000000")]

theorem wasi_calls_sample :
    letI := RpcCrates.reading sampleResponseText sampleResponseJson
    ∃ tr n, Completes (Scripts sampleAnswer) 0
        (sampleEndpoint.call 3 ⟨3, 100, 1000⟩ "gas_price" ()) tr n (some (.ok sampleResult)) ∧
      callOwnership.monitor.Accepts [] tr ∧
      callOwnership.startedCount .inputStream tr = callOwnership.endedCount .inputStream tr ∧
      Accounts sampleEndpoint 3 ⟨3, 100, 1000⟩ "gas_price" ()
        ((callMonitor sampleEndpoint "gas_price" ()).run ⟨none, .new⟩ tr) (some (.ok sampleResult)) := by
  let _ := RpcCrates.reading sampleResponseText sampleResponseJson
  have hresult : ((sampleEndpoint.call 3 ⟨3, 100, 1000⟩ "gas_price" ()).play sampleAnswer 0).2.2 =
      some (.ok sampleResult) := by
    rfl
  have hrun := Process.completes_play sampleAnswer 0 (sampleEndpoint.call 3 ⟨3, 100, 1000⟩ "gas_price" ())
  rw [hresult] at hrun
  obtain ⟨howned, hbalanced, -, haccounts⟩ := wasi_calls sampleEndpoint 3 ⟨3, 100, 1000⟩ "gas_price" () hrun
  exact ⟨_, _, hrun, howned, hbalanced (Option.some_ne_none _) _, haccounts⟩

end WasiHttp
end NearKit
