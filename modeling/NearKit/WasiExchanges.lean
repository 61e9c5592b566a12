import NearKit.OwnedResources
import NearKit.WasiUrls

/-!
# Exchanges with a WASI host

One request and its response over `wasi:http`. The guest asks the host for resources, writes
the body in chunks, waits, and reads the response until its stream is closed. Locals are
dropped where the code leaves their scope, on errors as well.
-/
namespace NearKit
namespace WasiHttp
open Borsh

/-! ## The host -/

inductive Resource where
  | fields | request | outgoingBody | outputStream | futureResponse | pollable | response
  | incomingBody | inputStream | futureTrailers | ioError
  deriving DecidableEq

/-- The codes that say the request itself is unacceptable, and all others by name. -/
inductive ErrorCode where
  | httpRequestDenied | httpRequestLengthRequired | httpRequestBodySize | httpRequestMethodInvalid
  | httpRequestUriInvalid | httpRequestUriTooLong | httpRequestHeaderSectionSize
  | httpRequestHeaderSize | httpRequestTrailerSectionSize | httpRequestTrailerSize
  | loopDetected | configurationError
  | other (name : String)
  deriving DecidableEq

def ErrorCode.isRetryable : ErrorCode → Bool
  | other _ => true
  | _ => false

/-- An error code with its `Debug` text. -/
structure HostFailure where
  code : ErrorCode
  debug : String
  deriving DecidableEq

/-- The error of a failed operation is a resource of its own. -/
inductive StreamError where
  | closed
  | lastOperationFailed
  deriving DecidableEq

/-- The calls of `wasi:http` and `wasi:io` that an exchange makes. -/
inductive HostCall where
  | fieldsFromList (entries : List (String × Bytes))
  | newRequest
  | setMethodPost
  | setScheme (scheme : Scheme)
  | setAuthority (authority : List Char)
  | setPathWithQuery (path : List Char)
  | requestBody
  | handle
  | write
  | blockingWriteAndFlush (chunk : Bytes)
  | finishOutgoing
  | subscribe
  | block
  | getResponse
  | status
  | consume
  | stream
  | blockingRead (len : UInt64)
  | finishIncoming
  | toDebugString
  | drop (resource : Resource)
  deriving DecidableEq

@[reducible] def HostAnswer : HostCall → Type
  /- The `Debug` text of the `HeaderError`. -/
  | .fieldsFromList _ => Except String Unit
  | .setMethodPost | .setScheme _ | .setAuthority _ | .setPathWithQuery _ => Except Unit Unit
  | .requestBody | .write | .consume | .stream => Except Unit Unit
  | .handle | .finishOutgoing => Except HostFailure Unit
  | .blockingWriteAndFlush _ => Except StreamError Unit
  | .getResponse => Option (Except Unit (Except HostFailure Unit))
  | .status => UInt16
  | .blockingRead _ => Except StreamError Bytes
  | .toDebugString => String
  | .newRequest | .subscribe | .block | .finishIncoming | .drop _ => Unit

/-! ## The exchange -/

structure TransportResponse where
  status : UInt16
  body : Bytes
  deriving DecidableEq

/-- An exchange ends with its result, or with none where the host goes on to deliver. -/
abbrev ExchangeProcess := Process HostCall HostAnswer (Option (Except RpcError TransportResponse))

def writeChunk : ℕ := 4096

def readChunk : UInt64 := 16 * 1024

def chunks (size : ℕ) (bytes : Bytes) : List Bytes :=
  (List.range ((bytes.length + size - 1) / size)).map fun i => (bytes.drop (i * size)).take size

theorem flatten_chunks_take (size : ℕ) (bytes : Bytes) (n : ℕ) :
    ((List.range n).map fun i => (bytes.drop (i * size)).take size).flatten = bytes.take (n * size) := by
  induction n with
  | zero => simp
  | succ n ih =>
    rw [List.range_succ, List.map_append, List.flatten_append, ih, Nat.succ_mul, List.take_add]
    simp

private theorem flatten_chunks {size : ℕ} (h : 0 < size) (bytes : Bytes) :
    (chunks size bytes).flatten = bytes := by
  rw [chunks, flatten_chunks_take]
  apply List.take_of_length_le
  have hdiv := Nat.div_add_mod (bytes.length + size - 1) size
  have hmod := Nat.mod_lt (bytes.length + size - 1) h
  rw [Nat.mul_comm] at hdiv
  omega

private theorem mem_chunks {size : ℕ} {bytes chunk : Bytes} (h : chunk ∈ chunks size bytes) :
    chunk ≠ [] ∧ chunk.length ≤ size := by
  obtain ⟨i, hi, rfl⟩ := List.mem_map.mp h
  have hlt := List.mem_range.mp hi
  have hsize : 0 < size := by
    rcases Nat.eq_zero_or_pos size with rfl | hpos
    · simp at hlt
    · exact hpos
  have hbound : i * size < bytes.length := by
    have hmul := (Nat.le_div_iff_mul_le hsize).mp (Nat.succ_le_of_lt hlt)
    rw [Nat.succ_mul] at hmul
    omega
  have hlength : ((bytes.drop (i * size)).take size).length = min size (bytes.length - i * size) := by
    rw [List.length_take, List.length_drop]
  constructor
  · apply List.ne_nil_of_length_pos
    omega
  · omega

/-- An early return: the locals are dropped in this order. -/
def fail (error : RpcError) : List Resource → ExchangeProcess
  | [] => .done (some (.error error))
  | resource :: rest => .ask (.drop resource) fun _ => fail error rest

def hostError (what : String) (failure : HostFailure) : RpcError :=
  .network s!"wasi:http {what}: {failure.debug}" none failure.code.isRetryable

/-- `stream_err`, which drops the error. -/
def streamErr (e : StreamError) (resume : String → ExchangeProcess) : ExchangeProcess :=
  match e with
  | .closed => resume "stream closed"
  | .lastOperationFailed =>
    .ask .toDebugString fun text => .ask (.drop .ioError) fun _ => resume text

def headerList (parts : UrlParts) (body : Bytes) : List (String × Bytes) :=
  [("content-type", Codec.utf8 "application/json"),
    ("content-length", Codec.utf8 (toString body.length))] ++
  (parts.authorization.map fun value => ("authorization", value)).toList

/-- The loop that writes the body. -/
def writeBody (resume : ExchangeProcess) : List Bytes → ExchangeProcess
  | [] => resume
  | chunk :: rest => .ask (.blockingWriteAndFlush chunk) fun
    | .ok _ => writeBody resume rest
    | .error e => streamErr e fun text =>
      fail (.network s!"wasi:http request body write failed: {text}" none true)
        [.outputStream, .futureResponse, .outgoingBody]

/-- The loop that reads the response, for as many chunks as there is fuel. -/
def readBody (resume : Bytes → ExchangeProcess) : ℕ → Bytes → ExchangeProcess
  | 0, _ => .done none
  | fuel + 1, buf => .ask (.blockingRead readChunk) fun
    | .ok chunk => readBody resume fuel (buf ++ chunk)
    | .error .closed => resume buf
    | .error .lastOperationFailed => streamErr .lastOperationFailed fun text =>
      fail (.network s!"wasi:http response body read failed: {text}" none true)
        [.inputStream, .incomingBody, .response, .futureResponse]

/-- `exchange`, from the response on. -/
def receiveResponse (fuel : ℕ) : ExchangeProcess :=
  .ask .status fun status =>
  .ask .consume fun
  | .error _ => fail (.network "wasi:http response body already consumed" none false)
      [.response, .futureResponse]
  | .ok _ => .ask .stream fun
    | .error _ => fail (.network "wasi:http response body stream unavailable" none false)
        [.incomingBody, .response, .futureResponse]
    | .ok _ => readBody (fun buf =>
        .ask (.drop .inputStream) fun _ =>
        .ask .finishIncoming fun _ =>
        .ask (.drop .futureTrailers) fun _ =>
        .ask (.drop .response) fun _ =>
        .ask (.drop .futureResponse) fun _ =>
        .done (some (.ok ⟨status, buf⟩))) fuel []

/-- `exchange`, from the pollable on. -/
def awaitResponse (fuel : ℕ) : ExchangeProcess :=
  .ask .subscribe fun _ =>
  .ask .block fun _ =>
  .ask (.drop .pollable) fun _ =>
  .ask .getResponse fun
  | some (.ok (.ok _)) => receiveResponse fuel
  | some (.ok (.error failure)) => fail (hostError "request failed" failure) [.futureResponse]
  | some (.error _) => fail (.network "wasi:http response consumed twice" none false)
      [.futureResponse]
  | none => fail (.network "wasi:http response not ready after blocking" none true)
      [.futureResponse]

/-- `exchange`, from the dispatch on. -/
def dispatch (fuel : ℕ) (body : Bytes) : ExchangeProcess :=
  .ask .handle fun
  | .error failure => fail (hostError "dispatch failed" failure) [.outgoingBody]
  | .ok _ => .ask .write fun
    | .error _ => fail (.network "wasi:http request body stream unavailable" none false)
        [.futureResponse, .outgoingBody]
    | .ok _ => writeBody
        (.ask (.drop .outputStream) fun _ =>
        .ask .finishOutgoing fun
        | .error failure => fail (hostError "finishing request body failed" failure)
            [.futureResponse]
        | .ok _ => awaitResponse fuel)
        (chunks writeChunk body)

def exchange (fuel : ℕ) (url : List Char) (body : Bytes) : ExchangeProcess :=
  match splitUrl url with
  | none => .done none
  | some (.error e) => .done (some (.error e))
  | some (.ok parts) =>
    .ask (.fieldsFromList (headerList parts body)) fun
    | .error debug =>
      fail (.network s!"wasi:http rejected request headers: {debug}" none false) []
    | .ok _ =>
      .ask .newRequest fun _ =>
      .ask .setMethodPost fun
      | .error _ => fail (.network "wasi:http rejected method POST" none false) [.request]
      | .ok _ => .ask (.setScheme parts.scheme) fun
        | .error _ => fail (invalidUrl url "unsupported scheme") [.request]
        | .ok _ => .ask (.setAuthority parts.authority) fun
          | .error _ => fail (invalidUrl url "invalid authority") [.request]
          | .ok _ => .ask (.setPathWithQuery parts.pathWithQuery) fun
            | .error _ => fail (invalidUrl url "invalid path") [.request]
            | .ok _ => .ask .requestBody fun
              | .error _ => fail (.network "wasi:http request body already taken" none false)
                  [.request]
              | .ok _ => dispatch fuel body

/-! ## What the host sees -/

namespace HostCall

def usage : HostCall → Usage Resource
  | fieldsFromList _ => ⟨[], [], [.fields]⟩
  | newRequest => ⟨[], [.fields], [.request]⟩
  | setMethodPost | setScheme _ | setAuthority _ | setPathWithQuery _ => ⟨[.request], [], []⟩
  | requestBody => ⟨[.request], [], [.outgoingBody]⟩
  | handle => ⟨[], [.request], [.futureResponse]⟩
  | write => ⟨[.outgoingBody], [], [.outputStream]⟩
  | blockingWriteAndFlush _ => ⟨[.outputStream], [], [.ioError]⟩
  | finishOutgoing => ⟨[], [.outgoingBody], []⟩
  | subscribe => ⟨[.futureResponse], [], [.pollable]⟩
  | block => ⟨[.pollable], [], []⟩
  | getResponse => ⟨[.futureResponse], [], [.response]⟩
  | status => ⟨[.response], [], []⟩
  | consume => ⟨[.response], [], [.incomingBody]⟩
  | stream => ⟨[.incomingBody], [], [.inputStream]⟩
  | blockingRead _ => ⟨[.inputStream], [], [.ioError]⟩
  | finishIncoming => ⟨[], [.incomingBody], [.futureTrailers]⟩
  | toDebugString => ⟨[.ioError], [], []⟩
  | drop resource => ⟨[], [resource], []⟩

/-- What the answer gives to the guest. -/
def started : (q : HostCall) → HostAnswer q → List Resource
  | fieldsFromList _, .ok _ => [.fields]
  | newRequest, _ => [.request]
  | requestBody, .ok _ => [.outgoingBody]
  | handle, .ok _ => [.futureResponse]
  | write, .ok _ => [.outputStream]
  | blockingWriteAndFlush _, .error .lastOperationFailed => [.ioError]
  | subscribe, _ => [.pollable]
  | getResponse, some (.ok (.ok _)) => [.response]
  | consume, .ok _ => [.incomingBody]
  | stream, .ok _ => [.inputStream]
  | blockingRead _, .error .lastOperationFailed => [.ioError]
  | finishIncoming, _ => [.futureTrailers]
  | _, _ => []

end HostCall

/-- The streams and the pollable are children of what they were asked of. -/
def Resource.parent : Resource → Option Resource
  | outputStream => some outgoingBody
  | inputStream => some incomingBody
  | pollable => some futureResponse
  | _ => none

def ownership : Ownership HostCall HostAnswer Resource where
  parent := Resource.parent
  usage := HostCall.usage
  started := HostCall.started
  started_sublist q a := by
    unfold HostCall.started
    split <;> first | exact List.Sublist.refl _ | exact List.nil_sublist _

/-- What an exchange has said and heard. -/
structure Dialogue where
  headers : Option (List (String × Bytes))
  post : Bool
  scheme : Option Scheme
  authority : Option (List Char)
  pathWithQuery : Option (List Char)
  written : Bytes
  finished : Bool
  status : Option UInt16
  read : Bytes
  reads : ℕ
  closed : Bool
  /-- The host has reported a failure that may pass. -/
  transient : Bool
  deriving DecidableEq

namespace Dialogue

def new : Dialogue := ⟨none, false, none, none, none, [], false, none, [], 0, false, false⟩

def next (d : Dialogue) : (q : HostCall) → HostAnswer q → Dialogue
  | .fieldsFromList entries, .ok _ => { d with headers := some entries }
  | .setMethodPost, .ok _ => { d with post := true }
  | .setScheme scheme, .ok _ => { d with scheme := some scheme }
  | .setAuthority authority, .ok _ => { d with authority := some authority }
  | .setPathWithQuery path, .ok _ => { d with pathWithQuery := some path }
  | .handle, .error failure => { d with transient := failure.code.isRetryable }
  | .blockingWriteAndFlush chunk, .ok _ => { d with written := d.written ++ chunk }
  | .blockingWriteAndFlush _, .error _ => { d with transient := true }
  | .finishOutgoing, .ok _ => { d with finished := true }
  | .finishOutgoing, .error failure => { d with transient := failure.code.isRetryable }
  | .getResponse, none => { d with transient := true }
  | .getResponse, some (.ok (.error failure)) => { d with transient := failure.code.isRetryable }
  | .status, status => { d with status := some status }
  | .blockingRead _, .ok chunk => { d with read := d.read ++ chunk, reads := d.reads + 1 }
  | .blockingRead _, .error .closed => { d with closed := true }
  | .blockingRead _, .error .lastOperationFailed => { d with transient := true }
  | _, _ => d

/-- The request is set up for this URL and body. -/
def SetUp (d : Dialogue) (url : List Char) (body : Bytes) : Prop :=
  ∃ parts, splitUrl url = .ok parts ∧ d.headers = some (headerList parts body) ∧ d.post = true ∧
    d.scheme = some parts.scheme ∧ d.authority = some parts.authority ∧
    d.pathWithQuery = some parts.pathWithQuery

/-- What may come next: the request is dispatched as it was set up, the body is written in order
in chunks that the host takes, it is finished once it is whole, and then the response is read. -/
def Allows (url : List Char) (body : Bytes) (d : Dialogue) : HostCall → Prop
  | .handle => d.SetUp url body
  | .blockingWriteAndFlush chunk =>
    d.SetUp url body ∧ chunk ≠ [] ∧ chunk.length ≤ writeChunk ∧ d.written ++ chunk <+: body
  | .finishOutgoing => d.written = body
  | .blockingRead _ => d.finished = true ∧ d.closed = false
  | _ => True

def monitor (url : List Char) (body : Bytes) : Monitor HostCall HostAnswer Dialogue where
  start := .new
  allows := Allows url body
  next := next

/-- What the result of an exchange says about it. -/
def Explains (url : List Char) (body : Bytes) (fuel : ℕ) (d : Dialogue) :
    Option (Except RpcError TransportResponse) → Prop
  | none => d.reads = fuel ∧ d.closed = false
  | some (.ok response) => d.SetUp url body ∧ d.written = body ∧ d.finished = true ∧
      d.status = some response.status ∧ d.read = response.body ∧ d.closed = true
  | some (.error e) => ∃ message, e = .network message none d.transient

end Dialogue

/-- Both monitors at once. -/
abbrev conversation (url : List Char) (body : Bytes) :
    Monitor HostCall HostAnswer (List Resource × Dialogue) :=
  ownership.monitor.prod (Dialogue.monitor url body)

/-- The exchange has ended: nothing is left alive, and the result is explained. -/
def Concluded (url : List Char) (body : Bytes) (fuel : ℕ) (s : List Resource × Dialogue)
    (r : Option (Except RpcError TransportResponse)) : Prop :=
  (r ≠ none → s.1 = []) ∧ s.2.Explains url body fuel r

section
variable {url : List Char} {body : Bytes} {fuel : ℕ} {d : Dialogue}

/-- These are all the resources, in an order in which they can be dropped. -/
def DropsAll (alive : List Resource) : List Resource → Prop
  | [] => alive = []
  | resource :: rest => (HostCall.drop resource).usage.InOrder Resource.parent alive ∧
      DropsAll (ownership.next alive (.drop resource) ()) rest

theorem inOrder {alive : List Resource} {q : HostCall}
    (h : decide (q.usage.InOrder Resource.parent alive) = true) :
    ownership.monitor.allows alive q := by
  have hq : q.usage.InOrder Resource.parent alive := of_decide_eq_true h
  exact hq

instance DropsAll.decide : (alive drops : List Resource) → Decidable (DropsAll alive drops)
  | alive, [] => inferInstanceAs (Decidable (alive = []))
  | alive, resource :: rest =>
    have := DropsAll.decide (ownership.next alive (.drop resource) ()) rest
    inferInstanceAs (Decidable ((HostCall.drop resource).usage.InOrder Resource.parent alive ∧
      DropsAll (ownership.next alive (.drop resource) ()) rest))

theorem fail_obeys {drops alive : List Resource} (h : decide (DropsAll alive drops) = true)
    {retryable : Bool} (hd : d.transient = retryable) (message : String) :
    (fail (.network message none retryable) drops).Obeys (conversation url body)
      (Concluded url body fuel) (alive, d) := by
  induction drops generalizing alive with
  | nil => exact ⟨fun _ => of_decide_eq_true h, message, hd ▸ rfl⟩
  | cons resource rest ih =>
    obtain ⟨hdrop, hrest⟩ : DropsAll alive (resource :: rest) := of_decide_eq_true h
    exact ⟨⟨hdrop, trivial⟩, fun _ => ih (decide_eq_true hrest)⟩

/-- The loop that writes the body sends all of it, or drops everything. -/
theorem writeBody_obeys {resume : ExchangeProcess} {rest : List Bytes} (hsetUp : d.SetUp url body)
    (hchunks : ∀ chunk ∈ rest, chunk ≠ [] ∧ chunk.length ≤ writeChunk)
    (hbody : d.written ++ rest.flatten = body)
    (hresume : resume.Obeys (conversation url body) (Concluded url body fuel)
      ([.outputStream, .futureResponse, .outgoingBody], { d with written := body })) :
    (writeBody resume rest).Obeys (conversation url body) (Concluded url body fuel)
      ([.outputStream, .futureResponse, .outgoingBody], d) := by
  induction rest generalizing d with
  | nil =>
    rw [List.flatten_nil, List.append_nil] at hbody
    subst hbody
    exact hresume
  | cons chunk rest ih =>
    obtain ⟨⟨hne, hlength⟩, hrest⟩ := List.forall_mem_cons.mp hchunks
    rw [List.flatten_cons, ← List.append_assoc] at hbody
    have hprefix : d.written ++ chunk <+: body := ⟨_, hbody⟩
    refine ⟨⟨inOrder rfl, hsetUp, hne, hlength, hprefix⟩, fun a => ?_⟩
    cases a with
    | ok _ => exact ih hsetUp hrest hbody hresume
    | error e =>
      have hdrop : ∀ message, (fail (.network message none true)
          [.outputStream, .futureResponse, .outgoingBody]).Obeys (conversation url body)
          (Concluded url body fuel)
          ([.outputStream, .futureResponse, .outgoingBody], { d with transient := true }) :=
        fail_obeys rfl rfl
      cases e with
      | closed => exact hdrop _
      | lastOperationFailed =>
        exact ⟨⟨inOrder rfl, trivial⟩, fun text => ⟨⟨inOrder rfl, trivial⟩,
          fun _ => hdrop _⟩⟩

/-- The loop that reads the response keeps what it has read, up to the end of the stream. -/
theorem readBody_obeys {resume : Bytes → ExchangeProcess} {left : ℕ} {buf : Bytes} (hbuf : d.read = buf)
    (hfinished : d.finished = true)
    (hopen : d.closed = false) (hfuel : d.reads + left = fuel)
    (hresume : ∀ n buf, (resume buf).Obeys (conversation url body) (Concluded url body fuel)
      ([.inputStream, .incomingBody, .response, .futureResponse],
        { d with read := buf, reads := n, closed := true })) :
    (readBody resume left buf).Obeys (conversation url body) (Concluded url body fuel)
      ([.inputStream, .incomingBody, .response, .futureResponse], d) := by
  induction left generalizing d buf with
  | zero => exact ⟨fun h => absurd rfl h, hfuel, hopen⟩
  | succ left ih =>
    refine ⟨⟨inOrder rfl, hfinished, hopen⟩, fun a => ?_⟩
    have hstep : d.reads + 1 + left = fuel := by omega
    cases a with
    | ok chunk =>
      exact ih (d := { d with read := d.read ++ chunk, reads := d.reads + 1 })
        (congrArg (· ++ chunk) hbuf) hfinished hopen hstep hresume
    | error e =>
      cases e with
      | closed =>
        rw [← hbuf]
        exact hresume d.reads d.read
      | lastOperationFailed =>
        have hdrop : ∀ message, (fail (.network message none true)
            [.inputStream, .incomingBody, .response, .futureResponse]).Obeys (conversation url body)
            (Concluded url body fuel)
            ([.inputStream, .incomingBody, .response, .futureResponse], { d with transient := true }) :=
          fail_obeys rfl rfl
        exact ⟨⟨inOrder rfl, trivial⟩, fun text => ⟨⟨inOrder rfl, trivial⟩, fun _ => hdrop _⟩⟩

/-- The request has been sent, and nothing has been read. -/
structure Sent (url : List Char) (body : Bytes) (d : Dialogue) : Prop where
  setUp : d.SetUp url body
  written : d.written = body
  finished : d.finished = true
  read : d.read = []
  reads : d.reads = 0
  closed : d.closed = false
  transient : d.transient = false

private theorem receiveResponse_obeys (h : Sent url body d) : (receiveResponse fuel).Obeys
    (conversation url body) (Concluded url body fuel) ([.response, .futureResponse], d) := by
  refine ⟨⟨inOrder rfl, trivial⟩, fun status => ⟨⟨inOrder rfl, trivial⟩, fun a => ?_⟩⟩
  cases a with
  | error _ => exact fail_obeys (d := { d with status := some status }) rfl h.transient _
  | ok _ =>
    refine ⟨⟨inOrder rfl, trivial⟩, fun a => ?_⟩
    cases a with
    | error _ => exact fail_obeys (d := { d with status := some status }) rfl h.transient _
    | ok _ =>
      have hresume : ∀ n buf, (.ask (.drop .inputStream) fun _ =>
          .ask .finishIncoming fun _ => .ask (.drop .futureTrailers) fun _ =>
          .ask (.drop .response) fun _ => .ask (.drop .futureResponse) fun _ =>
          .done (some (.ok ⟨status, buf⟩)) : ExchangeProcess).Obeys (conversation url body)
          (Concluded url body fuel) ([.inputStream, .incomingBody, .response, .futureResponse],
            { d with status := some status, read := buf, reads := n, closed := true }) := by
        intro n buf
        refine ⟨⟨inOrder rfl, trivial⟩, fun _ => ⟨⟨inOrder rfl, trivial⟩, fun _ =>
          ⟨⟨inOrder rfl, trivial⟩, fun _ => ⟨⟨inOrder rfl, trivial⟩, fun _ =>
          ⟨⟨inOrder rfl, trivial⟩, fun _ => ⟨fun _ => rfl, ?_⟩⟩⟩⟩⟩⟩
        exact ⟨h.setUp, h.written, h.finished, rfl, rfl, rfl⟩
      have hfuel : d.reads + fuel = fuel := by rw [h.reads, Nat.zero_add]
      exact readBody_obeys (d := { d with status := some status }) h.read h.finished h.closed hfuel hresume

private theorem awaitResponse_obeys (h : Sent url body d) : (awaitResponse fuel).Obeys
    (conversation url body) (Concluded url body fuel) ([.futureResponse], d) := by
  refine ⟨⟨inOrder rfl, trivial⟩, fun _ => ⟨⟨inOrder rfl, trivial⟩, fun _ =>
    ⟨⟨inOrder rfl, trivial⟩, fun _ => ⟨⟨inOrder rfl, trivial⟩, fun a => ?_⟩⟩⟩⟩
  match a with
  | some (.ok (.ok _)) => exact receiveResponse_obeys h
  | some (.ok (.error failure)) => exact fail_obeys rfl rfl _
  | some (.error _) => exact fail_obeys rfl h.transient _
  | none => exact fail_obeys rfl rfl _

private theorem dispatch_obeys (hsetUp : d.SetUp url body)
    (hnew : d.written = [] ∧ d.read = [] ∧ d.reads = 0 ∧ d.closed = false ∧ d.transient = false) :
    (dispatch fuel body).Obeys (conversation url body) (Concluded url body fuel)
      ([.outgoingBody, .request], d) := by
  obtain ⟨hwritten, hread, hreads, hclosed, htransient⟩ := hnew
  refine ⟨⟨inOrder rfl, hsetUp⟩, fun a => ?_⟩
  cases a with
  | error failure => exact fail_obeys rfl rfl _
  | ok _ =>
    refine ⟨⟨inOrder rfl, trivial⟩, fun a => ?_⟩
    cases a with
    | error _ => exact fail_obeys rfl htransient _
    | ok _ =>
      refine writeBody_obeys hsetUp (fun chunk => mem_chunks) ?_ ?_
      · show d.written ++ _ = body
        rw [hwritten, flatten_chunks (by decide)]
        rfl
      refine ⟨⟨inOrder rfl, trivial⟩, fun _ => ⟨⟨inOrder rfl, rfl⟩, fun a => ?_⟩⟩
      cases a with
      | error failure => exact fail_obeys rfl rfl _
      | ok _ => exact awaitResponse_obeys ⟨hsetUp, rfl, rfl, hread, hreads, hclosed, htransient⟩

/-- Whatever the host answers, an exchange uses, ends and drops its resources in order, says
only what belongs to its request, and leaves nothing behind; and its result is what the host
has answered. -/
theorem exchange_obeys (fuel : ℕ) (url : List Char) (body : Bytes) :
    (exchange fuel url body).Obeys (conversation url body) (Concluded url body fuel) ([], .new) := by
  unfold exchange
  rcases splitUrl_cases url with ⟨parts, hparts⟩ | ⟨reason, hreason⟩
  · rw [hparts]
    refine ⟨⟨inOrder rfl, trivial⟩, fun a => ?_⟩
    cases a with
    | error debug => exact fail_obeys rfl rfl _
    | ok _ =>
      refine ⟨⟨inOrder rfl, trivial⟩, fun _ => ⟨⟨inOrder rfl, trivial⟩, fun a => ?_⟩⟩
      cases a with
      | error _ => exact fail_obeys rfl rfl _
      | ok _ =>
        refine ⟨⟨inOrder rfl, trivial⟩, fun a => ?_⟩
        cases a with
        | error _ => exact fail_obeys rfl rfl _
        | ok _ =>
          refine ⟨⟨inOrder rfl, trivial⟩, fun a => ?_⟩
          cases a with
          | error _ => exact fail_obeys rfl rfl _
          | ok _ =>
            refine ⟨⟨inOrder rfl, trivial⟩, fun a => ?_⟩
            cases a with
            | error _ => exact fail_obeys rfl rfl _
            | ok _ =>
              refine ⟨⟨inOrder rfl, trivial⟩, fun a => ?_⟩
              cases a with
              | error _ => exact fail_obeys rfl rfl _
              | ok _ =>
                exact dispatch_obeys ⟨parts, hparts, rfl, rfl, rfl, rfl, rfl⟩ ⟨rfl, rfl, rfl, rfl, rfl⟩
  · rw [hreason]
    exact ⟨fun _ => rfl, _, rfl⟩

end
end WasiHttp
end NearKit
