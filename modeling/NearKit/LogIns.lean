import NearKit.NonceWindows
import NearKit.RpcMethods

/-!
# Log-ins

A wallet signs a message over a fresh nonce and sends it as JSON; a server reads it and
verifies it with its own clock and a node. Clocks and nodes move on between any two steps.
-/
namespace NearKit
open Borsh

/-! ## Nonces -/

def defaultMaxAge : Duration := .ofSecs (5 * 60)

/-- `generate_nonce`, from the time and the random bytes: `u64::to_be_bytes` comes first. -/
def generateNonce (timestamp : UInt64) (random : ByteArr 24) : ByteArr 32 :=
  ⟨(leBytes 8 timestamp.toNat).reverse ++ random.val, by simp [random.2]⟩

private theorem ofDigits_eq_leNat (bs : Bytes) :
    Nat.ofDigits 256 (bs.map UInt8.toNat) = leNat bs := by
  induction bs with
  | nil => rfl
  | cons b bs ih =>
    rw [List.map_cons, Nat.ofDigits_cons, ih]
    simp [leNat]

theorem timestampMillis_generateNonce (timestamp : UInt64) (random : ByteArr 24) :
    timestampMillis (generateNonce timestamp random) = timestamp.toNat := by
  have htake : (generateNonce timestamp random).val.take 8 = (leBytes 8 timestamp.toNat).reverse :=
    List.take_left' (by simp)
  rw [timestampMillis, htake, List.map_reverse, List.reverse_reverse, ofDigits_eq_leNat]
  exact leNat_leBytes timestamp.toNat_lt

/-! ## Verification over a node -/

structure VerifyOptions where
  nonceValidation : NonceValidation
  requireFullAccess : Bool

def VerifyOptions.default : VerifyOptions := ⟨.timestamp defaultMaxAge, true⟩

inductive Host where
  | wallet
  | server
  deriving DecidableEq

inductive LogInRequest where
  | nowMillis (host : Host)
  | fillRandom
  | rpc (q : CallRequest CallParams)

@[reducible] def LogInAnswer : LogInRequest → Type
  | .nowMillis _ => UInt64
  | .fillRandom => ByteArr 24
  | .rpc q => CallAnswer CallParams AccessKeyDetails q

/-- How a log-in ends. The verification panics where the message cannot be serialized and
where no attempt is made. -/
inductive LogInResult where
  | panic
  | undecodable (e : SerdeError)
  | verdict (valid : Bool)
  deriving DecidableEq

abbrev LogInProcess := Process LogInRequest LogInAnswer LogInResult

namespace Nep413
variable [SigningCrates] (config : RetryConfig)

/-- The key that the message names, as the node tells of it. -/
def accessKeyCall (signed : SignedMessage) : TypedCall :=
  .viewAccessKey signed.accountId signed.publicKey (.finality .optimistic)

def hasFullAccess : Except RpcError AccessKeyDetails → Bool
  | .ok accessKey => decide (accessKey.permission = .fullAccess)
  | .error _ => false

/-- `verify`, once the clock has been read. -/
def verifyAt (signed : SignedMessage) (params : SignMessageParams) (options : VerifyOptions)
    (nowMs : UInt64) : LogInProcess :=
  match verifySignature signed params options.nonceValidation nowMs with
  | .error _ => .done .panic
  | .ok false => .done (.verdict false)
  | .ok true =>
    if options.requireFullAccess then
      (((accessKeyCall signed).perform config).expand
          (fun q => .ask (.rpc q) fun a => .done (some a)) none).map
        fun r => r.elim .panic fun result => .verdict (hasFullAccess result)
    else .done (.verdict true)

/-- `verify`. Only a timestamp is compared with the clock. -/
def verify (signed : SignedMessage) (params : SignMessageParams) (options : VerifyOptions) :
    LogInProcess :=
  match options.nonceValidation with
  | .none => verifyAt config signed params options 0
  | .timestamp _ => .ask (.nowMillis .server) fun nowMs => verifyAt config signed params options nowMs

/-- A server that reads an `AuthPayload` and verifies it. -/
def receive (options : VerifyOptions) (body : Json) : LogInProcess :=
  match AuthPayload.fromJson body with
  | .error e => .done (.undecodable e)
  | .ok payload => verify config payload.signedMessage payload.toParams options

end Nep413

/-! ## What a verification asks and answers -/

/-- What a process has been through, newest exchange first. -/
abbrev LogInTrace := List (Exchange LogInRequest LogInAnswer)

/-- The nonce passed with a time that the server's clock showed. -/
def InWindow (validation : NonceValidation) (nonce : ByteArr 32) (xs : LogInTrace) : Prop :=
  validation = .none ∨ ∃ nowMs, ⟨.nowMillis .server, nowMs⟩ ∈ xs ∧
    validation.Admits (timestampMillis nonce) nowMs.toNat

def OutOfWindow (validation : NonceValidation) (nonce : ByteArr 32) (xs : LogInTrace) : Prop :=
  ∃ nowMs, ⟨.nowMillis .server, nowMs⟩ ∈ xs ∧ ¬ validation.Admits (timestampMillis nonce) nowMs.toNat

private theorem InWindow.mono {validation : NonceValidation} {nonce : ByteArr 32}
    {xs ys : LogInTrace} (h : InWindow validation nonce xs) (hsub : xs ⊆ ys) :
    InWindow validation nonce ys :=
  h.imp_right fun ⟨nowMs, hread, hadmits⟩ => ⟨nowMs, hsub hread, hadmits⟩

section
variable [SigningCrates]

/-- What the verdict rests on. -/
def Judged (signed : SignedMessage) (params : SignMessageParams) (options : VerifyOptions)
    (xs : LogInTrace) : LogInResult → Prop
  | .panic => True
  | .undecodable _ => False
  | .verdict true => signed.SignatureValid params ∧
      InWindow options.nonceValidation params.nonce xs ∧
      (options.requireFullAccess = true → ∃ request answer,
        ⟨.rpc (.tryCall request), answer⟩ ∈ xs ∧ (Nep413.accessKeyCall signed).Asked request ∧
        Nep413.hasFullAccess answer = true)
  | .verdict false => ¬ signed.SignatureValid params ∨
      OutOfWindow options.nonceValidation params.nonce xs ∨
      options.requireFullAccess = true ∧ ∃ request answer,
        ⟨.rpc (.tryCall request), answer⟩ ∈ xs ∧ (Nep413.accessKeyCall signed).Asked request ∧
        Nep413.hasFullAccess answer = false

/-- The node is asked about the key of a message that has passed so far. -/
def AsksNode (signed : SignedMessage) (params : SignMessageParams) (options : VerifyOptions)
    (xs : LogInTrace) : LogInRequest → Prop
  | .rpc (.tryCall request) => signed.SignatureValid params ∧
      InWindow options.nonceValidation params.nonce xs ∧ options.requireFullAccess = true ∧
      (Nep413.accessKeyCall signed).Asked request
  | _ => True

namespace Nep413
variable {signed : SignedMessage} {params : SignMessageParams} {options : VerifyOptions}
variable {config : RetryConfig} {xs : LogInTrace}

omit [SigningCrates] in
private theorem hasFullAccess_mapError {f : RpcError → RpcError}
    (answer : Except RpcError AccessKeyDetails) :
    hasFullAccess (answer.mapError f) = hasFullAccess answer := by
  cases answer <;> rfl

/-- The calls of the client are exchanges of the log-in. -/
theorem accessKey_obeys :
    (((accessKeyCall signed).perform config : Call CallParams AccessKeyDetails).expand
        (fun q => .ask (.rpc q) fun a => .done (some a)) none).Obeys
      (.recording fun _ q => ∀ request, q = .rpc (.tryCall request) → (accessKeyCall signed).Asked request)
      (fun (ys : LogInTrace) r => ∀ result ∈ r, ∃ request answer,
        ⟨.rpc (.tryCall request), answer⟩ ∈ ys ∧ (accessKeyCall signed).Asked request ∧
        hasFullAccess result = hasFullAccess answer) xs := by
  -- What the client has recorded is part of what the log-in has been through.
  let R (calls : List (Exchange (CallRequest CallParams) (CallAnswer CallParams AccessKeyDetails)))
      (ys : LogInTrace) : Prop := ∀ x ∈ calls,
    ⟨.rpc x.request, x.answer⟩ ∈ ys ∧ AsksOnly (accessKeyCall signed).Asked x.request
  have hR₀ : R [] xs := fun x hx => absurd hx List.not_mem_nil
  refine (TypedCall.perform_obeys (accessKeyCall signed)).expand R ?_ ?_ ?_ hR₀
  · intro calls ys q hR hq
    refine ⟨fun request hrequest => ?_, fun a a' ha => ?_⟩
    · cases hrequest
      exact hq
    · cases ha
      intro x hx
      rcases List.mem_cons.mp hx with rfl | hx
      · exact ⟨List.mem_cons_self, hq⟩
      · exact (hR x hx).imp_left (List.mem_cons_of_mem _)
  · intro calls ys r hR hr result hresult
    obtain ⟨request, answer, hattempt, rfl⟩ := hr result hresult
    obtain ⟨hmem, hrequest⟩ := hR _ hattempt
    exact ⟨request, answer, hmem, hrequest, hasFullAccess_mapError answer⟩
  · intro ys result hresult
    cases hresult

private theorem verifyAt_obeys {nowMs : UInt64}
    (hnow : options.nonceValidation = .none ∨ ⟨.nowMillis .server, nowMs⟩ ∈ xs) :
    (verifyAt config signed params options nowMs).Obeys (.recording (AsksNode signed params options))
      (Judged signed params options) xs := by
  have haccepts := accepts_iff signed params options.nonceValidation nowMs
  unfold Accepts at haccepts
  unfold verifyAt
  cases hverify : verifySignature signed params options.nonceValidation nowMs with
  | error e => trivial
  | ok valid =>
    rw [hverify] at haccepts
    cases valid with
    | false =>
      by_cases hsignature : signed.SignatureValid params
      · have hout : ¬ options.nonceValidation.Admits (timestampMillis params.nonce) nowMs.toNat :=
          fun hadmits => Bool.false_ne_true (Except.ok.inj (haccepts.mpr ⟨hsignature, hadmits⟩))
        rcases hnow with hnone | hread
        · rw [hnone] at hout
          exact absurd trivial hout
        · exact .inr (.inl ⟨nowMs, hread, hout⟩)
      · exact .inl hsignature
    | true =>
      obtain ⟨hsignature, hadmits⟩ := haccepts.mp rfl
      have hin : InWindow options.nonceValidation params.nonce xs :=
        hnow.imp_right fun hread => ⟨nowMs, hread, hadmits⟩
      by_cases haccess : options.requireFullAccess = true
      · simp only [if_pos haccess]
        apply Process.Obeys.map
        refine accessKey_obeys.recording_imp ?_ ?_
        · intro ys q hsub hq
          cases q with
          | rpc q =>
            cases q with
            | tryCall request => exact ⟨hsignature, hin.mono hsub, haccess, hq request rfl⟩
            | requestId => trivial
            | sleep ms => trivial
          | nowMillis host => trivial
          | fillRandom => trivial
        · intro ys r hsub hr
          cases r with
          | none => trivial
          | some result =>
            obtain ⟨request, answer, hattempt, hrequest, heq⟩ := hr result rfl
            show Judged signed params options ys (.verdict (hasFullAccess result))
            cases hfull : hasFullAccess result with
            | true =>
              exact ⟨hsignature, hin.mono hsub,
                fun _ => ⟨request, answer, hattempt, hrequest, heq ▸ hfull⟩⟩
            | false =>
              exact .inr (.inr ⟨haccess, request, answer, hattempt, hrequest, heq ▸ hfull⟩)
      · simp only [if_neg haccess]
        exact ⟨hsignature, hin, fun h => absurd h haccess⟩

private theorem verify_obeys : (verify config signed params options).Obeys
    (.recording (AsksNode signed params options)) (Judged signed params options) xs := by
  unfold verify
  cases hvalidation : options.nonceValidation with
  | none => exact verifyAt_obeys (.inl hvalidation)
  | timestamp maxAge => exact ⟨trivial, fun nowMs => verifyAt_obeys (.inr List.mem_cons_self)⟩

end Nep413

/-! ## Log-ins from the nonce to the verdict -/

/-- Who signs what. -/
structure Wallet where
  key : BundledKey
  accountId : AccountId
  message : String
  recipient : String
  callbackUrl : Option String
  state : Option String

def Wallet.params (wallet : Wallet) (timestamp : UInt64) (random : ByteArr 24) : SignMessageParams :=
  ⟨wallet.message, wallet.recipient, generateNonce timestamp random, wallet.callbackUrl, wallet.state⟩

/-- A wallet signs and sends a message, or somebody sends anything. -/
inductive LogIn where
  | signs (wallet : Wallet)
  | presents (body : Json)

namespace LogIn

/-- `generate_nonce`, `Near::sign_message` and `AuthPayload::from_signed` by the wallet, and
then the verification. -/
def process (config : RetryConfig) (options : VerifyOptions) : LogIn → LogInProcess
  | presents body => Nep413.receive config options body
  | signs wallet =>
    .ask (.nowMillis .wallet) fun timestamp =>
    .ask .fillRandom fun random =>
    let params := wallet.params timestamp random
    match wallet.key.signNep413 wallet.accountId params with
    | none => .done .panic
    | some signed => Nep413.receive config options (AuthPayload.fromSigned signed params).toJson

/-- The body that is received. -/
def Sends (xs : LogInTrace) : LogIn → Json → Prop
  | presents body, body' => body' = body
  | signs wallet, body' => ∃ timestamp random signed, ⟨.nowMillis .wallet, timestamp⟩ ∈ xs ∧
      wallet.key.signNep413 wallet.accountId (wallet.params timestamp random) = some signed ∧
      body' = (AuthPayload.fromSigned signed (wallet.params timestamp random)).toJson

private theorem Sends.mono {logIn : LogIn} {body : Json} {xs ys : LogInTrace}
    (h : logIn.Sends xs body) (hsub : xs ⊆ ys) : logIn.Sends ys body := by
  cases logIn with
  | presents body' => exact h
  | signs wallet =>
    obtain ⟨timestamp, random, signed, hread, hsend⟩ := h
    exact ⟨timestamp, random, signed, hsub hread, hsend⟩

/-- The requests to the node are those of the payload that was sent. -/
def Asks (logIn : LogIn) (options : VerifyOptions) (xs : LogInTrace) (q : LogInRequest) : Prop :=
  ∀ request, q = .rpc (.tryCall request) → ∃ body payload, logIn.Sends xs body ∧
    AuthPayload.fromJson body = .ok payload ∧
    AsksNode payload.signedMessage payload.toParams options xs q

/-- The result is the verdict on the payload that was sent. -/
def Ends (logIn : LogIn) (options : VerifyOptions) (xs : LogInTrace) (r : LogInResult) : Prop :=
  r = .panic ∨ ∃ body, logIn.Sends xs body ∧ match AuthPayload.fromJson body with
    | .error e => r = .undecodable e
    | .ok payload => Judged payload.signedMessage payload.toParams options xs r

private theorem receive_obeys {config : RetryConfig} {options : VerifyOptions} {logIn : LogIn}
    {body : Json} {xs : LogInTrace} (hsends : logIn.Sends xs body) :
    (Nep413.receive config options body).Obeys (.recording (logIn.Asks options))
      (logIn.Ends options) xs := by
  unfold Nep413.receive
  cases hbody : AuthPayload.fromJson body with
  | error e =>
    refine .inr ⟨body, hsends, ?_⟩
    rw [hbody]
  | ok payload =>
    refine Nep413.verify_obeys.recording_imp ?_ ?_
    · intro ys q hsub hq request _
      exact ⟨body, payload, hsends.mono hsub, hbody, hq⟩
    · intro ys r hsub hr
      refine .inr ⟨body, hsends.mono hsub, ?_⟩
      rw [hbody]
      exact hr

private theorem process_obeys (config : RetryConfig) (options : VerifyOptions) (logIn : LogIn) :
    (logIn.process config options).Obeys (.recording (logIn.Asks options)) (logIn.Ends options) [] := by
  cases logIn with
  | presents body => exact receive_obeys rfl
  | signs wallet =>
    refine ⟨fun _ h => (by cases h), fun timestamp => ⟨fun _ h => (by cases h), fun random => ?_⟩⟩
    cases hsigned : wallet.key.signNep413 wallet.accountId (wallet.params timestamp random) with
    | none =>
      simp only [hsigned]
      exact .inl rfl
    | some signed =>
      simp only [hsigned]
      exact receive_obeys ⟨timestamp, random, signed, List.mem_cons_of_mem _ List.mem_cons_self, hsigned, rfl⟩

end LogIn

/-! ## Wallets, servers and a node -/

/-- The time since the epoch by the clock of each host, and the full access keys. -/
structure LogInWorld (σ : Type) where
  elapsed : Host → σ → Duration
  fullAccess : σ → AccountId → PublicKey → Prop

namespace LogInWorld
variable {ι σ : Type} (world : LogInWorld σ)

/-- A node tells of a key as it stands, or answers with an error. Anything may change in the
meantime. -/
def handler (_ : ι) (s : σ) : (q : LogInRequest) → LogInAnswer q → σ → Prop
  | .nowMillis host, nowMs, _ => nowMs = nowMillis (world.elapsed host s)
  | .fillRandom, _, _ => True
  | .rpc (.tryCall request), answer, _ => ∀ accountId publicKey block accessKey,
      CallBody.read ⟨request.method, request.params⟩ = some (.viewAccessKey accountId publicKey block) →
      answer = .ok accessKey →
      (world.fullAccess s accountId publicKey ↔ accessKey.permission = .fullAccess)
  | .rpc _, _, _ => True

def millis (host : Host) (s : σ) : ℕ := (nowMillis (world.elapsed host s)).toNat

variable (es : List (Occurrence ι σ LogInRequest LogInAnswer LogInResult)) (i : ι)

def Received (payload : AuthPayload) : LogIn → Prop
  | .presents body => AuthPayload.fromJson body = .ok payload
  | .signs wallet => ∃ t nowMs random signed, .asked i t (.nowMillis .wallet) nowMs ∈ es ∧
      nowMs = nowMillis (world.elapsed .wallet t) ∧
      wallet.key.signNep413 wallet.accountId (wallet.params nowMs random) = some signed ∧
      AuthPayload.fromJson (AuthPayload.fromSigned signed (wallet.params nowMs random)).toJson =
        .ok payload

/-- The server looked at its clock when the nonce was in its window. -/
def Fresh (validation : NonceValidation) (nonce : ByteArr 32) : Prop :=
  validation = .none ∨ ∃ t nowMs, .asked i t (.nowMillis .server) nowMs ∈ es ∧
    validation.Admits (timestampMillis nonce) (world.millis .server t)

/-- The node was asked about the key when it was a full access key of the account. -/
def Confirmed (signed : SignedMessage) : Prop :=
  ∃ t request answer, .asked i t (.rpc (.tryCall request)) answer ∈ es ∧
    (Nep413.accessKeyCall signed).Asked request ∧
    world.fullAccess t signed.accountId signed.publicKey

/-- The node failed to answer, or was asked about the key when it was not a full access key of
the account. -/
def Denied (signed : SignedMessage) : Prop :=
  ∃ t request answer, .asked i t (.rpc (.tryCall request)) answer ∈ es ∧
    (Nep413.accessKeyCall signed).Asked request ∧
    ((∃ e, answer = .error e) ∨ ¬ world.fullAccess t signed.accountId signed.publicKey)

variable {world es i}

/-- What the node said of the key is how things stood. -/
theorem iff_of_asked {t t' : σ} {signed : SignedMessage} {request : JsonRpcRequest CallParams}
    {accessKey : AccessKeyDetails} (step : world.handler i t (.rpc (.tryCall request)) (.ok accessKey) t')
    (hasked : (Nep413.accessKeyCall signed).Asked request) :
    world.fullAccess t signed.accountId signed.publicKey ↔
      Nep413.hasFullAccess (.ok accessKey) = true :=
  (step _ _ _ _ hasked rfl).trans decide_eq_true_iff.symm

section
variable {ι σ : Type} [DecidableEq ι] {world : LogInWorld σ} {s₀ s : σ} {ps}
variable {es : List (Occurrence ι σ LogInRequest LogInAnswer LogInResult)} {i : ι}

theorem exists_nowMillis {start : ι → LogInProcess}
    (run : Interleaving world.handler start s₀ es s ps) {xs : LogInTrace}
    (hxs : xs ⊆ exchangesOf i es) {host : Host} {nowMs : UInt64} (h : ⟨.nowMillis host, nowMs⟩ ∈ xs) :
    ∃ t, .asked i t (.nowMillis host) nowMs ∈ es ∧ nowMs = nowMillis (world.elapsed host t) := by
  obtain ⟨t, hasked⟩ := exists_asked_of_mem_exchangesOf (hxs h)
  obtain ⟨t', hstep⟩ := run.exists_step hasked
  exact ⟨t, hasked, hstep⟩

private theorem Received.of_sends {start : ι → LogInProcess}
    (run : Interleaving world.handler start s₀ es s ps) {xs : LogInTrace}
    (hxs : xs ⊆ exchangesOf i es) {logIn : LogIn} {body : Json} {payload : AuthPayload}
    (h : logIn.Sends xs body) (hbody : AuthPayload.fromJson body = .ok payload) :
    world.Received es i payload logIn := by
  cases logIn with
  | presents body' =>
    cases h
    exact hbody
  | signs wallet =>
    obtain ⟨nowMs, random, signed, hread, hsigned, rfl⟩ := h
    obtain ⟨t, hasked, hnow⟩ := exists_nowMillis run hxs hread
    exact ⟨t, nowMs, random, signed, hasked, hnow, hsigned, hbody⟩

private theorem Fresh.of_inWindow {start : ι → LogInProcess}
    (run : Interleaving world.handler start s₀ es s ps) {xs : LogInTrace}
    (hxs : xs ⊆ exchangesOf i es) {validation : NonceValidation} {nonce : ByteArr 32}
    (h : InWindow validation nonce xs) : world.Fresh es i validation nonce := by
  apply h.imp_right
  rintro ⟨nowMs, hread, hadmits⟩
  obtain ⟨t, hasked, rfl⟩ := exists_nowMillis run hxs hread
  exact ⟨t, _, hasked, hadmits⟩

private theorem Confirmed.of_answer {start : ι → LogInProcess}
    (run : Interleaving world.handler start s₀ es s ps) {xs : LogInTrace}
    (hxs : xs ⊆ exchangesOf i es) {signed : SignedMessage} {request : JsonRpcRequest CallParams}
    {answer : Except RpcError AccessKeyDetails} (h : ⟨.rpc (.tryCall request), answer⟩ ∈ xs)
    (hasked : (Nep413.accessKeyCall signed).Asked request)
    (haccess : Nep413.hasFullAccess answer = true) : world.Confirmed es i signed := by
  obtain ⟨t, ht⟩ := exists_asked_of_mem_exchangesOf (hxs h)
  obtain ⟨t', hstep⟩ := run.exists_step ht
  cases answer with
  | error e => cases haccess
  | ok accessKey => exact ⟨t, request, _, ht, hasked, (iff_of_asked hstep hasked).mpr haccess⟩

private theorem Denied.of_answer {start : ι → LogInProcess}
    (run : Interleaving world.handler start s₀ es s ps) {xs : LogInTrace}
    (hxs : xs ⊆ exchangesOf i es) {signed : SignedMessage} {request : JsonRpcRequest CallParams}
    {answer : Except RpcError AccessKeyDetails} (h : ⟨.rpc (.tryCall request), answer⟩ ∈ xs)
    (hasked : (Nep413.accessKeyCall signed).Asked request)
    (haccess : Nep413.hasFullAccess answer = false) : world.Denied es i signed := by
  obtain ⟨t, ht⟩ := exists_asked_of_mem_exchangesOf (hxs h)
  obtain ⟨t', hstep⟩ := run.exists_step ht
  refine ⟨t, request, _, ht, hasked, ?_⟩
  cases answer with
  | error e => exact .inl ⟨e, rfl⟩
  | ok accessKey =>
    right
    intro hfull
    rw [(iff_of_asked hstep hasked).mp hfull] at haccess
    cases haccess

omit [DecidableEq ι] in
/-- A payload that an Ed25519 wallet sent carries what the wallet signed. -/
theorem Received.signs_inv (laws : KeyLaws) {wallet : Wallet} (hid : wallet.accountId.Valid)
    (hkey : wallet.key.secretKey.keyType = .ed25519) {payload : AuthPayload}
    (h : world.Received es i payload (.signs wallet)) :
    ∃ t nowMs random signed, .asked i t (.nowMillis .wallet) nowMs ∈ es ∧
      nowMs = nowMillis (world.elapsed .wallet t) ∧
      wallet.key.signNep413 wallet.accountId (wallet.params nowMs random) = some signed ∧
      payload.signedMessage = signed ∧ payload.toParams = wallet.params nowMs random := by
  obtain ⟨t, nowMs, random, signed, hasked, hnow, hsigned, hpayload⟩ := h
  obtain ⟨_, payload', -, hpayload', -, rfl, -⟩ :=
    (BundledKey.signNep413_jsonRoundTrips_iff laws hid hsigned).mpr hkey
  cases hpayload.symm.trans hpayload'
  obtain ⟨-, -, -, hstate⟩ := BundledKey.signNep413_spec hsigned
  exact ⟨t, nowMs, random, signed, hasked, hnow, hsigned, rfl, AuthPayload.toParams_fromSigned hstate⟩

end
end LogInWorld

/-- The message that a key signs is valid under it. -/
theorem BundledKey.signatureValid_of_signNep413 (law : SignatureLaw) {key : BundledKey}
    {accountId : AccountId} {params : SignMessageParams} {signed : SignedMessage}
    (h : key.signNep413 accountId params = some signed) : signed.SignatureValid params := by
  obtain ⟨hash, hhash, h⟩ := Option.bind_eq_some_iff.mp h
  obtain ⟨signature, hsign, h⟩ := Option.bind_eq_some_iff.mp h
  cases h
  cases hserialized : Nep413.serializeMessage params with
  | error e =>
    rw [hserialized] at hhash
    cases hhash
  | ok hash' =>
    rw [hserialized] at hhash
    cases hhash
    exact ⟨hash, hserialized, law key hash.val signature hsign⟩

section
variable {ι σ : Type} [DecidableEq ι] {world : LogInWorld σ} {s₀ s : σ} {ps}
variable {es : List (Occurrence ι σ LogInRequest LogInAnswer LogInResult)}

/-- In every interleaving of log-ins with each other, with the clocks and with changes of the
keys: the node is asked only about the key of a payload with a valid signature and a fresh
nonce; a log-in is granted for such a payload, and if it is to have full access, while the key
had it; it is refused because of one of the three; and what an Ed25519 wallet sends is read
by the server, and refused because of the two clocks or the node. -/
theorem log_ins_judged (law : SignatureLaw) (laws : KeyLaws) (config : ι → RetryConfig)
    (options : ι → VerifyOptions) (logIns : ι → LogIn)
    (hlogIns : ∀ i wallet, logIns i = .signs wallet → wallet.accountId.Valid)
    (run : Interleaving world.handler (fun i => (logIns i).process (config i) (options i)) s₀ es s ps)
    (i : ι) :
    (∀ t request answer, .asked i t (.rpc (.tryCall request)) answer ∈ es → ∃ payload,
      world.Received es i payload (logIns i) ∧
      payload.signedMessage.SignatureValid payload.toParams ∧
      world.Fresh es i (options i).nonceValidation payload.nonce ∧
      (options i).requireFullAccess = true ∧
      (Nep413.accessKeyCall payload.signedMessage).Asked request) ∧
    (.returned i (.verdict true) ∈ es → ∃ payload,
      world.Received es i payload (logIns i) ∧
      payload.signedMessage.SignatureValid payload.toParams ∧
      world.Fresh es i (options i).nonceValidation payload.nonce ∧
      ((options i).requireFullAccess = true → world.Confirmed es i payload.signedMessage)) ∧
    (.returned i (.verdict false) ∈ es → ∃ payload,
      world.Received es i payload (logIns i) ∧
      (¬ payload.signedMessage.SignatureValid payload.toParams ∨
        (∃ t nowMs, .asked i t (.nowMillis .server) nowMs ∈ es ∧
          ¬ (options i).nonceValidation.Admits (timestampMillis payload.nonce) (world.millis .server t)) ∨
        (options i).requireFullAccess = true ∧ world.Denied es i payload.signedMessage)) ∧
    (∀ wallet, logIns i = .signs wallet → wallet.key.secretKey.keyType = .ed25519 →
      (∀ e, .returned i (.undecodable e) ∉ es) ∧
      (.returned i (.verdict false) ∈ es → ∃ t nowMs, .asked i t (.nowMillis .wallet) nowMs ∈ es ∧
        ((∃ u nowMs', .asked i u (.nowMillis .server) nowMs' ∈ es ∧
          ¬ (options i).nonceValidation.Admits (world.millis .wallet t) (world.millis .server u)) ∨
        (options i).requireFullAccess = true ∧ ∃ signed, signed.accountId = wallet.accountId ∧
          signed.publicKey = wallet.key.publicKey ∧ world.Denied es i signed))) := by
  obtain ⟨hasked, hreturned⟩ := run.recorded ((logIns i).process_obeys (config i) (options i))
  have hrefused : .returned i (.verdict false) ∈ es → ∃ payload,
      world.Received es i payload (logIns i) ∧
      (¬ payload.signedMessage.SignatureValid payload.toParams ∨
        (∃ t nowMs, .asked i t (.nowMillis .server) nowMs ∈ es ∧
          ¬ (options i).nonceValidation.Admits (timestampMillis payload.nonce) (world.millis .server t)) ∨
        (options i).requireFullAccess = true ∧ world.Denied es i payload.signedMessage) := by
    intro h
    obtain ⟨xs, hxs, hpanic | ⟨body, hsends, hends⟩⟩ := hreturned _ h
    · cases hpanic
    cases hbody : AuthPayload.fromJson body with
    | error e =>
      rw [hbody] at hends
      cases hends
    | ok payload =>
      rw [hbody] at hends
      refine ⟨payload, .of_sends run hxs hsends hbody, ?_⟩
      rcases hends with hsignature | ⟨nowMs, hread, hout⟩ | ⟨haccess, request, answer, hattempt, hcall, hno⟩
      · exact .inl hsignature
      · obtain ⟨t, ht, rfl⟩ := LogInWorld.exists_nowMillis run hxs hread
        exact .inr (.inl ⟨t, _, ht, hout⟩)
      · exact .inr (.inr ⟨haccess, .of_answer run hxs hattempt hcall hno⟩)
  refine ⟨?_, ?_, hrefused, ?_⟩
  · intro t request answer h
    obtain ⟨xs, hxs, hasks⟩ := hasked _ _ _ h
    obtain ⟨body, payload, hsends, hbody, hsignature, hwindow, haccess, hcall⟩ := hasks request rfl
    exact ⟨payload, .of_sends run hxs hsends hbody, hsignature, .of_inWindow run hxs hwindow, haccess,
      hcall⟩
  · intro h
    obtain ⟨xs, hxs, hpanic | ⟨body, hsends, hends⟩⟩ := hreturned _ h
    · cases hpanic
    cases hbody : AuthPayload.fromJson body with
    | error e =>
      rw [hbody] at hends
      cases hends
    | ok payload =>
      rw [hbody] at hends
      obtain ⟨hsignature, hwindow, haccess⟩ := hends
      refine ⟨payload, .of_sends run hxs hsends hbody, hsignature, .of_inWindow run hxs hwindow, ?_⟩
      intro hrequired
      obtain ⟨request, answer, hattempt, hcall, hyes⟩ := haccess hrequired
      exact .of_answer run hxs hattempt hcall hyes
  · intro wallet hwallet hkey
    have hid := hlogIns i wallet hwallet
    constructor
    · intro e h
      obtain ⟨xs, hxs, hpanic | ⟨body, hsends, hends⟩⟩ := hreturned _ h
      · cases hpanic
      rw [hwallet] at hsends
      obtain ⟨nowMs, random, signed, -, hsigned, rfl⟩ := hsends
      obtain ⟨_, payload, -, hpayload, -, -, -⟩ :=
        (BundledKey.signNep413_jsonRoundTrips_iff laws hid hsigned).mpr hkey
      rw [hpayload] at hends
      exact hends
    · intro h
      obtain ⟨payload, hreceived, hwhy⟩ := hrefused h
      rw [hwallet] at hreceived
      obtain ⟨t, nowMs, random, signed, ht, rfl, hsigned, rfl, hparams⟩ :=
        hreceived.signs_inv laws hid hkey
      refine ⟨t, _, ht, ?_⟩
      rcases hwhy with hsignature | ⟨u, nowMs', hu, hout⟩ | ⟨haccess, hdenied⟩
      · rw [hparams] at hsignature
        exact absurd (BundledKey.signatureValid_of_signNep413 law hsigned) hsignature
      · have hnonce : payload.nonce = generateNonce _ random := congrArg SignMessageParams.nonce hparams
        rw [hnonce, timestampMillis_generateNonce] at hout
        exact .inl ⟨u, nowMs', hu, hout⟩
      · obtain ⟨haccount, hpublic, -, -⟩ := BundledKey.signNep413_spec hsigned
        exact .inr ⟨haccess, _, haccount, hpublic, hdenied⟩

end

/-! ### A log-in that is granted -/

omit [SigningCrates]

def LogInWorld.sample : LogInWorld Unit where
  elapsed host _ := match host with
    | .wallet => .ofSecs 0
    | .server => .ofSecs 60
  fullAccess _ accountId _ := accountId = .alice

def Wallet.sample : @Wallet SigningCrates.sample :=
  @Wallet.mk SigningCrates.sample .ed25519Sample .alice "Login" "bob.near" none none

abbrev sampleLogIn (_ : Unit) : LogInProcess :=
  @LogIn.process SigningCrates.sample ⟨3, 100, 1000⟩ .default (@LogIn.signs SigningCrates.sample .sample)

def sampleKeyRequest : JsonRpcRequest CallParams :=
  ⟨"2.0", 0, "EXPERIMENTAL_view_access_key",
    .named [("account_id", .text AccountId.alice.name),
      ("public_key", .text SignedMessage.ed25519Sample.publicKey.display), ("finality", .text "optimistic")]⟩

/-- The server reads what the wallet sent, and the message passes by its clock. -/
theorem receive_sample :
    @Nep413.receive SigningCrates.sample ⟨3, 100, 1000⟩ .default
        (AuthPayload.fromSigned .ed25519Sample .sample).toJson =
      .ask (.nowMillis .server) fun nowMs =>
        @Nep413.verifyAt SigningCrates.sample ⟨3, 100, 1000⟩ .ed25519Sample .sample .default nowMs := by
  let _ := SigningCrates.sample
  have hsigned : BundledKey.ed25519Sample.signNep413 .alice .sample =
      some SignedMessage.ed25519Sample := rfl
  obtain ⟨_, _, -, hpayload, -, rfl, -⟩ :=
    (BundledKey.signNep413_jsonRoundTrips_iff KeyCrates.sample_laws rfl hsigned).mpr rfl
  unfold Nep413.receive
  rw [hpayload]
  rfl

private theorem verifySignature_sample :
    @verifySignature SigningCrates.sample .ed25519Sample .sample (.timestamp defaultMaxAge) 60000 =
      .ok true := by
  let _ := SigningCrates.sample
  have hsigned : BundledKey.ed25519Sample.signNep413 .alice .sample =
      some SignedMessage.ed25519Sample := rfl
  apply (accepts_iff _ _ _ _).mpr
  refine ⟨BundledKey.signatureValid_of_signNep413 (SigningCrates.sample_signatureLaw _ _) hsigned, ?_⟩
  exact ⟨by decide, by decide⟩

theorem log_ins_judged_sample : ∃ es s ps,
    Interleaving (@LogInWorld.handler SigningCrates.sample Unit Unit .sample) sampleLogIn () es s ps ∧
    ∃ signed : SignedMessage, signed.accountId = .alice ∧
      @LogInWorld.Confirmed SigningCrates.sample Unit Unit .sample es () signed := by
  let _ := SigningCrates.sample
  have hstart : ∀ random : ByteArr 24, random = .zeros 24 →
      (match Wallet.sample.key.signNep413 Wallet.sample.accountId (Wallet.sample.params 0 random) with
        | none => .done .panic
        | some signed => Nep413.receive ⟨3, 100, 1000⟩ .default
            (AuthPayload.fromSigned signed (Wallet.sample.params 0 random)).toJson : LogInProcess) =
      .ask (.nowMillis .server) fun nowMs =>
        Nep413.verifyAt ⟨3, 100, 1000⟩ .ed25519Sample .sample .default nowMs := by
    rintro _ rfl
    exact receive_sample
  have hverify : (Nep413.verifyAt ⟨3, 100, 1000⟩ .ed25519Sample .sample .default 60000 : LogInProcess) =
      (((Nep413.accessKeyCall .ed25519Sample).perform ⟨3, 100, 1000⟩).expand
        (fun q => .ask (.rpc q) fun a => .done (some a)) none).map
        fun r => r.elim .panic fun result => .verdict (Nep413.hasFullAccess result) := by
    unfold Nep413.verifyAt
    rw [show VerifyOptions.default.nonceValidation = .timestamp defaultMaxAge from rfl,
      verifySignature_sample]
    rfl
  have hanswer : LogInWorld.sample.handler () () (.rpc (.tryCall sampleKeyRequest))
      (.ok ⟨7, .fullAccess⟩) () := by
    intro accountId publicKey block accessKey hread heq
    have hbody := TypedCall.read_body
      (show (Nep413.accessKeyCall .ed25519Sample).body = some _ from rfl)
    cases hread.symm.trans hbody
    cases heq
    exact iff_of_true rfl rfl
  have run : Interleaving LogInWorld.sample.handler sampleLogIn () [] () _ := .init
  obtain ⟨ps₁, run₁, hps₁, -⟩ := run.ask (i := ()) rfl (q := .nowMillis .wallet) rfl 0 (t := ()) rfl
  obtain ⟨ps₂, run₂, hps₂, -⟩ := run₁.ask hps₁ (q := .fillRandom) rfl (.zeros 24) (t := ()) trivial
  obtain ⟨ps₃, run₃, hps₃, -⟩ := run₂.ask hps₂ (hstart _ rfl) 60000 (t := ()) rfl
  obtain ⟨ps₄, run₄, hps₄, -⟩ := run₃.ask (q := .rpc .requestId) hps₃ (hverify.trans rfl) 0 (t := ())
    trivial
  obtain ⟨ps₅, run₅, hps₅, -⟩ := run₄.ask (q := .rpc (.tryCall sampleKeyRequest)) hps₄ rfl
    (.ok ⟨7, .fullAccess⟩) (t := ()) hanswer
  have run₆ := Interleaving.returned (r := .verdict true) run₅ hps₅
  have hid : ∀ (i : Unit) wallet, LogIn.signs Wallet.sample = .signs wallet → wallet.accountId.Valid := by
    intro _ wallet h
    cases h
    rfl
  obtain ⟨-, hgranted, -, -⟩ := log_ins_judged (SigningCrates.sample_signatureLaw _ _)
    KeyCrates.sample_laws (fun _ => ⟨3, 100, 1000⟩) (fun _ => .default) (fun _ => .signs .sample) hid run₆ ()
  obtain ⟨payload, hreceived, -, -, hconfirmed⟩ := hgranted List.mem_cons_self
  obtain ⟨t, request, answer, ht, hasked, hfull⟩ := hconfirmed rfl
  exact ⟨_, _, _, run₆, payload.signedMessage, hfull, t, request, answer, ht, hasked, hfull⟩

end
end NearKit
