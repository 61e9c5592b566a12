import NearKit.KeyCustody
import NearKit.SigningKeys

/-!
# One signer shared by many operations

Operations in flight together claim keys from the same signers, among them rotating ones
whose counter every claim advances. Each key has its own secret. Whatever the order of the
requests, what is signed verifies under the key it names, and its nonce is one of that key.
-/
namespace NearKit
open Borsh

variable [SigningCrates] {ι ρ : Type}

/-! ## Signers -/

/-- The signers of a client, whose keys are bundled with their own secrets. -/
structure Signers (ρ : Type) where
  /-- The secret behind a backend. -/
  keys : ℕ → BundledKey
  /-- `Signer::key`, with the state of the signers before and after. -/
  claim : Signer → ρ → SigningKey → ρ → Prop
  /-- `Signer::public_key`. -/
  peek : Signer → ρ → PublicKey → ρ → Prop
  bundled : ∀ {signer r key r'}, claim signer r key r' → key.publicKey = (keys key.backend).publicKey

def SigningKey.new (keys : ℕ → BundledKey) (backend : ℕ) : SigningKey :=
  ⟨(keys backend).publicKey, backend⟩

/-- The keys of a rotating signer, by their places in a table. -/
structure RotatingSigner where
  keys : List ℕ
  nonempty : 0 < keys.length

namespace RotatingSigner

/-- The key at `counter % keys.len()`. -/
def keyAt (s : RotatingSigner) (counter : UInt64) : ℕ :=
  s.keys.get ⟨counter.toNat % s.keys.length, Nat.mod_lt _ s.nonempty⟩

/-- Every signer rotates over its keys and counts for itself. With one key it is an
`InMemorySigner`. -/
def signers (keys : ℕ → BundledKey) (rotating : Signer → RotatingSigner) :
    Signers (Signer → UInt64) where
  keys := keys
  claim signer counters key counters' :=
    key = .new keys ((rotating signer).keyAt (counters signer)) ∧
    counters' = Function.update counters signer (counters signer + 1)
  peek signer counters publicKey counters' :=
    publicKey = (keys ((rotating signer).keyAt (counters signer))).publicKey ∧ counters' = counters
  bundled h := by
    rw [h.1]
    rfl

end RotatingSigner

/-! ## Operations of one client -/

inductive KeyCall where
  | client (call : ClientCall)
  | signOffline (b : TransactionBuilder) (blockHash : CryptoHash) (nonce : Nonce)
  deriving DecidableEq

namespace KeyCall

def builder : KeyCall → TransactionBuilder
  | client call => call.builder
  | signOffline b _ _ => b

def process : KeyCall → Process Request Answer ClientResult
  | client call => call.process
  | signOffline b blockHash nonce => (b.signOffline blockHash nonce).map .signed

end KeyCall

/-- The signers hand out keys and sign, the manager allocates nonces. The node answers
what it likes. -/
def signerHandler (signers : Signers ρ) (_ : ι) :
    NonceManager × ρ → (q : Request) → Answer q → NonceManager × ρ → Prop
  | s, .key signer, key, s' => signers.claim signer s.2 key s'.2 ∧ s'.1 = s.1
  | s, .publicKey signer, publicKey, s' => signers.peek signer s.2 publicKey s'.2 ∧ s'.1 = s.1
  | s, .nextNonce network id key chain, nonce, s' =>
    (nonce, s'.1) = s.1.next network id key chain ∧ s'.2 = s.2
  | s, .sign key message, .ok signature, s' =>
    (signers.keys key.backend).sign message.val = some signature ∧ s' = s
  | s, _, _, s' => s' = s

abbrev SignerOccurrence (ι ρ : Type) := Occurrence ι (NonceManager × ρ) Request Answer ClientResult

namespace KeyCall

/-- What a result of the call says about the exchanges that led to it. -/
def Produces (c : KeyCall) (xs : List (Exchange Request Answer)) : ClientResult → Prop
  | .signed (.ok tx) => c.builder.Signed xs tx ∧
    ∀ call, c = .client call → c.builder.NonceTaken xs tx.transaction
  | .built (.ok tx) => c.builder.NonceTaken xs tx
  | .delegated (.ok d) => c.builder.SignedDelegate xs d.signedDelegateAction ∧
    ∀ b options, c = .client (.delegate b options) → DelegateNonce options xs d
  | _ => True

private theorem process_obeys (c : KeyCall) :
    c.process.Obeys (.recording c.builder.submits) c.Produces [] := by
  cases c with
  | client call =>
    cases call with
    | send t =>
      apply Process.Obeys.map
      apply t.intoFuture_custody.imp
      intro xs r _
      trivial
    | sign b =>
      apply Process.Obeys.map
      apply b.sign_custody.imp
      intro xs r h
      cases r with
      | ok tx => exact ⟨(h tx rfl).1, fun _ _ => (h tx rfl).2⟩
      | err e => trivial
      | panic => trivial
    | build b =>
      apply Process.Obeys.map
      apply b.build_custody.imp
      intro xs r h
      cases r with
      | ok tx => exact h tx rfl
      | err e => trivial
      | panic => trivial
    | delegate b options =>
      apply Process.Obeys.map
      apply (b.delegate_custody options).imp
      intro xs r h
      cases r with
      | ok d =>
        have hd := h d rfl
        refine ⟨hd.signed, ?_⟩
        intro b' options' hc
        cases hc
        exact hd.nonce
      | err e => trivial
      | panic => trivial
  | signOffline b blockHash nonce =>
    apply Process.Obeys.map
    apply (b.signOffline_custody blockHash nonce).imp
    intro xs r h
    cases r with
    | ok tx =>
      refine ⟨h tx rfl, ?_⟩
      intro call hc
      cases hc
    | err e => trivial
    | panic => trivial

end KeyCall

/-! ## What they produce -/

/-- The operation claimed a key; what it names is the public key of this key's secret, and
this secret made the signature. -/
inductive SignedByOwnKey (signers : Signers ρ) (es : List (SignerOccurrence ι ρ)) (i : ι)
    (publicKey : PublicKey) (getHash : Except IoError CryptoHash) (signature : Signature) : Prop where
  | intro (t : NonceManager × ρ) (signer : Signer) (key : SigningKey) (hash : CryptoHash)
      (claimed : .asked i t (.key signer) key ∈ es)
      (own : publicKey = (signers.keys key.backend).publicKey)
      (hashed : getHash = .ok hash)
      (signed : (signers.keys key.backend).sign hash.val = some signature)
      (verifies : signature.verify hash.val publicKey = true)

/-- The operation took the nonce from the manager's entry for the transaction's key. -/
def NonceOfOwnKey (es : List (SignerOccurrence ι ρ)) (i : ι) (network : Network) (tx : Transaction) :
    Prop :=
  ∃ t chain, .asked i t (.nextNonce network tx.signerId tx.publicKey chain) tx.nonce ∈ es ∧
    tx.nonce = (t.1.next network tx.signerId tx.publicKey chain).1

section
variable [DecidableEq ι] {signers : Signers ρ} {start : ι → Process Request Answer ClientResult}
variable {s₀ s : NonceManager × ρ} {es : List (SignerOccurrence ι ρ)}
variable {ps : ι → Option (Process Request Answer ClientResult)} {i : ι} {b : TransactionBuilder}

private theorem SignedByOwnKey.of_custody (law : SignatureLaw)
    (run : Interleaving (signerHandler signers) start s₀ es s ps) {accountId : AccountId}
    {publicKey : PublicKey} {getHash : Except IoError CryptoHash} {signature : Signature}
    (h : b.Custody (exchangesOf i es) accountId publicKey getHash signature) :
    SignedByOwnKey signers es i publicKey getHash signature := by
  obtain ⟨signer, key, hash, -, -, claimed, names, hashed, signed⟩ := h
  obtain ⟨t, hclaimed⟩ := exists_asked_of_mem_exchangesOf claimed
  obtain ⟨t', hclaim, -⟩ := run.exists_step hclaimed
  have hown : publicKey = (signers.keys key.backend).publicKey :=
    names.trans (signers.bundled hclaim)
  obtain ⟨u, hasked⟩ := exists_asked_of_mem_exchangesOf signed
  obtain ⟨u', hsign, -⟩ := run.exists_step hasked
  have hverify := law _ _ _ hsign
  rw [← hown] at hverify
  exact .intro t signer key hash hclaimed hown hashed hsign hverify

private theorem NonceOfOwnKey.of_taken (run : Interleaving (signerHandler signers) start s₀ es s ps)
    {tx : Transaction} (h : b.NonceTaken (exchangesOf i es) tx) :
    NonceOfOwnKey es i b.url tx := by
  obtain ⟨chain, hmem⟩ := h
  obtain ⟨t, hasked⟩ := exists_asked_of_mem_exchangesOf hmem
  obtain ⟨t', hnext, -⟩ := run.exists_step hasked
  exact ⟨t, chain, hasked, congrArg Prod.fst hnext⟩

/-- In every interleaving of `send`, `sign`, `sign_offline`, `build` and `delegate` calls:
what is submitted or returned signed names the public key of the secret that signed it,
and verifies under it. A nonce that was not given is the manager's, or for a delegate
action the chain's, for the same key. -/
theorem signed_by_own_key (law : SignatureLaw) (calls : ι → KeyCall)
    (run : Interleaving (signerHandler signers) (fun i => (calls i).process) s₀ es s ps) :
    (∀ i t tx status a, .asked i t (.sendTx tx status) a ∈ es →
      SignedByOwnKey signers es i tx.transaction.publicKey tx.transaction.getHash tx.signature ∧
      NonceOfOwnKey es i (calls i).builder.url tx.transaction) ∧
    (∀ i tx, .returned i (.signed (.ok tx)) ∈ es →
      SignedByOwnKey signers es i tx.transaction.publicKey tx.transaction.getHash tx.signature ∧
      ∀ call, calls i = .client call →
        NonceOfOwnKey es i (calls i).builder.url tx.transaction) ∧
    (∀ i tx, .returned i (.built (.ok tx)) ∈ es → NonceOfOwnKey es i (calls i).builder.url tx) ∧
    (∀ i d, .returned i (.delegated (.ok d)) ∈ es →
      let signed := d.signedDelegateAction
      SignedByOwnKey signers es i signed.delegateAction.publicKey signed.delegateAction.getHash
        signed.signature ∧
      ∀ b options, calls i = .client (.delegate b options) → options.nonce = none →
        ∃ t accessKey, .asked i t (.viewAccessKey signed.delegateAction.senderId
          signed.delegateAction.publicKey .optimistic) (.ok accessKey) ∈ es ∧
          signed.delegateAction.nonce = accessKey.nonce + 1) := by
  have hrecorded := fun i => run.recorded (calls i).process_obeys
  refine ⟨?_, ?_, ?_, ?_⟩
  · intro i t tx status a hasked
    obtain ⟨xs, hxs, hsigned, chain, htaken⟩ := (hrecorded i).1 _ _ _ hasked
    exact ⟨.of_custody law run (hsigned.mono hxs), .of_taken run ⟨chain, hxs htaken⟩⟩
  · intro i tx hreturned
    obtain ⟨xs, hxs, hsigned, hnonce⟩ := (hrecorded i).2 _ hreturned
    refine ⟨.of_custody law run (hsigned.mono hxs), ?_⟩
    intro call hcall
    obtain ⟨chain, htaken⟩ := hnonce call hcall
    exact .of_taken run ⟨chain, hxs htaken⟩
  · intro i tx hreturned
    obtain ⟨xs, hxs, chain, htaken⟩ := (hrecorded i).2 _ hreturned
    exact .of_taken run ⟨chain, hxs htaken⟩
  · intro i d hreturned
    obtain ⟨xs, hxs, hsigned, hnonce⟩ := (hrecorded i).2 _ hreturned
    refine ⟨.of_custody law run (hsigned.mono hxs), ?_⟩
    intro b options hcall hnone
    obtain ⟨accessKey, hfetched, hsucc⟩ := hnonce b options hcall hnone
    obtain ⟨t, hasked⟩ := exists_asked_of_mem_exchangesOf (hxs hfetched)
    exact ⟨t, accessKey, hasked, hsucc⟩

end

/-! ## A sample run -/

section
omit [SigningCrates]

/-- The digest of the transaction that the sample run signs. -/
def rotatingDigest : ByteArr 32 :=
  ⟨[129, 190, 70, 2, 100, 106, 128, 87, 171, 238, 128, 197, 60, 23, 251, 75, 19, 167, 207, 247,
    59, 105, 195, 85, 118, 171, 186, 205, 192, 130, 45, 190], rfl⟩

/-- The signature that the secret of 32 zeros makes of the digest. -/
def rotatingSignature : ByteArr 64 :=
  ⟨[154, 227, 211, 102, 184, 198, 179, 109, 39, 200, 92, 69, 26, 160, 131, 80, 203, 231, 131, 181,
    10, 44, 226, 218, 77, 116, 145, 74, 129, 243, 55, 110, 68, 80, 231, 144, 189, 140, 18, 193,
    231, 214, 32, 32, 64, 212, 206, 248, 19, 51, 34, 194, 201, 155, 246, 112, 200, 97, 178, 164,
    250, 116, 197, 13], rfl⟩

/-- Answers right for the sample run. -/
@[reducible] def SigningCrates.rotating : SigningCrates :=
  { SigningCrates.sample with
    sha256 := fun _ => rotatingDigest
    ed25519Sign := fun _ _ => rotatingSignature }

private theorem rotating_signatureLaw : @SignatureLaw SigningCrates.rotating :=
  SigningCrates.sample_signatureLaw _ _

/-- The secrets of 32 zeros and of 32 ones. -/
def rotatingKeys (backend : ℕ) : @BundledKey SigningCrates.rotating :=
  let seed : ByteArr 32 := if backend = 0 then .zeros 32 else ⟨List.replicate 32 1, rfl⟩
  @BundledKey.mk SigningCrates.rotating (.ed25519 seed) (.ed25519 (samplePublic seed)) rfl

def rotatingSigners : @Signers SigningCrates.rotating (Signer → UInt64) :=
  @RotatingSigner.signers SigningCrates.rotating rotatingKeys fun _ => ⟨[0, 1], by decide⟩

/-- A `sign` and a `sign_offline` that share the signer. -/
def rotatingCalls : Bool → KeyCall
  | true => .client (.sign (.sample 2))
  | false => .signOffline (.sample 2) (.zeros 32) 9

/-- The transaction of the `sign`, with the first key. -/
def rotatingTransaction : SignedTransaction :=
  ⟨(TransactionBuilder.sample 2).transaction .alice (.ed25519 (samplePublic (.zeros 32))) 6
    (.zeros 32), .ed25519 rotatingSignature⟩

/-- The offline call claims the second key between the claim and the signature of the
other. -/
theorem signed_by_own_key_sample : ∃ es s ps,
    Interleaving (@signerHandler SigningCrates.rotating Bool _ rotatingSigners)
      (fun i => @KeyCall.process SigningCrates.rotating (rotatingCalls i)) (.new, fun _ => 0)
      es s ps ∧
    @SignedByOwnKey SigningCrates.rotating Bool _ rotatingSigners es true
      rotatingTransaction.transaction.publicKey
      (@Transaction.getHash SigningCrates.rotating.toCrates rotatingTransaction.transaction)
      rotatingTransaction.signature ∧
    NonceOfOwnKey es true "testnet" rotatingTransaction.transaction := by
  let _ := SigningCrates.rotating
  let publicKey : PublicKey := .ed25519 (samplePublic (.zeros 32))
  let r := NonceManager.new.next "testnet" .alice publicKey 5
  obtain ⟨bytes, hbytes⟩ :=
    (Format.transaction.lawful.fits_iff rotatingTransaction.transaction).mp (by decide)
  have hhash : rotatingTransaction.transaction.getHash = .ok rotatingDigest := by
    unfold Transaction.getHash Codec.toVec
    rw [hbytes]
    rfl
  have run₀ : Interleaving (signerHandler rotatingSigners) (fun i => (rotatingCalls i).process)
      (.new, fun _ => 0) [] (.new, fun _ => 0) fun i => some (rotatingCalls i).process := .init
  obtain ⟨ps₁, run₁, hps₁, hne₁⟩ := run₀.ask (i := true) rfl rfl (⟨publicKey, 0⟩ : SigningKey)
    (⟨⟨rfl, rfl⟩, rfl⟩ : signerHandler rotatingSigners true _ (.key .sample) _ (.new, _))
  have hoffline : ps₁ false = some (rotatingCalls false).process := hne₁ false Bool.false_ne_true
  obtain ⟨ps₂, run₂, hps₂, hne₂⟩ := run₁.ask hoffline rfl (SigningKey.new rotatingKeys 1)
    (⟨⟨rfl, rfl⟩, rfl⟩ : signerHandler rotatingSigners false _ (.key .sample) _ (.new, _))
  have hsign : ps₂ true = _ := (hne₂ true Bool.false_ne_true.symm).trans hps₁
  obtain ⟨ps₃, run₃, hps₃, -⟩ := run₂.ask hsign rfl (Except.ok (AccessKeyView.sample 5)) rfl
  obtain ⟨ps₄, run₄, hps₄, -⟩ := run₃.ask hps₃ rfl r.1
    (⟨rfl, rfl⟩ : signerHandler rotatingSigners true (.new, _)
      (.nextNonce "testnet" .alice publicKey 5) r.1 (r.2, _))
  have htx : (TransactionBuilder.sample 2).transaction Signer.sample.accountId publicKey r.1
      (AccessKeyView.sample 5).blockHash = rotatingTransaction.transaction := rfl
  simp only [htx, hhash] at hps₄
  obtain ⟨ps₅, run₅, hps₅, -⟩ := run₄.ask hps₄ rfl
    (Except.ok (Signature.ed25519 rotatingSignature)) ⟨rfl, rfl⟩
  have run₆ := Interleaving.returned run₅ hps₅
  obtain ⟨-, hsigned, -, -⟩ := signed_by_own_key rotating_signatureLaw rotatingCalls run₆
  obtain ⟨hown, hnonce⟩ := hsigned true rotatingTransaction List.mem_cons_self
  exact ⟨_, _, _, run₆, hown, hnonce _ rfl⟩

end

end NearKit
