import NearKit.BuilderOutcomes
import NearKit.PublicKeyOrigins
import NearKit.SharedSigners

/-!
# Meta-transactions

One party signs its actions as a delegate action and hands over the text. A relayer decodes
it and sends it on in a transaction of its own. What the node is given are the actions of the
first party, under its signature, in a transaction of the relayer's.
-/
namespace NearKit
open Borsh

/-! ## Delegation and relay -/

inductive RelayResult where
  | notDelegated (result : Exit DelegateResult)
  | undecodable (error : DecodeError)
  | relayed (result : Exit SendResponse)
  deriving DecidableEq

/-- What the relayer does with the payload: `SignedDelegateAction::from_base64`,
`signed_delegate_action` and `send`. -/
def handOver [Crates] (relayer : TransactionBuilder) (level : WaitLevel) :
    Exit DelegateResult → Process Request Answer RelayResult
  | .ok d =>
    match SignedDelegateAction.fromBase64 d.payload with
    | .error e => .done (.undecodable e)
    | .ok signedDelegate =>
      ((relayer.signedDelegateAction signedDelegate).waitUntil level).intoFuture.map .relayed
  | result => .done (.notDelegated result)

/-- `delegate` of one party, and the relayer's part with its payload. -/
def relay [Crates] (b : TransactionBuilder) (options : DelegateOptions) (relayer : TransactionBuilder)
    (level : WaitLevel) : Process Request Answer RelayResult :=
  (b.delegate options).bind (handOver relayer level)

/-! ## The payload -/

namespace TransactionBuilder
variable [Crates] {b : TransactionBuilder} {options : DelegateOptions}

def Encoded (r : Exit DelegateResult) : Prop :=
  ∀ d, r = .ok d → d.signedDelegateAction.toBase64 = .ok d.payload

private theorem signDelegate_encoded (key : SigningKey) (senderId : AccountId) (nonce : Nonce)
    (maxBlockHeight : UInt64) :
    (b.signDelegate key senderId nonce maxBlockHeight).Obeys .idle (fun _ r => Encoded r) () := by
  unfold signDelegate
  simp only
  split
  · exact nofun
  · refine ⟨trivial, fun signature => ?_⟩
    cases signature with
    | error e => exact nofun
    | ok signature =>
      simp only
      split
      · exact nofun
      · next hpayload =>
        intro d hd
        cases hd
        exact hpayload

private theorem delegateAt_encoded (key : SigningKey) (senderId : AccountId) (nonce : Nonce) :
    (b.delegateAt options key senderId nonce).Obeys .idle (fun _ r => Encoded r) () := by
  unfold delegateAt
  cases options.maxBlockHeight with
  | some height => exact signDelegate_encoded ..
  | none =>
    refine ⟨trivial, fun status => ?_⟩
    cases status with
    | error e => exact nofun
    | ok latestBlockHeight => exact signDelegate_encoded ..

private theorem delegate_encoded : (b.delegate options).Obeys .idle (fun _ r => Encoded r) () := by
  unfold delegate
  split
  · exact nofun
  split
  · exact nofun
  split
  · exact nofun
  refine ⟨trivial, fun key => ?_⟩
  cases options.nonce with
  | some n => exact delegateAt_encoded ..
  | none =>
    refine ⟨trivial, fun view => ?_⟩
    cases view with
    | error e => exact nofun
    | ok accessKey => exact delegateAt_encoded ..

end TransactionBuilder

/-! ## Texts that decode -/

section
variable [Crates]

/-- The accounts and keys that the builder was given have passed the checks of their types. -/
structure TransactionBuilder.Checked (b : TransactionBuilder) : Prop where
  receiverId : b.receiverId.Valid
  signer : ∀ signer, b.effectiveSigner = some signer → signer.accountId.Valid
  actions : ∀ a ∈ b.actions, Format.action.Valid a

theorem DelegateAction.valid {d : DelegateAction} (hsender : d.senderId.Valid)
    (hreceiver : d.receiverId.Valid) (hkey : d.publicKey.isValid = true)
    (hactions : ∀ a ∈ d.actions.map NonDelegateAction.inner, Format.action.Valid a) :
    Format.delegateAction.Valid d := by
  intro p hp
  rcases List.mem_cons.mp hp with rfl | hp
  · exact hsender
  rcases List.mem_cons.mp hp with rfl | hp
  · exact hreceiver
  rcases List.mem_cons.mp hp with rfl | hp
  · trivial
  rcases List.mem_append.mp hp with hp | hp
  · obtain ⟨a, ha, hp⟩ := List.mem_flatMap.mp hp
    apply hactions a.inner (List.mem_map_of_mem ha)
    rw [NonDelegateAction.parts_inner]
    exact hp
  · obtain rfl := List.mem_singleton.mp (show p ∈ [Part.publicKey d.publicKey] from hp)
    exact hkey

private theorem Transaction.valid {tx : Transaction} (hsigner : tx.signerId.Valid)
    (hkey : tx.publicKey.isValid = true) (hreceiver : tx.receiverId.Valid)
    (hactions : ∀ a ∈ tx.actions, Format.action.Valid a) : Format.transaction.Valid tx := by
  intro p hp
  rcases List.mem_cons.mp hp with rfl | hp
  · exact hsigner
  rcases List.mem_cons.mp hp with rfl | hp
  · exact hkey
  rcases List.mem_cons.mp hp with rfl | hp
  · exact hreceiver
  rcases List.mem_cons.mp hp with rfl | hp
  · trivial
  · obtain ⟨a, ha, hp⟩ := List.mem_flatMap.mp hp
    exact hactions a ha p hp

theorem SignedDelegateAction.valid {d : SignedDelegateAction}
    (hd : Format.delegateAction.Valid d.delegateAction) : Format.signedDelegateAction.Valid d := by
  intro p hp
  rcases List.mem_append.mp hp with hp | hp
  · exact hd p hp
  · cases hp

theorem SignedDelegateAction.fromBase64_toBase64 {d : SignedDelegateAction} {text : String}
    (hd : Format.delegateAction.Valid d.delegateAction) (h : d.toBase64 = .ok text) :
    fromBase64 text = .ok d := by
  refine Format.fromBase64_toBase64 (valid hd) (fun b hb => ?_) h
  simp [fromBytes, hb, Except.mapError]

private theorem SignedTransaction.fromBase64_toBase64 {tx : SignedTransaction} {text : String}
    (htx : Format.transaction.Valid tx.transaction) (h : tx.toBase64 = .ok text) :
    fromBase64 text = .ok tx := by
  have hv : Format.signedTransaction.Valid tx := by
    intro p hp
    rcases List.mem_append.mp hp with hp | hp
    · exact htx p hp
    · cases hp
  refine Format.fromBase64_toBase64 hv (fun b hb => ?_) h
  simp [fromBytes, hb, Except.mapError]

end

/-! ## What is sent on -/

section
variable [Crates]

/-- The keys that were claimed can be decoded. -/
def KeysValid (xs : List (Exchange Request Answer)) : Prop :=
  ∀ signer key, ⟨.key signer, key⟩ ∈ xs → key.publicKey.isValid = true

theorem KeysValid.of_subset {xs ys : List (Exchange Request Answer)} (h : KeysValid ys)
    (hxs : xs ⊆ ys) : KeysValid xs :=
  fun signer key hmem => h signer key (hxs hmem)

/-- The transaction carries the delegate action that the builder has signed. -/
structure Carries (b relayer : TransactionBuilder) (xs : List (Exchange Request Answer))
    (tx : SignedTransaction) (signed : SignedDelegateAction) : Prop where
  receiverId : tx.transaction.receiverId = signed.delegateAction.senderId
  actions : tx.transaction.actions = relayer.actions ++ [.delegate signed]
  innerReceiverId : signed.delegateAction.receiverId = b.receiverId
  innerActions : signed.delegateAction.actions.map NonDelegateAction.inner = b.actions
  delegated : b.SignedDelegate xs signed
  relayed : relayer.Signed xs tx

/-- A submission of the relay. A claimed key that cannot be decoded would spoil the text. -/
def relays (b relayer : TransactionBuilder) (xs : List (Exchange Request Answer)) : Request → Prop
  | .sendTx tx _ => KeysValid xs → ∃ signed, Carries b relayer xs tx signed
  | _ => True

/-- What `delegate` leaves to the relayer. -/
structure Handed (b : TransactionBuilder) (xs : List (Exchange Request Answer)) (d : DelegateResult) :
    Prop where
  receiverId : d.signedDelegateAction.delegateAction.receiverId = b.receiverId
  innerActions : d.signedDelegateAction.delegateAction.actions.map NonDelegateAction.inner = b.actions
  delegated : b.SignedDelegate xs d.signedDelegateAction
  payload : d.signedDelegateAction.toBase64 = .ok d.payload

variable {b relayer : TransactionBuilder} {options : DelegateOptions} {level : WaitLevel}

omit [Crates] in
theorem TransactionBuilder.Custody.of_effectiveSigner {b' : TransactionBuilder}
    {xs : List (Exchange Request Answer)} {accountId : AccountId} {publicKey : PublicKey}
    {getHash : Except IoError CryptoHash} {signature : Signature}
    (h : b.Custody xs accountId publicKey getHash signature)
    (heq : b.effectiveSigner = b'.effectiveSigner) :
    b'.Custody xs accountId publicKey getHash signature := by
  obtain ⟨signer, key, hash, effective, account, claimed, names, hashed, signed⟩ := h
  exact .intro signer key hash (heq ▸ effective) account claimed names hashed signed

/-- `delegate` submits nothing, and so all that it does is allowed to the relay. -/
theorem delegate_handed : (b.delegate options).Obeys (.recording (relays b relayer))
    (fun xs r => ∀ d, r = .ok d → Handed b xs d) [] := by
  have hencoded : (b.delegate options).Obeys .idle (fun _ r => TransactionBuilder.Encoded r) () :=
    b.delegate_encoded
  have h := ((b.delegate_custody options).prod (b.delegate_obeys options)).prod hencoded
  refine h.simulate (fun s xs => s.1.1 = xs) ?_ ?_ rfl
  · rintro s xs q rfl hallows
    refine ⟨?_, fun a => rfl⟩
    cases q with
    | sendTx tx status => exact False.elim hallows.1.2
    | _ => trivial
  · rintro s xs r rfl hpost d rfl
    have hd := hpost.1.1 d rfl
    refine ⟨hd.receiverId, ?_, hd.signed, hpost.2 d rfl⟩
    rw [hd.actions]
    exact NonDelegateAction.map_inner_filterMap hd.notNested

/-- With valid keys, the relayer reads the signed action from the text. -/
theorem Handed.decoded {xs : List (Exchange Request Answer)} {d : DelegateResult}
    (h : Handed b xs d) (hb : b.Checked) (hkeys : KeysValid xs) :
    SignedDelegateAction.fromBase64 d.payload = .ok d.signedDelegateAction := by
  obtain ⟨signer, key, hash, heffective, haccount, hclaimed, hnames, -, -⟩ := h.delegated
  apply SignedDelegateAction.fromBase64_toBase64 (DelegateAction.valid _ _ _ _) h.payload
  · rw [haccount]
    exact hb.signer signer heffective
  · rw [h.receiverId]
    exact hb.receiverId
  · rw [hnames]
    exact hkeys signer key hclaimed
  · rw [h.innerActions]
    exact hb.actions

theorem relayed_obeys {xs : List (Exchange Request Answer)} {d : DelegateResult}
    {signedDelegate : SignedDelegateAction} (h : Handed b xs d)
    (hdecoded : KeysValid xs → signedDelegate = d.signedDelegateAction) :
    (((relayer.signedDelegateAction signedDelegate).waitUntil level).intoFuture).Obeys
      (.recording (relays b relayer)) (fun _ _ => True) xs := by
  let t := (relayer.signedDelegateAction signedDelegate).waitUntil level
  have hprod := t.intoFuture_custody.prod t.intoFuture_yields
  refine hprod.simulate (fun s zs => s.1 ⊆ zs ∧ xs ⊆ zs) ?_ (fun _ _ _ _ _ => trivial)
    ⟨List.nil_subset _, List.Subset.refl _⟩
  rintro ⟨ys, u⟩ zs q ⟨hys, hxs⟩ hallows
  refine ⟨?_, fun a => ⟨List.cons_subset_cons _ hys, List.subset_cons_of_subset _ hxs⟩⟩
  cases q with
  | sendTx tx status =>
    intro hkeys
    obtain ⟨hreceiver, hactions⟩ := hallows.2 tx status rfl
    have hsigned := hdecoded (hkeys.of_subset hxs)
    exact ⟨signedDelegate,
      { receiverId := hreceiver
        actions := hactions
        innerReceiverId := hsigned ▸ h.receiverId
        innerActions := hsigned ▸ h.innerActions
        delegated := hsigned ▸ h.delegated.mono hxs
        relayed := (hallows.1.1.mono hys).of_effectiveSigner rfl }⟩
  | _ => trivial

private theorem relay_obeys (hb : b.Checked) : (relay b options relayer level).Obeys
    (.recording (relays b relayer)) (fun xs r => KeysValid xs → ∀ e, r ≠ .undecodable e) [] := by
  have hdelegate : (b.delegate options).Obeys (.recording (relays b relayer)) _ [] := delegate_handed
  apply hdelegate.bind
  intro xs r hr
  cases r with
  | err e => exact fun _ _ => nofun
  | panic => exact fun _ _ => nofun
  | ok d =>
    have hd := hr d rfl
    simp only [handOver]
    split
    · next e he =>
      intro hkeys
      rw [hd.decoded hb hkeys] at he
      cases he
    · next signedDelegate he =>
      apply Process.Obeys.map
      refine (relayed_obeys hd fun hkeys => ?_).imp fun _ _ _ _ _ => nofun
      rw [hd.decoded hb hkeys] at he
      cases he
      rfl

end

/-! ## Pools -/

/-- A party that delegates and a relayer. -/
structure MetaTransaction where
  builder : TransactionBuilder
  options : DelegateOptions
  relayer : TransactionBuilder
  level : WaitLevel

variable [SigningCrates] {ι ρ : Type} [DecidableEq ι] {signers : Signers ρ}
variable {s₀ s : NonceManager × ρ} {es : List (Occurrence ι (NonceManager × ρ) Request Answer RelayResult)}
variable {ps : ι → Option (Process Request Answer RelayResult)}

namespace MetaTransaction

def process (m : MetaTransaction) : Process Request Answer RelayResult :=
  relay m.builder m.options m.relayer m.level

/-- What both were given has passed the checks of its type. -/
structure Checked (m : MetaTransaction) : Prop where
  builder : m.builder.Checked
  relayer : m.relayer.Checked

end MetaTransaction

/-- What is signed names a public key whose secret made the signature, and verifies. -/
inductive Authentic (signers : Signers ρ) (publicKey : PublicKey)
    (getHash : Except IoError CryptoHash) (signature : Signature) : Prop where
  | intro (backend : ℕ) (hash : CryptoHash) (own : publicKey = (signers.keys backend).publicKey)
      (hashed : getHash = .ok hash)
      (signed : (signers.keys backend).sign hash.val = some signature)
      (verifies : signature.verify hash.val publicKey = true)

/-- What reaches the node: the relayer's transaction as the node reads it from the text, and
in it what the other party has asked for. -/
structure Delivers (signers : Signers ρ) (m : MetaTransaction) (tx : SignedTransaction)
    (signed : SignedDelegateAction) : Prop where
  receiverId : tx.transaction.receiverId = signed.delegateAction.senderId
  actions : tx.transaction.actions = m.relayer.actions ++ [.delegate signed]
  innerReceiverId : signed.delegateAction.receiverId = m.builder.receiverId
  innerActions : signed.delegateAction.actions.map NonDelegateAction.inner = m.builder.actions
  sender : ∃ signer, m.builder.effectiveSigner = some signer ∧
    signed.delegateAction.senderId = signer.accountId
  inner : Authentic signers signed.delegateAction.publicKey signed.delegateAction.getHash
    signed.signature
  outer : Authentic signers tx.transaction.publicKey tx.transaction.getHash tx.signature
  transport : ∀ text, tx.toBase64 = .ok text → SignedTransaction.fromBase64 text = .ok tx

section
variable {start : ι → Process Request Answer RelayResult} {i : ι}

theorem keysValid_exchangesOf (laws : KeyLaws)
    (run : Interleaving (signerHandler signers) start s₀ es s ps) (i : ι) :
    KeysValid (exchangesOf i es) := by
  intro signer key hmem
  obtain ⟨t, hasked⟩ := exists_asked_of_mem_exchangesOf hmem
  obtain ⟨t', hclaim, -⟩ := run.exists_step hasked
  rw [signers.bundled hclaim]
  exact PublicKey.isValid_of_publicKey laws (signers.keys key.backend).publicKey_eq

private theorem Authentic.of_custody (law : SignatureLaw)
    (run : Interleaving (signerHandler signers) start s₀ es s ps) {b : TransactionBuilder}
    {accountId : AccountId} {publicKey : PublicKey} {getHash : Except IoError CryptoHash}
    {signature : Signature}
    (h : b.Custody (exchangesOf i es) accountId publicKey getHash signature) :
    Authentic signers publicKey getHash signature := by
  obtain ⟨signer, key, hash, -, -, claimed, names, hashed, signed⟩ := h
  obtain ⟨t, hclaimed⟩ := exists_asked_of_mem_exchangesOf claimed
  obtain ⟨t', hclaim, -⟩ := run.exists_step hclaimed
  have hown : publicKey = (signers.keys key.backend).publicKey :=
    names.trans (signers.bundled hclaim)
  obtain ⟨u, hasked⟩ := exists_asked_of_mem_exchangesOf signed
  obtain ⟨u', hsign, -⟩ := run.exists_step hasked
  exact .intro key.backend hash hown hashed hsign (hown ▸ law _ _ _ hsign)

private theorem Carries.delegateAction_valid (laws : KeyLaws)
    (run : Interleaving (signerHandler signers) start s₀ es s ps) {b relayer : TransactionBuilder}
    (hb : b.Checked) {tx : SignedTransaction} {signed : SignedDelegateAction}
    (h : Carries b relayer (exchangesOf i es) tx signed) :
    Format.delegateAction.Valid signed.delegateAction := by
  obtain ⟨signer, key, hash, heffective, haccount, hclaimed, hnames, -, -⟩ := h.delegated
  apply DelegateAction.valid
  · rw [haccount]
    exact hb.signer signer heffective
  · rw [h.innerReceiverId]
    exact hb.receiverId
  · rw [hnames]
    exact keysValid_exchangesOf laws run i signer key hclaimed
  · rw [h.innerActions]
    exact hb.actions

private theorem Carries.transaction_valid (laws : KeyLaws)
    (run : Interleaving (signerHandler signers) start s₀ es s ps) {b relayer : TransactionBuilder}
    (hb : b.Checked) (hrelayer : relayer.Checked) {tx : SignedTransaction}
    {signed : SignedDelegateAction} (h : Carries b relayer (exchangesOf i es) tx signed) :
    Format.transaction.Valid tx.transaction := by
  have hd := h.delegateAction_valid laws run hb
  obtain ⟨signer, key, hash, heffective, haccount, hclaimed, hnames, -, -⟩ := h.relayed
  apply Transaction.valid
  · rw [haccount]
    exact hrelayer.signer signer heffective
  · rw [hnames]
    exact keysValid_exchangesOf laws run i signer key hclaimed
  · rw [h.receiverId]
    exact hd _ List.mem_cons_self
  · intro a ha
    rw [h.actions] at ha
    rcases List.mem_append.mp ha with ha | ha
    · exact hrelayer.actions a ha
    · rw [List.mem_singleton.mp ha]
      exact SignedDelegateAction.valid hd

private theorem Delivers.of_carries (law : SignatureLaw) (laws : KeyLaws)
    (run : Interleaving (signerHandler signers) start s₀ es s ps) {m : MetaTransaction}
    (hm : m.Checked) {tx : SignedTransaction} {signed : SignedDelegateAction}
    (h : Carries m.builder m.relayer (exchangesOf i es) tx signed) :
    Delivers signers m tx signed where
  receiverId := h.receiverId
  actions := h.actions
  innerReceiverId := h.innerReceiverId
  innerActions := h.innerActions
  sender := by
    obtain ⟨signer, key, hash, heffective, haccount, -, -, -, -⟩ := h.delegated
    exact ⟨signer, heffective, haccount⟩
  inner := .of_custody law run h.delegated
  outer := .of_custody law run h.relayed
  transport text htext := SignedTransaction.fromBase64_toBase64
    (h.transaction_valid laws run hm.builder hm.relayer) htext

end

private theorem Carries.mono {b relayer : TransactionBuilder}
    {xs ys : List (Exchange Request Answer)} {tx : SignedTransaction} {signed : SignedDelegateAction}
    (h : Carries b relayer xs tx signed) (hxs : xs ⊆ ys) : Carries b relayer ys tx signed :=
  { h with
    delegated := h.delegated.mono hxs
    relayed := h.relayed.mono hxs }

/-- Any number of parties delegate and are relayed, with signers in common. In every
interleaving no relayer fails to read what it is handed, and a node that decodes what it is
sent finds the actions of the first party, whole and in order, for its receiver and in its
name, under a signature of its own that verifies; the relayer's transaction around them
verifies too. -/
theorem relay_delivers (law : SignatureLaw) (laws : KeyLaws) (calls : ι → MetaTransaction)
    (hcalls : ∀ i, (calls i).Checked)
    (run : Interleaving (signerHandler signers) (fun i => (calls i).process) s₀ es s ps) :
    (∀ i e, .returned i (.undecodable e) ∉ es) ∧
      ∀ i t tx status a, .asked i t (.sendTx tx status) a ∈ es →
        ∃ signed, Delivers signers (calls i) tx signed := by
  have hobeys (i : ι) : (calls i).process.Obeys
      (.recording (relays (calls i).builder (calls i).relayer))
      (fun xs r => KeysValid xs → ∀ e, r ≠ .undecodable e) [] := relay_obeys (hcalls i).builder
  have hrecorded := fun i => run.recorded (hobeys i)
  constructor
  · intro i e hreturned
    obtain ⟨xs, hxs, hpost⟩ := (hrecorded i).2 _ hreturned
    exact hpost ((keysValid_exchangesOf laws run i).of_subset hxs) e rfl
  · intro i t tx status a hasked
    obtain ⟨xs, hxs, hrelays⟩ := (hrecorded i).1 _ _ _ hasked
    obtain ⟨signed, hcarries⟩ := hrelays ((keysValid_exchangesOf laws run i).of_subset hxs)
    exact ⟨signed, .of_carries law laws run (hcalls i) (hcarries.mono hxs)⟩
/-! ## A sample run -/

section
omit [SigningCrates]

/-- The digest of the delegate action of the sample run. -/
def delegateDigest : ByteArr 32 :=
  ⟨[126, 153, 128, 121, 189, 230, 170, 109, 191, 24, 244, 146, 177, 65, 229, 234, 242, 147, 185,
    221, 50, 245, 233, 121, 29, 62, 58, 12, 250, 103, 20, 39], rfl⟩

/-- Its signature by the secret of 32 zeros. -/
def delegateSignature : ByteArr 64 :=
  ⟨[139, 93, 186, 53, 247, 101, 130, 9, 48, 37, 224, 203, 232, 52, 61, 248, 1, 38, 235, 204, 80,
    165, 217, 238, 244, 255, 99, 143, 211, 5, 79, 151, 36, 9, 3, 80, 59, 72, 132, 139, 109, 109, 70,
    138, 247, 200, 197, 220, 57, 169, 114, 229, 59, 221, 145, 216, 122, 184, 201, 60, 7, 64, 150,
    7], rfl⟩

def relayDelegate : SignedDelegateAction :=
  ⟨⟨.alice, .bob, [.transfer ⟨1⟩], 7, 100, .ed25519 (samplePublic (.zeros 32))⟩,
    .ed25519 delegateSignature⟩

def relayerSecret : ByteArr 32 := ⟨List.replicate 32 1, List.length_replicate⟩

def relayTransaction : Transaction :=
  ⟨.bob, .ed25519 (samplePublic relayerSecret), 6, .alice, .zeros 32, [.delegate relayDelegate]⟩

def relayDigest : ByteArr 32 :=
  ⟨[130, 245, 113, 114, 216, 35, 11, 10, 253, 235, 94, 47, 43, 73, 193, 32, 228, 162, 49, 165, 134,
    128, 188, 248, 115, 220, 139, 112, 124, 158, 10, 135], rfl⟩

def relaySignature : ByteArr 64 :=
  ⟨[56, 53, 248, 81, 93, 176, 37, 194, 12, 58, 216, 124, 254, 204, 11, 143, 249, 96, 224, 52, 202,
    105, 145, 231, 28, 243, 161, 87, 254, 221, 215, 8, 229, 60, 234, 196, 230, 214, 66, 182, 234,
    204, 30, 129, 17, 206, 127, 128, 90, 216, 251, 169, 22, 51, 209, 213, 192, 172, 21, 125, 31, 63,
    203, 11], rfl⟩

/-- Answers right for the sample run. The delegate action is hashed with its prefix. -/
@[reducible] def SigningCrates.relaying : SigningCrates :=
  { SigningCrates.sample with
    sha256 := fun bytes => if bytes.head? = some 110 then delegateDigest else relayDigest
    ed25519Sign := fun seed _ => if seed = relayerSecret then relaySignature else delegateSignature }

private theorem relaying_signatureLaw : @SignatureLaw SigningCrates.relaying :=
  SigningCrates.sample_signatureLaw _ _

private theorem relaying_keyLaws : @KeyLaws SigningCrates.relaying.toKeyCrates := by
  let _ := SigningCrates.relaying
  obtain ⟨tag, decompressed, secp256k1Public, ed25519Public⟩ := KeyCrates.sample_laws
  exact ⟨tag, decompressed, secp256k1Public, ed25519Public⟩

def relayingKeys (backend : ℕ) : @BundledKey SigningCrates.relaying :=
  let seed : ByteArr 32 := if backend = 0 then .zeros 32 else relayerSecret
  @BundledKey.mk SigningCrates.relaying (.ed25519 seed) (.ed25519 (samplePublic seed)) rfl

/-- Every signer has the key of its handle. -/
def relayingSigners : @Signers SigningCrates.relaying (Signer → UInt64) :=
  @RotatingSigner.signers SigningCrates.relaying relayingKeys fun signer =>
    ⟨[signer.handle], Nat.one_pos⟩

/-- A transfer that Alice signs and Bob relays. -/
def MetaTransaction.sample : MetaTransaction where
  builder := .sample 0
  options := ⟨some 100, none, some 7⟩
  relayer := .new "testnet" (some ⟨1, .bob⟩) .alice 0
  level := .executedOptimistic

private theorem MetaTransaction.sample_checked : @Checked SigningCrates.relaying .sample := by
  let _ := SigningCrates.relaying
  exact ⟨⟨rfl, fun _ _ => rfl, by decide⟩, ⟨rfl, fun _ _ => rfl, by decide⟩⟩

theorem relay_delivers_sample : ∃ es s ps,
    Interleaving (@signerHandler SigningCrates.relaying Unit _ relayingSigners)
      (fun _ => @MetaTransaction.process SigningCrates.relaying .sample) (.new, fun _ => 0)
      es s ps ∧
    ∃ signed, @Delivers SigningCrates.relaying _ relayingSigners .sample
      ⟨relayTransaction, .ed25519 relaySignature⟩ signed := by
  let _ := SigningCrates.relaying
  let delegateKey : PublicKey := .ed25519 (samplePublic (.zeros 32))
  let relayKey : PublicKey := .ed25519 (samplePublic relayerSecret)
  let r := NonceManager.new.next "testnet" .bob relayKey 5
  have hhash : relayDelegate.delegateAction.getHash = .ok delegateDigest := by decide
  have hrelayHash : relayTransaction.getHash = .ok relayDigest := by decide
  obtain ⟨text, htext⟩ :=
    (Format.signedDelegateAction.lawful.fits_iff relayDelegate).mp (by decide)
  have hpayload : relayDelegate.toBase64 = .ok (Base64.encode text) := by
    unfold SignedDelegateAction.toBase64 SignedDelegateAction.toBytes Codec.toVec
    rw [htext]
    rfl
  have hdecoded : SignedDelegateAction.fromBase64 (Base64.encode text) = .ok relayDelegate :=
    SignedDelegateAction.fromBase64_toBase64 (by decide) hpayload
  have run₀ : Interleaving (signerHandler relayingSigners)
      (fun _ : Unit => MetaTransaction.sample.process) (.new, fun _ => 0) [] (.new, fun _ => 0)
      fun _ => some MetaTransaction.sample.process := .init
  obtain ⟨ps₁, run₁, hps₁, -⟩ := run₀.ask (i := ()) rfl rfl (SigningKey.new relayingKeys 0)
    (⟨⟨rfl, rfl⟩, rfl⟩ : signerHandler relayingSigners () _ (.key .sample) _ (.new, _))
  have hsign : ps₁ () = some (((TransactionBuilder.sample 0).signDelegate
      (SigningKey.new relayingKeys 0) .alice 7 100).bind
        (handOver MetaTransaction.sample.relayer .executedOptimistic)) := hps₁
  have haction : relayDelegate.delegateAction = ⟨.alice, (TransactionBuilder.sample 0).receiverId,
      (TransactionBuilder.sample 0).actions.filterMap NonDelegateAction.fromAction, 7, 100,
      (SigningKey.new relayingKeys 0).publicKey⟩ := by decide
  rw [TransactionBuilder.signDelegate_eq haction hhash] at hsign
  obtain ⟨ps₂, run₂, hps₂, -⟩ := run₁.ask hsign rfl
    (Except.ok (Signature.ed25519 delegateSignature)) ⟨rfl, rfl⟩
  have hencoded : (relayDelegate.delegateAction.sign (.ed25519 delegateSignature)).toBase64 =
    .ok (Base64.encode text) := hpayload
  simp only [hencoded, Process.bind, handOver, hdecoded] at hps₂
  obtain ⟨ps₃, run₃, hps₃, -⟩ := run₂.ask hps₂ rfl (SigningKey.new relayingKeys 1)
    (⟨⟨rfl, rfl⟩, rfl⟩ : signerHandler relayingSigners () _ (.key ⟨1, .bob⟩) _ (.new, _))
  obtain ⟨ps₄, run₄, hps₄, -⟩ := run₃.ask hps₃ rfl (Except.ok (AccessKeyView.sample 5)) rfl
  obtain ⟨ps₅, run₅, hps₅, -⟩ := run₄.ask hps₄ rfl r.1
    (⟨rfl, rfl⟩ : signerHandler relayingSigners () (.new, _) (.nextNonce "testnet" .bob relayKey 5)
      r.1 (r.2, _))
  have htx : ((MetaTransaction.sample.relayer.signedDelegateAction relayDelegate).waitUntil
      .executedOptimistic).builder.transaction .bob (SigningKey.new relayingKeys 1).publicKey r.1
      (AccessKeyView.sample 5).blockHash = relayTransaction := rfl
  simp only [htx, hrelayHash] at hps₅
  obtain ⟨ps₆, run₆, hps₆, -⟩ := run₅.ask hps₅ rfl
    (Except.ok (Signature.ed25519 relaySignature)) ⟨rfl, rfl⟩
  obtain ⟨ps₇, run₇, -, -⟩ := run₆.ask hps₆ rfl (Except.error (RpcError.timeout 0)) rfl
  obtain ⟨-, hdelivers⟩ := relay_delivers relaying_signatureLaw relaying_keyLaws
    (fun _ => MetaTransaction.sample) (fun _ => MetaTransaction.sample_checked) run₇
  exact ⟨_, _, _, run₇, hdelivers () _ _ _ _ List.mem_cons_self⟩

end

end NearKit
