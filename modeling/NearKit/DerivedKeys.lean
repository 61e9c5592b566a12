import NearKit.CheckedArithmetic
import NearKit.Errors
import NearKit.HashChains
import NearKit.HdPaths
import NearKit.SecretKeys

/-!
# Keys derived from seed phrases

The Ed25519 and the ML-DSA-65 branch walk along a path by the same steps, from master nodes
under different salts. Two derivations give the same secret because they are the same, or
because of a coincidence of the HMAC.
-/
namespace NearKit
open Borsh

/-! ## The derivation -/

/-- What the code asks of the mnemonic library, and the Unicode tables it reads. -/
class SeedCrates extends HdCrates where
  Mnemonic : Type
  /-- `Mnemonic::from_str` -/
  parseMnemonic : String → Option Mnemonic
  toSeed : Mnemonic → String → ByteArr 64
  /-- `str::to_lowercase` -/
  toLowercase : String → String
  /-- The characters that `Debug` writes by their numbers. -/
  byNumber : Char → Bool

theorem length_take_32 (node : ByteArr 64) : (node.val.take 32).length = 32 := by
  rw [List.length_take, node.2]
  rfl

/-- `I_L`, the secret of a node. -/
def nodeSecret (node : ByteArr 64) : ByteArr 32 := ⟨node.val.take 32, length_take_32 node⟩

def ed25519SeedSalt : Bytes := Codec.utf8 "ed25519 seed"

def mlDsa65SeedSalt : Bytes := Codec.utf8 "ML-DSA-65 seed"

/-- The branches differ in the salt of the master node, and in the key that they make of the
secret of a node. -/
inductive SeedBranch where
  | ed25519 | mlDsa65
  deriving DecidableEq

namespace SeedBranch

def salt : SeedBranch → Bytes
  | ed25519 => ed25519SeedSalt
  | mlDsa65 => mlDsa65SeedSalt

def secretKey : SeedBranch → ByteArr 32 → SecretKey
  | ed25519 => .ed25519FromBytes
  | mlDsa65 => .mlDsa65FromSeed

theorem asBytes_secretKey (branch : SeedBranch) (secret : ByteArr 32) :
    (branch.secretKey secret).asBytes = secret.val := by
  cases branch <;> rfl

variable [HdCrates]

def derive (branch : SeedBranch) (seed : Bytes) (path : List UInt32) : Option (ByteArr 32) :=
  (deriveSlip10Node branch.salt seed path).map nodeSecret

end SeedBranch

section
variable [HdCrates]

def deriveEd25519Slip10 (seed : Bytes) (path : List UInt32) : Option (ByteArr 32) :=
  SeedBranch.ed25519.derive seed path

def deriveMlDsa65Slip10 (seed : Bytes) (path : List UInt32) : Option (ByteArr 32) :=
  SeedBranch.mlDsa65.derive seed path

end

def splitWhitespace (s : String) : List String :=
  ((s.toList.splitOnP Text.isWhitespace).filter (· ≠ [])).map String.ofList

section
variable [SeedCrates]

/-- The mnemonic is trimmed, in lower case, and with single blanks. -/
def mnemonicToSeed (phrase : String) (passphrase : Option String) : Except SignerError (ByteArr 64) :=
  let trimmed := String.ofList (Text.trim phrase.toList)
  let normalized := String.intercalate " " (splitWhitespace (SeedCrates.toLowercase trimmed))
  match SeedCrates.parseMnemonic normalized with
  | some mnemonic => .ok (SeedCrates.toSeed mnemonic (passphrase.getD ""))
  | none => .error .invalidSeedPhrase

def defaultHdPath : String := "m/44'/397'/0'"

namespace SecretKey

/-- The way from a phrase to a key, by the branch. -/
def ofPhrase (branch : SeedBranch) (phrase hdPath : String) (passphrase : Option String) :
    MayPanic SignerError SecretKey :=
  match mnemonicToSeed phrase passphrase with
  | .error e => .err e
  | .ok seed =>
    match parseHdPath hdPath with
    | .error e => .err (.keyDerivationFailed ("Invalid HD path: " ++ e.display SeedCrates.byNumber))
    | .ok path => .orPanic ((branch.derive seed.val path).map branch.secretKey)

def fromSeedPhraseWithPathAndPassphrase (phrase hdPath : String) (passphrase : Option String) :
    MayPanic SignerError SecretKey :=
  ofPhrase .ed25519 phrase hdPath passphrase

def fromSeedPhraseWithPath (phrase hdPath : String) : MayPanic SignerError SecretKey :=
  fromSeedPhraseWithPathAndPassphrase phrase hdPath none

def fromSeedPhrase (phrase : String) : MayPanic SignerError SecretKey :=
  fromSeedPhraseWithPath phrase defaultHdPath

def mlDsa65FromSeedPhraseWithPathAndPassphrase (phrase hdPath : String) (passphrase : Option String) :
    MayPanic SignerError SecretKey :=
  ofPhrase .mlDsa65 phrase hdPath passphrase

def mlDsa65FromSeedPhraseWithPath (phrase hdPath : String) : MayPanic SignerError SecretKey :=
  mlDsa65FromSeedPhraseWithPathAndPassphrase phrase hdPath none

def mlDsa65FromSeedPhrase (phrase : String) : MayPanic SignerError SecretKey :=
  mlDsa65FromSeedPhraseWithPath phrase defaultHdPath

end SecretKey
end

/-! ## The derivation as a chain -/

/-- A key of the HMAC, filled up to a block. -/
def blockKey (key : Bytes) : Bytes := key ++ List.replicate (128 - key.length) 0

/-- A key and a message, as the HMAC sees them. -/
def hmacInput (x : Bytes × Bytes) : Bytes × Bytes := (blockKey x.1, x.2)

section
variable [HdCrates]

/-- The master node is the root, a hardened child is a step. -/
def slip10 : HashChain (SeedBranch × Bytes) UInt32 (Bytes × Bytes) (ByteArr 64) where
  hash x := HdCrates.hmacSha512 x.1 x.2
  root r := (r.1.salt, r.2)
  child node index :=
    (node.val.drop 32, 0 :: node.val.take 32 ++ (leBytes 4 index.toNat).reverse)

theorem deriveSlip10Node_eq (branch : SeedBranch) (seed : Bytes) {path : List UInt32}
    (hpath : ∀ i ∈ path, i &&& hardened ≠ 0) :
    deriveSlip10Node branch.salt seed path = some (slip10.node (branch, seed) path.reverse) := by
  rw [← slip10.foldl_eq_node]
  have hwalk : ∀ node, path.foldlM deriveHardenedChild node =
      some (path.foldl (fun y i => slip10.hash (slip10.child y i)) node) := by
    intro node
    induction path generalizing node with
    | nil => rfl
    | cons i path ih =>
      obtain ⟨hi, hpath⟩ := List.forall_mem_cons.mp hpath
      rw [List.foldlM_cons, deriveHardenedChild, if_pos hi]
      exact ih hpath _
  exact hwalk _

end

/-! ## What an HMAC input tells -/

private theorem blockKey_inj {key key' : Bytes} (hlen : key.length = key'.length)
    (h : blockKey key = blockKey key') : key = key' :=
  (List.append_inj h hlen).1

private theorem blockKey_salt_inj {branch branch' : SeedBranch}
    (h : blockKey branch.salt = blockKey branch'.salt) : branch = branch' := by
  have hhead := congrArg List.head? h
  cases branch <;> cases branch' <;> first | rfl | exact absurd hhead (by decide)

private theorem leBytes_inj {n n' : UInt32} (h : leBytes 4 n.toNat = leBytes 4 n'.toNat) :
    n = n' := by
  have hnat := congrArg leNat h
  rw [leNat_leBytes n.toNat_lt, leNat_leBytes n'.toNat_lt] at hnat
  exact UInt32.toNat_inj.mp hnat

section
variable [HdCrates]

private theorem hmacInput_root (r r' : SeedBranch × Bytes)
    (h : hmacInput (slip10.root r) = hmacInput (slip10.root r')) : r = r' := by
  obtain ⟨hkey, hseed⟩ := Prod.mk.inj h
  exact Prod.ext (blockKey_salt_inj hkey) hseed

/-- A step tells the node that it starts from, and its index. -/
theorem hmacInput_child (node : ByteArr 64) (index : UInt32) (node' : ByteArr 64) (index' : UInt32)
    (h : hmacInput (slip10.child node index) = hmacInput (slip10.child node' index')) :
    node = node' ∧ index = index' := by
  obtain ⟨hkey, hdata⟩ := Prod.mk.inj h
  have hcode : node.val.drop 32 = node'.val.drop 32 := by
    have hlen : (node.val.drop 32).length = (node'.val.drop 32).length := by
      rw [List.length_drop, List.length_drop, node.2, node'.2]
    exact blockKey_inj hlen hkey
  have hlen : (node.val.take 32).length = (node'.val.take 32).length := by
    rw [length_take_32, length_take_32]
  obtain ⟨hsecret, hindex⟩ := List.append_inj (List.cons.inj hdata).2 hlen
  constructor
  · apply Subtype.ext
    rw [← List.take_append_drop 32 node.val, hsecret, hcode, List.take_append_drop]
  · exact leBytes_inj (List.reverse_injective hindex)

/-- The HMAC queries of a derivation, the last first. -/
def hmacQueries (branch : SeedBranch) (seed : Bytes) (path : List UInt32) : List (Bytes × Bytes) :=
  slip10.inputs (branch, seed) path.reverse

/-- Why two derivations give the same secret. -/
inductive SecretsMeet (branch : SeedBranch) (seed : Bytes) (path : List UInt32) (branch' : SeedBranch)
    (seed' : Bytes) (path' : List UInt32) : Prop where
  | same (branch_eq : branch = branch') (seed_eq : seed = seed') (path_eq : path = path')
  /-- Two queries give the same node. -/
  | collision (x x' : Bytes × Bytes) (left : x ∈ hmacQueries branch seed path)
    (right : x' ∈ hmacQueries branch' seed' path') (differ : hmacInput x ≠ hmacInput x')
    (alike : HdCrates.hmacSha512 x.1 x.2 = HdCrates.hmacSha512 x'.1 x'.2)
  /-- The last queries give nodes with the same first half. -/
  | halfCollision (x x' : Bytes × Bytes) (left : (hmacQueries branch seed path).head? = some x)
    (right : (hmacQueries branch' seed' path').head? = some x') (differ : hmacInput x ≠ hmacInput x')
    (alike : nodeSecret (HdCrates.hmacSha512 x.1 x.2) = nodeSecret (HdCrates.hmacSha512 x'.1 x'.2))
  /-- A chain code of one derivation is the salt of the other, filled up. -/
  | salt (x x' : Bytes × Bytes) (left : x ∈ hmacQueries branch seed path)
    (right : x' ∈ hmacQueries branch' seed' path') (differ : x.1 ≠ x'.1)
    (alike : hmacInput x = hmacInput x')

theorem root_fst_ne_child_fst (r : SeedBranch × Bytes) (node : ByteArr 64) (index : UInt32) :
    (slip10.root r).1 ≠ (slip10.child node index).1 := by
  intro h
  have hlen : r.1.salt.length = (node.val.drop 32).length := congrArg List.length h
  rw [List.length_drop, node.2] at hlen
  revert hlen
  cases r.1 <;> decide

variable {branch branch' : SeedBranch} {seed seed' : Bytes} {path path' : List UInt32}

private theorem SecretsMeet.of_coincide
    (h : slip10.Coincide hmacInput (branch, seed) path.reverse (branch', seed') path'.reverse) :
    SecretsMeet branch seed path branch' seed' path' := by
  cases h with
  | same root labels =>
    exact .same (congrArg Prod.fst root) (congrArg Prod.snd root) (List.reverse_injective labels)
  | collide x x' left right differ alike => exact .collision x x' left right differ alike
  | clashLeft clash =>
    obtain ⟨index, labels, hsuffix, heq⟩ := clash
    exact .salt _ _ (slip10.last_mem_inputs_of_suffix (List.nil_suffix))
      (slip10.last_mem_inputs_of_suffix hsuffix) (root_fst_ne_child_fst _ _ _) heq
  | clashRight clash =>
    obtain ⟨index, labels, hsuffix, heq⟩ := clash
    exact .salt _ _ (slip10.last_mem_inputs_of_suffix hsuffix)
      (slip10.last_mem_inputs_of_suffix (List.nil_suffix)) (root_fst_ne_child_fst _ _ _).symm heq.symm

private theorem SecretsMeet.of_secrets (hpath : ∀ i ∈ path, i &&& hardened ≠ 0)
    (hpath' : ∀ i ∈ path', i &&& hardened ≠ 0) {secret : ByteArr 32}
    (h : branch.derive seed path = some secret) (h' : branch'.derive seed' path' = some secret) :
    SecretsMeet branch seed path branch' seed' path' := by
  rw [SeedBranch.derive, deriveSlip10Node_eq _ _ hpath] at h
  rw [SeedBranch.derive, deriveSlip10Node_eq _ _ hpath'] at h'
  have hsecret : nodeSecret (slip10.node (branch, seed) path.reverse) =
      nodeSecret (slip10.node (branch', seed') path'.reverse) :=
    Option.some.inj (h.trans h'.symm)
  rcases HashChain.coincide_of_view hmacInput_root hmacInput_child hsecret with ⟨hlast, halike⟩ | hmeet
  · exact .halfCollision _ _ (slip10.head?_inputs _ _) (slip10.head?_inputs _ _) hlast halike
  · exact .of_coincide hmeet

end

/-! ## Keys from phrases -/

section
variable [SeedCrates]

/-- What a key from a phrase is made of. -/
structure Derives (branch : SeedBranch) (phrase hdPath : String) (passphrase : Option String)
    (seed : Bytes) (path : List UInt32) (secret : ByteArr 32) : Prop where
  seed_eq : (mnemonicToSeed phrase passphrase).map Subtype.val = .ok seed
  path_eq : parseHdPath hdPath = .ok path
  secret_eq : branch.derive seed path = some secret

omit [SeedCrates] in
theorem parseHdPath_hardened {hdPath : String} {path : List UInt32} (h : parseHdPath hdPath = .ok path) :
    ∀ i ∈ path, i &&& hardened ≠ 0 := by
  rcases HdPath.parseHdPath_eq_ok.mp h with ⟨-, rfl⟩ | hbody
  · exact nofun
  · exact hbody.hardened

private theorem SecretKey.ofPhrase_cases (branch : SeedBranch) (phrase hdPath : String)
    (passphrase : Option String) :
    (∃ e, ofPhrase branch phrase hdPath passphrase = .err e) ∨
      ∃ seed path secret, Derives branch phrase hdPath passphrase seed path secret ∧
        ofPhrase branch phrase hdPath passphrase = .ok (branch.secretKey secret) := by
  unfold ofPhrase
  cases hseed : mnemonicToSeed phrase passphrase with
  | error e => exact .inl ⟨e, rfl⟩
  | ok seed =>
    cases hparse : parseHdPath hdPath with
    | error e => exact .inl ⟨_, rfl⟩
    | ok path =>
      have hnode := deriveSlip10Node_eq branch seed.val (parseHdPath_hardened hparse)
      have hderive : branch.derive seed.val path = some _ := congrArg (Option.map nodeSecret) hnode
      refine .inr ⟨seed.val, path, _, ⟨?_, hparse, hderive⟩, ?_⟩
      · rw [hseed]
        rfl
      · simp only [hderive]
        rfl

/-- No phrase, path or passphrase makes the derivation panic. Two keys from phrases, of either
branch, hold the same secret only if they were derived from the same seed along the same path
in the same branch, or the HMAC has coincided on inputs of the two derivations. -/
theorem derived_keys_separate (branch branch' : SeedBranch) (phrase hdPath phrase' hdPath' : String)
    (passphrase passphrase' : Option String) :
    SecretKey.ofPhrase branch phrase hdPath passphrase ≠ .panic ∧
      ∀ key key', SecretKey.ofPhrase branch phrase hdPath passphrase = .ok key →
        SecretKey.ofPhrase branch' phrase' hdPath' passphrase' = .ok key' →
        key.asBytes = key'.asBytes →
        ∃ seed path secret seed' path', Derives branch phrase hdPath passphrase seed path secret ∧
          Derives branch' phrase' hdPath' passphrase' seed' path' secret ∧
          SecretsMeet branch seed path branch' seed' path' := by
  constructor
  · rcases SecretKey.ofPhrase_cases branch phrase hdPath passphrase with ⟨e, he⟩ | ⟨_, _, _, -, hok⟩
    · rw [he]
      exact MayPanic.err_ne_panic e
    · rw [hok]
      exact MayPanic.ok_ne_panic _
  · intro key key' hkey hkey' hbytes
    rcases SecretKey.ofPhrase_cases branch phrase hdPath passphrase with
      ⟨e, he⟩ | ⟨seed, path, secret, hderives, hok⟩
    · exact absurd (he.symm.trans hkey) (MayPanic.err_ne_ok e key)
    rcases SecretKey.ofPhrase_cases branch' phrase' hdPath' passphrase' with
      ⟨e, he⟩ | ⟨seed', path', secret', hderives', hok'⟩
    · exact absurd (he.symm.trans hkey') (MayPanic.err_ne_ok e key')
    obtain rfl := MayPanic.ok_inj.mp (hok.symm.trans hkey)
    obtain rfl := MayPanic.ok_inj.mp (hok'.symm.trans hkey')
    rw [branch.asBytes_secretKey, branch'.asBytes_secretKey] at hbytes
    obtain rfl := Subtype.ext hbytes
    exact ⟨seed, path, secret, seed', path', hderives, hderives',
      .of_secrets (parseHdPath_hardened hderives.path_eq) (parseHdPath_hardened hderives'.path_eq)
        hderives.secret_eq hderives'.secret_eq⟩

end

/-! ### Two spellings of a path -/

def samplePhrase : String :=
  "abandon abandon abandon abandon abandon abandon abandon abandon abandon abandon abandon about"

def sampleSeed : ByteArr 64 :=
  ⟨[94, 176, 11, 189, 220, 240, 105, 8, 72, 137, 168, 171, 145, 85, 86, 129, 101, 245, 196, 83, 204,
    184, 94, 112, 129, 26, 174, 214, 246, 218, 95, 193, 154, 90, 196, 11, 56, 156, 211, 112, 208, 134,
    32, 109, 236, 138, 166, 196, 61, 174, 166, 105, 15, 32, 173, 61, 141, 72, 178, 210, 206, 158, 56,
    228], rfl⟩

def sampleMaster : ByteArr 64 :=
  ⟨[86, 15, 159, 60, 148, 85, 139, 101, 81, 146, 139, 183, 129, 207, 96, 146, 198, 184, 128, 11, 79,
    197, 68, 175, 44, 148, 68, 237, 18, 109, 81, 170, 221, 250, 113, 16, 151, 1, 187, 247, 193, 38,
    200, 199, 171, 88, 128, 176, 222, 195, 209, 103, 168, 254, 106, 250, 122, 149, 151, 223, 11, 190,
    231, 43], rfl⟩

def sampleChild : ByteArr 64 :=
  ⟨[86, 216, 244, 196, 59, 206, 113, 134, 193, 113, 128, 134, 51, 186, 92, 228, 113, 43, 81, 206, 223,
    250, 164, 38, 97, 28, 141, 115, 98, 168, 42, 12, 70, 0, 21, 207, 74, 46, 162, 134, 136, 48, 206,
    104, 218, 238, 164, 216, 92, 134, 193, 195, 242, 116, 243, 121, 130, 207, 136, 201, 142, 40, 99,
    201], rfl⟩

/-- Answers right for the sample phrase and the first hardened child of its master node. -/
@[reducible] def SeedCrates.sample : SeedCrates where
  hmacSha512 _ message := if message = sampleSeed.val then sampleMaster else sampleChild
  Mnemonic := Unit
  parseMnemonic _ := some ()
  toSeed _ _ := sampleSeed
  toLowercase s := s
  byNumber _ := false

private theorem ofPhrase_sample {hdPath : String} (h : parseHdPath hdPath = .ok [0x80000000]) :
    @SecretKey.ofPhrase SeedCrates.sample .ed25519 samplePhrase hdPath none =
      .ok (.ed25519 (nodeSecret sampleChild)) := by
  let _ := SeedCrates.sample
  have hseed : mnemonicToSeed samplePhrase none = .ok sampleSeed := rfl
  simp only [SecretKey.ofPhrase, hseed, h]
  decide

theorem derived_keys_separate_sample :
    ∃ seed path secret seed' path',
      @Derives SeedCrates.sample .ed25519 samplePhrase "m/0'" none seed path secret ∧
      @Derives SeedCrates.sample .ed25519 samplePhrase "/0H/" none seed' path' secret ∧
      @SecretsMeet SeedCrates.sample.toHdCrates .ed25519 seed path .ed25519 seed' path' := by
  let _ := SeedCrates.sample
  exact (derived_keys_separate .ed25519 .ed25519 samplePhrase "m/0'" samplePhrase "/0H/" none none).2
    _ _ (ofPhrase_sample (by decide)) (ofPhrase_sample (by decide)) rfl

end NearKit
