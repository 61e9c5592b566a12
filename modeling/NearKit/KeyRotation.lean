import NearKit.SharedSigners
import Mathlib.Order.Interval.Finset.Nat

/-!
# The rotation of keys

A rotating signer takes the next of its keys at every claim, by a counter of the width of
`usize` that wraps. Tasks claim and peek in any order; each call is atomic. As long as the
counter does not wrap, the claims go round the keys.
-/
namespace NearKit.KeyRotation

/-! ## Windows of consecutive values -/

/-- The part of a list of consecutive values, from the place where it begins. -/
theorem eq_map_of_append {α : Type} {f : ℕ → α} {n : ℕ} {xs ys zs : List α}
    (h : (List.range n).map f = xs ++ ys ++ zs) :
    ys = (List.range ys.length).map fun k => f (xs.length + k) := by
  apply List.ext_getElem
  · rw [List.length_map, List.length_range]
  · intro k hk _
    have hlength : xs.length + k < (xs ++ ys ++ zs).length := by
      simp only [List.length_append]
      omega
    have hget : (xs ++ ys ++ zs)[xs.length + k] = ys[k] := by
      rw [List.getElem_append_left (by simpa using hk), List.getElem_append_right (by omega)]
      simp only [Nat.add_sub_cancel_left]
    simp only [List.getElem_map, List.getElem_range]
    rw [← hget]
    simp only [← h, List.getElem_map, List.getElem_range]

/-- As many consecutive numbers as there are residues meet each residue once. -/
theorem perm_range_of_consecutive (start n : ℕ) :
    ((List.range n).map fun k => (start + k) % n).Perm (List.range n) := by
  have hmod := Nat.multiset_Ico_map_mod start n
  have hlist : (Multiset.Ico start (start + n)) = (List.range' start n : Multiset ℕ) := by
    show ((List.range' start (start + n - start) : List ℕ) : Multiset ℕ) = _
    rw [Nat.add_sub_cancel_left]
  rw [hlist, Multiset.map_coe, List.range'_eq_map_range, List.map_map] at hmod
  exact Multiset.coe_eq_coe.mp hmod

/-! ## The signer -/

/-- A `Vec`: its length is a `usize` of `w` bits. -/
abbrev Vec (w : ℕ) (α : Type) := {xs : List α // xs.length < 2 ^ w}

inductive ConfigError where
  | config (message : String)
  | parseAccountId
  | parseKey (error : ParseKeyError)
  deriving DecidableEq

/-- An `InMemorySigner`, without the public key it keeps. -/
structure InMemorySigner where
  accountId : AccountId
  secretKey : SecretKey
  deriving DecidableEq

structure RotatingSigner (w : ℕ) where
  accountId : AccountId
  keys : Vec w SecretKey
  counter : BitVec w
  nonempty : keys.val ≠ []

namespace RotatingSigner
variable {w : ℕ}

/-! ## Constructors -/

def new [Crates] (accountId : String) (keys : Vec w SecretKey) :
    Except ConfigError (RotatingSigner w) :=
  if h : keys.val = [] then .error (.config "RotatingSigner requires at least one key")
  else match AccountId.validate accountId with
  | none => .error .parseAccountId
  | some accountId => .ok ⟨accountId, keys, 0, h⟩

def accountMismatch (accountId other : AccountId) : String :=
  "All signers must share the same account ID, got " ++ accountId.name ++ " and " ++ other.name

def fromSigners (signers : Vec w InMemorySigner) : Except ConfigError (RotatingSigner w) :=
  match h : signers.val with
  | [] => .error (.config "RotatingSigner requires at least one signer")
  | first :: rest =>
    let accountId := first.accountId
    match rest.find? fun signer => signer.accountId ≠ accountId with
    | some signer => .error (.config (accountMismatch accountId signer.accountId))
    | none =>
      .ok ⟨accountId, ⟨signers.val.map InMemorySigner.secretKey, by simpa using signers.2⟩, 0,
        by simp [h]⟩

def fromKeyStrings [KeyCrates] (accountId : String) (keys : Vec w String) :
    Except ConfigError (RotatingSigner w) :=
  match h : keys.val.mapM SecretKey.fromStr with
  | .error e => .error (.parseKey e)
  | .ok parsed => new accountId ⟨parsed, (Borsh.mapM_eq_ok.mp h).length_eq ▸ keys.2⟩

private theorem new_eq_ok [Crates] {accountId : String} {keys : Vec w SecretKey}
    {s : RotatingSigner w} : new accountId keys = .ok s ↔
      AccountId.validate accountId = some s.accountId ∧ s.keys = keys ∧ s.counter = 0 := by
  unfold new
  split
  · next h =>
    refine iff_of_false nofun fun hs => s.nonempty ?_
    rw [hs.2.1, h]
  · cases AccountId.validate accountId with
    | none => exact iff_of_false nofun nofun
    | some id =>
      constructor
      · intro hs
        cases hs
        exact ⟨rfl, rfl, rfl⟩
      · rintro ⟨hid, rfl, hcounter⟩
        cases hid
        rw [← hcounter]

/-- Signers of one account rotate over their keys, from the first one. -/
theorem fromSigners_eq_ok {signers : Vec w InMemorySigner} {s : RotatingSigner w}
    (h : fromSigners signers = .ok s) :
    s.keys.val = signers.val.map InMemorySigner.secretKey ∧ s.counter = 0 ∧
      ∀ signer ∈ signers.val, signer.accountId = s.accountId := by
  unfold fromSigners at h
  split at h
  · cases h
  · next first rest hsigners =>
    simp only at h
    split at h
    · cases h
    · next hfind =>
      cases h
      refine ⟨rfl, rfl, ?_⟩
      intro signer hmem
      rw [hsigners] at hmem
      rcases List.mem_cons.mp hmem with rfl | hmem
      · rfl
      · simpa using List.find?_eq_none.mp hfind signer hmem

theorem fromKeyStrings_eq_ok [KeyCrates] {accountId : String} {keys : Vec w String}
    {s : RotatingSigner w} (h : fromKeyStrings accountId keys = .ok s) :
    List.Forall₂ (fun text secret => SecretKey.fromStr text = .ok secret) keys.val s.keys.val ∧
      s.counter = 0 := by
  unfold fromKeyStrings at h
  split at h
  · cases h
  · next parsed hparsed =>
    obtain ⟨-, hkeys, hcounter⟩ := new_eq_ok.mp h
    rw [hkeys]
    exact ⟨Borsh.mapM_eq_ok.mp hparsed, hcounter⟩

/-! ## Calls -/

/-- `counter % keys.len()`, at which both calls index the keys. -/
def idx (s : RotatingSigner w) : BitVec w := s.counter % BitVec.ofNat w s.keys.val.length

/-- `self.keys[idx]`; `none` is the panic of an index out of range. -/
def indexed (s : RotatingSigner w) : Option SecretKey := s.keys.val[s.idx.toNat]?

theorem idx_toNat (s : RotatingSigner w) :
    s.idx.toNat = s.counter.toNat % s.keys.val.length := by
  rw [idx, BitVec.toNat_umod, BitVec.toNat_ofNat, Nat.mod_eq_of_lt s.keys.2]

theorem idx_lt (s : RotatingSigner w) : s.idx.toNat < s.keys.val.length := by
  rw [idx_toNat]
  exact Nat.mod_lt _ (List.length_pos_iff.mpr s.nonempty)

/-- The signer after a number of claims. -/
def advance (s : RotatingSigner w) (n : ℕ) : RotatingSigner w :=
  { s with counter := s.counter + BitVec.ofNat w n }

private theorem advance_zero (s : RotatingSigner w) : s.advance 0 = s := by
  unfold advance
  rw [show BitVec.ofNat w 0 = 0#w from rfl, BitVec.add_zero]

variable [SigningCrates]

/-- `Signer::key`: the counter is advanced, whatever becomes of the key. -/
def key (s : RotatingSigner w) : Option BundledKey × RotatingSigner w :=
  (s.indexed.bind BundledKey.new, { s with counter := s.counter + 1 })

def publicKey (s : RotatingSigner w) : Option PublicKey := s.indexed.bind SecretKey.publicKey

theorem publicKey_eq (s : RotatingSigner w) : s.publicKey = s.key.1.map BundledKey.publicKey := by
  have hnew (secret : SecretKey) :
      secret.publicKey = (BundledKey.new secret).map BundledKey.publicKey := by
    unfold BundledKey.new
    split
    · next h => exact h
    · next h => exact h
  unfold publicKey key
  cases s.indexed with
  | none => rfl
  | some secret => exact hnew secret

/-- With the keys in a table, a counter of 64 bits claims what the shared signers claim. -/
theorem key_eq_keyAt {s : RotatingSigner 64} {table : ℕ → BundledKey} {r : NearKit.RotatingSigner}
    (h : s.keys.val = r.keys.map fun backend => (table backend).secretKey) :
    s.key.1 = some (table (r.keyAt (.ofBitVec s.counter))) := by
  have hlength : s.keys.val.length = r.keys.length := by rw [h, List.length_map]
  have hidx : s.idx.toNat = s.counter.toNat % r.keys.length := by rw [idx_toNat, hlength]
  have hindexed : s.indexed = some (table (r.keyAt (.ofBitVec s.counter))).secretKey := by
    have hlt : s.counter.toNat % r.keys.length < r.keys.length := Nat.mod_lt _ r.nonempty
    unfold indexed
    rw [hidx, h, List.getElem?_map, List.getElem?_eq_getElem hlt]
    rfl
  have hnew (key : BundledKey) : BundledKey.new key.secretKey = some key := by
    obtain ⟨secretKey, publicKey, hpublic⟩ := key
    unfold BundledKey.new
    split
    · next hnone =>
      rw [hpublic] at hnone
      cases hnone
    · next hsome =>
      rw [hpublic] at hsome
      cases hsome
      rfl
  show s.indexed.bind BundledKey.new = _
  rw [hindexed, Option.bind_some, hnew]

private theorem key_advance (s : RotatingSigner w) (n : ℕ) :
    (s.advance n).key.2 = s.advance (n + 1) := by
  unfold key advance
  simp only
  rw [BitVec.add_assoc, BitVec.ofNat_add]
  rfl

end RotatingSigner

/-! ## Tasks -/

inductive Call where
  | key | publicKey
  deriving DecidableEq

abbrev Answer [SigningCrates] : Call → Type
  | .key => Option BundledKey
  | .publicKey => Option PublicKey

variable [SigningCrates] {w : ℕ} {ι ρ : Type}

/-- What an atomic call answers, and the signer it leaves. -/
def RotatingSigner.respond (s : RotatingSigner w) : (q : Call) → Answer q × RotatingSigner w
  | .key => s.key
  | .publicKey => (s.publicKey, s)

/-- The signer answers the calls of every task alike. -/
def handler (_ : ι) (s : RotatingSigner w) (q : Call) (a : Answer q) (s' : RotatingSigner w) : Prop :=
  (a, s') = s.respond q

abbrev KeyOccurrence (ι : Type) (w : ℕ) (ρ : Type) := Occurrence ι (RotatingSigner w) Call Answer ρ

/-- A call of `key`, with the signer before it. -/
structure Claim (w : ℕ) where
  signer : RotatingSigner w
  key : Option BundledKey

/-- The claims of a history, oldest first. -/
def claims : List (KeyOccurrence ι w ρ) → List (Claim w)
  | [] => []
  | .asked _ s .key key :: es => claims es ++ [⟨s, key⟩]
  | .asked _ _ .publicKey _ :: es => claims es
  | .returned _ _ :: es => claims es

def RotatingSigner.claim (s : RotatingSigner w) (n : ℕ) : Claim w :=
  ⟨s.advance n, (s.advance n).key.1⟩

/-- The counter does not wrap between the first of the claims and the last. -/
def NoWrap (window : List (Claim w)) : Prop :=
  ∀ c ∈ window.head?, c.signer.counter.toNat + window.length ≤ 2 ^ w

structure ClaimsEachKey (keys : List SecretKey) (window : List (Claim w)) : Prop where
  indexes : (window.map fun c => c.signer.idx.toNat).Perm (List.range keys.length)
  claimed : ∀ c ∈ window, ∃ secret, keys[c.signer.idx.toNat]? = some secret ∧
    c.key = BundledKey.new secret

/-! ## Runs -/

section
variable [DecidableEq ι] {tasks : ι → Process Call Answer ρ} {s₀ s : RotatingSigner w}
variable {es : List (KeyOccurrence ι w ρ)} {ps : ι → Option (Process Call Answer ρ)}

/-- The state of the signer is the number of claims, and each claim was answered from the
number of those before it. -/
theorem claims_of_run (run : Interleaving handler tasks s₀ es s ps) :
    s = s₀.advance (claims es).length ∧
      claims es = (List.range (claims es).length).map s₀.claim := by
  induction run with
  | init => exact ⟨(RotatingSigner.advance_zero s₀).symm, rfl⟩
  | @asked es s s' ps i q a resume run waiting step ih =>
    obtain ⟨hs, hclaims⟩ := ih
    cases q with
    | key =>
      obtain rfl : a = s.key.1 := congrArg Prod.fst step
      obtain rfl : s' = s.key.2 := congrArg Prod.snd step
      have hlast : claims (.asked i s .key s.key.1 :: es) =
        claims es ++ [s₀.claim (claims es).length] := by
        rw [claims, RotatingSigner.claim, ← hs]
      rw [hlast, List.length_append, List.length_singleton, List.range_succ, List.map_append,
        ← hclaims, ← RotatingSigner.key_advance, ← hs]
      exact ⟨rfl, rfl⟩
    | publicKey =>
      obtain rfl : s' = s := congrArg Prod.snd step
      exact ⟨hs, hclaims⟩
  | returned run finished ih => exact ih

private theorem idx_claim {b n k : ℕ} (hk : k < n)
    (hwrap : (s₀.claim b).signer.counter.toNat + n ≤ 2 ^ w) :
    (s₀.claim (b + k)).signer.idx.toNat =
      ((s₀.claim b).signer.counter.toNat + k) % s₀.keys.val.length := by
  have hcounter : (s₀.claim (b + k)).signer.counter =
      (s₀.claim b).signer.counter + BitVec.ofNat w k := by
    show s₀.counter + BitVec.ofNat w (b + k) = s₀.counter + BitVec.ofNat w b + BitVec.ofNat w k
    rw [BitVec.ofNat_add, BitVec.add_assoc]
  have hsmall : k < 2 ^ w := by omega
  have hlt : (s₀.claim b).signer.counter.toNat + k < 2 ^ w := by omega
  rw [RotatingSigner.idx_toNat, hcounter, BitVec.toNat_add, BitVec.toNat_ofNat,
    Nat.mod_eq_of_lt hsmall, Nat.mod_eq_of_lt hlt]
  rfl

private theorem claimsEachKey_of_window {before window later : List (Claim w)} {n : ℕ}
    (h : (List.range n).map s₀.claim = before ++ window ++ later)
    (hlength : window.length = s₀.keys.val.length) (hwrap : NoWrap window) :
    ClaimsEachKey s₀.keys.val window := by
  have hwindow := eq_map_of_append h
  have hpos : 0 < window.length := hlength ▸ List.length_pos_iff.mpr s₀.nonempty
  have hfirst : window.head? = some (s₀.claim before.length) := by
    rw [hwindow, List.head?_map, List.head?_range, if_neg (Nat.pos_iff_ne_zero.mp hpos)]
    rfl
  have hbound := hwrap _ (Option.mem_def.mpr hfirst)
  constructor
  · have hindexes : window.map (fun c => c.signer.idx.toNat) = (List.range window.length).map
        fun k => ((s₀.claim before.length).signer.counter.toNat + k) % s₀.keys.val.length := by
      conv_lhs => rw [hwindow]
      rw [List.map_map]
      apply List.map_congr_left
      intro k hk
      exact idx_claim (List.mem_range.mp hk) hbound
    rw [hindexes, hlength]
    exact perm_range_of_consecutive _ _
  · intro c hc
    rw [hwindow] at hc
    obtain ⟨k, -, rfl⟩ := List.mem_map.mp hc
    have hindexed := List.getElem?_eq_getElem (s₀.claim (before.length + k)).signer.idx_lt
    exact ⟨_, hindexed, congrArg (Option.bind · BundledKey.new) hindexed⟩

omit [DecidableEq ι] in
private theorem claims_append (later earlier : List (KeyOccurrence ι w ρ)) :
    claims (later ++ earlier) = claims earlier ++ claims later := by
  induction later with
  | nil => exact (List.append_nil _).symm
  | cons e later ih =>
    rcases e with ⟨i, t, q, a⟩ | ⟨i, r⟩
    · cases q with
      | key =>
        rw [List.cons_append, claims, ih, claims, List.append_assoc]
      | publicKey => exact ih
    · exact ih

theorem peek_of_run {i : ι} {t : RotatingSigner w} {a : Option PublicKey}
    (run : Interleaving handler tasks s₀ (.asked i t .publicKey a :: es) s ps) :
    a = t.publicKey ∧ s = t :=
  Prod.mk.inj run.asked_inv.1

/-- It shows the public key of the claim after it. -/
theorem peek_shows_claim {between earlier : List (KeyOccurrence ι w ρ)} {i j : ι}
    {t u : RotatingSigner w} {a : Option PublicKey} {key : Option BundledKey}
    (run : Interleaving handler tasks s₀
      (.asked j u .key key :: (between ++ .asked i t .publicKey a :: earlier)) s ps)
    (hbetween : claims between = []) : a = key.map BundledKey.publicKey := by
  obtain ⟨hkey, ps₁, run₁⟩ := run.asked_inv
  obtain ⟨t', ps₂, run₂⟩ := run₁.exists_earlier
  obtain ⟨ha, rfl⟩ := peek_of_run run₂
  have hclaims : claims (between ++ .asked i t' .publicKey a :: earlier) =
      claims (.asked i t' .publicKey a :: earlier) := by
    rw [claims_append, hbetween, List.append_nil]
  have hsame : u = t' := by
    rw [(claims_of_run run₁).1, hclaims, ← (claims_of_run run₂).1]
  obtain rfl : key = u.key.1 := congrArg Prod.fst hkey
  rw [ha, ← hsame]
  exact u.publicKey_eq

/-- In every interleaving of claims and peeks: as many claims in a row as there are keys
claim each key once, if the counter does not wrap among them. A peek changes nothing and
shows the key of the next claim. No call indexes out of range. -/
theorem rotation_fair (run : Interleaving handler tasks s₀ es s ps) :
    (∀ before window later, claims es = before ++ window ++ later →
      window.length = s₀.keys.val.length → NoWrap window → ClaimsEachKey s₀.keys.val window) ∧
    (∀ later i t a earlier, es = later ++ .asked i t .publicKey a :: earlier →
      (∀ u ps', Interleaving handler tasks s₀ (.asked i t .publicKey a :: earlier) u ps' → u = t) ∧
      ∀ later' j u key between, later = later' ++ .asked j u .key key :: between →
        claims between = [] → a = key.map BundledKey.publicKey) ∧
    ∀ i t q a, .asked i t q a ∈ es → t.indexed ≠ none := by
  refine ⟨?_, ?_, ?_⟩
  · intro before window later h hlength hwrap
    rw [(claims_of_run run).2] at h
    exact claimsEachKey_of_window h hlength hwrap
  · rintro later i t a earlier rfl
    refine ⟨fun u ps' run' => (peek_of_run run').2, ?_⟩
    rintro later' j u key between rfl hbetween
    rw [List.append_assoc, List.cons_append] at run
    obtain ⟨s', ps', run'⟩ := run.exists_earlier
    exact peek_shows_claim run' hbetween
  · intro i t q a _ hnone
    exact absurd t.idx_lt (Nat.not_lt.mpr (List.getElem?_eq_none_iff.mp hnone))

end

/-! ## A sample run -/

section
omit [SigningCrates]

/-- Two keys, and the counter of a new signer. -/
def RotatingSigner.sample : RotatingSigner 64 :=
  ⟨.alice, ⟨[0, 1].map fun backend => @BundledKey.secretKey .rotating (rotatingKeys backend),
    by decide⟩, 0, by decide⟩

/-- Each task peeks and claims. -/
def sampleTask (_ : Bool) : @Process Call (@Answer .sample) Unit :=
  .ask .publicKey fun _ => .ask .key fun _ => .done ()

theorem rotation_fair_sample : ∃ es s ps,
    @Interleaving Call (@Answer .sample) Unit Bool _ _ (@handler .sample 64 Bool) sampleTask
      .sample es s ps ∧
    (@claims .sample 64 Bool Unit es).length = 2 ∧
    @ClaimsEachKey .sample 64 RotatingSigner.sample.keys.val (@claims .sample 64 Bool Unit es) := by
  let _ := SigningCrates.sample
  let first := RotatingSigner.sample
  let second := first.key.2
  have run₀ : Interleaving handler sampleTask first [] first fun i => some (sampleTask i) := .init
  obtain ⟨ps₁, run₁, hps₁, hne₁⟩ := run₀.ask (i := true) rfl rfl first.publicKey
    (rfl : handler true first .publicKey _ first)
  have hfalse : ps₁ false = some (sampleTask false) := hne₁ false Bool.false_ne_true
  obtain ⟨ps₂, run₂, hps₂, hne₂⟩ := run₁.ask hfalse rfl first.publicKey
    (rfl : handler false first .publicKey _ first)
  have htrue : ps₂ true = _ := (hne₂ true Bool.false_ne_true.symm).trans hps₁
  obtain ⟨ps₃, run₃, -, hne₃⟩ := run₂.ask htrue rfl first.key.1
    (rfl : handler true first .key _ second)
  have hsecond : ps₃ false = _ := (hne₃ false Bool.false_ne_true).trans hps₂
  obtain ⟨ps₄, run₄, -, -⟩ := run₃.ask hsecond rfl second.key.1
    (rfl : handler false second .key _ second.key.2)
  obtain ⟨hfair, -, -⟩ := rotation_fair run₄
  refine ⟨_, _, _, run₄, rfl, hfair [] _ [] (List.append_nil _).symm rfl ?_⟩
  rintro c ⟨⟩
  decide

end
end NearKit.KeyRotation
