import NearKit.PagedViews

/-!
# Reading all pages of a node

The node answers each page request from one block: the block whose hash is asked for, or
any block, if the reference is one that moves. It fails whenever it likes.
-/
namespace NearKit
open Borsh Pagination

/-! ## The node -/

/-- What a block holds, by account names. -/
structure Block where
  height : UInt64
  contractState : String → SortedMap Bytes Bytes
  accessKeys : String → List AccessKeyInfoView

/-- The entries of a contract state stand in the order of their keys. -/
def stateCursors : Cursors StateItem Bytes Bytes := ⟨StateItem.key, id⟩

/-- The access keys of an account stand in the order of their places in the trie. -/
def accessKeyCursors (trieKey : PublicKeyHandle → Bytes) :
    Cursors AccessKeyInfoView PublicKeyHandle Bytes :=
  ⟨AccessKeyInfoView.publicKey, trieKey⟩

def Block.matching (b : Block) (accountId : String) (keyPrefix : Bytes) : List StateItem :=
  ((b.contractState accountId).entries.filter fun e => keyPrefix.isPrefixOf e.1).map
    fun e => ⟨e.1, e.2⟩

/-- All state under a prefix, as one block has it. -/
def Block.stateAll (accountId : AccountId) (keyPrefix : Bytes) (b : Block) (hash : CryptoHash) :
    ViewStateAllResult :=
  ⟨b.matching accountId.name keyPrefix, b.height, hash⟩

/-- All access keys of an account, as one block has them. -/
def Block.accessKeyList (accountId : AccountId) (b : Block) (hash : CryptoHash) : AccessKeyListView :=
  ⟨b.accessKeys accountId.name, none, b.height, hash⟩

/-- The blocks by their hashes, and where an access key stands in the trie. -/
structure Blockchain where
  block : CryptoHash → Option Block
  trieKey : PublicKeyHandle → Bytes
  sorted : ∀ hash b accountId, block hash = some b →
    (accessKeyCursors trieKey).Sorted (b.accessKeys accountId)

namespace Blockchain
variable (chain : Blockchain)

/-- An answer is read at a block: the one whose hash is in the request, if there is one. -/
structure ReadAt (params : Params) (hash : CryptoHash) (height : UInt64) (b : Block) : Prop where
  block_eq : chain.block hash = some b
  height_eq : height = b.height
  requested : ∀ text, params.text "block_id" = some text → text = Base58.encode hash.val

def AnswersViewState (params : Params) (page : ViewStateResult) : Prop :=
  ∃ b, chain.ReadAt params page.blockHash page.blockHeight b ∧
    ∀ accountId keyPrefix afterKey limit,
      params.text "request_type" = some "view_state" →
      params.text "account_id" = some accountId →
      params.text "prefix_base64" = some (Base64.encode keyPrefix) →
      params.text "after_key_base64" = afterKey.map Base64.encode →
      params.number "limit" = some limit →
      stateCursors.IsPage (stateCursors.after (b.matching accountId keyPrefix) afterKey) limit
        page.values page.lastKey

def AnswersViewAccessKeyList (params : Params) (page : AccessKeyListView) : Prop :=
  let cursors := accessKeyCursors chain.trieKey
  ∃ b, chain.ReadAt params page.blockHash page.blockHeight b ∧
    ∀ accountId afterKey limit,
      params.text "request_type" = some "view_access_key_list" →
      params.text "account_id" = some accountId →
      params.text "after_key" = afterKey.map PublicKeyHandle.display →
      params.number "limit" = some limit →
      cursors.IsPage (cursors.after (b.accessKeys accountId) afterKey) limit page.keys page.lastKey

end Blockchain

/-! ## The loop -/

/-- What following the cursors comes to: it reads what is left, or returns the error of a
page, and it needs no more pages than entries are left. -/
structure Follows {R ε γ : Type} (request : γ → Params) (entries seen : List ε) (fuel : ℕ)
    (tr : List (Exchange Params fun _ => Except RpcError R)) (r : Paging (List ε)) : Prop where
  requests : ∀ x ∈ tr, ∃ cursor, x.request = request cursor
  complete : ∀ all, r = .returned (.ok all) → all = entries
  failed : ∀ e, r = .returned (.error e) ↔ ∃ x ∈ tr, x.answer = .error e
  finished : entries.length ≤ seen.length + fuel → r ≠ .unfinished

section
variable {R ε γ κ σ : Type} [LE κ] [LT κ] [Std.LawfulOrderLT κ] [Std.IsLinearOrder κ] [DecidableLT κ]
variable {H : σ → (q : Params) → Except RpcError R → σ → Prop} {c : Cursors ε γ κ}
variable {entries seen : List ε} {request : γ → Params} {items : R → List ε}
variable {lastKey : R → Option γ} {limit fuel : ℕ} {s s' : σ}
variable {tr : List (Exchange Params fun _ => Except RpcError R)} {r : Paging (List ε)}

/-- The loop that asks for a page after each cursor. -/
abbrev followRequests (request : γ → Params) (items : R → List ε) (lastKey : R → Option γ) (fuel : ℕ)
    (seen : List ε) (cursor : Option γ) : Queries R (Paging (List ε)) :=
  RpcClient.followCursor (fun cursor => .ask (request cursor) .done) items lastKey fuel seen cursor

private theorem follows_of_no_cursor
    (h : Completes H s (followRequests request items lastKey fuel entries none) tr s' r) :
    Follows request entries entries fuel tr r := by
  have hloop : followRequests request items lastKey fuel entries none =
      .done (.returned (.ok entries)) := by
    simp only [followRequests, RpcClient.followCursor]
  rw [hloop] at h
  obtain ⟨rfl, -, rfl⟩ := h.done_inv
  constructor
  · simp
  · simp
  · simp
  · simp

private theorem followCursor_follows (hsorted : c.Sorted entries)
    (hH : ∀ s cursor page s', H s (request cursor) (.ok page) s' →
      c.IsPage (c.after entries (some cursor)) limit (items page) (lastKey page))
    {cursor : Option γ} (hread : c.ReadTo entries seen cursor)
    (h : Completes H s (followRequests request items lastKey fuel seen cursor) tr s' r) :
    Follows request entries seen fuel tr r := by
  induction fuel generalizing seen cursor s tr with
  | zero =>
    cases hread with
    | all => exact follows_of_no_cursor h
    | @upTo _ rest cursor split left next =>
      obtain ⟨rfl, -, rfl⟩ := h.done_inv
      have hlen := List.length_pos_iff.mpr left
      have hsplit := congrArg List.length split
      rw [List.length_append] at hsplit
      constructor
      · simp
      · simp
      · simp
      · omega
  | succ fuel ih =>
    cases hread with
    | all => exact follows_of_no_cursor h
    | @upTo _ rest cursor split left next =>
      obtain ⟨answer, mid, later, rfl, step, hrest⟩ := h.ask_inv
      cases answer with
      | error e =>
        obtain ⟨rfl, -, rfl⟩ := hrest.done_inv
        constructor
        · simp
        · simp
        · simp
        · simp
      | ok page =>
        have hpage := hH _ _ _ _ step
        rw [next] at hpage
        obtain ⟨hread, hfurther⟩ := Cursors.ReadTo.page c hsorted split hpage
        obtain ⟨hrequests, hcomplete, hfailed, hfinished⟩ := ih hread hrest
        have hfurther := hfurther left
        refine ⟨?_, hcomplete, ?_, ?_⟩
        · intro x hx
          rcases List.mem_cons.mp hx with rfl | hx
          · exact ⟨cursor, rfl⟩
          · exact hrequests x hx
        · intro e
          rw [hfailed]
          simp
        · intro hfuel
          exact hfinished (by omega)

/-- A loop that has returned returns the same with more iterations. -/
theorem followCursor_more {fetch : γ → Queries R (Except RpcError R)} {cursor : Option γ}
    {result : Except RpcError (List ε)}
    (h : Completes H s (RpcClient.followCursor fetch items lastKey fuel seen cursor) tr s'
      (.returned result)) (more : ℕ) :
    Completes H s (RpcClient.followCursor fetch items lastKey (fuel + more) seen cursor) tr s'
      (.returned result) := by
  induction fuel generalizing seen cursor s tr with
  | zero =>
    cases cursor with
    | none =>
      simp only [RpcClient.followCursor] at h ⊢
      exact h
    | some cursor =>
      cases h.done_result
  | succ fuel ih =>
    cases cursor with
    | none =>
      simp only [RpcClient.followCursor] at h ⊢
      exact h
    | some cursor =>
      rw [Nat.succ_add]
      simp only [RpcClient.followCursor] at h ⊢
      obtain ⟨answer, mid, before, later, rfl, hfetch, hlater⟩ := h.exists_of_bind
      apply hfetch.bind
      cases answer with
      | error e => exact hlater
      | ok page => exact ih hlater

/-! ## All pages -/

/-- What reading all pages comes to. Either the first page fails, or it is of some block,
all later pages are asked for at its hash, and the result is what that block holds. -/
inductive ReadsAll {α : Type} (chain : Blockchain) (request : Option γ → BlockReference → Params)
    (blockHash : R → CryptoHash) (matching : Block → List ε) (answer : Block → CryptoHash → α)
    (block : BlockReference) (fuel : ℕ) :
    List (Exchange Params fun _ => Except RpcError R) → Paging α → Prop where
  | firstFailed (e : RpcError) :
      ReadsAll chain request blockHash matching answer block fuel
        [⟨request none block, .error e⟩] (.returned (.error e))
  | read {page : R} {b : Block} {later : List (Exchange Params fun _ => Except RpcError R)}
      {r : Paging α} (at_block : chain.block (blockHash page) = some b)
      (pinned : ∀ x ∈ later, ∃ cursor, x.request = request (some cursor) (.hash (blockHash page)))
      (complete : ∀ a, r = .returned (.ok a) → a = answer b (blockHash page))
      (failed : ∀ e, r = .returned (.error e) ↔ ∃ x ∈ later, x.answer = .error e)
      (finished : (matching b).length ≤ fuel → r ≠ .unfinished) :
      ReadsAll chain request blockHash matching answer block fuel
        (⟨request none block, .ok page⟩ :: later) r

/-- Every request is one for a page. -/
theorem ReadsAll.requests {α : Type} {chain : Blockchain}
    {request : Option γ → BlockReference → Params} {blockHash : R → CryptoHash}
    {matching : Block → List ε} {answer : Block → CryptoHash → α} {block : BlockReference}
    {r : Paging α} (h : ReadsAll chain request blockHash matching answer block fuel tr r) :
    ∀ x ∈ tr, ∃ afterKey block, x.request = request afterKey block := by
  cases h with
  | firstFailed e => simp
  | read at_block pinned complete failed finished =>
    intro x hx
    rcases List.mem_cons.mp hx with rfl | hx
    · exact ⟨none, block, rfl⟩
    · obtain ⟨cursor, hcursor⟩ := pinned x hx
      exact ⟨some cursor, _, hcursor⟩

theorem readAll_readsAll {α : Type} {chain : Blockchain}
    {request : Option γ → BlockReference → Params} {blockHash : R → CryptoHash}
    {blockHeight : R → UInt64} {matching : Block → List ε} {answer : Block → CryptoHash → α}
    {result : R × List ε → α} {block : BlockReference} {r : Paging α}
    (hsorted : ∀ hash b, chain.block hash = some b → c.Sorted (matching b))
    (hpinned : ∀ cursor hash,
      (request cursor (.hash hash)).text "block_id" = some (Base58.encode hash.val))
    (hH : ∀ s afterKey block page s', H s (request afterKey block) (.ok page) s' →
      ∃ b, chain.ReadAt (request afterKey block) (blockHash page) (blockHeight page) b ∧
        c.IsPage (c.after (matching b) afterKey) limit (items page) (lastKey page))
    (hresult : ∀ page b, blockHeight page = b.height →
      result (page, matching b) = answer b (blockHash page))
    (h : Completes H s ((RpcClient.readAll (fun afterKey block => .ask (request afterKey block) .done)
      items lastKey blockHash fuel block).map (Paging.map result)) tr s' r) :
    ReadsAll chain request blockHash matching answer block fuel tr r := by
  obtain ⟨whole, rfl, hreads⟩ := h.exists_of_map
  obtain ⟨firstAnswer, mid, later, rfl, step, hrest⟩ := hreads.ask_inv
  cases firstAnswer with
  | error e =>
    obtain ⟨rfl, -, rfl⟩ := hrest.done_inv
    exact .firstFailed e
  | ok first =>
    obtain ⟨b, hread, hpage⟩ := hH _ _ _ _ _ step
    have hblock := hsorted _ b hread.block_eq
    -- later pages are read at the same block, since hashes are known by their texts
    have hlater : ∀ s cursor page s',
        H s (request (some cursor) (.hash (blockHash first))) (.ok page) s' →
        c.IsPage (c.after (matching b) (some cursor)) limit (items page) (lastKey page) := by
      intro s cursor page s' hs
      obtain ⟨b', hread', hpage'⟩ := hH _ _ _ _ _ hs
      have htext := hread'.requested _ (hpinned _ _)
      have hhash : blockHash page = blockHash first :=
        Subtype.ext (Base58.encode_injective htext.symm)
      have hsame := hread'.block_eq
      rw [hhash, hread.block_eq] at hsame
      cases hsame
      exact hpage'
    obtain ⟨entries, rfl, hloop⟩ := Completes.exists_of_map hrest
    obtain ⟨hto, -⟩ := Cursors.ReadTo.page c hblock (List.nil_append _).symm hpage
    obtain ⟨hrequests, hcomplete, hfailed, hfinished⟩ :=
      followCursor_follows hblock hlater hto hloop
    refine .read hread.block_eq hrequests ?_ ?_ ?_
    · intro a ha
      obtain ⟨whole, hwhole, rfl⟩ := Paging.exists_of_map_eq_ok ha
      obtain ⟨all, hall, rfl⟩ := Paging.exists_of_map_eq_ok hwhole
      rw [hcomplete all hall]
      exact hresult first b hread.height_eq
    · intro e
      rw [Paging.map_eq_error, Paging.map_eq_error, hfailed]
    · intro hfuel
      rw [ne_eq, Paging.map_eq_unfinished, Paging.map_eq_unfinished]
      exact hfinished (by omega)

private theorem readAll_more {α : Type}
    {fetch : Option γ → BlockReference → Queries R (Except RpcError R)}
    {blockHash : R → CryptoHash} {f : R × List ε → α} {block : BlockReference}
    {result : Except RpcError α}
    (h : Completes H s ((RpcClient.readAll fetch items lastKey blockHash fuel block).map (Paging.map f))
      tr s' (.returned result)) (more : ℕ) :
    Completes H s ((RpcClient.readAll fetch items lastKey blockHash (fuel + more) block).map
      (Paging.map f)) tr s' (.returned result) := by
  obtain ⟨whole, hwhole, hreads⟩ := h.exists_of_map
  rw [hwhole]
  apply Completes.map
  obtain ⟨result', rfl⟩ := Paging.exists_of_map_eq_returned hwhole.symm
  obtain ⟨answer, mid, before, later, rfl, hfetch, hlater⟩ := Completes.exists_of_bind hreads
  apply hfetch.bind
  cases answer with
  | error e => exact hlater
  | ok first =>
    obtain ⟨entries, hentries, hloop⟩ := Completes.exists_of_map hlater
    obtain ⟨all, rfl⟩ := Paging.exists_of_map_eq_returned hentries.symm
    rw [hentries]
    exact (followCursor_more hloop more).map

end

/-! ## The two readers -/

namespace RpcClient

theorem viewStateLimit_pos (pageSize : UInt32) : 0 < viewStateLimit pageSize := by
  rw [viewStateLimit]
  split
  · next h => exact h
  · decide

section
variable (accountId : AccountId) (keyPrefix : Bytes) (afterKey : Option Bytes) {limit : UInt32}
variable (block : BlockReference)

theorem viewStateParams_reads (hlimit : 0 < limit) :
    let params := viewStateParams accountId keyPrefix afterKey (some limit) block
    params.text "request_type" = some "view_state" ∧
      params.text "account_id" = some accountId.name ∧
      params.text "prefix_base64" = some (Base64.encode keyPrefix) ∧
      params.text "after_key_base64" = afterKey.map Base64.encode ∧
      params.number "limit" = some limit.toNat ∧
      ∀ hash, block = .hash hash → params.text "block_id" = some (Base58.encode hash.val) := by
  have hfilter : (some limit).filter (fun l => decide (0 < l)) = some limit := by
    simp [hlimit]
  simp only [viewStateParams, hfilter]
  refine ⟨rfl, rfl, rfl, ?_, ?_, ?_⟩
  · cases afterKey with
    | none =>
      cases block with
      | syncCheckpoint checkpoint => cases checkpoint <;> rfl
      | _ => rfl
    | some cursor => rfl
  · cases afterKey <;> rfl
  · intro hash hblock
    subst hblock
    cases afterKey <;> rfl

end

section
variable (accountId : AccountId) (afterKey : Option PublicKeyHandle) (limit : NonZeroU32)
variable (block : BlockReference)

theorem viewAccessKeyListParams_reads :
    let params := viewAccessKeyListParams accountId afterKey (some limit) block
    params.text "request_type" = some "view_access_key_list" ∧
      params.text "account_id" = some accountId.name ∧
      params.text "after_key" = afterKey.map PublicKeyHandle.display ∧
      params.number "limit" = some limit.val.toNat ∧
      ∀ hash, block = .hash hash → params.text "block_id" = some (Base58.encode hash.val) := by
  refine ⟨rfl, rfl, ?_, ?_, ?_⟩
  · cases afterKey with
    | none =>
      cases block with
      | syncCheckpoint checkpoint => cases checkpoint <;> rfl
      | _ => rfl
    | some cursor => rfl
  · cases afterKey <;> rfl
  · intro hash hblock
    subst hblock
    cases afterKey <;> rfl

end
end RpcClient

private theorem Block.sorted_matching (b : Block) (accountId : String) (keyPrefix : Bytes) :
    stateCursors.Sorted (b.matching accountId keyPrefix) := by
  have hsorted := (b.contractState accountId).sorted
  exact List.pairwise_map.mpr (hsorted.filter _)

/-- Two entries and two keys, whatever the account. -/
def Block.sample : Block where
  height := 7
  contractState _ := ⟨[([1], [10]), ([1, 0], [20])], by decide⟩
  accessKeys _ := [⟨.full (.sample 1), 5, .fullAccess⟩, ⟨.full (.sample 2), 6, .fullAccess⟩]

/-- The key type and the bytes. -/
def sampleTrieKey : PublicKeyHandle → Bytes
  | .full key => key.keyType.toU8 :: key.asBytes
  | .mlDsa65Hash hash => KeyType.mlDsa65.toU8 :: hash.val

/-- One block, with the zero hash. -/
def Blockchain.sample : Blockchain where
  block hash := if hash = .zeros 32 then some .sample else none
  trieKey := sampleTrieKey
  sorted := by
    intro hash b accountId hb
    split at hb
    · cases hb
      have hkeys : (accessKeyCursors sampleTrieKey).Sorted (Block.sample.accessKeys "") := by decide
      exact hkeys
    · cases hb

namespace RpcClient

abbrev viewStateAllRequest (accountId : AccountId) (keyPrefix : Bytes) (pageSize : UInt32)
    (afterKey : Option Bytes) (block : BlockReference) : Params :=
  viewStateParams accountId keyPrefix afterKey (some (viewStateLimit pageSize)) block

abbrev viewAccessKeyListRequest (accountId : AccountId) (afterKey : Option PublicKeyHandle)
    (block : BlockReference) : Params :=
  viewAccessKeyListParams accountId afterKey (some viewAccessKeyListLimit) block

variable {chain : Blockchain} {σ : Type} {s s' : σ} {fuel : ℕ} {accountId : AccountId}
variable {block : BlockReference}

private theorem viewStateAll_readsAll
    {H : σ → (q : Params) → Except RpcError ViewStateResult → σ → Prop}
    (hH : ∀ s q page s', H s q (.ok page) s' → chain.AnswersViewState q page) {keyPrefix : Bytes}
    {pageSize : UInt32} {tr : List (Exchange Params fun _ => Except RpcError ViewStateResult)}
    {r : Paging ViewStateAllResult}
    (h : Completes H s (viewStateAll fuel accountId keyPrefix pageSize block) tr s' r) :
    ReadsAll chain (viewStateAllRequest accountId keyPrefix pageSize) ViewStateResult.blockHash
      (fun b => b.matching accountId.name keyPrefix)
      (Block.stateAll accountId keyPrefix) block fuel tr r := by
  have hreads := fun afterKey block =>
    viewStateParams_reads accountId keyPrefix afterKey block (viewStateLimit_pos pageSize)
  have hsorted : ∀ hash b, chain.block hash = some b →
      stateCursors.Sorted (b.matching accountId.name keyPrefix) :=
    fun hash b _ => b.sorted_matching _ _
  have hpinned : ∀ afterKey hash,
      (viewStateAllRequest accountId keyPrefix pageSize afterKey (.hash hash)).text "block_id" =
        some (Base58.encode hash.val) := by
    intro afterKey hash
    obtain ⟨-, -, -, -, -, hblock⟩ := hreads afterKey (.hash hash)
    exact hblock hash rfl
  have hpages : ∀ s afterKey block page s',
      H s (viewStateAllRequest accountId keyPrefix pageSize afterKey block) (.ok page) s' →
      ∃ b, chain.ReadAt (viewStateAllRequest accountId keyPrefix pageSize afterKey block)
          page.blockHash page.blockHeight b ∧
        stateCursors.IsPage (stateCursors.after (b.matching accountId.name keyPrefix) afterKey)
          (viewStateLimit pageSize).toNat page.values page.lastKey := by
    intro s afterKey block page s' hs
    obtain ⟨b, hread, hpage⟩ := hH _ _ _ _ hs
    obtain ⟨htype, haccount, hstart, hafter, hlimit, -⟩ := hreads afterKey block
    exact ⟨b, hread, hpage _ _ _ _ htype haccount hstart hafter hlimit⟩
  apply readAll_readsAll hsorted hpinned hpages _ h
  intro page b hheight
  simp [Block.stateAll, hheight]

private theorem viewAccessKeyList_readsAll
    {H : σ → (q : Params) → Except RpcError AccessKeyListView → σ → Prop}
    (hH : ∀ s q page s', H s q (.ok page) s' → chain.AnswersViewAccessKeyList q page)
    {tr : List (Exchange Params fun _ => Except RpcError AccessKeyListView)}
    {r : Paging AccessKeyListView}
    (h : Completes H s (viewAccessKeyList fuel accountId block) tr s' r) :
    ReadsAll chain (viewAccessKeyListRequest accountId) AccessKeyListView.blockHash
      (fun b => b.accessKeys accountId.name)
      (Block.accessKeyList accountId) block fuel tr r := by
  have hreads := fun afterKey block =>
    viewAccessKeyListParams_reads accountId afterKey viewAccessKeyListLimit block
  have hsorted : ∀ hash b, chain.block hash = some b →
      (accessKeyCursors chain.trieKey).Sorted (b.accessKeys accountId.name) :=
    fun hash b hb => chain.sorted hash b accountId.name hb
  have hpinned : ∀ afterKey hash,
      (viewAccessKeyListRequest accountId afterKey (.hash hash)).text "block_id" =
        some (Base58.encode hash.val) := by
    intro afterKey hash
    obtain ⟨-, -, -, -, hblock⟩ := hreads afterKey (.hash hash)
    exact hblock hash rfl
  have hpages : ∀ s afterKey block page s',
      H s (viewAccessKeyListRequest accountId afterKey block) (.ok page) s' →
      ∃ b, chain.ReadAt (viewAccessKeyListRequest accountId afterKey block)
          page.blockHash page.blockHeight b ∧
        (accessKeyCursors chain.trieKey).IsPage
          ((accessKeyCursors chain.trieKey).after (b.accessKeys accountId.name) afterKey)
          viewAccessKeyListLimit.val.toNat page.keys page.lastKey := by
    intro s afterKey block page s' hs
    obtain ⟨b, hread, hpage⟩ := hH _ _ _ _ hs
    obtain ⟨htype, haccount, hafter, hlimit, -⟩ := hreads afterKey block
    exact ⟨b, hread, hpage _ _ _ htype haccount hafter hlimit⟩
  apply readAll_readsAll hsorted hpinned hpages _ h
  intro page b hheight
  simp [Block.accessKeyList, hheight]

/-! ## A node that answers -/

section
variable {b : Block} {keyPrefix : Bytes} {pageSize : UInt32}

theorem answersViewState_of_isPage {afterKey : Option Bytes} {page : ViewStateResult}
    (hread : chain.ReadAt (viewStateAllRequest accountId keyPrefix pageSize afterKey block)
      page.blockHash page.blockHeight b)
    (hpage : stateCursors.IsPage (stateCursors.after (b.matching accountId.name keyPrefix) afterKey)
      (viewStateLimit pageSize).toNat page.values page.lastKey) :
    chain.AnswersViewState (viewStateAllRequest accountId keyPrefix pageSize afterKey block) page := by
  refine ⟨b, hread, ?_⟩
  intro accountId' keyPrefix' afterKey' limit' _ haccount' hstart' hafter' hlimit'
  obtain ⟨-, haccount, hstart, hafter, hlimit, -⟩ :=
    viewStateParams_reads accountId keyPrefix afterKey block (viewStateLimit_pos pageSize)
  rw [haccount] at haccount'
  rw [hstart] at hstart'
  rw [hafter] at hafter'
  rw [hlimit] at hlimit'
  rw [← Option.some.inj haccount', ← Base64.encode_injective (Option.some.inj hstart'),
    ← Option.map_injective Base64.encode_injective hafter', ← Option.some.inj hlimit']
  exact hpage

private theorem answersViewAccessKeyList_of_isPage {afterKey : Option PublicKeyHandle}
    {page : AccessKeyListView}
    (hread : chain.ReadAt (viewAccessKeyListRequest accountId afterKey block)
      page.blockHash page.blockHeight b)
    (hpage : (accessKeyCursors chain.trieKey).IsPage
      ((accessKeyCursors chain.trieKey).after (b.accessKeys accountId.name) afterKey)
      viewAccessKeyListLimit.val.toNat page.keys page.lastKey) :
    chain.AnswersViewAccessKeyList (viewAccessKeyListRequest accountId afterKey block) page := by
  refine ⟨b, hread, ?_⟩
  intro accountId' afterKey' limit' _ haccount' hafter' hlimit'
  obtain ⟨-, haccount, hafter, hlimit, -⟩ := viewAccessKeyListParams_reads accountId afterKey
      viewAccessKeyListLimit block
  rw [haccount] at haccount'
  rw [hafter] at hafter'
  rw [hlimit] at hlimit'
  rw [← Option.some.inj haccount', ← Option.map_injective PublicKeyHandle.display_injective hafter',
    ← Option.some.inj hlimit']
  exact hpage

end

/-- A node that keeps no state gives any page that it can read, and fails whenever it likes. -/
def serves {R : Type} (answers : Params → R → Prop) (_ : Unit) (q : Params) (a : Except RpcError R)
    (_ : Unit) : Prop :=
  ∀ page, a = .ok page → answers q page

theorem serves_ok {R : Type} {answers : Params → R → Prop} {q : Params} {page : R}
    (h : answers q page) : serves answers () q (.ok page) () := by
  intro page' heq
  cases heq
  exact h

/-- Two pages of one entry each. -/
theorem exists_viewStateAll_run : ∃ tr,
    Completes (serves Blockchain.sample.AnswersViewState) ()
      (viewStateAll 2 .alice [1] 1 (.finality .final)) tr ()
      (.returned (.ok (ViewStateAllResult.mk [⟨[1], [10]⟩, ⟨[1, 0], [20]⟩] 7 (.zeros 32)))) := by
  have hfirst : serves Blockchain.sample.AnswersViewState ()
      (viewStateAllRequest .alice [1] 1 none (.finality .final))
      (.ok (ViewStateResult.mk [⟨[1], [10]⟩] (some [1]) 7 (.zeros 32))) () := by
    apply serves_ok
    apply answersViewState_of_isPage (b := .sample)
    · refine ⟨rfl, rfl, ?_⟩
      intro text htext
      cases htext
    · exact stateCursors.isPage_page Nat.zero_lt_one (by decide) _
  have hlater : serves Blockchain.sample.AnswersViewState ()
      (viewStateAllRequest .alice [1] 1 (some [1]) (.hash (.zeros 32)))
      (.ok (ViewStateResult.mk [⟨[1, 0], [20]⟩] none 7 (.zeros 32))) () := by
    apply serves_ok
    apply answersViewState_of_isPage (b := .sample)
    · refine ⟨rfl, rfl, ?_⟩
      intro text htext
      exact (Option.some.inj htext).symm
    · exact stateCursors.isPage_page Nat.zero_lt_one (by decide) _
  exact ⟨_, .ask hfirst (.ask hlater (.done _ _))⟩

/-- Two pages of one key each, by the node's own cap. -/
theorem exists_viewAccessKeyList_run : ∃ tr,
    Completes (serves Blockchain.sample.AnswersViewAccessKeyList) ()
      (viewAccessKeyList 2 .alice (.finality .final)) tr ()
      (.returned (.ok (AccessKeyListView.mk
        [⟨.full (.sample 1), 5, .fullAccess⟩, ⟨.full (.sample 2), 6, .fullAccess⟩] none 7
        (.zeros 32)))) := by
  have hfirst : serves Blockchain.sample.AnswersViewAccessKeyList ()
      (viewAccessKeyListRequest .alice none (.finality .final))
      (.ok (AccessKeyListView.mk [⟨.full (.sample 1), 5, .fullAccess⟩] (some (.full (.sample 1))) 7
        (.zeros 32))) () := by
    apply serves_ok
    apply answersViewAccessKeyList_of_isPage (b := .sample)
    · refine ⟨rfl, rfl, ?_⟩
      intro text htext
      cases htext
    · exact (accessKeyCursors sampleTrieKey).isPage_page Nat.zero_lt_one (by decide) _
  have hlater : serves Blockchain.sample.AnswersViewAccessKeyList ()
      (viewAccessKeyListRequest .alice (some (.full (.sample 1))) (.hash (.zeros 32)))
      (.ok (AccessKeyListView.mk [⟨.full (.sample 2), 6, .fullAccess⟩] none 7 (.zeros 32))) () := by
    apply serves_ok
    apply answersViewAccessKeyList_of_isPage (b := .sample)
    · refine ⟨rfl, rfl, ?_⟩
      intro text htext
      exact (Option.some.inj htext).symm
    · exact (accessKeyCursors sampleTrieKey).isPage_page Nat.zero_lt_one (by decide) _
  exact ⟨_, .ask hfirst (.ask hlater (.done _ _))⟩

/-- Against a node that answers page requests from its blocks, both readers ask for pages of
a positive size, at one block from the second page on, return the error of a page that
fails, and otherwise come to an end with all that the block holds. Once the loop has ended,
its bound does not matter. -/
theorem reads_all_pages (chain : Blockchain) (fuel : ℕ) (accountId : AccountId)
    (block : BlockReference) {σ : Type} (s s' : σ) :
    (∀ (H : σ → (q : Params) → Except RpcError ViewStateResult → σ → Prop) (keyPrefix : Bytes)
        (pageSize : UInt32) tr r,
      (∀ s q page s', H s q (.ok page) s' → chain.AnswersViewState q page) →
      Completes H s (viewStateAll fuel accountId keyPrefix pageSize block) tr s' r →
      ReadsAll chain (viewStateAllRequest accountId keyPrefix pageSize) ViewStateResult.blockHash
          (fun b => b.matching accountId.name keyPrefix)
          (Block.stateAll accountId keyPrefix) block fuel tr r ∧
        (∀ x ∈ tr, ∃ limit, x.request.number "limit" = some limit ∧ 0 < limit) ∧
        ∀ result more, r = .returned result →
          Completes H s (viewStateAll (fuel + more) accountId keyPrefix pageSize block) tr s' r) ∧
    (∀ (H : σ → (q : Params) → Except RpcError AccessKeyListView → σ → Prop) tr r,
      (∀ s q page s', H s q (.ok page) s' → chain.AnswersViewAccessKeyList q page) →
      Completes H s (viewAccessKeyList fuel accountId block) tr s' r →
      ReadsAll chain (viewAccessKeyListRequest accountId) AccessKeyListView.blockHash
          (fun b => b.accessKeys accountId.name)
          (Block.accessKeyList accountId) block fuel tr r ∧
        (∀ x ∈ tr, ∃ limit, x.request.number "limit" = some limit ∧ 0 < limit) ∧
        ∀ result more, r = .returned result →
          Completes H s (viewAccessKeyList (fuel + more) accountId block) tr s' r) := by
  constructor
  · intro H keyPrefix pageSize tr r hH h
    have hreads := viewStateAll_readsAll hH h
    refine ⟨hreads, ?_, ?_⟩
    · intro x hx
      obtain ⟨afterKey, block, hrequest⟩ := hreads.requests x hx
      have hpos := viewStateLimit_pos pageSize
      obtain ⟨-, -, -, -, hlimit, -⟩ :=
        viewStateParams_reads accountId keyPrefix afterKey block hpos
      rw [hrequest]
      exact ⟨_, hlimit, UInt32.lt_iff_toNat_lt.mp hpos⟩
    · intro result more hresult
      subst hresult
      exact readAll_more h more
  · intro H tr r hH h
    have hreads := viewAccessKeyList_readsAll hH h
    refine ⟨hreads, ?_, ?_⟩
    · intro x hx
      obtain ⟨afterKey, block, hrequest⟩ := hreads.requests x hx
      obtain ⟨-, -, -, hlimit, -⟩ := viewAccessKeyListParams_reads accountId afterKey
        viewAccessKeyListLimit block
      rw [hrequest]
      exact ⟨_, hlimit, by decide⟩
    · intro result more hresult
      subst hresult
      exact readAll_more h more

theorem reads_all_pages_sample :
    (∃ tr, Completes (serves Blockchain.sample.AnswersViewState) ()
        (viewStateAll 2 .alice [1] 1 (.finality .final)) tr ()
        (.returned (.ok (ViewStateAllResult.mk [⟨[1], [10]⟩, ⟨[1, 0], [20]⟩] 7 (.zeros 32)))) ∧
      ReadsAll .sample (viewStateAllRequest .alice [1] 1) ViewStateResult.blockHash
        (fun b => b.matching AccountId.alice.name [1])
        (Block.stateAll .alice [1]) (.finality .final) 2 tr
        (.returned (.ok (.mk [⟨[1], [10]⟩, ⟨[1, 0], [20]⟩] 7 (.zeros 32)))) ∧
      ∀ x ∈ tr, ∃ limit, x.request.number "limit" = some limit ∧ 0 < limit) ∧
    (∃ tr, Completes (serves Blockchain.sample.AnswersViewAccessKeyList) ()
        (viewAccessKeyList 2 .alice (.finality .final)) tr ()
        (.returned (.ok (AccessKeyListView.mk
          [⟨.full (.sample 1), 5, .fullAccess⟩, ⟨.full (.sample 2), 6, .fullAccess⟩] none 7
          (.zeros 32)))) ∧
      ReadsAll .sample (viewAccessKeyListRequest .alice) AccessKeyListView.blockHash
        (fun b => b.accessKeys AccountId.alice.name)
        (Block.accessKeyList .alice) (.finality .final) 2 tr
        (.returned (.ok ⟨[⟨.full (.sample 1), 5, .fullAccess⟩, ⟨.full (.sample 2), 6, .fullAccess⟩],
          none, 7, .zeros 32⟩)) ∧
      ∀ x ∈ tr, ∃ limit, x.request.number "limit" = some limit ∧ 0 < limit) := by
  have hreads := reads_all_pages .sample 2 .alice (.finality .final) () ()
  constructor
  · obtain ⟨tr, run⟩ := exists_viewStateAll_run
    obtain ⟨hall, hlimits, -⟩ := hreads.1 _ [1] 1 _ _ (fun _ _ page _ h => h page rfl) run
    exact ⟨tr, run, hall, hlimits⟩
  · obtain ⟨tr, run⟩ := exists_viewAccessKeyList_run
    obtain ⟨hall, hlimits, -⟩ := hreads.2 _ _ _ (fun _ _ page _ h => h page rfl) run
    exact ⟨tr, run, hall, hlimits⟩

end RpcClient
end NearKit
