import NearKit.ClientHistories

/-!
# The nonces of a send

A send runs among any other operations of its client. The nonce of each attempt is
fresh as long as the base that an `InvalidNonce` rejection carries over is not behind
what the client has learned since, and belongs to the key that the next attempt claims.
-/
namespace NearKit

variable {ι α : Type}

/-- The node has reported this `ak_nonce` for the key. -/
def Reported (xs : List (Exchange Request Answer)) (key : PublicKey) (akNonce : Nonce) : Prop :=
  ∃ tx status txNonce, tx.transaction.publicKey = key ∧
    ⟨.sendTx tx status, .error (.invalidTx (.invalidNonce akNonce txNonce))⟩ ∈ xs

def Phase.carried : Phase → Option (PublicKey × Nonce)
  | idle carried => carried
  | claimed carried _ => carried
  | fetched carried _ _ => carried
  | _ => none

section
variable [DecidableEq ι]

/-- The nonce is greater than the access-key nonce just fetched, than every `ak_nonce`
reported for its key and than every nonce handed out for it so far. -/
structure FreshNonce (m₀ : NonceManager) (i : ι) (es : List (ClientOccurrence ι α)) (key : NonceKey)
    (nonce : Nonce) : Prop where
  fetched : ∃ accessKey, lastFetched (exchangesOf i es) = some accessKey ∧ accessKey.nonce < nonce
  reported : ∀ ak, Reported (exchangesOf i es) key.2.2 ak → ak < nonce
  allocated : ∀ n, Allocated es key n → n < nonce
  earlier : ∀ n, m₀.nonces key = some n → n < nonce

/-- A process allocates fresh nonces, and what it signs and submits carries the latest. -/
def SendsFresh [Crates] (b : TransactionBuilder) (m₀ : NonceManager) (i : ι)
    (es : List (ClientOccurrence ι α)) : ClientOccurrence ι α → Prop
  | .asked j _ (.nextNonce network id key _) nonce => j = i →
    network = b.url ∧ b.ActsFor id ∧ FreshNonce m₀ i es (network, id, key) nonce
  | .asked j _ (.sign key message) _ => j = i → ∃ tx, b.Makes (exchangesOf i es) tx ∧
    key.publicKey = tx.publicKey ∧ tx.getHash = .ok message
  | .asked j _ (.sendTx tx _) _ => j = i → b.Makes (exchangesOf i es) tx.transaction
  | _ => True

/-- An attempt after an `InvalidNonce` rejection does not lose by it: the access-key
nonce it has fetched is at most the larger of the carried and the cached nonce, and the
rejection was for the key it has claimed, unless the cache of the rejected key is
already that far. -/
def RebasesSafely (i : ι) (es : List (ClientOccurrence ι α)) : ClientOccurrence ι α → Prop
  | .asked j m (.nextNonce network id key _) _ => j = i →
    ∀ rejected ak, lastRejection (exchangesOf i es) = some (rejected, ak) →
      (∀ accessKey, lastFetched (exchangesOf i es) = some accessKey →
        accessKey.nonce ≤ m.base (network, id, key) ak) ∧
      (rejected = key ∨ m.Reached (network, id, rejected) ak)
  | _ => True

end

/-! ## What becomes of a reported nonce -/

/-- Every reported nonce is carried, or the manager has reached it, or the send is over. -/
def Accounted (m : NonceManager) (network : Network) (id : AccountId) (phase : Phase)
    (xs : List (Exchange Request Answer)) : Prop :=
  ∀ key ak, Reported xs key ak →
    m.Reached (network, id, key) ak ∨ phase.carried = some (key, ak) ∨ phase = .stopped

private theorem Reported.of_cons {x : Exchange Request Answer} {xs : List (Exchange Request Answer)}
    {key : PublicKey} {ak : Nonce} (h : Reported (x :: xs) key ak) :
    (∃ tx status txNonce, tx.transaction.publicKey = key ∧
      x = ⟨.sendTx tx status, .error (.invalidTx (.invalidNonce ak txNonce))⟩) ∨
    Reported xs key ak := by
  obtain ⟨tx, status, txNonce, hkey, hmem⟩ := h
  rcases List.mem_cons.mp hmem with heq | hmem
  · exact .inl ⟨tx, status, txNonce, hkey, heq.symm⟩
  · exact .inr ⟨tx, status, txNonce, hkey, hmem⟩

theorem carried_nextPhase [Crates] {b : TransactionBuilder} {phase : Phase} {q : Request}
    {c : PublicKey × Nonce} (ha : b.Allows phase q) (hc : phase.carried = some c) (a : Answer q) :
    (∃ network id key chain, q = .nextNonce network id key chain) ∨
      (b.nextPhase phase q a).carried = some c ∨ b.nextPhase phase q a = .stopped := by
  cases phase with
  | idle carried =>
    cases q with
    | key | publicKey => exact .inr (.inl hc)
    | _ => exact False.elim ha
  | claimed carried publicKey =>
    cases q with
    | viewAccessKey =>
      cases a with
      | error e => exact .inr (.inr rfl)
      | ok accessKey => exact .inr (.inl hc)
    | _ => exact False.elim ha
  | fetched carried publicKey accessKey =>
    cases q with
    | nextNonce network id key chain => exact .inl ⟨network, id, key, chain, rfl⟩
    | _ => exact False.elim ha
  | allocated | signed | stopped => cases hc

/-- One exchange keeps the account, if the manager reaches a carried nonce when it is
taken there. -/
theorem Accounted.step [Crates] {b : TransactionBuilder} {m m' : NonceManager} {network : Network}
    {id : AccountId} {phase : Phase} {xs : List (Exchange Request Answer)} {q : Request}
    (h : Accounted m network id phase xs) (ha : b.Allows phase q)
    (hm : ∀ key n, m.Reached (network, id, key) n → m'.Reached (network, id, key) n)
    (hn : ∀ network' id' key' chain, q = .nextNonce network' id' key' chain →
      ∀ key ak, phase.carried = some (key, ak) → m'.Reached (network, id, key) ak) (a : Answer q) :
    Accounted m' network id (b.nextPhase phase q a) (⟨q, a⟩ :: xs) := by
  intro key ak hrep
  rcases hrep.of_cons with ⟨tx, status, txNonce, hkey, heq⟩ | hrep
  · cases heq
    rw [ha.sendTx_inv]
    exact .inr (.inl (by rw [← hkey]; rfl))
  · rcases h key ak hrep with hr | hc | hover
    · exact .inl (hm _ _ hr)
    · rcases carried_nextPhase ha hc a with ⟨network', id', key', chain, hq⟩ | hnext
      · exact .inl (hn _ _ _ _ hq key ak hc)
      · exact .inr hnext
    · rw [hover] at ha
      exact False.elim ha

/-! ## Along a run -/

section
variable [Crates] [DecidableEq ι] {b : TransactionBuilder} {post : Phase → α → Prop} {i : ι}
variable {m₀ : NonceManager} {es : List (ClientOccurrence ι α)}

theorem chain_eq {network : Network} {id : AccountId} {key : PublicKey} {chain : Nonce}
    (hg : Along (b.attempts.Guards post i) es)
    (ha : b.Allows (b.attempts.after (exchangesOf i es)) (.nextNonce network id key chain)) :
    ∃ accessKey, b.attempts.after (exchangesOf i es) =
        .fetched (lastRejection (exchangesOf i es)) key accessKey ∧
      lastFetched (exchangesOf i es) = some accessKey ∧ network = b.url ∧ b.ActsFor id ∧
      chain = ((lastRejection (exchangesOf i es)).map Prod.snd).getD accessKey.nonce := by
  obtain ⟨carried, accessKey, hphase, hnet, hacts, hchain⟩ := ha.nextNonce_inv
  have hrec := TransactionBuilder.records_of_conforms (Monitor.conforms_of_guards hg)
  rw [hphase] at hrec
  obtain ⟨hcarried, hfetched⟩ := hrec
  rw [hcarried] at hphase hchain
  exact ⟨accessKey, hphase, hfetched, hnet, hacts, hchain⟩

private theorem accounted_of_run {id : AccountId} (hid : b.ActsFor id)
    (hg : Along (b.attempts.Guards post i) es) (hs : Along (Served m₀) es)
    (hb : Along CountersBelow es) (hr : Along (RebasesSafely i) es) :
    Accounted (managerAfter m₀ es) b.url id (b.attempts.after (exchangesOf i es))
      (exchangesOf i es) := by
  induction es with
  | nil =>
    rintro key ak ⟨_, _, _, -, hmem⟩
    cases hmem
  | cons e es ih =>
    have ih := ih hg.2 hs.2 hb.2 hr.2
    have hkeep : ∀ key n, (managerAfter m₀ es).Reached (b.url, id, key) n →
        (managerAfter m₀ (e :: es)).Reached (b.url, id, key) n :=
      fun key n h => reached_managerAfter_cons h hs.1 hb.1
    cases e with
    | returned j r =>
      intro key ak hrep
      exact ih key ak hrep
    | asked j m q a =>
      by_cases hj : j = i
      · subst hj
        rw [exchangesOf_asked_self]
        have ha := hg.1 rfl
        apply ih.step ha hkeep
        -- the carried nonce is the base of this very call, or was reached before
        intro network id' key' chain hq key ak hc
        subst hq
        obtain ⟨accessKey, hphase, -, rfl, hacts, hchain⟩ := chain_eq hg.2 ha
        rw [hphase] at hc
        have hlast : lastRejection (exchangesOf j es) = some (key, ak) := hc
        have hid' := hacts.unique hid
        subst hid'
        rcases (hr.1 rfl key ak hlast).2 with rfl | hreached
        · rw [hlast] at hchain
          have hbase : chain = ak := hchain
          subst hbase
          have hbelow : (managerAfter m₀ es).Below (b.url, id', key) chain := hs.1.1 ▸ hb.1
          exact NonceManager.reached_next_self (UInt64.le_of_lt (NonceManager.chain_lt_next hbelow))
        · exact hkeep _ _ (hs.1.1 ▸ hreached)
      · rw [exchangesOf_asked_of_ne hj]
        intro key ak hrep
        rcases ih key ak hrep with hr | hc
        · exact .inl (hkeep _ _ hr)
        · exact .inr hc

theorem freshNonce_of_run {m : NonceManager} {network : Network} {id : AccountId} {key : PublicKey}
    {chain nonce : Nonce} (hg : Along (b.attempts.Guards post i) es) (hs : Along (Served m₀) es)
    (hb : Along CountersBelow es) (hr : Along (RebasesSafely i) es)
    (ha : b.Allows (b.attempts.after (exchangesOf i es)) (.nextNonce network id key chain))
    (hserved : Served m₀ es (.asked i m (.nextNonce network id key chain) nonce))
    (hbelow : m.Below (network, id, key) chain)
    (hsafe : RebasesSafely i es (.asked i m (.nextNonce network id key chain) nonce)) :
    network = b.url ∧ b.ActsFor id ∧ FreshNonce m₀ i es (network, id, key) nonce := by
  obtain ⟨accessKey, hphase, hfetched, hnet, hacts, hchain⟩ := chain_eq hg ha
  obtain ⟨hm, hnonce⟩ := hserved
  have hreach : ∀ n, (managerAfter m₀ es).Reached (network, id, key) n → n < nonce := by
    intro n hn
    rw [hnonce]
    exact NonceManager.reached_lt_next hbelow (hm ▸ hn)
  have hfresh : chain < nonce := hnonce ▸ NonceManager.chain_lt_next hbelow
  refine ⟨hnet, hacts, ⟨accessKey, hfetched, ?_⟩, ?_, ?_, ?_⟩
  · cases hlast : lastRejection (exchangesOf i es) with
    | none =>
      rw [hlast] at hchain
      rw [hchain] at hfresh
      exact hfresh
    | some c =>
      obtain ⟨rejected, ak⟩ := c
      rw [hlast] at hchain
      have hbase : chain = ak := hchain
      subst hbase
      have hle := (hsafe rfl rejected chain hlast).1 accessKey hfetched
      rw [hnonce]
      exact NonceManager.lt_next_of_le_base hbelow hle
  · intro ak hrep
    rcases accounted_of_run hacts hg hs hb hr key ak hrep with hreached | hcarried | hover
    · rw [← hnet] at hreached
      exact hreach ak hreached
    · rw [hphase] at hcarried
      have hlast : lastRejection (exchangesOf i es) = some (key, ak) := hcarried
      rw [hlast] at hchain
      have hbase : chain = ak := hchain
      exact hbase ▸ hfresh
    · rw [hphase] at hover
      cases hover
  · intro n hn
    exact hreach n (reached_of_allocated hs hb hn)
  · intro n hn
    exact hreach n (reached_of_start hs hb ⟨n, hn, UInt64.le_refl n⟩)

private theorem sendsFresh_of_run (hg : Along (b.attempts.Guards post i) es)
    (hs : Along (Served m₀) es) (hb : Along CountersBelow es) (hr : Along (RebasesSafely i) es) :
    Along (SendsFresh b m₀ i) es := by
  induction es with
  | nil => trivial
  | cons e es ih =>
    refine ⟨?_, ih hg.2 hs.2 hb.2 hr.2⟩
    cases e with
    | returned j r => trivial
    | asked j m q a =>
      have hrec := TransactionBuilder.records_of_conforms (Monitor.conforms_of_guards hg.2)
      cases q with
      | nextNonce network id key chain =>
        intro hj
        subst hj
        exact freshNonce_of_run hg.2 hs.2 hb.2 hr.2 (hg.1 rfl) hs.1 hb.1 hr.1
      | sign key message =>
        intro hj
        obtain ⟨tx, hphase, hkey, hhash⟩ := (hg.1 hj).sign_inv
        rw [hphase] at hrec
        exact ⟨tx, hrec, hkey, hhash⟩
      | sendTx tx status =>
        intro hj
        have hphase := (hg.1 hj).sendTx_inv
        rw [hphase] at hrec
        exact hrec
      | _ => trivial

/-- In every interleaving of a send with other operations of its client, whatever the
node and the signers answer: the nonce signed in each attempt is greater than the
access-key nonce fetched for it, than every `ak_nonce` reported for its key before and
than every nonce the client handed out for that key before, provided that each attempt
after an `InvalidNonce` rejection rebases safely. -/
theorem send_nonces_fresh {start : ι → Process Request Answer α} {t : TransactionSend}
    {f : Exit SendResponse → α} (hi : start i = t.intoFuture.map f) {m : NonceManager}
    {ps : ι → Option (Process Request Answer α)} (run : Interleaving clientHandler start m₀ es m ps)
    (hb : Along CountersBelow es) (hr : Along (RebasesSafely i) es) :
    Along (SendsFresh t.builder m₀ i) es := by
  have hobeys : (start i).Obeys t.builder.attempts (fun _ _ => True) t.builder.attempts.start := by
    rw [hi]
    exact t.intoFuture_obeys.map
  exact sendsFresh_of_run (run.guards hobeys).2 run.served.2 hb hr

end

/-! ## Samples -/

/-- The carried nonce is the newest when the access key is fetched again. -/
theorem send_nonces_fresh_sample :
    ∃ hash₁ hash₂ m ps, Interleaving clientHandler
        (fun _ : Unit => (@TransactionSend.intoFuture Crates.accepting (.sample 2)).map id) .new
        (TransactionSend.retriedRun .new ⟨.sample 0, 0⟩ ⟨.sample 0, 0⟩ (.sample 5) (.sample 7) 7
          hash₁ hash₂) m ps ∧
      Along (@SendsFresh _ (Exit SendResponse) _ Crates.accepting (.sample 2) .new ())
        (TransactionSend.retriedRun .new ⟨.sample 0, 0⟩ ⟨.sample 0, 0⟩ (.sample 5) (.sample 7) 7
          hash₁ hash₂) := by
  let _ := Crates.accepting
  obtain ⟨hash₁, hash₂, m, ps, run⟩ := TransactionSend.exists_retriedRun (by decide) id .new
    ⟨.sample 0, 0⟩ ⟨.sample 0, 0⟩ (.sample 5) (.sample 7) 7
  refine ⟨hash₁, hash₂, m, ps, run, ?_⟩
  apply send_nonces_fresh (t := .sample 2) (f := id) (i := ()) rfl run
  · exact TransactionSend.retriedRun_below hash₁ hash₂ (by decide) (by decide)
  · refine ⟨trivial, trivial, ?_, trivial, trivial, trivial, trivial, ?_, trivial, trivial, trivial⟩
    · intro _ rejected ak hlast
      cases hlast
      refine ⟨?_, .inl rfl⟩
      intro accessKey hfetched
      cases hfetched
      decide
    · intro _ rejected ak hlast
      cases hlast

/-- After the rejection another client has used the key further: the fetched nonce is
20, and the next attempt is signed with 8. -/
theorem rebase_ignores_fetched_nonce :
    ∃ es m ps, Interleaving clientHandler
        (fun _ : Unit => (@TransactionSend.intoFuture Crates.accepting (.sample 2)).map id) .new
        es m ps ∧
      Along CountersBelow es ∧
      ¬ Along (@SendsFresh _ _ _ Crates.accepting (.sample 2) .new ()) es := by
  let _ := Crates.accepting
  obtain ⟨hash₁, hash₂, m, ps, run⟩ := TransactionSend.exists_retriedRun (by decide) id .new
    ⟨.sample 0, 0⟩ ⟨.sample 0, 0⟩ (.sample 5) (.sample 20) 7
  refine ⟨_, m, ps, run, ?_, ?_⟩
  · exact TransactionSend.retriedRun_below hash₁ hash₂ (by decide) (by decide)
  · intro h
    obtain ⟨-, -, hfresh⟩ := h.2.2.1 rfl
    obtain ⟨accessKey, hfetched, hlt⟩ := hfresh.fetched
    cases hfetched
    revert hlt
    decide

end NearKit
