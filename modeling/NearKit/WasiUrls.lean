import NearKit.Base64Text
import NearKit.CheckedArithmetic
import NearKit.Errors
import NearKit.PercentEncoding
import NearKit.UrlReferences

/-!
# URLs of outgoing requests

The transport for WASI has no URL library. It splits the URL of an endpoint into the parts of
a `wasi:http` request by searching for the delimiters, and turns the user information in front
of the host into a header.
-/
namespace NearKit
namespace WasiHttp
open Borsh Url

/-! ## Decoding escapes -/

/-- The loop of `percent_decode` from a byte on. -/
def percentDecodeFrom (bytes : Bytes) (i : ℕ) (out : Bytes) : Bytes :=
  if h : i < bytes.length then
    match bytes[i] == Percent.sign, bytes[i + 1]?.bind Percent.hexVal,
        bytes[i + 2]?.bind Percent.hexVal with
    | true, some hi, some lo => percentDecodeFrom bytes (i + 3) (out ++ [hi <<< 4 ||| lo])
    | _, _, _ => percentDecodeFrom bytes (i + 1) (out ++ [bytes[i]])
  else out
termination_by bytes.length - i

def percentDecode (s : List Char) : Bytes :=
  percentDecodeFrom (Codec.utf8 (String.ofList s)) 0 []

private theorem drop_of_getElem? {bytes : Bytes} {i : ℕ} {b : UInt8} (h : bytes[i]? = some b) :
    bytes.drop i = b :: bytes.drop (i + 1) := by
  obtain ⟨hi, hb⟩ := List.getElem?_eq_some_iff.mp h
  rw [List.drop_eq_getElem_cons hi, hb]

private theorem percentDecodeFrom_eq (bytes : Bytes) (i : ℕ) (out : Bytes) :
    percentDecodeFrom bytes i out = out ++ Percent.decode (bytes.drop i) := by
  fun_induction percentDecodeFrom bytes i out with
  | case1 i out hi high low hlow hhigh hsign ih =>
    obtain ⟨h, hh, hhigh⟩ := Option.bind_eq_some_iff.mp hhigh
    obtain ⟨l, hl, hlow⟩ := Option.bind_eq_some_iff.mp hlow
    have hdrop : bytes.drop i = Percent.sign :: h :: l :: bytes.drop (i + 3) := by
      rw [List.drop_eq_getElem_cons hi, beq_iff_eq.mp hsign, drop_of_getElem? hh,
        drop_of_getElem? hl]
    rw [ih, hdrop, Percent.decode_escape (Percent.pair_eq_some hhigh hlow), List.append_assoc,
      List.singleton_append]
  | case2 i out hi hnone ih =>
    -- no two digits stand behind a percent sign here
    have hkept : bytes[i] = Percent.sign → Percent.Malformed (bytes.drop (i + 1)) := by
      intro hsign h l rest hrest
      have hh : bytes[i + 1]? = some h := by
        rw [← List.head?_drop, hrest, List.head?_cons]
      have hl : bytes[i + 2]? = some l := by
        rw [← List.head?_drop, ← List.tail_drop, hrest, List.tail_cons, List.head?_cons]
      refine Percent.pair_eq_none fun high low hhigh hlow => ?_
      have hno := hnone high low
      rw [hh, hl] at hno
      exact hno (beq_iff_eq.mpr hsign) hhigh hlow
    rw [ih, List.drop_eq_getElem_cons hi, Percent.decode_cons hkept, List.append_assoc,
      List.singleton_append]
  | case3 i out hi =>
    rw [List.drop_eq_nil_of_le (Nat.not_lt.mp hi)]
    exact (List.append_nil out).symm

theorem percentDecode_eq (s : List Char) :
    percentDecode s = Percent.decode (Codec.utf8 (String.ofList s)) :=
  (percentDecodeFrom_eq _ 0 []).trans (List.nil_append _)

/-- A percent sign without two digits behind it stays, and no escape reaches over it. -/
theorem percentDecode_malformed {rest : List Char}
    (h : Percent.Malformed (Codec.utf8 (String.ofList rest))) (s : List Char) :
    percentDecode (s ++ '%' :: rest) =
      percentDecode s ++ Percent.sign :: percentDecode rest := by
  have hsign : Codec.utf8 (String.ofList ('%' :: rest)) =
      Percent.sign :: Codec.utf8 (String.ofList rest) := Percent.utf8_ofList_cons (by decide) rest
  rw [percentDecode_eq, percentDecode_eq, percentDecode_eq, Percent.utf8_ofList_append, hsign,
    Percent.decode_append_sign, Percent.decode_cons fun _ => h]

example : percentDecode "p%40ss%4".toList = Codec.utf8 "p@ss%4" := by
  rw [percentDecode_eq]
  decide

/-! ## The header -/

def basicAuth (userinfo : List Char) : Option Bytes :=
  if userinfo = [] then none
  else
    let (user, pass) := match splitOnceChars ':' userinfo with
      | some (user, pass) => (user, some pass)
      | none => (userinfo, none)
    let credentials := percentDecode user ++ [0x3A] ++ (pass.map percentDecode).getD []
    some (Codec.utf8 ("Basic " ++ Base64.encode credentials))

/-- The value of a header holds these bytes as credentials. -/
def Carries (value credentials : Bytes) : Prop :=
  ∃ text, value = Codec.utf8 ("Basic " ++ text) ∧ Base64.decode text = some credentials

theorem basicAuth_password {user : List Char} (h : ':' ∉ user) (pass : List Char) :
    ∃ value, basicAuth (user ++ ':' :: pass) = some value ∧
      Carries value (percentDecode user ++ 0x3A :: percentDecode pass) := by
  have hne : user ++ ':' :: pass ≠ [] := by simp
  refine ⟨_, ?_, _, rfl, Base64.decode_encode _⟩
  unfold basicAuth
  rw [if_neg hne, splitOnceChars_append h]
  simp

private theorem basicAuth_user {user : List Char} (h : ':' ∉ user) (hne : user ≠ []) :
    ∃ value, basicAuth user = some value ∧ Carries value (percentDecode user ++ [0x3A]) := by
  refine ⟨_, ?_, _, rfl, Base64.decode_encode _⟩
  unfold basicAuth
  rw [if_neg hne, splitOnceChars_eq_none.mpr h]
  simp

/-! ## Splitting a URL -/

/-- The schemes of `wasi:http` that an endpoint can have. -/
inductive Scheme where
  | http | https
  deriving DecidableEq

structure UrlParts where
  scheme : Scheme
  authority : List Char
  pathWithQuery : List Char
  authorization : Option Bytes
  deriving DecidableEq

/-- A malformed URL is deterministic. -/
def invalidUrl (url : List Char) (reason : String) : RpcError :=
  .network ("invalid RPC URL `" ++ String.ofList url ++ "`: " ++ reason) none false

/-- The scheme that a name stands for, in letters of either case. -/
def schemeOf (schemeRaw : List Char) : Option Scheme :=
  if Text.eqIgnoreAsciiCase schemeRaw "http".toList then some .http
  else if Text.eqIgnoreAsciiCase schemeRaw "https".toList then some .https
  else none

/-- The path of a request for what stands behind the authority, up to a fragment. -/
def pathOf (tail : List Char) : List Char :=
  if tail = [] then ['/']
  else if tail.head? = some '?' then '/' :: tail
  else tail

def splitUrl (url : List Char) : MayPanic RpcError UrlParts := do
  let (schemeRaw, rest) ← .okOr (invalidUrl url "missing scheme")
    (Text.splitOnceStr "://".toList url)
  let scheme ← .okOr (invalidUrl url "scheme must be http or https") (schemeOf schemeRaw)
  let authorityEnd := (Text.find isDelimiter rest).getD (Text.byteLength rest)
  let (authority, tail) ← .orPanic (Text.splitAtByte authorityEnd rest)
  let (authorization, authority) := match rsplitOnceChars '@' authority with
    | some (userinfo, host) => (basicAuth userinfo, host)
    | none => (none, authority)
  if authority = [] then .err (invalidUrl url "missing host")
  else
    let tail := (tail.splitOn '#').head?.getD []
    .ok ⟨scheme, authority, pathOf tail, authorization⟩

/-! ### What is accepted -/

def Scheme.name : Scheme → List Char
  | http => "http".toList
  | https => "https".toList

theorem schemeOf_eq_some {s : List Char} {scheme : Scheme} :
    schemeOf s = some scheme ↔ s.map Char.toLower = scheme.name := by
  have hlower : ∀ scheme : Scheme, scheme.name.map Char.toLower = scheme.name := by
    rintro (_ | _) <;> decide
  have hignore : ∀ other : Scheme, Text.eqIgnoreAsciiCase s other.name = true ↔
      s.map Char.toLower = other.name := by
    intro other
    unfold Text.eqIgnoreAsciiCase
    rw [hlower other, beq_iff_eq]
  have hhttp := hignore .http
  have hhttps := hignore .https
  have hother : Scheme.name .http ≠ Scheme.name .https := by decide
  unfold schemeOf
  cases scheme with
  | http =>
    split
    · next h => exact iff_of_true rfl (hhttp.mp h)
    · next h =>
      refine iff_of_false (fun heq => ?_) fun heq => h (hhttp.mpr heq)
      split at heq <;> cases heq
  | https =>
    split
    · next h => exact iff_of_false nofun fun heq => hother ((hhttp.mp h).symm.trans heq)
    · split
      · next h => exact iff_of_true rfl (hhttps.mp h)
      · next h => exact iff_of_false nofun fun heq => h (hhttps.mpr heq)

private theorem isScheme_of_schemeOf {s : List Char} {scheme : Scheme}
    (h : schemeOf s = some scheme) : IsScheme s := by
  have hname : ∀ scheme : Scheme, IsScheme scheme.name := by
    rintro (_ | _) <;> exact ⟨by decide, by decide, clear_iff.mpr (by decide)⟩
  apply IsScheme.of_lower
  rw [schemeOf_eq_some.mp h]
  exact hname scheme

/-- The host of an authority, and the header for its user information. -/
theorem authority_split (a : Authority) :
    (match rsplitOnceChars '@' a.text with
      | some (userinfo, host) => (basicAuth userinfo, host)
      | none => (none, a.text)) = (a.userinfo.bind basicAuth, a.host) := by
  have hsplit : rsplitOnceChars '@' a.text = a.userinfo.map (·, a.host) :=
    rsplitOnceChars_closed a.host_at a.userinfo
  rw [hsplit]
  cases huserinfo : a.userinfo with
  | none =>
    have htext : a.text = a.host := by
      unfold Authority.text
      rw [huserinfo]
      rfl
    exact congrArg (Prod.mk none) htext
  | some userinfo => rfl

theorem splitUrl_text {u : Url} {s : List Char} {a : Authority} (hs : u.scheme = some s)
    (ha : u.authority = some a) :
    splitUrl u.text = (do
      let scheme ← .okOr (invalidUrl u.text "scheme must be http or https") (schemeOf s)
      if a.host = [] then .err (invalidUrl u.text "missing host")
      else .ok ⟨scheme, a.host, pathOf u.target, a.userinfo.bind basicAuth⟩) := by
  have hscheme : Text.splitOnceStr "://".toList u.text = some (s, a.text ++ u.tail) := by
    rw [text_eq_of_authority hs ha]
    exact Text.splitOnceStr_append (u.scheme_isScheme s hs).colon _
  have htail : Text.StartsAt isDelimiter u.tail := tail_startsAt (by rw [ha]; rfl)
  have hauthority := Text.splitAtByte_find a.text_clear htail
  have htarget : (u.tail.splitOn '#').head?.getD [] = u.target := by
    have hhead := head?_splitOn_opened u.target_fragment u.fragment
    exact congrArg (·.getD []) hhead
  unfold splitUrl
  rw [hscheme, MayPanic.okOr_some, MayPanic.ok_bind]
  dsimp only
  cases schemeOf s with
  | none => rw [MayPanic.okOr_none, MayPanic.err_bind, MayPanic.err_bind]
  | some scheme =>
    simp only [MayPanic.okOr_some, MayPanic.ok_bind, hauthority, MayPanic.orPanic_some]
    rw [authority_split, htarget]

theorem exists_of_splitOnceStr {url s rest : List Char} {scheme : Scheme}
    (hsplit : Text.splitOnceStr "://".toList url = some (s, rest))
    (hscheme : schemeOf s = some scheme) :
    ∃ (u : Url) (a : Authority), u.text = url ∧ u.scheme = some s ∧ u.authority = some a := by
  have hs : ∀ t ∈ some s, IsScheme t := by
    rintro t ⟨⟩
    exact isScheme_of_schemeOf hscheme
  obtain ⟨u, a, hu, ha, htext⟩ := exists_of_authority hs rest
  refine ⟨u, a, ?_, hu, ha⟩
  rw [htext, Text.splitOnceStr_eq_some hsplit]
  simp [closed]

/-- A URL is accepted for an `http` or `https` scheme and a host. -/
theorem splitUrl_eq_ok {url : List Char} {parts : UrlParts} :
    splitUrl url = .ok parts ↔ ∃ (u : Url) (s : List Char) (a : Authority) (scheme : Scheme),
      u.text = url ∧ u.scheme = some s ∧ u.authority = some a ∧ schemeOf s = some scheme ∧
      a.host ≠ [] ∧ parts = ⟨scheme, a.host, pathOf u.target, a.userinfo.bind basicAuth⟩ := by
  constructor
  · intro h
    have hsteps := h
    unfold splitUrl at hsteps
    obtain ⟨⟨s, rest⟩, hsplit, hsteps⟩ := MayPanic.bind_eq_ok.mp hsteps
    obtain ⟨scheme, hnamed, -⟩ := MayPanic.bind_eq_ok.mp hsteps
    have hscheme : schemeOf s = some scheme := MayPanic.okOr_eq_ok.mp hnamed
    obtain ⟨u, a, rfl, hs, ha⟩ := exists_of_splitOnceStr (MayPanic.okOr_eq_ok.mp hsplit) hscheme
    rw [splitUrl_text hs ha, hscheme, MayPanic.okOr_some, MayPanic.ok_bind] at h
    split at h
    · exact absurd h (MayPanic.err_ne_ok _ _)
    · next hhost => exact ⟨u, s, a, scheme, rfl, hs, ha, hscheme, hhost, (MayPanic.ok_inj.mp h).symm⟩
  · rintro ⟨u, s, a, scheme, rfl, hs, ha, hscheme, hhost, rfl⟩
    rw [splitUrl_text hs ha, hscheme, MayPanic.okOr_some, MayPanic.ok_bind, if_neg hhost]

/-- A URL that is not accepted is named in the error, and none panics. -/
theorem splitUrl_cases (url : List Char) :
    (∃ parts, splitUrl url = .ok parts) ∨
      ∃ reason, splitUrl url = .err (invalidUrl url reason) := by
  cases hsplit : Text.splitOnceStr "://".toList url with
  | none =>
    refine .inr ⟨"missing scheme", ?_⟩
    unfold splitUrl
    rw [hsplit, MayPanic.okOr_none, MayPanic.err_bind]
  | some sides =>
    obtain ⟨s, rest⟩ := sides
    cases hscheme : schemeOf s with
    | none =>
      refine .inr ⟨"scheme must be http or https", ?_⟩
      unfold splitUrl
      rw [hsplit, MayPanic.okOr_some, MayPanic.ok_bind]
      dsimp only
      rw [hscheme, MayPanic.okOr_none, MayPanic.err_bind]
    | some scheme =>
      obtain ⟨u, a, rfl, hs, ha⟩ := exists_of_splitOnceStr hsplit hscheme
      rw [splitUrl_text hs ha, hscheme, MayPanic.okOr_some, MayPanic.ok_bind]
      split
      · exact .inr ⟨"missing host", rfl⟩
      · exact .inl ⟨_, rfl⟩

/-! ### The path -/

theorem pathOf_eq {target : List Char} (h : Text.StartsAt (fun c => c == '/' || c == '?') target) :
    pathOf target = if target.head? = some '/' then target else '/' :: target := by
  cases target with
  | nil => rfl
  | cons c cs =>
    have hc : c = '/' ∨ c = '?' := by simpa using h c rfl
    rcases hc with rfl | rfl <;> rfl

private theorem pathOf_startsAt {target : List Char}
    (h : Text.StartsAt (fun c => c == '/' || c == '?') target) :
    (pathOf target).head? = some '/' := by
  rw [pathOf_eq h]
  split
  · next hhead => exact hhead
  · rfl

private theorem pathOf_fragment {target : List Char} (h : '#' ∉ target) : '#' ∉ pathOf target := by
  have hslash : '#' ∉ '/' :: target := List.not_mem_cons_of_ne_of_not_mem (by decide) h
  unfold pathOf
  split
  · decide
  · split
    · exact hslash
    · exact h

/-! ## What a request is made of -/

/-- A URL of a host, with the user information, the target and the fragment around it. -/
def urlOf (scheme : List Char) (userinfo : Option (List Char)) (authority target : List Char)
    (fragment : Option (List Char)) : List Char :=
  scheme ++ "://".toList ++ closed '@' userinfo ++ authority ++ target ++ opened '#' fragment

theorem text_eq_urlOf {u : Url} {s : List Char} {a : Authority} (hs : u.scheme = some s)
    (ha : u.authority = some a) :
    u.text = urlOf s a.userinfo a.host u.target u.fragment := by
  rw [text_eq_of_authority hs ha]
  simp [urlOf, Authority.text, tail]

/-- The parts of a request are cut out of a URL, around user information, a target and a
fragment. -/
structure CutFrom (url : List Char) (parts : UrlParts) (scheme : List Char)
    (userinfo : Option (List Char)) (target : List Char) (fragment : Option (List Char)) :
    Prop where
  text : url = urlOf scheme userinfo parts.authority target fragment
  scheme_name : scheme.map Char.toLower = parts.scheme.name
  userinfo_clear : ∀ cs ∈ userinfo, '/' ∉ cs ∧ '?' ∉ cs ∧ '#' ∉ cs
  authority_ne_nil : parts.authority ≠ []
  authority_clear : ∀ c ∈ parts.authority, c ≠ '@' ∧ c ≠ '/' ∧ c ≠ '?' ∧ c ≠ '#'
  target_start : target = [] ∨ target.head? = some '/' ∨ target.head? = some '?'
  path_target : parts.pathWithQuery = if target.head? = some '/' then target else '/' :: target
  path_slash : parts.pathWithQuery.head? = some '/'
  path_fragment : '#' ∉ parts.pathWithQuery
  authorization : parts.authorization = userinfo.bind basicAuth

private theorem cutFrom_text {u : Url} {s : List Char} {a : Authority} {scheme : Scheme}
    (hs : u.scheme = some s) (ha : u.authority = some a) (hscheme : schemeOf s = some scheme)
    (hhost : a.host ≠ []) :
    CutFrom u.text ⟨scheme, a.host, pathOf u.target, a.userinfo.bind basicAuth⟩ s a.userinfo
      u.target u.fragment := by
  have htarget : Text.StartsAt (fun c => c == '/' || c == '?') u.target :=
    target_startsAt (by rw [ha]; rfl)
  refine ⟨text_eq_urlOf hs ha, schemeOf_eq_some.mp hscheme, ?_, hhost, ?_, ?_, pathOf_eq htarget,
    pathOf_startsAt htarget, pathOf_fragment u.target_fragment, rfl⟩
  · exact fun cs hcs => clear_iff.mp (a.userinfo_clear cs hcs)
  · intro c hc
    obtain ⟨hslash, hquery, hfragment⟩ := clear_iff.mp a.host_clear
    exact ⟨ne_of_mem_of_not_mem hc a.host_at, ne_of_mem_of_not_mem hc hslash,
      ne_of_mem_of_not_mem hc hquery, ne_of_mem_of_not_mem hc hfragment⟩
  · cases hcs : u.target with
    | nil => exact .inl rfl
    | cons c cs =>
      rw [hcs] at htarget
      have hc : c = '/' ∨ c = '?' := by simpa using htarget c rfl
      exact .inr (hc.imp (congrArg some) (congrArg some))

/-- The parts of an accepted URL stand in its text. Other user information in their place
changes the header and nothing else, and the header carries the two halves without their
escapes. Decoding inverts every way to escape bytes and keeps what is no escape. -/
theorem splitUrl_spec :
    (∀ url parts, splitUrl url = .ok parts → ∃ scheme userinfo target fragment,
      CutFrom url parts scheme userinfo target fragment ∧
      ∀ other : Option (List Char), (∀ cs ∈ other, '/' ∉ cs ∧ '?' ∉ cs ∧ '#' ∉ cs) →
        splitUrl (urlOf scheme other parts.authority target fragment) =
          .ok { parts with authorization := other.bind basicAuth }) ∧
    basicAuth [] = none ∧
    (∀ user, ':' ∉ user → user ≠ [] → ∃ value, basicAuth user = some value ∧
      Carries value (percentDecode user ++ [0x3A])) ∧
    (∀ user pass, ':' ∉ user → ∃ value, basicAuth (user ++ ':' :: pass) = some value ∧
      Carries value (percentDecode user ++ 0x3A :: percentDecode pass)) ∧
    (∀ bs s, Percent.Encodes bs (Codec.utf8 (String.ofList s)) → percentDecode s = bs) ∧
    (∀ keep bs, percentDecode (Percent.encode keep bs) = bs) ∧
    (∀ s rest, Percent.Malformed (Codec.utf8 (String.ofList rest)) →
      percentDecode (s ++ '%' :: rest) = percentDecode s ++ Percent.sign :: percentDecode rest) ∧
    (∀ s, (∀ pre rest, Codec.utf8 (String.ofList s) = pre ++ Percent.sign :: rest →
      Percent.Malformed rest) → percentDecode s = Codec.utf8 (String.ofList s)) := by
  refine ⟨fun url parts h => ?_, rfl, fun user => basicAuth_user, fun user pass h => ?_,
    fun bs s h => ?_, fun keep bs => ?_, fun s rest h => percentDecode_malformed h s,
    fun s h => ?_⟩
  · obtain ⟨u, s, a, scheme, rfl, hs, ha, hscheme, hhost, rfl⟩ := splitUrl_eq_ok.mp h
    refine ⟨s, a.userinfo, u.target, u.fragment, cutFrom_text hs ha hscheme hhost, ?_⟩
    intro other hother
    have hclear : ∀ cs ∈ other, Clear cs := fun cs hcs => clear_iff.mpr (hother cs hcs)
    have hauthority : (u.withUserinfo other hclear).authority =
        some (a.withUserinfo other hclear) := congrArg (Option.map _) ha
    have htext := text_eq_urlOf (u := u.withUserinfo other hclear) hs hauthority
    exact splitUrl_eq_ok.mpr ⟨u.withUserinfo other hclear, s, a.withUserinfo other hclear, scheme,
      htext, hs, hauthority, hscheme, hhost, rfl⟩
  · exact basicAuth_password h pass
  · rw [percentDecode_eq, Percent.decode_of_encodes h]
  · rw [percentDecode_eq, Percent.decode_of_encodes (Percent.encodes_encode keep bs)]
  · rw [percentDecode_eq, Percent.decode_of_malformed h]

end WasiHttp
end NearKit
