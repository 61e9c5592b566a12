import NearKit.TextSearch

/-!
# The parts of a URL

A scheme, an authority with its user information, a path, a query and a fragment, each
written with its own delimiter. Every text is written by exactly one choice of the parts.
-/
namespace NearKit
namespace Url
open Text

/-! ## Optional parts -/

def opened (c : Char) : Option (List Char) → List Char
  | none => []
  | some cs => c :: cs

def closed (c : Char) : Option (List Char) → List Char
  | none => []
  | some cs => cs ++ [c]

theorem opened_startsAt {p : Char → Bool} {c : Char} (h : p c = true) (part : Option (List Char)) :
    StartsAt p (opened c part) := by
  cases part with
  | none => exact nofun
  | some cs =>
    rintro d ⟨⟩
    exact h

private theorem opened_injective (c : Char) : Function.Injective (opened c) := by
  rintro (_ | cs) (_ | ds) h
  · rfl
  · cases h
  · cases h
  · exact congrArg some (List.cons.inj h).2

private theorem opened_unique {c : Char} {xs ys : List Char} {part other : Option (List Char)}
    (hxs : c ∉ xs) (hys : c ∉ ys) (h : xs ++ opened c part = ys ++ opened c other) :
    xs = ys ∧ part = other := by
  have hstart : ∀ part, StartsAt (· == c) (opened c part) := opened_startsAt (by simp)
  obtain ⟨hbefore, hparts⟩ :=
    startsAt_unique (beq_of_not_mem hxs) (hstart part) (beq_of_not_mem hys) (hstart other) h
  exact ⟨hbefore, opened_injective c hparts⟩

private theorem exists_opened (c : Char) (cs : List Char) :
    ∃ xs part, cs = xs ++ opened c part ∧ c ∉ xs := by
  cases hsplit : splitOnceChars c cs with
  | none => exact ⟨cs, none, (List.append_nil cs).symm, splitOnceChars_eq_none.mp hsplit⟩
  | some sides =>
    obtain ⟨hcs, hxs⟩ := splitOnceChars_eq_some_iff.mp hsplit
    exact ⟨sides.1, some sides.2, hcs, hxs⟩

theorem head?_splitOn_opened {c : Char} {xs : List Char} (h : c ∉ xs) (part : Option (List Char)) :
    ((xs ++ opened c part).splitOn c).head? = some xs := by
  cases part with
  | none =>
    have hxs : xs ++ opened c none = xs := List.append_nil xs
    rw [hxs, List.splitOn_eq_singleton h, List.head?_cons]
  | some cs =>
    have hxs : xs ++ opened c (some cs) = xs ++ c :: cs := rfl
    rw [hxs, List.splitOn_append_cons_self_of_not_mem h, List.head?_cons]

theorem rsplitOnceChars_closed {c : Char} {ys : List Char} (h : c ∉ ys)
    (part : Option (List Char)) :
    rsplitOnceChars c (closed c part ++ ys) = part.map (·, ys) := by
  cases part with
  | none => exact rsplitOnceChars_of_not_mem h
  | some cs =>
    have hassoc : closed c (some cs) ++ ys = cs ++ c :: ys := by simp [closed]
    rw [hassoc, rsplitOnceChars_append h, Option.map_some]

private theorem closed_unique {c : Char} {xs ys : List Char} {part other : Option (List Char)}
    (hxs : c ∉ xs) (hys : c ∉ ys) (h : closed c part ++ xs = closed c other ++ ys) :
    part = other ∧ xs = ys := by
  have hsplit := rsplitOnceChars_closed hxs part
  rw [h, rsplitOnceChars_closed hys other] at hsplit
  cases part <;> cases other <;> cases hsplit
  · exact ⟨rfl, h⟩
  · exact ⟨rfl, rfl⟩

private theorem exists_closed (c : Char) (cs : List Char) :
    ∃ part ys, cs = closed c part ++ ys ∧ c ∉ ys := by
  by_cases h : c ∈ cs.reverse
  · obtain ⟨xs, ys, heq, hxs⟩ := List.eq_append_cons_of_mem h
    refine ⟨some ys.reverse, xs.reverse, ?_, fun hc => hxs (List.mem_reverse.mp hc)⟩
    have hcs := congrArg List.reverse heq
    rw [List.reverse_reverse] at hcs
    rw [hcs]
    simp [closed]
  · exact ⟨none, cs, rfl, fun hc => h (List.mem_reverse.mpr hc)⟩

/-! ## Authorities -/

/-- The characters that end an authority. -/
def isDelimiter (c : Char) : Bool := c == '/' || c == '?' || c == '#'

/-- Nothing in the text ends an authority. -/
def Clear (cs : List Char) : Prop := ∀ c ∈ cs, isDelimiter c = false

theorem Clear.not_mem {cs : List Char} (h : Clear cs) {c : Char} (hc : isDelimiter c = true) :
    c ∉ cs := by
  intro hmem
  rw [h c hmem] at hc
  cases hc

theorem clear_append {xs ys : List Char} : Clear (xs ++ ys) ↔ Clear xs ∧ Clear ys :=
  List.forall_mem_append

theorem clear_iff {cs : List Char} : Clear cs ↔ '/' ∉ cs ∧ '?' ∉ cs ∧ '#' ∉ cs := by
  constructor
  · intro h
    exact ⟨h.not_mem rfl, h.not_mem rfl, h.not_mem rfl⟩
  · rintro ⟨hslash, hquery, hfragment⟩ c hc
    have hs : c ≠ '/' := ne_of_mem_of_not_mem hc hslash
    have hq : c ≠ '?' := ne_of_mem_of_not_mem hc hquery
    have hf : c ≠ '#' := ne_of_mem_of_not_mem hc hfragment
    simp [isDelimiter, hs, hq, hf]

/-- The host and its port, and the user information in front of them. -/
@[ext] structure Authority where
  userinfo : Option (List Char)
  host : List Char
  userinfo_clear : ∀ cs ∈ userinfo, Clear cs
  host_clear : Clear host
  host_at : '@' ∉ host

namespace Authority

def text (a : Authority) : List Char := closed '@' a.userinfo ++ a.host

theorem text_clear (a : Authority) : Clear a.text := by
  refine clear_append.mpr ⟨?_, a.host_clear⟩
  cases h : a.userinfo with
  | none => exact nofun
  | some cs =>
    refine clear_append.mpr ⟨a.userinfo_clear cs h, ?_⟩
    rintro c hc
    rw [List.mem_singleton.mp hc]
    rfl

private theorem text_injective : Function.Injective text := by
  intro a b h
  obtain ⟨huserinfo, hhost⟩ := closed_unique a.host_at b.host_at h
  exact Authority.ext huserinfo hhost

private theorem exists_text {cs : List Char} (h : Clear cs) : ∃ a : Authority, a.text = cs := by
  obtain ⟨userinfo, host, rfl, hat⟩ := exists_closed '@' cs
  obtain ⟨huserinfo, hhost⟩ := clear_append.mp h
  refine ⟨⟨userinfo, host, ?_, hhost, hat⟩, rfl⟩
  rintro us rfl
  exact (clear_append.mp huserinfo).1

/-- Other user information in front of the same host. -/
def withUserinfo (a : Authority) (userinfo : Option (List Char))
    (h : ∀ cs ∈ userinfo, Clear cs) : Authority :=
  { a with userinfo, userinfo_clear := h }

end Authority

/-! ## Whole texts -/

/-- A text that can stand in front of the colon of a scheme. -/
structure IsScheme (cs : List Char) : Prop where
  ne_nil : cs ≠ []
  colon : ':' ∉ cs
  clear : Clear cs

theorem IsScheme.of_lower {cs : List Char} (h : IsScheme (cs.map Char.toLower)) : IsScheme cs where
  ne_nil := by
    rintro rfl
    exact h.ne_nil rfl
  colon hmem := h.colon (List.mem_map_of_mem hmem)
  clear := by
    obtain ⟨hslash, hquery, hfragment⟩ := clear_iff.mp h.clear
    exact clear_iff.mpr ⟨fun hmem => hslash (List.mem_map_of_mem hmem),
      fun hmem => hquery (List.mem_map_of_mem hmem),
      fun hmem => hfragment (List.mem_map_of_mem hmem)⟩

/-- The text does not begin with a scheme and its colon. -/
def NoScheme (cs : List Char) : Prop := ∀ xs ys, cs = xs ++ ':' :: ys → ¬ IsScheme xs

/-- The text does not begin with the two slashes of an authority. -/
def NoAuthority (cs : List Char) : Prop := ∀ rest, cs ≠ '/' :: '/' :: rest

end Url

/-- The parts of a URL or of a reference that leaves the first ones out. -/
@[ext] structure Url where
  scheme : Option (List Char)
  authority : Option Url.Authority
  path : List Char
  query : Option (List Char)
  fragment : Option (List Char)
  scheme_isScheme : ∀ s ∈ scheme, Url.IsScheme s
  path_query : '?' ∉ path
  path_fragment : '#' ∉ path
  query_fragment : ∀ q ∈ query, '#' ∉ q
  path_rooted : authority.isSome → Text.StartsAt (· == '/') path
  path_noAuthority : authority = none → Url.NoAuthority path
  path_noScheme : scheme = none → authority = none → Url.NoScheme path

namespace Url
open Text

/-- An authority behind its two slashes. -/
def marked : Option Authority → List Char
  | none => []
  | some a => '/' :: '/' :: a.text

/-- What is asked of the host. -/
def target (u : Url) : List Char := u.path ++ opened '?' u.query

/-- What stands behind the authority. -/
def tail (u : Url) : List Char := u.target ++ opened '#' u.fragment

def text (u : Url) : List Char := closed ':' u.scheme ++ (marked u.authority ++ u.tail)

theorem text_eq_of_authority {u : Url} {s : List Char} {a : Authority} (hs : u.scheme = some s)
    (ha : u.authority = some a) : u.text = s ++ (':' :: ['/', '/'] ++ (a.text ++ u.tail)) := by
  unfold text
  rw [hs, ha]
  simp [closed, marked]

/-! ## One choice of the parts -/

theorem target_fragment (u : Url) : '#' ∉ u.target := by
  unfold target
  rw [List.mem_append, not_or]
  refine ⟨u.path_fragment, ?_⟩
  cases h : u.query with
  | none => exact List.not_mem_nil
  | some q => exact List.not_mem_cons_of_ne_of_not_mem (by decide) (u.query_fragment q h)

private theorem tail_unique {u v : Url} (h : u.tail = v.tail) :
    u.path = v.path ∧ u.query = v.query ∧ u.fragment = v.fragment := by
  obtain ⟨htarget, hfragment⟩ := opened_unique u.target_fragment v.target_fragment h
  obtain ⟨hpath, hquery⟩ := opened_unique u.path_query v.path_query htarget
  exact ⟨hpath, hquery, hfragment⟩

/-- What a query or a fragment begins with. -/
def isMark (c : Char) : Bool := c == '?' || c == '#'

theorem tail_eq (u : Url) : u.tail = u.path ++ (opened '?' u.query ++ opened '#' u.fragment) :=
  List.append_assoc ..

theorem extras_startsAt (u : Url) :
    StartsAt isMark (opened '?' u.query ++ opened '#' u.fragment) :=
  .append (opened_startsAt rfl _) (opened_startsAt rfl _)

theorem isDelimiter_of_isMark (c : Char) (h : isMark c = true) : isDelimiter c = true := by
  unfold isMark at h
  unfold isDelimiter
  rw [Bool.or_assoc, h, Bool.or_true]

theorem tail_startsAt {u : Url} (h : u.authority.isSome) : StartsAt isDelimiter u.tail := by
  have hpath : StartsAt isDelimiter u.path :=
    (u.path_rooted h).imp fun c hc => by rw [beq_iff_eq.mp hc]; rfl
  rw [tail_eq]
  exact hpath.append (u.extras_startsAt.imp isDelimiter_of_isMark)

/-- A host is asked for a path or, with no path, for a query. -/
theorem target_startsAt {u : Url} (h : u.authority.isSome) :
    StartsAt (fun c => c == '/' || c == '?') u.target := by
  have hpath : StartsAt (fun c => c == '/' || c == '?') u.path :=
    (u.path_rooted h).imp fun c hc => by rw [hc, Bool.true_or]
  exact hpath.append (opened_startsAt rfl u.query)

private theorem NoAuthority.append {xs ys : List Char} (hxs : NoAuthority xs)
    (hys : StartsAt isMark ys) : NoAuthority (xs ++ ys) := by
  have hslash : ys.head? ≠ some '/' := by
    intro hhead
    cases hys '/' hhead
  rintro rest heq
  rcases xs with _ | ⟨a, _ | ⟨b, xs⟩⟩
  · rw [List.nil_append] at heq
    exact hslash (by rw [heq]; rfl)
  · have hys : ys = '/' :: rest := (List.cons.inj heq).2
    exact hslash (by rw [hys]; rfl)
  · obtain ⟨ha, heq⟩ := List.cons.inj heq
    obtain ⟨hb, -⟩ := List.cons.inj heq
    exact hxs xs (by rw [ha, hb])

private theorem NoScheme.append {xs ys : List Char} (hxs : NoScheme xs)
    (hys : StartsAt isDelimiter ys) : NoScheme (xs ++ ys) := by
  rintro s rest heq hs
  have hcolon : ∀ as, ys ≠ ':' :: as := by
    rintro as rfl
    cases hys ':' rfl
  rcases List.append_eq_append_iff.mp heq with ⟨as, hsplit, has⟩ | ⟨as, hsplit, has⟩
  · cases as with
    | nil => exact hcolon rest has
    | cons a as =>
      have hdelim : isDelimiter a = true := hys a (by rw [has]; rfl)
      have hclear : isDelimiter a = false := hs.clear a (by rw [hsplit]; simp)
      rw [hdelim] at hclear
      cases hclear
  · cases as with
    | nil => exact hcolon rest has.symm
    | cons a as =>
      obtain ⟨rfl, -⟩ := List.cons.inj has
      exact hxs s as hsplit hs

private theorem hierarchy_unique {u v : Url}
    (h : marked u.authority ++ u.tail = marked v.authority ++ v.tail) :
    u.authority = v.authority ∧ u.tail = v.tail := by
  have hbare : ∀ {w : Url}, w.authority = none → NoAuthority w.tail := by
    intro w hw
    rw [tail_eq]
    exact (w.path_noAuthority hw).append w.extras_startsAt
  cases hu : u.authority with
  | none =>
    cases hv : v.authority with
    | none =>
      rw [hu, hv] at h
      exact ⟨rfl, h⟩
    | some b =>
      rw [hu, hv] at h
      exact absurd h (hbare hu _)
  | some a =>
    cases hv : v.authority with
    | none =>
      rw [hu, hv] at h
      exact absurd h.symm (hbare hv _)
    | some b =>
      rw [hu, hv] at h
      have htext : a.text ++ u.tail = b.text ++ v.tail :=
        (List.cons.inj (List.cons.inj h).2).2
      have hut : StartsAt isDelimiter u.tail := tail_startsAt (by rw [hu]; rfl)
      have hvt : StartsAt isDelimiter v.tail := tail_startsAt (by rw [hv]; rfl)
      obtain ⟨hab, htail⟩ := startsAt_unique a.text_clear hut b.text_clear hvt htext
      exact ⟨congrArg some (Authority.text_injective hab), htail⟩

private theorem noScheme_hierarchy {u : Url} (h : u.scheme = none) :
    NoScheme (marked u.authority ++ u.tail) := by
  cases ha : u.authority with
  | none =>
    rw [tail_eq]
    exact (u.path_noScheme h ha).append (u.extras_startsAt.imp isDelimiter_of_isMark)
  | some a =>
    -- a scheme has no slash in it, and the colon of an empty one is no slash
    rintro (_ | ⟨c, s⟩) rest heq hs
    · exact hs.ne_nil rfl
    · obtain ⟨rfl, -⟩ := List.cons.inj heq
      exact hs.clear.not_mem rfl List.mem_cons_self

theorem text_injective : Function.Injective text := by
  intro u v h
  have hscheme : u.scheme = v.scheme ∧
      marked u.authority ++ u.tail = marked v.authority ++ v.tail := by
    have hclosed : ∀ (s rest : List Char), closed ':' (some s) ++ rest = s ++ ':' :: rest := by
      simp [closed]
    unfold text at h
    cases hu : u.scheme with
    | none =>
      cases hv : v.scheme with
      | none =>
        rw [hu, hv] at h
        exact ⟨rfl, h⟩
      | some t =>
        rw [hu, hv, hclosed] at h
        exact absurd (v.scheme_isScheme t hv) (noScheme_hierarchy hu t _ h)
    | some s =>
      cases hv : v.scheme with
      | none =>
        rw [hu, hv, hclosed] at h
        exact absurd (u.scheme_isScheme s hu) (noScheme_hierarchy hv s _ h.symm)
      | some t =>
        rw [hu, hv, hclosed, hclosed] at h
        obtain ⟨hst, hrest⟩ :=
          sides_unique (u.scheme_isScheme s hu).colon (v.scheme_isScheme t hv).colon h
        exact ⟨congrArg some hst, hrest⟩
  obtain ⟨hscheme, hrest⟩ := hscheme
  obtain ⟨hauthority, htail⟩ := hierarchy_unique hrest
  obtain ⟨hpath, hquery, hfragment⟩ := tail_unique htail
  exact Url.ext hscheme hauthority hpath hquery hfragment

/-! ## Every text has its parts -/

theorem exists_tail (cs : List Char) :
    ∃ path query fragment, cs = path ++ (opened '?' query ++ opened '#' fragment) ∧
      '?' ∉ path ∧ '#' ∉ path ∧ ∀ q ∈ query, '#' ∉ q := by
  obtain ⟨target, fragment, rfl, hfragment⟩ := exists_opened '#' cs
  obtain ⟨path, query, rfl, hquery⟩ := exists_opened '?' target
  rw [List.mem_append, not_or] at hfragment
  refine ⟨path, query, fragment, List.append_assoc .., hquery, hfragment.1, ?_⟩
  rintro q rfl
  exact List.not_mem_of_not_mem_cons hfragment.2

/-- A text with an authority, behind a scheme or not. -/
theorem exists_of_authority {scheme : Option (List Char)} (hscheme : ∀ s ∈ scheme, IsScheme s)
    (rest : List Char) :
    ∃ (u : Url) (a : Authority), u.scheme = scheme ∧ u.authority = some a ∧
      u.text = closed ':' scheme ++ '/' :: '/' :: rest := by
  obtain ⟨authority, tail, rfl, hclear, htail⟩ := exists_startsAt isDelimiter rest
  obtain ⟨a, rfl⟩ := Authority.exists_text hclear
  obtain ⟨path, query, fragment, rfl, hquery, hfragment, hboth⟩ := exists_tail tail
  have hrooted : StartsAt (· == '/') path := by
    intro c hc
    obtain ⟨rest, rfl⟩ := List.head?_eq_some_iff.mp hc
    have hdelim : isDelimiter c = true := htail c rfl
    have hq : c ≠ '?' := ne_of_mem_of_not_mem List.mem_cons_self hquery
    have hf : c ≠ '#' := ne_of_mem_of_not_mem List.mem_cons_self hfragment
    simpa [isDelimiter, hq, hf] using hdelim
  refine ⟨⟨scheme, some a, path, query, fragment, hscheme, hquery, hfragment, hboth,
    fun _ => hrooted, nofun, nofun⟩, a, rfl, rfl, ?_⟩
  simp [text, marked, tail_eq]

private theorem exists_scheme (cs : List Char) :
    ∃ scheme body, cs = closed ':' scheme ++ body ∧ (∀ s ∈ scheme, IsScheme s) ∧
      (scheme = none → NoScheme body) := by
  by_cases h : ∃ s body, cs = s ++ ':' :: body ∧ IsScheme s
  · obtain ⟨s, body, rfl, hs⟩ := h
    refine ⟨some s, body, by simp [closed], ?_, nofun⟩
    rintro t ⟨⟩
    exact hs
  · refine ⟨none, cs, rfl, nofun, fun _ s body heq hs => ?_⟩
    exact h ⟨s, body, heq, hs⟩

private theorem exists_text (cs : List Char) : ∃ u : Url, u.text = cs := by
  obtain ⟨scheme, body, rfl, hscheme, hnone⟩ := exists_scheme cs
  by_cases h : NoAuthority body
  · obtain ⟨path, query, fragment, rfl, hquery, hfragment, hboth⟩ := exists_tail body
    refine ⟨⟨scheme, none, path, query, fragment, hscheme, hquery, hfragment, hboth, nofun,
      ?_, ?_⟩, ?_⟩
    · rintro - rest rfl
      exact h _ rfl
    · rintro hno - s rest rfl
      exact hnone hno s _ (List.append_assoc ..)
    · simp [text, marked, tail_eq]
  · unfold NoAuthority at h
    push Not at h
    obtain ⟨rest, rfl⟩ := h
    obtain ⟨u, -, -, -, hu⟩ := exists_of_authority hscheme rest
    exact ⟨u, hu⟩

theorem exists_unique_text (cs : List Char) : ∃! u : Url, u.text = cs := by
  obtain ⟨u, hu⟩ := exists_text cs
  exact ⟨u, hu, fun v hv => text_injective (hv.trans hu.symm)⟩

/-! ## Changed parts -/

def userinfo (u : Url) : Option (List Char) := u.authority.bind Authority.userinfo

def withUserinfo (u : Url) (userinfo : Option (List Char)) (h : ∀ cs ∈ userinfo, Clear cs) : Url :=
  { u with
    authority := u.authority.map (·.withUserinfo userinfo h)
    path_rooted := fun hsome => u.path_rooted (by simpa using hsome)
    path_noAuthority := fun hnone => u.path_noAuthority (by simpa using hnone)
    path_noScheme := fun hs hnone => u.path_noScheme hs (by simpa using hnone) }

theorem forall_mem_none (p : List Char → Prop) : ∀ cs ∈ (none : Option (List Char)), p cs := nofun

theorem noQuery_fragment : ∀ q ∈ (none : Option (List Char)), '#' ∉ q := forall_mem_none _

/-- The URL without its query and with another fragment. -/
def cut (u : Url) (fragment : Option (List Char)) : Url :=
  { u with query := none, fragment, query_fragment := noQuery_fragment }

/-- The URL without user information, query and fragment. -/
def location (u : Url) : Url := (u.withUserinfo none (forall_mem_none _)).cut none

/-- What stands in front of the query and the fragment. -/
def head (u : Url) : List Char := closed ':' u.scheme ++ (marked u.authority ++ u.path)

theorem text_eq_head (u : Url) :
    u.text = u.head ++ (opened '?' u.query ++ opened '#' u.fragment) := by
  simp [text, head, tail_eq]

theorem text_cut (u : Url) (fragment : Option (List Char)) :
    (u.cut fragment).text = u.head ++ opened '#' fragment :=
  text_eq_head (u.cut fragment)

theorem head_not_mem (u : Url) {c : Char} (hmark : isMark c = true) (hpath : c ∉ u.path) :
    c ∉ u.head := by
  have hdelim := isDelimiter_of_isMark c hmark
  unfold head
  simp only [List.mem_append, not_or]
  refine ⟨?_, ?_, hpath⟩
  · cases h : u.scheme with
    | none => exact List.not_mem_nil
    | some s =>
      have hs : c ∉ s := (u.scheme_isScheme s h).clear.not_mem hdelim
      have hcolon : c ≠ ':' := by
        rintro rfl
        cases hmark
      simp [closed, hs, hcolon]
  · cases u.authority with
    | none => exact List.not_mem_nil
    | some a =>
      have ha : c ∉ a.text := a.text_clear.not_mem hdelim
      have hslash : c ≠ '/' := by
        rintro rfl
        cases hmark
      simp [marked, ha, hslash]

/-- Two URLs of one location differ at most in user information, query and fragment. -/
theorem cut_eq_cut_iff {u v : Url} (h : u.location = v.location) {f g : Option (List Char)} :
    u.cut f = v.cut g ↔ u.userinfo = v.userinfo ∧ f = g := by
  have hscheme : u.scheme = v.scheme := congrArg (·.scheme) h
  have hpath : u.path = v.path := congrArg (·.path) h
  have hbare : u.authority.map (·.withUserinfo none (forall_mem_none _)) =
      v.authority.map (·.withUserinfo none (forall_mem_none _)) := congrArg (·.authority) h
  constructor
  · intro heq
    have hauthority : u.authority = v.authority := congrArg (·.authority) heq
    refine ⟨?_, congrArg (·.fragment) heq⟩
    unfold userinfo
    rw [hauthority]
  · rintro ⟨huserinfo, rfl⟩
    refine Url.ext hscheme ?_ hpath rfl rfl
    show u.authority = v.authority
    unfold userinfo at huserinfo
    cases hu : u.authority with
    | none =>
      rw [hu] at hbare
      exact (Option.map_eq_none_iff.mp hbare.symm).symm
    | some a =>
      rw [hu] at hbare huserinfo
      obtain ⟨b, hv, hab⟩ := Option.map_eq_some_iff.mp hbare.symm
      rw [hv] at huserinfo ⊢
      exact congrArg some (Authority.ext huserinfo (congrArg (·.host) hab.symm))

/-- What is left when query and fragment are cut off is the location where there is no user
information. -/
theorem cut_eq_location_iff {u : Url} {f : Option (List Char)} :
    u.cut f = u.location ↔ u.userinfo = none ∧ f = none := by
  have hself : u.location = u.location.location := by
    refine Url.ext rfl ?_ rfl rfl rfl
    cases h : u.authority <;> simp [location, withUserinfo, cut, h, Authority.withUserinfo]
  have hnone : u.location.userinfo = none := by
    cases h : u.authority <;>
      simp [location, withUserinfo, cut, userinfo, h, Authority.withUserinfo]
  have hiff : u.cut f = u.location.cut none ↔ u.userinfo = u.location.userinfo ∧ f = none :=
    cut_eq_cut_iff hself
  rw [hnone] at hiff
  exact hiff

end Url
end NearKit
