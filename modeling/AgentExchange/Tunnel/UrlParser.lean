import AgentExchange.Core.Text
import AgentExchange.Library.Trim
import AgentExchange.Library.Url

/-!
# The URL in a line of the log

`url_parser.rs`: the tokens of the line are stripped of quotes at both ends and of punctuation at
the end, and the first that then looks like a URL of a quick tunnel is taken. The look is that of a
prefix and a substring, and each strip is made once: what is taken is the URL that a line shows
where no other token looks like one and the decoration stands in the order of the strips.
-/
namespace AgentExchange.Tunnel

open Library Whatwg

/-- `str::split_whitespace`. -/
def splitWhitespace (s : String) : List String :=
  ((s.toList.splitOnP isWhitespace).filter (· ≠ [])).map String.ofList

/-- What `trim_matches` is given. -/
def isQuote (c : Char) : Bool :=
  c = '|' || c = ',' || c = '"' || c = '\'' || c = '<' || c = '>'

def isPunct (c : Char) : Bool :=
  c = '.' || c = ',' || c = ';' || c = ':' || c = '!' || c = '?' || c = ')'

/-- `str::trim_matches`. -/
def trimMatches (p : Char → Bool) (s : String) : String := String.ofList (Trim.trim p s.toList)

/-- The loop over the bytes; those it stops at are no part of a longer character. -/
def stripTrailingPunct (s : String) : Option String :=
  let stripped := Trim.trimEnd isPunct s.toList
  if stripped = [] then none else some (String.ofList stripped)

def isTrycloudflareUrl (s : String) : Bool :=
  startsWith "https://" s && decide ("trycloudflare.com".toList <:+: s.toList)

/-- The body of the loop. -/
def candidate (raw : String) : Option String :=
  (stripTrailingPunct (trimMatches isQuote raw)).filter isTrycloudflareUrl

def extractTunnelUrl (line : String) : Option String :=
  (splitWhitespace line).findSome? candidate

example : extractTunnelUrl "INF | <https://foo-bar.trycloudflare.com>. |" =
    some "https://foo-bar.trycloudflare.com>" := by decide +kernel

/-! ## What a line shows -/

def isDecoration (c : Char) : Bool := isQuote c || isPunct c

/-- A domain under the domain of the quick tunnels. -/
def IsTunnelHost (host : Host) : Prop :=
  ∃ name, name ≠ [] ∧ host = .domain (name ++ ".trycloudflare.com".toList)

/-- The URL of a quick tunnel, without decoration at its ends. -/
structure IsTunnelUrl (idna : DomainToAscii) (u : String) : Prop where
  parses : ∃ url, parseHttps idna u.toList = some url ∧ url.scheme = https ∧ url.username = [] ∧
    url.password = [] ∧ IsTunnelHost url.host
  starts : Trim.StartsOutside isDecoration u.toList
  ends : Trim.EndsOutside isDecoration u.toList

/-- A token that is a tunnel URL in decoration. -/
def Wraps (idna : DomainToAscii) (token u : String) : Prop :=
  IsTunnelUrl idna u ∧ Trim.Padded isDecoration u.toList token.toList

/-- What the property says of a line: what is extracted is a tunnel URL, and where there is one in
decoration it is the first. -/
structure Extracts (idna : DomainToAscii) (line : String) : Prop where
  sound : ∀ u, extractTunnelUrl line = some u → IsTunnelUrl idna u
  first : ∀ pre token post u, splitWhitespace line = pre ++ token :: post →
    (∀ t ∈ pre, ∀ v, ¬Wraps idna t v) → Wraps idna token u → extractTunnelUrl line = some u

/-- The test of the code, on the token as it strips it. -/
def Taken (token : String) : Prop :=
  isTrycloudflareUrl (String.ofList (Trim.trimEnd isPunct (Trim.trim isQuote token.toList))) = true

/-- A tunnel URL that passes the test, behind quotes and followed by punctuation and quotes. -/
structure WrapsInOrder (idna : DomainToAscii) (token u : String) : Prop where
  url : IsTunnelUrl idna u
  looks : isTrycloudflareUrl u = true
  order : ∃ q p q', token.toList = q ++ (u.toList ++ p) ++ q' ∧ (∀ c ∈ q, isQuote c = true) ∧
    (∀ c ∈ p, isPunct c = true) ∧ ∀ c ∈ q', isQuote c = true

/-- The first token that is taken or wraps a tunnel URL wraps it in order; or it is not taken, and
the first that is taken wraps the same URL in order. -/
def InOrder (idna : DomainToAscii) (tokens : List String) : Prop :=
  ∀ pre token post, tokens = pre ++ token :: post →
    (∀ t ∈ pre, ¬Taken t ∧ ∀ v, ¬Wraps idna t v) →
    (Taken token ∨ ∃ u, Wraps idna token u) →
    (∃ u, WrapsInOrder idna token u) ∨
      ¬Taken token ∧ ∃ u mid token' post', Wraps idna token u ∧
        post = mid ++ token' :: post' ∧ (∀ t ∈ mid, ¬Taken t) ∧ WrapsInOrder idna token' u

variable {idna : DomainToAscii} {token u v : String}

/-! ## One token -/

theorem candidate_eq_some : candidate token = some u ↔
    u.toList = Trim.trimEnd isPunct (Trim.trim isQuote token.toList) ∧
      isTrycloudflareUrl u = true := by
  have hne (s : String) (h : isTrycloudflareUrl s = true) : s.toList ≠ [] := by
    intro hnil
    simp [isTrycloudflareUrl, startsWith, hnil] at h
  rw [candidate, Option.filter_eq_some_iff, stripTrailingPunct, trimMatches, String.toList_ofList]
  constructor
  · rintro ⟨h, hlooks⟩
    split_ifs at h with hnil
    cases h
    exact ⟨String.toList_ofList, hlooks⟩
  · rintro ⟨h, hlooks⟩
    refine ⟨?_, hlooks⟩
    have hnonempty := hne u hlooks
    rw [h] at hnonempty
    rw [if_neg hnonempty, ← h, String.ofList_toList]

theorem taken_iff : Taken token ↔ ∃ u, candidate token = some u := by
  constructor
  · intro h
    exact ⟨_, candidate_eq_some.mpr ⟨String.toList_ofList, h⟩⟩
  · rintro ⟨u, hu⟩
    obtain ⟨htext, hlooks⟩ := candidate_eq_some.mp hu
    rw [Taken, ← htext, String.ofList_toList]
    exact hlooks

theorem candidate_eq_none_iff : candidate token = none ↔ ¬Taken token := by
  rw [taken_iff, not_exists, Option.eq_none_iff_forall_ne_some]

theorem IsTunnelUrl.ne_nil (h : IsTunnelUrl idna u) : u.toList ≠ [] := by
  obtain ⟨url, hparse, -⟩ := h.parses
  intro hnil
  rw [hnil] at hparse
  cases hparse

/-- A token wraps one URL. -/
theorem Wraps.unique (hu : Wraps idna token u) (hv : Wraps idna token v) : u = v := by
  apply String.toList_inj.mp
  rw [← Trim.trim_of_padded hu.1.ne_nil hu.1.starts hu.1.ends hu.2,
    Trim.trim_of_padded hv.1.ne_nil hv.1.starts hv.1.ends hv.2]

theorem isQuote_of_not_isDecoration {c : Char} (h : isDecoration c = false) :
    isQuote c = false := (Bool.or_eq_false_iff.mp h).1

theorem isPunct_of_not_isDecoration {c : Char} (h : isDecoration c = false) :
    isPunct c = false := (Bool.or_eq_false_iff.mp h).2

theorem WrapsInOrder.wraps (h : WrapsInOrder idna token u) : Wraps idna token u := by
  obtain ⟨q, p, q', htoken, hq, hp, hq'⟩ := h.order
  refine ⟨h.url, q, p ++ q', ?_, ?_, ?_⟩
  · rw [htoken]
    simp
  · intro c hc
    simp [isDecoration, hq c hc]
  · intro c hc
    rcases List.mem_append.mp hc with hc | hc
    · simp [isDecoration, hp c hc]
    · simp [isDecoration, hq' c hc]

/-- A tunnel URL that is extracted from a token stands in it in order. -/
theorem wrapsInOrder_of_candidate (h : candidate token = some u) (hu : IsTunnelUrl idna u) :
    WrapsInOrder idna token u := by
  obtain ⟨htext, hlooks⟩ := candidate_eq_some.mp h
  obtain ⟨q, q', htoken, hq, hq'⟩ := Trim.padded_trim isQuote token.toList
  obtain ⟨p, hcore, hp⟩ := Trim.exists_trimEnd isPunct (Trim.trim isQuote token.toList)
  refine ⟨hu, hlooks, q, p, q', ?_, hq, hp, hq'⟩
  rw [htext, ← hcore]
  exact htoken

/-- What stands in order is extracted. -/
theorem WrapsInOrder.candidate_eq (h : WrapsInOrder idna token u) : candidate token = some u := by
  obtain ⟨q, p, q', htoken, hq, hp, hq'⟩ := h.order
  have hne := h.url.ne_nil
  have hstart : Trim.StartsOutside isQuote u.toList := fun c hc =>
    isQuote_of_not_isDecoration (h.url.starts c hc)
  have hend : Trim.EndsOutside isQuote u.toList := fun c hc =>
    isQuote_of_not_isDecoration (h.url.ends c hc)
  have hpunct : Trim.EndsOutside isPunct u.toList := fun c hc =>
    isPunct_of_not_isDecoration (h.url.ends c hc)
  have htrim : Trim.trim isQuote token.toList = u.toList ++ Trim.trimEnd isQuote p := by
    have hcore : Trim.StartsOutside isQuote (u.toList ++ p ++ q') := by
      rw [List.append_assoc]
      exact Trim.startsOutside_append hne hstart
    rw [htoken, Trim.trim, List.append_assoc, List.dropWhile_append_of_pos hq,
      Trim.dropWhile_eq_self hcore, Trim.trimEnd_append hq', Trim.trimEnd_append_left hend]
  obtain ⟨rest, hrest, -⟩ := Trim.exists_trimEnd isQuote p
  have hleft : ∀ c ∈ Trim.trimEnd isQuote p, isPunct c = true := by
    intro c hc
    apply hp
    rw [hrest]
    exact List.mem_append_left _ hc
  rw [candidate_eq_some, htrim, Trim.trimEnd_append hleft, Trim.trimEnd_eq_self hpunct]
  exact ⟨rfl, h.looks⟩

/-! ## One line -/

theorem exists_first {P : String → Prop} {tokens : List String} (h : ∃ t ∈ tokens, P t) :
    ∃ pre t post, tokens = pre ++ t :: post ∧ P t ∧ ∀ s ∈ pre, ¬P s := by
  induction tokens with
  | nil => simp at h
  | cons t tokens ih =>
    by_cases ht : P t
    · exact ⟨[], t, tokens, rfl, ht, by simp⟩
    · obtain ⟨pre, s, post, rfl, hs, hpre⟩ := ih (by simpa [ht] using h)
      refine ⟨t :: pre, s, post, rfl, hs, ?_⟩
      intro r hr
      rcases List.mem_cons.mp hr with rfl | hr
      · exact ht
      · exact hpre r hr

/-- The first element with a property is one element. -/
theorem first_unique {P : String → Prop} {pre pre' post post' : List String} {t t' : String}
    (h : pre ++ t :: post = pre' ++ t' :: post') (ht : P t) (ht' : P t')
    (hpre : ∀ s ∈ pre, ¬P s) (hpre' : ∀ s ∈ pre', ¬P s) : t = t' := by
  rcases List.append_eq_append_iff.mp h with ⟨mid, rfl, hmid⟩ | ⟨mid, rfl, hmid⟩
  · cases mid with
    | nil => exact (List.cons.inj hmid).1
    | cons s mid =>
      obtain rfl := (List.cons.inj hmid).1
      exact absurd ht (hpre' t (by simp))
  · cases mid with
    | nil => exact (List.cons.inj hmid).1.symm
    | cons s mid =>
      obtain rfl := (List.cons.inj hmid).1
      exact absurd ht' (hpre t' (by simp))

theorem findSome_of_first {pre post : List String} (hpre : ∀ t ∈ pre, ¬Taken t)
    (h : candidate token = some u) : (pre ++ token :: post).findSome? candidate = some u :=
  List.findSome?_eq_some_iff.mpr
    ⟨pre, token, post, rfl, h, fun t ht => candidate_eq_none_iff.mpr (hpre t ht)⟩

/-- The first token that matters says which URL is found, if one is. -/
theorem found_of_inOrder {tokens pre post : List String} (h : InOrder idna tokens)
    (htokens : tokens = pre ++ token :: post) (hpre : ∀ t ∈ pre, ¬Taken t ∧ ∀ v, ¬Wraps idna t v)
    (htoken : Taken token ∨ ∃ u, Wraps idna token u) :
    ∃ u, Wraps idna token u ∧ tokens.findSome? candidate = some u := by
  rcases h pre token post htokens hpre htoken with ⟨u, hu⟩ | ⟨hnot, u, mid, t, tail, hu, rfl, hmid, ht⟩
  · refine ⟨u, hu.wraps, ?_⟩
    rw [htokens]
    exact findSome_of_first (fun t ht => (hpre t ht).1) hu.candidate_eq
  · refine ⟨u, hu, ?_⟩
    have hskip : ∀ s ∈ pre ++ token :: mid, ¬Taken s := by
      intro s hs
      rcases List.mem_append.mp hs with hs | hs
      · exact (hpre s hs).1
      · rcases List.mem_cons.mp hs with rfl | hs
        · exact hnot
        · exact hmid s hs
    have hsplit : tokens = (pre ++ token :: mid) ++ t :: tail := by simp [htokens]
    rw [hsplit]
    exact findSome_of_first hskip ht.candidate_eq

theorem inOrder_of_extracts {line : String} (h : Extracts idna line) :
    InOrder idna (splitWhitespace line) := by
  intro pre token post htokens hpre htoken
  by_cases htaken : Taken token
  · left
    obtain ⟨u, hu⟩ := taken_iff.mp htaken
    have hfound : extractTunnelUrl line = some u := by
      rw [extractTunnelUrl, htokens]
      exact findSome_of_first (fun t ht => (hpre t ht).1) hu
    exact ⟨u, wrapsInOrder_of_candidate hu (h.sound u hfound)⟩
  · right
    obtain ⟨u, hu⟩ := htoken.resolve_left htaken
    have hfound := h.first pre token post u htokens (fun t ht => (hpre t ht).2) hu
    have hskip : (pre ++ [token]).findSome? candidate = none := by
      rw [List.findSome?_eq_none_iff]
      intro t ht
      apply candidate_eq_none_iff.mpr
      rcases List.mem_append.mp ht with ht | ht
      · exact (hpre t ht).1
      · rw [List.mem_singleton.mp ht]
        exact htaken
    have hpost : post.findSome? candidate = some u := by
      rw [← hfound, extractTunnelUrl, htokens, List.append_cons, List.findSome?_append, hskip,
        Option.none_or]
    obtain ⟨mid, t, tail, rfl, ht, hmid⟩ := List.findSome?_eq_some_iff.mp hpost
    exact ⟨htaken, u, mid, t, tail, hu, rfl, fun s hs => candidate_eq_none_iff.mp (hmid s hs),
      wrapsInOrder_of_candidate ht hu.1⟩

/-- Where one token matters, the first one that does shows the URL that is found. -/
theorem exists_found_of_inOrder {tokens : List String} (h : InOrder idna tokens)
    (hmatters : ∃ t ∈ tokens, Taken t ∨ ∃ v, Wraps idna t v) :
    ∃ pre token post u, tokens = pre ++ token :: post ∧ (∀ t ∈ pre, ∀ v, ¬Wraps idna t v) ∧
      Wraps idna token u ∧ tokens.findSome? candidate = some u := by
  obtain ⟨pre, token, post, htokens, htoken, hpre⟩ := exists_first hmatters
  have hskipped : ∀ t ∈ pre, ¬Taken t ∧ ∀ v, ¬Wraps idna t v := by
    intro t ht
    simpa only [not_or, not_exists] using hpre t ht
  obtain ⟨u, hu, hfound⟩ := found_of_inOrder h htokens hskipped htoken
  exact ⟨pre, token, post, u, htokens, fun t ht => (hskipped t ht).2, hu, hfound⟩

theorem sound_of_inOrder {tokens : List String} (h : InOrder idna tokens) {u : String}
    (hu : tokens.findSome? candidate = some u) : IsTunnelUrl idna u := by
  obtain ⟨t, ht, hcandidate⟩ := List.exists_of_findSome?_eq_some hu
  obtain ⟨pre, token, post, v, -, -, hv, hfound⟩ :=
    exists_found_of_inOrder h ⟨t, ht, .inl (taken_iff.mpr ⟨u, hcandidate⟩)⟩
  cases hu.symm.trans hfound
  exact hv.1

theorem first_of_inOrder {tokens pre post : List String} (h : InOrder idna tokens)
    (htokens : tokens = pre ++ token :: post) (hpre : ∀ t ∈ pre, ∀ v, ¬Wraps idna t v)
    (hu : Wraps idna token u) : tokens.findSome? candidate = some u := by
  have hmem : token ∈ tokens := by simp [htokens]
  obtain ⟨pre', token', post', v, htokens', hpre', hv, hfound⟩ :=
    exists_found_of_inOrder h ⟨token, hmem, .inr ⟨u, hu⟩⟩
  obtain rfl : token = token' := by
    have hsame : pre ++ token :: post = pre' ++ token' :: post' := htokens.symm.trans htokens'
    apply first_unique hsame (P := fun t => ∃ v, Wraps idna t v) ⟨u, hu⟩ ⟨v, hv⟩
    · exact fun t ht => not_exists.mpr (hpre t ht)
    · exact fun t ht => not_exists.mpr (hpre' t ht)
  rw [hu.unique hv]
  exact hfound

/-- What is extracted is the URL the line shows, just where what the line shows is in order. -/
theorem extracts_iff_inOrder (idna : DomainToAscii) (line : String) :
    Extracts idna line ↔ InOrder idna (splitWhitespace line) := by
  constructor
  · exact inOrder_of_extracts
  · intro h
    constructor
    · exact fun u hu => sound_of_inOrder h hu
    · exact fun pre token post u htokens hpre hu => first_of_inOrder h htokens hpre hu

/-- A path can look like the domain of the tunnels, and a quote in front of punctuation stays. -/
theorem extracts_lookalike :
    extractTunnelUrl "https://evil.com/trycloudflare.com" =
        some "https://evil.com/trycloudflare.com" ∧
      extractTunnelUrl "https://x.trycloudflare.com\"." = some "https://x.trycloudflare.com\"" ∧
      ∀ idna : DomainToAscii, ¬Extracts idna "https://evil.com/trycloudflare.com" ∧
        ¬Extracts idna "https://x.trycloudflare.com\"." := by
  have hevil : extractTunnelUrl "https://evil.com/trycloudflare.com" =
      some "https://evil.com/trycloudflare.com" := by decide +kernel
  have hquote : extractTunnelUrl "https://x.trycloudflare.com\"." =
      some "https://x.trycloudflare.com\"" := by decide +kernel
  refine ⟨hevil, hquote, ?_⟩
  intro idna
  constructor
  · intro h
    obtain ⟨url, hparse, -, -, -, name, -, hhost⟩ := (h.sound _ hevil).parses
    have hplain : "evil.com".toList.all isDomainChar = true := by decide
    have hchars := List.all_eq_true.mp hplain
    have hdomain : parseHost idna "evil.com".toList = some (.domain "evil.com".toList) := by
      rw [parseHost_plain hchars,
        idna.plain "evil.com".toList (List.all_eq_true.mp (by decide)) (by decide +kernel)]
      decide +kernel
    have hpath : ∀ c ∈ "trycloudflare.com".toList, 32 < c.toNat ∧ c ≠ '?' ∧ c ≠ '#' := by
      intro c hc
      have hall : "trycloudflare.com".toList.all
          (fun c => 32 < c.toNat && c ≠ '?' && c ≠ '#') = true := by decide
      simpa [and_assoc] using List.all_eq_true.mp hall c hc
    have hurl := @parseHttps_plain idna _ _ (by decide) hchars hpath
    have hdifferent := Option.some_inj.mp (hparse.symm.trans hurl |>.trans (by rw [hdomain]; rfl))
    rw [hdifferent] at hhost
    have hlength := congrArg List.length (Host.domain.inj hhost)
    rw [List.length_append] at hlength
    have hshort : "evil.com".toList.length = 8 := by decide
    have hlong : ".trycloudflare.com".toList.length = 18 := by decide
    omega
  · intro h
    have hends := (h.sound _ hquote).ends '"' (by decide)
    cases hends

end AgentExchange.Tunnel
