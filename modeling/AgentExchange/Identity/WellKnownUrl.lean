import AgentExchange.Identity.DidWeb
import AgentExchange.Library.Url

/-!
# The URL of an agent card

`well_known_url` puts the first segment of a `did:web` id between `https://` and a path, and only
looks for a slash, a question mark and a hash in it. Read as a WHATWG URL, the text names that
segment as its host exactly for plain domains: an `@`, a backslash, an escape or a number in
another form lead elsewhere, and characters no domain has make it no URL at all.
-/
namespace AgentExchange.Identity

open Library Whatwg

/-- The first segment of the method-specific id. -/
def didDomain (agentId : AgentId) : Option String :=
  agentId.asDidUri.map fun uri => (splitAt ':' uri.methodSpecificId).headD ""

def cardPath : List (List Char) := [".well-known".toList, "agent-card.json".toList]

/-- Parsed, the text is the URL of the card under the root of the domain. -/
def NamesCard (idna : DomainToAscii) (domain u : String) : Prop :=
  ∃ url, parseHttps idna u.toList = some url ∧ url.scheme = https ∧ url.username = [] ∧
    url.password = [] ∧ url.host.Names domain.toList ∧ url.port = none ∧ url.path = cardPath ∧
    url.query = none ∧ url.fragment = none

def UrlIsSafe (idna : DomainToAscii) (agentId : AgentId) (u : String) : Prop :=
  ∃ domain, didDomain agentId = some domain ∧ NamesCard idna domain u

theorem not_mem_splitAt_headD {c : Char} {s : String} :
    c ∉ ((splitAt c s).headD "").toList := by
  cases hsplit : splitAt c s with
  | nil => exact absurd hsplit splitAt_ne_nil
  | cons first rest =>
    cases rest with
    | nil => exact (splitAt_eq_singleton.mp hsplit).2
    | cons second rest => exact (splitAt_eq_cons_cons.mp hsplit).1

theorem wellKnownUrl_eq_ok {agentId : AgentId} {u : String} (h : wellKnownUrl agentId = .ok u) :
    ∃ domain, didDomain agentId = some domain ∧ domain ≠ "" ∧ ':' ∉ domain.toList ∧
      u = "https://" ++ domain ++ "/.well-known/agent-card.json" := by
  unfold wellKnownUrl at h
  obtain ⟨uri, huri, h⟩ := except_bind_eq_ok.mp h
  obtain ⟨-, h⟩ := check_bind_eq_ok.mp h
  obtain ⟨hne, h⟩ := check_bind_eq_ok.mp h
  obtain ⟨-, h⟩ := check_bind_eq_ok.mp h
  cases h
  refine ⟨_, by rw [didDomain, orError_eq_ok.mp huri, Option.map_some], hne, ?_, rfl⟩
  exact not_mem_splitAt_headD

theorem url_toList (domain : String) :
    ("https://" ++ domain ++ "/.well-known/agent-card.json").toList =
      https ++ ':' :: '/' :: '/' :: (domain.toList ++
        '/' :: ".well-known/agent-card.json".toList) := by
  rw [String.toList_append, String.toList_append, List.append_assoc]
  rfl

theorem path_chars :
    ∀ c ∈ ".well-known/agent-card.json".toList, 32 < c.toNat ∧ c ≠ '?' ∧ c ≠ '#' := by
  simp

section Host

variable {idna : DomainToAscii} {domain : String}

/-- The URL over a plain domain. -/
theorem parse_of_chars (hne : domain ≠ "")
    (hchars : ∀ c ∈ domain.toList, isDomainChar c = true) :
    parseHttps idna ("https://" ++ domain ++ "/.well-known/agent-card.json").toList =
      (parseHost idna domain.toList).map fun host =>
        { scheme := https, username := [], password := [], host := host, port := none,
          path := cardPath, query := none, fragment := none } := by
  rw [url_toList, parseHttps_plain (by simpa using hne) hchars path_chars]
  rfl

theorem namesCard_iff (hne : domain ≠ "") (hcolon : ':' ∉ domain.toList) :
    NamesCard idna domain ("https://" ++ domain ++ "/.well-known/agent-card.json") ↔
      PlainDomain idna domain.toList := by
  constructor
  · rintro ⟨url, hurl, -, -, -, hnames, -⟩
    obtain ⟨text, htext⟩ := parseHttps_host hurl
    have hchars := isDomainChar_of_names htext hnames hcolon
    rw [parse_of_chars hne hchars] at hurl
    obtain ⟨host, hhost, rfl⟩ := Option.map_eq_some_iff.mp hurl
    exact plainDomain_of_names hchars hhost hnames
  · intro hplain
    obtain ⟨host, hhost, hnames⟩ := hplain.names (by simpa using hne)
    refine ⟨_, by rw [parse_of_chars hne hplain.chars, hhost, Option.map_some], rfl, rfl, rfl,
      hnames, rfl, rfl, rfl, rfl⟩

end Host

/-- The URL leads to the domain of the id exactly if that is a plain domain. -/
theorem wellKnownUrl_safe_iff (idna : DomainToAscii) (agentId : AgentId) {u : String}
    (h : wellKnownUrl agentId = .ok u) :
    UrlIsSafe idna agentId u ↔
      ∃ domain, didDomain agentId = some domain ∧ PlainDomain idna domain.toList := by
  obtain ⟨domain, hdomain, hne, hcolon, rfl⟩ := wellKnownUrl_eq_ok h
  simp only [UrlIsSafe, hdomain, Option.some_inj, exists_eq_left']
  exact namesCard_iff hne hcolon

namespace Sample

/-- A mapping that knows ASCII only. -/
def asciiDomains : DomainToAscii where
  toAscii domain :=
    if domain.all isAscii ∧ (domain.splitOn '.').all (!hasAcePrefix ·) then some (lower domain)
    else none
  ascii_lower := by
    intro domain result h c hc
    split_ifs at h with hok
    cases h
    obtain ⟨d, hd, rfl⟩ := List.mem_map.mp hc
    exact ascii_lowerChar (List.all_eq_true.mp hok.1 d hd)
  plain := by
    intro domain hascii hlabels
    exact if_pos ⟨List.all_eq_true.mpr hascii,
      List.all_eq_true.mpr fun label hlabel => by rw [hlabels label hlabel]; rfl⟩

def acme : AgentId := ⟨"did:web:acme.com"⟩

/-- What stands before the `@` is a user name, and what follows it the host. -/
def spoofed : AgentId := ⟨"did:web:acme.com@evil.com"⟩

def acmeUrl : String := "https://acme.com/.well-known/agent-card.json"

def spoofedUrl : String := "https://acme.com@evil.com/.well-known/agent-card.json"

def acmeCom : List Char := ['a', 'c', 'm', 'e', '.', 'c', 'o', 'm']

def evilCom : List Char := ['e', 'v', 'i', 'l', '.', 'c', 'o', 'm']

theorem acmeCom_chars : ∀ c ∈ acmeCom, isDomainChar c = true := List.all_eq_true.mp (by decide)

theorem evilCom_chars : ∀ c ∈ evilCom, isDomainChar c = true := List.all_eq_true.mp (by decide)

end Sample

theorem wellKnownUrl_safe_iff_acme :
    wellKnownUrl Sample.acme = .ok Sample.acmeUrl ∧
      UrlIsSafe Sample.asciiDomains Sample.acme Sample.acmeUrl := by
  have hurl : wellKnownUrl Sample.acme = .ok Sample.acmeUrl := by decide +kernel
  have hdomain : didDomain Sample.acme = some (String.ofList Sample.acmeCom) := by decide +kernel
  have hplain : PlainDomain Sample.asciiDomains Sample.acmeCom :=
    ⟨Sample.acmeCom_chars, by decide +kernel, fun hnumber => absurd hnumber (by decide +kernel)⟩
  refine ⟨hurl, (wellKnownUrl_safe_iff Sample.asciiDomains Sample.acme hurl).mpr
    ⟨String.ofList Sample.acmeCom, hdomain, ?_⟩⟩
  rwa [String.toList_ofList]

/-- The card of `acme.com@evil.com` is fetched from `evil.com`. -/
theorem wellKnownUrl_not_safe :
    AgentId.new "did:web:acme.com@evil.com" = .ok Sample.spoofed ∧
      wellKnownUrl Sample.spoofed = .ok Sample.spoofedUrl ∧
      ∀ idna : DomainToAscii,
        (∃ url, parseHttps idna Sample.spoofedUrl.toList = some url ∧
          url.username = "acme.com".toList ∧ url.host = .domain "evil.com".toList) ∧
        ¬UrlIsSafe idna Sample.spoofed Sample.spoofedUrl := by
  refine ⟨by decide +kernel, by decide +kernel, ?_⟩
  intro idna
  constructor
  · have hhost : parseHost idna Sample.evilCom = some (.domain Sample.evilCom) := by
      rw [parseHost_plain Sample.evilCom_chars,
        idna.plain Sample.evilCom (List.all_eq_true.mp (by decide)) (by decide +kernel)]
      decide +kernel
    have hne : Sample.evilCom ≠ [] := by decide
    have hurl :=
      @parseHttps_user idna _ _ _ hne Sample.acmeCom_chars Sample.evilCom_chars path_chars
    rw [hhost] at hurl
    exact ⟨_, hurl, rfl, rfl⟩
  · rintro ⟨domain, hdomain, hcard⟩
    have hspoofed : didDomain Sample.spoofed = some "acme.com@evil.com" := by decide +kernel
    rw [hspoofed, Option.some_inj] at hdomain
    subst hdomain
    have hplain := (namesCard_iff (by decide) (by simp)).mp hcard
    have hat := hplain.chars '@' (by simp)
    cases hat

end AgentExchange.Identity
