import AgentExchange.Library.Host
import AgentExchange.Library.Trim

/-!
# URLs with the scheme `https`

The basic URL parser of the WHATWG standard, for a text that names its scheme and for the scheme
`https`, state by state: what is stripped, the slashes that are skipped, the credentials before
the last `@`, the host, the port, and the path with its dot segments, which a backslash separates
as a slash does. A text is a list of characters.
-/
namespace AgentExchange.Library.Whatwg

structure Url where
  scheme : List Char
  username : List Char
  password : List Char
  host : Host
  /-- `none` is the default port -/
  port : Option ℕ
  path : List (List Char)
  query : Option (List Char)
  fragment : Option (List Char)
  deriving DecidableEq

def isC0OrSpace (c : Char) : Bool := c.toNat ≤ 0x20

def isTabOrNewline (c : Char) : Bool := c = '\t' || c = '\n' || c = '\r'

/-- What the parser strips before it starts. -/
def cleaned (input : List Char) : List Char :=
  ((input.dropWhile isC0OrSpace).reverse.dropWhile isC0OrSpace).reverse.filter (!isTabOrNewline ·)

/-! ## Percent-encoding -/

def hexUpper (n : ℕ) : Char := if n < 10 then Char.ofNat (48 + n) else Char.ofNat (55 + n)

def escapeByte (b : UInt8) : List Char := ['%', hexUpper (b.toNat / 16), hexUpper (b.toNat % 16)]

def percentEncode (escaped : Char → Bool) (cs : List Char) : List Char :=
  cs.flatMap fun c => if escaped c then (String.utf8EncodeChar c).flatMap escapeByte else [c]

def inC0Set (c : Char) : Bool := c.toNat < 32 || 126 < c.toNat

def inFragmentSet (c : Char) : Bool := inC0Set c || c ∈ [' ', '"', '<', '>', '\x60']

def inQuerySet (c : Char) : Bool := inC0Set c || c ∈ [' ', '"', '#', '<', '>']

/-- The set for the queries of special schemes. -/
def inSpecialQuerySet (c : Char) : Bool := inQuerySet c || c = '\''

def inPathSet (c : Char) : Bool := inQuerySet c || c ∈ ['?', '^', '\x60', '\x7b', '\x7d']

def inUserinfoSet (c : Char) : Bool :=
  inPathSet c || c ∈ ['/', ':', ';', '=', '@', '[', '\\', ']', '|']

/-! ## The parts of an authority -/

def isSlash (c : Char) : Bool := c = '/' || c = '\\'

def endsAuthority (c : Char) : Bool := isSlash c || c = '?' || c = '#'

/-- What stands before the last `@`, if there is one, and the rest. -/
def splitCredentials (authority : List Char) : List Char × List Char :=
  if '@' ∈ authority then
    (((authority.reverse.dropWhile (· ≠ '@')).drop 1).reverse,
      (authority.reverse.takeWhile (· ≠ '@')).reverse)
  else ([], authority)

def parseUsername (credentials : List Char) : List Char :=
  percentEncode inUserinfoSet (credentials.takeWhile (· ≠ ':'))

def parsePassword (credentials : List Char) : List Char :=
  percentEncode inUserinfoSet ((credentials.dropWhile (· ≠ ':')).drop 1)

/-- The host, up to a colon outside brackets, and the port. -/
def splitPort : Bool → List Char → List Char × List Char
  | _, [] => ([], [])
  | insideBrackets, c :: rest =>
    if c = ':' ∧ insideBrackets = false then ([], rest)
    else
      let parts := splitPort (c = '[' || (insideBrackets && c ≠ ']')) rest
      (c :: parts.1, parts.2)

def defaultPort : ℕ := 443

def parsePort (text : List Char) : Option (Option ℕ) :=
  if text = [] then some none
  else if text.all isDecimal then
    (numeral 10 text).bind fun port =>
      if 65535 < port then none else some (if port = defaultPort then none else some port)
  else none

/-! ## Paths -/

/-- A single-dot or double-dot segment is its dots, written as they are or escaped. -/
def dots : List Char → Option ℕ
  | [] => some 0
  | '.' :: rest => (dots rest).map (· + 1)
  | '%' :: '2' :: e :: rest => if e = 'e' ∨ e = 'E' then (dots rest).map (· + 1) else none
  | _ => none

/-- The path after its segments; a dot segment at the end leaves an empty one. -/
def resolve : List (List Char) → List (List Char) → List (List Char)
  | path, [] => path
  | path, segment :: rest =>
    let last := if rest = [] then [[]] else []
    if dots segment = some 2 then resolve (path.dropLast ++ last) rest
    else if dots segment = some 1 then resolve (path ++ last) rest
    else resolve (path ++ [percentEncode inPathSet segment]) rest

/-- The path state, from the first slash on. -/
def parsePath (text : List Char) : List (List Char) :=
  resolve [] ((if text.head?.any isSlash then text.drop 1 else text).splitOnP isSlash)

/-! ## The parser -/

/-- The scheme state: what stands after the scheme and its colon. -/
def afterScheme (scheme input : List Char) : Option (List Char) :=
  if lower (input.takeWhile (· ≠ ':')) = scheme ∧ ':' ∈ input then
    some ((input.dropWhile (· ≠ ':')).drop 1)
  else none

def https : List Char := ['h', 't', 't', 'p', 's']

/-- The host state: a special scheme has no empty host. -/
def readHost (idna : DomainToAscii) (text : List Char) : Option Host :=
  if text = [] then none else parseHost idna text

def parseQuery (text : List Char) : Option (List Char) :=
  if '?' ∈ text then some (percentEncode inSpecialQuerySet ((text.dropWhile (· ≠ '?')).drop 1))
  else none

def parseFragment (text : List Char) : Option (List Char) :=
  if '#' ∈ text then some (percentEncode inFragmentSet ((text.dropWhile (· ≠ '#')).drop 1))
  else none

def parseHttps (idna : DomainToAscii) (input : List Char) : Option Url := do
  let rest ← afterScheme https (cleaned input)
  let rest := rest.dropWhile isSlash
  let (credentials, hostPort) := splitCredentials (rest.takeWhile (!endsAuthority ·))
  let (hostText, portText) := splitPort false hostPort
  let host ← readHost idna hostText
  let port ← parsePort portText
  let rest := rest.dropWhile (!endsAuthority ·)
  let beforeFragment := rest.takeWhile (· ≠ '#')
  some
    { scheme := https
      username := parseUsername credentials
      password := parsePassword credentials
      host := host
      port := port
      path := parsePath (beforeFragment.takeWhile (· ≠ '?'))
      query := parseQuery beforeFragment
      fragment := parseFragment rest }

variable {idna : DomainToAscii}

/-- The host of a URL is one the host parser has read. -/
theorem parseHttps_host {input : List Char} {url : Url} (h : parseHttps idna input = some url) :
    ∃ text, parseHost idna text = some url.host := by
  simp only [parseHttps, Option.bind_eq_bind, Option.bind_eq_some_iff] at h
  obtain ⟨rest, -, host, hhost, port, -, hurl⟩ := h
  cases hurl
  unfold readHost at hhost
  split_ifs at hhost
  exact ⟨_, hhost⟩

/-! ## A plain authority -/

/-- A text without spaces and controls is not changed. -/
theorem cleaned_eq_self {input : List Char} (h : ∀ c ∈ input, 32 < c.toNat) :
    cleaned input = input := by
  have hstrip : ∀ c ∈ input, isC0OrSpace c = false := by
    intro c hc
    have := h c hc
    simp only [isC0OrSpace, decide_eq_false_iff_not]
    omega
  have hkeep : ∀ c ∈ input, isTabOrNewline c = false := by
    intro c hc
    by_contra htab
    have hc' := h c hc
    simp only [isTabOrNewline, Bool.not_eq_false, Bool.or_eq_true, decide_eq_true_eq] at htab
    rcases htab with (rfl | rfl) | rfl <;> exact absurd hc' (by decide)
  have hstart : Trim.StartsOutside isC0OrSpace input := fun c hc =>
    hstrip c (List.mem_of_mem_head? hc)
  have hend : Trim.EndsOutside isC0OrSpace input := fun c hc =>
    hstrip c (List.mem_of_mem_getLast? hc)
  have htrim : Trim.trimEnd isC0OrSpace input = input := Trim.trimEnd_eq_self hend
  rw [cleaned, Trim.dropWhile_eq_self hstart, ← Trim.trimEnd, htrim, List.filter_eq_self]
  intro c hc
  rw [hkeep c hc]
  rfl

/-- What a character of a domain is not. -/
theorem isDomainChar_ne {c d : Char} (h : isDomainChar c = true) (hd : isDomainChar d = false) :
    c ≠ d := by
  rintro rfl
  rw [h] at hd
  cases hd

theorem isDomainChar_gt {c : Char} (h : isDomainChar c = true) : 32 < c.toNat := by
  have hall : ∀ n ≤ 32, isDomainChar (Char.ofNat n) = false := by decide
  by_contra hle
  have hc := hall c.toNat (Nat.le_of_not_lt hle)
  rw [Char.ofNat_toNat, h] at hc
  cases hc

theorem endsAuthority_of_isDomainChar {c : Char} (h : isDomainChar c = true) :
    endsAuthority c = false := by
  have hslash : c ≠ '/' := isDomainChar_ne h rfl
  have hback : c ≠ '\\' := isDomainChar_ne h rfl
  have hquery : c ≠ '?' := isDomainChar_ne h rfl
  have hhash : c ≠ '#' := isDomainChar_ne h rfl
  simp [endsAuthority, isSlash, hslash, hback, hquery, hhash]

theorem splitPort_plain {cs : List Char} (h : ∀ c ∈ cs, isDomainChar c = true) :
    splitPort false cs = (cs, []) := by
  induction cs with
  | nil => rfl
  | cons c rest ih =>
    have hc := h c List.mem_cons_self
    have hcolon : c ≠ ':' := isDomainChar_ne hc rfl
    have hopen : c ≠ '[' := isDomainChar_ne hc rfl
    rw [splitPort, if_neg (by simp [hcolon])]
    simp [hopen, ih fun c hc => h c (List.mem_cons_of_mem _ hc)]

theorem splitCredentials_plain {cs : List Char} (h : ∀ c ∈ cs, isDomainChar c = true) :
    splitCredentials cs = ([], cs) :=
  if_neg fun hat => by cases h '@' hat

theorem splitCredentials_append {credentials host : List Char} (h : '@' ∉ host) :
    splitCredentials (credentials ++ '@' :: host) = (credentials, host) := by
  have hbefore : ∀ c ∈ host.reverse, (decide (c ≠ '@')) = true := by
    intro c hc
    simp only [decide_eq_true_eq]
    rintro rfl
    exact h (List.mem_reverse.mp hc)
  have hreverse : (credentials ++ '@' :: host).reverse =
      host.reverse ++ '@' :: credentials.reverse := by
    simp
  rw [splitCredentials, if_pos (by simp), hreverse, List.dropWhile_append_of_pos hbefore,
    List.takeWhile_append_of_pos hbefore]
  simp

/-- What follows the slashes ends where the path starts. -/
theorem takeWhile_authority {authority rest : List Char}
    (h : ∀ c ∈ authority, endsAuthority c = false) :
    (authority ++ '/' :: rest).takeWhile (!endsAuthority ·) = authority ∧
      (authority ++ '/' :: rest).dropWhile (!endsAuthority ·) = '/' :: rest := by
  have hends : ∀ c ∈ authority, (!endsAuthority c) = true := by
    intro c hc
    simp [h c hc]
  constructor
  · rw [List.takeWhile_append_of_pos hends]
    exact List.append_nil _
  · rw [List.dropWhile_append_of_pos hends]
    rfl

theorem takeWhile_ne_eq_self {cs : List Char} {c : Char} (h : c ∉ cs) :
    cs.takeWhile (· ≠ c) = cs := by
  apply List.takeWhile_eq_self_iff.mpr
  intro d hd
  simp only [decide_eq_true_eq]
  rintro rfl
  exact h hd

/-- The URL of a path under an authority: the authority alone says where it leads. -/
theorem parseHttps_authority {authority path : List Char} (hne : authority ≠ [])
    (hauthority : ∀ c ∈ authority, 32 < c.toNat ∧ endsAuthority c = false)
    (hpath : ∀ c ∈ path, 32 < c.toNat ∧ c ≠ '?' ∧ c ≠ '#') :
    parseHttps idna (https ++ ':' :: '/' :: '/' :: (authority ++ '/' :: path)) =
      let (credentials, hostPort) := splitCredentials authority
      let (hostText, portText) := splitPort false hostPort
      (readHost idna hostText).bind fun host =>
        (parsePort portText).map fun port =>
          { scheme := https, username := parseUsername credentials,
            password := parsePassword credentials, host := host, port := port,
            path := resolve [] (path.splitOnP isSlash), query := none, fragment := none } := by
  have hclean : cleaned (https ++ ':' :: '/' :: '/' :: (authority ++ '/' :: path)) =
      https ++ ':' :: '/' :: '/' :: (authority ++ '/' :: path) := by
    apply cleaned_eq_self
    simp only [https, List.mem_append, List.mem_cons, List.not_mem_nil, or_false]
    rintro c ((rfl | rfl | rfl | rfl | rfl) | rfl | rfl | rfl | hc | rfl | hc)
    all_goals first | decide | exact (hauthority c hc).1 | exact (hpath c hc).1
  have hscheme : afterScheme https (https ++ ':' :: '/' :: '/' :: (authority ++ '/' :: path)) =
      some ('/' :: '/' :: (authority ++ '/' :: path)) := rfl
  have hslashes : ('/' :: '/' :: (authority ++ '/' :: path)).dropWhile isSlash =
      authority ++ '/' :: path := by
    obtain ⟨c, rest, rfl⟩ := List.exists_cons_of_ne_nil hne
    have hc : isSlash c = false :=
      (Bool.or_eq_false_iff.mp (Bool.or_eq_false_iff.mp
        (hauthority c List.mem_cons_self).2).1).1
    rw [List.dropWhile_cons_of_pos rfl, List.dropWhile_cons_of_pos rfl, List.cons_append,
      List.dropWhile_cons_of_neg (by simp [hc])]
  have hquery : '?' ∉ '/' :: path := by
    intro hmem
    rcases List.mem_cons.mp hmem with h | h
    · cases h
    · exact (hpath _ h).2.1 rfl
  have hhash : '#' ∉ '/' :: path := by
    intro hmem
    rcases List.mem_cons.mp hmem with h | h
    · cases h
    · exact (hpath _ h).2.2 rfl
  obtain ⟨htake, hdrop⟩ :=
    @takeWhile_authority authority path fun c hc => (hauthority c hc).2
  simp only [parseHttps, hclean, hscheme, Option.bind_eq_bind, Option.bind_some, hslashes, htake,
    hdrop, takeWhile_ne_eq_self hhash, takeWhile_ne_eq_self hquery, parseQuery, if_neg hquery,
    parseFragment, if_neg hhash, Option.map_eq_bind]
  rfl

/-- With a plain domain for an authority, the URL is what it looks like. -/
theorem parseHttps_plain {domain path : List Char} (hdomain : domain ≠ [])
    (hplain : ∀ c ∈ domain, isDomainChar c = true)
    (hpath : ∀ c ∈ path, 32 < c.toNat ∧ c ≠ '?' ∧ c ≠ '#') :
    parseHttps idna (https ++ ':' :: '/' :: '/' :: (domain ++ '/' :: path)) =
      (parseHost idna domain).map fun host =>
        { scheme := https, username := [], password := [], host := host, port := none,
          path := resolve [] (path.splitOnP isSlash), query := none, fragment := none } := by
  have hauthority : ∀ c ∈ domain, 32 < c.toNat ∧ endsAuthority c = false := by
    intro c hc
    exact ⟨isDomainChar_gt (hplain c hc), endsAuthority_of_isDomainChar (hplain c hc)⟩
  rw [parseHttps_authority hdomain hauthority hpath]
  simp only [splitCredentials_plain hplain, splitPort_plain hplain, readHost, if_neg hdomain]
  cases parseHost idna domain <;> rfl

/-- What stands before an `@` is a user name, and the URL leads to what follows it. -/
theorem parseHttps_user {user domain path : List Char} (hdomain : domain ≠ [])
    (huser : ∀ c ∈ user, isDomainChar c = true) (hplain : ∀ c ∈ domain, isDomainChar c = true)
    (hpath : ∀ c ∈ path, 32 < c.toNat ∧ c ≠ '?' ∧ c ≠ '#') :
    parseHttps idna (https ++ ':' :: '/' :: '/' :: ((user ++ '@' :: domain) ++ '/' :: path)) =
      (parseHost idna domain).map fun host =>
        { scheme := https, username := parseUsername user, password := [], host := host,
          port := none, path := resolve [] (path.splitOnP isSlash), query := none,
          fragment := none } := by
  have hauthority : ∀ c ∈ user ++ '@' :: domain, 32 < c.toNat ∧ endsAuthority c = false := by
    intro c hc
    rcases List.mem_append.mp hc with hc | hc
    · exact ⟨isDomainChar_gt (huser c hc), endsAuthority_of_isDomainChar (huser c hc)⟩
    · rcases List.mem_cons.mp hc with rfl | hc
      · decide
      · exact ⟨isDomainChar_gt (hplain c hc), endsAuthority_of_isDomainChar (hplain c hc)⟩
  have hat : '@' ∉ domain := fun hmem => by cases hplain '@' hmem
  have hcolon : ':' ∉ user := fun hmem => by cases huser ':' hmem
  have hpassword : parsePassword user = [] := by
    rw [parsePassword, List.dropWhile_eq_nil_iff.mpr]
    · rfl
    · intro c hc
      simp only [decide_eq_true_eq]
      rintro rfl
      exact hcolon hc
  rw [parseHttps_authority (by simp) hauthority hpath]
  simp only [splitCredentials_append hat, splitPort_plain hplain, readHost, if_neg hdomain,
    hpassword]
  cases parseHost idna domain <;> rfl

end AgentExchange.Library.Whatwg
