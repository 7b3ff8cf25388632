import AgentExchange.Library.TomlPairs
import AgentExchange.Tunnel.Providers

/-!
# The configuration file of `frpc`

`render_config` puts the address, the token and the subdomain between quotes as they are. Read as
TOML, the file says what was configured if each of them is plain, and only then: another may leave
no document at all, or say more than was meant. That a string goes on over the lines that follow
does not help it, as what is left then is too short for the settings that are missing.
-/
namespace AgentExchange.Tunnel

open Library Toml

def settingKey (name : String) : Seg := .key name.toList

/-- The one element of the array of proxies. -/
def proxy : Path := [settingKey "proxies", .item 0]

def topSettings (addr token : List Char) (port : ℕ) : Nodes :=
  [([], .table), ([settingKey "serverAddr"], .string addr),
    ([settingKey "serverPort"], .integer port), ([settingKey "auth"], .table),
    ([settingKey "auth", settingKey "token"], .string token)]

def proxySettings (name subdomain : List Char) (localPort : ℕ) : Nodes :=
  [(proxy ++ [settingKey "name"], .string name),
    (proxy ++ [settingKey "type"], .string "http".toList),
    (proxy ++ [settingKey "localIP"], .string "127.0.0.1".toList),
    (proxy ++ [settingKey "localPort"], .integer localPort),
    (proxy ++ [settingKey "subdomain"], .string subdomain)]

namespace FrpTunnel

/-- What the file is to say. -/
def configured (server : FrpServer) (localPort : UInt16) : Nodes :=
  topSettings server.addr.toList server.token.toList server.port.toNat ++
    ([settingKey "proxies"], .array) :: (proxy, .table) ::
      proxySettings ("aex-" ++ server.subdomain).toList server.subdomain.toList localPort.toNat

/-- The file parses and has these settings, each once, and no others. -/
def RoundTrips (t : FrpTunnel) (localPort : UInt16) : Prop :=
  ∃ nodes, parse (t.renderConfig localPort).toList = some nodes ∧
    nodes.Perm (configured t.server localPort)

end FrpTunnel

/-- A basic string holds the text as it is. -/
def NeedsNoEscape (s : String) : Prop := ∀ c ∈ s.toList, isPlain c = true

/-! ## The text of the file -/

def afterName (subdomain localPort : List Char) : List Char :=
  "type = \"http\"\n".toList ++ ("localIP = \"127.0.0.1\"\n".toList ++
    ("localPort = ".toList ++ (localPort ++ '\n' ::
      ("subdomain = \"".toList ++ (subdomain ++ ['"', '\n'])))))

def afterToken (subdomain localPort : List Char) : List Char :=
  '\n' :: ("[[proxies]]\n".toList ++
    ("name = \"aex-".toList ++ (subdomain ++ '"' :: '\n' :: afterName subdomain localPort)))

def afterAddr (port token subdomain localPort : List Char) : List Char :=
  "serverPort = ".toList ++ (port ++ '\n' ::
    ("auth.token = \"".toList ++ (token ++ '"' :: '\n' :: afterToken subdomain localPort)))

theorem toList_toString (n : UInt16) : (toString n).toList = Nat.toDigits 10 n.toNat :=
  Nat.toList_repr

theorem renderConfig_toList (t : FrpTunnel) (localPort : UInt16) :
    (t.renderConfig localPort).toList =
      "serverAddr = \"".toList ++ (t.server.addr.toList ++ '"' :: '\n' ::
        afterAddr (Nat.toDigits 10 t.server.port.toNat) t.server.token.toList
          t.server.subdomain.toList (Nat.toDigits 10 localPort.toNat)) := by
  have hquote : "\"\n".toList = ['"', '\n'] := rfl
  have htoken : "\"\n\n".toList = ['"', '\n', '\n'] := rfl
  have hline : "\n".toList = ['\n'] := rfl
  unfold FrpTunnel.renderConfig afterAddr afterToken afterName
  simp only [String.toList_append, toList_toString, hquote, htoken, hline, List.append_assoc,
    List.cons_append, List.nil_append]

/-! ## Line by line -/

def addrDoc (addr : List Char) : Doc :=
  { nodes := [([], .table), ([settingKey "serverAddr"], .string addr)] }

def portDoc (addr : List Char) (port : ℕ) : Doc :=
  { nodes := [([], .table), ([settingKey "serverAddr"], .string addr),
      ([settingKey "serverPort"], .integer port)] }

def tokenDoc (addr : List Char) (port : ℕ) (token : List Char) : Doc :=
  { nodes := topSettings addr token port
    dotted := [[settingKey "auth"]] }

/-- In the section of the proxy, with some of its settings. -/
def proxyDoc (top settings : Nodes) : Doc :=
  { nodes := top ++ ([settingKey "proxies"], .array) :: (proxy, .table) :: settings
    defined := [[settingKey "auth"]]
    current := proxy }

theorem addr_line (addr rest : List Char) :
    StringLine {} ("serverAddr = \"".toList ++ (addr ++ '"' :: '\n' :: rest)) addr rest addrDoc :=
  ⟨rfl, ["serverAddr".toList], rfl, fun _ => rfl⟩

theorem port_line {f : Doc} (addr rest : List Char) {port : ℕ} (hport : port < 2 ^ 63) :
    Reads (addrDoc addr) ("serverPort = ".toList ++ (Nat.toDigits 10 port ++ '\n' :: rest)) f ↔
      Reads (portDoc addr port) rest f := by
  have hbegins : Begins ("serverPort = ".toList ++ (Nat.toDigits 10 port ++ '\n' :: rest)) := rfl
  have hkeys : dottedKey ("serverPort = ".toList ++ (Nat.toDigits 10 port ++ '\n' :: rest)) =
      some (["serverPort".toList], '=' :: ' ' :: (Nat.toDigits 10 port ++ '\n' :: rest)) := rfl
  apply reads_statement hbegins
  rw [statement_integer hbegins hport hkeys]
  rfl

theorem token_line (addr : List Char) (port : ℕ) (token rest : List Char) :
    StringLine (portDoc addr port) ("auth.token = \"".toList ++ (token ++ '"' :: '\n' :: rest))
      token rest (tokenDoc addr port) :=
  ⟨rfl, ["auth".toList, "token".toList], rfl, fun _ => rfl⟩

theorem proxies_line {f : Doc} (addr : List Char) (port : ℕ) (token rest : List Char) :
    Reads (tokenDoc addr port token) ('\n' :: ("[[proxies]]\n".toList ++ rest)) f ↔
      Reads (proxyDoc (topSettings addr token port) []) rest f := by
  have hblank : ∀ n, document (n + 1) (tokenDoc addr port token)
      ('\n' :: ("[[proxies]]\n".toList ++ rest)) =
        document n (tokenDoc addr port token) ("[[proxies]]\n".toList ++ rest) := fun _ => rfl
  have hheader : ∀ n, document (n + 1) (tokenDoc addr port token)
      ("[[proxies]]\n".toList ++ rest) =
        document n (proxyDoc (topSettings addr token port) []) rest := fun _ => rfl
  rw [reads_iff hblank, reads_iff hheader]

section Proxy

variable (addr : List Char) (port : ℕ) (token name subdomain : List Char) (localPort : ℕ)

/-- After the first so many settings of the proxy. -/
def settingsDoc (n : ℕ) : Doc :=
  proxyDoc (topSettings addr token port) ((proxySettings name subdomain localPort).take n)

theorem name_line (rest : List Char) :
    StringLine (settingsDoc addr port token name subdomain localPort 0)
      ("name = \"".toList ++ (name ++ '"' :: '\n' :: rest)) name rest
      fun v => settingsDoc addr port token v subdomain localPort 1 :=
  ⟨rfl, ["name".toList], rfl, fun _ => rfl⟩

theorem type_line (rest : List Char) :
    StringLine (settingsDoc addr port token name subdomain localPort 1)
      ("type = \"http\"\n".toList ++ rest) "http".toList rest
      fun v => proxyDoc (topSettings addr token port) [(proxy ++ [settingKey "name"], .string name),
        (proxy ++ [settingKey "type"], .string v)] :=
  ⟨rfl, ["type".toList], rfl, fun _ => rfl⟩

theorem localIP_line (rest : List Char) :
    StringLine (settingsDoc addr port token name subdomain localPort 2)
      ("localIP = \"127.0.0.1\"\n".toList ++ rest) "127.0.0.1".toList rest
      fun v => proxyDoc (topSettings addr token port) [(proxy ++ [settingKey "name"], .string name),
        (proxy ++ [settingKey "type"], .string "http".toList),
        (proxy ++ [settingKey "localIP"], .string v)] :=
  ⟨rfl, ["localIP".toList], rfl, fun _ => rfl⟩

theorem localPort_line {f : Doc} (rest : List Char) (hport : localPort < 2 ^ 63) :
    Reads (settingsDoc addr port token name subdomain localPort 3)
        ("localPort = ".toList ++ (Nat.toDigits 10 localPort ++ '\n' :: rest)) f ↔
      Reads (settingsDoc addr port token name subdomain localPort 4) rest f := by
  have hbegins : Begins ("localPort = ".toList ++ (Nat.toDigits 10 localPort ++ '\n' :: rest)) :=
    rfl
  have hkeys : dottedKey ("localPort = ".toList ++ (Nat.toDigits 10 localPort ++ '\n' :: rest)) =
      some (["localPort".toList], '=' :: ' ' :: (Nat.toDigits 10 localPort ++ '\n' :: rest)) := rfl
  apply reads_statement hbegins
  rw [statement_integer hbegins hport hkeys]
  rfl

theorem subdomain_line (rest : List Char) :
    StringLine (settingsDoc addr port token name subdomain localPort 4)
      ("subdomain = \"".toList ++ (subdomain ++ '"' :: '\n' :: rest)) subdomain rest
      fun v => settingsDoc addr port token name v localPort 5 :=
  ⟨rfl, ["subdomain".toList], rfl, fun _ => rfl⟩

end Proxy

/-! ## Plain texts -/

theorem reads_afterName {f : Doc} (addr : List Char) (port : ℕ) (token name subdomain : List Char)
    {localPort : ℕ} (hport : localPort < 2 ^ 63) (hplain : ∀ c ∈ subdomain, isPlain c = true) :
    Reads (settingsDoc addr port token name subdomain localPort 1)
        (afterName subdomain (Nat.toDigits 10 localPort)) f ↔
      settingsDoc addr port token name subdomain localPort 5 = f := by
  have htype : ∀ c ∈ "http".toList, isPlain c = true := List.all_eq_true.mp (by decide)
  have hip : ∀ c ∈ "127.0.0.1".toList, isPlain c = true := List.all_eq_true.mp (by decide)
  have hread := (type_line addr port token name subdomain localPort
    ("localIP = \"127.0.0.1\"\n".toList ++ ("localPort = ".toList ++
      (Nat.toDigits 10 localPort ++ '\n' :: ("subdomain = \"".toList ++
        (subdomain ++ ['"', '\n'])))))).reads_iff (f := f) htype
  have hread' := (localIP_line addr port token name subdomain localPort
    ("localPort = ".toList ++ (Nat.toDigits 10 localPort ++ '\n' ::
      ("subdomain = \"".toList ++ (subdomain ++ ['"', '\n']))))).reads_iff (f := f) hip
  have hread'' := (subdomain_line addr port token name subdomain localPort []).reads_iff (f := f)
    hplain
  apply hread.trans
  apply hread'.trans
  apply (localPort_line addr port token name subdomain localPort _ hport).trans
  exact hread''.trans reads_nil

theorem reads_afterToken {f : Doc} (addr : List Char) (port : ℕ) (token subdomain : List Char)
    {localPort : ℕ} (hport : localPort < 2 ^ 63)
    (hplain : ∀ c ∈ subdomain, isPlain c = true) :
    Reads (tokenDoc addr port token) (afterToken subdomain (Nat.toDigits 10 localPort)) f ↔
      settingsDoc addr port token ("aex-".toList ++ subdomain) subdomain localPort 5 = f := by
  have haex : ∀ c ∈ "aex-".toList, isPlain c = true := List.all_eq_true.mp (by decide)
  have hname : ∀ c ∈ "aex-".toList ++ subdomain, isPlain c = true := fun c hc =>
    (List.mem_append.mp hc).elim (haex c) (hplain c)
  have hread := (name_line addr port token ("aex-".toList ++ subdomain) subdomain localPort
    (afterName subdomain (Nat.toDigits 10 localPort))).reads_iff (f := f) hname
  apply (proxies_line addr port token _).trans
  apply hread.trans
  exact reads_afterName addr port token _ subdomain hport hplain

theorem reads_afterAddr {f : Doc} (addr : List Char) {port : ℕ} (token subdomain : List Char)
    {localPort : ℕ} (hport : port < 2 ^ 63) (hlocal : localPort < 2 ^ 63)
    (htoken : ∀ c ∈ token, isPlain c = true) (hsubdomain : ∀ c ∈ subdomain, isPlain c = true) :
    Reads (addrDoc addr) (afterAddr (Nat.toDigits 10 port) token subdomain
        (Nat.toDigits 10 localPort)) f ↔
      settingsDoc addr port token ("aex-".toList ++ subdomain) subdomain localPort 5 = f := by
  apply (port_line addr _ hport).trans
  apply ((token_line addr port token _).reads_iff htoken).trans
  exact reads_afterToken addr port token subdomain hlocal hsubdomain

/-! ## Texts that come back -/

open FrpTunnel (configured RoundTrips)

variable {server : FrpServer} {localPort : UInt16} {f : Doc}

theorem configured_nodup (server : FrpServer) (localPort : UInt16) :
    ((configured server localPort).map Prod.fst).Nodup := by
  have hpaths : (configured server localPort).map Prod.fst =
      [[], [settingKey "serverAddr"], [settingKey "serverPort"], [settingKey "auth"],
        [settingKey "auth", settingKey "token"], [settingKey "proxies"], proxy,
        proxy ++ [settingKey "name"], proxy ++ [settingKey "type"],
        proxy ++ [settingKey "localIP"], proxy ++ [settingKey "localPort"],
        proxy ++ [settingKey "subdomain"]] := rfl
  rw [hpaths]
  decide +kernel

/-- A string that was read under a key is the one that was configured. -/
theorem eq_of_configured (hperm : f.nodes.Perm (configured server localPort)) {p : Path}
    {v w : List Char} (hw : (p, Node.string w) ∈ configured server localPort)
    (hv : (p, Node.string v) ∈ f.nodes) : v = w := by
  have heq := List.inj_on_of_nodup_map (configured_nodup server localPort)
    (hperm.mem_iff.mp hv) hw rfl
  exact Node.string.inj (Prod.mk.inj heq).2

theorem weight_topSettings (addr token : List Char) (port : ℕ) :
    weight (topSettings addr token port) = addr.length + token.length + 38 := by
  simp [topSettings, pathWeight, Node.weight, settingKey]
  omega

theorem weight_proxySettings (name subdomain : List Char) (n : ℕ) :
    weight (proxySettings name subdomain n) = name.length + subdomain.length + 60 := by
  simp [proxySettings, pathWeight, Node.weight, settingKey]
  omega

theorem weight_configured (server : FrpServer) (localPort : UInt16) :
    weight (configured server localPort) = server.addr.toList.length +
      server.token.toList.length + 2 * server.subdomain.toList.length + 112 := by
  have hname : ("aex-" ++ server.subdomain).toList.length = server.subdomain.toList.length + 4 := by
    rw [String.toList_append, List.length_append, Nat.add_comm]
    rfl
  have harray : pathWeight [settingKey "proxies"] = 8 := rfl
  have hproxy : pathWeight proxy = 0 := rfl
  rw [configured, weight_append, weight_cons, weight_cons, weight_topSettings,
    weight_proxySettings, hname, harray, hproxy, Node.weight, Node.weight]
  omega

theorem length_afterName (subdomain localPort : List Char) :
    (afterName subdomain localPort).length = subdomain.length + localPort.length + 64 := by
  have htype : "type = \"http\"\n".toList.length = 14 := rfl
  have hip : "localIP = \"127.0.0.1\"\n".toList.length = 22 := rfl
  have hport : "localPort = ".toList.length = 12 := rfl
  have hsubdomain : "subdomain = \"".toList.length = 13 := rfl
  unfold afterName
  simp only [List.length_append, List.length_cons, List.length_nil, htype, hip, hport, hsubdomain]
  omega

theorem length_afterToken (subdomain localPort : List Char) :
    (afterToken subdomain localPort).length =
      2 * subdomain.length + localPort.length + 91 := by
  have hheader : "[[proxies]]\n".toList.length = 12 := rfl
  have hname : "name = \"aex-".toList.length = 12 := rfl
  unfold afterToken
  simp only [List.length_append, List.length_cons, length_afterName, hheader, hname]
  omega

theorem length_port (n : UInt16) : (Nat.toDigits 10 n.toNat).length ≤ 5 := by
  have hlt := n.toNat_lt
  rw [Nat.length_toDigits_le_iff (by decide) (by decide)]
  omega

theorem quote_notMem_port (n : UInt16) : '"' ∉ Nat.toDigits 10 n.toNat := by
  intro hmem
  cases Nat.isDigit_of_mem_toDigits (by decide) (by decide) hmem

/-- After the address there is no quote before the token. -/
theorem rest_of_afterAddr {port : UInt16} {token subdomain localPort c rest : List Char}
    (h : afterAddr (Nat.toDigits 10 port.toNat) token subdomain localPort =
      c ++ '"' :: '"' :: '"' :: rest) :
    rest.length ≤ token.length + (afterToken subdomain localPort).length := by
  have hquote : '"' ∉ "serverPort = ".toList ++ (Nat.toDigits 10 port.toNat ++
      '\n' :: "auth.token = ".toList) := by
    simp [quote_notMem_port]
  have hsplit : ("serverPort = ".toList ++ (Nat.toDigits 10 port.toNat ++
      '\n' :: "auth.token = ".toList)) ++
        '"' :: (token ++ '"' :: '\n' :: afterToken subdomain localPort) =
      c ++ '"' :: '"' :: '"' :: rest := by
    rw [← h]
    unfold afterAddr
    simp only [List.append_assoc, List.cons_append]
    rfl
  have hlt := length_lt_of_quote hquote hsplit
  simp only [List.length_cons, List.length_append] at hlt
  omega

/-- After the token there is none before the name. -/
theorem rest_of_afterToken {subdomain localPort c rest : List Char}
    (h : afterToken subdomain localPort = c ++ '"' :: '"' :: '"' :: rest) :
    rest.length ≤ subdomain.length + (afterName subdomain localPort).length + 4 := by
  have hquote : '"' ∉ '\n' :: ("[[proxies]]\n".toList ++ "name = ".toList) := by decide
  have hsplit : '\n' :: ("[[proxies]]\n".toList ++ "name = ".toList) ++
        '"' :: ("aex-".toList ++ (subdomain ++ '"' :: '\n' :: afterName subdomain localPort)) =
      c ++ '"' :: '"' :: '"' :: rest := by
    rw [← h]
    rfl
  have haex : "aex-".toList.length = 4 := rfl
  have hlt := length_lt_of_quote hquote hsplit
  simp only [List.length_cons, List.length_append, haex] at hlt
  omega

/-- What is left after a string over many lines is too short for the settings that are missing. -/
theorem weight_le_of_grows {d : Doc} {n : ℕ} (hperm : f.nodes.Perm (configured server localPort))
    (h : Grows d f n) : weight (configured server localPort) ≤ weight d.nodes + n := by
  rw [← weight_perm hperm]
  exact h.weight_le

theorem addr_plain {port : UInt16} (hperm : f.nodes.Perm (configured server localPort))
    (h : Reads {} ("serverAddr = \"".toList ++ (server.addr.toList ++ '"' :: '\n' ::
      afterAddr (Nat.toDigits 10 port.toNat) server.token.toList server.subdomain.toList
        (Nat.toDigits 10 localPort.toNat))) f) :
    NeedsNoEscape server.addr ∧ Reads (addrDoc server.addr.toList)
      (afterAddr (Nat.toDigits 10 port.toNat) server.token.toList server.subdomain.toList
        (Nat.toDigits 10 localPort.toNat)) f := by
  have hmem : ([settingKey "serverAddr"], Node.string server.addr.toList) ∈
      configured server localPort := by simp [configured, topSettings]
  have hback : ∀ v m, Grows (addrDoc v) f m → v = server.addr.toList := fun v m hgrows =>
    eq_of_configured hperm hmem (hgrows.mem (by simp [addrDoc]))
  rcases (addr_line server.addr.toList _).plain_or_grows h hback with hplain | ⟨-, c, rest, hc, hgrows⟩
  · exact hplain
  · have hle := weight_le_of_grows hperm hgrows
    have hrest := rest_of_afterAddr hc
    have hdigits := length_port localPort
    have hdoc : weight (addrDoc server.addr.toList).nodes = server.addr.toList.length + 13 := by
      simp [addrDoc, pathWeight, Node.weight, settingKey]
      omega
    rw [weight_configured, hdoc] at hle
    rw [length_afterToken] at hrest
    omega

theorem token_plain {addr : List Char} {port : ℕ}
    (hperm : f.nodes.Perm (configured server localPort)) (haddr : addr = server.addr.toList)
    (h : Reads (portDoc addr port) ("auth.token = \"".toList ++ (server.token.toList ++
      '"' :: '\n' :: afterToken server.subdomain.toList (Nat.toDigits 10 localPort.toNat))) f) :
    NeedsNoEscape server.token ∧ Reads (tokenDoc addr port server.token.toList)
      (afterToken server.subdomain.toList (Nat.toDigits 10 localPort.toNat)) f := by
  have hmem : ([settingKey "auth", settingKey "token"], Node.string server.token.toList) ∈
      configured server localPort := by simp [configured, topSettings]
  have hback : ∀ v m, Grows (tokenDoc addr port v) f m → v = server.token.toList :=
    fun v m hgrows =>
      eq_of_configured hperm hmem (hgrows.mem (by simp [tokenDoc, topSettings]))
  rcases (token_line addr port server.token.toList _).plain_or_grows h hback with
    hplain | ⟨-, c, rest, hc, hgrows⟩
  · exact hplain
  · have hle := weight_le_of_grows hperm hgrows
    have hrest := rest_of_afterToken hc
    have hdigits := length_port localPort
    have hdoc : (tokenDoc addr port server.token.toList).nodes =
        topSettings addr server.token.toList port := rfl
    rw [weight_configured, hdoc, weight_topSettings, haddr] at hle
    rw [length_afterName] at hrest
    omega

theorem subdomain_plain {addr token : List Char} {port : ℕ}
    (hperm : f.nodes.Perm (configured server localPort))
    (h : Reads (tokenDoc addr port token)
      (afterToken server.subdomain.toList (Nat.toDigits 10 localPort.toNat)) f) :
    NeedsNoEscape server.subdomain := by
  have hmem : (proxy ++ [settingKey "name"], Node.string ("aex-".toList ++ server.subdomain.toList)) ∈
      configured server localPort := by
    simp [configured, topSettings, proxySettings, String.toList_append]
  have hback : ∀ v m, Grows (settingsDoc addr port token v server.subdomain.toList
      localPort.toNat 1) f m → v = "aex-".toList ++ server.subdomain.toList := fun v m hgrows =>
    eq_of_configured hperm hmem (hgrows.mem (by simp [settingsDoc, proxyDoc, proxySettings]))
  have hreads := (proxies_line addr port token _).mp h
  rcases (name_line addr port token ("aex-".toList ++ server.subdomain.toList)
    server.subdomain.toList localPort.toNat _).plain_or_grows hreads hback with
    ⟨hplain, -⟩ | ⟨hhead, -⟩
  · intro c hc
    exact hplain c (List.mem_append_right _ hc)
  · cases hhead

theorem plain_of_roundTrips {t : FrpTunnel} (h : RoundTrips t localPort) :
    NeedsNoEscape t.server.addr ∧ NeedsNoEscape t.server.token ∧
      NeedsNoEscape t.server.subdomain := by
  obtain ⟨nodes, hparse, hperm⟩ := h
  obtain ⟨f, hreads, rfl⟩ := parse_eq_some_iff.mp hparse
  rw [renderConfig_toList] at hreads
  have hport : t.server.port.toNat < 2 ^ 63 := lt_trans t.server.port.toNat_lt (by decide)
  obtain ⟨haddr, hreads⟩ := addr_plain hperm hreads
  have hreads := (port_line _ _ hport).mp hreads
  obtain ⟨htoken, hreads⟩ := token_plain hperm rfl hreads
  exact ⟨haddr, htoken, subdomain_plain hperm hreads⟩

theorem roundTrips_of_plain {t : FrpTunnel} (haddr : NeedsNoEscape t.server.addr)
    (htoken : NeedsNoEscape t.server.token) (hsubdomain : NeedsNoEscape t.server.subdomain) :
    RoundTrips t localPort := by
  have hport : t.server.port.toNat < 2 ^ 63 := lt_trans t.server.port.toNat_lt (by decide)
  have hlocal : localPort.toNat < 2 ^ 63 := lt_trans localPort.toNat_lt (by decide)
  have hreads := ((addr_line t.server.addr.toList _).reads_iff haddr).mpr
    ((reads_afterAddr t.server.addr.toList t.server.token.toList t.server.subdomain.toList hport
      hlocal htoken hsubdomain).mpr rfl)
  rw [← renderConfig_toList] at hreads
  refine ⟨_, parse_eq_some_iff.mpr ⟨_, hreads, rfl⟩, ?_⟩
  rw [configured, String.toList_append]
  exact List.Perm.refl _

/-- The file says what was configured exactly when no text needs an escape. -/
theorem frp_config_round_trips_iff (t : FrpTunnel) (localPort : UInt16) :
    RoundTrips t localPort ↔ NeedsNoEscape t.server.addr ∧ NeedsNoEscape t.server.token ∧
      NeedsNoEscape t.server.subdomain := by
  constructor
  · exact plain_of_roundTrips
  · intro h
    exact roundTrips_of_plain h.1 h.2.1 h.2.2

/-- A token with a quote and a line break. -/
def quotedToken : FrpTunnel :=
  FrpTunnel.new ⟨"frp.example.com", 7000, "s3cret\"\nuser = \"mallory", "alice"⟩
    "https://alice.frp.example.com" none 60

theorem quotedToken_adds_user : ¬RoundTrips quotedToken 8080 ∧
    (parse (quotedToken.renderConfig 8080).toList).any
      (([settingKey "user"], .string "mallory".toList) ∈ ·) = true := by
  constructor
  · intro h
    have hplain := (plain_of_roundTrips h).2.1 '"' (by decide)
    cases hplain
  · rw [renderConfig_toList]
    decide +kernel

end AgentExchange.Tunnel
