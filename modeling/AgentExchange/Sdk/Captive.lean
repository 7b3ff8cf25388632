import AgentExchange.Net.Captive
import AgentExchange.Sdk.Python
import AgentExchange.Sdk.TypeScript

/-!
# Captive portals as the SDKs see them

`captive.py` and `captive.ts`. Status and fragment are tested as in the crate; what is trimmed
around the body of Microsoft is what each runtime takes for white space. The three detectors
return the state the outcomes stand for unless that body is padded with a character on which the
runtimes differ.
-/
namespace AgentExchange

open Library Net Net.Captive

namespace Python.Captive

/-- A response; its content is read before the call returns. -/
structure Response where
  statusCode : ℕ
  text : String

/-- `Response.is_redirect`. -/
def isRedirect (statusCode : ℕ) : Bool := 300 ≤ statusCode && statusCode ≤ 399

/-- `Response.is_success`. -/
def isSuccess (statusCode : ℕ) : Bool := 200 ≤ statusCode && statusCode ≤ 299

/-- `in` of two texts. -/
def contains (fragment text : String) : Bool := decide (fragment.toList <:+: text.toList)

def consensus : List ProbeVerdict → NetworkState := Net.Captive.consensus

def probeApple (client : String → Option Response) (url : String) : ProbeVerdict :=
  match client url with
  | none => .failed
  | some r =>
    if r.statusCode = 511 then .captive
    else if isRedirect r.statusCode then .captive
    else if ¬isSuccess r.statusCode then .unexpected
    else if contains appleExpectedBodyFragment r.text then .ok
    else .captive

def probeGoogle (client : String → Option Response) (url : String) : ProbeVerdict :=
  match client url with
  | none => .failed
  | some r =>
    if r.statusCode = 511 then .captive
    else if isRedirect r.statusCode then .captive
    else if r.statusCode = 204 then .ok
    else .unexpected

def probeMs (client : String → Option Response) (url : String) : ProbeVerdict :=
  match client url with
  | none => .failed
  | some r =>
    if r.statusCode = 511 then .captive
    else if isRedirect r.statusCode then .captive
    else if ¬isSuccess r.statusCode then .unexpected
    else if strip r.text = msExpectedBody then .ok
    else .captive

def detectNetworkState (client : String → Option Response) : NetworkState :=
  consensus [probeApple client appleUrl, probeGoogle client googleUrl, probeMs client msUrl]

end Python.Captive

namespace TypeScript.Captive

/-- A response; `none` for a text whose reading rejects. -/
structure Response where
  status : ℕ
  text : Option JsString

/-- `Response.ok`. -/
def ok (status : ℕ) : Bool := 200 ≤ status && status ≤ 299

/-- `String.prototype.includes`. -/
def includes (s fragment : JsString) : Bool := decide (fragment <:+: s)

def consensus : List ProbeVerdict → NetworkState := Net.Captive.consensus

def probeApple (fetch : String → Option Response) (url : String) : ProbeVerdict :=
  match fetch url with
  | none => .failed
  | some resp =>
    if resp.status = 511 then .captive
    else if 300 ≤ resp.status && resp.status < 400 then .captive
    else if ¬ok resp.status then .unexpected
    else
      match resp.text with
      | none => .failed
      | some body => if includes body (js appleExpectedBodyFragment) then .ok else .captive

def probeGoogle (fetch : String → Option Response) (url : String) : ProbeVerdict :=
  match fetch url with
  | none => .failed
  | some resp =>
    if resp.status = 511 then .captive
    else if 300 ≤ resp.status && resp.status < 400 then .captive
    else if resp.status = 204 then .ok
    else .unexpected

def probeMs (fetch : String → Option Response) (url : String) : ProbeVerdict :=
  match fetch url with
  | none => .failed
  | some resp =>
    if resp.status = 511 then .captive
    else if 300 ≤ resp.status && resp.status < 400 then .captive
    else if ¬ok resp.status then .unexpected
    else
      match resp.text with
      | none => .failed
      | some body => if trim body = js msExpectedBody then .ok else .captive

def detectNetworkState (fetch : String → Option Response) : NetworkState :=
  consensus [probeApple fetch appleUrl, probeGoogle fetch googleUrl, probeMs fetch msUrl]

end TypeScript.Captive

namespace Sdk.Captive

/-- What the client of the Python SDK sees. -/
def pythonAnswer : Outcome → Option Python.Captive.Response
  | .failure => none
  | .response status body => some ⟨status, body⟩

/-- What the client of the TypeScript SDK sees. -/
def typeScriptAnswer : Outcome → Option TypeScript.Captive.Response
  | .failure => none
  | .response status body => some ⟨status, some (TypeScript.js body)⟩

/-- What the TypeScript runtime trims, as characters. -/
def isJsSpace (c : Char) : Bool :=
  c.toNat < 0x10000 && TypeScript.isWhiteSpace (UInt16.ofNat c.toNat)

/-- The characters that some runtime trims and another does not. -/
def differing : List Char :=
  ['\u0085', '\u001c', '\u001d', '\u001e', '\u001f', '\ufeff']

/-- The body of Microsoft's probe is not padded with white space of a runtime that another runtime
keeps. -/
def Uniform : Outcome → Prop
  | .failure => True
  | .response status body => 200 ≤ status ∧ status ≤ 299 →
    ∀ a b, body.toList = a ++ msExpectedBody.toList ++ b →
      (∀ c ∈ a ++ b, isWhitespace c = true) ∨ (∀ c ∈ a ++ b, Python.isSpace c = true) ∨
        (∀ c ∈ a ++ b, isJsSpace c = true) →
      ∀ c ∈ a ++ b, c ∉ differing

/-- The three detectors return the state the outcomes stand for. -/
structure Agree (net : String → Outcome) : Prop where
  rust : Net.Captive.detectNetworkState (fun url => (net url).answer) =
    stateOf (net appleUrl) (net googleUrl) (net msUrl)
  python : Python.Captive.detectNetworkState (fun url => pythonAnswer (net url)) =
    stateOf (net appleUrl) (net googleUrl) (net msUrl)
  typeScript : TypeScript.Captive.detectNetworkState (fun url => typeScriptAnswer (net url)) =
    stateOf (net appleUrl) (net googleUrl) (net msUrl)

/-! ## White space -/

theorem differing_iff (c : Char) : c ∈ differing ↔ c.toNat = 0x85 ∨
    (0x1c ≤ c.toNat ∧ c.toNat ≤ 0x1f) ∨ c.toNat = 0xfeff := by
  have hval (n : ℕ) (d : Char) (hd : d.toNat = n) : c = d ↔ c.toNat = n := by
    rw [← hd, Char.toNat_inj]
  simp only [differing, List.mem_cons, List.not_mem_nil, or_false, hval 0x85 '\u0085' rfl,
    hval 0x1c '\u001c' rfl, hval 0x1d '\u001d' rfl, hval 0x1e '\u001e' rfl,
    hval 0x1f '\u001f' rfl, hval 0xfeff '\ufeff' rfl]
  omega

theorem isWhiteSpace_iff (u : UInt16) : TypeScript.isWhiteSpace u = true ↔
    (9 ≤ u.toNat ∧ u.toNat ≤ 13) ∨ u.toNat = 0x20 ∨ u.toNat = 0xa0 ∨ u.toNat = 0x1680 ∨
      (0x2000 ≤ u.toNat ∧ u.toNat ≤ 0x200a) ∨ u.toNat = 0x2028 ∨ u.toNat = 0x2029 ∨
        u.toNat = 0x202f ∨ u.toNat = 0x205f ∨ u.toNat = 0x3000 ∨ u.toNat = 0xfeff := by
  simp only [TypeScript.isWhiteSpace, Bool.or_eq_true, Bool.and_eq_true, decide_eq_true_eq,
    beq_iff_eq, UInt16.le_iff_toNat_le, ← UInt16.toNat_inj, or_assoc]
  rfl

theorem isJsSpace_iff (c : Char) : isJsSpace c = true ↔
    (9 ≤ c.toNat ∧ c.toNat ≤ 13) ∨ c.toNat = 0x20 ∨ c.toNat = 0xa0 ∨ c.toNat = 0x1680 ∨
      (0x2000 ≤ c.toNat ∧ c.toNat ≤ 0x200a) ∨ c.toNat = 0x2028 ∨ c.toNat = 0x2029 ∨
        c.toNat = 0x202f ∨ c.toNat = 0x205f ∨ c.toNat = 0x3000 ∨ c.toNat = 0xfeff := by
  rw [isJsSpace, Bool.and_eq_true, decide_eq_true_eq, isWhiteSpace_iff]
  by_cases hplane : c.toNat < 0x10000
  · have hunit : (UInt16.ofNat c.toNat).toNat = c.toNat := UInt16.toNat_ofNat_of_lt hplane
    simp only [hunit, hplane, true_and]
  · simp only [hplane, false_and, false_iff]
    omega

theorem isWhitespace_iff (c : Char) : isWhitespace c = true ↔
    (9 ≤ c.toNat ∧ c.toNat ≤ 13) ∨ c.toNat = 0x20 ∨ c.toNat = 0x85 ∨ c.toNat = 0xa0 ∨
      c.toNat = 0x1680 ∨ (0x2000 ≤ c.toNat ∧ c.toNat ≤ 0x200a) ∨ c.toNat = 0x2028 ∨
        c.toNat = 0x2029 ∨ c.toNat = 0x202f ∨ c.toNat = 0x205f ∨ c.toNat = 0x3000 := by
  simp [isWhitespace, or_assoc]

theorem isSpace_iff (c : Char) : Python.isSpace c = true ↔
    (9 ≤ c.toNat ∧ c.toNat ≤ 13) ∨ (0x1c ≤ c.toNat ∧ c.toNat ≤ 0x20) ∨ c.toNat = 0x85 ∨
      c.toNat = 0xa0 ∨ c.toNat = 0x1680 ∨ (0x2000 ≤ c.toNat ∧ c.toNat ≤ 0x200a) ∨
        c.toNat = 0x2028 ∨ c.toNat = 0x2029 ∨ c.toNat = 0x202f ∨ c.toNat = 0x205f ∨
          c.toNat = 0x3000 := by
  simp [Python.isSpace, or_assoc]

/-- Apart from the differing characters the runtimes trim the same. -/
theorem spaces_agree {c : Char} (h : c ∉ differing) :
    isWhitespace c = Python.isSpace c ∧ isWhitespace c = isJsSpace c := by
  rw [differing_iff] at h
  constructor
  · rw [Bool.eq_iff_iff, isWhitespace_iff, isSpace_iff]
    omega
  · rw [Bool.eq_iff_iff, isWhitespace_iff, isJsSpace_iff]
    omega

/-- No differing character is trimmed by all. -/
theorem not_differing {c : Char} (hrust : isWhitespace c = true)
    (hjs : isJsSpace c = true) : c ∉ differing := by
  rw [isWhitespace_iff] at hrust
  rw [isJsSpace_iff] at hjs
  rw [differing_iff]
  omega

/-! ## Padding -/

/-- The body of Microsoft's probe begins and ends in no white space. -/
theorem ms_outside (p : Char → Bool) (hM : p 'M' = false) (hI : p 'I' = false) :
    Trim.StartsOutside p msExpectedBody.toList ∧ Trim.EndsOutside p msExpectedBody.toList := by
  constructor
  · intro c hc
    cases hc
    exact hM
  · intro c hc
    cases hc
    exact hI

theorem trim_eq_ms_iff (body : String) :
    AgentExchange.trim body = msExpectedBody ↔
      Trim.Padded isWhitespace msExpectedBody.toList body.toList := by
  obtain ⟨hstart, hend⟩ := ms_outside isWhitespace (by decide) (by decide)
  rw [← Trim.trim_eq_iff (by decide) hstart hend, ← String.toList_inj, AgentExchange.trim,
    String.toList_ofList]
  rfl

theorem strip_eq_ms_iff (body : String) :
    Python.strip body = msExpectedBody ↔
      Trim.Padded Python.isSpace msExpectedBody.toList body.toList := by
  obtain ⟨hstart, hend⟩ := ms_outside Python.isSpace (by decide) (by decide)
  rw [← Trim.trim_eq_iff (by decide) hstart hend, ← String.toList_inj, Python.strip,
    String.toList_ofList]
  rfl

theorem not_surrogate_of_isWhiteSpace {u : UInt16} (h : TypeScript.isWhiteSpace u = true) :
    (Utf16.isHighSurrogate u || Utf16.isLowSurrogate u) = false := by
  rw [isWhiteSpace_iff] at h
  simp only [Utf16.isHighSurrogate, Utf16.isLowSurrogate, Bool.or_eq_false_iff,
    Bool.and_eq_false_iff, decide_eq_false_iff_not]
  omega

/-- White space units are those of white space characters. -/
theorem units_of_spaces {units : List UInt16}
    (h : ∀ u ∈ units, TypeScript.isWhiteSpace u = true) :
    ∃ cs : List Char, cs.flatMap Utf16.encodeChar = units ∧ ∀ c ∈ cs, isJsSpace c = true := by
  refine ⟨units.map fun u => Char.ofNat u.toNat, ?_, ?_⟩
  · induction units with
    | nil => rfl
    | cons u units ih =>
      have hu := not_surrogate_of_isWhiteSpace (h u List.mem_cons_self)
      rw [List.map_cons, List.flatMap_cons, Utf16.encodeChar_scalar hu,
        ih fun v hv => h v (List.mem_cons_of_mem _ hv)]
      rfl
  · intro c hc
    obtain ⟨u, hu, rfl⟩ := List.mem_map.mp hc
    have hspace := h u hu
    have hnat := Utf16.ofNat_toNat_of_not_surrogate (not_surrogate_of_isWhiteSpace hspace)
    rw [isWhiteSpace_iff] at hspace
    rw [isJsSpace_iff, hnat]
    exact hspace

theorem spaces_of_units {cs : List Char} (h : ∀ c ∈ cs, isJsSpace c = true) :
    ∀ u ∈ cs.flatMap Utf16.encodeChar, TypeScript.isWhiteSpace u = true := by
  intro u hu
  obtain ⟨c, hc, hu⟩ := List.mem_flatMap.mp hu
  have hspace := h c hc
  rw [isJsSpace, Bool.and_eq_true, decide_eq_true_eq] at hspace
  rw [Utf16.encodeChar, if_pos hspace.1, List.mem_singleton] at hu
  rw [hu]
  exact hspace.2

theorem js_trim_eq_ms_iff (body : String) :
    TypeScript.trim (TypeScript.js body) = TypeScript.js msExpectedBody ↔
      Trim.Padded isJsSpace msExpectedBody.toList body.toList := by
  have hne : TypeScript.js msExpectedBody ≠ [] := by decide
  have hstart : Trim.StartsOutside TypeScript.isWhiteSpace (TypeScript.js msExpectedBody) := by
    intro u hu
    cases hu
    decide
  have hend : Trim.EndsOutside TypeScript.isWhiteSpace (TypeScript.js msExpectedBody) := by
    intro u hu
    cases hu
    decide
  change Trim.trim TypeScript.isWhiteSpace (TypeScript.js body) = _ ↔ _
  rw [Trim.trim_eq_iff hne hstart hend]
  constructor
  · rintro ⟨x, y, hbody, hx, hy⟩
    obtain ⟨a, rfl, ha⟩ := units_of_spaces hx
    obtain ⟨b, rfl, hb⟩ := units_of_spaces hy
    refine ⟨a, b, ?_, ha, hb⟩
    have hunits : Utf16.encode (String.ofList (a ++ msExpectedBody.toList ++ b)) =
        a.flatMap Utf16.encodeChar ++ TypeScript.js msExpectedBody ++
          b.flatMap Utf16.encodeChar := by
      rw [Utf16.encode, String.toList_ofList, List.flatMap_append, List.flatMap_append]
      rfl
    rw [Utf16.encode_injective (hbody.trans hunits.symm), String.toList_ofList]
  · rintro ⟨a, b, hbody, ha, hb⟩
    refine ⟨_, _, ?_, spaces_of_units ha, spaces_of_units hb⟩
    rw [TypeScript.js, Utf16.encode, hbody, List.flatMap_append, List.flatMap_append]
    rfl

/-- Where all three trim the padding, there is no differing character in it. -/
theorem uniform_of_padded {a b : List Char} {body : String} {r : Char → Bool}
    (hM : r 'M' = false) (hbody : body.toList = a ++ msExpectedBody.toList ++ b)
    (ha : ∀ c ∈ a, r c = true)
    (hrust : Trim.Padded isWhitespace msExpectedBody.toList body.toList)
    (hjs : Trim.Padded isJsSpace msExpectedBody.toList body.toList) :
    ∀ c ∈ a ++ b, c ∉ differing := by
  have hplace {q : Char → Bool} (hq : q 'M' = false)
      (hpadded : Trim.Padded q msExpectedBody.toList body.toList) : ∀ c ∈ a ++ b, q c = true := by
    obtain ⟨x, y, hxy, hx, hy⟩ := hpadded
    have hstart {s : Char → Bool} (hs : s 'M' = false) :
        Trim.StartsOutside s msExpectedBody.toList := by
      intro c hc
      cases hc
      exact hs
    obtain ⟨rfl, rfl⟩ := Trim.padding_unique (by decide) (hstart hM) (hstart hq) ha hx
      (hbody.symm.trans hxy)
    intro c hc
    rcases List.mem_append.mp hc with hc | hc
    · exact hx c hc
    · exact hy c hc
  intro c hc
  exact not_differing (hplace (by decide) hrust c hc) (hplace (by decide) hjs c hc)

/-- Padding without a differing character is padding to every runtime. -/
theorem padded_of_uniform {body : String} {p q : Char → Bool}
    (hpq : ∀ c, c ∉ differing → p c = q c)
    (huniform : ∀ a b, body.toList = a ++ msExpectedBody.toList ++ b →
      (∀ c ∈ a ++ b, p c = true) → ∀ c ∈ a ++ b, c ∉ differing)
    (h : Trim.Padded p msExpectedBody.toList body.toList) :
    Trim.Padded q msExpectedBody.toList body.toList := by
  obtain ⟨a, b, hbody, ha, hb⟩ := h
  have hall : ∀ c ∈ a ++ b, p c = true := by
    intro c hc
    rcases List.mem_append.mp hc with hc | hc
    · exact ha c hc
    · exact hb c hc
  have hsame := huniform a b hbody hall
  refine ⟨a, b, hbody, ?_, ?_⟩
  · intro c hc
    rw [← hpq c (hsame c (List.mem_append_left _ hc))]
    exact ha c hc
  · intro c hc
    rw [← hpq c (hsame c (List.mem_append_right _ hc))]
    exact hb c hc

/-- The three trims find the body alike where the padding is uniform. -/
theorem trims_agree_iff (status : ℕ) (body : String) :
    (200 ≤ status ∧ status ≤ 299 →
      (Python.strip body = msExpectedBody ↔ AgentExchange.trim body = msExpectedBody) ∧
      (TypeScript.trim (TypeScript.js body) = TypeScript.js msExpectedBody ↔
        AgentExchange.trim body = msExpectedBody)) ↔ Uniform (.response status body) := by
  rw [trim_eq_ms_iff, strip_eq_ms_iff, js_trim_eq_ms_iff, Uniform]
  apply forall_congr'
  intro hstatus
  constructor
  · rintro ⟨hpython, hjs⟩ a b hbody hpadding
    have hleft {r : Char → Bool} (hr : ∀ c ∈ a ++ b, r c = true) : ∀ c ∈ a, r c = true :=
      fun c hc => hr c (List.mem_append_left _ hc)
    have hright {r : Char → Bool} (hr : ∀ c ∈ a ++ b, r c = true) : ∀ c ∈ b, r c = true :=
      fun c hc => hr c (List.mem_append_right _ hc)
    rcases hpadding with h | h | h
    · have hrust : Trim.Padded isWhitespace msExpectedBody.toList body.toList :=
        ⟨a, b, hbody, hleft h, hright h⟩
      exact uniform_of_padded (by decide) hbody (hleft h) hrust (hjs.mpr hrust)
    · have hrust := hpython.mp ⟨a, b, hbody, hleft h, hright h⟩
      exact uniform_of_padded (by decide) hbody (hleft h) hrust (hjs.mpr hrust)
    · have hunits : Trim.Padded isJsSpace msExpectedBody.toList body.toList :=
        ⟨a, b, hbody, hleft h, hright h⟩
      exact uniform_of_padded (by decide) hbody (hleft h) (hjs.mp hunits) hunits
  · intro huniform
    refine ⟨⟨?_, ?_⟩, ⟨?_, ?_⟩⟩
    · apply padded_of_uniform
      · exact fun c hc => (spaces_agree hc).1.symm
      · exact fun a b hbody h => huniform a b hbody (.inr (.inl h))
    · apply padded_of_uniform
      · exact fun c hc => (spaces_agree hc).1
      · exact fun a b hbody h => huniform a b hbody (.inl h)
    · apply padded_of_uniform
      · exact fun c hc => (spaces_agree hc).2.symm
      · exact fun a b hbody h => huniform a b hbody (.inr (.inr h))
    · apply padded_of_uniform
      · exact fun c hc => (spaces_agree hc).2
      · exact fun a b hbody h => huniform a b hbody (.inl h)

/-! ## The detectors -/

section Probes

variable (net : String → Outcome) (url : String)

theorem python_judges_apple :
    Judges .apple (net url)
      (Python.Captive.probeApple (fun url => pythonAnswer (net url)) url) := by
  rw [Python.Captive.probeApple]
  cases net url with
  | failure => exact judges_failure _
  | response status body => exact judges_body (by decide) decide_eq_true_iff

theorem python_judges_google :
    Judges .google (net url)
      (Python.Captive.probeGoogle (fun url => pythonAnswer (net url)) url) := by
  rw [Python.Captive.probeGoogle]
  cases net url with
  | failure => exact judges_failure _
  | response status body =>
    have hjudges := judges_google_status status body
    simp only [Bool.or_eq_true, decide_eq_true_eq, ite_or] at hjudges
    exact hjudges

theorem redirect_eq (status : ℕ) :
    (decide (300 ≤ status) && decide (status < 400)) = Net.Captive.isRedirection status := by
  rw [Bool.eq_iff_iff]
  simp only [Net.Captive.isRedirection, Bool.and_eq_true, decide_eq_true_eq]
  omega

theorem includes_iff {fragment : String} (hne : fragment.toList ≠ [])
    (hascii : ∀ c ∈ fragment.toList, c.toNat < 128) (body : String) :
    TypeScript.Captive.includes (TypeScript.js body) (TypeScript.js fragment) = true ↔
      fragment.toList <:+: body.toList := by
  rw [TypeScript.Captive.includes, decide_eq_true_iff]
  exact Utf16.infix_flatMap_encodeChar hascii hne

theorem typeScript_judges_apple :
    Judges .apple (net url)
      (TypeScript.Captive.probeApple (fun url => typeScriptAnswer (net url)) url) := by
  rw [TypeScript.Captive.probeApple]
  cases net url with
  | failure => exact judges_failure _
  | response status body =>
    have hascii : appleExpectedBodyFragment.toList.all (·.toNat < 128) = true := by decide
    have hbody : _ ↔ BodyExpected .apple body := includes_iff (by decide)
      (fun c hc => of_decide_eq_true (List.all_eq_true.mp hascii c hc)) body
    simp only [typeScriptAnswer, redirect_eq]
    exact judges_body (by decide) hbody

theorem typeScript_judges_google :
    Judges .google (net url)
      (TypeScript.Captive.probeGoogle (fun url => typeScriptAnswer (net url)) url) := by
  rw [TypeScript.Captive.probeGoogle]
  cases net url with
  | failure => exact judges_failure _
  | response status body =>
    have hjudges := judges_google_status status body
    simp only [Bool.or_eq_true, decide_eq_true_eq, ite_or] at hjudges
    simp only [typeScriptAnswer, redirect_eq]
    exact hjudges

variable {net}

theorem python_probeMs {status : ℕ} {body : String} (h : net url = .response status body) :
    Python.Captive.probeMs (fun url => pythonAnswer (net url)) url =
      bodyVerdict (decide (Python.strip body = msExpectedBody)) status := by
  rw [Python.Captive.probeMs, h]
  simp only [pythonAnswer, bodyVerdict, decide_eq_true_eq]
  rfl

theorem typeScript_probeMs {status : ℕ} {body : String} (h : net url = .response status body) :
    TypeScript.Captive.probeMs (fun url => typeScriptAnswer (net url)) url =
      bodyVerdict (decide (TypeScript.trim (TypeScript.js body) = TypeScript.js msExpectedBody))
        status := by
  rw [TypeScript.Captive.probeMs, h]
  simp only [typeScriptAnswer, bodyVerdict, decide_eq_true_eq, redirect_eq]
  rfl

end Probes

variable {net : String → Outcome}

theorem python_agrees_iff {status : ℕ} {body : String}
    (h : net msUrl = .response status body) :
    Python.Captive.detectNetworkState (fun url => pythonAnswer (net url)) =
        stateOf (net appleUrl) (net googleUrl) (net msUrl) ↔
      ShowsPortal .apple (net appleUrl) ∨ ShowsPortal .google (net googleUrl) ∨
        (200 ≤ status ∧ status ≤ 299 →
          (Python.strip body = msExpectedBody ↔ AgentExchange.trim body = msExpectedBody)) := by
  have hiff := consensus_bodyVerdict_iff (python_judges_apple net appleUrl)
    (python_judges_google net googleUrl) status body
    (decide (Python.strip body = msExpectedBody))
  rw [← python_probeMs msUrl h, ← h, decide_eq_true_iff] at hiff
  exact hiff

theorem typeScript_agrees_iff {status : ℕ} {body : String}
    (h : net msUrl = .response status body) :
    TypeScript.Captive.detectNetworkState (fun url => typeScriptAnswer (net url)) =
        stateOf (net appleUrl) (net googleUrl) (net msUrl) ↔
      ShowsPortal .apple (net appleUrl) ∨ ShowsPortal .google (net googleUrl) ∨
        (200 ≤ status ∧ status ≤ 299 →
          (TypeScript.trim (TypeScript.js body) = TypeScript.js msExpectedBody ↔
            AgentExchange.trim body = msExpectedBody)) := by
  have hiff := consensus_bodyVerdict_iff (typeScript_judges_apple net appleUrl)
    (typeScript_judges_google net googleUrl) status body
    (decide (TypeScript.trim (TypeScript.js body) = TypeScript.js msExpectedBody))
  rw [← typeScript_probeMs msUrl h, ← h, decide_eq_true_iff] at hiff
  exact hiff

/-- A probe that fails is judged alike. -/
theorem agree_of_failure (h : net msUrl = .failure) : Agree net := by
  have hpython : Python.Captive.probeMs (fun url => pythonAnswer (net url)) msUrl = .failed := by
    rw [Python.Captive.probeMs, h]
    rfl
  have htypeScript :
      TypeScript.Captive.probeMs (fun url => typeScriptAnswer (net url)) msUrl = .failed := by
    rw [TypeScript.Captive.probeMs, h]
    rfl
  have hfailed (v : ProbeVerdict) (hv : v = .failed) : Judges .ms (net msUrl) v := by
    rw [hv, h]
    exact judges_failure _
  constructor
  · exact detectNetworkState_eq_stateOf net
  · exact consensus_eq_stateOf (python_judges_apple net _) (python_judges_google net _)
      (hfailed _ hpython)
  · exact consensus_eq_stateOf (typeScript_judges_apple net _) (typeScript_judges_google net _)
      (hfailed _ htypeScript)

/-- The three detectors return the state the outcomes stand for just where Apple's or Google's
probe shows the portal or the padding of Microsoft's body is uniform. -/
theorem captive_portal_agrees_iff (net : String → Outcome) :
    Agree net ↔ ShowsPortal .apple (net appleUrl) ∨ ShowsPortal .google (net googleUrl) ∨
      Uniform (net msUrl) := by
  cases h : net msUrl with
  | failure => exact iff_of_true (agree_of_failure h) (.inr (.inr trivial))
  | response status body =>
    rw [← trims_agree_iff]
    have hpython := python_agrees_iff h
    have htypeScript := typeScript_agrees_iff h
    constructor
    · intro hagree
      rcases hpython.mp hagree.python with happle | hgoogle | hstrip
      · exact .inl happle
      · exact .inr (.inl hgoogle)
      · rcases htypeScript.mp hagree.typeScript with happle | hgoogle | htrim
        · exact .inl happle
        · exact .inr (.inl hgoogle)
        · exact .inr (.inr fun hstatus => ⟨hstrip hstatus, htrim hstatus⟩)
    · intro hportal
      refine ⟨?_, hpython.mpr ?_, htypeScript.mpr ?_⟩
      · rw [detectNetworkState_eq_stateOf, h]
      · exact hportal.imp_right (Or.imp_right fun htrims hstatus => (htrims hstatus).1)
      · exact hportal.imp_right (Or.imp_right fun htrims hstatus => (htrims hstatus).2)

/-- Where all is as expected, but the body ends in a next-line character, Python and the crate
find the network direct and TypeScript a portal. -/
theorem captive_portal_next_line :
    ∃ net : String → Outcome,
      Net.Captive.detectNetworkState (fun url => (net url).answer) = .direct ∧
      Python.Captive.detectNetworkState (fun url => pythonAnswer (net url)) = .direct ∧
      TypeScript.Captive.detectNetworkState (fun url => typeScriptAnswer (net url)) =
        .captivePortal := by
  refine ⟨fun url => if url = appleUrl then .response 200 "Success"
    else if url = googleUrl then .response 204 "" else .response 200 "Microsoft NCSI\u0085", ?_⟩
  decide +kernel

end Sdk.Captive

end AgentExchange
