import AgentExchange.ControlPlane.Directory
import AgentExchange.Core.AgentId
import AgentExchange.Identity.Native
import AgentExchange.Mcp.Recipient
import AgentExchange.Sdk.WireAgreement

/-!
# Native agent ids

Four places check the labels of a native agent and put its id together. They accept the same
labels and make the same id, and labels, which have neither separator in them, can be told from
the id again.
-/
namespace AgentExchange.Sdk

open Library
open TypeScript (js)

/-- A letter, a digit, `-` or `_`. -/
def isLabelChar (c : Char) : Bool := isAsciiAlphanumeric c || c = '-' || c = '_'

structure IsLabel (s : String) : Prop where
  nonempty : s ≠ ""
  length_le : s.toList.length ≤ 64
  chars : ∀ c ∈ s.toList, isLabelChar c = true

theorem isGraphic_of_isLabelChar {c : Char} (h : isLabelChar c = true) :
    AgentId.isGraphic c = true := by
  simp only [isLabelChar, isAsciiAlphanumeric, Bool.or_eq_true, Bool.and_eq_true, decide_eq_true_eq,
    Char.le_def, UInt32.le_iff_toNat_le] at h
  simp only [AgentId.isGraphic, Char.toNat, Bool.and_eq_true, decide_eq_true_eq]
  rcases h with (((⟨hlo, hhi⟩ | ⟨hlo, hhi⟩) | ⟨hlo, hhi⟩) | rfl) | rfl
  · exact ⟨hlo.trans' (by decide), hhi.trans (by decide)⟩
  · exact ⟨hlo.trans' (by decide), hhi.trans (by decide)⟩
  · exact ⟨hlo.trans' (by decide), hhi.trans (by decide)⟩
  · decide
  · decide

theorem isAscii_of_isLabelChar {c : Char} (h : isLabelChar c = true) : isAscii c = true :=
  (AgentId.isGraphic_iff.mp (isGraphic_of_isLabelChar h)).1

/-! ## The validators -/

/-- In bytes or in characters, the length of a label is the same. -/
theorem isLabel_iff_bytes {s : String} :
    IsLabel s ↔ s ≠ "" ∧ s.utf8ByteSize ≤ 64 ∧ ∀ c ∈ s.toList, isLabelChar c = true := by
  have hsize (hall : ∀ c ∈ s.toList, isLabelChar c = true) : s.utf8ByteSize = s.toList.length :=
    utf8ByteSize_of_isAscii fun c hc => isAscii_of_isLabelChar (hall c hc)
  constructor
  · intro h
    refine ⟨h.nonempty, ?_, h.chars⟩
    rw [hsize h.chars]
    exact h.length_le
  · intro h
    obtain ⟨hne, hlen, hall⟩ := h
    rw [hsize hall] at hlen
    exact ⟨hne, hlen, hall⟩

theorem native_validateLabel_iff {s field : String} :
    Identity.Native.validateLabel s field = .ok () ↔ IsLabel s := by
  have hbad : firstBadChar (fun c => !(isAsciiAlphanumeric c || c = '-' || c = '_')) s = none ↔
      ∀ c ∈ s.toList, isLabelChar c = true := by
    rw [firstBadChar_eq_none_iff]
    simp only [Bool.not_eq_false']
    rfl
  rw [isLabel_iff_bytes, ← hbad, Identity.Native.validateLabel]
  by_cases hempty : s = ""
  · simp [hempty]
  rw [if_neg (by simpa using hempty)]
  by_cases hlen : s.utf8ByteSize ≤ 64
  · rw [if_neg (by omega)]
    cases hfirst : firstBadChar (fun c => !(isAsciiAlphanumeric c || c = '-' || c = '_')) s with
    | none => simp [hempty, hlen]
    | some p => simp
  · rw [if_pos (by omega)]
    simp [hlen]

theorem register_validateLabel_iff {s field : String} :
    ControlPlane.validateLabel s field = .ok () ↔ IsLabel s := by
  have hchars : (s.toList.all fun c => isAsciiAlphanumeric c || c = '-' || c = '_') = true ↔
      ∀ c ∈ s.toList, isLabelChar c = true := List.all_eq_true
  rw [isLabel_iff_bytes, ← hchars, ControlPlane.validateLabel]
  by_cases hempty : s = ""
  · simp [hempty]
  rw [if_neg (by simpa using hempty)]
  by_cases hlen : s.utf8ByteSize ≤ 64
  · rw [if_neg (by rw [ControlPlane.maxLabelLen]; omega)]
    split_ifs with hall
    · simp only [true_iff]
      exact ⟨hempty, hlen, hall⟩
    · simp [hall]
  · rw [if_pos (by rw [ControlPlane.maxLabelLen]; omega)]
    simp [hlen]

theorem mem_labelAlphabet {c : Char} : c ∈ Python.labelAlphabet ↔ isLabelChar c = true := by
  constructor
  · intro h
    have hall : Python.labelAlphabet.all isLabelChar = true := by decide +kernel
    exact List.all_eq_true.mp hall c h
  · intro h
    have htable : ∀ n < 128, isLabelChar (Char.ofNat n) = true →
        Char.ofNat n ∈ Python.labelAlphabet := by decide +kernel
    have hlt : c.toNat < 128 := by simpa [isAscii] using isAscii_of_isLabelChar h
    have hc := htable c.toNat hlt
    rw [Char.ofNat_toNat] at hc
    exact hc h

theorem python_validateLabel_iff {s field : String} :
    Python.validateLabel s field = .ok () ↔ IsLabel s := by
  have hfind : s.toList.find? (· ∉ Python.labelAlphabet) = none ↔
      ∀ c ∈ s.toList, isLabelChar c = true := by
    simp [List.find?_eq_none, mem_labelAlphabet]
  have hlabel : IsLabel s ↔ s ≠ "" ∧ s.toList.length ≤ 64 ∧ ∀ c ∈ s.toList, isLabelChar c = true :=
    ⟨fun h => ⟨h.nonempty, h.length_le, h.chars⟩, fun h => ⟨h.1, h.2.1, h.2.2⟩⟩
  rw [hlabel, ← hfind, Python.validateLabel, Python.len, Python.labelMax]
  by_cases hempty : s = ""
  · simp [hempty]
  rw [if_neg (by simpa using hempty)]
  by_cases hlen : s.toList.length ≤ 64
  · rw [if_neg (by omega)]
    cases hfirst : s.toList.find? (· ∉ Python.labelAlphabet) with
    | none => simp [hempty, hlen]
    | some c => simp
  · rw [if_pos (by omega)]
    simp [hlen]

theorem isLabelUnits_iff {s : String} :
    (∀ u ∈ js s, TypeScript.isLabelUnit u = true) ↔ ∀ c ∈ s.toList, isLabelChar c = true := by
  apply forall_units_iff
  · decide +kernel
  · intro u hu
    have hlt (v : UInt16) (hv : v.toNat < 128) : ¬u ≤ v := by
      rw [UInt16.le_iff_toNat_le]
      omega
    have hne (v : UInt16) (hv : v.toNat < 128) : u ≠ v := by
      rintro rfl
      omega
    simp [TypeScript.isLabelUnit, hlt 0x7a (by decide), hlt 0x5a (by decide), hlt 0x39 (by decide),
      hne 0x5f (by decide), hne 0x2d (by decide)]
  · intro c hc
    by_contra hlabel
    rw [isAscii_of_isLabelChar (by simpa using hlabel)] at hc
    cases hc

theorem IsLabel.js_length {s : String} (h : IsLabel s) : (js s).length = s.toList.length :=
  Sdk.js_length fun c hc => isAscii_of_isLabelChar (h.chars c hc)

theorem js_validateLabel_iff {s field : String} :
    TypeScript.validateLabel (js s) field = .ok () ↔ IsLabel s := by
  have hunits : (js s).all TypeScript.isLabelUnit = true ↔
      ∀ c ∈ s.toList, isLabelChar c = true := List.all_eq_true.trans isLabelUnits_iff
  rw [TypeScript.validateLabel]
  constructor
  · intro h
    split_ifs at h with hs
    obtain ⟨hpos, hlen, hall⟩ := hs
    have hchars := hunits.mp hall
    rw [Sdk.js_length fun c hc => isAscii_of_isLabelChar (hchars c hc)] at hpos hlen
    refine ⟨?_, hlen, hchars⟩
    rintro rfl
    simp at hpos
  · intro h
    have hpos : s.toList.length ≠ 0 := by simpa using h.nonempty
    have hlen := h.length_le
    rw [if_pos]
    rw [h.js_length]
    exact ⟨by omega, hlen, hunits.mpr h.chars⟩

/-! ## The id -/

/-- The text every one of them puts together. -/
def nativeText (org name fingerprint : String) : String :=
  "spize:" ++ org ++ "/" ++ name ++ ":" ++ fingerprint

/-- Six lower-case hexadecimal digits. -/
structure IsFingerprint (s : String) : Prop where
  length_eq : s.toList.length = 6
  digits : ∀ c ∈ s.toList, ∃ n < 16, c = hexDigit n

theorem isFingerprint_hexEncode {bytes : Bytes} (h : bytes.length = 3) :
    IsFingerprint (hexEncode bytes) := by
  constructor
  · rw [hexEncode, String.toList_ofList, List.length_flatMap]
    simp [h]
  · intro c hc
    rw [hexEncode, String.toList_ofList, List.mem_flatMap] at hc
    obtain ⟨b, -, hc⟩ := hc
    have hb := b.toNat_lt
    rcases List.mem_pair.mp hc with rfl | rfl
    · exact ⟨_, by omega, rfl⟩
    · exact ⟨_, by omega, rfl⟩

theorem isGraphic_hexDigit {n : ℕ} (hn : n < 16) : AgentId.isGraphic (hexDigit n) = true := by
  have hall : ∀ n < 16, AgentId.isGraphic (hexDigit n) = true := by decide
  exact hall n hn

namespace IsLabel

variable {s : String}

theorem not_mem (h : IsLabel s) {c : Char} (hc : isLabelChar c = false) : c ∉ s.toList := by
  intro hmem
  rw [h.chars c hmem] at hc
  cases hc

theorem run (h : IsLabel s) : (Regex.run TypeScript.isLabelUnit 1 (some 64)).Matches (js s) := by
  have hpos : s.toList.length ≠ 0 := by simpa using h.nonempty
  have hlen := h.length_le
  refine ⟨?_, ?_, isLabelUnits_iff.mpr h.chars⟩
  · rw [h.js_length]
    omega
  · intro n hn
    cases hn
    rw [h.js_length]
    exact hlen

end IsLabel

theorem IsFingerprint.run {s : String} (h : IsFingerprint s) :
    (Regex.run Mcp.isLowerHexUnit 6 (some 6)).Matches (js s) := by
  have hascii : ∀ c ∈ s.toList, isAscii c = true := by
    intro c hc
    obtain ⟨n, hn, rfl⟩ := h.digits c hc
    exact isAscii_hexDigit hn
  have hlen : (js s).length = 6 := (Sdk.js_length hascii).trans h.length_eq
  refine ⟨hlen.ge, ?_, ?_⟩
  · intro n hn
    cases hn
    exact hlen.le
  · intro u hu
    obtain ⟨c, hc, hu⟩ := List.mem_flatMap.mp hu
    rw [encodeChar_of_isAscii (hascii c hc), List.mem_singleton] at hu
    obtain ⟨n, hn, rfl⟩ := h.digits c hc
    have hall : ∀ n < 16, Mcp.isLowerHexUnit (UInt16.ofNat (hexDigit n).toNat) = true := by decide
    rw [hu]
    exact hall n hn

section NativeText

variable {org name fingerprint : String}

theorem nativeText_toList : (nativeText org name fingerprint).toList =
    "spize:".toList ++ (org.toList ++ '/' :: (name.toList ++ ':' :: fingerprint.toList)) := by
  simp [nativeText]

theorem new_nativeText (horg : IsLabel org) (hname : IsLabel name)
    (hfingerprint : IsFingerprint fingerprint) :
    AgentId.new (nativeText org name fingerprint) = .ok ⟨nativeText org name fingerprint⟩ := by
  apply AgentId.new_of_graphic
  · intro c hc
    simp only [nativeText_toList, List.mem_append, List.mem_cons] at hc
    rcases hc with hc | hc | rfl | hc | rfl | hc
    · have hall : "spize:".toList.all AgentId.isGraphic = true := by decide
      exact List.all_eq_true.mp hall c hc
    · exact isGraphic_of_isLabelChar (horg.chars c hc)
    · decide
    · exact isGraphic_of_isLabelChar (hname.chars c hc)
    · decide
    · obtain ⟨n, hn, rfl⟩ := hfingerprint.digits c hc
      exact isGraphic_hexDigit hn
  · have horglen := horg.length_le
    have hnamelen := hname.length_le
    have hfingerprintlen := hfingerprint.length_eq
    have hstart : "spize:".toList.length = 6 := rfl
    simp only [nativeText_toList, List.length_append, List.length_cons]
    omega
  · rw [nativeText_toList]
    exact List.mem_append_left _ (by decide)

theorem scheme_nativeText : AgentId.scheme ⟨nativeText org name fingerprint⟩ = .spizeNative := by
  have hstart : startsWith "spize:" (nativeText org name fingerprint) = true := by
    apply startsWith_iff.mpr
    refine ⟨org ++ "/" ++ name ++ ":" ++ fingerprint, ?_⟩
    simp only [nativeText, String.append_assoc]
  rw [AgentId.scheme, if_pos hstart]

theorem acceptsRecipient_nativeText (horg : IsLabel org) (hname : IsLabel name)
    (hfingerprint : IsFingerprint fingerprint) :
    Mcp.acceptsRecipient (js (nativeText org name fingerprint)) = true := by
  have hjs : js (nativeText org name fingerprint) = js "spize:" ++ (js org ++ (js "/" ++
      (js name ++ (js ":" ++ js fingerprint)))) := by
    simp only [nativeText, js, Utf16.encode_append, List.append_assoc]
  have hmatches : Mcp.nativeRe.Matches (js (nativeText org name fingerprint)) := by
    rw [hjs]
    apply Regex.Matches.append (Regex.matches_text _)
    apply Regex.Matches.append horg.run
    apply Regex.Matches.append (Regex.matches_text _)
    apply Regex.Matches.append hname.run
    exact Regex.Matches.append (Regex.matches_text _) hfingerprint.run
  have hpos : 1 ≤ (js (nativeText org name fingerprint)).length := by
    rw [hjs, List.length_append]
    have hstart : (js "spize:").length = 6 := by decide
    omega
  rw [Mcp.acceptsRecipient, Bool.and_eq_true, decide_eq_true_eq]
  exact ⟨hpos, Regex.test_iff.mpr (.inl hmatches)⟩

/-- Labels have neither separator in them, so the id says where they end. -/
theorem nativeText_inj {org' name' fingerprint' : String} (horg : IsLabel org) (hname : IsLabel name)
    (horg' : IsLabel org') (hname' : IsLabel name')
    (h : nativeText org name fingerprint = nativeText org' name' fingerprint') :
    org = org' ∧ name = name' ∧ fingerprint = fingerprint' := by
  have hlists := congrArg String.toList h
  rw [nativeText_toList, nativeText_toList] at hlists
  obtain ⟨heq, hrest⟩ := append_sep_inj (horg.not_mem rfl) (horg'.not_mem rfl)
    (List.append_cancel_left hlists)
  obtain ⟨heq', hrest'⟩ := append_sep_inj (hname.not_mem rfl) (hname'.not_mem rfl) hrest
  exact ⟨String.toList_inj.mp heq, String.toList_inj.mp heq', String.toList_inj.mp hrest'⟩

end NativeText

/-! ## The four places -/

section Identities

variable (crypto : Crypto) {org name : String} {secret : Bytes}

/-- The fingerprint of the key of a secret. -/
def fingerprintOf (secret : Bytes) : String :=
  hexEncode ((crypto.sha256 (crypto.publicKey secret)).take 3)

variable {crypto}

theorem native_agentId (hdigest : ∀ m, (crypto.sha256 m).length = 32) (horg : IsLabel org)
    (hname : IsLabel name) :
    Identity.Native.fromSigningKey crypto.publicKey crypto.sha256 org name secret =
      .ok ⟨⟨nativeText org name (fingerprintOf crypto secret)⟩, secret⟩ := by
  have hfingerprint : IsFingerprint (fingerprintOf crypto secret) :=
    isFingerprint_hexEncode (by simp [hdigest])
  have hnew := new_nativeText horg hname hfingerprint
  rw [Identity.Native.fromSigningKey, native_validateLabel_iff.mpr horg,
    native_validateLabel_iff.mpr hname]
  apply except_bind_eq_ok.mpr
  refine ⟨(), rfl, ?_⟩
  apply except_bind_eq_ok.mpr
  refine ⟨(), rfl, ?_⟩
  exact except_bind_eq_ok.mpr ⟨_, hnew, rfl⟩

theorem python_agentId (horg : IsLabel org) (hname : IsLabel name) (hsecret : secret.length = 32) :
    Python.Identity.fromSecret crypto org name secret =
        .ok ⟨org, name, secret, crypto.publicKey secret⟩ ∧
      Python.Identity.agentId crypto ⟨org, name, secret, crypto.publicKey secret⟩ =
        nativeText org name (fingerprintOf crypto secret) := by
  refine ⟨?_, rfl⟩
  rw [Python.Identity.fromSecret, python_validateLabel_iff.mpr horg,
    python_validateLabel_iff.mpr hname, if_neg (not_not.mpr hsecret)]
  rfl

theorem js_agentId (horg : IsLabel org) (hname : IsLabel name) (hsecret : secret.length = 32) :
    TypeScript.Identity.fromSecret crypto (js org) (js name) secret =
        .ok ⟨js org, js name, secret, crypto.publicKey secret⟩ ∧
      TypeScript.Identity.agentId crypto ⟨js org, js name, secret, crypto.publicKey secret⟩ =
        js (nativeText org name (fingerprintOf crypto secret)) := by
  constructor
  · rw [TypeScript.Identity.fromSecret, js_validateLabel_iff.mpr horg,
      js_validateLabel_iff.mpr hname, if_neg (not_not.mpr hsecret)]
    rfl
  · simp only [nativeText, js, Utf16.encode_append, TypeScript.Identity.agentId]
    rfl

end Identities

/-- A registration goes under this id only. -/
def RegistersAs (id : String) : ControlPlane.Op → Prop
  | .insertAgent agentId .. => agentId = id
  | _ => True

theorem register_agentId {env : ControlPlane.Env} {req : ControlPlane.RegisterRequest} {key : Bytes}
    (hkey : hexDecode req.publicKeyHex = .ok key) :
    (ControlPlane.handler env (.register req)).Spec
      (fun _ => RegistersAs (nativeText req.org req.name (hexEncode ((env.sha256 key).take 3))))
      (fun _ _ => True) [] := by
  apply (ControlPlane.register_writes req).mono
  · intro past op hop
    cases op with
    | insertAgent agentId publicKey fingerprint org name =>
      obtain ⟨req', hreq, hdecode, -, hfingerprint, hid, -, -⟩ := hop
      cases hreq
      rw [hkey] at hdecode
      cases hdecode
      rw [RegistersAs, hid, hfingerprint]
      rfl
    | _ => trivial
  · intro past r _
    trivial

/-- The four accept the same labels and make the same id, which is an id of the native scheme, a
recipient for the MCP server, and says what it is made of. -/
theorem native_agent_ids (crypto : Crypto) (env : ControlPlane.Env)
    (hsha : env.sha256 = crypto.sha256) (hdigest : ∀ m, (crypto.sha256 m).length = 32) :
    (∀ s field,
      (Identity.Native.validateLabel s field = .ok () ↔ IsLabel s) ∧
      (ControlPlane.validateLabel s field = .ok () ↔ IsLabel s) ∧
      (Python.validateLabel s field = .ok () ↔ IsLabel s) ∧
      (TypeScript.validateLabel (js s) field = .ok () ↔ IsLabel s)) ∧
    (∀ org name secret, IsLabel org → IsLabel name → secret.length = 32 →
      let id := nativeText org name (fingerprintOf crypto secret)
      (∃ provider, Identity.Native.fromSigningKey crypto.publicKey crypto.sha256 org name secret =
        .ok provider ∧ provider.agentId = ⟨id⟩) ∧
      (∀ req, req.org = org → req.name = name →
        hexDecode req.publicKeyHex = .ok (crypto.publicKey secret) →
        (ControlPlane.handler env (.register req)).Spec (fun _ => RegistersAs id)
          (fun _ _ => True) []) ∧
      (∃ identity, Python.Identity.fromSecret crypto org name secret = .ok identity ∧
        identity.agentId crypto = id) ∧
      (∃ identity, TypeScript.Identity.fromSecret crypto (js org) (js name) secret =
        .ok identity ∧ identity.agentId crypto = js id) ∧
      AgentId.new id = .ok ⟨id⟩ ∧ AgentId.scheme ⟨id⟩ = .spizeNative ∧
      Mcp.acceptsRecipient (js id) = true) ∧
    ∀ org name fingerprint org' name' fingerprint', IsLabel org → IsLabel name → IsLabel org' →
      IsLabel name' → nativeText org name fingerprint = nativeText org' name' fingerprint' →
      org = org' ∧ name = name' ∧ fingerprint = fingerprint' := by
  refine ⟨?_, ?_, ?_⟩
  · intro s field
    exact ⟨native_validateLabel_iff, register_validateLabel_iff, python_validateLabel_iff,
      js_validateLabel_iff⟩
  · intro org name secret horg hname hsecret
    have hfingerprint : IsFingerprint (fingerprintOf crypto secret) :=
      isFingerprint_hexEncode (by simp [hdigest])
    refine ⟨⟨_, native_agentId hdigest horg hname, rfl⟩, ?_, ⟨_, python_agentId horg hname hsecret⟩,
      ⟨_, js_agentId horg hname hsecret⟩, new_nativeText horg hname hfingerprint,
      scheme_nativeText, acceptsRecipient_nativeText horg hname hfingerprint⟩
    intro req horgreq hnamereq hkey
    rw [← horgreq, ← hnamereq]
    have hreq := @register_agentId env req _ hkey
    rw [hsha] at hreq
    exact hreq
  · intro org name fingerprint org' name' fingerprint' horg hname horg' hname' h
    exact nativeText_inj horg hname horg' hname' h

namespace Sample

/-- The digests of the deployment, cut to 32 bytes where the table has none. -/
def digest (m : Bytes) : Bytes := (crypto.sha256 m).take 32

theorem length_digest (m : Bytes) : (digest m).length = 32 := by
  have hlong : 32 ≤ (crypto.sha256 m).length := by
    rcases tabulated_cases 32 _ m with ⟨entry, hentry, -, h⟩ | h
    · have hall : ∀ entry ∈ (ControlPlane.Sample.digests.map fun d =>
          (ControlPlane.Sample.bytesOf d.1, ControlPlane.Sample.bytesOf d.2)) ++
            [(ControlPlane.Sample.bytesOf ControlPlane.Sample.rotateAlice.newPublicKeyHex,
              ControlPlane.Sample.bytesOf newKeyDigest)], 32 ≤ entry.2.length := by decide
      exact (hall entry hentry).trans_eq (congrArg List.length h).symm
    · refine le_trans ?_ (congrArg List.length h).ge
      rw [List.length_append, List.length_replicate]
      omega
  rw [digest, List.length_take]
  omega

end Sample

theorem native_agent_ids_alice :
    (∃ identity, Python.Identity.fromSecret { Sample.crypto with sha256 := Sample.digest }
      "acme" "alice" (List.replicate 32 1) = .ok identity ∧
      identity.agentId { Sample.crypto with sha256 := Sample.digest } = "spize:acme/alice:34750f") ∧
      Mcp.acceptsRecipient (js "spize:acme/alice:34750f") = true := by
  have hids := (native_agent_ids { Sample.crypto with sha256 := Sample.digest }
    { ControlPlane.Sample.env with sha256 := Sample.digest } rfl Sample.length_digest).2.1
    "acme" "alice" (List.replicate 32 1) ⟨by decide, by decide, List.all_eq_true.mp (by decide)⟩
    ⟨by decide, by decide, List.all_eq_true.mp (by decide)⟩ rfl
  have hid : nativeText "acme" "alice" (fingerprintOf
      { Sample.crypto with sha256 := Sample.digest } (List.replicate 32 1)) =
        "spize:acme/alice:34750f" := by decide +kernel
  rw [hid] at hids
  exact ⟨hids.2.2.1, hids.2.2.2.2.2.2⟩

end AgentExchange.Sdk
