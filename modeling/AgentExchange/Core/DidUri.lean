import AgentExchange.Core.Types

/-!
# The grammar of DID URIs

A DID URI is `did:`, a method, a colon, an identifier without `#`, and after a `#` possibly a
fragment. Colons may stand inside the identifier and both characters inside the fragment, so
the first colon and the first `#` are what separates the parts.
-/
namespace AgentExchange

/-- A `method-char` of the W3C grammar. -/
def isMethodChar (c : Char) : Bool := ('a' ≤ c && c ≤ 'z') || ('0' ≤ c && c ≤ '9')

theorem isMethodChar_ne_colon {c : Char} (h : isMethodChar c = true) : c ≠ ':' := by
  rintro rfl
  exact absurd h (by decide)

namespace DidUri

structure WellFormed (uri : DidUri) : Prop where
  method_ne : uri.method ≠ ""
  method_chars : ∀ c ∈ uri.method.toList, isMethodChar c = true
  id_ne : uri.methodSpecificId ≠ ""
  id_plain : '#' ∉ uri.methodSpecificId.toList
  fragment_ne : uri.fragment ≠ some ""

/-- The fragment with the `#` before it. -/
def fragmentText : Option String → String
  | none => ""
  | some f => "#" ++ f

/-- What follows the method and its colon. -/
def tail (uri : DidUri) : String := uri.methodSpecificId ++ fragmentText uri.fragment

/-- The URI put together. -/
def text (uri : DidUri) : String := "did:" ++ uri.method ++ ":" ++ uri.tail

theorem text_eq (uri : DidUri) :
    uri.text = "did:" ++ (uri.method ++ String.singleton ':' ++ uri.tail) := by
  simp only [text, String.append_assoc]
  rfl

/-- What `parse` makes of the text after the method. -/
def splitFragment (afterMethod : String) : String × Option String :=
  match splitOnce '#' afterMethod with
  | some (id, frag) => (id, some frag)
  | none => (afterMethod, none)

theorem splitFragment_eq {afterMethod id : String} {fragment : Option String} :
    splitFragment afterMethod = (id, fragment) ↔
      '#' ∉ id.toList ∧ afterMethod = id ++ fragmentText fragment := by
  unfold splitFragment
  cases hsplit : splitOnce '#' afterMethod with
  | none =>
    have hplain := splitOnce_eq_none.mp hsplit
    constructor
    · intro h
      cases h
      exact ⟨hplain, (String.append_empty).symm⟩
    · intro h
      obtain ⟨hid, rfl⟩ := h
      cases fragment with
      | none => simp [fragmentText]
      | some f => simp [fragmentText] at hplain
  | some parts =>
    obtain ⟨first, rest⟩ := parts
    obtain ⟨hfirst, rfl⟩ := splitOnce_eq_some.mp hsplit
    constructor
    · intro h
      cases h
      refine ⟨hfirst, ?_⟩
      rw [String.append_assoc]
      rfl
    · intro h
      obtain ⟨hid, heq⟩ := h
      cases fragment with
      | none =>
        rw [fragmentText, String.append_empty] at heq
        rw [← heq] at hid
        simp at hid
      | some f =>
        have hsplit' : splitOnce '#' (first ++ String.singleton '#' ++ rest) = some (id, f) := by
          apply splitOnce_eq_some.mpr
          refine ⟨hid, ?_⟩
          rw [heq, fragmentText, String.append_assoc]
          rfl
        rw [hsplit] at hsplit'
        cases hsplit'
        rfl

/-- What `parse` checks once the text is split. -/
def assemble (method : String) (parts : String × Option String) : Option DidUri :=
  if method ≠ "" ∧ (∀ c ∈ method.toList, isMethodChar c = true) ∧ parts.1 ≠ "" ∧
      parts.2 ≠ some "" then
    some ⟨method, parts.1, parts.2⟩
  else none

theorem assemble_eq_some {method : String} {parts : String × Option String} {uri : DidUri} :
    assemble method parts = some uri ↔
      uri.method = method ∧ (uri.methodSpecificId, uri.fragment) = parts ∧ method ≠ "" ∧
        (∀ c ∈ method.toList, isMethodChar c = true) ∧ parts.1 ≠ "" ∧ parts.2 ≠ some "" := by
  unfold assemble
  constructor
  · intro h
    split_ifs at h with hparts
    cases h
    exact ⟨rfl, rfl, hparts⟩
  · intro h
    obtain ⟨rfl, rfl, hparts⟩ := h
    rw [if_pos hparts]

/-- The checks one after the other. -/
theorem assemble_eq (method id : String) (fragment : Option String) :
    assemble method (id, fragment) = (do
      if method.isEmpty then failure
      if !method.toList.all (fun c => ('a' ≤ c && c ≤ 'z') || ('0' ≤ c && c ≤ '9')) then failure
      if id.isEmpty then failure
      if fragment = some "" then failure
      pure ⟨method, id, fragment⟩ : Option DidUri) := by
  have hchars : (method.toList.all fun c =>
      ('a' ≤ c && c ≤ 'z') || ('0' ≤ c && c ≤ '9')) = true ↔
        ∀ c ∈ method.toList, isMethodChar c = true := List.all_eq_true
  simp only [assemble, String.isEmpty_iff, Bool.not_eq_true', ← Bool.not_eq_true, hchars]
  by_cases hmethod : method = ""
  · simp [hmethod]
  by_cases hall : ∀ c ∈ method.toList, isMethodChar c = true
  · by_cases hid : id = ""
    · simp [hid, hmethod]
    · by_cases hfragment : fragment = some ""
      · simp [hfragment, hid, hmethod]
      · rw [if_pos ⟨hmethod, hall, hid, hfragment⟩, if_neg hmethod, if_neg (not_not.mpr hall),
          if_neg hid, if_neg hfragment]
        rfl
  · rw [if_neg (fun h => hall h.2.1), if_neg hmethod, if_pos hall]
    rfl

theorem parse_eq (s : String) :
    parse s = (dropStart "did:" s).bind fun rest =>
      (splitOnce ':' rest).bind fun p => assemble p.1 (splitFragment p.2) := by
  unfold parse
  congr 1
  funext rest
  congr 1
  funext p
  obtain ⟨method, afterMethod⟩ := p
  dsimp only
  rw [splitFragment]
  cases splitOnce '#' afterMethod with
  | none => exact (assemble_eq method afterMethod none).symm
  | some parts => exact (assemble_eq method parts.1 (some parts.2)).symm

/-- The parser accepts exactly the texts of well-formed URIs, and reads back what was put
together. -/
theorem parse_eq_some {s : String} {uri : DidUri} :
    parse s = some uri ↔ uri.WellFormed ∧ s = uri.text := by
  rw [parse_eq]
  constructor
  · intro h
    obtain ⟨rest, hrest, hbind⟩ := Option.bind_eq_some_iff.mp h
    obtain ⟨⟨method, afterMethod⟩, hsplit, hassemble⟩ := Option.bind_eq_some_iff.mp hbind
    obtain ⟨-, rfl⟩ := splitOnce_eq_some.mp hsplit
    obtain ⟨rfl, hparts, hne, hchars, hid, hfragment⟩ := assemble_eq_some.mp hassemble
    obtain ⟨hplain, rfl⟩ := splitFragment_eq.mp hparts.symm
    rw [← hparts] at hid hfragment
    constructor
    · exact ⟨hne, hchars, hid, hplain, hfragment⟩
    · rw [text_eq]
      exact dropStart_eq_some.mp hrest
  · intro h
    obtain ⟨hform, rfl⟩ := h
    have hcolon : ':' ∉ uri.method.toList := by
      intro hmem
      exact isMethodChar_ne_colon (hform.method_chars _ hmem) rfl
    have hparts : splitFragment uri.tail = (uri.methodSpecificId, uri.fragment) :=
      splitFragment_eq.mpr ⟨hform.id_plain, rfl⟩
    apply Option.bind_eq_some_iff.mpr
    refine ⟨_, dropStart_eq_some.mpr uri.text_eq, ?_⟩
    apply Option.bind_eq_some_iff.mpr
    refine ⟨_, splitOnce_eq_some.mpr ⟨hcolon, rfl⟩, ?_⟩
    apply assemble_eq_some.mpr
    exact ⟨rfl, hparts.symm, hform.method_ne, hform.method_chars, by rw [hparts]; exact hform.id_ne,
      by rw [hparts]; exact hform.fragment_ne⟩

theorem text_inj {u v : DidUri} (hu : u.WellFormed) (hv : v.WellFormed) (h : u.text = v.text) :
    u = v := by
  have hparse := parse_eq_some.mpr ⟨hu, rfl⟩
  rw [h, parse_eq_some.mpr ⟨hv, rfl⟩] at hparse
  exact (Option.some.inj hparse).symm

end DidUri

/-- The method of a scheme that is one. -/
def IdScheme.didMethod : IdScheme → Option String
  | .spizeNative => none
  | .didSpize => some "spize"
  | .didEthr => some "ethr"
  | .didWeb => some "web"
  | .didKey => some "key"
  | .unknown => none

namespace AgentId

/-- The scheme of a DID is told from what it starts with. -/
theorem startsWith_of_scheme {id : AgentId} {method : String}
    (h : id.scheme.didMethod = some method) :
    startsWith ("did:" ++ method ++ ":") id.asStr = true := by
  unfold scheme at h
  split_ifs at h with hspize hdid hethr hweb hkey
  · cases h
  · cases h
    exact hdid
  · cases h
    exact hethr
  · cases h
    exact hweb
  · cases h
    exact hkey
  · cases h

theorem not_mem_of_didMethod {scheme : IdScheme} {method : String}
    (h : scheme.didMethod = some method) : ':' ∉ method.toList := by
  cases scheme <;> cases h <;> decide

theorem method_of_scheme {id : AgentId} {method : String} {uri : DidUri}
    (h : id.scheme.didMethod = some method) (hparse : id.asDidUri = some uri) :
    uri.method = method := by
  obtain ⟨hform, htext⟩ := DidUri.parse_eq_some.mp hparse
  obtain ⟨rest, hrest⟩ := startsWith_iff.mp (startsWith_of_scheme h)
  have hcolon : ':' ∉ uri.method.toList := by
    intro hmem
    exact isMethodChar_ne_colon (hform.method_chars _ hmem) rfl
  have heq : uri.method.toList ++ ':' :: uri.tail.toList = method.toList ++ ':' :: rest.toList := by
    have hlists := congrArg String.toList (htext.symm.trans hrest)
    simpa [DidUri.text] using hlists
  exact String.toList_inj.mp (Library.append_sep_inj hcolon (not_mem_of_didMethod h) heq).1

end AgentId

namespace AgentId

/-- The id up to a `#`. -/
def withoutFragment (id : AgentId) : String :=
  String.ofList (id.asStr.toList.takeWhile (· ≠ '#'))

theorem withoutFragment_eq_self {id : AgentId} (h : '#' ∉ id.asStr.toList) :
    id.withoutFragment = id.asStr := by
  have hall : id.asStr.toList.takeWhile (· ≠ '#') = id.asStr.toList := by
    apply List.takeWhile_eq_self_iff.mpr
    intro c hc
    simp only [decide_eq_true_eq]
    rintro rfl
    exact h hc
  rw [withoutFragment, hall, String.ofList_toList]

theorem withoutFragment_eq {id : AgentId} {uri : DidUri} (h : id.asDidUri = some uri) :
    id.withoutFragment = "did:" ++ uri.method ++ ":" ++ uri.methodSpecificId := by
  obtain ⟨hform, htext⟩ := DidUri.parse_eq_some.mp h
  have hplain : ∀ c ∈ ("did:" ++ uri.method ++ ":" ++ uri.methodSpecificId).toList,
      decide (c ≠ '#') = true := by
    intro c hc
    simp only [decide_eq_true_eq]
    rintro rfl
    simp only [String.toList_append, List.mem_append] at hc
    rcases hc with ((hc | hc) | hc) | hc
    · exact absurd hc (by decide)
    · exact absurd (hform.method_chars _ hc) (by decide)
    · exact absurd hc (by decide)
    · exact hform.id_plain hc
  have hsplit : id.asStr.toList = ("did:" ++ uri.method ++ ":" ++ uri.methodSpecificId).toList ++
      (DidUri.fragmentText uri.fragment).toList := by
    rw [htext, DidUri.text, DidUri.tail, ← String.toList_append, ← String.append_assoc]
  have hfragment : (DidUri.fragmentText uri.fragment).toList.takeWhile (· ≠ '#') = [] := by
    cases uri.fragment with
    | none => rfl
    | some f => simp [DidUri.fragmentText]
  rw [withoutFragment, hsplit, List.takeWhile_append_of_pos hplain, hfragment, List.append_nil,
    String.ofList_toList]

end AgentId

/-- The parser accepts exactly the grammar, the parts of a text are unique and put together give
it back, and the method is the one the scheme names. -/
theorem did_uri_grammar :
    (∀ s uri, DidUri.parse s = some uri ↔ uri.WellFormed ∧ s = uri.text) ∧
    (∀ u v : DidUri, u.WellFormed → v.WellFormed → u.text = v.text → u = v) ∧
    (∀ s uri, DidUri.parse s = some uri → uri.text = s) ∧
    ∀ (id : AgentId) method uri, id.scheme.didMethod = some method →
      id.asDidUri = some uri → uri.method = method := by
  constructor
  · intro s uri
    exact DidUri.parse_eq_some
  constructor
  · intro u v hu hv h
    exact DidUri.text_inj hu hv h
  constructor
  · intro s uri h
    exact (DidUri.parse_eq_some.mp h).2.symm
  · intro id method uri hscheme hparse
    exact AgentId.method_of_scheme hscheme hparse

end AgentExchange
