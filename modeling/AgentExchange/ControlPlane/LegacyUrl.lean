import AgentExchange.ControlPlane.Insertions
import AgentExchange.Sdk.Fallback

/-!
# The tunnel URL kept for old SDKs

A row made from `reachable_at` also carries one URL, for SDKs that know no list: that of the
first healthy endpoint which is https. The newer SDKs sort by priority before they dial. The
two agree if and only if the first https endpoint outranks those with another URL.
-/
namespace AgentExchange.ControlPlane

open Library Wire

def isHttps (ep : Endpoint) : Bool := startsWith "https://" ep.url

def httpsEndpoints (healthy : List Endpoint) : List Endpoint := healthy.filter isHttps

/-- The first of the https endpoints whose priority value is the lowest. -/
noncomputable def preferredHttps (healthy : List Endpoint) : Option Endpoint :=
  (httpsEndpoints healthy).argmin (·.priority.toInt)

/-- What the Python SDK reads of an endpoint. -/
structure ReadByPython (ep : Endpoint) (p : Python.Endpoint) : Prop where
  kind : p.kind = ep.kind
  url : p.url = ep.url
  priority : p.priority = ep.priority.toInt

/-- What the TypeScript SDK reads of an endpoint. -/
structure ReadByTypeScript (ep : Endpoint) (t : TypeScript.RankedEndpoint) : Prop where
  kind : t.kind = TypeScript.js ep.kind
  url : t.url = TypeScript.js ep.url
  rank : t.rank = ep.priority

/-- The URL for old SDKs is that of the endpoint a newer one dials first among the https ones. -/
structure LegacyUrlRanked (healthy : List Endpoint) (tunnelUrl : Option String) : Prop where
  lowest : tunnelUrl = (preferredHttps healthy).map (·.url)
  null : tunnelUrl = none ↔ ∀ ep ∈ healthy, isHttps ep = false
  python : ∀ ps, List.Forall₂ ReadByPython healthy ps →
    ((Python.sortByPriority ps).find? fun p => startsWith "https://" p.url).map (·.url) = tunnelUrl
  typescript : ∀ ts, List.Forall₂ ReadByTypeScript healthy ts →
    ((TypeScript.sortByPriority ts).find? fun t => (TypeScript.js "https://").isPrefixOf t.url).map
      (·.url) = tunnelUrl.map TypeScript.js

/-- Each https endpoint with another URL than the first is outranked by one with that URL: by a
lower priority value, or by an equal one further in front. -/
def FirstOutranks (healthy : List Endpoint) : Prop :=
  ∀ first ∈ (httpsEndpoints healthy).head?, ∀ before ep after,
    httpsEndpoints healthy = before ++ ep :: after → ep.url ≠ first.url →
    ∃ twin ∈ httpsEndpoints healthy, twin.url = first.url ∧
      (twin.priority.toInt < ep.priority.toInt ∨
        twin ∈ before ∧ twin.priority.toInt ≤ ep.priority.toInt)

theorem legacyTunnelUrl_eq (healthy : List Endpoint) :
    legacyTunnelUrl healthy = (httpsEndpoints healthy).head?.map (·.url) := by
  rw [legacyTunnelUrl, httpsEndpoints, List.head?_filter]
  rfl

theorem preferredHttps_eq_none {healthy : List Endpoint} :
    preferredHttps healthy = none ↔ ∀ ep ∈ healthy, isHttps ep = false := by
  simp [preferredHttps, httpsEndpoints, List.argmin_eq_none, List.filter_eq_nil_iff]

/-! ## What the SDKs dial first -/

/-- A reader that keeps the order of the priorities finds the same endpoint first. -/
theorem map_find?_mergeSort {τ υ : Type} {R : Endpoint → τ → Prop} {le : τ → τ → Bool}
    {https : τ → Bool} {url : Endpoint → υ} {url' : τ → υ}
    (hle : ∀ a b a' b', R a b → R a' b' → decide (a.priority.toInt ≤ a'.priority.toInt) = le b b')
    (hhttps : ∀ a b, R a b → isHttps a = https b) (hurl : ∀ a b, R a b → url' b = url a)
    {healthy : List Endpoint} {ts : List τ} (h : List.Forall₂ R healthy ts) :
    ((ts.mergeSort le).find? https).map url' = (preferredHttps healthy).map url := by
  have hsort : IsStableSort (·.priority.toInt) healthy
      (healthy.mergeSort fun a b => decide (a.priority.toInt ≤ b.priority.toInt)) :=
    isStableSort_mergeSort (by simp) healthy
  have hrel := forall₂_find? hhttps (forall₂_mergeSort hle h)
  rw [hsort.find?_eq_argmin] at hrel
  unfold preferredHttps httpsEndpoints
  revert hrel
  generalize (healthy.filter isHttps).argmin (·.priority.toInt) = preferred
  generalize (ts.mergeSort le).find? https = dialled
  rintro (hread | _)
  · exact congrArg some (hurl _ _ hread)
  · rfl

theorem python_dials {healthy : List Endpoint} {ps : List Python.Endpoint}
    (h : List.Forall₂ ReadByPython healthy ps) :
    ((Python.sortByPriority ps).find? fun p => startsWith "https://" p.url).map (·.url) =
      (preferredHttps healthy).map (·.url) :=
  map_find?_mergeSort (fun _ _ _ _ hb hb' => by rw [hb.priority, hb'.priority])
    (fun _ _ hb => by rw [hb.url, isHttps]) (fun _ _ hb => hb.url) h

theorem isPrefixOf_js_https (url : String) :
    (TypeScript.js "https://").isPrefixOf (TypeScript.js url) = startsWith "https://" url :=
  Utf16.isPrefixOf_encode (by simp)

theorem typescript_dials {healthy : List Endpoint} {ts : List TypeScript.RankedEndpoint}
    (h : List.Forall₂ ReadByTypeScript healthy ts) :
    ((TypeScript.sortByPriority ts).find? fun t =>
        (TypeScript.js "https://").isPrefixOf t.url).map (·.url) =
      (preferredHttps healthy).map fun ep => TypeScript.js ep.url :=
  map_find?_mergeSort
    (fun _ _ _ _ hb hb' => by rw [TypeScript.sortByPriority_le, hb.rank, hb'.rank])
    (fun _ _ hb => by rw [hb.url, isPrefixOf_js_https, isHttps]) (fun _ _ hb => hb.url) h

/-- The other clauses follow from the first. -/
theorem legacyUrlRanked_iff {healthy : List Endpoint} {tunnelUrl : Option String} :
    LegacyUrlRanked healthy tunnelUrl ↔ tunnelUrl = (preferredHttps healthy).map (·.url) := by
  refine ⟨fun h => h.lowest, ?_⟩
  rintro rfl
  refine ⟨rfl, ?_, fun ps hps => python_dials hps, fun ts hts => ?_⟩
  · rw [Option.map_eq_none_iff, preferredHttps_eq_none]
  · rw [typescript_dials hts, Option.map_map]
    rfl

/-! ## When the first is the preferred one -/

section Position

variable {α : Type} [DecidableEq α] {x y : α} {before after : List α}

theorem idxOf_le_length : (before ++ x :: after).idxOf x ≤ before.length := by
  by_cases hx : x ∈ before
  · rw [List.idxOf_append_of_mem hx]
    exact (List.idxOf_lt_length_of_mem hx).le
  · rw [List.idxOf_append_of_notMem hx, List.idxOf_cons_self, Nat.add_zero]

theorem mem_of_idxOf_le (hne : y ≠ x) (h : (before ++ y :: after).idxOf x ≤ before.length) :
    x ∈ before := by
  by_contra hx
  rw [List.idxOf_append_of_notMem hx, List.idxOf_cons_ne _ hne] at h
  omega

end Position

theorem firstOutranks_iff (healthy : List Endpoint) :
    legacyTunnelUrl healthy = (preferredHttps healthy).map (·.url) ↔ FirstOutranks healthy := by
  rw [legacyTunnelUrl_eq, preferredHttps, FirstOutranks]
  generalize httpsEndpoints healthy = https
  cases hmin : https.argmin (·.priority.toInt) with
  | none =>
    obtain rfl := List.argmin_eq_none.mp hmin
    simp
  | some least =>
    obtain ⟨hmem, hle, hfirst⟩ := List.argmin_eq_some_iff.mp hmin
    obtain ⟨first, hhead⟩ : ∃ first, https.head? = some first :=
      Option.isSome_iff_exists.mp (List.isSome_head?.mpr (List.ne_nil_of_mem hmem))
    simp only [hhead, Option.mem_some_iff, forall_eq', Option.map_some, Option.some.injEq]
    constructor
    · rintro hurl before ep after rfl hne
      refine ⟨least, hmem, hurl.symm, ?_⟩
      have hep : ep ∈ before ++ ep :: after := by simp
      rcases lt_or_eq_of_le (hle ep hep) with hlt | heq
      · exact Or.inl hlt
      · have hidx := (hfirst ep hep heq.ge).trans idxOf_le_length
        exact Or.inr ⟨mem_of_idxOf_le (by rintro rfl; exact hne hurl.symm) hidx, heq.le⟩
    · intro houtranks
      by_contra hne
      obtain ⟨before, after, hsplit, hnotin⟩ := List.eq_append_cons_of_mem hmem
      obtain ⟨twin, htwin, -, hlt | ⟨hbefore, htwinle⟩⟩ :=
        houtranks before least after hsplit (Ne.symm hne)
      · exact absurd (hle twin htwin) (not_le.mpr hlt)
      · have hidx := hfirst twin htwin htwinle
        rw [hsplit, List.idxOf_append_of_mem hbefore, List.idxOf_append_of_notMem hnotin,
          List.idxOf_cons_self] at hidx
        have := List.idxOf_lt_length_of_mem hbefore
        omega

/-- In every run, old SDKs are given the endpoint that new ones dial first if and only if the first
https endpoint outranks the others. -/
theorem legacyUrl_ranked_iff {env : Env} {labels : List Label} {past rest : Trace}
    {e : Entry effects State Request} {req : CreateTransferRequest} {row : TransferRow}
    {endpoints : List Endpoint} (he : (run env labels).trace = past ++ e :: rest)
    (hrow : insertion e = some (req, row)) (hreq : req.reachableAt = some endpoints) :
    ∃ results, Validated (Pool.eventsOf past e.task) endpoints results ∧
      row.reachableAt = healthyEndpoints results endpoints ∧
      (LegacyUrlRanked (healthyEndpoints results endpoints) row.tunnelUrl ↔
        FirstOutranks (healthyEndpoints results endpoints)) := by
  obtain ⟨t, rfl, -, hinserts⟩ := inserted he hrow
  cases hinserts with
  | @reachable endpoints' results declaredSize transferId hreq' hsize hresults =>
    obtain rfl : endpoints = endpoints' := Option.some_inj.mp (hreq.symm.trans hreq')
    refine ⟨results, hresults, rfl, ?_⟩
    rw [legacyUrlRanked_iff, ← firstOutranks_iff]
    rfl
  | tunnel _ hreq' => rw [hreq] at hreq'; cases hreq'
  | blob hblob => rw [hblob.1] at hreq; cases hreq

namespace Sample

def backup (priority : Int32) : Endpoint := frpEndpoint "https://backup" priority

def primary (priority : Int32) : Endpoint := frpEndpoint "https://primary" priority

/-- Two endpoints with the given priorities. -/
def announcesTwo (first second : Int32) : List Label :=
  announcesEndpoints [backup first, primary second] 11

def reachableRow (first second : Int32) : TransferRow :=
  { declaredInsert (reachableRequest [backup first, primary second]) ⟨alice⟩ 5 transferId
      (some "https://backup") [backup first, primary second] with
    createdAt := 1700000000000000 }

theorem httpsEndpoints_two (first second : Int32) :
    httpsEndpoints [backup first, primary second] = [backup first, primary second] := by
  simp [httpsEndpoints, isHttps, startsWith, backup, primary, frpEndpoint]

end Sample

open Sample in
theorem legacyUrl_ranked_iff_sorted :
    (reachableRequest [backup 1, primary 5], reachableRow 1 5) ∈
        (run env (announcesTwo 1 5)).trace.filterMap insertion ∧
      LegacyUrlRanked [backup 1, primary 5] (some "https://backup") := by
  have hmem : (reachableRequest [backup 1, primary 5], reachableRow 1 5) ∈
      (run env (announcesTwo 1 5)).trace.filterMap insertion := by
    rw [env_eq]
    decide +kernel
  obtain ⟨e, he, hrow⟩ := List.mem_filterMap.mp hmem
  obtain ⟨past, rest, hsplit⟩ := List.append_of_mem he
  obtain ⟨results, -, hhealthy, hiff⟩ := legacyUrl_ranked_iff hsplit hrow rfl
  rw [← hhealthy] at hiff
  refine ⟨hmem, hiff.mpr fun first hfirst before ep after hsplit hne => ?_⟩
  have hep : ep ∈ httpsEndpoints [backup 1, primary 5] := by
    rw [show httpsEndpoints [backup 1, primary 5] = before ++ ep :: after from hsplit]
    simp
  change first ∈ (httpsEndpoints [backup 1, primary 5]).head? at hfirst
  rw [httpsEndpoints_two] at hep hfirst
  obtain rfl : backup 1 = first := by simpa using hfirst
  rcases List.mem_pair.mp hep with rfl | rfl
  · exact absurd rfl hne
  · refine ⟨backup 1, ?_, rfl, Or.inl (by decide)⟩
    change backup 1 ∈ httpsEndpoints [backup 1, primary 5]
    rw [httpsEndpoints_two]
    exact List.mem_cons_self

/-- The endpoint listed first is stored, although the other one has the lower priority value. -/
theorem unsorted_list_misleads :
    ¬∀ req row, (req, row) ∈ (run Sample.env (Sample.announcesTwo 5 1)).trace.filterMap insertion →
      req.reachableAt.isSome = true → LegacyUrlRanked row.reachableAt row.tunnelUrl := by
  intro h
  have hmem :
      (Sample.reachableRequest [Sample.backup 5, Sample.primary 1], Sample.reachableRow 5 1) ∈
        (run Sample.env (Sample.announcesTwo 5 1)).trace.filterMap insertion := by
    rw [Sample.env_eq]
    decide +kernel
  have hlowest := (h _ _ hmem rfl).lowest
  change some "https://backup" =
    ((httpsEndpoints [Sample.backup 5, Sample.primary 1]).argmin (·.priority.toInt)).map (·.url)
    at hlowest
  rw [Sample.httpsEndpoints_two, List.argmin_cons, List.argmin_singleton] at hlowest
  exact absurd hlowest (by decide)

end AgentExchange.ControlPlane
