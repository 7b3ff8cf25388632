import AgentExchange.Mcp.Server

/-!
# The identity of the MCP server

A failed `aex_init` should leave the identity file and the cached identity as it found them, and
only a call with `overwrite=true` should replace a saved identity. The order of `aex_init` does not
give that: the file is opened and written and the cache set before the registration, which may
fail, and the check reads the cache, not the file. Here is what has to go well for the two
properties to hold of a run.
-/
namespace AgentExchange.Mcp

open Library ControlPlane Sdk
open TypeScript (JsString js)
open Program (lift ensure okOr)

/-- The identity a server that starts now would load. -/
def State.saved (env : Env) (s : State) : Option TypeScript.Identity :=
  s.file.bind fun text => (env.fromText text).toOption

def Request.isInit (r : Request) : Bool :=
  match r.tool with
  | some .init => true
  | _ => false

/-- The call is an `aex_init` that passes `overwrite=true`. -/
def Request.overwrites (r : Request) : Bool :=
  r.isInit && match property r.arguments "overwrite" with
    | some (.bool b) => b
    | _ => false

/-- No step of an `aex_init` that ends in an error changes the file or the cache. -/
def FailedInitLeaves (env : Env) (file : Option Bytes) (labels : List Label) : Prop :=
  ∀ i r e, ((run env file labels).tasks.map Task.request)[i]? = some r → r.isInit = true →
    (run env file labels).outcome i = some (.error e) →
      ∀ done o rest, labels = done ++ .step i o :: rest →
        (run env file (done ++ [.step i o])).shared = (run env file done).shared

/-- A step that takes the private key of a saved identity out of the file is one of a call that
passed `overwrite=true`. -/
def SavedIsKept (env : Env) (file : Option Bytes) (labels : List Label) : Prop :=
  ∀ done i o rest, labels = done ++ .step i o :: rest →
    ∀ identity, (run env file done).shared.saved env = some identity →
      ((run env file (done ++ [.step i o])).shared.saved env).map TypeScript.Identity.privateKey =
          some identity.privateKey ∨
        ∃ r, ((run env file done).tasks.map Task.request)[i]? = some r ∧ r.overwrites = true

def IdentitySafe (env : Env) (file : Option Bytes) (labels : List Label) : Prop :=
  FailedInitLeaves env file labels ∧ SavedIsKept env file labels

/-! ## What has to go well -/

/-- The arguments pass the schema, and the labels make an identity. -/
def accepted (args : Entries) : Bool :=
  match SpizeInitInput.parse args with
  | .ok input => (TypeScript.validateLabel input.org "org").isOk &&
      (TypeScript.validateLabel input.name "name").isOk
  | .error _ => false

def drawsKey (e : Event effects) : Bool :=
  match e.op with
  | .randomPrivateKey => true
  | _ => false

/-- The call's own load has changed the cache. -/
def changesCache : Event effects → Bool
  | ⟨.setCache value, old⟩ => decide (old ≠ value)
  | _ => false

/-- What an operation of an `aex_init` needs of the state and of what happens outside: the file is
opened and written over no saved identity, unless the call overwrites; writing and registering
succeed; and after a load that changed the cache nothing stops the call. -/
def goesWell (env : Env) (r : Request) (past : History) (s : State) (o : Outside) : Op → Bool
  | .setCache value =>
    past.any drawsKey || decide (s.cache = value) || accepted r.arguments
  | .readCache => !past.any changesCache || r.overwrites || s.cache.isNone
  | .mkdir => !past.any changesCache || o.fault.isNone
  | .openFile =>
    (r.overwrites || (s.saved env).isNone) && (!past.any changesCache || o.fault.isNone)
  | .writeFile _ => (r.overwrites || (s.saved env).isNone) && o.fault.isNone
  | .register _ => o.fault.isNone
  | _ => true

/-- If the label takes a step of an `aex_init`, it goes well. -/
def goesWellAt (env : Env) (p : World) : Label → Bool
  | .step i o =>
    match p.tasks[i]? with
    | some ⟨r, some (.perform op _)⟩ =>
      !r.isInit || goesWell env r (Pool.eventsOf p.trace i) p.shared o op
    | _ => true
  | _ => true

theorem goesWell_of_at {env : Env} {p : World} {i : ℕ} {o : Outside} {r : Request} {op : Op}
    {k : op.Answer → Prog Result} (h : goesWellAt env p (.step i o) = true)
    (hi : p.tasks[i]? = some ⟨r, some (.perform op k)⟩) (hr : r.isInit = true) :
    goesWell env r (Pool.eventsOf p.trace i) p.shared o op = true := by
  simpa only [goesWellAt, hi, hr, Bool.not_true, Bool.false_or] using h

/-! ## What one call does -/

/-- The operation changes neither the file nor the cache, as its answer shows. -/
def Quiet : Event effects → Prop
  | ⟨.setCache value, old⟩ => old = value
  | ⟨.openFile, opened⟩ => opened.isOk = false
  | ⟨.writeFile _, _⟩ => False
  | _ => True

def opensOrWrites : Op → Bool
  | .openFile => true
  | .writeFile _ => true
  | _ => false

/-- What `goesWell` leaves of an answer. -/
def WentWell (r : Request) (past : History) : Event effects → Prop
  | ⟨.setCache value, old⟩ =>
    past.any drawsKey = true ∨ old = value ∨ accepted r.arguments = true
  | ⟨.readCache, found⟩ => past.any changesCache = true → r.overwrites = true ∨ found = none
  | ⟨.mkdir, made⟩ => past.any changesCache = true → made.isOk = true
  | ⟨.openFile, opened⟩ => past.any changesCache = true → opened.isOk = true
  | ⟨.writeFile _, written⟩ => written.isOk = true
  | ⟨.register _, registered⟩ => registered.isOk = true
  | _ => True

theorem exec_quiet (env : Env) (s : State) (op : Op) (o : Outside)
    (h : Quiet ⟨op, (exec env s op o).1⟩) : (exec env s op o).2 = s := by
  cases op with
  | setCache value =>
    have hcache : s.cache = value := h
    simp [exec, ← hcache]
  | readFile =>
    simp only [exec]
    split <;> rfl
  | openFile =>
    simp only [exec, Quiet] at h ⊢
    split at h
    · cases h
    · rfl
  | writeFile payload => exact h.elim
  | _ => rfl

theorem wentWell_exec {env : Env} {r : Request} {past : History} {s : State} {o : Outside} {op : Op}
    (h : goesWell env r past s o op = true) : WentWell r past ⟨op, (exec env s op o).1⟩ := by
  cases op with
  | setCache value =>
    simp only [goesWell, Bool.or_eq_true, decide_eq_true_eq, or_assoc] at h
    exact h
  | readCache =>
    intro hchanged
    simp only [goesWell, hchanged, Bool.not_true, Bool.false_or, Bool.or_eq_true,
      Option.isNone_iff_eq_none] at h
    exact h
  | mkdir =>
    intro hchanged
    have hfault : o.fault = none := by simpa [goesWell, hchanged] using h
    simp [exec, Outside.answer, hfault, Except.isOk, Except.toBool]
  | openFile =>
    intro hchanged
    have hfault : o.fault = none := by
      simp only [goesWell, hchanged, Bool.and_eq_true] at h
      simpa using h.2
    simp [exec, hfault, Except.isOk, Except.toBool]
  | writeFile payload =>
    have hfault : o.fault = none := by
      simp only [goesWell, Bool.and_eq_true] at h
      simpa using h.2
    simp [WentWell, exec, hfault, Except.isOk, Except.toBool]
  | register identity =>
    have hfault : o.fault = none := by simpa [goesWell] using h
    simp [WentWell, exec, Outside.answer, hfault, Except.isOk, Except.toBool]
  | _ => trivial

/-- So far the call has neither opened nor written the file. -/
def Reads (past : History) : Prop := ∀ e ∈ past, opensOrWrites e.op = false

theorem reads_snoc {past : History} {e : Event effects} (h : Reads past)
    (he : opensOrWrites e.op = false) : Reads (past ++ [e]) :=
  List.forall_mem_append.mpr ⟨h, List.forall_mem_singleton.mpr he⟩

theorem quiet_or_changes {past : History} (h : Reads past) :
    (∀ e ∈ past, Quiet e) ∨ past.any changesCache = true := by
  apply or_iff_not_imp_right.mpr
  rintro hchanges ⟨op, answer⟩ he
  have hop := h _ he
  have hcache := List.any_eq_false.mp (eq_false_of_ne_true hchanges) _ he
  cases op with
  | setCache value => simpa [changesCache, Quiet] using hcache
  | openFile => cases hop
  | writeFile payload => cases hop
  | _ => trivial

/-- Before a key is drawn, a changed cache comes from a load, which accepted arguments follow. -/
theorem accepted_of_changes {r : Request} {past : History} (hdraws : past.any drawsKey = false)
    (hwell : Successively (WentWell r) past) (hchanges : past.any changesCache = true) :
    accepted r.arguments = true := by
  obtain ⟨⟨op, answer⟩, he, hchanged⟩ := List.any_eq_true.mp hchanges
  obtain ⟨before, after, rfl⟩ := List.mem_iff_append.mp he
  have hbefore := hwell before _ after rfl
  cases op with
  | setCache value =>
    rcases hbefore with hdrawn | hsame | haccepted
    · rw [List.any_append, hdrawn] at hdraws
      cases hdraws
    · simp [changesCache, hsame] at hchanged
    · exact haccepted
  | _ => cases hchanged

theorem overwrite_of_parse {r : Request} {input : SpizeInitInput}
    (hinput : SpizeInitInput.parse r.arguments = .ok input) (h : r.overwrites = true) :
    input.overwrite = true := by
  simp only [Request.overwrites, Bool.and_eq_true] at h
  unfold SpizeInitInput.parse at hinput
  split at hinput
  · rename_i org name overwrite _ _ hflag
    cases hinput
    unfold parseFlag at hflag
    split at hflag
    · rename_i hnone
      simp [hnone] at h
    · rename_i b hsome
      cases hflag
      simpa [hsome] using h.2
    · cases hflag
  · cases hinput

/-- If all went well, an error leaves everything as it was. -/
def FailsQuietly {α : Type} (r : Request) (past : History) (out : Except ToolError α) : Prop :=
  ∀ e, out = .error e → Successively (WentWell r) past → ∀ x ∈ past, Quiet x

theorem failsQuietly_ok {α : Type} (r : Request) (past : History) (a : α) :
    FailsQuietly r past (.ok a) := by
  intro e he
  cases he

theorem failsQuietly_refused {α : Type} {r : Request} {past : History} (hreads : Reads past)
    (hdraws : past.any drawsKey = false) (hrefused : accepted r.arguments = false) (e : ToolError) :
    FailsQuietly r past (.error e : Except ToolError α) := by
  intro _ _ hwell
  rcases quiet_or_changes hreads with hquiet | hchanges
  · exact hquiet
  · rw [accepted_of_changes hdraws hwell hchanges] at hrefused
    cases hrefused

theorem generate_spec (env : Env) (r : Request) {input : SpizeInitInput}
    (hinput : SpizeInitInput.parse r.arguments = .ok input) {past : History} (hreads : Reads past)
    (hdraws : past.any drawsKey = false) :
    (generate env input.org input.name).Spec (fun _ _ => True)
      (fun past' out => FailsQuietly r past' out ∧ Reads past') past := by
  unfold generate
  apply Program.spec_lift_bind.mpr
  constructor
  · intro _ _
    apply Program.spec_lift_bind.mpr
    constructor
    · intro _ _
      refine Program.spec_call_bind.mpr ⟨trivial, fun privateKey => ?_⟩
      exact ⟨failsQuietly_ok r _ _, reads_snoc hreads rfl⟩
    · intro e he
      refine ⟨failsQuietly_refused hreads hdraws ?_ e, hreads⟩
      cases hname : TypeScript.validateLabel input.name "name" with
      | ok u => simp [hname, Except.mapError] at he
      | error e' => simp [accepted, hinput, hname, Except.isOk, Except.toBool]
  · intro e he
    refine ⟨failsQuietly_refused hreads hdraws ?_ e, hreads⟩
    cases horg : TypeScript.validateLabel input.org "org" with
    | ok u => simp [horg, Except.mapError] at he
    | error e' => simp [accepted, hinput, horg, Except.isOk, Except.toBool]

/-- A write that fails has not gone well; what fails before it has changed no file. -/
theorem save_spec (env : Env) (r : Request) (identity : TypeScript.Identity) {past : History}
    (hreads : Reads past) :
    (save env identity).Spec (fun _ _ => True) (FailsQuietly r) past := by
  unfold save
  refine Program.spec_call_bind.mpr ⟨trivial, fun made => Program.spec_lift_bind.mpr ⟨?_, ?_⟩⟩
  · intro _ _
    refine Program.spec_call_bind.mpr ⟨trivial, fun opened => Program.spec_lift_bind.mpr ⟨?_, ?_⟩⟩
    · intro _ _
      refine Program.spec_call_bind.mpr ⟨trivial, fun written => Program.spec_lift.mpr ?_⟩
      rintro e rfl hwell
      have hwritten := (successively_snoc.mp hwell).2
      cases hwritten
    · rintro e rfl _ _ hwell
      obtain ⟨hwell, hopened⟩ := successively_snoc.mp hwell
      have hmade := reads_snoc (e := ⟨.mkdir, made⟩) hreads rfl
      rcases quiet_or_changes hmade with hquiet | hchanges
      · exact List.forall_mem_append.mpr ⟨hquiet, List.forall_mem_singleton.mpr rfl⟩
      · cases hopened hchanges
  · rintro e rfl _ _ hwell
    obtain ⟨hwell, hmade⟩ := successively_snoc.mp hwell
    rcases quiet_or_changes hreads with hquiet | hchanges
    · exact List.forall_mem_append.mpr ⟨hquiet, List.forall_mem_singleton.mpr trivial⟩
    · cases hmade hchanges

theorem init_spec (env : Env) (r : Request) {past : History} (hreads : Reads past)
    (hdraws : past.any drawsKey = false) :
    (init env r.arguments).Spec (fun _ _ => True) (FailsQuietly r) past := by
  unfold init
  refine Program.spec_lift_bind.mpr ⟨?_, ?_⟩
  · intro input hinput
    refine Program.spec_call_bind.mpr ⟨trivial, fun cached => ?_⟩
    have hreads₁ := reads_snoc (e := ⟨.readCache, cached⟩) hreads rfl
    have hdraws₁ : (past ++ [(⟨.readCache, cached⟩ : Event effects)]).any drawsKey = false := by
      simpa [drawsKey] using hdraws
    refine Program.spec_lift_bind.mpr ⟨?_, ?_⟩
    · intro _ _
      apply Program.spec_bind.mpr
      apply (generate_spec env r hinput hreads₁ hdraws₁).mono fun _ _ h => h
      rintro past₂ (e | identity) ⟨hfails, hreads₂⟩
      · exact fun e' he' => hfails e' (by simpa using he')
      apply Program.spec_bind.mpr
      apply (save_spec env r identity hreads₂).mono fun _ _ h => h
      rintro past₃ (e | _) hfails
      · exact fun e' he' => hfails e' (by simpa using he')
      refine Program.spec_call_bind.mpr ⟨trivial, fun old => ?_⟩
      refine Program.spec_call_bind.mpr ⟨trivial, fun registered => ?_⟩
      refine Program.spec_lift_bind.mpr ⟨fun _ _ => failsQuietly_ok r _ _, ?_⟩
      rintro e rfl _ _ hwell
      have hregistered := (successively_snoc.mp hwell).2
      cases hregistered
    · intro e he _ _ hwell
      obtain ⟨hwell, hcached⟩ := successively_snoc.mp hwell
      rcases quiet_or_changes hreads with hquiet | hchanges
      · exact List.forall_mem_append.mpr ⟨hquiet, List.forall_mem_singleton.mpr trivial⟩
      · rcases hcached hchanges with hoverwrites | rfl
        · have hoverwrite := overwrite_of_parse hinput hoverwrites
          cases cached <;> simp [checkFree, hoverwrite] at he
        · cases he
  · intro e he
    exact failsQuietly_refused hreads hdraws (by simp [accepted, he]) e

theorem load_spec (env : Env) (past : History) :
    (load env).Spec (fun _ _ => True) (fun past' _ => ∃ read, past' = past ++ [⟨.readFile, read⟩])
      past := by
  unfold load
  refine Program.spec_call_bind.mpr ⟨trivial, fun read => ?_⟩
  split
  · exact Program.spec_lift_bind.mpr ⟨fun _ _ => ⟨_, rfl⟩, fun _ _ => ⟨_, rfl⟩⟩
  · exact ⟨_, rfl⟩
  · exact ⟨_, rfl⟩

theorem loadIdentity_spec (env : Env) (r : Request) :
    (loadIdentity env).Spec (fun _ _ => True)
      (fun past out => FailsQuietly r past out ∧ Reads past ∧ past.any drawsKey = false) [] := by
  unfold loadIdentity
  refine Program.spec_call_bind.mpr ⟨trivial, fun cached => ?_⟩
  cases cached with
  | some identity => exact ⟨failsQuietly_ok r _ _, reads_snoc (by simp [Reads]) rfl, rfl⟩
  | none =>
    apply Program.spec_bind.mpr
    apply (load_spec env _).mono fun _ _ h => h
    rintro _ (e | found) ⟨read, rfl⟩
    · refine ⟨?_, by simp [Reads, opensOrWrites], rfl⟩
      intro _ _ _
      simp [Quiet]
    · refine Program.spec_call_bind.mpr ⟨trivial, fun old => ?_⟩
      exact ⟨failsQuietly_ok r _ _, by simp [Reads, opensOrWrites], rfl⟩

/-- Only an `aex_init` opens or writes the file. -/
theorem dispatch_reads (env : Env) (r : Request) (hr : r.isInit = false) :
    (dispatch env r).Only fun op => opensOrWrites op = false := by
  have hload : (loadIdentity env).Only fun op => opensOrWrites op = false := by
    unfold loadIdentity load
    refine Program.Only.bind (Program.only_call rfl) fun cached => ?_
    cases cached with
    | some identity => exact Program.only_pure
    | none =>
      refine Program.Only.bind (Program.Only.bind (Program.only_call rfl) fun read => ?_) fun found =>
        Program.Only.bind (Program.only_call rfl) fun _ => Program.only_pure
      split
      · exact Program.Only.bind (Program.only_lift _) fun _ => Program.only_pure
      · exact Program.only_pure
      · exact Program.only_fail
  unfold dispatch
  refine hload.bind fun _ => ?_
  cases htool : r.tool with
  | none => exact Program.only_fail
  | some tool =>
    cases tool with
    | init => simp [Request.isInit, htool] at hr
    | whoami => exact Program.Only.bind (Program.only_call rfl) fun _ => Program.only_pure
    | remote tool =>
      refine Program.Only.bind (Program.Only.bind (Program.only_call rfl) fun _ =>
        Program.only_okOr _ _) fun identity => ?_
      refine Program.Only.bind (Program.only_lift _) fun _ => ?_
      refine Program.Only.bind (Program.only_call rfl) fun _ => ?_
      refine Program.Only.bind (Program.only_lift _) fun _ => ?_
      cases tool with
      | fetchFromTunnel =>
        refine Program.Only.bind (Program.only_call rfl) fun _ => ?_
        exact Program.Only.bind (Program.only_lift _) fun _ => Program.only_pure
      | _ => exact Program.only_pure

theorem dispatch_init (env : Env) {r : Request} (hr : r.isInit = true) :
    (dispatch env r).Spec (fun _ _ => True) (FailsQuietly r) [] := by
  have htool : r.tool = some .init := by
    unfold Request.isInit at hr
    split at hr
    · assumption
    · cases hr
  unfold dispatch
  rw [htool]
  apply Program.spec_bind.mpr
  apply (loadIdentity_spec env r).mono fun _ _ h => h
  rintro past (e | found) ⟨hfails, hreads, hdraws⟩
  · intro e' he'
    exact hfails e' (by simpa using he')
  · exact init_spec env r hreads hdraws

theorem dispatch_spec (env : Env) (r : Request) :
    (dispatch env r).Spec (fun _ op => opensOrWrites op = true → r.isInit = true)
      (fun past out => r.isInit = true → FailsQuietly r past out) [] := by
  cases hr : r.isInit with
  | true => exact (dispatch_init env hr).mono (fun _ _ _ _ => rfl) fun _ _ h _ => h
  | false =>
    apply (dispatch_reads env r hr).spec
    · intro _ op hop hwrites
      rw [hop] at hwrites
      cases hwrites
    · intro _ _ hinit
      cases hinit

/-! ## Runs -/

section Runs

variable {env : Env} {file : Option Bytes} {labels : List Label}

theorem failedInitLeaves_of_goesWell
    (h : Pool.Along (semantics env) { file := file } (fun p l => goesWellAt env p l = true) labels) :
    FailedInitLeaves env file labels := by
  intro i r e hrequest hr hout done o rest he
  rw [List.getElem?_map] at hrequest
  obtain ⟨t, ht, rfl⟩ := Option.map_eq_some_iff.mp hrequest
  have hwell := h.successively (K := fun r past x => r.isInit = true → WentWell r past x)
    (semantics env) (fun p i o r op k hi hl hr => wentWell_exec (goesWell_of_at hl hi hr)) ht
  have hfails := (Pool.run_conforms (semantics env) _ labels).outcome_spec (dispatch_spec env) ht hout
  have hquiet := hfails hr e rfl fun before x after hevents => hwell before x after hevents hr
  rcases Pool.run_step_cases (semantics env) { file := file } done i o with
    hsame | ⟨_, op, _, -, hshared, hevent⟩
  · exact hsame
  · have hgrows := Pool.run_trace_grows (ε := ToolError) (α := Result) (semantics env)
      { file := file } (done ++ [.step i o]) rest
    rw [List.append_assoc, List.singleton_append, ← he] at hgrows
    obtain ⟨x, hx, hxi, hxe⟩ := Pool.mem_eventsOf.mp hevent
    have hlater := Pool.mem_eventsOf.mpr ⟨x, hgrows.subset hx, hxi, hxe⟩
    exact hshared.trans (exec_quiet env _ op o (hquiet _ hlater))

/-- A step of a call that went well takes no saved identity away, unless the call overwrites. -/
theorem exec_keeps {r : Request} {past : History} {s : State} {o : Outside} {op : Op}
    {identity : TypeScript.Identity} (hpre : opensOrWrites op = true → r.isInit = true)
    (hgoes : r.isInit = true → goesWell env r past s o op = true)
    (hsaved : s.saved env = some identity) :
    (exec env s op o).2.saved env = some identity ∨ r.overwrites = true := by
  cases op with
  | openFile => exact Or.inr (by simpa [hsaved] using (Bool.and_eq_true_iff.mp (hgoes (hpre rfl))).1)
  | writeFile payload =>
    exact Or.inr (by simpa [hsaved] using (Bool.and_eq_true_iff.mp (hgoes (hpre rfl))).1)
  | readFile =>
    simp only [exec]
    split <;> exact Or.inl hsaved
  | _ => exact Or.inl hsaved

theorem savedIsKept_of_goesWell
    (h : Pool.Along (semantics env) { file := file } (fun p l => goesWellAt env p l = true) labels) :
    SavedIsKept env file labels := by
  intro done i o rest he identity hsaved
  have hl := h done _ rest he
  change (Pool.run (semantics env) { file := file } done).shared.saved env = some identity at hsaved
  rcases Pool.run_step_cases (semantics env) { file := file } done i o with
    hsame | ⟨r, op, k, hi, hshared, -⟩
  · left
    rw [run, hsame, hsaved, Option.map_some]
  · have hpre := (Pool.run_conforms (semantics env) { file := file } done).pending_spec
      (dispatch_spec env) hi
    rw [run, hshared, run, List.getElem?_map, hi]
    rcases exec_keeps (o := o) hpre (goesWell_of_at hl hi) hsaved with hkept | hoverwrites
    · exact Or.inl (congrArg (Option.map TypeScript.Identity.privateKey) hkept)
    · exact Or.inr ⟨r, rfl, hoverwrites⟩

end Runs

namespace Sample

def identity (name : String) (secret : UInt8) : TypeScript.Identity :=
  ⟨js "acme", js name, List.replicate 32 secret,
    Sdk.Sample.crypto.publicKey (List.replicate 32 secret)⟩

def identities : List TypeScript.Identity := [identity "alice" 1, identity "bob" 2]

def env : Env where
  crypto := Sdk.Sample.crypto
  baseUrl := "http://127.0.0.1:8080"
  identityFile := "/home/alice/.spize/identity.json"
  fromText text :=
    match identities.find? fun i =>
      TypeScript.textEncode (stringify Sdk.Sample.crypto i) = text with
    | some i => .ok i
    | none => .error (.error (js "Unexpected end of JSON input"))
  accepts _ _ := .ok ()

theorem eq_with_crypto {e : Env} {crypto : Crypto} (h : e.crypto = crypto) :
    e = { e with crypto } := by
  rw [← h]

/-- The environment with the signing that is faster to evaluate. -/
theorem env_eq : env =
    { env with crypto := { Sdk.Sample.crypto with sign := Sdk.Sample.signs } } :=
  eq_with_crypto Sdk.Sample.crypto_eq

def initCall (name : String) (overwrite : Bool) : Request where
  name := "aex_init"
  arguments := [("org", .string (js "acme")), ("name", .string (js name)),
    ("overwrite", .bool overwrite)]

/-- The next `n` operations of task `i`, with a secret made of one byte. -/
def steps (i : ℕ) (secret : UInt8) (n : ℕ) : List Label :=
  List.replicate n (.step i { entropy := List.replicate 32 secret })

/-- Alice's identity is created, bob's is refused, and then replaces hers. -/
def replaced : List Label :=
  .spawn (initCall "alice" false) :: (steps 0 1 10 ++
    .spawn (initCall "bob" false) :: (steps 1 2 2 ++
      .spawn (initCall "bob" true) :: steps 2 2 8))

/-- The registration of a new identity meets an error. -/
def unregistered : List Label :=
  .spawn (initCall "alice" false) :: (steps 0 1 9 ++
    [.step 0 { fault := some (.error (js "fetch failed")) }])

/-- Two calls find no identity; one has saved its own when the other opens the file. -/
def raced : List Label :=
  .spawn (initCall "alice" false) :: .spawn (initCall "bob" false) ::
    (steps 0 1 6 ++ steps 1 2 6 ++ steps 0 1 2 ++ steps 1 2 1)

end Sample

/-- The seventh operation of the failing call empties the file, and the last one of the race empties
the file that holds Alice's identity. -/
theorem Sample.unsafe_runs :
    (run env none unregistered).outcome 0 = some (.error (.error (js "fetch failed"))) ∧
    (run env none ((.spawn (initCall "alice" false) :: steps 0 1 6) ++
        [.step 0 { entropy := List.replicate 32 1 }])).shared.file ≠
      (run env none (.spawn (initCall "alice" false) :: steps 0 1 6)).shared.file ∧
    (run env none raced.dropLast).shared.saved env = some (identity "alice" 1) ∧
    ((run env none (raced.dropLast ++ [.step 1 { entropy := List.replicate 32 2 }])).shared.saved
      env).map TypeScript.Identity.privateKey ≠ some (identity "alice" 1).privateKey := by
  rw [env_eq]
  decide +kernel

end AgentExchange.Mcp
