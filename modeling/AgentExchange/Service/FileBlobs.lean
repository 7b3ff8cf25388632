import AgentExchange.ControlPlane.Retention
import AgentExchange.Library.Replacement

/-!
# The blob store on disk

The server keeps each blob in a file. A blob is written under a temporary name and renamed,
so a blob that is read is complete: every request to the store answers as the atomic
operation of the server's model does at one moment while it is served, whatever runs at the same
time, fails or is dropped, as long as a blob is not stored twice at once.
-/
namespace AgentExchange.ControlPlane

open Library

/-! ## File names -/

/-- A letter, a digit or an underscore. -/
def isSafeChar (c : Char) : Bool := isAsciiAlphanumeric c || c = '_'

/-- `FileBlobStore::path_for`, within the directory of the store. -/
def pathFor (transferId : String) : String :=
  String.ofList (transferId.toList.map fun c => if isSafeChar c then c else '_')

/-- What stands before the last dot, if that is not the first character. -/
def fileStem (name : String) : String :=
  match name.toList.reverse.dropWhile fun c => c ≠ '.' with
  | [] | ['.'] => name
  | _ :: stem => String.ofList stem.reverse

/-- `Path::with_extension` on a file name. -/
def withExtension (name extension : String) : String := fileStem name ++ "." ++ extension

/-- A transfer id that is its own file name. -/
def IsFileName (transferId : String) : Prop := ∀ c ∈ transferId.toList, isSafeChar c = true

instance (transferId : String) : Decidable (IsFileName transferId) :=
  inferInstanceAs (Decidable (∀ c ∈ _, _))

theorem IsFileName.pathFor_eq {transferId : String} (h : IsFileName transferId) :
    pathFor transferId = transferId := by
  have hmap : transferId.toList.map (fun c => if isSafeChar c then c else '_') =
      transferId.toList := by
    conv_rhs => rw [← List.map_id transferId.toList]
    apply List.map_congr_left
    intro c hc
    simp [h c hc]
  rw [pathFor, hmap, String.ofList_toList]

theorem dot_not_mem_pathFor (transferId : String) : '.' ∉ (pathFor transferId).toList := by
  intro hdot
  rw [pathFor, String.toList_ofList, List.mem_map] at hdot
  obtain ⟨c, -, hc⟩ := hdot
  split_ifs at hc with hsafe
  · subst hc
    exact absurd hsafe (by decide)
  · exact absurd hc (by decide)

theorem fileStem_eq {name : String} (h : '.' ∉ name.toList) : fileStem name = name := by
  have hnone : (name.toList.reverse.dropWhile fun c => c ≠ '.') = [] := by
    rw [List.dropWhile_eq_nil_iff]
    intro c hc
    rw [List.mem_reverse] at hc
    exact decide_eq_true fun hdot => h (hdot ▸ hc)
  rw [fileStem, hnone]

theorem dot_mem_withExtension (name extension : String) :
    '.' ∈ (withExtension name extension).toList := by
  simp [withExtension, String.toList_append]

/-! ## The store on disk -/

inductive BlobRequest where
  | put (transferId : String) (bytes : Bytes)
  | get (transferId : String)
  | delete (transferId : String)
  | exists (transferId : String)
  deriving DecidableEq

inductive BlobAnswer where
  | done
  | bytes (bytes : Bytes)
  | found (found : Bool)
  deriving DecidableEq

namespace FileBlobStore

abbrev FileProg := Program (files String UInt8) FileError

abbrev io (op : FileOp String UInt8) : FileProg op.Answer :=
  Program.call (S := files String UInt8) op

def put (transferId : String) (bytes : Bytes) : FileProg Unit := do
  let target := pathFor transferId
  let tmp := withExtension target "tmp"
  let f ← Program.lift (← io (.create tmp))
  Program.lift (← io (.write f bytes))
  Program.lift (← io (.flush f))
  Program.lift (← io (.sync f))
  Program.lift (← io (.setPermissions tmp))
  Program.lift (← io (.rename tmp target))

def get (transferId : String) : FileProg Bytes := do
  let f ← Program.lift (← io (.openFile (pathFor transferId)))
  Program.lift (← io (.read f))

def delete (transferId : String) : FileProg Unit := do
  match ← io (.remove (pathFor transferId)) with
  | .ok () => pure ()
  | .error .notFound => pure ()
  | .error e => throw e

def exists_ (transferId : String) : FileProg Bool := io (.stat (pathFor transferId))

def handler : BlobRequest → FileProg BlobAnswer
  | .put transferId bytes => do
    put transferId bytes
    pure .done
  | .get transferId => do pure (.bytes (← get transferId))
  | .delete transferId => do
    delete transferId
    pure .done
  | .exists transferId => do pure (.found (← exists_ transferId))

/-- The store, started on an empty directory. -/
def run (labels : List (Library.Label BlobRequest Fault Empty)) :
    Pool (files String UInt8) (Disk String UInt8) BlobRequest FileError BlobAnswer :=
  Pool.run (diskSemantics handler) {} labels

/-! ## What a request does -/

def replacement : BlobRequest → Option (Replacement String UInt8)
  | .put transferId bytes =>
    some ⟨withExtension (pathFor transferId) "tmp", pathFor transferId, bytes⟩
  | _ => none

theorem replacement_temporary {r : BlobRequest} {x : Replacement String UInt8}
    (h : replacement r = some x) :
    ∃ transferId bytes, r = .put transferId bytes ∧
      x.temporary = withExtension (pathFor transferId) "tmp" := by
  cases r with
  | put transferId bytes =>
    obtain rfl := Option.some.inj h
    exact ⟨transferId, bytes, rfl, rfl⟩
  | _ => cases h

theorem replacement_names {r : BlobRequest} {x : Replacement String UInt8}
    (h : replacement r = some x) : '.' ∈ x.temporary.toList ∧ '.' ∉ x.target.toList := by
  cases r with
  | put transferId bytes =>
    obtain rfl := Option.some.inj h
    exact ⟨dot_mem_withExtension _ _, dot_not_mem_pathFor transferId⟩
  | _ => cases h

/-- Blobs are read under names without a dot. -/
def plan : Plan String UInt8 BlobRequest where
  isRead name := '.' ∉ name.toList
  writes := replacement
  temporary_unread _ _ h hread := hread (replacement_names h).1
  target_read _ _ h := (replacement_names h).2

/-- A request removes its own blob only, and does nothing after it has changed what is stored. -/
def allows (r : BlobRequest) (past : List (Event (files String UInt8))) (op : FileOp String UInt8) :
    Prop :=
  plan.Allows r past op ∧
    (∀ name, op = .remove name → ∃ transferId, r = .delete transferId ∧ name = pathFor transferId) ∧
    Disk.Steady past

/-- The events a request ends with. -/
def endsWith (r : BlobRequest) (past : List (Event (files String UInt8)))
    (out : Except FileError BlobAnswer) : Prop :=
  match r, out with
  | .put transferId _, .ok _ => ∃ es tmp, past = es ++ [⟨.rename tmp (pathFor transferId), .ok ()⟩]
  | .put _ _, .error _ => ∃ es x, past = es ++ [x] ∧ Disk.relinks x = false
  | .get transferId, .ok (.bytes b) =>
    ∃ f, past = [⟨.openFile (pathFor transferId), .ok f⟩, ⟨.read f, .ok b⟩]
  | .get transferId, .error e => past = [⟨.openFile (pathFor transferId), .error e⟩] ∨
      ∃ f, past = [⟨.openFile (pathFor transferId), .ok f⟩, ⟨.read f, .error e⟩]
  | .delete transferId, .ok _ => past = [⟨.remove (pathFor transferId), .ok ()⟩] ∨
      past = [⟨.remove (pathFor transferId), .error .notFound⟩]
  | .delete transferId, .error e => past = [⟨.remove (pathFor transferId), .error e⟩]
  | .exists transferId, .ok (.found b) => past = [⟨.stat (pathFor transferId), b⟩]
  | _, _ => False

theorem put_spec (transferId : String) (bytes : Bytes) :
    (put transferId bytes).Spec (allows (.put transferId bytes))
      (fun past out => endsWith (.put transferId bytes) past (out.map fun _ => .done)) [] := by
  have hwrites : plan.writes (.put transferId bytes) =
      some ⟨withExtension (pathFor transferId) "tmp", pathFor transferId, bytes⟩ := rfl
  have hfails (past : List (Event (files String UInt8))) {x : Event (files String UInt8)}
      (e : FileError) (hx : Disk.relinks x = false) :
      endsWith (.put transferId bytes) (past ++ [x]) (.error e) := ⟨past, x, rfl, hx⟩
  unfold put
  apply Program.spec_call_bind.mpr
  refine ⟨⟨⟨_, hwrites, rfl⟩, by simp, Disk.steady_nil⟩, fun created => ?_⟩
  cases created with
  | error e => exact hfails _ e rfl
  | ok f =>
  have hcreated : Disk.Steady (β := UInt8)
      [⟨.create (withExtension (pathFor transferId) "tmp"), .ok f⟩] := Disk.steady_nil.snoc rfl
  apply Program.spec_call_bind.mpr
  refine ⟨⟨⟨_, hwrites, rfl, rfl⟩, by simp, hcreated⟩, fun written => ?_⟩
  cases written with
  | error e => exact hfails _ e rfl
  | ok _ =>
  have hwritten := hcreated.snoc (e := ⟨.write f bytes, .ok ()⟩) rfl
  apply Program.spec_call_bind.mpr
  refine ⟨⟨trivial, by simp, hwritten⟩, fun flushed => ?_⟩
  cases flushed with
  | error e => exact hfails _ e rfl
  | ok _ =>
  have hflushed := hwritten.snoc (e := ⟨.flush f, .ok ()⟩) rfl
  apply Program.spec_call_bind.mpr
  refine ⟨⟨trivial, by simp, hflushed⟩, fun synced => ?_⟩
  cases synced with
  | error e => exact hfails _ e rfl
  | ok _ =>
  have hsynced := hflushed.snoc (e := ⟨.sync f, .ok ()⟩) rfl
  apply Program.spec_call_bind.mpr
  refine ⟨⟨trivial, by simp, hsynced⟩, fun permitted => ?_⟩
  cases permitted with
  | error e => exact hfails _ e rfl
  | ok _ =>
  apply Program.spec_call_bind.mpr
  refine ⟨⟨⟨_, f, hwrites, rfl, rfl, rfl⟩, by simp, hsynced.snoc rfl⟩, fun renamed => ?_⟩
  cases renamed with
  | error e => exact hfails _ e rfl
  | ok _ => exact ⟨_, _, rfl⟩

theorem handler_spec (r : BlobRequest) : (handler r).Spec (allows r) (endsWith r) [] := by
  cases r with
  | put transferId bytes =>
    unfold handler
    apply Program.spec_bind.mpr
    apply (put_spec transferId bytes).mono fun _ _ h => h
    rintro past (e | u) h
    · exact h
    · exact h
  | get transferId =>
    unfold handler get
    apply Program.spec_bind.mpr
    apply Program.spec_call_bind.mpr
    refine ⟨⟨dot_not_mem_pathFor _, by simp, Disk.steady_nil⟩, fun opened => ?_⟩
    refine Program.spec_lift_bind.mpr ⟨?_, fun e he => Or.inl (he ▸ rfl)⟩
    rintro f rfl
    apply Program.spec_call_bind.mpr
    refine ⟨⟨⟨_, List.mem_singleton_self _⟩, by simp, Disk.steady_nil.snoc rfl⟩, fun data => ?_⟩
    apply Program.spec_lift.mpr
    cases data with
    | ok b => exact ⟨f, rfl⟩
    | error e => exact Or.inr ⟨f, rfl⟩
  | delete transferId =>
    unfold handler delete
    apply Program.spec_bind.mpr
    refine Program.spec_call_bind.mpr
      ⟨⟨Or.inl (dot_not_mem_pathFor _), ?_, Disk.steady_nil⟩, fun removed => ?_⟩
    · rintro name ⟨⟩
      exact ⟨transferId, rfl, rfl⟩
    · rcases removed with (_ | _) | _
      · exact Or.inr rfl
      · exact rfl
      · exact Or.inl rfl
  | «exists» transferId =>
    unfold handler exists_
    exact Program.spec_call_bind.mpr ⟨⟨trivial, by simp, Disk.steady_nil⟩, fun found => rfl⟩

/-! ## The store of the server's model -/

def transferId : BlobRequest → String
  | .put id _ | .get id | .delete id | .exists id => id

/-- What an event does to the store of the model. -/
def serve (env : Env) (s : State) (e : Plan.Files String UInt8 BlobRequest) : State :=
  match e.event, e.request with
  | ⟨.rename _ _, .ok _⟩, .put id bytes => (exec env s (.blobPut id bytes) {}).2
  | ⟨.remove _, .ok _⟩, .delete id => (exec env s (.blobDelete id) {}).2
  | _, _ => s

def linearised (env : Env) (trace : List (Plan.Files String UInt8 BlobRequest)) : State :=
  trace.foldl (serve env) {}

theorem linearised_snoc (env : Env) (trace : List (Plan.Files String UInt8 BlobRequest))
    (e : Plan.Files String UInt8 BlobRequest) :
    linearised env (trace ++ [e]) = serve env (linearised env trace) e := by
  simp [linearised]

theorem serve_unsettled {env : Env} {s : State} {e : Plan.Files String UInt8 BlobRequest}
    (h : Disk.relinks e.event = false) : serve env s e = s := by
  obtain ⟨i, r, d, op, answer⟩ := e
  cases op with
  | rename source target => cases answer with
    | ok u => cases h
    | error err => rfl
  | remove name => cases answer with
    | ok u => cases h
    | error err => rfl
  | _ => rfl

/-- The request is answered as by the atomic operation of the model, which leads from `s` to `s'`.
`Path::exists` says no when it fails. -/
def Answers (env : Env) (s s' : State) : BlobRequest → Except FileError BlobAnswer → Prop
  | .put id bytes, .ok _ => s' = (exec env s (.blobPut id bytes) {}).2
  | .get id, .ok (.bytes b) => s' = s ∧ (exec env s (.blobGet id) {}).1 = .ok b
  | .get id, .error .notFound => s' = s ∧ (exec env s (.blobGet id) {}).1 = .error "blob not found"
  | .delete id, .ok _ => s'.held = (exec env s (.blobDelete id) {}).2.held
  | .exists id, .ok (.found found) => s' = s ∧ (found = true → (s.held id).isSome)
  | _, .error _ => s' = s
  | _, _ => False

/-- The store on disk behaves as the atomic store: it holds the same blobs, and every request takes
effect at most once and is answered as at one of its events. -/
structure Linearises (env : Env)
    (w : Pool (files String UInt8) (Disk String UInt8) BlobRequest FileError BlobAnswer) : Prop where
  holds : ∀ id, IsFileName id → w.shared.listing (pathFor id) = (linearised env w.trace).held id
  once : w.trace.Pairwise fun e e' => e.task = e'.task → Disk.relinks e.event = false
  answered : ∀ i t out, w.tasks[i]? = some t → w.outcome i = some out →
    ∃ past e rest, w.trace = past ++ e :: rest ∧ e.task = i ∧
      Answers env (linearised env past) (linearised env (past ++ [e])) t.request out

/-- What the files hold is what the model holds, if every identifier is its own file name. -/
theorem stored_eq_held {env : Env} {trace : List (Plan.Files String UInt8 BlobRequest)}
    (hnames : ∀ e ∈ trace, IsFileName (transferId e.request))
    (hremoves : ∀ e ∈ trace, ∀ name, e.event.op = .remove name →
      ∃ id, e.request = .delete id ∧ name = pathFor id) :
    plan.stored {} trace = (linearised env trace).held := by
  induction trace using List.reverseRecOn with
  | nil => rfl
  | append_singleton trace e ih =>
    have hname := hnames e (by simp)
    have hremove := hremoves e (by simp)
    have hrest := ih (fun x hx => hnames x (by simp [hx])) fun x hx => hremoves x (by simp [hx])
    rw [Plan.stored_snoc, linearised_snoc, hrest]
    obtain ⟨i, r, d, op, answer⟩ := e
    cases op with
    | rename source target => cases answer with
      | error err => rfl
      | ok u => cases r with
        | put id bytes =>
          change Function.update _ (pathFor id) _ = (exec _ _ (.blobPut id bytes) _).2.held
          have hid : pathFor id = id := IsFileName.pathFor_eq hname
          rw [held_blobPut, if_pos rfl, hid]
        | _ => rfl
    | remove name => cases answer with
      | error err => rfl
      | ok u =>
        obtain ⟨id, hr, rfl⟩ := hremove name rfl
        obtain rfl : r = .delete id := hr
        change Function.update _ (pathFor id) _ = (exec _ _ (.blobDelete id) _).2.held
        have hid : pathFor id = id := IsFileName.pathFor_eq hname
        rw [held_blobDelete, if_pos rfl, hid]
    | _ => rfl

section Runs

variable {labels : List (Library.Label BlobRequest Fault Empty)}

theorem handler_allows (r : BlobRequest) :
    (handler r).Spec (plan.Allows r) (fun _ _ => True) [] :=
  (handler_spec r).mono (fun _ _ h => h.1) fun _ _ _ => trivial

/-- What happened up to some point of a run is stored in the model as on disk. -/
theorem stored_eq_linearised (env : Env)
    (hnames : ∀ r, .spawn r ∈ labels → IsFileName (transferId r))
    {past rest : List (Plan.Files String UInt8 BlobRequest)}
    (h : (run labels).trace = past ++ rest) :
    plan.stored {} past = (linearised env past).held := by
  have hconf := Pool.run_conforms (diskSemantics handler) {} labels
  have hmem {e : Plan.Files String UInt8 BlobRequest} (he : e ∈ past) : e ∈ (run labels).trace := by
    rw [h]
    exact List.mem_append_left _ he
  apply stored_eq_held
  · intro e he
    obtain ⟨t, ht, hrequest⟩ := hconf.request e (hmem he)
    rw [← hrequest]
    exact hnames _ (Pool.run_spawned _ _ _ t (List.mem_of_getElem? ht))
  · intro e he name hop
    obtain ⟨before, after, htrace⟩ := List.append_of_mem (hmem he)
    exact (hconf.operation_spec handler_spec htrace).2.1 name hop

theorem blobGet_of_held {env : Env} {s : State} {id : String} {bytes : Bytes}
    (h : s.held id = some bytes) : (exec env s (.blobGet id) {}).1 = .ok bytes := by
  rw [State.held] at h
  simp [exec, State.loadBlob, h]

theorem blobGet_of_not_held {env : Env} {s : State} {id : String} (h : s.held id = none) :
    (exec env s (.blobGet id) {}).1 = .error "blob not found" := by
  rw [State.held] at h
  simp [exec, State.loadBlob, h]

variable {env : Env} (hnames : ∀ r, .spawn r ∈ labels → IsFileName (transferId r))
  (hseparate : Pool.Along (diskSemantics handler) {} plan.Separate labels)
  {past rest : List (Plan.Files String UInt8 BlobRequest)}
  {e : Plan.Files String UInt8 BlobRequest} (he : (run labels).trace = past ++ e :: rest)

include hnames hseparate he

/-- The disk holds what the model holds when a request of the run acts on it. -/
theorem listing_eq_held {id : String} (hid : IsFileName id) :
    e.before.listing (pathFor id) = (linearised env past).held id := by
  rw [(Plan.before_listing handler_allows Disk.sound_empty hseparate he).1 _ (dot_not_mem_pathFor id),
    stored_eq_linearised env hnames he, hid.pathFor_eq]

theorem answered_get {id : String} {bytes : Bytes} {f : ℕ} (hid : IsFileName id)
    (hread : e.event = ⟨.read f, .ok bytes⟩)
    (hpast : Pool.eventsOf past e.task = [⟨.openFile (pathFor id), .ok f⟩]) :
    ∃ before o after, (run labels).trace = before ++ o :: after ∧ o.task = e.task ∧
      Disk.relinks o.event = false ∧ (linearised env before).held id = some bytes := by
  obtain ⟨before, o, between, n, rfl, htask, hopen, hstored⟩ :=
    Plan.read_stored handler_allows Disk.sound_empty hseparate he hread
  refine ⟨before, o, between ++ e :: rest, by simp [he], htask, by rw [hopen]; rfl, ?_⟩
  have hevent : o.event ∈ Pool.eventsOf (before ++ o :: between) e.task :=
    Pool.mem_eventsOf.mpr ⟨o, by simp, htask, rfl⟩
  rw [hpast, List.mem_singleton, hopen] at hevent
  cases hevent
  rw [← hid.pathFor_eq, ← hstored, stored_eq_linearised env hnames (by simpa using he),
    hid.pathFor_eq]

theorem answered_missing {id : String} (hid : IsFileName id)
    (hopen : e.event = ⟨.openFile (pathFor id), .error .notFound⟩) :
    (linearised env past).held id = none := by
  have hstored := (Plan.opened_stored handler_allows Disk.sound_empty hseparate he hopen).2 rfl
  rw [stored_eq_linearised env hnames he, hid.pathFor_eq] at hstored
  exact hstored

theorem answered_remove {id : String} (hid : IsFileName id)
    (hremove : e.event = ⟨.remove (pathFor id), .error .notFound⟩) :
    (linearised env past).held id = none := by
  rw [← listing_eq_held hnames hseparate he hid]
  obtain ⟨c, hanswer⟩ := (Pool.run_conforms (diskSemantics handler) {} labels).answered e (by
    change e ∈ (run labels).trace
    simp [he])
  obtain ⟨i, r, d, op, answer⟩ := e
  cases hremove
  change Except.error FileError.notFound = (d.exec (.remove (pathFor id)) c).1 at hanswer
  cases hname : d.names (pathFor id) with
  | none => simp [Disk.listing, hname]
  | some f =>
    simp only [Disk.exec, hname] at hanswer
    split_ifs at hanswer
    cases hanswer

theorem answered_stat {id : String} (hid : IsFileName id)
    (hstat : e.event = ⟨.stat (pathFor id), true⟩) : ((linearised env past).held id).isSome := by
  rw [← listing_eq_held hnames hseparate he hid]
  obtain ⟨c, hanswer⟩ := (Pool.run_conforms (diskSemantics handler) {} labels).answered e (by
    change e ∈ (run labels).trace
    simp [he])
  obtain ⟨i, r, d, op, answer⟩ := e
  cases hstat
  change true = (!c.fails && (d.names (pathFor id)).isSome) at hanswer
  rw [Disk.listing, Option.isSome_map]
  exact (Bool.and_eq_true _ _ ▸ hanswer.symm).2

end Runs

section Linearise

variable {labels : List (Library.Label BlobRequest Fault Empty)} {env : Env}

theorem answers_of_ended (hnames : ∀ r, .spawn r ∈ labels → IsFileName (transferId r))
    (hseparate : Pool.Along (diskSemantics handler) {} plan.Separate labels) {i : ℕ}
    {t : Task (files String UInt8) BlobRequest FileError BlobAnswer}
    {out : Except FileError BlobAnswer} (ht : (run labels).tasks[i]? = some t)
    (hends : endsWith t.request (Pool.eventsOf (run labels).trace i) out) :
    ∃ past e rest, (run labels).trace = past ++ e :: rest ∧ e.task = i ∧
      Answers env (linearised env past) (linearised env (past ++ [e])) t.request out := by
  have hconf := Pool.run_conforms (diskSemantics handler) {} labels
  have hid : IsFileName (transferId t.request) :=
    hnames _ (Pool.run_spawned _ _ _ t (List.mem_of_getElem? ht))
  have hlast (es : List (Event (files String UInt8))) {x : Event (files String UInt8)}
      (h : Pool.eventsOf (run labels).trace i = es ++ [x]) :
      ∃ past e rest, (run labels).trace = past ++ e :: rest ∧ e.task = i ∧
        Pool.eventsOf past i = es ∧ e.event = x ∧ e.request = t.request := by
    obtain ⟨past, e, rest, he, htask, hpast, hevent⟩ := Pool.eventsOf_eq_append_cons h
    refine ⟨past, e, rest, he, htask, hpast, hevent, ?_⟩
    exact hconf.request_of_task _ (by
      change e ∈ (run labels).trace
      simp [he]) (htask ▸ ht)
  have hunsettled {past : List (Plan.Files String UInt8 BlobRequest)}
      {e : Plan.Files String UInt8 BlobRequest} (h : Disk.relinks e.event = false) :
      linearised env (past ++ [e]) = linearised env past := by
    rw [linearised_snoc, serve_unsettled h]
  obtain ⟨r, q⟩ := t
  cases r with
  | put id bytes => cases out with
    | ok answer =>
      obtain ⟨es, tmp, h⟩ := hends
      obtain ⟨past, ⟨j, r, d, op, a⟩, rest, he, htask, -, hevent, hrequest⟩ := hlast _ h
      cases hevent
      cases hrequest
      exact ⟨past, _, rest, he, htask, linearised_snoc env past _⟩
    | error err =>
      obtain ⟨es, x, h, hx⟩ := hends
      obtain ⟨past, e, rest, he, htask, -, rfl, -⟩ := hlast _ h
      refine ⟨past, e, rest, he, htask, ?_⟩
      cases err <;> exact hunsettled hx
  | get id => cases out with
    | ok answer => cases answer with
      | bytes b =>
        obtain ⟨f, h⟩ := hends
        obtain ⟨past, e, rest, he, rfl, hpast, hevent, -⟩ := hlast [_] h
        obtain ⟨before, o, after, ho, htask, hsettles, hheld⟩ :=
          answered_get hnames hseparate he hid hevent hpast
        exact ⟨before, o, after, ho, htask, hunsettled hsettles, blobGet_of_held hheld⟩
      | done => exact hends.elim
      | found b => exact hends.elim
    | error err =>
      rcases hends with h | ⟨f, h⟩
      · obtain ⟨past, e, rest, he, htask, -, hevent, -⟩ := hlast [] h
        refine ⟨past, e, rest, he, htask, ?_⟩
        have hsame : linearised env (past ++ [e]) = linearised env past :=
          hunsettled (by rw [hevent]; rfl)
        cases err with
        | notFound =>
          exact ⟨hsame, blobGet_of_not_held (answered_missing hnames hseparate he hid hevent)⟩
        | other => exact hsame
      · obtain ⟨past, e, rest, he, htask, -, hevent, -⟩ := hlast [_] h
        refine ⟨past, e, rest, he, htask, ?_⟩
        have hsame : linearised env (past ++ [e]) = linearised env past :=
          hunsettled (by rw [hevent]; rfl)
        cases err with
        | other => exact hsame
        | notFound =>
          obtain ⟨c, hanswer⟩ := hconf.answered e (by
            change e ∈ (run labels).trace
            simp [he])
          obtain ⟨j, r, d, op, a⟩ := e
          cases hevent
          change Except.error FileError.notFound =
            if c.fails then .error FileError.other else .ok (d.contents f) at hanswer
          split_ifs at hanswer
          cases hanswer
  | delete id => cases out with
    | ok answer =>
      rcases hends with h | h
      · obtain ⟨past, ⟨j, r, d, op, a⟩, rest, he, htask, -, hevent, hrequest⟩ := hlast [] h
        cases hevent
        cases hrequest
        exact ⟨past, _, rest, he, htask, congrArg State.held (linearised_snoc env past _)⟩
      · obtain ⟨past, e, rest, he, htask, -, hevent, -⟩ := hlast [] h
        refine ⟨past, e, rest, he, htask, ?_⟩
        have hnone : (linearised env past).held id = none :=
          answered_remove hnames hseparate he hid hevent
        change (linearised env (past ++ [e])).held = (exec _ _ (.blobDelete id) _).2.held
        rw [hunsettled (by rw [hevent]; rfl), held_blobDelete, if_pos rfl]
        exact (Function.update_eq_self_iff.mpr hnone.symm).symm
    | error err =>
      obtain ⟨past, e, rest, he, htask, -, hevent, -⟩ := hlast [] hends
      refine ⟨past, e, rest, he, htask, ?_⟩
      cases err <;> exact hunsettled (by rw [hevent]; rfl)
  | «exists» id => cases out with
    | ok answer => cases answer with
      | found b =>
        obtain ⟨past, e, rest, he, htask, -, hevent, -⟩ := hlast [] hends
        refine ⟨past, e, rest, he, htask, hunsettled (by rw [hevent]; rfl), ?_⟩
        rintro rfl
        exact answered_stat hnames hseparate he hid hevent
      | done => exact hends.elim
      | bytes b => exact hends.elim
    | error err => exact hends.elim

/-- A run of the store on disk linearises to the blob operations of the server's model, if every
identifier is its own file name and no blob is stored twice at once. -/
theorem file_store_linearises (env : Env) (labels : List (Library.Label BlobRequest Fault Empty))
    (hnames : ∀ r, .spawn r ∈ labels → IsFileName (transferId r))
    (hseparate : Pool.Along (diskSemantics handler) {} plan.Separate labels) :
    Linearises env (run labels) := by
  have hconf := Pool.run_conforms (diskSemantics handler) {} labels
  constructor
  · intro id hid
    have hinv := Plan.run_inv handler_allows Disk.sound_empty hseparate
    rw [run, hinv.listing _ (dot_not_mem_pathFor id), hid.pathFor_eq]
    exact congrFun (stored_eq_linearised env hnames (List.append_nil _).symm) id
  · rw [List.pairwise_iff_getElem]
    intro a b ha hb hab htask
    have hsplit : (run labels).trace = (run labels).trace.take b ++
        (run labels).trace[b] :: (run labels).trace.drop (b + 1) := by
      rw [List.getElem_cons_drop, List.take_append_drop]
    apply (hconf.operation_spec handler_spec hsplit).2.2
    apply Pool.mem_eventsOf.mpr
    refine ⟨(run labels).trace[a], ?_, htask, rfl⟩
    exact List.mem_take_iff_getElem.mpr ⟨a, by omega, rfl⟩
  · intro i t out ht hout
    exact answers_of_ended hnames hseparate ht (hconf.outcome_spec handler_spec ht hout)

end Linearise

/-! ## Uploads under fresh identifiers -/

theorem withExtension_inj {id id' extension : String} (hid : IsFileName id) (hid' : IsFileName id')
    (h : withExtension (pathFor id) extension = withExtension (pathFor id') extension) :
    id = id' := by
  rw [withExtension, withExtension, fileStem_eq (dot_not_mem_pathFor id),
    fileStem_eq (dot_not_mem_pathFor id'), hid.pathFor_eq, hid'.pathFor_eq] at h
  have hlist := congrArg String.toList h
  simp only [String.toList_append, List.append_cancel_right_eq] at hlist
  exact String.toList_injective hlist

/-- The identifier of a blob that is stored. -/
def storedId : Library.Label BlobRequest Fault Empty → Option String
  | .spawn (.put id _) => some id
  | _ => none

/-- No blob is stored twice at once if no identifier is used twice. -/
theorem separate_of_nodup {labels : List (Library.Label BlobRequest Fault Empty)}
    (hnames : ∀ r, .spawn r ∈ labels → IsFileName (transferId r))
    (hfresh : (labels.filterMap storedId).Nodup) :
    Pool.Along (diskSemantics handler) {} plan.Separate labels := by
  rintro done l rest rfl r x rfl hx i s y ⟨op, k, hi⟩ hy htemporary
  obtain ⟨id, bytes, rfl, hid⟩ := replacement_temporary hx
  obtain ⟨id', bytes', rfl, hid'⟩ := replacement_temporary hy
  have hspawned : Library.Label.spawn (.put id' bytes') ∈ done :=
    Pool.run_spawned _ _ _ _ (List.mem_of_getElem? hi)
  rw [hid, hid'] at htemporary
  have hsame : id' = id := withExtension_inj (hnames (.put id' bytes') (by simp [hspawned]))
    (hnames (.put id bytes) (by simp)) htemporary
  rw [List.filterMap_append, List.nodup_append] at hfresh
  refine hfresh.2.2 id' (List.mem_filterMap.mpr ⟨_, hspawned, rfl⟩) id ?_ hsame
  exact List.mem_filterMap.mpr ⟨.spawn (.put id bytes), List.mem_cons_self, rfl⟩

/-- One upload, read while it is written and after it. -/
def sampleRun : List (Library.Label BlobRequest Fault Empty) :=
  [.spawn (.put "tx_1" [1, 2]), .spawn (.get "tx_1"), .step 0 {}, .step 0 {}, .step 1 {},
    .step 0 {}, .step 0 {}, .step 0 {}, .step 0 {}, .spawn (.get "tx_1"), .step 2 {}, .step 2 {}]

theorem isFileName_sample : IsFileName "tx_1" := by
  intro c hc
  have hlist : c ∈ ['t', 'x', '_', '1'] := hc
  simp only [List.mem_cons, List.not_mem_nil, or_false] at hlist
  rcases hlist with rfl | rfl | rfl | rfl <;> rfl

theorem file_store_linearises_sample : Linearises Sample.env (run sampleRun) := by
  have hnames : ∀ r, Library.Label.spawn r ∈ sampleRun → IsFileName (transferId r) := by
    intro r hr
    have hid : transferId r = "tx_1" := by
      simp only [sampleRun, List.mem_cons, Library.Label.spawn.injEq, reduceCtorEq, false_or,
        List.not_mem_nil, or_false] at hr
      rcases hr with rfl | rfl | rfl <;> rfl
    rw [hid]
    exact isFileName_sample
  exact file_store_linearises Sample.env sampleRun hnames (separate_of_nodup hnames (by decide))

end FileBlobStore

end AgentExchange.ControlPlane
