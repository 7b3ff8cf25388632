import AgentExchange.Service.FileBlobs

/-!
# The signing key on disk

At its start the server reads its key, or generates one and stores it by renaming. Tickets signed
after one start are checked against the key of another, so a server that crashes while it
starts, at any point, must not leave another key or a part of one.
-/
namespace AgentExchange.ControlPlane

open Library

inductive SignerError where
  | io (error : FileError)
  | badLength (length : ℕ)
  deriving DecidableEq

/-- `SIGNING_KEY_PATH`: the parent directory, empty if there is none, and the file name. -/
structure KeyPath where
  parent : String
  name : String

/-- A start of the server, with the key it generates if it finds none. -/
structure Boot where
  generated : Bytes
  generated_length : generated.length = 32

namespace ControlPlaneSigner

abbrev SignerProg := Program (files String UInt8) SignerError

abbrev io (op : FileOp String UInt8) : SignerProg op.Answer :=
  Program.call (S := files String UInt8) op

def orIo {α : Type} (answer : Except FileError α) : SignerProg α :=
  Program.lift (answer.mapError .io)

def persist (path : KeyPath) (key : Bytes) : SignerProg Unit := do
  let tmp := withExtension path.name "tmp"
  let _ ← orIo (← io (.create tmp))
  -- `tokio::fs::write` opens the file once more
  let f ← orIo (← io (.create tmp))
  orIo (← io (.write f key))
  orIo (← io (.rename tmp path.name))

def loadOrGenerate (path : KeyPath) (boot : Boot) : SignerProg Bytes := do
  if path.parent ≠ "" then
    orIo (← io .makeDirs)
  match ← io (.openFile path.name) with
  | .ok f =>
    let bytes ← orIo (← io (.read f))
    Program.ensure (bytes.length = 32) (.badLength bytes.length)
    pure bytes
  | .error .notFound =>
    persist path boot.generated
    pure boot.generated
  | .error e => throw (.io e)

/-- The server, started again and again on one disk. A label that drops a task is a crash. -/
def run (path : KeyPath) (init : Disk String UInt8) (labels : List (Library.Label Boot Fault Empty)) :
    Pool (files String UInt8) (Disk String UInt8) Boot SignerError Bytes :=
  Pool.run (diskSemantics (loadOrGenerate path)) init labels

/-- The start has an operation left to perform. -/
def starting (t : Library.Task (files String UInt8) Boot SignerError Bytes) : Bool :=
  match t.program with
  | some (.perform _ _) => true
  | _ => false

/-- The server is not started while it is still starting. -/
def OneAtATime (p : Pool (files String UInt8) (Disk String UInt8) Boot SignerError Bytes) :
    Library.Label Boot Fault Empty → Prop
  | .spawn _ => ∀ t ∈ p.tasks, starting t = false
  | _ => True

instance decidableOneAtATime
    (p : Pool (files String UInt8) (Disk String UInt8) Boot SignerError Bytes) :
    ∀ l, Decidable (OneAtATime p l)
  | .spawn _ => inferInstanceAs (Decidable (∀ t ∈ p.tasks, starting t = false))
  | .step _ _ | .cancel _ | .environment _ => .isTrue trivial

/-! ## What a start does -/

variable {path : KeyPath} (hpath : withExtension path.name "tmp" ≠ path.name)

def plan : Plan String UInt8 Boot where
  isRead name := name = path.name
  writes boot := some ⟨withExtension path.name "tmp", path.name, boot.generated⟩
  temporary_unread := by
    rintro boot x ⟨⟩
    exact hpath
  target_read := by
    rintro boot x ⟨⟩
    rfl

/-- A start that ends has stored the key it generated, or has read one. -/
def endsWith (path : KeyPath) (boot : Boot) (past : List (Event (files String UInt8))) :
    Except SignerError Bytes → Prop
  | .ok key => key = boot.generated ∧
      ⟨.rename (withExtension path.name "tmp") path.name, .ok ()⟩ ∈ past ∨
      ∃ f, ⟨.read f, .ok key⟩ ∈ past
  | .error (.badLength n) => n ≠ 32 ∧ ∃ f bytes, ⟨.read f, .ok bytes⟩ ∈ past ∧ bytes.length = n
  | .error (.io _) => True

theorem spec_orIo_bind {α β : Type} {pre : List (Event (files String UInt8)) → FileOp String UInt8 →
    Prop} {post : List (Event (files String UInt8)) → Except SignerError β → Prop}
    {past : List (Event (files String UInt8))} {answer : Except FileError α} {f : α → SignerProg β}
    (hok : ∀ a, answer = .ok a → (f a).Spec pre post past)
    (herror : ∀ e, post past (.error (.io e))) : (orIo answer >>= f).Spec pre post past := by
  apply Program.spec_lift_bind.mpr
  cases answer with
  | ok a =>
    constructor
    · rintro b ⟨⟩
      exact hok a rfl
    · rintro e ⟨⟩
  | error err =>
    constructor
    · rintro b ⟨⟩
    · rintro e ⟨⟩
      exact herror err

theorem persist_spec (boot : Boot) {past : List (Event (files String UInt8))}
    (hpast : Disk.Steady past) (hmissing : ⟨.openFile path.name, .error .notFound⟩ ∈ past) :
    (persist path boot.generated).Spec ((plan hpath).Once boot)
      (fun past out => endsWith path boot past (out.map fun _ => boot.generated)) past := by
  have hwrites : (plan hpath).writes boot =
      some ⟨withExtension path.name "tmp", path.name, boot.generated⟩ := rfl
  unfold persist
  apply Program.spec_call_bind.mpr
  refine ⟨⟨⟨_, hwrites, rfl⟩, hpast, by simp, by simp⟩, fun created => ?_⟩
  apply spec_orIo_bind _ fun _ => trivial
  rintro f rfl
  have hcreated : Disk.Steady (past ++ [⟨.create (withExtension path.name "tmp"), .ok f⟩]) :=
    hpast.snoc rfl
  apply Program.spec_call_bind.mpr
  refine ⟨⟨⟨_, hwrites, rfl⟩, hcreated, by simp, by simp⟩, fun opened => ?_⟩
  apply spec_orIo_bind _ fun _ => trivial
  rintro f' rfl
  apply Program.spec_call_bind.mpr
  refine ⟨⟨⟨_, hwrites, rfl, ?_⟩, hcreated.snoc rfl, by simp, by simp⟩, fun written => ?_⟩
  · rw [progress_snoc, advance_create]
  apply spec_orIo_bind _ fun _ => trivial
  rintro u rfl
  apply Program.spec_call_bind.mpr
  refine ⟨⟨⟨_, f', hwrites, rfl, rfl, ?_⟩, (hcreated.snoc rfl).snoc rfl, by simp, ?_⟩,
    fun renamed => ?_⟩
  · rw [progress_snoc, progress_snoc, advance_create, advance_write]
  · rintro source target ⟨⟩
    simp [hmissing]
  · apply Program.spec_lift.mpr
    cases renamed with
    | ok u => exact Or.inl ⟨rfl, by simp⟩
    | error e => trivial

theorem loadOrGenerate_spec (boot : Boot) :
    (loadOrGenerate path boot).Spec ((plan hpath).Once boot) (endsWith path boot) [] := by
  have hload {past : List (Event (files String UInt8))} (hpast : Disk.Steady past) :
      Program.Spec ((plan hpath).Once boot) (endsWith path boot) (do
        match ← io (.openFile path.name) with
        | .ok f =>
          let bytes ← orIo (← io (.read f))
          Program.ensure (bytes.length = 32) (.badLength bytes.length)
          pure bytes
        | .error .notFound =>
          persist path boot.generated
          pure boot.generated
        | .error e => throw (.io e)) past := by
    apply Program.spec_call_bind.mpr
    refine ⟨⟨rfl, hpast, by simp, by simp⟩, fun opened => ?_⟩
    rcases opened with (_ | _) | f
    · apply Program.spec_bind.mpr
      apply (persist_spec hpath boot (hpast.snoc rfl) (by simp)).mono fun _ _ h => h
      rintro past (e | u) h
      · exact h
      · exact h
    · trivial
    · apply Program.spec_call_bind.mpr
      refine ⟨⟨⟨path.name, by simp⟩, hpast.snoc rfl, by simp, by simp⟩, fun data => ?_⟩
      apply spec_orIo_bind _ fun _ => trivial
      rintro bytes rfl
      apply Program.spec_ensure_bind.mpr
      constructor
      · intro _
        exact Or.inr ⟨f, by simp⟩
      · intro hlength
        exact ⟨hlength, f, bytes, by simp, rfl⟩
  unfold loadOrGenerate
  split_ifs
  · apply Program.spec_call_bind.mpr
    refine ⟨⟨trivial, Disk.steady_nil, by simp, by simp⟩, fun made => ?_⟩
    exact spec_orIo_bind (fun _ _ => hload (Disk.steady_nil.snoc rfl)) fun _ => trivial
  · exact hload Disk.steady_nil

/-! ## Runs -/

theorem once_spec (boot : Boot) :
    (loadOrGenerate path boot).Spec ((plan hpath).Once boot) (fun _ _ => True) [] :=
  (loadOrGenerate_spec hpath boot).mono (fun _ _ h => h) fun _ _ _ => trivial

theorem task_of_outcome {p : Pool (files String UInt8) (Disk String UInt8) Boot SignerError Bytes}
    {i : ℕ} {out : Except SignerError Bytes} (h : p.outcome i = some out) :
    ∃ t, p.tasks[i]? = some t := by
  cases ht : p.tasks[i]? with
  | none => simp [Pool.outcome, ht] at h
  | some t => exact ⟨t, rfl⟩

section Runs

variable {init : Disk String UInt8} (hinit : init.Sound)
  {labels : List (Library.Label Boot Fault Empty)}
  (hone : Pool.Along (diskSemantics (loadOrGenerate path)) init OneAtATime labels)

theorem run_conforms :
    Pool.Conforms (diskSemantics (loadOrGenerate path)) (run path init labels) :=
  Pool.run_conforms _ _ _

include hpath hone

theorem separate :
    Pool.Along (diskSemantics (loadOrGenerate path)) init (plan hpath).Separate labels := by
  rintro done l rest hlabels boot x rfl hx i other y ⟨op, k, hi⟩
  have hidle := hone done _ rest hlabels _ (List.mem_of_getElem? hi)
  cases hidle

include hinit

theorem listing_eq : (run path init labels).shared.listing path.name =
    (plan hpath).stored init (run path init labels).trace path.name :=
  (Plan.run_inv (Plan.once_allows (once_spec hpath)) hinit (separate hpath hone)).listing _ rfl

/-- What is stored at one point of a run is there at its end. -/
theorem listing_of_stored {past rest : List (Plan.Files String UInt8 Boot)} {key : Bytes}
    (htrace : (run path init labels).trace = past ++ rest)
    (h : (plan hpath).stored init past path.name = some key) :
    (run path init labels).shared.listing path.name = some key := by
  have honce := Plan.run_once (once_spec hpath) (by rintro r s x y ⟨⟩ ⟨⟩ -; rfl) hinit
    (separate hpath hone)
  rw [listing_eq hpath hinit hone]
  exact honce.fixed past rest htrace _ _ h

theorem listing_of_read {i f : ℕ} {key : Bytes}
    (h : ⟨.read f, .ok key⟩ ∈ Pool.eventsOf (run path init labels).trace i) :
    (run path init labels).shared.listing path.name = some key := by
  have hallows := Plan.once_allows (once_spec hpath)
  obtain ⟨e, he, htask, hevent⟩ := Pool.mem_eventsOf.mp h
  obtain ⟨past, rest, htrace⟩ := List.append_of_mem he
  obtain ⟨before, o, between, n, rfl, hsame, hopen, hstored⟩ :=
    Plan.read_stored hallows hinit (separate hpath hone) htrace hevent
  rw [List.append_assoc] at htrace
  have hopens := run_conforms.operation_spec hallows htrace
  rw [hopen] at hopens
  obtain rfl : n = path.name := hopens
  exact listing_of_stored hpath hinit hone htrace hstored

theorem listing_of_renamed {i : ℕ} {t : Library.Task (files String UInt8) Boot SignerError Bytes}
    (ht : (run path init labels).tasks[i]? = some t)
    (h : ⟨.rename (withExtension path.name "tmp") path.name, .ok ()⟩ ∈
      Pool.eventsOf (run path init labels).trace i) :
    (run path init labels).shared.listing path.name = some t.request.generated := by
  obtain ⟨e, he, htask, hevent⟩ := Pool.mem_eventsOf.mp h
  obtain ⟨past, rest, htrace⟩ := List.append_of_mem he
  have hrequest := run_conforms.request_of_task _ he (htask ▸ ht)
  have hsplit : (run path init labels).trace = (past ++ [e]) ++ rest := by simp [htrace]
  apply listing_of_stored hpath hinit hone hsplit
  rw [Plan.stored_snoc]
  obtain ⟨j, r, d, event⟩ := e
  cases hevent
  obtain rfl : r = t.request := hrequest
  exact Function.update_self _ _ _

theorem listing_length
    (hlength : ∀ key, init.listing path.name = some key → key.length = 32) {key : Bytes}
    (h : (run path init labels).shared.listing path.name = some key) : key.length = 32 := by
  rw [listing_eq hpath hinit hone] at h
  rcases Plan.stored_origin h with hold | ⟨e, -, x, hx, -, rfl⟩
  · exact hlength key hold
  · cases hx
    exact e.request.generated_length

end Runs

/-- Every start returns the key on disk, which is whole. -/
structure KeepsKey (path : KeyPath)
    (w : Pool (files String UInt8) (Disk String UInt8) Boot SignerError Bytes) : Prop where
  stored : ∀ i key, w.outcome i = some (.ok key) → w.shared.listing path.name = some key
  complete : ∀ key, w.shared.listing path.name = some key → key.length = 32
  readable : ∀ i n, w.outcome i ≠ some (.error (.badLength n))

/-- However often the server is started and crashes while it starts, every start that succeeds,
early or late, returns the one key that is on disk in the end, and no start ever finds a key of
another length. -/
theorem key_survives_crashes {path : KeyPath} (hpath : withExtension path.name "tmp" ≠ path.name)
    {init : Disk String UInt8} (hinit : init.Sound)
    (hlength : ∀ key, init.listing path.name = some key → key.length = 32)
    {labels : List (Library.Label Boot Fault Empty)}
    (hone : Pool.Along (diskSemantics (loadOrGenerate path)) init OneAtATime labels) :
    KeepsKey path (run path init labels) := by
  constructor
  · intro i key hout
    obtain ⟨t, ht⟩ := task_of_outcome hout
    rcases run_conforms.outcome_spec (loadOrGenerate_spec hpath) ht hout with
      ⟨rfl, hrenamed⟩ | ⟨f, hread⟩
    · exact listing_of_renamed hpath hinit hone ht hrenamed
    · exact listing_of_read hpath hinit hone hread
  · exact fun key => listing_length hpath hinit hone hlength
  · intro i n hout
    obtain ⟨t, ht⟩ := task_of_outcome hout
    obtain ⟨hn, f, bytes, hread, hbytes⟩ :=
      run_conforms.outcome_spec (loadOrGenerate_spec hpath) ht hout
    apply hn
    rw [← hbytes]
    exact listing_length hpath hinit hone hlength (listing_of_read hpath hinit hone hread)

def sampleBoot : Boot := ⟨List.replicate 32 7, rfl⟩

/-- A start that crashes when it has written a part of its key, one that stores its key, and one
that reads it. -/
def sampleBoots : List (Library.Label Boot Fault Empty) :=
  [.spawn sampleBoot, .step 0 {}, .step 0 {}, .step 0 {}, .step 0 ⟨true, 5⟩, .cancel 0,
    .spawn sampleBoot, .step 1 {}, .step 1 {}, .step 1 {}, .step 1 {}, .step 1 {},
    .spawn sampleBoot, .step 2 {}, .step 2 {}]

def samplePath : KeyPath := ⟨"", "key"⟩

theorem key_survives_crashes_sample : KeepsKey samplePath (run samplePath {} sampleBoots) := by
  have hpath : withExtension samplePath.name "tmp" ≠ samplePath.name := by decide +kernel
  have hone : Pool.Along (diskSemantics (loadOrGenerate samplePath)) {} OneAtATime sampleBoots :=
    Pool.AlongFrom.along _ (by decide +kernel)
  exact key_survives_crashes hpath Disk.sound_empty (by simp [Disk.listing]) hone

end ControlPlaneSigner

end AgentExchange.ControlPlane
