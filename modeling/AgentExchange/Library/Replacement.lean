import AgentExchange.Library.TaskPool
import Mathlib.Logic.Function.Basic

/-!
# Replacing files by renaming

Names lead to files. A task that has opened a file keeps it when its name goes to another
file, and a write that fails may have written a part. A file is replaced by writing the new one
under a name that nobody reads, and renaming it once it is complete.

A `Plan` says which names are read and what each request writes. If the programs keep the plan
and no two requests in progress write under the same name, then under every interleaving, with
any operation failing and any task dropped, the files that are read change at the renames and
removals only, and a file once opened is read as it was when it was opened.
-/
namespace AgentExchange.Library

inductive FileError where
  | notFound
  | other
  deriving DecidableEq

/-- A file is known by its number; the numbers from `fresh` on were never used. -/
structure Disk (ν β : Type) where
  names : ν → Option ℕ := fun _ => none
  contents : ℕ → List β := fun _ => []
  fresh : ℕ := 0

inductive FileOp (ν β : Type) where
  /-- opens for writing: makes the file, or truncates it -/
  | create (name : ν)
  /-- writes from the start of the file -/
  | write (file : ℕ) (data : List β)
  | flush (file : ℕ)
  | sync (file : ℕ)
  | setPermissions (name : ν)
  | makeDirs
  | rename (source target : ν)
  | openFile (name : ν)
  | read (file : ℕ)
  | remove (name : ν)
  | stat (name : ν)

abbrev FileOp.Answer {ν β : Type} : FileOp ν β → Type
  | .create _ | .openFile _ => Except FileError ℕ
  | .read _ => Except FileError (List β)
  | .stat _ => Bool
  | .write _ _ | .flush _ | .sync _ | .setPermissions _ | .makeDirs | .rename _ _ | .remove _ =>
    Except FileError Unit

abbrev files (ν β : Type) : Signature := ⟨FileOp ν β, FileOp.Answer⟩

/-- Whether an operation fails, and how much a failing write has written. -/
structure Fault where
  fails : Bool := false
  written : ℕ := 0

variable {ν β : Type}

namespace Disk

/-- What is read under each name. -/
def listing (d : Disk ν β) (name : ν) : Option (List β) := (d.names name).map d.contents

/-- Every name leads to a file of its own. -/
structure Sound (d : Disk ν β) : Prop where
  fresh : ∀ name file, d.names name = some file → file < d.fresh
  unique : ∀ name name' file, d.names name = some file → d.names name' = some file → name = name'

theorem sound_empty : ({} : Disk ν β).Sound := ⟨by simp, by simp⟩

/-- The event leaves the disk as it is and finds no file. -/
def Quiet : Event (files ν β) → Prop
  | ⟨.create _, .ok _⟩ | ⟨.write _ _, _⟩ | ⟨.rename _ _, .ok _⟩ | ⟨.remove _, .ok _⟩
  | ⟨.openFile _, .ok _⟩ => False
  | _ => True

/-- The event changes where a name leads. -/
def relinks : Event (files ν β) → Bool
  | ⟨.rename _ _, .ok _⟩ | ⟨.remove _, .ok _⟩ => true
  | _ => false

/-- None of the events changed where a name leads. -/
def Steady (past : List (Event (files ν β))) : Prop := ∀ e ∈ past, relinks e = false

theorem steady_nil : Steady ([] : List (Event (files ν β))) := by simp [Steady]

theorem Steady.snoc {past : List (Event (files ν β))} (h : Steady past) {e : Event (files ν β)}
    (he : relinks e = false) : Steady (past ++ [e]) := by
  intro e' he'
  rcases List.mem_append.mp he' with hold | hnew
  · exact h e' hold
  · rw [List.mem_singleton.mp hnew]
    exact he

variable [DecidableEq ν]

def write (d : Disk ν β) (file : ℕ) (data : List β) : Disk ν β :=
  ⟨d.names, Function.update d.contents file (data ++ (d.contents file).drop data.length), d.fresh⟩

def truncate (d : Disk ν β) (file : ℕ) : Disk ν β :=
  ⟨d.names, Function.update d.contents file [], d.fresh⟩

def create (d : Disk ν β) (name : ν) : Disk ν β :=
  ⟨Function.update d.names name (some d.fresh), Function.update d.contents d.fresh [], d.fresh + 1⟩

def rename (d : Disk ν β) (source target : ν) (file : ℕ) : Disk ν β :=
  ⟨Function.update (Function.update d.names source none) target (some file), d.contents, d.fresh⟩

def remove (d : Disk ν β) (name : ν) : Disk ν β :=
  ⟨Function.update d.names name none, d.contents, d.fresh⟩

/-- The answer of an operation on an existing name. -/
def find (d : Disk ν β) (name : ν) : Except FileError ℕ :=
  match d.names name with
  | some file => .ok file
  | none => .error .notFound

def faulty (c : Fault) : Except FileError Unit := if c.fails then .error .other else .ok ()

def exec (d : Disk ν β) : (op : FileOp ν β) → Fault → op.Answer × Disk ν β
  | .create name, c =>
    if c.fails then (.error .other, d)
    else match d.names name with
      | some file => (.ok file, d.truncate file)
      | none => (.ok d.fresh, d.create name)
  | .write file data, c =>
    if c.fails then (.error .other, d.write file (data.take c.written))
    else (.ok (), d.write file data)
  | .flush _, c | .sync _, c | .setPermissions _, c | .makeDirs, c => (faulty c, d)
  | .rename source target, c =>
    if c.fails then (.error .other, d)
    else match d.names source with
      | some file => (.ok (), d.rename source target file)
      | none => (.error .notFound, d)
  | .openFile name, c => (if c.fails then .error .other else d.find name, d)
  | .read file, c => (if c.fails then .error .other else .ok (d.contents file), d)
  | .remove name, c =>
    if c.fails then (.error .other, d)
    else match d.names name with
      | some _ => (.ok (), d.remove name)
      | none => (.error .notFound, d)
  | .stat name, c => (!c.fails && (d.names name).isSome, d)

/-- Everything an event can do to a disk. -/
inductive Step (d : Disk ν β) : Event (files ν β) → Disk ν β → Prop
  | truncate {name : ν} {file : ℕ} (h : d.names name = some file) :
    Step d ⟨.create name, .ok file⟩ (d.truncate file)
  | create {name : ν} (h : d.names name = none) :
    Step d ⟨.create name, .ok d.fresh⟩ (d.create name)
  | write (file : ℕ) (data : List β) : Step d ⟨.write file data, .ok ()⟩ (d.write file data)
  | torn (file : ℕ) (data : List β) (n : ℕ) :
    Step d ⟨.write file data, .error .other⟩ (d.write file (data.take n))
  | rename {source target : ν} {file : ℕ} (h : d.names source = some file) :
    Step d ⟨.rename source target, .ok ()⟩ (d.rename source target file)
  | remove {name : ν} {file : ℕ} (h : d.names name = some file) :
    Step d ⟨.remove name, .ok ()⟩ (d.remove name)
  | openFile {name : ν} {file : ℕ} (h : d.names name = some file) :
    Step d ⟨.openFile name, .ok file⟩ d
  | quiet {e : Event (files ν β)} (h : Quiet e) : Step d e d

theorem exec_step (d : Disk ν β) (op : FileOp ν β) (c : Fault) :
    Step d ⟨op, (d.exec op c).1⟩ (d.exec op c).2 := by
  cases op with
  | create name =>
    simp only [exec]
    split_ifs
    · exact .quiet trivial
    · split
      · exact .truncate ‹_›
      · exact .create ‹_›
  | write file data =>
    simp only [exec]
    split_ifs
    · exact .torn file data c.written
    · exact .write file data
  | rename source target =>
    simp only [exec]
    split_ifs
    · exact .quiet trivial
    · split
      · exact .rename ‹_›
      · exact .quiet trivial
  | openFile name =>
    simp only [exec, find]
    split_ifs
    · exact .quiet trivial
    · split
      · exact .openFile ‹_›
      · exact .quiet trivial
  | remove name =>
    simp only [exec]
    split_ifs
    · exact .quiet trivial
    · split
      · exact .remove ‹_›
      · exact .quiet trivial
  | _ => exact .quiet trivial

theorem exec_openFile_missing {d : Disk ν β} {op : FileOp ν β} {c : Fault} {name : ν}
    (h : (⟨op, (d.exec op c).1⟩ : Event (files ν β)) = ⟨.openFile name, .error .notFound⟩) :
    op = .openFile name ∧ d.names name = none := by
  obtain rfl : op = .openFile name := congrArg Event.op h
  refine ⟨rfl, ?_⟩
  injection h with _ hanswer
  simp only [exec, find] at hanswer
  split_ifs at hanswer
  · cases hanswer
  · cases hname : d.names name with
    | none => rfl
    | some file => simp [hname] at hanswer

theorem Step.fresh_le {d d' : Disk ν β} {e : Event (files ν β)} (h : d.Step e d') :
    d.fresh ≤ d'.fresh := by
  cases h with
  | create hname => exact Nat.le_succ _
  | _ => exact le_rfl

theorem create_names_iff {d : Disk ν β} {name m : ν} {file : ℕ} :
    (d.create name).names m = some file ↔
      m = name ∧ file = d.fresh ∨ m ≠ name ∧ d.names m = some file := by
  simp only [create, Function.update_apply]
  split_ifs with h
  · simp [h, eq_comm]
  · simp [h]

theorem rename_names_iff {d : Disk ν β} {source target m : ν} {file file' : ℕ} :
    (d.rename source target file).names m = some file' ↔
      m = target ∧ file' = file ∨ m ≠ target ∧ m ≠ source ∧ d.names m = some file' := by
  simp only [rename, Function.update_apply]
  split_ifs with h h'
  · simp [h, eq_comm]
  · subst h'
    simp [h]
  · simp [h, h']

theorem remove_names_iff {d : Disk ν β} {name m : ν} {file : ℕ} :
    (d.remove name).names m = some file ↔ m ≠ name ∧ d.names m = some file := by
  simp only [remove, Function.update_apply]
  split_ifs with h <;> simp [h]

/-- Whatever is done to it, a disk stays sound. -/
theorem Sound.step {d d' : Disk ν β} {e : Event (files ν β)} (hd : d.Sound) (h : d.Step e d') :
    d'.Sound := by
  cases h with
  | create hname =>
    constructor
    · intro m file hm
      rcases create_names_iff.mp hm with ⟨-, rfl⟩ | ⟨-, hm⟩
      · exact Nat.lt_succ_self _
      · exact (hd.fresh m file hm).trans (Nat.lt_succ_self _)
    · intro m m' file hm hm'
      rcases create_names_iff.mp hm with ⟨hname, hfile⟩ | ⟨-, hold⟩ <;>
        rcases create_names_iff.mp hm' with ⟨hname', hfile'⟩ | ⟨-, hold'⟩
      · exact hname.trans hname'.symm
      · exact absurd (hd.fresh m' file hold') hfile.not_lt
      · exact absurd (hd.fresh m file hold) hfile'.not_lt
      · exact hd.unique m m' file hold hold'
  | @rename source target moved hmoved =>
    constructor
    · intro m file hm
      rcases rename_names_iff.mp hm with ⟨-, rfl⟩ | ⟨-, -, hold⟩
      · exact hd.fresh source file hmoved
      · exact hd.fresh m file hold
    · intro m m' file hm hm'
      rcases rename_names_iff.mp hm with ⟨hname, hfile⟩ | ⟨-, hne, hold⟩ <;>
        rcases rename_names_iff.mp hm' with ⟨hname', hfile'⟩ | ⟨-, hne', hold'⟩
      · exact hname.trans hname'.symm
      · exact absurd (hd.unique m' source file hold' (hfile ▸ hmoved)) hne'
      · exact absurd (hd.unique m source file hold (hfile' ▸ hmoved)) hne
      · exact hd.unique m m' file hold hold'
  | remove hfile =>
    constructor
    · intro m file hm
      exact hd.fresh m file (remove_names_iff.mp hm).2
    · intro m m' file hm hm'
      exact hd.unique m m' file (remove_names_iff.mp hm).2 (remove_names_iff.mp hm').2
  | _ => exact ⟨hd.fresh, hd.unique⟩

end Disk

/-- How far a replacement has come: the file under the temporary name is empty, or holds a part,
or is complete. -/
inductive Progress where
  | none
  | begun (file : ℕ)
  | torn
  | written (file : ℕ)

def Progress.advance : Progress → Event (files ν β) → Progress
  | _, ⟨.create _, .ok file⟩ => .begun file
  | .begun file, ⟨.write _ _, .ok _⟩ => .written file
  | _, ⟨.write _ _, _⟩ => .torn
  | _, ⟨.rename _ _, .ok _⟩ | _, ⟨.remove _, .ok _⟩ => .none
  | p, _ => p

def progress (past : List (Event (files ν β))) : Progress := past.foldl Progress.advance .none

@[simp] theorem progress_nil : progress ([] : List (Event (files ν β))) = .none := rfl

@[simp] theorem progress_snoc (past : List (Event (files ν β))) (e : Event (files ν β)) :
    progress (past ++ [e]) = (progress past).advance e := by
  simp [progress]

theorem advance_create (p : Progress) (name : ν) (file : ℕ) :
    p.advance (⟨.create name, .ok file⟩ : Event (files ν β)) = .begun file := by
  cases p <;> rfl

theorem advance_write (file file' : ℕ) (data : List β) (u : Unit) :
    (Progress.begun file).advance (⟨.write file' data, .ok u⟩ : Event (files ν β)) =
      .written file := rfl

section Pool

variable {ρ ε α : Type}

def diskSemantics [DecidableEq ν] (handler : ρ → Program (files ν β) ε α) :
    Semantics (files ν β) (Disk ν β) ρ ε α Fault Empty where
  handler := handler
  exec := Disk.exec
  environment t := t.elim

/-- The request has an operation left to perform. -/
def InProgress (p : Pool (files ν β) (Disk ν β) ρ ε α) (i : ℕ) (r : ρ) : Prop :=
  ∃ op k, p.tasks[i]? = some ⟨r, some (.perform op k)⟩

theorem InProgress.of_append {p : Pool (files ν β) (Disk ν β) ρ ε α} {i : ℕ} {r s : ρ}
    {q : Program (files ν β) ε α} {d : Disk ν β}
    (h : InProgress ⟨d, p.tasks ++ [⟨s, some q⟩], p.trace⟩ i r) :
    InProgress p i r ∨ i = p.tasks.length ∧ r = s := by
  obtain ⟨op, k, hi⟩ := h
  rw [List.getElem?_append] at hi
  split_ifs at hi with hlt
  · exact Or.inl ⟨op, k, hi⟩
  · have hzero : i - p.tasks.length = 0 := by
      have := (List.getElem?_eq_some_iff.mp hi).1
      simpa using this
    rw [hzero] at hi
    cases hi
    exact Or.inr ⟨by omega, rfl⟩

theorem InProgress.of_set {p : Pool (files ν β) (Disk ν β) ρ ε α} {i j : ℕ} {r : ρ}
    {t : Task (files ν β) ρ ε α} {q : Option (Program (files ν β) ε α)} {d : Disk ν β}
    {trace : List (Entry (files ν β) (Disk ν β) ρ)} (hj : p.tasks[j]? = some t)
    (h : InProgress ⟨d, p.tasks.set j { t with program := q }, trace⟩ i r) :
    (i = j ∧ r = t.request ∧ ∃ op k, q = some (.perform op k)) ∨ i ≠ j ∧ InProgress p i r := by
  obtain ⟨op, k, hi⟩ := h
  by_cases hij : j = i
  · subst hij
    rw [List.getElem?_set_self (List.getElem?_eq_some_iff.mp hj).1] at hi
    cases hi
    exact Or.inl ⟨rfl, rfl, op, k, rfl⟩
  · rw [List.getElem?_set_ne hij] at hi
    exact Or.inr ⟨fun h => hij h.symm, op, k, hi⟩

end Pool

/-- New contents for the file `target`, written under `temporary` first. -/
structure Replacement (ν β : Type) where
  temporary : ν
  target : ν
  data : List β

/-- Which names are read, and what each request writes. -/
structure Plan (ν β ρ : Type) where
  isRead : ν → Prop
  writes : ρ → Option (Replacement ν β)
  temporary_unread : ∀ r x, writes r = some x → ¬isRead x.temporary
  target_read : ∀ r x, writes r = some x → isRead x.target

namespace Plan

variable {ρ ε α : Type} (P : Plan ν β ρ)

/-- What a program may do next. -/
def Allows (r : ρ) (past : List (Event (files ν β))) : FileOp ν β → Prop
  | .create name => ∃ x, P.writes r = some x ∧ name = x.temporary
  | .write file data => ∃ x, P.writes r = some x ∧ data = x.data ∧ progress past = .begun file
  | .rename source target => ∃ x file, P.writes r = some x ∧ source = x.temporary ∧
      target = x.target ∧ progress past = .written file
  | .remove name => P.isRead name ∨ ∃ x, P.writes r = some x ∧ name = x.temporary
  | .openFile name => P.isRead name
  | .read file => ∃ name, ⟨.openFile name, .ok file⟩ ∈ past
  | _ => True

/-- What the disk holds of a replacement in progress. -/
def Holds (d : Disk ν β) (x : Replacement ν β) : Progress → Prop
  | .begun file => d.names x.temporary = some file ∧ d.contents file = []
  | .written file => d.names x.temporary = some file ∧ d.contents file = x.data
  | _ => True

/-- A request that writes is started when no request in progress writes under the same name. -/
def Separate (p : Pool (files ν β) (Disk ν β) ρ ε α) (l : Label ρ Fault Empty) : Prop :=
  ∀ r x, l = .spawn r → P.writes r = some x →
    ∀ i s y, InProgress p i s → P.writes s = some y → y.temporary ≠ x.temporary

variable {P}

theorem advance_quiet {e : Event (files ν β)} (h : Disk.Quiet e) (p : Progress) :
    p.advance e = p := by
  obtain ⟨op, answer⟩ := e
  cases op with
  | create name => cases answer with
    | ok file => exact h.elim
    | error err => cases p <;> rfl
  | write file data => exact h.elim
  | rename source target => cases answer with
    | ok u => exact h.elim
    | error err => cases p <;> rfl
  | remove name => cases answer with
    | ok u => exact h.elim
    | error err => cases p <;> rfl
  | _ => cases p <;> rfl

variable [DecidableEq ν]

abbrev Files (ν β ρ : Type) := Entry (files ν β) (Disk ν β) ρ

variable (P) in
/-- What an event does to the files that are read: it replaces one, or removes one. -/
def store (m : ν → Option (List β)) (e : Files ν β ρ) : ν → Option (List β) :=
  match e.event, P.writes e.request with
  | ⟨.rename _ _, .ok _⟩, some x => Function.update m x.target (some x.data)
  | ⟨.remove name, .ok _⟩, _ => Function.update m name none
  | _, _ => m

variable (P) in
/-- The files that are read, as the replacements and removals of the trace leave them. -/
def stored (init : Disk ν β) (trace : List (Files ν β ρ)) : ν → Option (List β) :=
  trace.foldl P.store init.listing

@[simp] theorem stored_nil (init : Disk ν β) : P.stored init [] = init.listing := rfl

@[simp] theorem stored_snoc (init : Disk ν β) (trace : List (Files ν β ρ)) (e : Files ν β ρ) :
    P.stored init (trace ++ [e]) = P.store (P.stored init trace) e := by
  simp [stored]

variable (P) in
structure Inv (init : Disk ν β) (p : Pool (files ν β) (Disk ν β) ρ ε α) : Prop where
  sound : p.shared.Sound
  listing : ∀ n, P.isRead n → p.shared.listing n = P.stored init p.trace n
  holds : ∀ i r x, InProgress p i r → P.writes r = some x →
    Holds p.shared x (progress (Pool.eventsOf p.trace i))
  separate : ∀ i j r s x y, i ≠ j → InProgress p i r → InProgress p j s → P.writes r = some x →
    P.writes s = some y → x.temporary ≠ y.temporary
  /-- an opened file keeps what it held, and no name leads to it that is not read -/
  opened : ∀ past e rest, p.trace = past ++ e :: rest → ∀ n file,
    e.event = ⟨.openFile n, .ok file⟩ → P.stored init past n = some (p.shared.contents file) ∧
      file < p.shared.fresh ∧ ∀ m, p.shared.names m = some file → P.isRead m

theorem store_quiet {m : ν → Option (List β)} {e : Files ν β ρ} (h : Disk.Quiet e.event) :
    P.store m e = m := by
  obtain ⟨i, r, d, op, answer⟩ := e
  cases op with
  | rename source target => cases answer with
    | ok u => exact h.elim
    | error err => rfl
  | remove name => cases answer with
    | ok u => exact h.elim
    | error err => rfl
  | _ => rfl

theorem store_of_not_relinks {m : ν → Option (List β)} {e : Files ν β ρ}
    (h : Disk.relinks e.event = false) : P.store m e = m := by
  obtain ⟨i, r, d, op, answer⟩ := e
  cases op with
  | rename source target => cases answer with
    | ok u => cases h
    | error err => rfl
  | remove name => cases answer with
    | ok u => cases h
    | error err => rfl
  | _ => rfl

theorem store_congr {m m' : ν → Option (List β)} {e : Files ν β ρ} {n : ν} (h : m n = m' n) :
    P.store m e n = P.store m' e n := by
  obtain ⟨i, r, d, op, answer⟩ := e
  cases op with
  | rename source target => cases answer with
    | ok u => cases hw : P.writes r <;> simp [store, hw, Function.update_apply, h]
    | error err => exact h
  | remove name => cases answer with
    | ok u => simp [store, Function.update_apply, h]
    | error err => exact h
  | _ => exact h

/-- What is under a name after an event was there before, or the request wrote it. -/
theorem store_cases {m : ν → Option (List β)} {e : Files ν β ρ} {n : ν} {data : List β}
    (h : P.store m e n = some data) :
    m n = some data ∨ ∃ x, P.writes e.request = some x ∧ x.target = n ∧ x.data = data := by
  obtain ⟨i, r, d, op, answer⟩ := e
  cases op with
  | rename source target => cases answer with
    | error err => exact Or.inl h
    | ok u => cases hw : P.writes r with
      | none =>
        simp only [store, hw] at h
        exact Or.inl h
      | some x =>
        simp only [store, hw, Function.update_apply] at h
        split_ifs at h with hn
        · exact Or.inr ⟨x, rfl, hn.symm, Option.some.inj h⟩
        · exact Or.inl h
  | remove name => cases answer with
    | error err => exact Or.inl h
    | ok u =>
      simp only [store, Function.update_apply] at h
      split_ifs at h
      exact Or.inl h
  | _ => exact Or.inl h

/-- What is stored was there at the start, or a request wrote it. -/
theorem stored_origin {init : Disk ν β} {trace : List (Files ν β ρ)} {n : ν} {data : List β}
    (h : P.stored init trace n = some data) :
    init.listing n = some data ∨
      ∃ e ∈ trace, ∃ x, P.writes e.request = some x ∧ x.target = n ∧ x.data = data := by
  induction trace using List.reverseRecOn with
  | nil => exact Or.inl h
  | append_singleton trace e ih =>
    rw [stored_snoc] at h
    rcases store_cases h with hold | ⟨x, hx, hwritten⟩
    · apply (ih hold).imp_right
      rintro ⟨e', he', hx⟩
      exact ⟨e', List.mem_append_left _ he', hx⟩
    · exact Or.inr ⟨e, List.mem_append_right _ (List.mem_singleton_self e), x, hx, hwritten⟩

section Step

variable {r : ρ} {past : List (Event (files ν β))} {d d' : Disk ν β} {e : Event (files ν β)}

/-- A request changes the names that are read, and its own temporary name. -/
theorem Allows.names_eq (ha : P.Allows r past e.op) (h : d.Step e d') {n : ν} (hn : ¬P.isRead n)
    (hx : ∀ x, P.writes r = some x → n ≠ x.temporary) : d'.names n = d.names n := by
  cases h with
  | create hname =>
    obtain ⟨x, hwrites, rfl⟩ := ha
    exact Function.update_of_ne (hx x hwrites) _ _
  | rename hfile =>
    obtain ⟨x, file, hwrites, rfl, rfl, -⟩ := ha
    have htarget : n ≠ x.target := fun h => hn (h ▸ P.target_read r x hwrites)
    change Function.update (Function.update _ _ _) _ _ _ = _
    rw [Function.update_of_ne htarget, Function.update_of_ne (hx x hwrites)]
  | remove hfile =>
    apply Function.update_of_ne
    rcases ha with hread | ⟨x, hwrites, rfl⟩
    · exact fun h => hn (h ▸ hread)
    · exact hx x hwrites
  | _ => rfl

/-- A request changes the file under its temporary name, and new files. -/
theorem Allows.contents_eq (ha : P.Allows r past e.op)
    (hw : ∀ x, P.writes r = some x → Holds d x (progress past)) (h : d.Step e d') {f : ℕ}
    (hf : f < d.fresh) (hx : ∀ x, P.writes r = some x → d.names x.temporary ≠ some f) :
    d'.contents f = d.contents f := by
  have hwritten {file : ℕ} {data data' : List β} (ha : P.Allows r past (.write file data)) :
      (d.write file data').contents f = d.contents f := by
    obtain ⟨x, hwrites, -, hbegun⟩ := ha
    have hholds := hw x hwrites
    rw [hbegun] at hholds
    apply Function.update_of_ne
    rintro rfl
    exact hx x hwrites hholds.1
  cases h with
  | truncate hname =>
    obtain ⟨x, hwrites, rfl⟩ := ha
    apply Function.update_of_ne
    rintro rfl
    exact hx x hwrites hname
  | create hname => exact Function.update_of_ne hf.ne _ _
  | write file data => exact hwritten ha
  | torn file data n => exact hwritten ha
  | _ => rfl

/-- A name leads to another file than before only if it was written under a temporary name. -/
theorem Allows.names_new (ha : P.Allows r past e.op) (h : d.Step e d') {n : ν} {f : ℕ}
    (hf : f < d.fresh) (hn : d'.names n = some f) :
    d.names n = some f ∨ ∃ x, P.writes r = some x ∧ d.names x.temporary = some f := by
  cases h with
  | create hname =>
    rcases Disk.create_names_iff.mp hn with ⟨-, rfl⟩ | ⟨-, hn⟩
    · exact absurd hf (lt_irrefl _)
    · exact Or.inl hn
  | rename hfile =>
    obtain ⟨x, file, hwrites, rfl, rfl, -⟩ := ha
    rcases Disk.rename_names_iff.mp hn with ⟨-, rfl⟩ | ⟨-, -, hn⟩
    · exact Or.inr ⟨x, hwrites, hfile⟩
    · exact Or.inl hn
  | remove hfile => exact Or.inl (Disk.remove_names_iff.mp hn).2
  | _ => exact Or.inl hn

/-- What a request has written of its replacement. -/
theorem Allows.holds (ha : P.Allows r past e.op)
    (hw : ∀ x, P.writes r = some x → Holds d x (progress past)) (h : d.Step e d')
    {x : Replacement ν β} (hx : P.writes r = some x) :
    Holds d' x ((progress past).advance e) := by
  cases h with
  | truncate hname =>
    obtain ⟨y, hwrites, rfl⟩ := ha
    obtain rfl : x = y := Option.some.inj (hx.symm.trans hwrites)
    cases hpast : progress past <;> exact ⟨hname, Function.update_self _ _ _⟩
  | create hname =>
    obtain ⟨y, hwrites, rfl⟩ := ha
    obtain rfl : x = y := Option.some.inj (hx.symm.trans hwrites)
    cases hpast : progress past <;>
      exact ⟨Function.update_self _ _ _, Function.update_self _ _ _⟩
  | write file data =>
    obtain ⟨y, hwrites, rfl, hbegun⟩ := ha
    obtain rfl : x = y := Option.some.inj (hx.symm.trans hwrites)
    have hholds := hw x hx
    rw [hbegun] at hholds ⊢
    refine ⟨hholds.1, ?_⟩
    change Function.update _ _ _ _ = _
    rw [Function.update_self, hholds.2, List.drop_nil, List.append_nil]
  | torn file data n =>
    obtain ⟨y, hwrites, -, hbegun⟩ := ha
    rw [hbegun]
    trivial
  | rename hfile => cases progress past <;> trivial
  | remove hfile => cases progress past <;> trivial
  | @openFile name file hname =>
    have hsame : (progress past).advance (⟨.openFile name, .ok file⟩ : Event (files ν β)) =
        progress past := by
      cases progress past <;> rfl
    rw [hsame]
    exact hw x hx
  | quiet hquiet =>
    rw [advance_quiet hquiet]
    exact hw x hx

/-- The files that are read change as the trace says. -/
theorem Allows.listing_eq (hd : d.Sound) (ha : P.Allows r past e.op)
    (hw : ∀ x, P.writes r = some x → Holds d x (progress past)) (h : d.Step e d') {n : ν}
    (hn : P.isRead n) (i : ℕ) (b : Disk ν β) :
    d'.listing n = P.store d.listing ⟨i, r, b, e⟩ n := by
  have hfresh {x : Replacement ν β} (hx : P.writes r = some x) : n ≠ x.temporary :=
    fun h => P.temporary_unread r x hx (h ▸ hn)
  have hsame (hnames : d'.names n = d.names n) : d'.listing n = d.listing n := by
    rw [Disk.listing, Disk.listing, hnames]
    apply Option.map_congr
    intro f hf
    apply ha.contents_eq hw h (hd.fresh n f hf)
    intro x hx htemporary
    exact hfresh hx (hd.unique n _ f hf htemporary)
  cases h with
  | truncate hname => exact hsame rfl
  | create hname =>
    obtain ⟨x, hwrites, rfl⟩ := ha
    exact hsame (Function.update_of_ne (hfresh hwrites) _ _)
  | write file data => exact hsame rfl
  | torn file data k => exact hsame rfl
  | rename hfile =>
    obtain ⟨x, file, hwrites, rfl, rfl, hwritten⟩ := ha
    have hholds := hw x hwrites
    rw [hwritten] at hholds
    obtain rfl := Option.some.inj (hfile.symm.trans hholds.1)
    simp only [store, hwrites]
    by_cases hnt : n = x.target
    · subst hnt
      rw [Function.update_self, Disk.listing, Disk.rename_names_iff.mpr (Or.inl ⟨rfl, rfl⟩)]
      exact congrArg some hholds.2
    · rw [Function.update_of_ne hnt]
      apply hsame
      change Function.update (Function.update _ _ _) _ _ _ = _
      rw [Function.update_of_ne hnt, Function.update_of_ne (hfresh hwrites)]
  | @remove name file hfile =>
    have hstore : P.store d.listing ⟨i, r, b, ⟨.remove name, .ok ()⟩⟩ =
        Function.update d.listing name none := by
      cases P.writes r <;> rfl
    rw [hstore]
    by_cases hnn : n = name
    · subst hnn
      have hgone : (d.remove n).names n = none := Function.update_self _ _ _
      rw [Function.update_self, Disk.listing, hgone]
      rfl
    · rw [Function.update_of_ne hnn]
      exact hsame (Function.update_of_ne hnn _ _)
  | openFile hname => exact hsame rfl
  | quiet hquiet => rw [store_quiet hquiet]

end Step

section Runs

variable {init : Disk ν β} {handler : ρ → Program (files ν β) ε α}
  {p p' : Pool (files ν β) (Disk ν β) ρ ε α} {l : Label ρ Fault Empty}

theorem inv_init (hinit : init.Sound) :
    P.Inv init (⟨init, [], []⟩ : Pool (files ν β) (Disk ν β) ρ ε α) := by
  refine ⟨hinit, fun _ _ => rfl, ?_, ?_, by simp⟩
  · rintro i r x ⟨op, k, hi⟩
    cases hi
  · rintro i j r s x y - ⟨op, k, hi⟩
    cases hi

theorem Inv.perform (hp : P.Inv init p) {i : ℕ} {r : ρ} {op : FileOp ν β}
    {k : op.Answer → Program (files ν β) ε α} {c : Fault}
    (hi : p.tasks[i]? = some ⟨r, some (.perform op k)⟩)
    (ha : P.Allows r (Pool.eventsOf p.trace i) op) :
    P.Inv init ⟨(p.shared.exec op c).2, p.tasks.set i ⟨r, some (k (p.shared.exec op c).1)⟩,
      p.trace ++ [⟨i, r, p.shared, ⟨op, (p.shared.exec op c).1⟩⟩]⟩ := by
  have hprogress : InProgress p i r := ⟨op, k, hi⟩
  have hw : ∀ x, P.writes r = some x → Holds p.shared x (progress (Pool.eventsOf p.trace i)) :=
    fun x hx => hp.holds i r x hprogress hx
  have hstep := Disk.exec_step p.shared op c
  generalize hanswer : (p.shared.exec op c).1 = answer at hstep ⊢
  generalize (p.shared.exec op c).2 = d' at hstep ⊢
  have hold {j : ℕ} {s : ρ} (h : InProgress ⟨d', p.tasks.set i ⟨r, some (k answer)⟩,
      p.trace ++ [⟨i, r, p.shared, ⟨op, answer⟩⟩]⟩ j s) : j = i ∧ s = r ∨ j ≠ i ∧ InProgress p j s := by
    rcases InProgress.of_set hi h with ⟨rfl, rfl, -⟩ | hj
    · exact Or.inl ⟨rfl, rfl⟩
    · exact Or.inr hj
  have hwas {j : ℕ} {s : ρ} (h : InProgress ⟨d', p.tasks.set i ⟨r, some (k answer)⟩,
      p.trace ++ [⟨i, r, p.shared, ⟨op, answer⟩⟩]⟩ j s) : InProgress p j s := by
    rcases hold h with ⟨rfl, rfl⟩ | ⟨-, hj⟩
    · exact hprogress
    · exact hj
  constructor
  · exact hp.sound.step hstep
  · intro n hn
    rw [stored_snoc, ← store_congr (hp.listing n hn)]
    exact ha.listing_eq hp.sound hw hstep hn i p.shared
  · intro j s y hj hy
    rw [Pool.eventsOf_append]
    rcases hold hj with ⟨rfl, rfl⟩ | ⟨hji, hj⟩
    · have hown : Pool.eventsOf [(⟨j, s, p.shared, ⟨op, answer⟩⟩ : Files ν β ρ)] j =
          [⟨op, answer⟩] := Pool.eventsOf_singleton_self _
      rw [hown, progress_snoc]
      exact ha.holds hw hstep hy
    · have hnone : Pool.eventsOf [(⟨i, r, p.shared, ⟨op, answer⟩⟩ : Files ν β ρ)] j = [] :=
        Pool.eventsOf_singleton_ne (Ne.symm hji)
      rw [hnone, List.append_nil]
      have hother : ∀ x, P.writes r = some x → y.temporary ≠ x.temporary := fun x hx =>
        hp.separate j i s r y x hji hj hprogress hy hx
      have hnames : d'.names y.temporary = p.shared.names y.temporary :=
        ha.names_eq hstep (P.temporary_unread s y hy) hother
      have hcontents {f : ℕ} (hf : p.shared.names y.temporary = some f) :
          d'.contents f = p.shared.contents f := by
        apply ha.contents_eq hw hstep (hp.sound.fresh _ f hf)
        intro x hx hxf
        exact hother x hx (hp.sound.unique _ _ f hf hxf)
      have hholds := hp.holds j s y hj hy
      cases hprog : progress (Pool.eventsOf p.trace j) with
      | begun f =>
        rw [hprog] at hholds
        exact ⟨hnames.trans hholds.1, (hcontents hholds.1).trans hholds.2⟩
      | written f =>
        rw [hprog] at hholds
        exact ⟨hnames.trans hholds.1, (hcontents hholds.1).trans hholds.2⟩
      | _ => trivial
  · intro j j' s s' y y' hne hj hj'
    exact hp.separate j j' s s' y y' hne (hwas hj) (hwas hj')
  · intro past e rest htrace n file hopen
    rcases snoc_eq_append_cons htrace with ⟨rfl, rfl, rfl⟩ | ⟨rest', rfl, hbefore⟩
    · obtain ⟨rfl, hanswer⟩ : op = .openFile n ∧ HEq answer (Except.ok file : Except FileError ℕ) := by
        cases hopen
        exact ⟨rfl, HEq.rfl⟩
      cases hanswer
      cases hstep with
      | openFile hname =>
        refine ⟨?_, hp.sound.fresh n file hname, ?_⟩
        · rw [← hp.listing n ha, Disk.listing, hname]
          rfl
        · intro m hm
          rw [hp.sound.unique m n file hm hname]
          exact ha
      | quiet hquiet => exact hquiet.elim
    · obtain ⟨hstored, hfresh, hread⟩ := hp.opened past e rest' hbefore n file hopen
      have hnot : ∀ x, P.writes r = some x → p.shared.names x.temporary ≠ some file :=
        fun x hx htemporary => P.temporary_unread r x hx (hread _ htemporary)
      refine ⟨?_, ?_, ?_⟩
      · rw [ha.contents_eq hw hstep hfresh hnot]
        exact hstored
      · exact hfresh.trans_le hstep.fresh_le
      · intro m hm
        rcases ha.names_new hstep hfresh hm with hm | ⟨x, hx, htemporary⟩
        · exact hread m hm
        · exact absurd htemporary (hnot x hx)

theorem Inv.step (hspec : ∀ r, (handler r).Spec (P.Allows r) (fun _ _ => True) [])
    (hconf : Pool.Conforms (diskSemantics handler) p) (hp : P.Inv init p) (hl : P.Separate p l)
    (h : Pool.Step (diskSemantics handler) p l p') : P.Inv init p' := by
  cases h with
  | spawn r =>
    refine ⟨hp.sound, hp.listing, ?_, ?_, hp.opened⟩
    · intro i s x hi hx
      rcases hi.of_append with hi | ⟨rfl, rfl⟩
      · exact hp.holds i s x hi hx
      · rw [Pool.eventsOf_eq_nil hconf.task_lt le_rfl]
        trivial
    · intro i j s s' x y hne hi hj hx hy
      rcases hi.of_append with holdi | ⟨hnewi, rfl⟩ <;> rcases hj.of_append with holdj | ⟨hnewj, rfl⟩
      · exact hp.separate i j s s' x y hne holdi holdj hx hy
      · exact hl s' y rfl hy i s x holdi hx
      · exact (hl s x rfl hx j s' y holdj hy).symm
      · exact absurd (hnewi.trans hnewj.symm) hne
  | perform hi => exact hp.perform hi (hconf.pending_spec hspec hi)
  | cancel hi =>
    have hwas {j : ℕ} {s : ρ} {t : Task (files ν β) ρ ε α} {i : ℕ} (hi : p.tasks[i]? = some t)
        (h : InProgress { p with tasks := p.tasks.set i { t with program := none } } j s) :
        InProgress p j s := by
      rcases InProgress.of_set hi h with ⟨-, -, op, k, hq⟩ | ⟨-, hj⟩
      · cases hq
      · exact hj
    exact ⟨hp.sound, hp.listing, fun j s x hj => hp.holds j s x (hwas hi hj),
      fun j j' s s' x y hne hj hj' => hp.separate j j' s s' x y hne (hwas hi hj) (hwas hi hj'),
      hp.opened⟩
  | environment t => exact t.elim
  | idle => exact hp

variable (hspec : ∀ r, (handler r).Spec (P.Allows r) (fun _ _ => True) []) (hinit : init.Sound)
  {labels : List (Label ρ Fault Empty)}
  (h : Pool.Along (diskSemantics handler) init P.Separate labels)

include hspec hinit h

theorem run_inv : P.Inv init (Pool.run (diskSemantics handler) init labels) := by
  refine (Pool.run_induction (diskSemantics handler) (C := P.Separate)
    (I := fun p => Pool.Conforms (diskSemantics handler) p ∧ P.Inv init p) ?_ ?_ labels h).2
  · exact ⟨Pool.run_conforms _ init [], inv_init hinit⟩
  · rintro p l p' ⟨hconf, hp⟩ hl hstep
    exact ⟨hconf.step _ hstep, hp.step hspec hconf hl hstep⟩

/-- At every moment of a run the files that are read are those the trace so far stored. -/
theorem before_listing {past rest : List (Files ν β ρ)} {e : Files ν β ρ}
    (he : (Pool.run (diskSemantics handler) init labels).trace = past ++ e :: rest) :
    (∀ n, P.isRead n → e.before.listing n = P.stored init past n) ∧
      ∃ done more, labels = done ++ more ∧
        P.Inv init (Pool.run (diskSemantics handler) init done) ∧
        (Pool.run (diskSemantics handler) init done).trace = past ∧
        (Pool.run (diskSemantics handler) init done).shared = e.before := by
  obtain ⟨done, more, rfl, rfl, hbefore⟩ := Pool.run_entry _ he
  have hinv := run_inv hspec hinit (h.of_append _)
  refine ⟨?_, done, more, rfl, hinv, rfl, hbefore⟩
  rw [← hbefore]
  exact hinv.listing

/-- A file is opened with what the trace so far stored under its name. -/
theorem opened_stored {past rest : List (Files ν β ρ)} {e : Files ν β ρ} {n : ν}
    {answer : Except FileError ℕ}
    (he : (Pool.run (diskSemantics handler) init labels).trace = past ++ e :: rest)
    (hopen : e.event = ⟨.openFile n, answer⟩) :
    (∀ file, answer = .ok file → (P.stored init past n).isSome) ∧
      (answer = .error .notFound → P.stored init past n = none) := by
  have hconf := Pool.run_conforms (diskSemantics handler) init labels
  have hread := hconf.operation_spec hspec he
  obtain ⟨c, hanswer⟩ := hconf.answered e (by simp [he])
  have hlisting := (before_listing hspec hinit h he).1
  obtain ⟨i, r, b, op, a⟩ := e
  cases hopen
  rw [← hlisting n hread]
  change answer = if c.fails then .error FileError.other else b.find n at hanswer
  rw [hanswer, Disk.find, Disk.listing]
  split_ifs
  · simp
  · cases b.names n <;> simp

/-- What is read is what was stored under the name when the file was opened. -/
theorem read_stored {past rest : List (Files ν β ρ)} {e : Files ν β ρ} {file : ℕ} {data : List β}
    (he : (Pool.run (diskSemantics handler) init labels).trace = past ++ e :: rest)
    (hread : e.event = ⟨.read file, .ok data⟩) :
    ∃ before o between n, past = before ++ o :: between ∧ o.task = e.task ∧
      o.event = ⟨.openFile n, .ok file⟩ ∧ P.stored init before n = some data := by
  have hconf := Pool.run_conforms (diskSemantics handler) init labels
  have hallows := hconf.operation_spec hspec he
  obtain ⟨c, hanswer⟩ := hconf.answered e (by simp [he])
  obtain ⟨-, done, more, -, hinv, hpast, hbefore⟩ := before_listing hspec hinit h he
  obtain ⟨i, r, b, op, a⟩ := e
  cases hread
  obtain ⟨n, hopen⟩ := hallows
  obtain ⟨o, ho, htask, hevent⟩ := Pool.mem_eventsOf.mp hopen
  obtain ⟨before, between, rfl⟩ := List.append_of_mem ho
  refine ⟨before, o, between, n, rfl, htask, hevent, ?_⟩
  have hdata : b.contents file = data := by
    change .ok data = if c.fails then .error FileError.other else Except.ok (b.contents file) at hanswer
    split_ifs at hanswer
    exact (Except.ok.inj hanswer).symm
  rw [← hdata]
  change _ = b at hbefore
  rw [← hbefore]
  exact (hinv.opened before o between hpast n file hevent).1

end Runs

/-! ## Files that are written once -/

section Once

variable (P) in
/-- A request replaces a file only if it has found none, and does nothing after that. -/
def Once (r : ρ) (past : List (Event (files ν β))) (op : FileOp ν β) : Prop :=
  P.Allows r past op ∧ Disk.Steady past ∧ (∀ name, op ≠ .remove name) ∧
    ∀ source target, op = .rename source target → ⟨.openFile target, .error .notFound⟩ ∈ past

variable (P) in
/-- What is stored stays. -/
structure OnceInv (init : Disk ν β) (p : Pool (files ν β) (Disk ν β) ρ ε α) : Prop where
  /-- a request that has found no file and is in progress is right -/
  missing : ∀ i r x, InProgress p i r → P.writes r = some x →
    ⟨.openFile x.target, .error .notFound⟩ ∈ Pool.eventsOf p.trace i →
      P.stored init p.trace x.target = none
  fixed : ∀ past rest, p.trace = past ++ rest → ∀ n data, P.stored init past n = some data →
    P.stored init p.trace n = some data

variable {init : Disk ν β} {handler : ρ → Program (files ν β) ε α}
  {p p' : Pool (files ν β) (Disk ν β) ρ ε α} {l : Label ρ Fault Empty}

/-- An event of a request that writes files once replaces none that is there. -/
theorem OnceInv.store_eq (hp : P.OnceInv init p) {i : ℕ} {r : ρ} (hi : InProgress p i r)
    {e : Files ν β ρ} (hr : e.request = r) (ha : P.Once r (Pool.eventsOf p.trace i) e.event.op)
    {n : ν} {data : List β} (hn : P.stored init p.trace n = some data) :
    P.store (P.stored init p.trace) e n = some data := by
  cases hrelinks : Disk.relinks e.event with
  | false =>
    rw [store_of_not_relinks hrelinks]
    exact hn
  | true =>
    obtain ⟨j, s, b, op, answer⟩ := e
    obtain ⟨hallows, -, hremove, hmissing⟩ := ha
    cases op with
    | rename source target => cases answer with
      | error err => cases hrelinks
      | ok u =>
        obtain ⟨x, file, hwrites, -, htarget, -⟩ := hallows
        have hnone := hp.missing i r x hi hwrites (htarget ▸ hmissing source target rfl)
        have hne : n ≠ x.target := by
          rintro rfl
          rw [hnone] at hn
          cases hn
        obtain rfl : s = r := hr
        simp only [store, hwrites]
        rw [Function.update_of_ne hne]
        exact hn
    | remove name => exact absurd rfl (hremove name)
    | _ => cases hrelinks

variable (hspec : ∀ r, (handler r).Spec (P.Once r) (fun _ _ => True) [])
  (hsame : ∀ r s x y, P.writes r = some x → P.writes s = some y → x.target = y.target →
    x.temporary = y.temporary)

include hspec

omit [DecidableEq ν] in
theorem once_allows (r : ρ) : (handler r).Spec (P.Allows r) (fun _ _ => True) [] :=
  (hspec r).mono (fun _ _ h => h.1) fun _ _ h => h

include hsame

theorem OnceInv.perform (hconf : Pool.Conforms (diskSemantics handler) p) (hinv : P.Inv init p)
    (hp : P.OnceInv init p) {i : ℕ} {r : ρ} {op : FileOp ν β}
    {k : op.Answer → Program (files ν β) ε α} {c : Fault}
    (hi : p.tasks[i]? = some ⟨r, some (.perform op k)⟩)
    (hconf' : Pool.Conforms (diskSemantics handler)
      ⟨(p.shared.exec op c).2, p.tasks.set i ⟨r, some (k (p.shared.exec op c).1)⟩,
        p.trace ++ [⟨i, r, p.shared, ⟨op, (p.shared.exec op c).1⟩⟩]⟩) :
    P.OnceInv init ⟨(p.shared.exec op c).2, p.tasks.set i ⟨r, some (k (p.shared.exec op c).1)⟩,
      p.trace ++ [⟨i, r, p.shared, ⟨op, (p.shared.exec op c).1⟩⟩]⟩ := by
  have hprogress : InProgress p i r := ⟨op, k, hi⟩
  have hpre := hconf.pending_spec hspec hi
  constructor
  · intro j s x hj hx hmissing
    rw [stored_snoc]
    rw [Pool.eventsOf_append] at hmissing
    rcases InProgress.of_set hi hj with ⟨rfl, rfl, -⟩ | ⟨hji, hj⟩
    · -- it goes on, so it has not replaced the file
      obtain ⟨op', k', hnext⟩ := hj
      have hafter := (hconf'.pending_spec hspec hnext).2.1
      have hstill : Disk.relinks (⟨op, (p.shared.exec op c).1⟩ : Event (files ν β)) = false := by
        apply hafter
        rw [Pool.eventsOf_append, Pool.eventsOf_singleton_self]
        exact List.mem_append_right _ (List.mem_singleton_self _)
      rw [store_of_not_relinks hstill]
      rcases List.mem_append.mp hmissing with hold | hnew
      · exact hp.missing j s x hprogress hx hold
      · rw [Pool.eventsOf_singleton_self, List.mem_singleton] at hnew
        obtain ⟨hop, hname⟩ := Disk.exec_openFile_missing hnew.symm
        rw [← hinv.listing _ (P.target_read s x hx), Disk.listing, hname]
        rfl
    · have hnone : Pool.eventsOf [(⟨i, r, p.shared, ⟨op, (p.shared.exec op c).1⟩⟩ : Files ν β ρ)] j
          = [] := Pool.eventsOf_singleton_ne (Ne.symm hji)
      rw [hnone, List.append_nil] at hmissing
      have hold := hp.missing j s x hj hx hmissing
      cases hnew : P.store (P.stored init p.trace)
          ⟨i, r, p.shared, ⟨op, (p.shared.exec op c).1⟩⟩ x.target with
      | none => rfl
      | some data =>
        rcases store_cases hnew with hthere | ⟨y, hy, htarget, -⟩
        · rw [hold] at hthere
          cases hthere
        · exact absurd (hsame s r x y hx hy htarget.symm)
            (hinv.separate j i s r x y hji hj hprogress hx hy)
  · intro past rest htrace n data hn
    rcases List.eq_nil_or_concat rest with rfl | ⟨rest, e, rfl⟩
    · rw [List.append_nil] at htrace
      rw [htrace]
      exact hn
    · rw [stored_snoc]
      rw [List.concat_eq_append, ← List.append_assoc] at htrace
      obtain ⟨hbefore, -⟩ := List.append_inj' htrace rfl
      exact hp.store_eq hprogress rfl hpre (hp.fixed past rest hbefore n data hn)

theorem run_once (hinit : init.Sound) {labels : List (Label ρ Fault Empty)}
    (h : Pool.Along (diskSemantics handler) init P.Separate labels) :
    P.OnceInv init (Pool.run (diskSemantics handler) init labels) := by
  refine (Pool.run_induction (diskSemantics handler) (C := P.Separate)
    (I := fun p => Pool.Conforms (diskSemantics handler) p ∧ P.Inv init p ∧ P.OnceInv init p)
    ?_ ?_ labels h).2.2
  · refine ⟨Pool.run_conforms _ init [], inv_init hinit, ?_, ?_⟩
    · rintro i r x ⟨op, k, hi⟩
      cases hi
    · intro past rest htrace n data hn
      obtain ⟨rfl, rfl⟩ := List.append_eq_nil_iff.mp htrace.symm
      exact hn
  · rintro p l p' ⟨hconf, hinv, hp⟩ hl hstep
    have hconf' := hconf.step _ hstep
    refine ⟨hconf', hinv.step (once_allows hspec) hconf hl hstep, ?_⟩
    cases hstep with
    | spawn r =>
      refine ⟨?_, hp.fixed⟩
      intro i s x hi hx hmissing
      rcases hi.of_append with hi | ⟨rfl, rfl⟩
      · exact hp.missing i s x hi hx hmissing
      · rw [Pool.eventsOf_eq_nil hconf.task_lt le_rfl] at hmissing
        cases hmissing
    | perform hi => exact hp.perform hspec hsame hconf hinv hi hconf'
    | cancel hi =>
      refine ⟨?_, hp.fixed⟩
      intro j s x hj hx hmissing
      rcases InProgress.of_set hi hj with ⟨-, -, op, k, hq⟩ | ⟨-, hj⟩
      · cases hq
      · exact hp.missing j s x hj hx hmissing
    | environment t => exact t.elim
    | idle => exact hp

end Once

end Plan

end AgentExchange.Library
