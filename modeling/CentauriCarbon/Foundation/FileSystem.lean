import CentauriCarbon.Foundation.EventRun
import Mathlib.Logic.Function.Basic

/-! # Operations on files

Each operation on the files is done as a whole. A program that is stopped between two of them has
done the first ones, which is a run of a prefix of its operations.
-/

namespace CentauriCarbon

abbrev Files (Path Symbol : Type) := Path → Option (List Symbol)

inductive FileOp (Path Symbol : Type) where
  /-- Open for writing; what the file held is lost. -/
  | create (path : Path)
  | write (path : Path) (data : List Symbol)
  | close (path : Path)
  | chmod (path : Path)
  | rename (source target : Path)

namespace FileOp

variable {Path Symbol : Type} [DecidableEq Path]

/-- The files after an operation; it fails where there is no file to work on. -/
def apply (files : Files Path Symbol) : FileOp Path Symbol → Option (Files Path Symbol)
  | .create path => some (Function.update files path (some []))
  | .write path data =>
    (files path).map fun content => Function.update files path (some (content ++ data))
  | .close path | .chmod path => (files path).map fun _ => files
  | .rename source target =>
    (files source).map fun content =>
      Function.update (Function.update files source none) target (some content)

def OnlyOn (op : FileOp Path Symbol) (path : Path) : Prop :=
  match op with
  | .create other | .write other _ | .close other | .chmod other => other = path
  | .rename _ _ => False

variable {files : Files Path Symbol} {path : Path} {content : List Symbol}
  {ops : List (FileOp Path Symbol)}

theorem apply_rename (present : files source = some content) : (rename source target).apply files =
      some (Function.update (Function.update files source none) target (some content)) := by
  rw [apply, present]
  rfl

theorem apply_onlyOn {op : FileOp Path Symbol} (present : files path = some content)
    (on : op.OnlyOn path) :
    ∃ after, op.apply files = some (Function.update files path (some after)) := by
  have same : Function.update files path (some content) = files := by
    rw [← present, Function.update_eq_self]
  cases op with
  | create other =>
    cases on
    exact ⟨[], rfl⟩
  | write other data =>
    cases on
    exact ⟨content ++ data, by rw [apply, present]; rfl⟩
  | close | chmod =>
    cases on
    exact ⟨content, by rw [apply, present, same]; rfl⟩
  | rename source target => exact absurd on id

/-- Operations on one file that exists succeed and leave the others alone. -/
theorem run_onlyOn (present : files path = some content) (on : ∀ op ∈ ops, op.OnlyOn path) :
    ∃ after, runEvents apply files ops = some (Function.update files path (some after)) := by
  induction ops generalizing files content with
  | nil => exact ⟨content, by rw [← present, Function.update_eq_self]; rfl⟩
  | cons op ops induction =>
    rcases apply_onlyOn present (on op List.mem_cons_self) with ⟨next, applied⟩
    have later := induction (Function.update_self path (some next) files)
      fun other member => on other (List.mem_cons_of_mem _ member)
    rcases later with ⟨after, ran⟩
    refine ⟨after, runEvents_cons_eq_some.mpr ⟨_, applied, ?_⟩⟩
    rw [ran, Function.update_idem]

/-- As far as a file is created and worked on, the other files stay as they are. -/
theorem run_take_create (files : Files Path Symbol) (on : ∀ op ∈ ops, op.OnlyOn path)
    (count : Nat) : ∃ after, runEvents apply files ((create path :: ops).take count) = some after ∧
      ∀ other, other ≠ path → after other = files other := by
  cases count with
  | zero => exact ⟨files, rfl, fun _ _ => rfl⟩
  | succ count =>
    have created : Function.update files path (some []) path = some [] :=
      Function.update_self path (some []) files
    rcases run_onlyOn created fun op member => on op (List.mem_of_mem_take member) with
      ⟨after, ran⟩
    refine ⟨_, ran, fun other different => ?_⟩
    rw [Function.update_of_ne different, Function.update_of_ne different]

def Silent (op : FileOp Path Symbol) (path : Path) : Prop :=
  match op with
  | .close other | .chmod other => other = path
  | .create _ | .write _ _ | .rename _ _ => False

theorem run_silent (files : Files Path Symbol) (present : files path = some content)
    (silent : ∀ op ∈ ops, op.Silent path) : runEvents apply files ops = some files := by
  induction ops with
  | nil => rfl
  | cons op ops induction =>
    have first := silent op List.mem_cons_self
    have applied : op.apply files = some files := by
      cases op with
      | close | chmod =>
        cases first
        rw [apply, present]
        rfl
      | create | write | rename => exact absurd first id
    exact runEvents_cons_eq_some.mpr
      ⟨files, applied, induction fun other member => silent other (List.mem_cons_of_mem _ member)⟩

end FileOp

end CentauriCarbon
