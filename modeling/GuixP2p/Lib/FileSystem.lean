import Mathlib.Logic.Function.Basic
import Mathlib.Data.List.Basic

/-!
# GuixP2p.Lib.FileSystem

**Files that can fail.** A file system maps paths to what is there. Every operation takes
an argument that says how it goes this time: the operating system may refuse it, and a
write may stop part-way. The result says whether the operation succeeded; a write that
did has stored all of its data.
-/

namespace GuixP2p.Lib

/-- What a path leads to. -/
inductive Entry
  | dir
  | file (bytes : List UInt8)
  deriving DecidableEq

abbrev FileSystem := List Char → Option Entry

/-- How a write goes. -/
inductive WriteOutcome
  | done
  /-- The file could not be opened. -/
  | refused
  /-- An error after some bytes. -/
  | cut (written : Nat)
  deriving DecidableEq

namespace FileSystem

variable (fs : FileSystem)

/-- The contents of a file. -/
def read (path : List Char) : Option (List UInt8) :=
  match fs path with
  | some (.file bytes) => some bytes
  | _ => none

/-- Create or truncate a file and write to it. -/
def write (path : List Char) (data : List UInt8) (outcome : WriteOutcome) : FileSystem × Bool :=
  if fs path = some .dir then (fs, false)
  else
    match outcome with
    | .refused => (fs, false)
    | .cut n => (Function.update fs path (some (.file (data.take n))), false)
    | .done => (Function.update fs path (some (.file data)), true)

/-- Write to a file after what it holds. -/
def append (path : List Char) (data : List UInt8) (outcome : WriteOutcome) : FileSystem × Bool :=
  match fs.read path with
  | none => (fs, false)
  | some old =>
    match outcome with
    | .refused => (fs, false)
    | .cut n => (Function.update fs path (some (.file (old ++ data.take n))), false)
    | .done => (Function.update fs path (some (.file (old ++ data))), true)

/-- The bytes a write stores, if it gets that far. -/
def written (path : List Char) (data : List UInt8) (outcome : WriteOutcome) : Option (List UInt8) :=
  if fs path = some .dir then none
  else
    match outcome with
    | .refused => none
    | .cut n => some (data.take n)
    | .done => some data

def removeFile (path : List Char) (allowed : Bool) : FileSystem × Bool :=
  match fs path with
  | some (.file _) => if allowed then (Function.update fs path none, true) else (fs, false)
  | _ => (fs, false)

/-- Is a path a directory or something below it? -/
def inside (dir path : List Char) : Bool := decide (path = dir) || (dir ++ ['/']).isPrefixOf path

/-- Remove a directory and what is in it. On an error some of it survives. -/
def removeDirAll (path : List Char) (survives : Option (List Char → Bool)) : FileSystem × Bool :=
  match survives with
  | none => (fun p => if inside path p then none else fs p, true)
  | some keep => (fun p => if inside path p && !keep p then none else fs p, false)

/-- Copy a file. The data is what the source file holds. -/
def copy (source target : List Char) (outcome : WriteOutcome) : FileSystem × Bool :=
  match fs.read source with
  | none => (fs, false)
  | some data => fs.write target data outcome

variable {fs}

/-- A write that reports success has stored the data. -/
theorem read_of_write {path : List Char} {data : List UInt8} {outcome : WriteOutcome}
    (h : (fs.write path data outcome).2 = true) :
    (fs.write path data outcome).1.read path = some data := by
  unfold write at h ⊢
  split at h
  · cases h
  next hdir =>
    rw [if_neg hdir]
    split at h
    · cases h
    · cases h
    · simp [read]

/-- What a write stores is the beginning of its data, and all of it if the write succeeds. -/
theorem written_prefix {path : List Char} {data bytes : List UInt8} {outcome : WriteOutcome}
    (h : fs.written path data outcome = some bytes) :
    bytes <+: data ∧ ((fs.write path data outcome).2 = true → bytes = data) := by
  unfold written at h
  unfold write
  split at h
  · cases h
  next hdir =>
    rw [if_neg hdir]
    split at h
    · cases h
    · obtain rfl := Option.some.inj h
      exact ⟨List.take_prefix _ _, fun hok => nomatch hok⟩
    · obtain rfl := Option.some.inj h
      exact ⟨List.prefix_refl _, fun _ => rfl⟩

/-- A write that succeeds has stored something. -/
theorem written_of_write {path : List Char} {data : List UInt8} {outcome : WriteOutcome}
    (h : (fs.write path data outcome).2 = true) : fs.written path data outcome = some data := by
  unfold write at h
  unfold written
  split at h
  · cases h
  next hdir =>
    rw [if_neg hdir]
    split at h
    · cases h
    · cases h
    · rfl

/-- When a write fails. -/
theorem write_fails_iff {path : List Char} {data : List UInt8} {outcome : WriteOutcome} :
    (fs.write path data outcome).2 = false ↔ fs path = some .dir ∨ outcome ≠ .done := by
  unfold write
  split
  next hdir => simp [hdir]
  next hdir => cases outcome <;> simp [hdir]

/-- A write changes one path. -/
theorem write_apply_of_ne {path path' : List Char} (hne : path' ≠ path) (data : List UInt8)
    (outcome : WriteOutcome) : (fs.write path data outcome).1 path' = fs path' := by
  unfold write
  split
  · rfl
  · split <;> simp [hne]

/-- A write makes no directory. -/
theorem write_ne_dir {path' : List Char} (h : fs path' ≠ some .dir) (path : List Char)
    {data : List UInt8} (outcome : WriteOutcome) :
    (fs.write path data outcome).1 path' ≠ some .dir := by
  by_cases heq : path' = path
  · subst heq
    unfold write
    rw [if_neg h]
    cases outcome with
    | done => simp
    | refused => exact h
    | cut n => simp
  · rw [write_apply_of_ne heq]
    exact h

/-- Appending changes one path, and stores the data if it succeeds. -/
theorem append_spec {path : List Char} {old : List UInt8} (h : fs.read path = some old)
    (data : List UInt8) (outcome : WriteOutcome) :
    (∀ path', path' ≠ path → (fs.append path data outcome).1 path' = fs path') ∧
      ((fs.append path data outcome).2 = true →
        (fs.append path data outcome).1.read path = some (old ++ data)) ∧
      (outcome = .done → (fs.append path data outcome).2 = true) := by
  unfold append
  rw [h]
  cases outcome with
  | done =>
      refine ⟨fun _ hne => ?_, fun _ => ?_, fun _ => rfl⟩
      · simp [hne]
      · simp [read]
  | refused =>
      refine ⟨fun _ _ => rfl, fun hok => ?_, fun hdone => ?_⟩
      · simp at hok
      · cases hdone
  | cut n =>
      refine ⟨fun _ hne => ?_, fun hok => ?_, fun hdone => ?_⟩
      · simp [hne]
      · simp at hok
      · cases hdone

/-- A removal changes one path. -/
theorem removeFile_apply_of_ne {path path' : List Char} (hne : path' ≠ path) (allowed : Bool) :
    (fs.removeFile path allowed).1 path' = fs path' := by
  unfold removeFile
  split
  · split <;> simp [hne]
  · rfl

theorem read_congr {fs' : FileSystem} {path : List Char} (h : fs' path = fs path) :
    fs'.read path = fs.read path := by
  unfold read
  rw [h]

theorem write_done {path : List Char} (h : fs path ≠ some .dir) (data : List UInt8) :
    fs.write path data .done = (Function.update fs path (some (.file data)), true) := by
  unfold write
  rw [if_neg h]

/-- A file that can be read can be removed. -/
theorem removeFile_allowed {path : List Char} {bytes : List UInt8}
    (h : fs.read path = some bytes) : (fs.removeFile path true).1 path = none := by
  unfold read at h
  unfold removeFile
  split at h
  · simp
  · cases h

theorem removeFile_refused (path : List Char) : (fs.removeFile path false).1 = fs := by
  unfold removeFile
  split
  · rfl
  · rfl

/-- `fs'` is what is left of `fs` after some paths were removed. -/
def Removes (fs fs' : FileSystem) : Prop := ∀ path, fs' path = none ∨ fs' path = fs path

theorem Removes.refl (fs : FileSystem) : Removes fs fs := fun _ => Or.inr rfl

/-- What can still be read was there before. -/
theorem Removes.read {fs' : FileSystem} (h : Removes fs fs') {path : List Char}
    {bytes : List UInt8} (hread : fs'.read path = some bytes) : fs.read path = some bytes := by
  unfold FileSystem.read at hread ⊢
  rcases h path with hnone | hsame
  · rw [hnone] at hread
    cases hread
  · rwa [hsame] at hread

theorem removes_removeFile (path : List Char) (allowed : Bool) :
    Removes fs (fs.removeFile path allowed).1 := by
  intro path'
  unfold removeFile
  split
  · split
    · by_cases heq : path' = path
      · exact Or.inl (by simp [heq])
      · exact Or.inr (by simp [heq])
    · exact Or.inr rfl
  · exact Or.inr rfl

theorem removes_removeDirAll (path : List Char) (survives : Option (List Char → Bool)) :
    Removes fs (fs.removeDirAll path survives).1 := by
  intro path'
  unfold removeDirAll
  split
  · exact ite_eq_or_eq _ _ _
  · exact ite_eq_or_eq _ _ _

end FileSystem

end GuixP2p.Lib
