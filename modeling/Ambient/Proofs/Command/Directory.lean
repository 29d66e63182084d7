import Ambient.Proofs.Command.Account
import Ambient.Proofs.Command.Disk

namespace Ambient

section

variable {ε σ α β : Type} {s s' : σ}

/-- A step that may fail and what follows it. -/
theorem run_bind_eq (x : ExceptT ε (StateM σ) α) (f : α → ExceptT ε (StateM σ) β) :
    (x >>= f).run s = match x.run s with
      | (.ok a, s) => (f a).run s
      | (.error e, s) => (.error e, s) := by
  change ExceptT.bindCont f (x.run s).1 (x.run s).2 = _
  rcases x.run s with ⟨e | a, s⟩ <;> rfl

theorem run_bind_ok {x : ExceptT ε (StateM σ) α} {f : α → ExceptT ε (StateM σ) β} {b : β}
    (h : (x >>= f).run s = (.ok b, s')) :
    ∃ a middle, x.run s = (.ok a, middle) ∧ (f a).run middle = (.ok b, s') := by
  rw [run_bind_eq] at h
  split at h
  · exact ⟨_, _, ‹_›, h⟩
  · cases h

end

theorem Report.path_ofText (options : Options) (path : String) (input : Except FileError String) :
    (ofText options path input).path = path := by
  rcases input with e | text
  · cases e <;> rfl
  · rfl

namespace Arguments

open Ambient.Path

variable {a : Arguments} {d d' : Disk}

theorem loadOptions_disk : (a.loadOptions Disk.fileSystem).run d =
    (a.optionsFrom fun path => d.read path, d) := by
  unfold loadOptions optionsFrom
  cases a.config with
  | none => rfl
  | some path =>
    have read : (liftM (Disk.fileSystem.read path) :
        ExceptT RunError (StateM Disk) (Except FileError String)).run d = (.ok (d.read path), d) := rfl
    rw [run_bind_eq, read]
    dsimp only
    cases d.read path with
    | error e => rfl
    | ok text =>
      dsimp only
      cases Options.parse text <;> rfl

theorem mapM_disk (options : Options) (files : List String) :
    (files.mapM fun path => do return Report.ofText options path (← Disk.fileSystem.read path) :
      ExceptT RunError (StateM Disk) (List Report)).run d =
      (.ok (files.map fun path => Report.ofText options path (d.read path)), d) := by
  induction files with
  | nil => rfl
  | cons path files ih =>
    have first : (do return Report.ofText options path (← Disk.fileSystem.read path) :
        ExceptT RunError (StateM Disk) Report).run d =
        (.ok (Report.ofText options path (d.read path)), d) := rfl
    rw [List.mapM_cons, run_bind_eq, first]
    dsimp only
    rw [run_bind_eq, ih]
    rfl

/-- Writes the document of an input that has one. -/
def deliverOne (a : Arguments) (directory : String) (r : Report) :
    ExceptT RunError (StateM Disk) Unit :=
  match r.tree? with
  | some tree => writeFile Disk.fileSystem (output directory r.path) (a.document tree)
  | none => pure ()

/-- Reading changes nothing, so what a run writes are the documents of what the disk held before it. -/
theorem run_ok {directory : String} {outcome : Outcome} (no_check : a.check = false)
    (out : a.outDir = some directory) (ran : (a.run Disk.fileSystem).run d = (.ok outcome, d')) :
    ∃ options middle, a.optionsFrom (fun path => d.read path) = .ok options ∧
      (forM (a.files.map fun path => Report.ofText options path (d.read path))
        (a.deliverOne directory)).run middle = (.ok (), d') := by
  unfold run at ran
  obtain ⟨options, _, loads, ran⟩ := run_bind_ok ran
  obtain ⟨loaded, rfl⟩ := Prod.mk.inj (loadOptions_disk.symm.trans loads)
  obtain ⟨reports, _, reads, ran⟩ := run_bind_ok ran
  obtain ⟨listed, rfl⟩ := Prod.mk.inj ((mapM_disk options a.files).symm.trans reads)
  obtain rfl := Except.ok.inj listed
  obtain ⟨text, last, delivers, ends⟩ := run_bind_ok ran
  obtain ⟨-, rfl⟩ := Prod.mk.inj ends
  simp only [deliver, no_check, out] at delivers
  obtain ⟨_, _, writes, ends⟩ := run_bind_ok delivers
  obtain ⟨-, rfl⟩ := Prod.mk.inj ends
  unfold writeFiles at writes
  obtain ⟨made, middle, -, writes⟩ := run_bind_ok writes
  split at writes
  · cases writes
  · exact ⟨options, middle, loaded, writes⟩

section

variable {directory : String} {r : Report} {rs : List Report}

theorem write_disk (path text : String) : (liftM (Disk.fileSystem.write path text) :
    ExceptT RunError (StateM Disk) (Except FileError Unit)).run d =
    (.ok (d.write path text).1, (d.write path text).2) := rfl

theorem deliverOne_some {tree : Node} (parsed : r.tree? = some tree)
    (ran : (a.deliverOne directory r).run d = (.ok (), d')) :
    d.write (output directory r.path) (a.document tree) = (.ok (), d') := by
  rw [deliverOne, parsed] at ran
  dsimp only at ran
  rw [writeFile, run_bind_eq, write_disk] at ran
  generalize d.write (output directory r.path) (a.document tree) = wrote at ran ⊢
  obtain ⟨made, middle⟩ := wrote
  cases made with
  | error e => cases ran
  | ok _ =>
    obtain ⟨-, rfl⟩ := Prod.mk.inj ran
    rfl

theorem deliverOne_none (failed : r.tree? = none)
    (ran : (a.deliverOne directory r).run d = (.ok (), d')) : d' = d := by
  rw [deliverOne, failed] at ran
  exact (Prod.mk.inj ran).2.symm

/-- A document stays as it is while others are written elsewhere. -/
theorem read_of_deliver {path name content : String} (named : Named path name)
    (ran : (forM rs (a.deliverOne directory)).run d = (.ok (), d'))
    (apart : ∀ r ∈ rs, r.tree? ≠ none →
      (∃ name, Named r.path name) ∧ output directory r.path ≠ output directory path)
    (read : d.read (output directory path) = .ok content) :
    d'.read (output directory path) = .ok content := by
  induction rs generalizing d with
  | nil => exact (Prod.mk.inj ran).2 ▸ read
  | cons r rs ih =>
    rw [List.forM_cons] at ran
    obtain ⟨_, middle, first, rest⟩ := run_bind_ok ran
    refine ih rest (fun r mem => apart r (List.mem_cons_of_mem _ mem)) ?_
    cases parsed : r.tree? with
    | none => exact deliverOne_none parsed first ▸ read
    | some tree =>
      obtain ⟨⟨_, named'⟩, elsewhere⟩ := apart r List.mem_cons_self (by simp [parsed])
      exact Disk.read_write_output_of_ne named' named elsewhere (deliverOne_some parsed first) read

end

/-- An input that parses can be read, so that it has a name. -/
theorem named_of_treeOf? {options : Options} {path : String}
    (parsed : treeOf? options (d.read path) ≠ none) : ∃ name, Named path name := by
  cases read : d.read path with
  | error e =>
    rw [read] at parsed
    exact absurd rfl parsed
  | ok text => exact Disk.named_of_read read

/-- If a run that writes documents to a directory ends well, the document of each input that parses is
there in the end, under the name of the input, unless a later input that parses goes to the same
place. -/
theorem run_writes {directory : String} {outcome : Outcome} (no_check : a.check = false)
    (out : a.outDir = some directory) (ran : (a.run Disk.fileSystem).run d = (.ok outcome, d')) :
    ∃ options, a.optionsFrom (fun path => d.read path) = .ok options ∧
      ∀ before path after tree, a.files = before ++ path :: after →
        treeOf? options (d.read path) = some tree →
        (∀ later ∈ after, treeOf? options (d.read later) ≠ none →
          output directory later ≠ output directory path) →
        d'.read (output directory path) = .ok (a.document tree) := by
  obtain ⟨options, start, loaded, writes⟩ := run_ok no_check out ran
  refine ⟨options, loaded, fun before path after tree files parsed apart => ?_⟩
  rw [files, List.map_append, List.map_cons, List.forM_append, List.forM_cons] at writes
  obtain ⟨_, here, -, writes⟩ := run_bind_ok writes
  obtain ⟨_, behind, written, rest⟩ := run_bind_ok writes
  have parses : treeOf? options (d.read path) ≠ none := by simp [parsed]
  obtain ⟨name, named⟩ := named_of_treeOf? parses
  have wrote := deliverOne_some ((Report.tree?_ofText options path _).trans parsed) written
  rw [Report.path_ofText] at wrote
  refine read_of_deliver named rest (List.forall_mem_map.mpr fun later mem parses => ?_)
    (Disk.read_write_output named wrote)
  rw [Report.tree?_ofText] at parses
  rw [Report.path_ofText]
  exact ⟨named_of_treeOf? parses, apart later mem parses⟩

/-- Two inputs of one name in different directories. -/
def twoInputs : Arguments := { files := ["a/x.d.ts", "b/x.d.ts"], outDir := some "out" }

def twoFiles : Disk := ⟨[(["a"], .directory), (["a", "x.d.ts"], .file "type A = B;".toUTF8),
  (["b"], .directory), (["b", "x.d.ts"], .file "".toUTF8)]⟩

/-- The disk behind the run. -/
def twoDocuments : Disk := ((twoInputs.run Disk.fileSystem).run twoFiles).2

theorem run_twoFiles :
    ∃ outcome, (twoInputs.run Disk.fileSystem).run twoFiles = (.ok outcome, twoDocuments) := by
  have ends : ((twoInputs.run Disk.fileSystem).run twoFiles).1.isOk = true := by decide +kernel
  cases is : ((twoInputs.run Disk.fileSystem).run twoFiles).1 with
  | error e => rw [is] at ends; cases ends
  | ok outcome => exact ⟨outcome, Prod.ext is rfl⟩

/-- The later one of the two is there. -/
theorem run_writes_later : ∃ tree, treeOf? twoInputs.options (twoFiles.read "b/x.d.ts") = some tree ∧
    twoDocuments.read "out/x.d.ts.json" = .ok (twoInputs.document tree) := by
  obtain ⟨outcome, ran⟩ := run_twoFiles
  obtain ⟨options, loaded, written⟩ := run_writes rfl rfl ran
  obtain rfl : twoInputs.options = options := Except.ok.inj loaded
  have parses : (treeOf? twoInputs.options (twoFiles.read "b/x.d.ts")).isSome = true := by
    decide +kernel
  obtain ⟨tree, parsed⟩ := Option.isSome_iff_exists.mp parses
  have kept := written ["a/x.d.ts"] "b/x.d.ts" [] tree rfl parsed (by simp)
  have place : output "out" "b/x.d.ts" = "out/x.d.ts.json" := by decide +kernel
  rw [place] at kept
  exact ⟨tree, parsed, kept⟩

/-- The earlier one is lost. -/
theorem not_run_writes : ¬ ∀ (a : Arguments) (d d' : Disk) (directory : String) (outcome : Outcome),
    a.files.Nodup → a.check = false → a.outDir = some directory →
    (a.run Disk.fileSystem).run d = (.ok outcome, d') →
    ∃ options, a.optionsFrom (fun path => d.read path) = .ok options ∧
      ∀ path ∈ a.files, ∀ tree, treeOf? options (d.read path) = some tree →
        d'.read (output directory path) = .ok (a.document tree) := by
  intro always
  obtain ⟨outcome, ran⟩ := run_twoFiles
  obtain ⟨options, loaded, written⟩ :=
    always twoInputs twoFiles twoDocuments "out" outcome (by decide) rfl rfl ran
  obtain rfl : twoInputs.options = options := Except.ok.inj loaded
  have parses : (treeOf? twoInputs.options (twoFiles.read "a/x.d.ts")).isSome = true := by
    decide +kernel
  obtain ⟨tree, parsed⟩ := Option.isSome_iff_exists.mp parses
  have lost : (twoDocuments.read (output "out" "a/x.d.ts")).toOption ≠
      (treeOf? twoInputs.options (twoFiles.read "a/x.d.ts")).map twoInputs.document := by
    decide +kernel
  have kept := written "a/x.d.ts" (by decide) tree parsed
  exact lost (by rw [kept, parsed]; rfl)

end Arguments

end Ambient
