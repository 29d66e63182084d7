import Mathlib.Data.List.Forall2
import Ambient.Command.Program
import Ambient.Proofs.Diagnostic.Order
import Ambient.Proofs.Json.OneLine

namespace Ambient

/-- The tree of an input, if its text can be read and parsed. -/
def treeOf? (options : Options) : Except FileError String → Option Node
  | .ok text => (parse .file options text).toOption
  | .error _ => none

namespace Report

variable (options : Options) (path : String) (input : Except FileError String)

theorem tree?_ofText : (ofText options path input).tree? = treeOf? options input := by
  rcases input with e | text
  · cases e <;> simp only [ofText, tree?, treeOf?, Except.toOption]
  · simp only [ofText, tree?, treeOf?]
    cases parse .file options text <;> simp only [Except.mapError, Except.toOption]

omit options path input in
theorem outcome_of_diagnostic? {r : Report} {d : Diagnostic} (h : r.diagnostic? = some d) :
    r.outcome = .error d := by
  unfold diagnostic? at h
  split at h
  · cases h
  · obtain rfl := Option.some.inj h
    assumption

theorem isError_diagnostic {d : Diagnostic} (h : (ofText options path input).outcome = .error d) :
    d.isError = true := by
  rcases input with e | text
  · have severe (m : Message) (arguments : List String) (error : m.severity = .error) :
        (Diagnostic.ofMessage m arguments).isError = true := decide_eq_true error
    have message : ∃ m arguments, d = .ofMessage m arguments ∧ m.severity = .error := by
      cases e <;> exact ⟨_, _, (Except.error.inj h).symm, rfl⟩
    obtain ⟨m, arguments, rfl, error⟩ := message
    exact severe m arguments error
  · simp only [ofText, Except.mapError] at h
    split at h
    · cases h
      rfl
    · cases h

end Report

/-- Every document on a line of its own. -/
def printed (trees : List Node) : String := String.join (trees.map fun tree => tree.toText ++ "\n")

theorem splitOn_printed (trees : List Node) :
    (printed trees).toList.splitOn '\n' = (trees.map fun tree => tree.toText.toList) ++ [[]] := by
  induction trees with
  | nil => rfl
  | cons tree trees ih =>
    have split : (printed (tree :: trees)).toList =
        tree.toText.toList ++ '\n' :: (printed trees).toList := by
      simp [printed]
    rw [split, List.splitOn_append_cons_self_of_not_mem tree.newline_not_mem_toText, ih]
    rfl

/-- The account that a run gives of its inputs. -/
structure Outcome.Accounts (outcome : Outcome) (options : Options)
    (content : String → Except FileError String) (files : List String) : Prop where
  output_eq : outcome.output = printed (files.filterMap fun path => treeOf? options (content path))
  /-- Line by line, the documents of those inputs that have a tree. -/
  lines : outcome.output.toList.splitOn '\n' =
    ((files.filterMap fun path => treeOf? options (content path)).map fun tree =>
      tree.toText.toList) ++ [[]]
  /-- One error for each other input. Those of one place are in the order of the inputs. -/
  errors : ∃ ds, List.Forall₂ (fun path d =>
      (Report.ofText options path (content path)).outcome = .error d ∧ d.isError = true)
      (files.filter fun path => (treeOf? options (content path)).isNone) ds ∧
    outcome.diagnostics.Perm ds ∧
    ∀ d : Diagnostic, outcome.diagnostics.filter d.samePlace = ds.filter d.samePlace
  ordered : outcome.diagnostics.Pairwise fun d e => d.before e = true
  code_eq : outcome.exit.code =
    if ∃ path ∈ files, treeOf? options (content path) = none then 1 else 0
  output_exit : outcome.exit.output = outcome.output

namespace Arguments

/-- What a run without directory leads to. -/
def outcome (options : Options) (content : String → Except FileError String) (files : List String) :
    Outcome :=
  let reports := files.map fun path => Report.ofText options path (content path)
  ⟨printed (reports.filterMap Report.tree?), Diagnostic.sort (reports.filterMap Report.diagnostic?)⟩

section

variable (options : Options) (content : String → Except FileError String) (files : List String)

theorem trees_eq : (files.map fun path => Report.ofText options path (content path)).filterMap
    Report.tree? = files.filterMap fun path => treeOf? options (content path) := by
  rw [List.filterMap_map]
  congr 1
  funext path
  exact Report.tree?_ofText options path (content path)

/-- Of each input without tree there is one error, in the order of the inputs. -/
theorem diagnostics_forall₂ : List.Forall₂ (fun path d =>
      (Report.ofText options path (content path)).outcome = .error d ∧ d.isError = true)
    (files.filter fun path => (treeOf? options (content path)).isNone)
    ((files.map fun path => Report.ofText options path (content path)).filterMap
      Report.diagnostic?) := by
  induction files with
  | nil => exact .nil
  | cons path files ih =>
    have tree := Report.tree?_ofText options path (content path)
    rw [List.map_cons, List.filterMap_cons, List.filter_cons, ← tree]
    cases eq : (Report.ofText options path (content path)).outcome with
    | ok n =>
      have parsed : (Report.ofText options path (content path)).tree? = some n := by
        rw [Report.tree?, eq]
        rfl
      have silent : (Report.ofText options path (content path)).diagnostic? = none := by
        rw [Report.diagnostic?, eq]
      rw [parsed, silent]
      exact ih
    | error d =>
      have failed : (Report.ofText options path (content path)).tree? = none := by
        rw [Report.tree?, eq]
        rfl
      have reported : (Report.ofText options path (content path)).diagnostic? = some d := by
        rw [Report.diagnostic?, eq]
      rw [failed, reported]
      exact .cons ⟨eq, Report.isError_diagnostic options path _ eq⟩ ih

end

end Arguments

theorem Outcome.code_exit (outcome : Outcome) (errors : ∀ d ∈ outcome.diagnostics, d.isError = true) :
    outcome.exit.code = if outcome.diagnostics = [] then 0 else 1 := by
  unfold Outcome.exit Diagnostic.hasErrors
  cases eq : outcome.diagnostics with
  | nil => rfl
  | cons d ds =>
    have error := errors d (eq ▸ List.mem_cons_self)
    rw [List.any_cons, error, Bool.true_or]
    rfl

theorem Outcome.output_of_exit (outcome : Outcome) : outcome.exit.output = outcome.output := by
  unfold Outcome.exit
  dsimp only
  split <;> rfl

namespace Arguments

theorem accounts_outcome (options : Options) (content : String → Except FileError String)
    (files : List String) : (outcome options content files).Accounts options content files := by
  have each := diagnostics_forall₂ options content files
  have perm := Diagnostic.sort_perm ((files.map fun path =>
    Report.ofText options path (content path)).filterMap Report.diagnostic?)
  have output : (outcome options content files).output =
      printed (files.filterMap fun path => treeOf? options (content path)) := by
    rw [← trees_eq options content files]
    rfl
  refine ⟨output, ?_, ⟨_, each, perm, fun d => Diagnostic.filter_sort _ d⟩,
    Diagnostic.sort_ordered _, ?_, Outcome.output_of_exit _⟩
  · rw [output, splitOn_printed]
  · have errors : ∀ d ∈ (outcome options content files).diagnostics, d.isError = true := by
      intro d mem
      have listed := perm.mem_iff.mp mem
      simp only [List.mem_filterMap, List.mem_map] at listed
      obtain ⟨r, ⟨path, -, rfl⟩, reported⟩ := listed
      exact Report.isError_diagnostic options path _ (Report.outcome_of_diagnostic? reported)
    have none_iff : (outcome options content files).diagnostics = [] ↔
        ¬ ∃ path ∈ files, treeOf? options (content path) = none := by
      have lengths := perm.length_eq.trans each.length_eq.symm
      rw [← List.length_eq_zero_iff, outcome, lengths, List.length_eq_zero_iff,
        List.filter_eq_nil_iff]
      simp
    rw [Outcome.code_exit _ errors]
    by_cases failed : ∃ path ∈ files, treeOf? options (content path) = none
    · rw [if_pos failed, if_neg fun none => none_iff.mp none failed]
    · rw [if_neg failed, if_pos (none_iff.mpr failed)]

/-- The options of a run whose files have a known content. -/
def optionsFrom (content : String → Except FileError String) (a : Arguments) :
    Except RunError Options :=
  match a.config with
  | none => .ok a.options
  | some path =>
    match content path with
    | .error e => .error (.unreadableConfig path e)
    | .ok text =>
      match Options.parse text with
      | .error e => .error (.invalidConfig path e)
      | .ok options => .ok (a.options.mergedWith options)

section

variable {m : Type → Type} [Monad m] [LawfulMonad m] {fs : FileSystem m}
  {content : String → Except FileError String}

theorem lift_read (reads : ∀ path, fs.read path = pure (content path)) (path : String) :
    (liftM (fs.read path) : ExceptT RunError m (Except FileError String)) = pure (content path) := by
  rw [reads]
  apply ExceptT.ext
  simp

theorem run_loadOptions (reads : ∀ path, fs.read path = pure (content path)) (a : Arguments) :
    (a.loadOptions fs).run = pure (a.optionsFrom content) := by
  unfold loadOptions optionsFrom
  cases a.config with
  | none => rfl
  | some path =>
    simp only [lift_read reads, pure_bind]
    cases content path with
    | error e => rfl
    | ok text =>
      dsimp only
      cases Options.parse text <;> rfl

theorem mapM_reports (reads : ∀ path, fs.read path = pure (content path)) (options : Options)
    (files : List String) :
    (files.mapM fun path => do return Report.ofText options path (← fs.read path) :
      ExceptT RunError m (List Report)) =
      pure (files.map fun path => Report.ofText options path (content path)) := by
  simp only [lift_read reads, pure_bind]
  exact List.mapM_pure

omit [LawfulMonad m] in
theorem deliver_output {a : Arguments} (no_check : a.check = false) (no_directory : a.outDir = none)
    (compact : a.pretty = false) (reports : List Report) :
    a.deliver fs reports = pure (printed (reports.filterMap Report.tree?)) := by
  simp only [deliver, no_check, no_directory, document, compact]
  rfl

omit [LawfulMonad m] in
theorem deliver_check {a : Arguments} (check : a.check = true) (reports : List Report) :
    a.deliver fs reports = pure "" := by
  simp only [deliver, check]
  rfl

/-- A run is done with its options, unless they are not to be had. -/
theorem run_of_deliver (reads : ∀ path, fs.read path = pure (content path)) {a : Arguments}
    {output : List Report → String} (delivers : ∀ reports, a.deliver fs reports = pure (output reports)) :
    (a.run fs).run = pure ((a.optionsFrom content).map fun options =>
      ⟨output (a.files.map fun path => Report.ofText options path (content path)),
        (outcome options content a.files).diagnostics⟩) := by
  simp only [run, ExceptT.run_bind, run_loadOptions reads, pure_bind]
  cases a.optionsFrom content with
  | error e => rfl
  | ok options =>
    simp only [mapM_reports reads, delivers, ExceptT.run_pure, pure_bind]
    rfl

end

/-- A run accounts for each of its inputs once, unless its options are not to be had. -/
theorem run_accounts {m : Type → Type} [Monad m] [LawfulMonad m] (fs : FileSystem m)
    (content : String → Except FileError String) (reads : ∀ path, fs.read path = pure (content path))
    (a : Arguments) (no_directory : a.outDir = none) (no_check : a.check = false)
    (compact : a.pretty = false) :
    (∃ e, a.optionsFrom content = .error e ∧ (a.run fs).run = pure (.error e)) ∨
    ∃ options outcome, a.optionsFrom content = .ok options ∧ (a.run fs).run = pure (.ok outcome) ∧
      outcome.Accounts options content a.files ∧
      (∀ outDir pretty, (run fs { a with outDir, pretty, check := true }).run =
        pure (.ok ⟨"", outcome.diagnostics⟩)) ∧
      ∀ arguments, Arguments.parse arguments = .ok a → program fs arguments = pure outcome.exit := by
  have delivers (reports : List Report) :
      a.deliver fs reports = pure (printed (reports.filterMap Report.tree?)) :=
    deliver_output no_check no_directory compact reports
  have runs := run_of_deliver reads delivers
  cases loaded : a.optionsFrom content with
  | error e =>
    left
    rw [loaded] at runs
    exact ⟨e, rfl, runs⟩
  | ok options =>
    right
    rw [loaded] at runs
    refine ⟨options, outcome options content a.files, rfl, runs,
      accounts_outcome options content a.files, ?_, ?_⟩
    · intro outDir pretty
      let checked : Arguments := { a with outDir, pretty, check := true }
      have checks := run_of_deliver reads (a := checked) (deliver_check rfl)
      have same : checked.optionsFrom content = .ok options := loaded
      rw [same] at checks
      exact checks
    · intro arguments parsed
      unfold program
      rw [parsed]
      simp only [runs, pure_bind]
      rfl

/-- One input that parses between one that does not and one that is missing. -/
theorem run_accounts_missing :
    let content : String → Except FileError String := fun path =>
      if path = "a" then .ok "type A = B" else if path = "b" then .ok "type = B" else .error .notFound
    let fs : FileSystem Id := ⟨content, fun _ => .ok (), fun _ _ => .ok ()⟩
    let a : Arguments := { files := ["b", "a", "c"] }
    ∃ outcome, (a.run fs).run = .ok outcome ∧ outcome.exit.code = 1 ∧
      (outcome.output.toList.splitOn '\n').length = 2 ∧ outcome.diagnostics.length = 2 := by
  intro content fs a
  have accounts := run_accounts fs content (fun _ => rfl) a rfl rfl rfl
  rcases accounts with ⟨e, failed, -⟩ | ⟨options, outcome, loaded, ran, accounts, -⟩
  · cases failed
  · obtain rfl : a.options = options := Except.ok.inj loaded
    obtain ⟨ds, each, perm, -⟩ := accounts.errors
    refine ⟨outcome, ran, ?_, ?_, ?_⟩
    · rw [accounts.code_eq]
      exact if_pos ⟨"c", by decide, rfl⟩
    · rw [accounts.lines]
      simp only [List.length_append, List.length_map]
      decide +kernel
    · rw [perm.length_eq, ← each.length_eq]
      decide +kernel

end Arguments

end Ambient
