import SdlTypes.Proofs.FileChanges
import SdlTypes.Run

/-!
# What a run changes

A run first composes the text of the module and then delivers it (`Run.generate_eq`). Composing
leaves all files as they were, also when it fails: an archive is unpacked in a directory of its own,
which is removed again (`Run.moves_compose`). Delivering writes the text where it belongs.
-/

namespace SdlTypes

namespace Run

variable {α : Type}

/-! ## The parts of a run -/

/-- All that is done before the output is opened. The text is not written yet. -/
def compose (w : Surroundings) (c : CommandLine) : Run String := do
  let options ← readOptions w.directory c.config
  let loaded ← withSource w.scratch (.resolve w.directory c.schema) fun source => do
    tell c.verbose ("Schema: " ++ source.text)
    tell c.verbose ("Output: " ++ (Path.resolve w.directory c.output).text)
    say "Parsing schema..."
    readSchema source
  tell c.verbose ("  Types: " ++ toString loaded.arranged.definitions.length)
  say "Generating types..."
  c.templates.forM (lookForTemplates w.directory)
  check .generation ((rendering c options).text loaded)

/-- Writes the text of the module to the output and returns it. -/
def deliver (w : Surroundings) (c : CommandLine) (text : String) : Run String := do
  let output := Path.resolve w.directory c.output
  write w.directory output.text text
  tell c.verbose ("  Lines: " ++ toString (Text.lineCount text))
  say ("Done! Generated types in " ++ output.text)
  return text

/-- A run delivers what it has composed. -/
theorem generate_eq (w : Surroundings) (c : CommandLine) :
    generate w c = compose w c >>= deliver w c := by
  simp only [generate, compose, render, bind_assoc, pure_bind]
  rfl

/-! ## Files -/

/-- A relation between files, for the states of a run. -/
def OnFiles (R : FileTree → FileTree → Prop) (s s' : RunState) : Prop :=
  R s.files s'.files

variable {R : FileTree → FileTree → Prop}

theorem moves_edit {ε : Type} (failure : ε → RunError) {operation : ExceptT ε (StateM FileTree) α}
    (h : Moves R operation) : Moves (OnFiles R) (edit failure operation) := fun s => h s.files

section

variable [IsPreorder FileTree R]

instance : IsPreorder RunState (OnFiles R) where
  refl s := refl_of R s.files
  trans _ _ _ := trans_of R

theorem moves_check {ε : Type} (failure : ε → RunError) (result : Except ε α) :
    Moves (OnFiles R) (check failure result) := fun s => refl_of R s.files

theorem moves_say (line : String) : Moves (OnFiles R) (say line) :=
  Moves.ite (fun _ => Moves.throw_bind _ _) fun _ s => refl_of R s.files

theorem moves_tell (verbose : Bool) (line : String) : Moves (OnFiles R) (tell verbose line) :=
  Moves.ite (fun _ => moves_say line) fun _ => Moves.pure ()

theorem moves_readOptions (directory : Path) (written : Option String) :
    Moves (OnFiles R) (readOptions directory written) := by
  cases written with
  | none => exact Moves.pure _
  | some written =>
    refine Moves.get.bind fun s => ?_
    dsimp only
    split
    · exact moves_check _ _
    · exact Moves.throw _

theorem moves_readSchema (source : Path) : Moves (OnFiles R) (readSchema source) :=
  Moves.get.bind fun _ => moves_check _ _

theorem moves_lookForTemplates (directory : Path) (written : String) :
    Moves (OnFiles R) (lookForTemplates directory written) := by
  refine Moves.get.bind fun s => ?_
  split
  · exact Moves.throw _
  · exact Moves.pure ()

end

/-! ## Archives -/

/-- Whether there is nothing at a place or below it. -/
def IsVacant (p : Path) (t : FileTree) : Prop :=
  ∀ x ∈ t.entries, ¬p <+: x.1

instance (p : Path) (t : FileTree) : Decidable (IsVacant p t) :=
  inferInstanceAs (Decidable (∀ x ∈ t.entries, ¬p <+: x.1))

theorem removeBelow_eq {p : Path} {t : FileTree} (h : IsVacant p t) : t.removeBelow p = t := by
  rw [FileTree.removeBelow, List.filter_eq_self.2 fun x hx => ?_]
  simpa only [Bool.not_eq_true', Bool.eq_false_iff, ne_eq, List.isPrefixOf_iff_prefix]
    using h x hx

/-- Whether an archive at a place, if there is one, stays inside where it is unpacked. -/
def StaysInside (scratch path : Path) (t : FileTree) : Prop :=
  ∀ form ∈ ArchiveForm.ofName? path.name, ∀ e ∈ t.find? path, FileTree.StaysInside form scratch e

instance (scratch path : Path) (t : FileTree) : Decidable (StaysInside scratch path t) :=
  inferInstanceAs (Decidable (∀ form ∈ ArchiveForm.ofName? path.name, ∀ e ∈ t.find? path,
    FileTree.StaysInside form scratch e))

/-- What is done with a new directory is undone, if it changes nothing else. -/
theorem files_withDirectory {place : Path} {step : Run α} {s : RunState}
    (hvacant : IsVacant place s.files)
    (h : Moves (OnFiles (FileTree.SameOutside place)) step) :
    ((withDirectory place step).run.run s).2.files = s.files := by
  have hstep := h { s with files := s.files.insert place .directory }
  calc ((withDirectory place step).run.run s).2.files
    _ = ((step.run.run { s with files := s.files.insert place .directory }).2.files).removeBelow
        place := rfl
    _ = (s.files.insert place .directory).removeBelow place := hstep
    _ = s.files.removeBelow place := FileTree.sameOutside_insert List.prefix_rfl _ _
    _ = s.files := removeBelow_eq hvacant

/-- What is there when an archive is to be unpacked, so that nothing else is changed. -/
structure Fits (scratch path : Path) (t : FileTree) : Prop where
  vacant : IsVacant scratch t
  inside : StaysInside scratch path t

/-- Whether files that fit are as they were. -/
def Keeps (scratch path : Path) (t t' : FileTree) : Prop :=
  Fits scratch path t → t' = t

instance (scratch path : Path) : IsPreorder FileTree (Keeps scratch path) where
  refl _ _ := rfl
  trans t u v h h' hfits := by
    obtain rfl := h hfits
    exact h' hfits

theorem moves_withSource {scratch path : Path} {step : Path → Run α}
    (hstep : ∀ source, Moves (OnFiles Eq) (step source)) :
    Moves (OnFiles (Keeps scratch path)) (withSource scratch path step) := by
  rw [withSource]
  intro s hfits
  rw [run_bind, run_get]
  dsimp only
  split
  · exact (hstep path s).symm
  · exact (hstep path s).symm
  · rename_i form entry hform hentry
    refine files_withDirectory hfits.vacant ?_
    have hinside : FileTree.StaysInside form scratch entry :=
      hfits.inside form hform entry (Option.filter_eq_some_iff.1 hentry).1
    refine (moves_edit _ (FileTree.moves_unpack hinside)).bind fun _ => ?_
    refine (moves_say _).bind fun _ => (hstep scratch).imp fun u v huv => ?_
    exact (congrArg (FileTree.removeBelow · scratch) huv).symm

theorem moves_compose (w : Surroundings) (c : CommandLine) :
    Moves (OnFiles (Keeps w.scratch (.resolve w.directory c.schema))) (compose w c) := by
  refine (moves_readOptions _ _).bind fun options => ?_
  refine Moves.bind (moves_withSource fun source => ?_) fun loaded => ?_
  · refine (moves_tell _ _).bind fun _ => (moves_tell _ _).bind fun _ => ?_
    exact (moves_say _).bind fun _ => moves_readSchema source
  · refine (moves_tell _ _).bind fun _ => (moves_say _).bind fun _ => ?_
    refine Moves.bind ?_ fun _ => moves_check _ _
    cases c.templates with
    | none => exact Moves.pure _
    | some written => exact moves_lookForTemplates _ _

/-! ## Delivering -/

theorem fails_say {P : RunError → Prop} {line : String} (h : P (.unprintable line)) :
    Fails P (say line) :=
  Fails.ite ((Fails.throw h).bind fun _ => Fails.modify _) (Fails.modify _)

theorem fails_edit {ε : Type} {P : RunError → Prop} {failure : ε → RunError}
    {operation : ExceptT ε (StateM FileTree) α} (h : ∀ e, P (failure e)) :
    Fails P (edit failure operation) := by
  intro s e he
  change Except.mapError failure (operation.run.run s.files).1 = .error e at he
  generalize (operation.run.run s.files).1 = result at he
  cases result with
  | error e' => exact Except.error.inj he ▸ h e'
  | ok v => cases he

end Run

/-- Whether an error tells that the options, the schema or an archive are bad. Such errors come
before the output is opened. -/
def RunError.isOfInput : RunError → Bool
  | .config _ | .schema _ | .generation _ | .archive .. | .unreadable _ => true
  | .obstructed .. | .notPlain _ | .unprintable _ => false

namespace Run

theorem fails_write (directory : Path) (written text : String) :
    Fails (fun e => e.isOfInput = false) (write directory written text) := by
  rw [write]
  refine Fails.bind (fails_edit fun obstacle => ?_) fun _ => ?_
  · rfl
  · exact Fails.ite (Fails.throw rfl) (Fails.pure _)

/-- Nothing is wrong with the input of a run that has come to its output. -/
theorem fails_deliver (w : Surroundings) (c : CommandLine) (text : String) :
    Fails (fun e => e.isOfInput = false) (deliver w c text) := by
  have hsay (line : String) : Fails (fun e => e.isOfInput = false) (say line) := fails_say rfl
  have htell (line : String) : Fails (fun e => e.isOfInput = false) (tell c.verbose line) :=
    Fails.ite (hsay line) (Fails.pure _)
  rw [deliver]
  refine (fails_write _ _ _).bind fun _ => (htell _).bind fun _ => ?_
  exact (hsay _).bind fun _ => Fails.pure _

theorem run_of_run_edit {ε : Type} {failure : ε → RunError}
    {operation : ExceptT ε (StateM FileTree) α} {s s' : RunState} {v : α}
    (h : (edit failure operation).run.run s = (.ok v, s')) :
    operation.run.run s.files = (.ok v, s'.files) := by
  have hrun : (edit failure operation).run.run s =
      ((operation.run.run s.files).1.mapError failure,
        { s with files := (operation.run.run s.files).2 }) := rfl
  rcases hop : operation.run.run s.files with ⟨result, files⟩
  rw [hrun, hop] at h
  obtain ⟨hresult, rfl⟩ := Prod.mk.inj h
  cases result with
  | error e => cases hresult
  | ok v' => exact congrArg (Except.ok · , files) (Except.ok.inj hresult)

theorem written_of_write {directory place : Path} {text : String} {s s' : RunState}
    (hproper : place.IsProper) (h : (write directory place.text text).run.run s = (.ok (), s')) :
    FileTree.Written s.files s'.files place text := by
  rw [write] at h
  obtain ⟨_, u, hedit, hrest⟩ := exists_of_run_bind h
  have hwritten := FileTree.written_of_write hproper (run_of_run_edit hedit)
  cases hplain : Text.isPlain text with
  | false =>
    rw [hplain] at hrest
    cases hrest
  | true =>
    rw [hplain] at hrest hwritten
    cases hrest
    exact hwritten

/-- A text that has been delivered stands in the output. -/
theorem written_of_deliver {w : Surroundings} {c : CommandLine} {text text' : String}
    {s s' : RunState} (hproper : w.directory.IsProper)
    (h : (deliver w c text).run.run s = (.ok text', s')) :
    FileTree.Written s.files s'.files (Path.resolve w.directory c.output) text' := by
  rw [deliver] at h
  obtain ⟨_, u, hwrite, hrest⟩ := exists_of_run_bind h
  have hwritten := written_of_write (hproper.resolve c.output) hwrite
  have hfiles : OnFiles Eq u s' := Moves.of_run hrest
    ((moves_tell _ _).bind fun _ => (moves_say _).bind fun _ => Moves.pure _)
  have htext : text' = text := by
    refine Returns.of_run (P := (· = text)) hrest ?_
    exact Returns.bind fun _ => Returns.bind fun _ => Returns.pure rfl
  rw [htext, ← show u.files = s'.files from hfiles]
  exact hwritten

end Run

/-! ## Command lines -/

namespace Outcome

variable {w : Surroundings} {files : FileTree} {arguments : List String}

/-- The ways in which the run of a command line goes: the command line is refused, the run fails
before it opens its output, it fails after that, or it succeeds. -/
inductive Course (w : Surroundings) (files : FileTree) (arguments : List String) :
    Outcome × RunState → Prop where
  | refused {e : CommandLineError}
    (hc : CommandLine.ofArguments files w.directory arguments = .error e) :
    Course w files arguments (ofError e, { files })
  | composing {c : CommandLine} {e : RunError} {s : RunState}
    (hc : CommandLine.ofArguments files w.directory arguments = .ok c)
    (hcompose : (Run.compose w c).run.run { files } = (.error e, s)) :
    Course w files arguments (.failed e, s)
  | delivering {c : CommandLine} {text : String} {e : RunError} {s s' : RunState}
    (hc : CommandLine.ofArguments files w.directory arguments = .ok c)
    (hcompose : (Run.compose w c).run.run { files } = (.ok text, s))
    (hdeliver : (Run.deliver w c text).run.run s = (.error e, s')) :
    Course w files arguments (.failed e, s')
  | delivered {c : CommandLine} {text text' : String} {s s' : RunState}
    (hc : CommandLine.ofArguments files w.directory arguments = .ok c)
    (hcompose : (Run.compose w c).run.run { files } = (.ok text, s))
    (hdeliver : (Run.deliver w c text).run.run s = (.ok text', s')) :
    Course w files arguments (.done text', s')

theorem course_ofArguments (w : Surroundings) (files : FileTree) (arguments : List String) :
    Course w files arguments (ofArguments w files arguments) := by
  rw [ofArguments]
  rcases hc : CommandLine.ofArguments files w.directory arguments with e | c
  · exact .refused hc
  · dsimp only
    rw [Run.generate_eq, run_bind]
    rcases hcompose : (Run.compose w c).run.run { files } with ⟨e | text, s⟩
    · exact .composing hc hcompose
    · dsimp only
      rcases hdeliver : (Run.deliver w c text).run.run s with ⟨e | text', s'⟩
      · exact .delivering hc hcompose hdeliver
      · exact .delivered hc hcompose hdeliver

/-- What is supposed about the files that a command line finds. -/
structure Meets (w : Surroundings) (files : FileTree) (arguments : List String) : Prop where
  /-- The directory of the command has a name like any other. -/
  proper : w.directory.IsProper
  /-- The directory for archives is a new one. -/
  vacant : Run.IsVacant w.scratch files
  /-- If the schema is an archive, its members stay inside that directory. -/
  inside : ∀ c, CommandLine.ofArguments files w.directory arguments = .ok c →
    Run.StaysInside w.scratch (.resolve w.directory c.schema) files

/-- Composing changes no files. -/
theorem Meets.files_compose (h : Meets w files arguments) {c : CommandLine}
    (hc : CommandLine.ofArguments files w.directory arguments = .ok c) {s : RunState}
    {result : Except RunError String}
    (hcompose : (Run.compose w c).run.run { files } = (result, s)) : s.files = files :=
  Moves.of_run hcompose (Run.moves_compose w c) ⟨h.vacant, h.inside c hc⟩

/-- Whether the run of a command line comes to opening its output. -/
def ReachesOutput (w : Surroundings) (files : FileTree) (arguments : List String) : Prop :=
  ∃ c text s, CommandLine.ofArguments files w.directory arguments = .ok c ∧
    (Run.compose w c).run.run { files } = (.ok text, s)

/-- A run that does not come to opening its output fails and leaves all files as they were, and so
does one that finds its input bad. A run that succeeds leaves its text in the output, and besides
there are only directories new that were missing above it. -/
theorem files_ofArguments (h : Meets w files arguments) :
    (¬ReachesOutput w files arguments →
      (∀ text, (ofArguments w files arguments).1 ≠ .done text) ∧
        (ofArguments w files arguments).2.files = files) ∧
    (∀ e, (ofArguments w files arguments).1 = .failed e → e.isOfInput →
      (ofArguments w files arguments).2.files = files) ∧
    ∀ text, (ofArguments w files arguments).1 = .done text →
      ∃ c, CommandLine.ofArguments files w.directory arguments = .ok c ∧
        FileTree.Written files (ofArguments w files arguments).2.files
          (.resolve w.directory c.output) text := by
  have hcourse := course_ofArguments w files arguments
  generalize ofArguments w files arguments = result at hcourse ⊢
  cases hcourse with
  | refused hc =>
    rename_i e
    cases e with
    | usage => exact ⟨fun _ => ⟨nofun, rfl⟩, nofun, nofun⟩
    | badPath path obstacle => exact ⟨fun _ => ⟨nofun, rfl⟩, fun _ _ _ => rfl, nofun⟩
  | composing hc hcompose =>
    have hfiles := h.files_compose hc hcompose
    exact ⟨fun _ => ⟨nofun, hfiles⟩, fun _ _ _ => hfiles, nofun⟩
  | delivering hc hcompose hdeliver =>
    refine ⟨fun hreach => absurd ⟨_, _, _, hc, hcompose⟩ hreach, fun e he hinput => ?_, nofun⟩
    cases he
    rw [Run.fails_deliver w _ _ _ _ (congrArg Prod.fst hdeliver)] at hinput
    cases hinput
  | delivered hc hcompose hdeliver =>
    refine ⟨fun hreach => absurd ⟨_, _, _, hc, hcompose⟩ hreach, nofun, fun text htext => ?_⟩
    cases htext
    have hwritten := Run.written_of_deliver h.proper hdeliver
    rw [h.files_compose hc hcompose] at hwritten
    exact ⟨_, hc, hwritten⟩

/-- Files with an archive that holds a schema which no module can be made of, and a module from an
earlier run. -/
def archivedOneOf : FileTree where
  entries := [(["home"], .directory),
    (["home", "s.tgz"], .archive [("a/s.graphql", "input P @oneOf \x7b a: Int! \x7d")]),
    (["home", "types.ts"], .file "type Old;")]

theorem files_ofArguments_archivedOneOf :
    (ofArguments ⟨["home"], ["tmp"]⟩ archivedOneOf
        ["generate", "-s", "s.tgz", "-o", "types.ts"]).1 =
      .failed (.generation (.fold (.construction ⟨"P", "a"⟩))) ∧
    (ofArguments ⟨["home"], ["tmp"]⟩ archivedOneOf
        ["generate", "-s", "s.tgz", "-o", "types.ts"]).2.files = archivedOneOf := by
  have hfailed : (ofArguments ⟨["home"], ["tmp"]⟩ archivedOneOf
      ["generate", "-s", "s.tgz", "-o", "types.ts"]).1 =
        .failed (.generation (.fold (.construction ⟨"P", "a"⟩))) := by
    decide +kernel
  have hread : ((CommandLine.ofArguments archivedOneOf ["home"]
      ["generate", "-s", "s.tgz", "-o", "types.ts"]).toOption.all fun c =>
        c.schema = "s.tgz") = true := by decide +kernel
  have hinside : Run.StaysInside ["tmp"] (.resolve ["home"] "s.tgz") archivedOneOf := by
    decide +kernel
  have hmeets : Meets ⟨["home"], ["tmp"]⟩ archivedOneOf
      ["generate", "-s", "s.tgz", "-o", "types.ts"] := by
    refine ⟨by decide, by decide, fun c hc => ?_⟩
    rw [hc] at hread
    rw [show c.schema = "s.tgz" from of_decide_eq_true hread]
    exact hinside
  exact ⟨hfailed, (files_ofArguments hmeets).2.1 _ hfailed rfl⟩

end Outcome

end SdlTypes
