import ArrayImage.CommandLine
import ArrayImage.Proofs.Arguments
import ArrayImage.Proofs.Files
import ArrayImage.Proofs.Preconditions
import ArrayImage.Proofs.Recovery

/-!
# ArrayImage.Proofs.Protocol

What a run does, as it is seen from outside.

The exit code says how far a run has come (`Options.Ends`): 2 without a valid description
(`Device.Refused`), 3 without an image or an output, else 0 or 1. Without a design or an image no
file changes. What is written and reported does not depend on strictness and on what is shown
(`Options.SameTask.run`), and a run reads nothing but its description and a program for each core
(`Options.run_congr`). `Options.Protocol` puts all of this together for runs without a fault.
-/

namespace ArrayImage

/-! ## Descriptions -/

/-- The bytes of a text are read as this text. -/
theorem FileSystem.readText_of_read {files : FileSystem} {path text : String}
    (h : files.read path = .ok text.toByteArray.data.toList) : files.readText path = .ok text := by
  have hutf8 : String.fromUTF8? text.toByteArray = some text := dif_pos text.isValidUTF8
  rw [readText, h]
  simp only [Array.toArray_toList, hutf8]

namespace Device

/-- Why there is no valid design in a file: it cannot be read as text, its text cannot be parsed, or
the design breaks rules. -/
inductive Refused (files : FileSystem) (path : String) : Prop where
  | unreadable {reason : String} (read : files.readText path = .error reason)
  | json {text : String} {cause : Json.ReadError} (read : files.readText path = .ok text)
    (isJson : Path.extension? path = some "json") (parse : ofJson text = .error cause)
  | yaml {text : String} (read : files.readText path = .ok text)
    (isYaml : Path.extension? path ≠ some "json") (parse : ofYaml? text = none)
  | invalid {d : Device} (load : load files path = .ok d) (broken : d.issues ≠ [])

variable {files : FileSystem} {path : String}

theorem load_of_json {text : String} (hread : files.readText path = .ok text)
    (hext : Path.extension? path = some "json") :
    load files path = (ofJson text).mapError (.json path) := by
  simp only [load, hread, Except.mapError, bind, Except.bind, if_pos hext]

theorem load_of_yaml {text : String} (hread : files.readText path = .ok text)
    (hext : Path.extension? path ≠ some "json") : load files path =
      match ofYaml? text with
      | some d => .ok d
      | none => .error (.yaml path) := by
  simp only [load, hread, Except.mapError, bind, Except.bind, if_neg hext]
  rfl

theorem loadValid_eq_ok_iff {d : Device} :
    loadValid files path = .ok d ↔ load files path = .ok d ∧ d.issues = [] := by
  unfold loadValid
  cases load files path with
  | error e => simp [bind, Except.bind]
  | ok d' =>
    show d'.accept path = .ok d ↔ _
    unfold accept
    split
    · rename_i hempty
      rw [List.isEmpty_iff] at hempty
      constructor
      · rintro ⟨⟩
        exact ⟨rfl, hempty⟩
      · rintro ⟨⟨⟩, -⟩
        rfl
    · rename_i hissues
      rw [List.isEmpty_iff] at hissues
      constructor
      · rintro ⟨⟩
      · rintro ⟨⟨⟩, hempty⟩
        exact absurd hempty hissues

theorem refused_of_load_error {e : LoadingError} (h : load files path = .error e) :
    Refused files path := by
  cases hread : files.readText path with
  | error reason => exact .unreadable hread
  | ok text =>
    by_cases hext : Path.extension? path = some "json"
    · rw [load_of_json hread hext] at h
      cases hparse : ofJson text with
      | error cause => exact .json hread hext hparse
      | ok d =>
        rw [hparse] at h
        cases h
    · rw [load_of_yaml hread hext] at h
      cases hparse : ofYaml? text with
      | none => exact .yaml hread hext hparse
      | some d =>
        rw [hparse] at h
        cases h

/-- A description is refused, or it has the design that a run works on. -/
theorem refused_iff : Refused files path ↔ ∀ d, loadValid files path ≠ .ok d := by
  constructor
  · intro h d hd
    obtain ⟨hload, hvalid⟩ := loadValid_eq_ok_iff.mp hd
    cases h with
    | unreadable read =>
      rw [load, read] at hload
      cases hload
    | json read isJson parse =>
      rw [load_of_json read isJson, parse] at hload
      cases hload
    | yaml read isYaml parse =>
      rw [load_of_yaml read isYaml, parse] at hload
      cases hload
    | invalid load broken =>
      rw [load] at hload
      cases hload
      exact broken hvalid
  · intro h
    cases hload : load files path with
    | error e => exact refused_of_load_error hload
    | ok d => exact .invalid hload fun hvalid => h d (loadValid_eq_ok_iff.mpr ⟨hload, hvalid⟩)

end Device

/-! ## Lines -/

def Diagnostic.line (g : Diagnostic) : Line :=
  .log (if g.kind.isError then .error else .warning) g.text

/-- A line that every run shows, whatever it is asked to show. -/
def Line.isNotice : Line → Bool
  | .log .debug _ | .row _ => false
  | .log .error _ | .log .warning _ | .log .info _ => true

def Outcome.notices (outcome : Outcome) : List Line :=
  outcome.lines.filter Line.isNotice

theorem Outcome.notices_after (lines : List Line) (outcome : Outcome) :
    (outcome.after lines).notices = lines.filter Line.isNotice ++ outcome.notices :=
  List.filter_append _ _

/-- Both runs write and report the same. -/
structure Outcome.Agrees (a b : Outcome) : Prop where
  image : b.image = a.image
  notices : b.notices = a.notices

theorem Outcome.Agrees.after {a b : Outcome} (h : a.Agrees b) (lines : List Line) :
    (a.after lines).Agrees (b.after lines) := by
  refine ⟨h.image, ?_⟩
  rw [Outcome.notices_after, Outcome.notices_after, h.notices]

theorem filterMap_sublist_filterMap {α β : Type} {f g : α → Option β}
    (h : ∀ x y, f x = some y → g x = some y) (l : List α) :
    (l.filterMap f).Sublist (l.filterMap g) := by
  induction l with
  | nil => exact .slnil
  | cons x l ih =>
    rw [List.filterMap_cons, List.filterMap_cons]
    cases hf : f x with
    | none =>
      cases g x with
      | none => exact ih
      | some y => exact ih.cons y
    | some y =>
      rw [h x y hf]
      exact ih.cons_cons y

theorem Diagnostic.isNotice_line (g : Diagnostic) : g.line.isNotice = true := by
  unfold line
  split <;> rfl

/-- Each diagnostic of a script has its line, in order. -/
theorem Script.lines_diagnostics (s : Script) :
    (s.diagnostics.map Diagnostic.line).Sublist (s.lines.filter Line.isNotice) := by
  have hline : ∀ x y, (Step.diagnostic? x).map Diagnostic.line = some y → x.line? = some y := by
    intro x y h
    cases x <;> cases h
    rfl
  have hsub : (s.diagnostics.map Diagnostic.line).Sublist s.lines := by
    rw [Script.diagnostics, List.map_filterMap]
    exact filterMap_sublist_filterMap hline _
  have hall : (s.diagnostics.map Diagnostic.line).filter Line.isNotice =
      s.diagnostics.map Diagnostic.line := by
    rw [List.filter_eq_self]
    intro y hy
    obtain ⟨g, -, rfl⟩ := List.mem_map.mp hy
    exact g.isNotice_line
  rw [← hall]
  exact hsub.filter _

/-! ## How a run ends -/

namespace Options

def compile (o : Options) (files : FileSystem) (d : Device) : Except Stop Report :=
  d.compile files.programs o.programDir d.addressOf?

/-- How a run ends, and which bytes it writes. -/
inductive Ends (o : Options) (files : FileSystem) : ExitCode → Option (List UInt8) → Prop where
  | refused (refused : Device.Refused files o.design) : Ends o files .badDesign none
  | faulted {d : Device} {f : Fault} (valid : Device.loadValid files o.design = .ok d)
    (faulted : o.compile files d = .error (.fault f)) : Ends o files (.fault f) none
  | aborted {d : Device} {f : LoadFailure} (valid : Device.loadValid files o.design = .ok d)
    (aborted : o.compile files d = .error (.abort f)) : Ends o files .failed none
  | unwritten {d : Device} {r : Report} {e : OutputError}
    (valid : Device.loadValid files o.design = .ok d) (report : o.compile files d = .ok r)
    (unwritten : files.outputError? o.output = some e) : Ends o files .failed none
  | written {d : Device} {r : Report} (valid : Device.loadValid files o.design = .ok d)
    (report : o.compile files d = .ok r) (writable : files.outputError? o.output = none) :
    Ends o files (if o.strict && !r.isClean then .diagnostics else .pass)
      (some (Container.encode r.sections))

variable {o : Options} {files : FileSystem} {d : Device}

theorem perform_of_refused (h : Device.Refused files o.design) :
    ∃ lines, o.perform files = ⟨.badDesign, lines, none⟩ := by
  rw [Device.refused_iff] at h
  unfold perform
  cases hload : Device.load files o.design with
  | error e => exact ⟨_, rfl⟩
  | ok d =>
    have hissues : d.issues ≠ [] := fun hvalid =>
      h d (Device.loadValid_eq_ok_iff.mpr ⟨hload, hvalid⟩)
    have haccept : d.accept o.design = .error (.invalid o.design d.issues) := by
      rw [Device.accept, if_neg]
      rwa [List.isEmpty_iff]
    simp only [haccept]
    exact ⟨_, rfl⟩

theorem perform_of_loadValid (h : Device.loadValid files o.design = .ok d) :
    o.perform files = (o.build files d).after
      [.log .info s!"Loading device description: {Text.quoted o.design}",
        .log .debug d.summary] := by
  obtain ⟨hload, hvalid⟩ := Device.loadValid_eq_ok_iff.mp h
  have haccept : d.accept o.design = .ok d := by
    rw [Device.accept, hvalid]
    rfl
  simp only [perform, hload, haccept]

theorem build_of_error {stop : Stop} (h : o.compile files d = .error stop) :
    ∃ lines, o.build files d =
      ⟨match stop with | .fault f => .fault f | .abort _ => .failed, lines, none⟩ := by
  unfold compile at h
  cases stop with
  | fault f => simp only [build, h, Outcome.mk.injEq, true_and, and_true, exists_eq']
  | abort f => simp only [build, h, Outcome.mk.injEq, true_and, and_true, exists_eq']

theorem build_of_report {r : Report} (h : o.compile files d = .ok r) :
    o.build files d = (r.deliver o files).after (.log .info s!"Compiling device '{d.name}'" ::
      (d.script files.programs o.programDir d.addressOf?).lines) := by
  unfold compile at h
  simp only [build, h]

/-- There is a way in which a run ends. -/
theorem exists_ends (o : Options) (files : FileSystem) : ∃ exit image, o.Ends files exit image := by
  by_cases hr : Device.Refused files o.design
  · exact ⟨_, _, .refused hr⟩
  · obtain ⟨d, hd⟩ : ∃ d, Device.loadValid files o.design = .ok d := by
      simpa [Device.refused_iff] using hr
    cases hc : o.compile files d with
    | error stop =>
      cases stop with
      | fault f => exact ⟨_, _, .faulted hd hc⟩
      | abort f => exact ⟨_, _, .aborted hd hc⟩
    | ok r =>
      cases hout : files.outputError? o.output with
      | some e => exact ⟨_, _, .unwritten hd hc hout⟩
      | none => exact ⟨_, _, .written hd hc hout⟩

/-- A run does not end in any other way. -/
theorem Ends.run_eq {exit : ExitCode} {image : Option (List UInt8)} (h : o.Ends files exit image) :
    (o.run files).exit = exit ∧ (o.run files).image = image := by
  unfold Options.run
  cases h with
  | refused refused =>
    obtain ⟨lines, hp⟩ := perform_of_refused refused
    rw [hp]
    exact ⟨rfl, rfl⟩
  | faulted valid stopped | aborted valid stopped =>
    obtain ⟨lines, hb⟩ := build_of_error stopped
    rw [perform_of_loadValid valid, hb]
    exact ⟨rfl, rfl⟩
  | unwritten valid report hout | written valid report hout =>
    rw [perform_of_loadValid valid, build_of_report report]
    simp only [Report.deliver, hout, Outcome.after, and_self]

theorem ends_run (o : Options) (files : FileSystem) :
    o.Ends files (o.run files).exit (o.run files).image := by
  obtain ⟨exit, image, h⟩ := o.exists_ends files
  obtain ⟨rfl, rfl⟩ := h.run_eq
  exact h

/-! ## What a run is asked to show -/

/-- Both runs have the same task: only strictness and what they show may differ. -/
structure SameTask (o o' : Options) : Prop where
  design : o'.design = o.design
  output : o'.output = o.output
  programDir? : o'.programDir? = o.programDir?

variable {o' : Options}

theorem SameTask.programDir (h : o.SameTask o') : o'.programDir = o.programDir := by
  rw [Options.programDir, Options.programDir, h.programDir?, h.design]

theorem SameTask.compile (h : o.SameTask o') (files : FileSystem) (d : Device) :
    o'.compile files d = o.compile files d := by
  rw [Options.compile, Options.compile, h.programDir]

theorem notices_run (o : Options) (files : FileSystem) :
    (o.run files).notices = (o.perform files).notices := by
  show ((o.perform files).lines.filter o.shows).filter Line.isNotice = _
  rw [List.filter_filter]
  refine List.filter_congr fun l _ => ?_
  match l with
  | .log .debug _ | .row _ => rfl
  | .log .error _ | .log .warning _ | .log .info _ => rfl

/-- The rows of the table are no notices. -/
theorem filter_sectionTable (sections : List Section) :
    (sectionTable sections).filter Line.isNotice = [] := by
  rw [List.filter_eq_nil_iff]
  intro l hl
  rcases List.mem_cons.mp hl with rfl | hl
  · exact Bool.false_ne_true
  · obtain ⟨i, hi, rfl⟩ := List.mem_mapIdx.mp hl
    exact Bool.false_ne_true

theorem SameTask.deliver (h : o.SameTask o') (r : Report) (files : FileSystem) :
    (r.deliver o files).Agrees (r.deliver o' files) := by
  have htable : ∀ b : Bool,
      (if b then sectionTable r.sections else []).filter Line.isNotice = [] := by
    intro b
    cases b with
    | true => exact filter_sectionTable r.sections
    | false => rfl
  unfold Report.deliver
  rw [h.output]
  cases files.outputError? o.output with
  | some e =>
    refine ⟨rfl, ?_⟩
    simp only [Outcome.notices, List.cons_append, List.filter_cons, List.filter_append, htable]
  | none =>
    refine ⟨rfl, ?_⟩
    simp only [Outcome.notices, List.cons_append, List.filter_cons, List.filter_append, htable]

theorem SameTask.build (h : o.SameTask o') (files : FileSystem) (d : Device) :
    (o.build files d).Agrees (o'.build files d) := by
  unfold Options.build
  rw [h.programDir]
  cases d.compile files.programs o.programDir d.addressOf? with
  | error stop =>
    cases stop with
    | fault f => exact ⟨rfl, rfl⟩
    | abort f => exact ⟨rfl, rfl⟩
  | ok r => exact (h.deliver r files).after _

theorem SameTask.perform (h : o.SameTask o') (files : FileSystem) :
    (o.perform files).Agrees (o'.perform files) := by
  unfold Options.perform
  rw [h.design]
  cases Device.load files o.design with
  | error e => exact ⟨rfl, rfl⟩
  | ok d =>
    dsimp only
    cases d.accept o.design with
    | error e => exact ⟨rfl, rfl⟩
    | ok d => exact (h.build files d).after _

/-- What is written and reported does not depend on strictness and on what is shown. -/
theorem SameTask.run (h : o.SameTask o') (files : FileSystem) :
    (o.run files).Agrees (o'.run files) := by
  obtain ⟨himage, hnotices⟩ := h.perform files
  refine ⟨himage, ?_⟩
  rw [notices_run, notices_run, hnotices]

/-! ## What a run reads -/

/-- This tile of a design has a core, and its program is looked for at this path. -/
structure LooksFor (o : Options) (d : Device) (x : Tile) (path : String) : Prop where
  tile : x ∈ d.tiles
  compute : x.kind = .compute
  core : ∃ core, x.core = some core ∧
    path = programPath o.programDir x.column x.row core.programFile

/-- A run reads its description, and if that is valid a program for each core. -/
inductive Reads (o : Options) (files : FileSystem) : String → Prop where
  | design : Reads o files o.design
  | program {d : Device} {x : Tile} {path : String}
    (valid : Device.loadValid files o.design = .ok d) (core : o.LooksFor d x path) :
    Reads o files path

variable {files' : FileSystem}

theorem programs_congr {path : String} (h : files'.read path = files.read path) :
    files'.programs path = files.programs path := by
  rw [FileSystem.programs, FileSystem.programs, h]

theorem load_congr (h : files'.read o.design = files.read o.design) :
    Device.load files' o.design = Device.load files o.design := by
  have htext : files'.readText o.design = files.readText o.design := by
    rw [FileSystem.readText, FileSystem.readText, h]
  rw [Device.load, Device.load, htext]

theorem script_congr (hd : Device.loadValid files o.design = .ok d)
    (h : ∀ path, o.Reads files path → files'.read path = files.read path) :
    d.script files'.programs o.programDir d.addressOf? =
      d.script files.programs o.programDir d.addressOf? := by
  have htile : ∀ x ∈ d.tiles, x.setupSteps files'.programs o.programDir d.arrayOffset.toNat =
      x.setupSteps files.programs o.programDir d.arrayOffset.toNat := by
    intro x hx
    rw [Tile.setupSteps_eq, Tile.setupSteps_eq]
    refine congrArg (Script.onTile _ _ _) (funext fun t => ?_)
    by_cases hk : x.kind = .compute
    · rw [Tile.stepsOn_compute hk, Tile.stepsOn_compute hk, loadSteps, loadSteps]
      cases hcore : x.core with
      | none => rfl
      | some core =>
        have hread := h _ (.program hd ⟨hx, hk, core, hcore, rfl⟩)
        simp only [programs_congr hread]
    · rw [Tile.stepsOn_shim hk, Tile.stepsOn_shim hk]
  rw [Device.script, Device.script, Device.tileSteps, Device.tileSteps,
    List.flatMap_congr htile]

/-- Files that a run does not read do not matter. -/
theorem run_congr (h : ∀ path, o.Reads files path → files'.read path = files.read path)
    (hout : files'.outputError? o.output = files.outputError? o.output) :
    o.run files' = o.run files := by
  have hperform : o.perform files' = o.perform files := by
    unfold perform
    rw [load_congr (h _ .design)]
    cases hload : Device.load files o.design with
    | error e => rfl
    | ok d =>
      dsimp only
      cases haccept : d.accept o.design with
      | error e => rfl
      | ok d' =>
        have hd : Device.loadValid files o.design = .ok d' := by
          rw [Device.loadValid, hload]
          exact haccept
        -- The files come into a compilation through its script only.
        have hscript := script_congr hd h
        simp only [build, Device.compile, Device.configure, hscript, Report.deliver, hout]
  rw [run, run, hperform]

/-- A program that is not there is reported by its path. -/
theorem LooksFor.reported {x : Tile} {path : String} (h : o.LooksFor d x path) {r : Report}
    (hr : o.compile files d = .ok r) {e : FileError} (hread : files.read path = .error e) :
    ∃ t, d.locate x.column x.row = .ok t ∧
      (Problem.programLoad path (.unreadable path)).on t ∈ r.diagnostics := by
  obtain ⟨log, hconf, -⟩ := Device.configure_of_compile hr
  obtain ⟨hs, -, hdiags⟩ := Device.configure_eq_ok_iff.mp hconf
  obtain ⟨i, hi⟩ := List.mem_iff_getElem?.mp h.tile
  obtain ⟨t, before, after, ht, hscript, -⟩ := Device.script_withoutCore hi h.compute hs
  obtain ⟨core, hcore, rfl⟩ := h.core
  have hsource : files.programs (programPath o.programDir x.column x.row core.programFile) =
      .error (.unreadable (programPath o.programDir x.column x.row core.programFile)) := by
    rw [FileSystem.programs, hread]
  have hload : loadSteps files.programs o.programDir t x = [.report t (.programLoad
      (programPath o.programDir x.column x.row core.programFile)
      (.unreadable (programPath o.programDir x.column x.row core.programFile)))] := by
    simp only [loadSteps, hcore, hsource]
    rfl
  refine ⟨t, ht, ?_⟩
  rw [hdiags, hs.diagnostics_eq, hscript, hload, List.mem_filterMap]
  exact ⟨_, List.mem_append_left _ (List.mem_append_right _ (List.mem_singleton_self _)), rfl⟩

/-! ## The protocol -/

def SaysPrograms (arguments : List String) (dir : String) : Prop :=
  "--elf-dir=" ++ dir ∈ arguments ∨ ["--elf-dir", dir] <:+: arguments

/-- Where programs are looked for, from the arguments alone. -/
structure Locates (o : Options) (arguments : List String) : Prop where
  said : ∀ dir, SaysPrograms arguments dir → o.programDir = dir
  beside : (∀ dir, ¬ SaysPrograms arguments dir) → ∀ dir, Path.Parent o.design dir →
    o.programDir = dir
  relative : ∀ name, Path.isAbsolute name = false → Path.join o.programDir name =
    (if o.programDir.toList.getLast? = some '/' then o.programDir else o.programDir ++ "/") ++ name

theorem locates_of_ofArguments? {arguments : List String} (h : ofArguments? arguments = some o) :
    o.Locates arguments := by
  refine ⟨fun dir hdir => ?_, fun hno dir hdir => ?_, fun name hname => ?_⟩
  · rw [programDir, (programDir?_eq_some_iff h).mpr hdir]
    rfl
  · have hnone : o.programDir? = none := by
      rw [Option.eq_none_iff_forall_ne_some]
      exact fun dir hsome => hno dir ((programDir?_eq_some_iff h).mp hsome)
    rw [programDir, hnone]
    exact hdir.directory_eq
  · refine Path.join_relative ?_ hname
    rw [programDir]
    cases hdir : o.programDir? with
    | none => exact Path.directory_ne_empty o.design
    | some dir =>
      rintro rfl
      exact programDir?_ne_empty h hdir

/-- Only a compilation makes a run end in a fault. -/
theorem compile_of_fault {f : Fault} (hfault : (o.run files).exit = .fault f) :
    ∃ d, Device.loadValid files o.design = .ok d ∧ o.compile files d = .error (.fault f) := by
  have h := o.ends_run files
  generalize (o.run files).exit = exit, (o.run files).image = image at h hfault
  cases h with
  | refused | aborted | unwritten => cases hfault
  | faulted valid faulted =>
    cases hfault
    exact ⟨_, valid, faulted⟩
  | written => split at hfault <;> cases hfault

theorem number_eq_two_iff :
    (o.run files).exit.number = 2 ↔ Device.Refused files o.design := by
  constructor
  · intro h
    have hends := o.ends_run files
    generalize (o.run files).exit = exit, (o.run files).image = image at hends h
    cases hends with
    | refused refused => exact refused
    | faulted | aborted | unwritten => cases h
    | written => split at h <;> cases h
  · intro h
    rw [(Ends.refused h).run_eq.1]
    rfl

/-- With a valid design, the exit code is 3 exactly when there is no image or no output. -/
theorem number_eq_three_iff (hfault : ∀ f, (o.run files).exit ≠ .fault f)
    (hd : Device.loadValid files o.design = .ok d) :
    (o.run files).exit.number = 3 ↔
      (∃ f, o.compile files d = .error (.abort f)) ∨ (files.outputError? o.output).isSome := by
  cases hc : o.compile files d with
  | error stop =>
    cases stop with
    | fault f => exact absurd (Ends.faulted hd hc).run_eq.1 (hfault f)
    | abort f =>
      rw [(Ends.aborted hd hc).run_eq.1]
      exact ⟨fun _ => .inl ⟨f, rfl⟩, fun _ => rfl⟩
  | ok r =>
    cases hout : files.outputError? o.output with
    | some e =>
      rw [(Ends.unwritten hd hc hout).run_eq.1]
      exact ⟨fun _ => .inr rfl, fun _ => rfl⟩
    | none =>
      rw [(Ends.written hd hc hout).run_eq.1]
      constructor
      · intro h
        split at h <;> cases h
      · rintro (⟨f, hf⟩ | hsome)
        · cases hf
        · cases hsome

/-- Without a design or without an image, no file changes. -/
theorem files_of_refused_or_aborted {t : FileTree}
    (h : Device.Refused t.fileSystem o.design ∨ ∃ d f,
      Device.loadValid t.fileSystem o.design = .ok d ∧
        o.compile t.fileSystem d = .error (.abort f)) :
    (o.run t.fileSystem).files o t = t := by
  have himage : (o.run t.fileSystem).image = none := by
    obtain hrefused | ⟨d, f, hd, hf⟩ := h
    · exact (Ends.refused hrefused).run_eq.2
    · exact (Ends.aborted hd hf).run_eq.2
  rw [Outcome.files, himage]

/-- Each diagnostic of a report has its line. -/
theorem reported_of_report {r : Report} (hd : Device.loadValid files o.design = .ok d)
    (hr : o.compile files d = .ok r) :
    (r.diagnostics.map Diagnostic.line).Sublist (o.run files).notices := by
  obtain ⟨log, hconf, -⟩ := Device.configure_of_compile hr
  obtain ⟨-, -, hdiags⟩ := Device.configure_eq_ok_iff.mp hconf
  have hscript := Script.lines_diagnostics (d.script files.programs o.programDir d.addressOf?)
  rw [← hdiags] at hscript
  rw [notices_run, perform_of_loadValid hd, Outcome.notices_after, build_of_report hr,
    Outcome.notices_after, List.filter_cons]
  exact ((hscript.cons _).trans (List.sublist_append_left _ _)).trans
    (List.sublist_append_right _ _)

/-- A run has written the image of this report and said what is in it. -/
structure Delivers (o : Options) (arguments : List String) (t : FileTree) (r : Report) : Prop where
  image : (o.run t.fileSystem).image = some (Container.encode r.sections)
  stored : ∃ place, t.target o.output = .ok place ∧ (place ∉ Place.standardDevices →
    ((o.run t.fileSystem).files o t).read o.output = .ok (Container.encode r.sections))
  number : (o.run t.fileSystem).exit.number =
    if "--strict" ∈ arguments ∧ r.diagnostics ≠ [] then 1 else 0
  reported : (r.diagnostics.map Diagnostic.line).Sublist (o.run t.fileSystem).notices

theorem exists_delivers {arguments : List String} (hargs : ofArguments? arguments = some o)
    {t : FileTree} (hfault : ∀ f, (o.run t.fileSystem).exit ≠ .fault f)
    (hd : Device.loadValid t.fileSystem o.design = .ok d)
    (hno : ¬ ∃ f, o.compile t.fileSystem d = .error (.abort f))
    (hout : t.fileSystem.outputError? o.output = none) :
    ∃ r, o.compile t.fileSystem d = .ok r ∧ o.Delivers arguments t r := by
  obtain ⟨r, hr⟩ : ∃ r, o.compile t.fileSystem d = .ok r := by
    cases hc : o.compile t.fileSystem d with
    | ok r => exact ⟨r, rfl⟩
    | error stop =>
      cases stop with
      | fault f => exact absurd (Ends.faulted hd hc).run_eq.1 (hfault f)
      | abort f => exact absurd ⟨f, hc⟩ hno
  obtain ⟨hexit, himage⟩ := (Ends.written hd hr hout).run_eq
  refine ⟨r, hr, himage, ?_, ?_, reported_of_report hd hr⟩
  · cases htarget : t.target o.output with
    | error e =>
      simp only [FileTree.fileSystem, htarget] at hout
      cases hout
    | ok place =>
      refine ⟨place, rfl, fun hdev => ?_⟩
      rw [Outcome.files, himage]
      exact FileTree.read_write htarget hdev _
  · have hstrict := strict_iff hargs
    have hclean : r.isClean = false ↔ r.diagnostics ≠ [] := by
      rw [Report.isClean, Bool.eq_false_iff, ne_eq, List.isEmpty_iff]
    rw [hexit]
    by_cases h : "--strict" ∈ arguments ∧ r.diagnostics ≠ []
    · rw [if_pos h, hstrict.mpr h.1, hclean.mpr h.2]
      rfl
    · rw [if_neg h, if_neg]
      · rfl
      · rw [Bool.and_eq_true, Bool.not_eq_true', hstrict, hclean]
        exact h

/-- What can be seen of a run that has no fault: how it ends (`refused`, `failed`, `delivers`), when
no file changes (`untouched`), what does not matter to it (`agrees`, `reads`), and where it looks
for programs (`locates`, `missing`). -/
structure Protocol (o : Options) (arguments : List String) (t : FileTree) : Prop where
  refused : (o.run t.fileSystem).exit.number = 2 ↔ Device.Refused t.fileSystem o.design
  failed : ∀ d, Device.loadValid t.fileSystem o.design = .ok d →
    ((o.run t.fileSystem).exit.number = 3 ↔
      (∃ f, o.compile t.fileSystem d = .error (.abort f)) ∨
        (t.fileSystem.outputError? o.output).isSome)
  untouched : (Device.Refused t.fileSystem o.design ∨ ∃ d f,
      Device.loadValid t.fileSystem o.design = .ok d ∧
        o.compile t.fileSystem d = .error (.abort f)) →
    (o.run t.fileSystem).files o t = t
  delivers : ∀ d, Device.loadValid t.fileSystem o.design = .ok d →
    (¬ ∃ f, o.compile t.fileSystem d = .error (.abort f)) →
    t.fileSystem.outputError? o.output = none →
    ∃ r, o.compile t.fileSystem d = .ok r ∧ o.Delivers arguments t r
  agrees : ∀ o', o.SameTask o' → (o.run t.fileSystem).Agrees (o'.run t.fileSystem) ∧
    ∀ d, o'.compile t.fileSystem d = o.compile t.fileSystem d
  locates : o.Locates arguments
  reads : ∀ files : FileSystem,
    (∀ path, o.Reads t.fileSystem path → files.read path = t.read path) →
    files.outputError? o.output = t.fileSystem.outputError? o.output →
    o.run files = o.run t.fileSystem
  missing : ∀ d r x path e, o.compile t.fileSystem d = .ok r → o.LooksFor d x path →
    t.read path = .error e →
    ∃ tile, d.locate x.column x.row = .ok tile ∧
      (Problem.programLoad path (.unreadable path)).on tile ∈ r.diagnostics

/-- A run without a fault follows the protocol. -/
theorem run_protocol {arguments : List String} (hargs : ofArguments? arguments = some o)
    (t : FileTree) (hfault : ∀ f, (o.run t.fileSystem).exit ≠ .fault f) :
    o.Protocol arguments t where
  refused := number_eq_two_iff
  failed := fun _ hd => number_eq_three_iff hfault hd
  untouched := files_of_refused_or_aborted
  delivers := fun _ hd hno hout => exists_delivers hargs hfault hd hno hout
  agrees := fun _ h => ⟨h.run t.fileSystem, h.compile t.fileSystem⟩
  locates := locates_of_ofArguments? hargs
  reads := fun _ h hout => run_congr h hout
  missing := fun _ _ _ _ _ hr hlooks hread => hlooks.reported hr hread

def lonelyText : String :=
  "name: lonely\ntiles:\n- col: 2\n  row: 1\n  core:\n    elf_file: p\n"

def lonely : Device where
  schemaVersion := "1.0"
  name := "lonely"
  arrayOffset := 0
  tiles := [⟨2, 1, none, some ⟨some "p"⟩⟩]
  buffers := []
  locks := []
  memories := []
  switchboxes := []
  shimMuxes := []

def described (bytes : List UInt8) : FileTree where
  files := (["d"], bytes) :: FileTree.empty.files
  directories := FileTree.empty.directories

theorem places_described (bytes : List UInt8) : (described bytes).read "d" = .ok bytes ∧
    (described bytes).read "./p" = .error .notFound ∧
    (described bytes).target "o" = .ok ["o"] := by
  exact ⟨rfl, rfl, rfl⟩

theorem ofYaml?_lonelyText : Device.ofYaml? lonelyText = some lonely := by
  decide +kernel

def lonelyFiles : FileTree :=
  described lonelyText.toByteArray.data.toList

def strictRun : Options :=
  ⟨"d", "o", none, true, false, false⟩

theorem loadValid_lonely :
    Device.loadValid lonelyFiles.fileSystem strictRun.design = .ok lonely := by
  have hread : lonelyFiles.fileSystem.read "d" = .ok lonelyText.toByteArray.data.toList :=
    (places_described _).1
  have hext : Path.extension? "d" ≠ some "json" := by decide +kernel
  refine Device.loadValid_eq_ok_iff.mpr ⟨?_, by decide +kernel⟩
  have htext := FileSystem.readText_of_read hread
  rw [show strictRun.design = "d" from rfl, Device.load_of_yaml htext hext, ofYaml?_lonelyText]

theorem exists_report_lonely : ∃ r, strictRun.compile lonelyFiles.fileSystem lonely = .ok r := by
  have hvalid : lonely.Valid := Device.valid_of_issues (by decide +kernel)
  have hmissing : lonelyFiles.fileSystem.programs "./p" = .error (.unreadable "./p") := by
    have hread : lonelyFiles.fileSystem.read "./p" = .error .notFound := (places_described _).2.1
    rw [FileSystem.programs, hread]
  have hloads : ∀ x ∈ lonely.tiles, x.kind = .compute →
      x.Loadable lonelyFiles.fileSystem.programs strictRun.programDir := by
    intro x hx _
    cases List.mem_singleton.mp hx
    have hpath : programPath strictRun.programDir 2 1 (some "p") = "./p" := by decide +kernel
    constructor
    · rintro core cause ⟨⟩ h
      rw [hpath, hmissing] at h
      cases h
      rfl
    · rintro core image ⟨⟩ h
      rw [hpath, hmissing] at h
      cases h
  refine Device.exists_report hvalid ?_
  rw [Device.script_eq, Script.completes_append, Script.completes_append]
  exact ⟨⟨Device.completes_tileSteps_of_loads hvalid (by decide) hloads, rfl⟩, rfl⟩

theorem strictRun_protocol :
    ofArguments? ["-d", "d", "-o", "o", "--strict"] = some strictRun ∧
      (∀ f, (strictRun.run lonelyFiles.fileSystem).exit ≠ .fault f) ∧
      strictRun.Protocol ["-d", "d", "-o", "o", "--strict"] lonelyFiles ∧
      (strictRun.run lonelyFiles.fileSystem).exit.number = 1 := by
  have hargs : ofArguments? ["-d", "d", "-o", "o", "--strict"] = some strictRun := by
    decide +kernel
  obtain ⟨r, hr⟩ := exists_report_lonely
  have hfault : ∀ f, (strictRun.run lonelyFiles.fileSystem).exit ≠ .fault f := by
    intro f hf
    obtain ⟨d, hd, hc⟩ := compile_of_fault hf
    cases loadValid_lonely.symm.trans hd
    cases hr.symm.trans hc
  have hprotocol := run_protocol hargs lonelyFiles hfault
  have hno : ¬ ∃ f, strictRun.compile lonelyFiles.fileSystem lonely = .error (.abort f) := by
    rintro ⟨f, hf⟩
    cases hr.symm.trans hf
  have htarget : lonelyFiles.target "o" = .ok ["o"] := (places_described _).2.2
  have hout : lonelyFiles.fileSystem.outputError? "o" = none := by
    simp only [FileTree.fileSystem, htarget]
    decide
  have hlooks : strictRun.LooksFor lonely ⟨2, 1, none, some ⟨some "p"⟩⟩ "./p" :=
    ⟨List.mem_singleton_self _, rfl, _, rfl, by decide +kernel⟩
  obtain ⟨r, hr, hdelivers⟩ := hprotocol.delivers lonely loadValid_lonely hno hout
  obtain ⟨_, -, hmem⟩ := hprotocol.missing lonely r _ _ _ hr hlooks (places_described _).2.1
  refine ⟨hargs, hfault, hprotocol, ?_⟩
  rw [hdelivers.number, if_pos ⟨by decide, List.ne_nil_of_mem hmem⟩]

end Options
end ArrayImage
