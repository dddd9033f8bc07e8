/-
# `RegLayer.Proofs.CommandLine.Run` — a run writes once, and last

A run reads its settings, its template and its design, renders, makes folders, and then writes one
text.  All before the folders only reads (`reads_options`, `load_cases`, `reads_load`), rendering
does not touch the disk, and after the write nothing can fail (`export_cases`).  So the code of a
run says what became of the files: unless it is zero, they are as they were
(`failed_run_keeps_files`).

    code not 0       every file is as it was; folders may have been made
    code 0, help     the disk is as it was
    code 0           the output holds the text of the layer that the request resolves to, and every
                     other file is as it was (`Disk.Wrote`); at the null device nothing is kept

`Request.Resolves` says what the words of the command line resolve to, and
`Request.Resolves.options_eq` which options these are: those of the settings file, or else the
standard ones, with the arguments over them (`Arguments.get_override`) and the definitions set
last.

Taken as given: nothing, for the disk as it is modelled.  The words, the environment and the disk
are arbitrary.
-/
import RegLayer.CommandLine.Run
import RegLayer.Proofs.Files.Session
import RegLayer.Proofs.Options

namespace RegLayer

open Session

/-! ## The parts of a run -/

namespace CommandLine

theorem reads_baseOptions (config : Option String) :
    Reads (baseOptions config : Session (StateM Disk) Options) := by
  unfold baseOptions
  cases config with
  | none => exact reads_pure _
  | some path => exact (reads_ask_read path).bind fun text => reads_located _ _

theorem reads_options (a : Arguments) :
    Reads (a.options : Session (StateM Disk) Options) :=
  (reads_baseOptions a.config).bind fun _ => (reads_ofReport _).bind fun _ => reads_pure _

theorem reads_load (r : Request) : Reads (r.load : Session (StateM Disk) (Model × Nat)) := by
  unfold Request.load
  refine (reads_ask_read r.input).bind fun text => (reads_located _ _).bind fun design => ?_
  obtain ⟨model, standard⟩ := design
  cases r.arguments.top with
  | some name =>
    dsimp only
    split
    · exact reads_pure _
    · exact reads_fail _
  | none =>
    dsimp only
    split
    · exact reads_pure _
    · exact reads_fail _

end CommandLine

namespace Exporter

/-- Finding the banner only reads, and the exporter that it makes has the options it was given. -/
theorem load_cases (options : Options) (d : Disk) :
    (∃ e, Ends (load options) d (.error e) d) ∨
      ∃ banner, Ends (load options) d (.ok ⟨options, banner⟩) d := by
  unfold load
  cases options.templateDir with
  | none => exact .inr ⟨Banner.standard, ends_pure _ d⟩
  | some dir =>
    have hdir := ends_isDirectory dir d
    cases hisDir : d.isDirectory dir with
    | false =>
      rw [hisDir] at hdir
      exact .inl ⟨_, hdir.bind (ends_fail _ d)⟩
    | true =>
      rw [hisDir] at hdir
      have hfile := ends_isFile (Path.inside dir bannerFile) d
      cases hisFile : d.isFile (Path.inside dir bannerFile) with
      | false =>
        rw [hisFile] at hfile
        exact .inr ⟨Banner.standard, hdir.bind (hfile.bind (ends_pure _ d))⟩
      | true =>
        rw [hisFile] at hfile
        have hnote := ends_ofReport (Report.note (.bannerFound (Path.inside dir bannerFile))) d
        obtain ⟨answer, hread⟩ := reads_ask_read (Path.inside dir bannerFile) d
        cases answer with
        | error e => exact .inl ⟨e, hdir.bind (hfile.bind (hnote.bind hread.bind_error))⟩
        | ok banner =>
          exact .inr ⟨banner, hdir.bind (hfile.bind (hnote.bind (hread.bind (ends_pure _ d))))⟩

/-- Makes the folders above an output file. -/
def makeFoldersAbove (output : String) : Session (StateM Disk) Unit :=
  match Path.parent? output with
  | none | some "" => pure ()
  | some dir => ask (Files.makeDirectories dir)

theorem export_eq (e : Exporter) (m : Model) (top : Nat) (output : String) :
    (e.export_ m top output : Session (StateM Disk) Layer) = do
      let layer ← ofReport (e.render m top output)
      makeFoldersAbove output
      ask (Files.write output layer.text)
      ofReport (Report.note (.written output layer.classes layer.reused))
      return layer := by
  unfold export_ makeFoldersAbove
  refine congrArg (ofReport (e.render m top output) >>= ·) (funext fun layer => ?_)
  cases Path.parent? output with
  | none => rfl
  | some dir =>
    by_cases hdir : dir = ""
    · subst hdir
      rfl
    · simp only

theorem makeFoldersAbove_cases (output : String) (d : Disk) :
    Fails (makeFoldersAbove output) d ∨
      ∃ d', Ends (makeFoldersAbove output) d (.ok ()) d' ∧ d.OnlyFolders d' := by
  unfold makeFoldersAbove
  split
  · exact .inr ⟨d, ends_pure () d, .refl d⟩
  · exact .inr ⟨d, ends_pure () d, .refl d⟩
  · next dir _ _ =>
    rcases ends_ask_keep (·.makeFolders (Path.upwards dir)) d with ⟨e, _, hend⟩ | ⟨d', hmade, hend⟩
    · exact .inl hend.fails
    · exact .inr ⟨d', hend, Disk.onlyFolders_of_makeFolders hmade⟩

/-- **An export fails without touching a file**, or it has written the text it rendered. -/
theorem export_cases (e : Exporter) (m : Model) (top : Nat) (output : String) (d : Disk) :
    Fails (e.export_ m top output) d ∨
      ∃ layer d', (e.render m top output).outcome = .ok layer ∧
        Ends (e.export_ m top output) d (.ok layer) d' ∧ d.Wrote output layer.text d' := by
  rw [export_eq]
  have hrender := ends_ofReport (e.render m top output) d
  cases hlayer : (e.render m top output).outcome with
  | error failure =>
    rw [hlayer] at hrender
    exact .inl hrender.fails.bind
  | ok layer =>
    rw [hlayer] at hrender
    rcases makeFoldersAbove_cases output d with hfails | ⟨d₁, hfolders, honly⟩
    · exact .inl (hrender.bind_fails (.refl d) hfails.bind)
    · rcases ends_ask_keep (·.write output layer.text) d₁ with ⟨e, _, hend⟩ | ⟨d₂, hwrote, hend⟩
      · exact .inl (hrender.bind_fails (.refl d) (hfolders.bind_fails honly hend.fails.bind))
      · have hnote := ends_ofReport (Report.note (.written output layer.classes layer.reused)) d₂
        refine .inr ⟨layer, d₂, rfl, ?_, (Disk.wrote_of_write hwrote).after_folders honly⟩
        exact hrender.bind (hfolders.bind (hend.bind (hnote.bind (ends_pure layer d₂))))

end Exporter

namespace CommandLine

/-- What a request comes down to on a disk: the options of the run, the exporter that they make,
the model of the input, and its map to export. -/
structure Request.Resolves (r : Request) (d : Disk) (options : Options) (e : Exporter) (m : Model)
    (top : Nat) : Prop where
  settings : Ends r.arguments.options d (.ok options) d
  exporter : Ends (Exporter.load options) d (.ok e) d
  same : e.options = options
  design : Ends r.load d (.ok (m, top)) d

/-! ### The resolved options -/

/-- These are the options of the settings file, or the standard ones if no file is named. -/
def BaseOptions (d : Disk) (o : Options) : Option String → Prop
  | none => o = {}
  | some path => ∃ text, d.read path = .ok text ∧ Settings.read text = .ok o

theorem baseOptions_ok {config : Option String} {d : Disk} {o : Options}
    (h : Ends (baseOptions config) d (.ok o) d) : BaseOptions d o config := by
  unfold baseOptions at h
  cases config with
  | none => exact (Except.ok.inj ((ends_pure _ d).unique h).1).symm
  | some path =>
    obtain ⟨text, htext, hsettings⟩ := (reads_ask_read path).of_bind (fun _ => reads_located _ _) h
    exact ⟨text, ask_read_ok htext, located_ok hsettings⟩

/-- What the flags of a command line say for an option.  The variables have no flag. -/
def Arguments.flag? (a : Arguments) : Options.Item → Option Options.Setting
  | .asPackage => a.container.map fun style => .switch (style == .package)
  | .shareClasses => a.naming.map fun style => .switch (style == .lexical)
  | .useFactory => a.useFactory.map .switch
  | .upperCaseNames => a.upperCaseNames.map .switch
  | .coverage => a.coverage.map .switch
  | .enhancedRegisters => a.enhancedRegisters.map .switch
  | .templateDir => a.templateDir.map fun dir => .directory (some dir)
  | .userVariables => none

/-- **A flag goes before the settings**, option by option. -/
theorem Arguments.get_override (a : Arguments) (o : Options) (i : Options.Item) :
    (a.override o).get i = (a.flag? i).getD (o.get i) := by
  unfold override flag?
  cases i with
  | asPackage => cases a.container <;> cases a.naming <;> rfl
  | shareClasses => cases a.container <;> cases a.naming <;> rfl
  | useFactory => cases a.container <;> cases a.naming <;> cases a.useFactory <;> rfl
  | upperCaseNames => cases a.container <;> cases a.naming <;> cases a.upperCaseNames <;> rfl
  | coverage => cases a.container <;> cases a.naming <;> cases a.coverage <;> rfl
  | enhancedRegisters =>
    cases a.container <;> cases a.naming <;> cases a.enhancedRegisters <;> rfl
  | templateDir => cases a.container <;> cases a.naming <;> cases a.templateDir <;> rfl
  | userVariables => cases a.container <;> cases a.naming <;> rfl

/-- **The resolved options** are those of the settings file, or the standard ones, under the flags
that were given; and the variables are those of the settings file with the definitions of the
command line set, the last one for a name last. -/
theorem Request.Resolves.options_eq {r : Request} {d : Disk} {options : Options} {e : Exporter}
    {m : Model} {top : Nat} (h : r.Resolves d options e m top) :
    ∃ base definitions, BaseOptions d base r.arguments.config ∧
      r.arguments.definitions.mapM readDefinition = .ok definitions ∧
      (∀ i, i ≠ .userVariables → options.get i = (r.arguments.flag? i).getD (base.get i)) ∧
      ∀ name, options.userVariables.get? name =
        (definitions.reverse.lookup name).or (base.userVariables.get? name) := by
  have hsettings := h.settings
  unfold Arguments.options at hsettings
  obtain ⟨base, hbase, hrest⟩ := (reads_baseOptions _).of_bind
    (fun _ => (reads_ofReport _).bind fun _ => reads_pure _) hsettings
  obtain ⟨definitions, hdefinitions, hoptions⟩ :=
    (reads_ofReport _).of_bind (fun _ => reads_pure _) hrest
  obtain rfl := Except.ok.inj ((ends_pure _ d).unique hoptions).1
  have hoverride := r.arguments.get_override base
  have hvariables : (r.arguments.override base).userVariables = base.userVariables := by
    simpa [Options.get, Arguments.flag?] using hoverride .userVariables
  refine ⟨base, definitions, baseOptions_ok hbase, ofReport_ok hdefinitions, ?_, ?_⟩
  · intro i hi
    rw [← hoverride i]
    cases i with
    | userVariables => exact absurd rfl hi
    | _ => rfl
  · intro name
    rw [Variables.get?_setAll, hvariables]

/-- **A request fails without touching a file**, or the text of its layer has been written. -/
theorem Request.fulfil_cases (r : Request) (d : Disk) :
    Fails r.fulfil d ∨
      ∃ options e m top layer d', r.Resolves d options e m top ∧
        (e.render m top r.output).outcome = .ok layer ∧ Ends r.fulfil d (.ok layer) d' ∧
        d.Wrote r.output layer.text d' := by
  obtain ⟨settings, hsettings⟩ := reads_options r.arguments d
  cases settings with
  | error failure => exact .inl hsettings.fails.bind
  | ok options =>
    rcases Exporter.load_cases options d with ⟨failure, hload⟩ | ⟨banner, hload⟩
    · exact .inl (hsettings.bind_fails (.refl d) hload.fails.bind)
    · obtain ⟨design, hdesign⟩ := reads_load r d
      cases design with
      | error failure =>
        exact .inl (hsettings.bind_fails (.refl d)
          (hload.bind_fails (.refl d) hdesign.fails.bind))
      | ok design =>
        obtain ⟨m, top⟩ := design
        rcases Exporter.export_cases ⟨options, banner⟩ m top r.output d with
          hfails | ⟨layer, d', hrender, hexport, hwrote⟩
        · exact .inl (hsettings.bind_fails (.refl d)
            (hload.bind_fails (.refl d) (hdesign.bind_fails (.refl d) hfails)))
        · exact .inr ⟨options, ⟨options, banner⟩, m, top, layer, d',
            ⟨hsettings, hload, rfl, hdesign⟩, hrender,
            hsettings.bind (hload.bind (hdesign.bind hexport)), hwrote⟩

theorem code_of_error (limit : LogLimit) (notices : List Notice) (failure : Failure) :
    (outcome limit ⟨notices, .error failure⟩).code = 1 ∨
      (outcome limit ⟨notices, .error failure⟩).code = 101 := by
  cases failure with
  | fault cause => exact .inl rfl
  | abort cause => exact .inr rfl

/-- **A run that fails leaves every file as it was.**  Its code is one of four.  Unless it is zero,
every file is as it was.  If it is zero, either help or the version was asked for and nothing at all
has changed, or the one file that has changed is that at the output path, and it holds the text of
the layer that rendering gives for what the request comes down to. -/
theorem failed_run_keeps_files {words : List String} {environment : Option String} {d d' : Disk}
    {o : Outcome} (h : (run words environment : StateM Disk Outcome).run d = (o, d')) :
    (o.code = 0 ∨ o.code = 1 ∨ o.code = 2 ∨ o.code = 101) ∧
    (o.code ≠ 0 → ∀ place, d'.file? place = d.file? place) ∧
    (o.code = 0 →
      (d' = d ∧ (Request.ofWords words = .error .help ∨ Request.ofWords words = .error .version)) ∨
      ∃ r options e m top layer, Request.ofWords words = .ok r ∧ r.Resolves d options e m top ∧
        (e.render m top r.output).outcome = .ok layer ∧ d.Wrote r.output layer.text d') := by
  unfold run at h
  cases hwords : Request.ofWords words with
  | error verdict =>
    rw [hwords] at h
    -- The words settle the outcome, and the disk is not looked at.
    obtain ⟨rfl, rfl⟩ := Prod.mk.inj h
    refine ⟨?_, fun _ _ => rfl, fun hzero => .inl ⟨rfl, ?_⟩⟩
    · cases verdict with
      | usageError => exact .inr (.inr (.inl rfl))
      | help => exact .inl rfl
      | version => exact .inl rfl
    · cases verdict with
      | usageError => cases hzero
      | help => exact .inl rfl
      | version => exact .inr rfl
  | ok r =>
    rw [hwords] at h
    rcases r.fulfil_cases d with
      ⟨failure, d₁, hend, honly⟩ | ⟨options, e, m, top, layer, d₁, hr, hrender, hend, hwrote⟩
    · obtain ⟨notices, hreport⟩ := hend.report
      dsimp only at h
      rw [StateT.run_bind, hreport] at h
      obtain ⟨rfl, rfl⟩ := Prod.mk.inj h
      have hcode := code_of_error (logLimit environment r.arguments.verbosity) notices failure
      refine ⟨?_, fun _ => honly.file?, fun hzero => ?_⟩
      · rcases hcode with hone | habort
        · exact .inr (.inl hone)
        · exact .inr (.inr (.inr habort))
      · dsimp only at hzero
        omega
    · obtain ⟨notices, hreport⟩ := hend.report
      dsimp only at h
      rw [StateT.run_bind, hreport] at h
      obtain ⟨rfl, rfl⟩ := Prod.mk.inj h
      have hcode : (outcome (logLimit environment r.arguments.verbosity)
        ⟨notices, .ok layer⟩).code = 0 := rfl
      exact ⟨.inl hcode, fun hne => absurd hcode hne,
        fun _ => .inr ⟨r, options, e, m, top, layer, rfl, hr, hrender, hwrote⟩⟩

/-! ### One run that writes, and one that finds no map to export -/

/-- A home folder with a description of one register in it. -/
def desk : Disk :=
  Disk.new.put ["home", "soc.xml"]
    (.file "<model><addrmap name=\"soc\"><reg name=\"ctrl\"/></addrmap></model>".toUTF8)

/-- Asks for the layer of the description, in a folder that is not there. -/
def generate : List String := ["soc.xml", "-o", "gen/soc_pkg.sv"]

/-- Asks for the layer of a map that is not there. -/
def generateCpu : List String := generate ++ ["--top", "cpu"]

/-- What a run leaves on the desk. -/
def onDesk (words : List String) : Outcome × Disk :=
  (run words none : StateM Disk Outcome).run desk

theorem codes_onDesk :
    (onDesk generate).1.code = 0 ∧ (onDesk generateCpu).1.code = 1 ∧
      (Request.ofWords generate).isOk = true := by
  decide +kernel

/-- The first run has written the text of a layer, and the second has left all files alone. -/
theorem failed_run_keeps_files_onDesk :
    (∃ r options e m top layer, Request.ofWords generate = .ok r ∧
      r.Resolves desk options e m top ∧ (e.render m top r.output).outcome = .ok layer ∧
      desk.Wrote r.output layer.text (onDesk generate).2) ∧
    ∀ place, (onDesk generateCpu).2.file? place = desk.file? place := by
  obtain ⟨hzero, hone, hwords⟩ := codes_onDesk
  obtain ⟨request, hrequest⟩ := isOk_iff.1 hwords
  have hrun (words : List String) : (run words none : StateM Disk Outcome).run desk =
      ((onDesk words).1, (onDesk words).2) := rfl
  obtain ⟨_, _, hwrote⟩ := failed_run_keeps_files (hrun generate)
  obtain ⟨_, hkept, _⟩ := failed_run_keeps_files (hrun generateCpu)
  constructor
  · rcases hwrote hzero with ⟨_, hhelp | hversion⟩ | hlayer
    · rw [hhelp] at hrequest
      cases hrequest
    · rw [hversion] at hrequest
      cases hrequest
    · exact hlayer
  · exact hkept fun hcode => by omega

end CommandLine

end RegLayer
