/-
# `RegLayer.Layer` — the register layer of a design

Rendering turns the part of a model below an address map into a register layer: a banner, a
container and the classes.  It reads nothing but the model, the options and the name of the output
file; writing the text to that file comes after everything that can fail in rendering.

The order of the checks decides which fault is reported when there are several: the top is an
address map, the banner can be filled in, the container has a name, the classes can be described.

The text is the banner as it is, and complete lines after it (`Layer.text`).  Nothing is put
between the two, so a banner has to end its last line itself.
-/
import RegLayer.Banner
import RegLayer.Classes.Code
import RegLayer.Classes.Container
import RegLayer.Classes.Describe
import RegLayer.Files.Basic

namespace RegLayer

/-- The generated code of one export. -/
structure Layer where
  banner : String
  container : Classes.Container
  style : Classes.CodeStyle
  bodies : List Classes.Body
  /-- The number of class names taken. -/
  classes : Nat
  /-- How often a class served again. -/
  reused : Nat

/-- The lines after the banner. -/
def Layer.codeLines (l : Layer) : List String :=
  l.container.opening ++ l.bodies.flatMap (·.lines l.style) ++ l.container.closing

/-- The whole text: the banner as it is, and complete lines after it. -/
def Layer.text (l : Layer) : String :=
  l.banner ++ String.join (l.codeLines.map (· ++ "\n"))

/-- The options' choices about the code. -/
def Options.codeStyle (o : Options) : Classes.CodeStyle where
  useFactory := o.useFactory
  coverage := o.coverage
  enhancedRegisters := o.enhancedRegisters

/-- The options of an export and the template of its banner. -/
structure Exporter where
  options : Options
  banner : String

namespace Exporter

/-- The file that replaces the standard banner in a template directory. -/
def bannerFile : String := "banner.sv"

/-- Finds the banner for the options.  A template directory has to be there, but need not hold a
banner. -/
def load {m : Type → Type} [Monad m] [Files m] (options : Options) : Session m Exporter := do
  match options.templateDir with
  | none => return ⟨options, Banner.standard⟩
  | some dir =>
    if ← (Files.isDirectory dir : m Bool) then
      let candidate := Path.inside dir bannerFile
      if ← (Files.isFile candidate : m Bool) then
        Session.ofReport (Report.note (.bannerFound candidate))
        return ⟨options, ← Session.ask (Files.read candidate)⟩
      else return ⟨options, Banner.standard⟩
    else Session.fail (.missingTemplates dir)

/-- Refuses everything but an address map, and notes that a bridge is exported as one map. -/
def checkTop (m : Model) (top : Nat) : Report Unit :=
  match m.kind top with
  | .addrmap _ bridge => if bridge then Report.note (.bridgeExported (m.name top)) else pure ()
  | kind => Report.fail (.notExportable (m.name top) kind.label)

/-- The banner of an export to this path. -/
def fillBanner (e : Exporter) (m : Model) (top : Nat) (output : String) :
    Except Failure String :=
  match Path.fileName? output with
  | some file =>
    Banner.fill e.banner (Banner.allVariables e.options.userVariables (m.name top) file)
  | none => .error (.fault (.invalidOutput output))

/-- What the classes of an export depend on. -/
def context (e : Exporter) (m : Model) (top : Nat) : Classes.Context where
  names :=
    { model := m
      top := top
      style := e.options.namingStyle
      upperCase := e.options.upperCaseNames }
  widths := WidthTable.build m top

/-- The register layer of the part of the model below `top`. -/
def render (e : Exporter) (m : Model) (top : Nat) (output : String) : Report Layer := do
  checkTop m top
  let banner ← e.fillBanner m top output
  let container ← Classes.Container.ofPath e.options.containerStyle output
  let out ← (e.context m top).describe .empty (m.postorder top)
  Report.note (.rendered (m.path top) out.register.size)
  return {
    banner := banner
    container := container
    style := e.options.codeStyle
    bodies := out.bodies
    classes := out.register.size
    reused := out.reused }

/-- Renders and writes the text to the output file, after making the directories above it. -/
def export_ {m : Type → Type} [Monad m] [Files m] (e : Exporter) (model : Model) (top : Nat)
    (output : String) : Session m Layer := do
  let layer ← Session.ofReport (e.render model top output)
  match Path.parent? output with
  | none | some "" => pure ()
  | some dir => Session.ask (Files.makeDirectories dir)
  Session.ask (Files.write output layer.text)
  Session.ofReport (Report.note (.written output layer.classes layer.reused))
  return layer

end Exporter

end RegLayer
