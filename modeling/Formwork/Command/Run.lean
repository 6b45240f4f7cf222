import Formwork.Resource.Bootstrap
import Formwork.Resource.Folder
import Formwork.Panel.State
import Formwork.Command.Settings
import Formwork.Command.Report

/-!
# The command

The command reads its settings, loads messages and templates, and then either lists the
templates or renders one of them: the panel is built, the given values are stored by name,
whether a field accepts them or not, and the panel is written out with the values of all its
fields.

Files are read through an interface, so that the command itself does nothing but compute.
-/

namespace Formwork.Command

set_option autoImplicit false

/-- The configuration file that is read when it exists and no other is named. -/
def defaultConfig : String := "formtemplate.json"

/-- How files are read, by their paths. -/
structure FileAccess (m : Type → Type) where
  read : String → m FileRead

/-- The path of a resource: from the root if its name begins there, else from where the
command runs. -/
def pathOf (resource : String) : String :=
  if resource.toList.head? = some '/' then resource else "./" ++ resource

/-- Why the command fails. -/
inductive Failure where
  | usage (error : UsageError)
  | unreadable (path : String)
  | invalidConfig (path : String)
  | load (error : LoadError)
  | noTemplate (path : String)
  | unknownTemplate (name : String)
  | build (error : BuildError)
  | field (error : FieldError)
  deriving DecidableEq, Repr

/-- A failure in words; for a usage error the words depend on how help is laid out. -/
def Failure.message : Failure → String
  | .usage _ => "invalid arguments"
  | .unreadable path => "Failed to read " ++ path
  | .invalidConfig path => "Invalid configuration in " ++ path
  | .load e => e.message?.getD ""
  | .noTemplate path => "No template found in " ++ path
  | .unknownTemplate name => s!"Unknown template '{name}'"
  | .build e => e.message
  | .field e => e.message

/-! ## Rendering -/

/-- Store values by name, one after the other. -/
def storeValues (values : List (String × String)) : PanelM Unit :=
  values.forM fun (name, value) => do
    let _ ← PanelM.setFieldValue name (some value)

/-- The row of a field in the report. -/
def rowOf (f : FieldId) : PanelM FieldRow := do
  let value ← PanelM.value? f
  let field ← PanelM.field f
  return ⟨field.name, field.kind.name, value⟩

/-- Store values in a panel and read all its fields. -/
def fillPanel (values : List (String × String)) : PanelM (List FieldRow) := do
  storeValues values
  (← get).panel.table.ids.mapM rowOf

/-- Build a template on an empty page and fill it. -/
def renderTemplate (b : Builder) (name : String) (values : List (String × String)) :
    Except Failure Rendered :=
  let (_, pool) := CounterPool.empty.create
  match (b.build name).run.run ⟨.empty, pool⟩ with
  | (.error e, _) => .error (.build e)
  | (.ok none, _) => .error (.unknownTemplate name)
  | (.ok (some panel), w) =>
    match (fillPanel values).run.run ⟨panel, w.page, w.counters⟩ with
    | (.error e, _) => .error (.field e)
    | (.ok rows, s) => .ok ⟨name, s.page.innerMarkup s.panel.root, rows⟩

/-- What a builder has to report under given settings. -/
def reportOf (b : Builder) (s : Settings) : Except Failure Report :=
  if s.list then .ok (.templates b.templateNames)
  else match s.template <|> b.templateNames.head? with
    | none => .error (.noTemplate s.templates)
    | some name => (renderTemplate b name s.values).map .panel

/-! ## Reading files -/

/-- What a file delivers; a file that is not there is a resource that does not exist. -/
def FileRead.delivery : FileRead → Delivery
  | .text content => ⟨.response (.ok content), 0⟩
  | .missing => ⟨.response .notFound, 0⟩
  | .failed reason => ⟨.failed reason, 0⟩

variable {m : Type → Type} [Monad m]

/-- Read a configuration file. -/
def readConfig (files : FileAccess m) (path : String) : m (Except Failure FileSettings) := do
  match ← files.read path with
  | .text content =>
    match FileSettings.parse? content with
    | some settings => return .ok settings
    | none => return .error (.invalidConfig path)
  | _ => return .error (.unreadable path)

/-- Read the configuration file that was named, or the default one if it exists. -/
def findConfig (files : FileAccess m) (named : Option String) : m (Except Failure FileSettings) := do
  match named with
  | some path => readConfig files path
  | none =>
    match ← files.read defaultConfig with
    | .text _ => readConfig files defaultConfig
    | _ => return .ok .empty

/-- Load the messages and the templates that the settings name. -/
def loadBuilder (files : FileAccess m) (s : Settings) : m (Except Failure Builder) := do
  let resources := s.messages.toList ++ [s.templates]
  let deliveries ← resources.mapM fun url => return (url, FileRead.delivery (← files.read (pathOf url)))
  let transport : Transport := fun url => (deliveries.lookup url).getD ⟨.response .notFound, 0⟩
  let (series, _) := CounterPool.empty.create
  match (Builder.create (.builtin 0) series).load transport "" s.messages s.templates with
  | (.ok (), b) => return .ok b
  | (.error e, _) => return .error (.load e)

/-- Run the command with the words of its command line; the answer is what it prints. -/
def run (files : FileAccess m) (words : List String) : m (Except Failure String) := do
  match Arguments.parse words with
  | .error e => return .error (.usage e)
  | .ok a =>
    match ← findConfig files a.config with
    | .error e => return .error e
    | .ok file =>
      let s := Settings.merge (a.templates.getD "") a file
      match ← loadBuilder files s with
      | .error e => return .error e
      | .ok b => return (reportOf b s).map (Report.write s.output)

end Formwork.Command
