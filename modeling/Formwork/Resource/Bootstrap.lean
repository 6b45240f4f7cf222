import Formwork.Resource.Barrier
import Formwork.Template.Builder

/-!
# Filling a builder from resources

A builder is filled with messages and templates that are loaded together.  Each resource that
loads is installed, whatever becomes of the other: the messages replace those of the builder,
the templates are added to it.  Only then is a failure reported, and of two failures the one
that came first.
-/

namespace Formwork.Builder

set_option autoImplicit false

/-- Replace the messages by those of a loaded text. -/
def installMessages : Except LoadError String → Builder → Builder
  | .ok text, b => { b with messages := .parse text }
  | .error _, b => b

/-- Add the templates of a loaded document. -/
def installTemplates : Except LoadError Markup.Element → Builder → Builder
  | .ok root, b => (b.addTemplates root).2
  | .error _, b => b

/-- The load of the messages. -/
def messagesLoad (base path : String) : Registration Builder :=
  ⟨.withBase .text base path, some installMessages⟩

/-- The load of the templates. -/
def templatesLoad (base path : String) : Registration Builder :=
  ⟨.withBase .document base path, some installTemplates⟩

/-- The loads that fill a builder. -/
def bootstrapLoads (base : String) (messages : Option String) (templates : String) :
    List (Registration Builder) :=
  (messages.map (messagesLoad base)).toList ++ [templatesLoad base templates]

/-- The loaders that fill a builder, in their barrier. -/
def bootstrapEntries (base : String) (messages : Option String) (templates : String) :
    List (BarrierEntry Builder) := (bootstrapLoads base messages templates).map Registration.entry

/-- What is reported of an outcome: the failure that came first, if there is one. -/
def reported (o : Outcome) : Except LoadError Unit :=
  match o.failures with
  | [] => .ok ()
  | e :: _ => .error e

/-- Load messages, if asked for, and templates into a builder, by tasks that end in the ways and in
the order that are given. -/
def loadBy (b : Builder) (run : Runtime) (ends : Nat → TaskEnd Loaded) (base : String)
    (messages : Option String) (templates : String) : Except LoadError Unit × Builder :=
  let (outcome, b) := carryOut (bootstrapEntries base messages templates) run ends b
  (reported outcome, b)

/-- Load messages, if asked for, and templates into a builder. -/
def load (b : Builder) (transport : Transport) (base : String) (messages : Option String)
    (templates : String) : Except LoadError Unit × Builder :=
  let entries := bootstrapEntries base messages templates
  b.loadBy (Barrier.byDelay transport entries) (Barrier.answered transport entries) base messages templates

end Formwork.Builder
