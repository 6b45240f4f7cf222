import Formwork.Resource.Response
import Formwork.Markup.Parse

/-!
# Loading

A loader fetches one URL and turns the response into a value: the response itself, its text,
or the root of the document in it.  Text and documents need a response that holds what was
asked for.  Converting a response can also break off without any result.
-/

namespace Formwork

set_option autoImplicit false

/-- Why a resource could not be loaded. -/
inductive LoadError where
  /-- The fetch failed. -/
  | transport (url reason : String)
  /-- The response does not hold what was asked for. -/
  | status (url : String) (response : Response)
  /-- The response is not a document. -/
  | document (url : String) (response : Response) (error : Markup.Error)
  /-- Loading broke off. -/
  | brokenOff (url : String)
  deriving DecidableEq, Repr

namespace LoadError

/-- The name of the kind of an error. -/
def kind : LoadError → String
  | .transport _ _ => "transport"
  | .status _ _ => "status"
  | .document _ _ _ => "xml"
  | .brokenOff _ => "task"

/-- The URL that was to be loaded. -/
def url : LoadError → String
  | .transport url _ | .status url _ | .document url _ _ | .brokenOff url => url

/-- The response that arrived before the failure, if one did. -/
def response? : LoadError → Option Response
  | .status _ response | .document _ response _ => some response
  | _ => none

/-- An error in words; what broke off gives no reason. -/
def message? : LoadError → Option String
  | .transport url reason => some s!"failed to fetch {url}: {reason}"
  | .status url response => some s!"{url} answered with status {response.status}"
  | .document url _ e => some (url ++ " is not a valid XML document: " ++ e.text)
  | .brokenOff _ => none

end LoadError

/-- What a loader makes of a response, whatever kind of value it is. -/
inductive Loaded where
  | response (response : Response)
  | text (text : String)
  | document (root : Markup.Element)

/-- What kind of value a loader makes. -/
inductive LoadKind where
  | raw
  | text
  | document
  /-- A loader that breaks off on every response. -/
  | broken
  deriving DecidableEq, Repr

/-- How the task of a loader ends: with a result, or broken off without any. -/
inductive TaskEnd (α : Type) where
  | finished (result : Except LoadError α)
  | brokenOff

/-- The same end with another value. -/
def TaskEnd.map {α β : Type} (g : α → β) : TaskEnd α → TaskEnd β
  | .finished result => .finished (result.map g)
  | .brokenOff => .brokenOff

/-- What is known of the result when a task for a URL has ended. -/
def TaskEnd.result {α : Type} (url : String) : TaskEnd α → Except LoadError α
  | .finished result => result
  | .brokenOff => .error (.brokenOff url)

namespace LoadKind

/-- The values that a loader of some kind makes. -/
abbrev Output : LoadKind → Type
  | .raw => Response
  | .text => String
  | .document => Markup.Element
  | .broken => Empty

/-- A value among those of all kinds. -/
def box : (k : LoadKind) → k.Output → Loaded
  | .raw, response => .response response
  | .text, content => .text content
  | .document, root => .document root
  | .broken, value => value.elim

/-- What is made of the response for a URL. -/
def convert (url : String) (response : Response) : (k : LoadKind) → TaskEnd k.Output
  | .raw => .finished (.ok response)
  | .broken => .brokenOff
  | .text => .finished <|
    if response.isOk then .ok response.text else .error (.status url response)
  | .document => .finished <|
    if response.isOk then (Markup.parseDocument response.text).mapError (.document url response)
    else .error (.status url response)

/-- What is made of the answer for a URL. -/
def load (url : String) (k : LoadKind) : Answer → TaskEnd k.Output
  | .response response => k.convert url response
  | .failed reason => .finished (.error (.transport url reason))
  | .brokenOff => .brokenOff

end LoadKind

/-- The value as one of a kind, if it is one. -/
def Loaded.ofKind? : (k : LoadKind) → Loaded → Option k.Output
  | .raw, .response r => some r
  | .text, .text content => some content
  | .document, .document root => some root
  | _, _ => none

/-- A URL and what to make of it. -/
structure Loader where
  kind : LoadKind
  url : String
  deriving DecidableEq, Repr

namespace Loader

/-- A loader for a path below a base. -/
def withBase (kind : LoadKind) (base path : String) : Loader := ⟨kind, base ++ path⟩

/-- How the task of a loader ends when the fetch has come to an answer. -/
def load (l : Loader) (answer : Answer) : TaskEnd Loaded := (l.kind.load l.url answer).map l.kind.box

end Loader

end Formwork
