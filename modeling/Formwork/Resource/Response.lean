import Formwork.OrderedMap

/-!
# Fetching

A resource is fetched by its URL.  A fetch that reaches something is answered by a response,
which has a status; a resource that does not exist is a response with status 404.  A fetch
can also fail without any response, or break off without any answer.  How long an answer takes
is part of it, for the order in which answers arrive matters to those who wait for several.
-/

namespace Formwork

set_option autoImplicit false

/-- The answer to a fetch. -/
structure Response where
  status : Nat
  text : String
  deriving DecidableEq, Repr, Inhabited

namespace Response

/-- An answer that holds what was asked for. -/
def ok (text : String) : Response := ⟨200, text⟩

/-- The answer for what does not exist. -/
def notFound : Response := ⟨404, ""⟩

/-- Whether an answer holds what was asked for. -/
def isOk (r : Response) : Bool := r.status == 200

end Response

/-- What comes of a fetch. -/
inductive Answer where
  | response (response : Response)
  /-- There is no response, for a reason. -/
  | failed (reason : String)
  /-- The fetch broke off. -/
  | brokenOff
  deriving DecidableEq, Repr

/-- What comes of a fetch, and after which time. -/
structure Delivery where
  answer : Answer
  delay : Nat

/-- Fetches the resource of a URL. -/
abbrev Transport := String → Delivery

/-- Prepared answers by URL. -/
structure Catalogue where
  responses : OrderedMap String (Response × Nat)
  failures : OrderedMap String String

namespace Catalogue

/-- The catalogue without answers. -/
def empty : Catalogue := ⟨.empty, .empty⟩

/-- Prepare a response that takes some time. -/
def respond (c : Catalogue) (url : String) (response : Response) (delay : Nat) : Catalogue :=
  { c with responses := c.responses.insert url (response, delay) }

/-- Prepare a fetch that fails at once, whatever else is prepared for the URL. -/
def refuse (c : Catalogue) (url reason : String) : Catalogue :=
  { c with failures := c.failures.insert url reason }

/-- Fetch from a catalogue; what is not prepared does not exist. -/
def transport (c : Catalogue) : Transport := fun url =>
  match c.failures.get? url with
  | some reason => ⟨.failed reason, 0⟩
  | none =>
    match c.responses.get? url with
    | some (response, delay) => ⟨.response response, delay⟩
    | none => ⟨.response .notFound, 0⟩

end Catalogue

end Formwork
