import Formwork.Markup.Lexer
import Formwork.Markup.Error
import Formwork.Markup.Reference
import Formwork.Markup.Tree
import Formwork.Text.Blank

/-!
# From tokens to trees

A reader takes the tokens of a source one by one and keeps what is open: the start
tag being read, the elements it lies in, innermost first, and the finished nodes
outside all elements.  In a document every name is resolved by the namespace
declarations in scope, which are those of the start tag itself and of the elements
around it; in a fragment a name identifies itself.  The declarations in scope are kept
in one list, and an element that ends takes as many from its front as it has put there.

The first error wins, whether it is one of the tokens or one of the tree, because
the reader sees a token before the lexer looks for the next.
-/

namespace Formwork.Markup

set_option autoImplicit false

/-! ## Scopes of namespaces -/

/-- Declared qualifiers with their namespaces, the one that counts first in front. -/
abbrev Scope := List (String × String)

/-- What an attribute declares: the qualifier, or the empty one for the default namespace. -/
def declaredQualifier? (name : QName) : Option String :=
  if name.qualifier = "" ∧ name.localName = "xmlns" then some ""
  else if name.qualifier = "xmlns" then some name.localName
  else none

/-- The declarations of a start tag, the last one in front. -/
def declarationsOf (attributes : List (QName × String)) : Scope :=
  (attributes.filterMap fun (name, value) =>
    (declaredQualifier? name).map fun qualifier => (qualifier, value)).reverse

/-- The namespace a qualifier stands for; an error when nothing declares it.  The empty qualifier
needs no declaration, and an empty namespace is none. -/
def Scope.resolve (scope : Scope) (qualifier : String) : Except ErrorCause (Option String) :=
  if qualifier = "xml" then .ok (some NameUri.xmlNamespace)
  else match scope.lookup qualifier with
    | some "" => .ok none
    | some space => .ok (some space)
    | none => if qualifier = "" then .ok none else .error (.unbound qualifier)

/-- The URI of an element's name. -/
def Scope.elementUri (scope : Scope) (name : QName) : Except ErrorCause String :=
  (scope.resolve name.qualifier).map fun space => NameUri.make space name.localName

/-- The URI of an attribute's name: the default namespace does not apply to attributes. -/
def Scope.attributeUri (scope : Scope) (name : QName) : Except ErrorCause String :=
  if (declaredQualifier? name).isSome then
    .ok (NameUri.make (some NameUri.declarationNamespace) name.localName)
  else if name.qualifier = "" then .ok name.localName
  else scope.elementUri name

/-- Whether a source is a document, whose names are resolved, or a fragment. -/
inductive Form where
  | document
  | fragment
  deriving DecidableEq, Repr

/-- The tag that a start tag with these names makes in a scope. -/
def Scope.tag (scope : Scope) (form : Form) (name : QName) (attributes : List (QName × String)) :
    Except ErrorCause Tag :=
  match form with
  | .fragment =>
    .ok ⟨name.text, name.text, attributes.map fun (n, value) => .plain n.text value⟩
  | .document => do
    let uri ← scope.elementUri name
    let resolved ← attributes.mapM fun (n, value) => do
      return ⟨← scope.attributeUri n, n.text, value⟩
    return ⟨uri, name.text, resolved⟩

/-! ## The reader -/

/-- A start tag whose end has not been seen, with its attributes so far. -/
structure OpenTag where
  name : QName
  mark : Mark
  attributes : List (QName × String)

/-- An element whose end tag has not been seen: its content so far, and how many declarations it
has put into the scope. -/
structure OpenElement where
  element : Element
  declared : Nat

/-- What has been read of a source, and the declarations in scope. -/
structure Reader where
  tag : Option OpenTag
  elements : List OpenElement
  scope : Scope
  roots : List Node

namespace Reader

/-- Nothing has been read. -/
def initial : Reader := ⟨none, [], [], []⟩

/-- Add a finished node to the innermost open element, or to the roots. -/
def addNode (r : Reader) (n : Node) : Reader :=
  match r.elements with
  | [] => { r with roots := Node.push r.roots n }
  | e :: es => { r with elements := { e with element := e.element.pushChild n } :: es }

/-- Add text; outside the root of a document blank text is dropped. -/
def addText (form : Form) (r : Reader) (content : List Char) : Reader :=
  if content.isEmpty then r
  else if r.elements.isEmpty ∧ form = .document ∧ Text.allBlank content then r
  else r.addNode (.text (String.ofList content))

/-- Leave an element: its declarations go out of scope, and it joins the nodes around it. -/
def leave (r : Reader) (e : OpenElement) : Reader :=
  { r with scope := r.scope.drop e.declared }.addNode e.element.toNode

/-- Finish the start tag being read: its element opens, and an empty one is left at once. -/
def endTagStart (form : Form) (r : Reader) (isEmpty : Bool) : Except (ErrorCause × Mark) Reader :=
  match r.tag with
  | none => .error (.endWithoutStart, 0)
  | some t => do
    let declared := match form with
      | .document => declarationsOf t.attributes
      | .fragment => []
    let scope := declared ++ r.scope
    let tag ← (scope.tag form t.name t.attributes).mapError (·, t.mark)
    let opened : OpenElement := ⟨{ tag with children := [] }, declared.length⟩
    if isEmpty then return { r with tag := none, scope := scope }.leave opened
    else return { r with tag := none, scope := scope, elements := opened :: r.elements }

/-- Close the innermost open element by an end tag of the same name. -/
def close (r : Reader) (name : QName) (mark : Mark) : Except (ErrorCause × Mark) Reader :=
  match r.elements with
  | [] => .error (.unexpectedEndTag name.text, mark)
  | e :: es =>
    if e.element.qname = name.text then .ok ({ r with elements := es }.leave e)
    else .error (.mismatched e.element.qname name.text, mark)

/-- Decode a value whose first character has the given mark. -/
def decode (raw : List Char) (mark : Mark) : Except (ErrorCause × Mark) (List Char) :=
  (Reference.decode raw).mapError fun fault =>
    (.badReference fault.name, mark - (raw.length - fault.unread))

/-- Take one token in. -/
def take (form : Form) (r : Reader) : Token → Except (ErrorCause × Mark) Reader
  | .startTag name mark => .ok { r with tag := some ⟨name, mark, []⟩ }
  | .attr name value mark => do
    let value ← decode value mark
    return { r with tag := r.tag.map fun t =>
      { t with attributes := t.attributes ++ [(name, String.ofList value)] } }
  | .tagEnd isEmpty => r.endTagStart form isEmpty
  | .endTag name mark => r.close name mark
  | .characters raw mark => return r.addText form (← decode raw mark)
  | .cdata content => .ok (r.addText form content)
  | .aside => .ok r

/-- Take tokens in until one is refused. -/
def takeAll (form : Form) : Reader → List Token → Except (ErrorCause × Mark) Reader
  | r, [] => .ok r
  | r, t :: ts => do takeAll form (← r.take form t) ts

/-- Whether everything that was opened is closed. -/
def finish (r : Reader) : Except (ErrorCause × Mark) (List Node) :=
  match r.elements with
  | [] => .ok r.roots
  | e :: _ => .error (.unclosed e.element.qname, 0)

end Reader

/-! ## Whole sources -/

/-- The nodes that a stream of tokens makes.  A fault of the stream counts only when every token
before it was accepted. -/
def nodesOfTokens (form : Form) (source : List Char) (stream : TokenStream) :
    Except Error (List Node) :=
  let place := Position.ofUnread source
  match Reader.takeAll form .initial stream.tokens with
  | .error (.endWithoutStart, _) => .error ⟨.endWithoutStart, .start⟩
  | .error (cause, mark) => .error ⟨cause, place mark⟩
  | .ok r =>
    match stream.fault with
    | some fault =>
      let fault := fault.map place
      .error ⟨.fault fault, fault.place⟩
    | none => r.finish.mapError fun (cause, mark) => ⟨cause, place mark⟩

/-- Read a fragment: any number of nodes, in which names identify themselves. -/
def parseFragment (source : String) : Except Error (List Node) :=
  let cs := source.toList
  nodesOfTokens .fragment cs (fragmentTokens cs)

/-- Read a document: its root, in which all names are resolved. -/
def parseDocument (source : String) : Except Error Element := do
  let cs := source.toList
  let roots ← nodesOfTokens .document cs (documentTokens cs)
  match roots.findSome? Node.element? with
  | some root => return root
  | none => throw ⟨.noRoot, Position.after cs⟩

end Formwork.Markup
