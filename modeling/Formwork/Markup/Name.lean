/-!
# Names in markup

An element or attribute is written with a qualified name, `qualifier:local` or
`local` alone.  It is identified by a name URI: a namespace followed by the local
name.  A namespace that ends neither in `#` nor in `/` is separated from the local
name by a `#`, so that

    http://example.org/ns   and   input

make `http://example.org/ns#input`.  `split?` undoes this: it cuts a URI behind
its last `#`, or behind its last `/` when it has no `#`.
-/

namespace Formwork.Markup

set_option autoImplicit false

/-! ## Qualified names -/

/-- A name as written in a tag; without a qualifier it is the local name alone. -/
structure QName where
  qualifier : String
  localName : String
  deriving DecidableEq, Repr, Inhabited

/-- The written form of a qualified name. -/
def QName.text (n : QName) : String :=
  if n.qualifier = "" then n.localName else n.qualifier ++ ":" ++ n.localName

/-! ## Name URIs -/

namespace NameUri

/-- The namespace that the qualifier `xml` always stands for. -/
def xmlNamespace : String := "http://www.w3.org/XML/1998/namespace"

/-- The namespace of namespace declarations. -/
def declarationNamespace : String := "http://www.w3.org/2000/xmlns/"

/-- Whether a namespace already ends in a separator. -/
def endsInSeparator (cs : List Char) : Bool :=
  cs.getLast? == some '#' || cs.getLast? == some '/'

/-- The URI of a local name in a namespace; an empty namespace is no namespace. -/
def make (space : Option String) (localName : String) : String :=
  match space with
  | none => localName
  | some space =>
    if space = "" then localName
    else if endsInSeparator space.toList then space ++ localName
    else space ++ "#" ++ localName

/-- Cut a text at the last occurrence of a character, which belongs to neither part. -/
def cutAtLast (mark : Char) : List Char → Option (List Char × List Char)
  | [] => none
  | c :: cs =>
    match cutAtLast mark cs with
    | some (before, behind) => some (c :: before, behind)
    | none => if c = mark then some ([], cs) else none

/-- Namespace (with its separator) and local name of a URI, when it has a namespace. -/
def split? (uri : String) : Option (String × String) :=
  let cut := match cutAtLast '#' uri.toList with
    | some (before, behind) => some (before, '#', behind)
    | none => (cutAtLast '/' uri.toList).map fun (before, behind) => (before, '/', behind)
  match cut with
  | some (c :: before, mark, behind) =>
    some (String.ofList (c :: before ++ [mark]), String.ofList behind)
  | _ => none

/-- The namespace of a URI, its separator included. -/
def namespace? (uri : String) : Option String := (split? uri).map Prod.fst

/-- The local name of a URI. -/
def localName? (uri : String) : Option String := (split? uri).map Prod.snd

end NameUri

end Formwork.Markup
