/-!
# The reserved vocabulary

Template elements and the attributes that steer them live in a namespace of their own.
This module names that namespace, the keys of the attributes with a meaning, and the two
element names that are treated specially.
-/

namespace Formwork.Vocabulary

set_option autoImplicit false

/-- The namespace of template elements and of reserved attributes. -/
def templateNamespace : String := "http://www.adnotatio.org/ns/templates#"

/-- The namespace whose attributes are passed to widgets by their local names. -/
def widgetNamespace : String := "http://www.w3.org/1999/xhtml/"

/-- The reserved URI of a local name. -/
def reserved (localName : String) : String := templateNamespace ++ localName

/-- Whether a URI lies in the reserved namespace. -/
def isReserved (uri : String) : Bool := templateNamespace.toList.isPrefixOf uri.toList

/-! ## Keys of attributes -/

/-- The URI of the element a field was made from; filled in when a template is compiled. -/
def tagKey : String := reserved "tag"

/-- The name of a field. -/
def nameKey : String := reserved "name"

/-- The default value of a field. -/
def valueKey : String := reserved "value"

/-- A literal label. -/
def labelKey : String := reserved "label"

/-- The message that gives a localized label. -/
def labelMessageKey : String := reserved "labelKey"

/-- The title, used when there is no other label. -/
def titleKey : String := reserved "title"

/-- The field that a clear button clears. -/
def targetKey : String := reserved "for"

/-- Whether a checkbox or a radio button is checked at first. -/
def checkedKey : String := reserved "checked"

/-- Whether a disclosure is open at first. -/
def openKey : String := reserved "open"

/-- The style class of a header. -/
def switchKey : String := reserved "switch"

/-- Whether a page is selected when it is added to a tab container. -/
def selectedKey : String := reserved "selected"

/-- Whether a link stands in the line. -/
def inlineKey : String := reserved "inline"

/-- The target of a link. -/
def tokenKey : String := reserved "token"

/-- Whether a clear button clears the descendants of its target as well. -/
def childrenKey : String := reserved "children"

/-- The template that a view shows. -/
def templateKey : String := reserved "template"

/-! ## Elements -/

/-- The element that holds a template. -/
def templateTag : String := reserved "template"

/-- The element that heads a disclosure. -/
def headerTag : String := reserved "header"

end Formwork.Vocabulary
