namespace ClassSkeleton.Markup

/-!
# Elements

A document is a tree of elements and pieces of text. An element knows where its tag stands in
the source.
-/

structure Tag where
  name : String
  attributes : List (String × String)
  offset : Nat
  deriving DecidableEq, Repr

inductive Node where
  | text (s : String)
  | element (tag : Tag) (children : List Node)

structure Element where
  tag : Tag
  children : List Node

namespace Tag

/-- The value of an attribute; the first one counts. -/
def attr? (tag : Tag) (name : String) : Option String := tag.attributes.lookup name

end Tag

namespace Node

def text? : Node → Option String
  | text s => some s
  | element _ _ => none

def element? : Node → Option Element
  | text _ => none
  | element tag children => some ⟨tag, children⟩

mutual

/-- The elements of a name in the tree of a node, in document order. -/
def named (name : String) : Node → List Element
  | text _ => []
  | element tag children =>
    (if tag.name = name then [⟨tag, children⟩] else []) ++ allNamed name children

def allNamed (name : String) : List Node → List Element
  | [] => []
  | node :: rest => named name node ++ allNamed name rest

end

end Node

namespace Element

def name (e : Element) : String := e.tag.name

def attr? (e : Element) (name : String) : Option String := e.tag.attr? name

def elements (e : Element) : List Element := e.children.filterMap Node.element?

def childrenNamed (e : Element) (name : String) : List Element :=
  e.elements.filter (·.name = name)

def child? (e : Element) (name : String) : Option Element := e.elements.find? (·.name = name)

/-- The elements of a name below this one, in document order. -/
def descendantsNamed (e : Element) (name : String) : List Element :=
  Node.allNamed name e.children

/-- The text directly inside the element. -/
def text (e : Element) : String := String.join (e.children.filterMap Node.text?)

def toNode (e : Element) : Node := .element e.tag e.children

end Element

end ClassSkeleton.Markup
