import ClassSkeleton.Markup.Event

namespace ClassSkeleton.Markup

/-!
# Trees from events

The events are taken one by one onto a stack of open elements. Text outside the root is
dropped. A document has one root, and its elements are all closed.
-/

/-- An element whose end has not come yet, its children in reverse order. -/
structure OpenElement where
  tag : Tag
  children : List Node

structure Progress where
  stack : List OpenElement
  root : Option Element

inductive TreeError where
  | secondRoot (tag : Tag)
  | unclosed (tag : Tag)
  | noRoot
  | markup (fault : Fault)
  deriving DecidableEq, Repr

namespace Progress

def start : Progress := ⟨[], none⟩

/-- Adds text to the innermost open element. -/
def addText (p : Progress) (s : String) : Progress :=
  match p.stack with
  | [] => p
  | parent :: outer => { p with stack := ⟨parent.tag, .text s :: parent.children⟩ :: outer }

/-- Adds a complete element to the innermost open one, or makes it the root. -/
def addElement (p : Progress) (e : Element) : Except TreeError Progress :=
  match p.stack with
  | parent :: outer =>
    .ok { p with stack := ⟨parent.tag, e.toNode :: parent.children⟩ :: outer }
  | [] => if p.root.isSome then .error (.secondRoot e.tag) else .ok { p with root := some e }

def step (p : Progress) (event : Event) : Except TreeError Progress :=
  match event with
  | .opened tag => .ok { p with stack := ⟨tag, []⟩ :: p.stack }
  | .single tag => p.addElement ⟨tag, []⟩
  | .closed =>
    match p.stack with
    | [] => .ok p
    | inner :: outer => { p with stack := outer }.addElement ⟨inner.tag, inner.children.reverse⟩
  | .text s => .ok (p.addText s)
  | .data s => .ok (p.addText s)
  | .skipped => .ok p

def run (p : Progress) (events : List Event) : Except TreeError Progress := events.foldlM step p

/-- The root, once every event has been taken. -/
def finish (p : Progress) : Except TreeError Element :=
  match p.stack, p.root with
  | inner :: _, _ => .error (.unclosed inner.tag)
  | [], none => .error .noRoot
  | [], some root => .ok root

end Progress

/-- The tree that events spell. A fault that ended them comes after what they do themselves. -/
def Events.tree (events : Events) : Except TreeError Element := do
  let p ← Progress.start.run events.events
  match events.fault with
  | some fault => .error (.markup fault)
  | none => p.finish

def parse (source : String) : Except TreeError Element := (events source).tree

end ClassSkeleton.Markup
