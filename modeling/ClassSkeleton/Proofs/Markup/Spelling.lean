import ClassSkeleton.Markup.Tree

namespace ClassSkeleton.Markup

/-!
# The events that spell a tree

Nodes are spelled one after the other. An element is one event, or its two tags around the
events of its children. The stack of open elements takes what spells some nodes and adds just
these nodes to the innermost element.
-/

inductive Spells : List Node → List Event → Prop
  | nil : Spells [] []
  | text {s : String} {rest : List Node} {events : List Event} (tail : Spells rest events) :
      Spells (.text s :: rest) (.text s :: events)
  | data {s : String} {rest : List Node} {events : List Event} (tail : Spells rest events) :
      Spells (.text s :: rest) (.data s :: events)
  | single {tag : Tag} {rest : List Node} {events : List Event} (tail : Spells rest events) :
      Spells (.element tag [] :: rest) (.single tag :: events)
  | element {tag : Tag} {children rest : List Node} {inner events : List Event}
      (inside : Spells children inner) (tail : Spells rest events) :
      Spells (.element tag children :: rest) (.opened tag :: inner ++ .closed :: events)

theorem Spells.append {nodes others : List Node} {events more : List Event}
    (h : Spells nodes events) (hmore : Spells others more) :
    Spells (nodes ++ others) (events ++ more) := by
  induction h with
  | nil => exact hmore
  | text _ ih => exact .text ih
  | data _ ih => exact .data ih
  | single _ ih => exact .single ih
  | element inside _ _ ih =>
      rw [List.append_assoc, List.cons_append]
      exact .element inside ih

theorem Spells.cons_inv {node : Node} {nodes : List Node} {events : List Event}
    (h : Spells (node :: nodes) events) :
    ∃ first others, events = first ++ others ∧ Spells [node] first ∧ Spells nodes others := by
  cases h with
  | text tail => exact ⟨_, _, rfl, .text .nil, tail⟩
  | data tail => exact ⟨_, _, rfl, .data .nil, tail⟩
  | single tail => exact ⟨_, _, rfl, .single .nil, tail⟩
  | element inside tail => exact ⟨_, _, List.append_cons _ _ _, .element inside .nil, tail⟩

namespace Progress

@[simp] theorem run_nil (p : Progress) : p.run [] = .ok p := rfl

theorem run_cons (p : Progress) (event : Event) (events : List Event) :
    p.run (event :: events) = (p.step event).bind fun q => q.run events := rfl

theorem run_append (p : Progress) (events more : List Event) :
    p.run (events ++ more) = (p.run events).bind fun q => q.run more :=
  List.foldlM_append

/-- The events of some nodes give the innermost element these nodes as further children. -/
theorem run_of_spells {nodes : List Node} {events : List Event} (h : Spells nodes events)
    (tag : Tag) (children : List Node) (outer : List OpenElement) (root : Option Element) :
    run ⟨⟨tag, children⟩ :: outer, root⟩ events =
      .ok ⟨⟨tag, nodes.reverse ++ children⟩ :: outer, root⟩ := by
  induction h generalizing tag children outer with
  | nil => rfl
  | text _ ih => simp [run_cons, step, addText, Except.bind, ih]
  | data _ ih => simp [run_cons, step, addText, Except.bind, ih]
  | single _ ih => simp [run_cons, step, addElement, Element.toNode, Except.bind, ih]
  | element _ _ ihInside ihTail =>
      rw [List.cons_append, run_cons]
      simp [step, Except.bind, run_append, ihInside, run_cons, addElement, Element.toNode, ihTail]

theorem run_start_of_spells {e : Element} {events : List Event}
    (h : Spells [e.toNode] events) : start.run events = .ok ⟨[], some e⟩ := by
  obtain ⟨tag, children⟩ := e
  rcases h with _ | _ | _ | ⟨⟨⟩⟩ | ⟨inside, ⟨⟩⟩
  · rfl
  · rw [List.cons_append, run_cons]
    simp [start, step, Except.bind, run_append, run_of_spells inside, run_cons, addElement]

end Progress

/-- A tree is read from events that spell it and no fault ends. -/
theorem tree_of_spells {e : Element} {events : List Event} (h : Spells [e.toNode] events) :
    Events.tree ⟨events, none⟩ = .ok e := by
  rw [Events.tree, Progress.run_start_of_spells h]
  rfl

end ClassSkeleton.Markup
