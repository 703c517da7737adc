import ClassSkeleton.Document
import ClassSkeleton.Proofs.Markup.Spelling

namespace ClassSkeleton.Markup

/-!
# Trees and the events that spell them

The stack of open elements stands for the events taken so far: the root that is complete, and for
each open element its tag and the events of the children it has. So a document has a tree exactly
if its events spell one, and each of the other ways in which they can end has its own error.
-/

namespace Event

/-- The number of open elements behind an event. -/
def depthBehind (event : Event) (depth : Nat) : Nat :=
  match event with
  | opened _ => depth + 1
  | closed => depth - 1
  | _ => depth

/-- Whether an event inside `depth` elements belongs to the tree. Text outside of every element
does not. -/
def carries (event : Event) (depth : Nat) : Bool :=
  match event with
  | skipped => false
  | text _ | data _ => depth ≠ 0
  | _ => true

theorem length_openNames (event : Event) (names : List String) :
    (event.openNames names).length = event.depthBehind names.length := by
  cases event <;> simp [openNames, depthBehind]

end Event

/-- The events inside `depth` elements that belong to the tree. -/
def content (depth : Nat) : List Event → List Event
  | [] => []
  | event :: rest =>
    if event.carries depth then event :: content (event.depthBehind depth) rest
    else content (event.depthBehind depth) rest

/-- Whether every end inside `depth` elements closes one of them or one that has been opened
since. -/
def Nested (depth : Nat) : List Event → Prop
  | [] => True
  | event :: rest => (event = .closed → depth ≠ 0) ∧ Nested (event.depthBehind depth) rest

section Reader

theorem event_ne_closed_of_readBang {text : List Char} {piece : Piece}
    (h : readBang text = .ok piece) : piece.event ≠ .closed := by
  unfold readBang at h
  split at h
  · split at h
    · cases h
    · split at h
      · obtain rfl := Except.ok.inj h
        nofun
      · cases h
  · split at h
    · cases h
    · split at h
      · obtain rfl := Except.ok.inj h
        nofun
      · cases h
  · cases h
  · split at h
    · split at h
      · cases h
      · split at h
        · cases h
        · split at h
          · cases h
          · obtain rfl := Except.ok.inj h
            nofun
    · cases h
  · cases h

theorem event_ne_closed_of_readInstruction {text : List Char} {piece : Piece}
    (h : readInstruction text = .ok piece) : piece.event ≠ .closed := by
  unfold readInstruction at h
  split at h
  · cases h
  · split at h
    · cases h
    · obtain rfl := Except.ok.inj h
      nofun

theorem event_ne_closed_of_readOpened {locate : Nat → Nat} {offset : Nat} {text : List Char}
    {piece : Piece} (h : readOpened locate offset text = .ok piece) : piece.event ≠ .closed := by
  unfold readOpened at h
  split at h
  · cases h
  · obtain ⟨event, hevent, rfl⟩ := exists_of_map_eq_ok h
    unfold openedEvent at hevent
    split at hevent
    · obtain ⟨tag, -, rfl⟩ := exists_of_map_eq_ok hevent
      nofun
    · obtain ⟨tag, -, rfl⟩ := exists_of_map_eq_ok hevent
      nofun

/-- An end tag is only read inside an element. -/
theorem ne_nil_of_readPiece {locate : Nat → Nat} {names : List String} {offset : Nat} {c : Char}
    {rest : List Char} {piece : Piece} (h : readPiece locate names offset c rest = .ok piece)
    (hclosed : piece.event = .closed) : names ≠ [] := by
  unfold readPiece at h
  split at h
  · split at h
    · cases h
    · exact absurd hclosed (event_ne_closed_of_readBang h)
    · exact absurd hclosed (event_ne_closed_of_readInstruction h)
    · rintro rfl
      unfold readClosed at h
      split at h <;> cases h
    · exact absurd hclosed (event_ne_closed_of_readOpened h)
  · obtain ⟨s, -, rfl⟩ := exists_of_map_eq_ok h
    cases hclosed

theorem nested_readEvents (locate : Nat → Nat) (names : List String) (offset : Nat)
    (text : List Char) : Nested names.length (readEvents locate names offset text).events := by
  fun_induction readEvents locate names offset text with
  | case1 => trivial
  | case2 => trivial
  | case3 names offset c rest piece hpiece more ih =>
      rw [Event.length_openNames] at ih
      refine ⟨fun hclosed => ?_, ih⟩
      have hnames := ne_nil_of_readPiece hpiece hclosed
      exact mt List.length_eq_zero_iff.mp hnames

theorem nested_events (source : String) : Nested 0 (events source).events :=
  nested_readEvents _ [] 0 _

end Reader

namespace Progress

theorem addElement_eq_ok {p q : Progress} {e : Element} (h : p.addElement e = .ok q) :
    q.stack.length = p.stack.length := by
  unfold addElement at h
  split at h
  · next hstack =>
      obtain rfl := Except.ok.inj h
      simp [hstack]
  · split at h
    · cases h
    · obtain rfl := Except.ok.inj h
      rfl

theorem length_stack_of_step {p q : Progress} {event : Event} (h : p.step event = .ok q) :
    q.stack.length = event.depthBehind p.stack.length := by
  cases event with
  | opened tag =>
      obtain rfl := Except.ok.inj h
      rfl
  | single tag => exact addElement_eq_ok h
  | closed =>
      simp only [step] at h
      split at h
      · next hstack =>
          obtain rfl := Except.ok.inj h
          simp [Event.depthBehind, hstack]
      · next hstack => simp [addElement_eq_ok h, Event.depthBehind, hstack]
  | text s | data s =>
      obtain rfl := Except.ok.inj h
      unfold addText
      split
      · next hstack => simp [Event.depthBehind, hstack]
      · next hstack => simp [Event.depthBehind, hstack]
  | skipped =>
      obtain rfl := Except.ok.inj h
      rfl

theorem step_of_not_carries {p : Progress} {event : Event}
    (h : event.carries p.stack.length = false) : p.step event = .ok p := by
  cases event with
  | text s | data s =>
      have hstack : p.stack = [] := by simpa [Event.carries] using h
      simp [step, addText, hstack]
  | skipped => rfl
  | _ => cases h

/-- Events that do not belong to the tree do nothing to it. -/
theorem run_content (p : Progress) (events : List Event) :
    p.run (content p.stack.length events) = p.run events := by
  induction events generalizing p with
  | nil => rfl
  | cons event events ih =>
      unfold content
      split
      · rw [run_cons, run_cons]
        cases hstep : p.step event with
        | error e => rfl
        | ok q =>
            rw [← length_stack_of_step hstep]
            exact ih q
      · next hnot =>
          have hstep := step_of_not_carries (Bool.eq_false_iff.mpr hnot)
          rw [← length_stack_of_step hstep, ih, run_cons, hstep]
          rfl

end Progress

/-- What the open elements and the root have been made from. -/
def Reflects : List OpenElement → Option Element → List Event → Prop
  | [], root, done => Spells (root.toList.map Element.toNode) done
  | inner :: outer, root, done => ∃ before inside, done = before ++ .opened inner.tag :: inside ∧
      Spells inner.children.reverse inside ∧ Reflects outer root before

/-- Whether some events begin with two whole elements, the second one with this tag. -/
def HasSecond (events : List Event) (tag : Tag) : Prop :=
  ∃ (first second : Element) (before more : List Event), events = before ++ more ∧
    Spells [first.toNode, second.toNode] before ∧ second.tag = tag

/-- Whether some events end inside an element with this tag and inside none that it holds. -/
def EndsInside (events : List Event) (tag : Tag) : Prop :=
  ∃ before nodes inside, events = before ++ .opened tag :: inside ∧ Spells nodes inside

theorem HasSecond.append {events : List Event} {tag : Tag} (h : HasSecond events tag)
    (more : List Event) : HasSecond (events ++ more) tag := by
  obtain ⟨first, second, before, behind, rfl, hspells, htag⟩ := h
  exact ⟨first, second, before, behind ++ more, List.append_assoc _ _ _, hspells, htag⟩

theorem Reflects.addNode {parent : OpenElement} {outer : List OpenElement}
    {root : Option Element} {done events : List Event} {node : Node}
    (h : Reflects (parent :: outer) root done) (hnode : Spells [node] events) :
    Reflects (⟨parent.tag, node :: parent.children⟩ :: outer) root (done ++ events) := by
  obtain ⟨before, inside, rfl, hinside, houter⟩ := h
  refine ⟨before, inside ++ events, by simp, ?_, houter⟩
  rw [List.reverse_cons]
  exact hinside.append hnode

theorem spells_element {e : Element} {inside : List Event} (h : Spells e.children inside) :
    Spells [e.toNode] (.opened e.tag :: inside ++ [.closed]) := .element h .nil

theorem spells_single (tag : Tag) : Spells [Element.toNode ⟨tag, []⟩] [.single tag] := .single .nil

namespace Progress

variable {p q : Progress} {done : List Event}

theorem reflects_addElement (h : Reflects p.stack p.root done) {e : Element} {events : List Event}
    (he : Spells [e.toNode] events) (hq : p.addElement e = .ok q) :
    Reflects q.stack q.root (done ++ events) := by
  obtain ⟨stack, root⟩ := p
  cases stack with
  | cons parent outer =>
      obtain rfl := Except.ok.inj hq
      exact h.addNode he
  | nil =>
      cases root with
      | some first => cases hq
      | none =>
          obtain rfl := Except.ok.inj hq
          exact Spells.append h he

theorem hasSecond_of_addElement (h : Reflects p.stack p.root done) {e : Element}
    {events : List Event} (he : Spells [e.toNode] events) {error : TreeError}
    (herror : p.addElement e = .error error) :
    ∃ tag, error = .secondRoot tag ∧ HasSecond (done ++ events) tag := by
  obtain ⟨stack, root⟩ := p
  cases stack with
  | cons parent outer => cases herror
  | nil =>
      cases root with
      | none => cases herror
      | some first =>
          obtain rfl := Except.error.inj herror
          have hboth : Spells ([first.toNode] ++ [e.toNode]) (done ++ events) := Spells.append h he
          exact ⟨e.tag, rfl, first, e, done ++ events, [], (List.append_nil _).symm, hboth, rfl⟩

/-- The events that an event adds to those of the tree. -/
def added (p : Progress) (event : Event) : List Event :=
  if event.carries p.stack.length then [event] else []

theorem reflects_step (h : Reflects p.stack p.root done) {event : Event}
    (hnested : event = .closed → p.stack.length ≠ 0) (hq : p.step event = .ok q) :
    Reflects q.stack q.root (done ++ p.added event) := by
  obtain ⟨stack, root⟩ := p
  cases event with
  | opened tag =>
      obtain rfl := Except.ok.inj hq
      exact ⟨done, [], rfl, .nil, h⟩
  | single tag => exact reflects_addElement h (spells_single tag) hq
  | closed =>
      cases stack with
      | nil => exact absurd rfl (hnested rfl)
      | cons inner outer =>
          obtain ⟨before, inside, rfl, hinside, houter⟩ := h
          have hall := reflects_addElement houter (spells_element hinside) hq
          simpa [added, Event.carries] using hall
  | text s =>
      obtain rfl := Except.ok.inj hq
      cases stack with
      | nil => simpa [added, Event.carries, addText] using h
      | cons parent outer => exact h.addNode (.text .nil)
  | data s =>
      obtain rfl := Except.ok.inj hq
      cases stack with
      | nil => simpa [added, Event.carries, addText] using h
      | cons parent outer => exact h.addNode (.data .nil)
  | skipped =>
      obtain rfl := Except.ok.inj hq
      simpa [added, Event.carries] using h

theorem hasSecond_of_step (h : Reflects p.stack p.root done) {event : Event} {error : TreeError}
    (herror : p.step event = .error error) :
    ∃ tag, error = .secondRoot tag ∧ HasSecond (done ++ p.added event) tag := by
  obtain ⟨stack, root⟩ := p
  cases event with
  | single tag => exact hasSecond_of_addElement h (spells_single tag) herror
  | closed =>
      cases stack with
      | nil => cases herror
      | cons inner outer =>
          obtain ⟨before, inside, rfl, hinside, houter⟩ := h
          have hall := hasSecond_of_addElement houter (spells_element hinside) herror
          simpa [added, Event.carries] using hall
  | _ => cases herror

theorem content_cons (event : Event) (events : List Event) :
    content p.stack.length (event :: events) =
      p.added event ++ content (event.depthBehind p.stack.length) events := by
  rw [content, added]
  split <;> rfl

theorem reflects_run (h : Reflects p.stack p.root done) {events : List Event}
    (hnested : Nested p.stack.length events) (hq : p.run events = .ok q) :
    Reflects q.stack q.root (done ++ content p.stack.length events) := by
  induction events generalizing p done with
  | nil =>
      obtain rfl := Except.ok.inj hq
      simpa [content] using h
  | cons event events ih =>
      rw [run_cons] at hq
      cases hstep : p.step event with
      | error e => simp [hstep, Except.bind] at hq
      | ok r =>
          rw [hstep] at hq
          have hdepth := length_stack_of_step hstep
          have hr := ih (reflects_step h hnested.1 hstep) (hdepth ▸ hnested.2) hq
          rw [content_cons, ← hdepth, ← List.append_assoc]
          exact hr

theorem hasSecond_of_run (h : Reflects p.stack p.root done) {events : List Event}
    (hnested : Nested p.stack.length events) {error : TreeError}
    (herror : p.run events = .error error) :
    ∃ tag, error = .secondRoot tag ∧ HasSecond (done ++ content p.stack.length events) tag := by
  induction events generalizing p done with
  | nil => cases herror
  | cons event events ih =>
      rw [run_cons] at herror
      rw [content_cons, ← List.append_assoc]
      cases hstep : p.step event with
      | error e =>
          rw [hstep] at herror
          obtain rfl := Except.error.inj herror
          obtain ⟨tag, rfl, hsecond⟩ := hasSecond_of_step h hstep
          exact ⟨tag, rfl, hsecond.append _⟩
      | ok r =>
          rw [hstep] at herror
          have hdepth := length_stack_of_step hstep
          have hr := ih (reflects_step h hnested.1 hstep) (hdepth ▸ hnested.2) herror
          rwa [hdepth] at hr

theorem run_start_of_hasSecond {events : List Event} {tag : Tag} (h : HasSecond events tag) :
    start.run events = .error (.secondRoot tag) := by
  obtain ⟨first, second, before, more, rfl, hspells, rfl⟩ := h
  obtain ⟨events, others, rfl, hfirst, hsecond⟩ := hspells.cons_inv
  rw [run_append, run_append, run_start_of_spells hfirst]
  obtain ⟨tag, children⟩ := second
  rcases hsecond with _ | _ | _ | ⟨⟨⟩⟩ | ⟨inside, ⟨⟩⟩
  · rfl
  · simp [Except.bind, run_cons, step, run_append, run_of_spells inside, addElement]

theorem finish_of_endsInside {events : List Event} {tag : Tag} (h : EndsInside events tag)
    (hp : start.run events = .ok p) : p.finish = .error (.unclosed tag) := by
  obtain ⟨before, nodes, inside, rfl, hinside⟩ := h
  rw [run_append] at hp
  cases hbefore : start.run before with
  | error e => simp [hbefore, Except.bind] at hp
  | ok r =>
      rw [hbefore] at hp
      simp only [Except.bind, run_cons, step, run_of_spells hinside] at hp
      obtain rfl := Except.ok.inj hp
      rfl

end Progress

/-- What becomes of a document, by the events that belong to its tree and the fault that ends
them. A second root is found before any fault behind it. -/
inductive Outcome (spelled : List Event) : Option Fault → Except TreeError Element → Prop
  | tree {e : Element} (whole : Spells [e.toNode] spelled) : Outcome spelled none (.ok e)
  | unclosed {tag : Tag} (alone : ∀ second, ¬HasSecond spelled second)
      (inside : EndsInside spelled tag) : Outcome spelled none (.error (.unclosed tag))
  | secondRoot {tag : Tag} {fault : Option Fault} (second : HasSecond spelled tag) :
      Outcome spelled fault (.error (.secondRoot tag))
  | noRoot (nothing : spelled = []) : Outcome spelled none (.error .noRoot)
  | markup {fault : Fault} (alone : ∀ second, ¬HasSecond spelled second) :
      Outcome spelled (some fault) (.error (.markup fault))

section Documents

variable (source : String)

/-- The events of a document that belong to its tree. -/
def spelled : List Event := content 0 (events source).events

theorem run_events :
    Progress.start.run (events source).events = Progress.start.run (spelled source) :=
  (Progress.run_content .start _).symm

/-- Either the events are taken to the last one, or there is a second root among them. -/
theorem run_events_cases :
    (∃ p, Progress.start.run (events source).events = .ok p ∧
      Reflects p.stack p.root (spelled source) ∧ ∀ tag, ¬HasSecond (spelled source) tag) ∨
    ∃ tag, Progress.start.run (events source).events = .error (.secondRoot tag) ∧
      HasSecond (spelled source) tag := by
  have hstart : Reflects Progress.start.stack Progress.start.root [] := Spells.nil
  cases hrun : Progress.start.run (events source).events with
  | ok p =>
      refine .inl ⟨p, rfl, Progress.reflects_run hstart (nested_events source) hrun, ?_⟩
      intro tag hsecond
      rw [run_events, Progress.run_start_of_hasSecond hsecond] at hrun
      cases hrun
  | error error =>
      obtain ⟨tag, rfl, hsecond⟩ :=
        Progress.hasSecond_of_run hstart (nested_events source) hrun
      exact .inr ⟨tag, rfl, hsecond⟩

variable {source}

theorem parse_of_run {p : Progress} (h : Progress.start.run (events source).events = .ok p) :
    parse source = match (events source).fault with
      | some fault => .error (.markup fault)
      | none => p.finish := by
  rw [parse, Events.tree, h]
  rfl

theorem parse_of_run_error {error : TreeError}
    (h : Progress.start.run (events source).events = .error error) :
    parse source = .error error := by
  rw [parse, Events.tree, h]
  rfl

theorem outcome_of_finish {p : Progress} {events : List Event} (h : Reflects p.stack p.root events)
    (alone : ∀ second, ¬HasSecond events second) : Outcome events none p.finish := by
  obtain ⟨stack, root⟩ := p
  cases stack with
  | cons inner outer =>
      obtain ⟨before, inside, heq, hinside, -⟩ := h
      exact .unclosed alone ⟨before, _, inside, heq, hinside⟩
  | nil =>
      cases root with
      | none =>
          cases h
          exact .noRoot rfl
      | some e => exact .tree h

variable (source)

theorem outcome_parse : Outcome (spelled source) (events source).fault (parse source) := by
  rcases run_events_cases source with ⟨p, hrun, hreflects, halone⟩ | ⟨tag, hrun, hsecond⟩
  · rw [parse_of_run hrun]
    cases (events source).fault with
    | none => exact outcome_of_finish hreflects halone
    | some fault => exact .markup halone
  · rw [parse_of_run_error hrun]
    exact .secondRoot hsecond

theorem parse_eq_of_outcome {result : Except TreeError Element}
    (h : Outcome (spelled source) (events source).fault result) : parse source = result := by
  have hspelled := run_events source
  generalize hfault : (events source).fault = fault at h
  cases h with
  | tree whole =>
      rw [Progress.run_start_of_spells whole] at hspelled
      rw [parse_of_run hspelled, hfault]
      rfl
  | secondRoot second =>
      rw [Progress.run_start_of_hasSecond second] at hspelled
      exact parse_of_run_error hspelled
  | noRoot nothing =>
      rw [nothing] at hspelled
      rw [parse_of_run hspelled, hfault]
      rfl
  | unclosed alone inside =>
      rcases run_events_cases source with ⟨p, hrun, -, -⟩ | ⟨second, -, hsecond⟩
      · rw [parse_of_run hrun, hfault]
        exact Progress.finish_of_endsInside inside (hspelled.symm.trans hrun)
      · exact absurd hsecond (alone second)
  | markup alone =>
      rcases run_events_cases source with ⟨p, hrun, -, -⟩ | ⟨second, -, hsecond⟩
      · rw [parse_of_run hrun, hfault]
      · exact absurd hsecond (alone second)

/-- A document has a tree exactly if it is read without a fault and its events, without what is
skipped and the texts outside of every element, spell that tree and nothing else. Each other way
in which the events can end has an error of its own; the one of an element that is never closed
names the innermost. -/
theorem parse_eq_iff_outcome :
    (∀ result, parse source = result ↔
      Outcome (spelled source) (events source).fault result) ∧
    (∀ tag, ((TreeError.unclosed tag).diagnostic source).kind = .unclosedElement ∧
      ((TreeError.unclosed tag).diagnostic source).message =
        "<" ++ tag.name ++ "> is never closed") ∧
    (∀ tag, ((TreeError.secondRoot tag).diagnostic source).kind = .malformedXml) ∧
    (TreeError.noRoot.diagnostic source).kind = .malformedXml := by
  refine ⟨fun result => ⟨?_, parse_eq_of_outcome source⟩, fun tag => ⟨rfl, rfl⟩,
    fun tag => rfl, rfl⟩
  rintro rfl
  exact outcome_parse source

end Documents

end ClassSkeleton.Markup
