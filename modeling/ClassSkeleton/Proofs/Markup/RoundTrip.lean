import ClassSkeleton.Proofs.Markup.Spelling
import ClassSkeleton.Proofs.Markup.TagText

namespace ClassSkeleton.Markup

/-!
# Printed trees read back

A tree whose names are plain is read back from its markup, whatever its texts and attribute
values hold. What is printed does not tell where tags have stood, nor neighbouring texts and
empty ones from the text they make up together.
-/

def Tag.bare (tag : Tag) : Tag := { tag with offset := 0 }

namespace Node

mutual

def bare : Node → Node
  | text s => text s
  | element tag children => element tag.bare (allBare children)

def allBare : List Node → List Node
  | [] => []
  | node :: rest => bare node :: allBare rest

end

/-- A text that has been put together from neighbours. An empty one is dropped. -/
def ofText (s : String) : List Node := if s.isEmpty then [] else [text s]

mutual

/-- The node without the places of its tags, and with no two texts side by side and none
empty. -/
def canonical : Node → Node
  | text s => text s
  | element tag children => element tag.bare (allCanonical "" children)

/-- The same for nodes behind a text that is still to be put down. -/
def allCanonical (pending : String) : List Node → List Node
  | [] => ofText pending
  | node :: rest =>
    match node.text? with
    | some s => allCanonical (pending ++ s) rest
    | none => ofText pending ++ canonical node :: allCanonical "" rest

end

mutual

def WellNamed : Node → Prop
  | text _ => True
  | element tag children => tag.WellNamed ∧ AllWellNamed children

def AllWellNamed : List Node → Prop
  | [] => True
  | node :: rest => WellNamed node ∧ AllWellNamed rest

end

theorem allBare_append (nodes others : List Node) :
    allBare (nodes ++ others) = allBare nodes ++ allBare others := by
  induction nodes with
  | nil => rfl
  | cons node nodes ih => rw [List.cons_append, allBare, ih, allBare, List.cons_append]

theorem allBare_eq_element {nodes children : List Node} {tag : Tag}
    (h : allBare nodes = [element tag children]) :
    ∃ place inside, nodes = [element place inside] ∧ place.bare = tag ∧
      allBare inside = children := by
  match nodes, h with
  | [element place inside], h =>
      simp only [allBare, bare, List.cons.injEq, element.injEq, and_true] at h
      exact ⟨place, inside, rfl, h⟩
  | _ :: _ :: _, h => simp [allBare] at h
  | [text _], h => simp [allBare, bare] at h

end Node

namespace Element

def bare (e : Element) : Element := ⟨e.tag.bare, Node.allBare e.children⟩

def canonical (e : Element) : Element := ⟨e.tag.bare, Node.allCanonical "" e.children⟩

def WellNamed (e : Element) : Prop := e.toNode.WellNamed

end Element

def Events.behind (more : Events) (events : List Event) : Events :=
  ⟨events ++ more.events, more.fault⟩

@[simp] theorem Events.behind_nil (more : Events) : more.behind [] = more := rfl

@[simp] theorem Events.behind_behind (more : Events) (events others : List Event) :
    (more.behind others).behind events = more.behind (events ++ others) := by
  simp [behind]

section Reading

variable {locate : Nat → Nat}

theorem readEvents_of_readPiece {names : List String} {offset : Nat} {c : Char}
    {rest : List Char} {piece : Piece} (h : readPiece locate names offset c rest = .ok piece) :
    readEvents locate names offset (c :: rest) =
      (readEvents locate (piece.event.openNames names) (offset + piece.size) piece.rest).behind
        [piece.event] := by
  rw [readEvents]
  split
  · next hcause => simp [h] at hcause
  · next found hfound =>
      obtain rfl := Except.ok.inj (h.symm.trans hfound)
      rfl

/-- Whether a text is read as events that spell some nodes, in front of every text that
satisfies `next`. -/
def ReadsAs (locate : Nat → Nat) (next : List Char → Prop) (text : List Char)
    (nodes : List Node) : Prop :=
  ∀ names offset rest, next rest → ∃ found events stop,
    Node.allBare found = nodes ∧ Spells found events ∧
      readEvents locate names offset (text ++ rest) =
        (readEvents locate names stop rest).behind events

def AtTag (rest : List Char) : Prop := ∀ c ∈ rest.head?, c = '<'

theorem ReadsAs.nil {next : List Char → Prop} : ReadsAs locate next [] [] :=
  fun _ offset _ _ => ⟨[], [], offset, rfl, .nil, rfl⟩

theorem ReadsAs.append {next last : List Char → Prop} {text more : List Char}
    {nodes others : List Node} (h : ReadsAs locate next text nodes)
    (hmore : ReadsAs locate last more others) (hnext : ∀ rest, last rest → next (more ++ rest)) :
    ReadsAs locate last (text ++ more) (nodes ++ others) := by
  intro names offset rest hrest
  obtain ⟨found, events, stop, hfound, hspells, hread⟩ :=
    h names offset (more ++ rest) (hnext rest hrest)
  obtain ⟨found', events', stop', hfound', hspells', hread'⟩ := hmore names stop rest hrest
  refine ⟨found ++ found', events ++ events', stop', ?_, hspells.append hspells', ?_⟩
  · rw [Node.allBare_append, hfound, hfound']
  · rw [List.append_assoc, hread, hread', Events.behind_behind]

theorem AtTag.takeWhile_append {text rest : List Char} (h : AtTag rest) (htext : '<' ∉ text) :
    (text ++ rest).takeWhile (· ≠ '<') = text ∧ (text ++ rest).dropWhile (· ≠ '<') = rest := by
  have hall : ∀ c ∈ text, decide (c ≠ '<') = true := fun c hc =>
    decide_eq_true fun heq => htext (heq ▸ hc)
  rw [List.takeWhile_append_of_pos hall, List.dropWhile_append_of_pos hall]
  cases rest with
  | nil => simp
  | cons c rest => simp [h c rfl]

variable (locate) in
theorem readPiece_text (names : List String) (offset : Nat) {c : Char} {text rest s : List Char}
    (htext : '<' ∉ c :: text) (hrest : AtTag rest) (hs : unescape (c :: text) = .ok s) :
    readPiece locate names offset c (text ++ rest) =
      .ok ⟨.text (String.ofList s), Text.bytes (c :: text), rest⟩ := by
  obtain ⟨hc, hmore⟩ := not_or.mp (mt List.mem_cons.mpr htext)
  obtain ⟨htake, hdrop⟩ := hrest.takeWhile_append hmore
  unfold readPiece
  rw [if_neg (Ne.symm hc)]
  simp only [htake, hdrop, hs]
  rfl

theorem readsAs_escape (s : String) :
    ReadsAs locate AtTag (escape false s.toList) (Node.ofText s) := by
  by_cases hs : s = ""
  · subst hs
    exact .nil
  intro names offset rest hrest
  have hne : escape false s.toList ≠ [] := by
    obtain ⟨c, text, hc⟩ := List.exists_cons_of_ne_nil (mt String.toList_eq_nil_iff.mp hs)
    rw [hc, escape_cons]
    exact List.append_ne_nil_of_left_ne_nil (ne_nil_of_written (written_escapeChar false c)) _
  obtain ⟨c, text, hc⟩ := List.exists_cons_of_ne_nil hne
  have hpiece := readPiece_text locate names offset
    (hc ▸ not_mem_escape (.inl rfl) s.toList) hrest (hc ▸ unescape_escape false s.toList)
  refine ⟨[.text s], [.text s], offset + Text.bytes (c :: text), ?_, .text .nil, ?_⟩
  · simp [Node.ofText, hs, Node.allBare, Node.bare]
  · rw [hc, List.cons_append, readEvents_of_readPiece hpiece, String.ofList_toList]
    rfl

theorem Tag.WellNamed.exists_content_cons {tag : Tag} (h : tag.WellNamed) :
    ∃ c rest, tag.content = c :: rest ∧ c ≠ '!' ∧ c ≠ '?' ∧ c ≠ '/' := by
  obtain ⟨c, rest, hc⟩ := List.exists_cons_of_ne_nil h.name.1
  refine ⟨c, rest ++ tag.attributes.flatMap attributeText, by rw [content, hc]; rfl, ?_, ?_, ?_⟩
  · rintro rfl
    exact h.notBang (by simp [hc])
  · rintro rfl
    exact h.notQuestion (by simp [hc])
  · rintro rfl
    exact (isNameChar_iff.mp (h.name.2 '/' (by simp [hc]))).2.2.2.2.1 rfl

theorem readPiece_opened {names : List String} {offset : Nat} {c : Char} {rest : List Char}
    (hbang : c ≠ '!') (hquestion : c ≠ '?') (hslash : c ≠ '/') :
    readPiece locate names offset '<' (c :: rest) = readOpened locate offset (c :: rest) := by
  unfold readPiece
  rw [if_pos rfl]
  split <;> simp_all

variable (locate) in
theorem readOpened_of_passed {content : List Char} (h : Passed content) {event : Nat → Event}
    (hevent : ∀ place, openedEvent content place = .ok (event place)) (offset : Nat)
    (rest : List Char) :
    ∃ place size, readOpened locate offset (content ++ '>' :: rest) =
      .ok ⟨event place, size, rest⟩ := by
  refine ⟨locate (offset + (Text.bytes content + 2)), Text.bytes content + 2, ?_⟩
  unfold readOpened
  simp only [h.cutTag?_append, hevent]
  rfl

variable (locate) in
/-- The text of a tag is one piece, with a slash at its end or without. -/
theorem Tag.WellNamed.readPiece_content {tag : Tag} (h : tag.WellNamed) (names : List String)
    (offset : Nat) (rest : List Char) :
    (∃ place size, readPiece locate names offset '<' (tag.content ++ '>' :: rest) =
      .ok ⟨.opened { tag with offset := place }, size, rest⟩) ∧
    ∃ place size, readPiece locate names offset '<' (tag.content ++ ['/'] ++ '>' :: rest) =
      .ok ⟨.single { tag with offset := place }, size, rest⟩ := by
  obtain ⟨c, more, hc, hbang, hquestion, hslash⟩ := h.exists_content_cons
  have hopen := readOpened_of_passed locate h.passed_content
    (fun place => (h.openedEvent_content place).1) offset rest
  have hsingle := readOpened_of_passed locate
    (h.passed_content.append (.single (c := '/') (by decide) (by decide) (by decide)))
    (fun place => (h.openedEvent_content place).2) offset rest
  rw [hc, List.cons_append] at hopen
  rw [hc, List.cons_append, List.cons_append] at hsingle
  rw [hc, List.cons_append, List.cons_append, List.cons_append,
    readPiece_opened hbang hquestion hslash, readPiece_opened hbang hquestion hslash]
  exact ⟨hopen, hsingle⟩

theorem closedName_of_isName {name : String} (h : IsName name) :
    closedName name.toList = name := by
  have hdrop : name.toList.reverse.dropWhile isSpace = name.toList.reverse := by
    obtain ⟨c, rest, hc⟩ := List.exists_cons_of_ne_nil (mt List.reverse_eq_nil_iff.mp h.1)
    have hmem : c ∈ name.toList := List.mem_reverse.mp (hc ▸ List.mem_cons_self)
    rw [hc, List.dropWhile_cons, not_isSpace_of_isNameChar (h.2 c hmem)]
    rfl
  unfold closedName
  simp only [hdrop, List.reverse_reverse, ite_self, String.ofList_toList]

variable (locate) in
theorem readPiece_closed {name : String} (h : IsName name) (names : List String) (offset : Nat)
    (rest : List Char) :
    readPiece locate (name :: names) offset '<' ('/' :: name.toList ++ '>' :: rest) =
      .ok ⟨.closed, Text.bytes name.toList + 3, rest⟩ := by
  rw [List.cons_append]
  unfold readPiece
  rw [if_pos rfl]
  unfold readClosed
  simp [(passed_of_isName h.2).cutTag?_append, closedName_of_isName h]

theorem readsAs_single {tag : Tag} (h : tag.WellNamed) :
    ReadsAs locate (fun _ => True) (tag.text ++ ['/', '>']) [.element tag.bare []] := by
  intro names offset rest _
  obtain ⟨place, size, hpiece⟩ := (h.readPiece_content locate names offset rest).2
  refine ⟨[.element { tag with offset := place } []], [.single { tag with offset := place }],
    offset + size, rfl, .single .nil, ?_⟩
  rw [Tag.text_eq]
  simpa [Event.openNames] using readEvents_of_readPiece hpiece

/-- The two tags of an element stand around what its children are read from. -/
theorem readsAs_element {tag : Tag} (h : tag.WellNamed) {inner : List Char}
    {children : List Node} (hinner : ReadsAs locate AtTag inner children) :
    ReadsAs locate (fun _ => True)
      (tag.text ++ '>' :: inner ++ '<' :: '/' :: tag.name.toList ++ ['>'])
      [.element tag.bare children] := by
  intro names offset rest _
  let closing := '<' :: ('/' :: tag.name.toList ++ '>' :: rest)
  obtain ⟨place, size, hopen⟩ :=
    (h.readPiece_content locate names offset (inner ++ closing)).1
  obtain ⟨found, events, stop, hfound, hspells, hread⟩ :=
    hinner (tag.name :: names) (offset + size) closing (by simp [AtTag, closing])
  have hclose := readEvents_of_readPiece
    (readPiece_closed locate h.name names stop rest)
  refine ⟨[.element { tag with offset := place } found],
    .opened { tag with offset := place } :: events ++ [.closed],
    stop + (Text.bytes tag.name.toList + 3), ?_, .element hspells .nil, ?_⟩
  · simp [Node.allBare, Node.bare, hfound, Tag.bare]
  · have hall := readEvents_of_readPiece hopen
    simp only [Event.openNames, closing] at hall hread hclose
    rw [hread, hclose, Events.behind_behind, Events.behind_behind] at hall
    rw [Tag.text_eq]
    simpa [Event.openNames] using hall

theorem atTag_element (tag : Tag) (children : List Node) (rest : List Char) :
    AtTag (Node.markup (.element tag children) ++ rest) := by
  cases children <;> simp [AtTag, Node.markup, Tag.text_eq]

mutual

/-- The markup of an element is read as that element. -/
theorem readsAs_markup (tag : Tag) (children : List Node)
    (h : (Node.element tag children).WellNamed) :
    ReadsAs locate (fun _ => True) (Node.markup (.element tag children))
      [Node.canonical (.element tag children)] := by
  match children, h with
  | [], h => exact readsAs_single h.1
  | child :: rest, h =>
      have hinner := readsAs_allMarkup (child :: rest) h.2 ""
      rw [Node.markup, Node.canonical]
      exact readsAs_element h.1 hinner

/-- The markup of nodes behind some text is read as these nodes, the text put together with its
neighbours. -/
theorem readsAs_allMarkup (nodes : List Node) (h : Node.AllWellNamed nodes) (pending : String) :
    ReadsAs locate AtTag (escape false pending.toList ++ Node.allMarkup nodes)
      (Node.allCanonical pending nodes) := by
  match nodes, h with
  | [], _ =>
      rw [Node.allMarkup, List.append_nil]
      exact readsAs_escape pending
  | .text s :: rest, h =>
      have hrest := readsAs_allMarkup rest h.2 (pending ++ s)
      rwa [String.toList_append, escape_append, List.append_assoc] at hrest
  | .element tag children :: rest, h =>
      have helement := readsAs_markup tag children h.1
      have hrest := readsAs_allMarkup rest h.2 ""
      refine (readsAs_escape pending).append (helement.append hrest fun _ _ => trivial) ?_
      intro more _
      rw [Node.allMarkup, List.append_assoc]
      exact atTag_element tag children _

end

end Reading

/-- An element whose names are plain is read back from its markup, up to the places of its tags
and the way its texts are divided. -/
theorem parse_toXml (e : Element) (h : e.WellNamed) :
    ∃ found, parse e.toXml = .ok found ∧ found.bare = e.canonical := by
  obtain ⟨tag, children⟩ := e
  have hmark : (Node.markup (.element tag children)).head? ≠ some '\ufeff' := by
    cases children <;> simp [Node.markup, Tag.text_eq]
  let locate (limit : Nat) : Nat := lastOpening limit 0 0 (Node.markup (.element tag children))
  have hreads : ReadsAs locate (fun _ => True) (Node.markup (.element tag children))
      [Node.canonical (.element tag children)] := readsAs_markup tag children h
  obtain ⟨found, events, stop, hfound, hspells, hread⟩ := hreads [] 0 [] trivial
  rw [List.append_nil] at hread
  have hevents : Markup.events (Element.toXml ⟨tag, children⟩) = ⟨events, none⟩ := by
    unfold Markup.events
    simp only [Element.toXml, Element.toNode, String.toList_ofList, if_neg hmark]
    rw [hread, readEvents]
    simp [Events.behind]
  obtain ⟨place, inside, rfl, hplace, hinside⟩ := Node.allBare_eq_element hfound
  refine ⟨⟨place, inside⟩, ?_, ?_⟩
  · rw [parse, hevents]
    exact tree_of_spells hspells
  · rw [Element.bare, Element.canonical, hplace, hinside]

/-- Texts of every kind: divided, empty, with marks of its own and with a null character. -/
def hostile : Element :=
  ⟨⟨"para", [("k", "\"<&>'\n")], 7⟩, [.text "a]]>", .text "", .text "&lt;\x00",
    .element ⟨"sp", [], 3⟩ [], .text "", .element ⟨"b", [("k", "")], 3⟩ [.text ""]]⟩

theorem parse_toXml_hostile :
    hostile.WellNamed ∧
      ∃ found, parse hostile.toXml = .ok found ∧ found.bare = hostile.canonical := by
  have h : hostile.WellNamed :=
    ⟨⟨by decide +kernel, by decide +kernel, by decide +kernel, by decide +kernel,
        by decide +kernel⟩, trivial, trivial, trivial,
      ⟨⟨by decide +kernel, by decide +kernel, by decide +kernel, nofun, .nil⟩, trivial⟩, trivial,
      ⟨⟨by decide +kernel, by decide +kernel, by decide +kernel, by decide +kernel,
        by decide +kernel⟩, trivial, trivial⟩, trivial⟩
  exact ⟨h, parse_toXml hostile h⟩

end ClassSkeleton.Markup
