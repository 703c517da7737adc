import ClassSkeleton.Markup.Attributes

namespace ClassSkeleton.Markup

/-!
# Events

A source is a sequence of events: tags, texts, and pieces of markup that carry no content.
Reading stops at the first piece that is ill formed. The fault is placed where that piece
begins.
-/

inductive Event where
  | opened (tag : Tag)
  | closed
  | single (tag : Tag)
  | text (s : String)
  | data (s : String)
  | skipped

structure Fault where
  cause : Cause
  offset : Nat
  deriving DecidableEq, Repr

/-- The events in front of the first fault, and that fault. -/
structure Events where
  events : List Event
  fault : Option Fault

/-- One piece of a source: what it says, its size in bytes and the text behind it. -/
structure Piece where
  event : Event
  size : Nat
  rest : List Char

/-- Reads a comment, character data or a document type, from behind its `<!`. -/
def readBang (text : List Char) : Except Cause Piece :=
  match text with
  | '[' :: inner =>
    match Text.cutAt? [']', ']', '>'] inner with
    | none => .error .unclosedData
    | some (data, rest) =>
      if ['C', 'D', 'A', 'T', 'A', '['].isPrefixOf data then
        .ok ⟨.data (String.ofList (data.drop 6)), Text.bytes data + 6, rest⟩
      else .error .unclosedData
  | '-' :: dash :: inner =>
    match Text.cutAt? ['-', '-', '>'] inner with
    | none => .error .unclosedComment
    | some (comment, rest) =>
      if dash = '-' then .ok ⟨.skipped, Text.bytes comment + 7, rest⟩
      else .error .unclosedComment
  | ['-'] => .error .unclosedComment
  | c :: inner =>
    if c = 'D' ∨ c = 'd' then
      match Text.cutAtClose? 0 (c :: inner) with
      | none => .error .unclosedDoctype
      | some (content, rest) =>
        if (content.take 7).map Char.toUpper ≠ "DOCTYPE".toList then .error .unclosedDoctype
        else if (content.drop 7).all isSpace then .error .namelessDoctype
        else .ok ⟨.skipped, Text.bytes content + 3, rest⟩
    else .error .unknownMarkup
  | [] => .error .unknownMarkup

/-- Reads an instruction or a declaration, from behind its `<?`. -/
def readInstruction (text : List Char) : Except Cause Piece :=
  match text with
  | '>' :: _ => .error .unclosedInstruction
  | _ =>
    match Text.cutAt? ['?', '>'] text with
    | none => .error .unclosedInstruction
    | some (content, rest) => .ok ⟨.skipped, Text.bytes content + 4, rest⟩

/-- The name in an end tag. Spaces behind the name do not count. -/
def closedName (content : List Char) : String :=
  let trimmed := (content.reverse.dropWhile isSpace).reverse
  String.ofList (if trimmed.isEmpty then content else trimmed)

/-- Reads an end tag, from behind its `</`. Its name has to be the one opened last. -/
def readClosed (names : List String) (text : List Char) : Except Cause Piece :=
  match cutTag? none text with
  | none => .error .unclosedTag
  | some (content, rest) =>
    match names with
    | [] => .error (.unmatchedEnd (closedName content))
    | expected :: _ =>
      if closedName content = expected then .ok ⟨.closed, Text.bytes content + 3, rest⟩
      else .error (.mismatchedEnd expected (closedName content))

/-- The event of a start tag; a slash at its end closes the element at once. -/
def openedEvent (content : List Char) (offset : Nat) : Except Cause Event :=
  if content.getLast? = some '/' then (readTag content.dropLast offset).map .single
  else (readTag content offset).map .opened

/-- Reads a start tag, from behind its `<`. `locate` gives the offset of the tag from that of
its end. -/
def readOpened (locate : Nat → Nat) (offset : Nat) (text : List Char) : Except Cause Piece :=
  match cutTag? none text with
  | none => .error .unclosedTag
  | some (content, rest) =>
    let size := Text.bytes content + 2
    (openedEvent content (locate (offset + size))).map (⟨·, size, rest⟩)

/-- Reads the piece of a source that begins with `c`. -/
def readPiece (locate : Nat → Nat) (names : List String) (offset : Nat) (c : Char)
    (rest : List Char) : Except Cause Piece :=
  if c = '<' then
    match rest with
    | [] => .error .unclosedTag
    | '!' :: inner => readBang inner
    | '?' :: inner => readInstruction inner
    | '/' :: inner => readClosed names inner
    | _ => readOpened locate offset rest
  else
    let text := c :: rest.takeWhile (· ≠ '<')
    (unescape text).map fun s =>
      ⟨.text (String.ofList s), Text.bytes text, rest.dropWhile (· ≠ '<')⟩

theorem exists_of_map_eq_ok {ε α β : Type} {f : α → β} {x : Except ε α} {b : β}
    (h : x.map f = .ok b) : ∃ a, x = .ok a ∧ f a = b := by
  cases x with
  | error e => simp [Except.map] at h
  | ok a => exact ⟨a, rfl, Except.ok.inj h⟩

theorem length_of_readBang {text : List Char} {piece : Piece} (h : readBang text = .ok piece) :
    piece.rest.length ≤ text.length := by
  unfold readBang at h
  split at h
  · split at h
    · simp at h
    · next hcut =>
      split at h
      · obtain rfl := Except.ok.inj h
        have := congrArg List.length (Text.cutAt?_eq_append hcut)
        simp only [List.length_append, List.length_cons] at this ⊢
        omega
      · simp at h
  · split at h
    · simp at h
    · next hcut =>
      split at h
      · obtain rfl := Except.ok.inj h
        have := congrArg List.length (Text.cutAt?_eq_append hcut)
        simp only [List.length_append, List.length_cons] at this ⊢
        omega
      · simp at h
  · simp at h
  · split at h
    · split at h
      · simp at h
      · next hcut =>
        split at h
        · simp at h
        · split at h
          · simp at h
          · obtain rfl := Except.ok.inj h
            have := congrArg List.length (Text.cutAtClose?_eq_append hcut)
            simp only [List.length_append, List.length_cons] at this ⊢
            omega
    · simp at h
  · simp at h

theorem length_of_readInstruction {text : List Char} {piece : Piece}
    (h : readInstruction text = .ok piece) : piece.rest.length ≤ text.length := by
  unfold readInstruction at h
  split at h
  · simp at h
  · split at h
    · simp at h
    · next hcut =>
      obtain rfl := Except.ok.inj h
      have := congrArg List.length (Text.cutAt?_eq_append hcut)
      simp only [List.length_append, List.length_cons] at this ⊢
      omega

theorem length_of_readClosed {names : List String} {text : List Char} {piece : Piece}
    (h : readClosed names text = .ok piece) : piece.rest.length ≤ text.length := by
  unfold readClosed at h
  split at h
  · simp at h
  · next hcut =>
    have hlen := congrArg List.length (cutTag?_eq_append hcut)
    simp only [List.length_append, List.length_cons] at hlen
    split at h
    · simp at h
    · split at h
      · obtain rfl := Except.ok.inj h
        simp only
        omega
      · simp at h

theorem length_of_readOpened {locate : Nat → Nat} {offset : Nat} {text : List Char}
    {piece : Piece} (h : readOpened locate offset text = .ok piece) :
    piece.rest.length ≤ text.length := by
  unfold readOpened at h
  split at h
  · simp at h
  · next content rest hcut =>
    have hlen := congrArg List.length (cutTag?_eq_append hcut)
    simp only [List.length_append, List.length_cons] at hlen
    obtain ⟨event, -, rfl⟩ := exists_of_map_eq_ok h
    simp only
    omega

theorem length_of_readPiece {locate : Nat → Nat} {names : List String} {offset : Nat} {c : Char}
    {rest : List Char} {piece : Piece} (h : readPiece locate names offset c rest = .ok piece) :
    piece.rest.length ≤ rest.length := by
  unfold readPiece at h
  split at h
  · split at h
    · simp at h
    · have := length_of_readBang h
      simp only [List.length_cons]
      omega
    · have := length_of_readInstruction h
      simp only [List.length_cons]
      omega
    · have := length_of_readClosed h
      simp only [List.length_cons]
      omega
    · exact length_of_readOpened h
  · obtain ⟨text, -, rfl⟩ := exists_of_map_eq_ok h
    exact (List.dropWhile_suffix _).length_le

/-- The names of the open elements after an event, the innermost first. -/
def Event.openNames (event : Event) (names : List String) : List String :=
  match event with
  | opened tag => tag.name :: names
  | closed => names.tail
  | _ => names

/-- Reads the events from an offset on, inside the elements of `names`. -/
def readEvents (locate : Nat → Nat) (names : List String) (offset : Nat) (text : List Char) :
    Events :=
  match text with
  | [] => ⟨[], none⟩
  | c :: rest =>
    match _piece : readPiece locate names offset c rest with
    | .error cause => ⟨[], some ⟨cause, offset⟩⟩
    | .ok piece =>
      let more :=
        readEvents locate (piece.event.openNames names) (offset + piece.size) piece.rest
      ⟨piece.event :: more.events, more.fault⟩
termination_by text.length
decreasing_by
  have := length_of_readPiece _piece
  simp only [List.length_cons]
  omega

/-- The offset of the last `<` in front of `limit`, and `found` where there is none. -/
def lastOpening (limit : Nat) (offset found : Nat) : List Char → Nat
  | [] => found
  | c :: rest =>
    lastOpening limit (offset + c.utf8Size) (if c = '<' ∧ offset < limit then offset else found)
      rest

/-- The events of a whole source. A byte order mark in front is not read and not counted. -/
def events (source : String) : Events :=
  let text := source.toList
  let locate (limit : Nat) : Nat := lastOpening limit 0 0 text
  readEvents locate [] 0 (if text.head? = some '\ufeff' then text.tail else text)

end ClassSkeleton.Markup
