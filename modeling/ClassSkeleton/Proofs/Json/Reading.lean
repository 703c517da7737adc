import ClassSkeleton.Json.Record
import ClassSkeleton.Proofs.Json.Spelling
import Mathlib.Data.List.Forall2

namespace ClassSkeleton.Json

/-!
# Spellings read back

A reading that is made for a value gives the same result on every spelling of it and stops just
behind it, whatever comes next. Lists are read element by element, and records member by member
in any order.
-/

section Steps

variable {α β : Type}

/-- Whether a reading takes just this text and gives `a`, wherever it begins and whatever
follows. -/
def Reads (x : Reading α) (text : List Char) (a : α) : Prop :=
  ∀ line column rest, ∃ line' column',
    x ⟨text ++ rest, line, column⟩ = .ok (a, ⟨rest, line', column'⟩)

namespace Reads

theorem pure (a : α) : Reads (Pure.pure a) [] a := fun line column _ => ⟨line, column, rfl⟩

theorem bind {x : Reading α} {f : α → Reading β} {text more : List Char} {a : α} {b : β}
    (h : Reads x text a) (hnext : Reads (f a) more b) : Reads (x >>= f) (text ++ more) b := by
  intro line column rest
  obtain ⟨line', column', hx⟩ := h line column (more ++ rest)
  obtain ⟨line'', column'', hf⟩ := hnext line' column' rest
  refine ⟨line'', column'', ?_⟩
  rw [List.append_assoc]
  simp only [Bind.bind, StateT.bind, hx, Except.bind, hf]

theorem map {x : Reading α} {text : List Char} {a : α} (h : Reads x text a) (f : α → β) :
    Reads (x >>= fun a => Pure.pure (f a)) text (f a) := by
  have hall : Reads (x >>= fun a => Pure.pure (f a)) (text ++ []) (f a) := h.bind (pure (f a))
  rwa [List.append_nil] at hall

theorem bump (c : Char) : Reads bump [c] () := by
  intro line column rest
  by_cases hc : c = '\n'
  · exact ⟨line + 1, 0, by simp [Json.bump, Cursor.tail, hc]⟩
  · exact ⟨line, column + c.utf8Size, by simp [Json.bump, Cursor.tail, hc]⟩

theorem next (cause : Cause) (c : Char) : Reads (next cause) [c] c := by
  intro line column rest
  by_cases hc : c = '\n'
  · exact ⟨line + 1, 0, by simp [Json.next, Cursor.tail, hc]⟩
  · exact ⟨line, column + c.utf8Size, by simp [Json.next, Cursor.tail, hc]⟩

theorem get {f : Cursor → Reading α} {text : List Char} {a : α}
    (h : ∀ cursor : Cursor, text.length ≤ cursor.rest.length → Reads (f cursor) text a) :
    Reads (get >>= f) text a := by
  intro line column rest
  exact h ⟨text ++ rest, line, column⟩ (by simp) line column rest

end Reads

theorem skipFrom_append {blanks : List Char} {c : Char} (h : Blank blanks)
    (hc : Cursor.isBlank c = false) (rest : List Char) (line column : Nat) : ∃ line' column',
      Cursor.skipFrom line column (blanks ++ c :: rest) = ⟨c :: rest, line', column'⟩ := by
  induction blanks generalizing line column with
  | nil =>
      have hfeed : c ≠ '\n' := by
        rintro rfl
        cases hc
      exact ⟨line, column, by simp [Cursor.skipFrom, hfeed, hc]⟩
  | cons d blanks ih =>
      have hd : Cursor.isBlank d = true := h d List.mem_cons_self
      by_cases hfeed : d = '\n'
      · obtain ⟨line', column', hskip⟩ := ih h.tail (line + 1) 0
        exact ⟨line', column', by simp [Cursor.skipFrom, hfeed, hskip]⟩
      · obtain ⟨line', column', hskip⟩ := ih h.tail line (column + 1)
        exact ⟨line', column', by simp [Cursor.skipFrom, hfeed, hd, hskip]⟩

theorem skipFrom_of_blank {blanks : List Char} (h : Blank blanks) (line column : Nat) :
    ∃ line' column', Cursor.skipFrom line column blanks = ⟨[], line', column'⟩ := by
  induction blanks generalizing line column with
  | nil => exact ⟨line, column, rfl⟩
  | cons c blanks ih =>
      have hc : Cursor.isBlank c = true := h c List.mem_cons_self
      by_cases hfeed : c = '\n'
      · simpa [Cursor.skipFrom, hfeed] using ih h.tail (line + 1) 0
      · simpa [Cursor.skipFrom, hfeed, hc] using ih h.tail line (column + 1)

/-- Blanks are passed before the next character is looked at. -/
theorem Reads.peekItem {f : Option Char → Reading α} {blanks more : List Char} {c : Char} {a : α}
    (hblanks : Blank blanks) (hc : Cursor.isBlank c = false)
    (h : Reads (f (some c)) (c :: more) a) :
    Reads (peekItem? >>= f) (blanks ++ c :: more) a := by
  intro line column rest
  obtain ⟨line', column', hskip⟩ := skipFrom_append hblanks hc (more ++ rest) line column
  obtain ⟨line'', column'', hf⟩ := h line' column' rest
  refine ⟨line'', column'', ?_⟩
  rw [← hf]
  simp [Bind.bind, StateT.bind, Except.bind, peekItem?, Cursor.skipBlanks, hskip]

theorem Reads.peekValue {f : Char → Reading α} {blanks more : List Char} {c : Char} {a : α}
    (hblanks : Blank blanks) (hc : Cursor.isBlank c = false) (h : Reads (f c) (c :: more) a) :
    Reads (peekValue >>= f) (blanks ++ c :: more) a := by
  rw [Json.peekValue, bind_assoc]
  refine .peekItem hblanks hc ?_
  simpa using h

end Steps

section Texts

/-- The escapes of control characters have numbers that two digits suffice for. -/
theorem number?_fourDigits : ∀ n < 32, Text.number? 16 (fourDigits n) = some n := by decide

theorem reads_readFour {n : Nat} (hn : n < 32) : Reads readFour (fourDigits n) n := by
  intro line column rest
  have hnumber := number?_fourDigits n hn
  rw [fourDigits] at hnumber
  exact ⟨line, column + 4, by simp [readFour, fourDigits, hnumber]⟩

theorem reads_readUnicode {c : Char} (hc : c.toNat < 32) :
    Reads readUnicode (fourDigits c.toNat) c := by
  have hlow : ¬(0xdc00 ≤ c.toNat ∧ c.toNat ≤ 0xdfff) := by omega
  have hhigh : ¬(0xd800 ≤ c.toNat ∧ c.toNat ≤ 0xdbff) := by omega
  rw [← List.append_nil (fourDigits c.toNat)]
  refine (reads_readFour hc).bind ?_
  rw [if_neg hlow, if_neg hhigh, Char.ofNat_toNat]
  exact .pure c

theorem reads_readChars_escape {fuel : Nat} {code text s : List Char} {c : Char}
    (hcode : Reads readEscape code c) (htext : Reads (readChars fuel) text s) :
    Reads (readChars (fuel + 1)) ('\\' :: code ++ text) (c :: s) := by
  rw [readChars, ← List.singleton_append, List.append_assoc]
  refine (Reads.next .endOfString '\\').bind ?_
  exact hcode.bind (htext.map (c :: ·))

theorem reads_readChars_plain {fuel : Nat} {text s : List Char} {c : Char} (hquote : c ≠ '"')
    (hslash : c ≠ '\\') (hc : ¬c.toNat < 32) (htext : Reads (readChars fuel) text s) :
    Reads (readChars (fuel + 1)) (c :: text) (c :: s) := by
  refine (Reads.next .endOfString c).bind ?_
  split
  · contradiction
  · contradiction
  · rw [if_neg hc]
    exact htext.map (c :: ·)

theorem reads_readChars_escapeChar {fuel : Nat} {text s : List Char} (c : Char)
    (htext : Reads (readChars fuel) text s) :
    Reads (readChars (fuel + 1)) (escapeChar c ++ text) (c :: s) := by
  unfold escapeChar
  split
  case h_8 hquote hslash _ _ _ _ _ =>
      split
      · next hc => exact reads_readChars_escape ((Reads.next _ 'u').bind (reads_readUnicode hc)) htext
      · next hc => exact reads_readChars_plain hquote hslash hc htext
  -- The other cases are characters that have a short escape of their own.
  all_goals exact reads_readChars_escape ((Reads.next _ _).bind (.pure _)) htext

/-- The text of a string is read back from between its quotes, whatever it holds. -/
theorem reads_readChars (s : List Char) {fuel : Nat} (h : s.length < fuel) :
    Reads (readChars fuel) (escape s ++ ['"']) s := by
  induction s generalizing fuel with
  | nil =>
      obtain ⟨fuel, rfl⟩ := Nat.exists_eq_add_of_lt h
      exact (Reads.next .endOfString '"').bind (.pure [])
  | cons c s ih =>
      cases fuel with
      | zero => cases h
      | succ fuel =>
          rw [escape, List.flatMap_cons, List.append_assoc]
          exact reads_readChars_escapeChar c (ih (Nat.lt_of_succ_lt_succ h))

theorem length_le_length_escape (s : List Char) : s.length ≤ (escape s).length := by
  induction s with
  | nil => exact Nat.le_refl _
  | cons c s ih =>
      have hc : 0 < (escapeChar c).length := by
        unfold escapeChar
        split
        case h_8 => split <;> simp
        all_goals simp
      rw [escape, List.flatMap_cons, List.length_append, List.length_cons, Nat.add_comm]
      exact Nat.add_le_add hc ih

theorem reads_readText (s : String) : Reads readText (escape s.toList ++ ['"']) s := by
  refine .get fun cursor hcursor => ?_
  have hfuel : s.toList.length < cursor.rest.length + 1 := by
    have hescape := length_le_length_escape s.toList
    rw [List.length_append] at hcursor
    omega
  have hall := (reads_readChars s.toList hfuel).map String.ofList
  rwa [String.ofList_toList] at hall

end Texts

section Values

variable {α : Type}

/-- Whether a reading gives `a` for every spelling of a value, blanks in front included. -/
def Decodes (read : Reading α) (v : Value) (a : α) : Prop :=
  ∀ blanks text, Blank blanks → Spells v text → Reads read (blanks ++ text) a

theorem Decodes.map {β : Type} {read : Reading α} {v : Value} {a : α} (h : Decodes read v a)
    (f : α → β) : Decodes (read >>= fun a => Pure.pure (f a)) v (f a) :=
  fun blanks text hblanks htext => (h blanks text hblanks htext).map f

/-- The first character of a value is no blank, closes nothing and begins no `null`. -/
theorem Spells.exists_cons {v : Value} {text : List Char} (h : Spells v text) :
    ∃ c rest, text = c :: rest ∧ Cursor.isBlank c = false ∧ c ≠ ']' ∧ c ≠ 'n' := by
  cases h with
  | bool b => cases b <;> exact ⟨_, _, rfl, by decide⟩
  | string s => exact ⟨_, _, rfl, by decide⟩
  | array h => exact ⟨_, _, rfl, by decide⟩
  | object h => exact ⟨_, _, rfl, by decide⟩

theorem decodes_readString (s : String) : Decodes readString (.string s) s := by
  intro blanks text hblanks h
  cases h
  refine .peekValue hblanks (by decide) ?_
  rw [if_pos rfl]
  exact (Reads.bump '"').bind (reads_readText s)

theorem reads_readIdent (word : List Char) : Reads (readIdent word) word () := by
  induction word with
  | nil => exact .pure ()
  | cons c word ih =>
      refine (Reads.next .endOfValue c).bind ?_
      rw [if_pos rfl]
      exact ih

theorem decodes_readBool (b : Bool) : Decodes readBool (.bool b) b := by
  intro blanks text hblanks h
  cases h
  cases b with
  | false =>
      refine .peekValue hblanks (by decide) ?_
      exact (Reads.bump 'f').bind ((reads_readIdent ['a', 'l', 's', 'e']).map fun _ => false)
  | true =>
      refine .peekValue hblanks (by decide) ?_
      exact (Reads.bump 't').bind ((reads_readIdent ['r', 'u', 'e']).map fun _ => true)

theorem decodes_readOptional {read : Reading α} {v : Value} {a : α} (h : Decodes read v a) :
    Decodes (readOptional read) v (some a) := by
  intro blanks text hblanks htext
  obtain ⟨c, rest, rfl, hc, -, hnull⟩ := htext.exists_cons
  refine .peekItem hblanks hc ?_
  rw [if_neg (by simpa using hnull)]
  exact (h [] _ blank_nil htext).map some

end Values

section Lists

variable {α β : Type}

theorem Reads.elementStart {f : Bool → Reading α} {first : Bool} {lead more : List Char}
    {c : Char} {a : α} (hlead : Lead first lead) (hc : Cursor.isBlank c = false) (hclose : c ≠ ']')
    (h : Reads (f true) (c :: more) a) :
    Reads (readElementStart first >>= f) (lead ++ c :: more) a := by
  rw [readElementStart, bind_assoc]
  cases hlead with
  | first hblanks =>
      refine .peekItem hblanks hc ?_
      simpa [hclose] using h
  | later hbefore hbehind =>
      rw [List.append_assoc, List.cons_append]
      refine .peekItem hbefore (by decide) ?_
      simp only [↓Char.isValue, Char.reduceEq, imp_self, Bool.false_eq_true, ↓reduceIte,
        bind_assoc]
      refine (Reads.bump ',').bind ?_
      refine .peekItem hbehind hc ?_
      simpa [hclose] using h

theorem Reads.elementEnd {f : Bool → Reading α} {blanks more : List Char} {a : α} (first : Bool)
    (hblanks : Blank blanks) (h : Reads (f false) (']' :: more) a) :
    Reads (readElementStart first >>= f) (blanks ++ ']' :: more) a := by
  rw [readElementStart, bind_assoc]
  refine .peekItem hblanks (by decide) ?_
  simpa using h

/-- One more unit of fuel than there are elements suffices. -/
theorem reads_readElements {read : Reading α} {vs : List Value} {as : List α}
    (hvs : List.Forall₂ (Decodes read) vs as) {first : Bool} {inside : List Char}
    (h : SpellsElements first vs inside) {fuel : Nat} (hfuel : vs.length < fuel) :
    Reads (readElements read fuel first) inside as := by
  induction hvs generalizing first inside fuel with
  | nil =>
      obtain ⟨fuel, rfl⟩ := Nat.exists_eq_add_of_lt hfuel
      cases h with
      | stop hblanks =>
          refine .elementEnd first hblanks ?_
          exact (Reads.bump ']').bind (.pure [])
  | cons hv _ ih =>
      cases fuel with
      | zero => cases hfuel
      | succ fuel =>
          cases h with
          | cons before value tail =>
              have htail := ih tail (Nat.lt_of_succ_lt_succ hfuel)
              have hhead := hv [] _ blank_nil value
              obtain ⟨c, rest, rfl, hc, hclose, -⟩ := value.exists_cons
              rw [List.append_assoc]
              refine .elementStart before hc hclose ?_
              exact hhead.bind (htail.map (_ :: ·))

theorem SpellsElements.length_lt {first : Bool} {vs : List Value} {inside : List Char}
    (h : SpellsElements first vs inside) : vs.length < inside.length := by
  induction vs generalizing first inside with
  | nil =>
      cases h with
      | stop hblanks => simp
  | cons v vs ih =>
      cases h with
      | cons before value tail =>
          have htail := ih tail
          obtain ⟨c, rest, rfl, -⟩ := value.exists_cons
          simp only [List.length_append, List.length_cons]
          omega

theorem decodes_readList {read : Reading α} {vs : List Value} {as : List α}
    (h : List.Forall₂ (Decodes read) vs as) : Decodes (readList read) (.array vs) as := by
  intro blanks text hblanks htext
  cases htext with
  | array helements =>
      refine .peekValue hblanks (by decide) ?_
      rw [if_pos rfl]
      refine (Reads.bump '[').bind (.get fun cursor hcursor => ?_)
      have hlength := helements.length_lt
      exact reads_readElements h helements (by omega)

end Lists

section Records

variable {σ : Type}

theorem Reads.memberStart {first : Bool} {lead : List Char} (hlead : Lead first lead) :
    Reads (readMemberStart first) (lead ++ ['"']) true := by
  cases hlead with
  | first hblanks =>
      refine .peekItem hblanks (by decide) ?_
      exact (Reads.bump '"').map fun _ => true
  | later hbefore hbehind =>
      rw [List.append_assoc, List.cons_append]
      refine .peekItem hbefore (by decide) ?_
      refine (Reads.bump ',').bind ?_
      refine .peekItem hbehind (by decide) ?_
      exact (Reads.bump '"').map fun _ => true

theorem Reads.memberEnd {f : Bool → Reading σ} {blanks more : List Char} {a : σ} (first : Bool)
    (hblanks : Blank blanks) (h : Reads (f false) ('\x7d' :: more) a) :
    Reads (readMemberStart first >>= f) (blanks ++ '\x7d' :: more) a := by
  rw [readMemberStart, bind_assoc]
  refine .peekItem hblanks (by decide) ?_
  simpa using h

theorem reads_readColon {gap : List Char} (h : Blank gap) : Reads readColon (gap ++ [':']) () :=
  .peekItem h (by decide) (Reads.bump ':')

/-- Whether the members of an object bring a record to another one, each by way of a field that
has not been set. -/
inductive Fills (fields : List (Field σ)) : σ → List (String × Value) → σ → Prop
  | nil (record : σ) : Fills fields record [] record
  | cons {record next last : σ} {key : String} {v : Value} {members : List (String × Value)}
      {field : Field σ} (found : fields.find? (·.name = key) = some field)
      (free : field.isSet record = false) (value : Decodes (field.read record) v next)
      (tail : Fills fields next members last) : Fills fields record ((key, v) :: members) last

/-- Whether a record has every field that it has to have. -/
def Complete (fields : List (Field σ)) (record : σ) : Prop :=
  (fields.find? fun field => field.isRequired && !field.isSet record) = none

/-- The text of a member in the pieces in which it is read. -/
theorem memberText_eq (lead gap space text rest : List Char) (key : String) :
    lead ++ literal key ++ gap ++ ':' :: space ++ text ++ rest =
      (lead ++ ['"']) ++ ((escape key.toList ++ ['"']) ++
        ((gap ++ [':']) ++ ((space ++ text) ++ rest))) := by
  simp [literal]

theorem reads_readMembers {fields : List (Field σ)} {record last : σ}
    {members : List (String × Value)} (hfills : Fills fields record members last)
    (hlast : Complete fields last) {first : Bool} {inside : List Char}
    (h : SpellsMembers first members inside) {fuel : Nat} (hfuel : members.length < fuel) :
    Reads (readMembers fields fuel first record) inside last := by
  induction hfills generalizing first inside fuel with
  | nil record =>
      obtain ⟨fuel, rfl⟩ := Nat.exists_eq_add_of_lt hfuel
      cases h with
      | stop hblanks =>
          refine .memberEnd first hblanks ?_
          simp only [Bool.false_eq_true, if_false]
          rw [hlast]
          exact (Reads.bump '\x7d').map fun _ => record
  | cons found free value _ ih =>
      cases fuel with
      | zero => cases hfuel
      | succ fuel =>
          cases h with
          | cons before hgap hspace hvalue tail =>
              have htail := ih hlast tail (Nat.lt_of_succ_lt_succ hfuel)
              rw [memberText_eq]
              refine (Reads.memberStart before).bind ?_
              rw [if_pos rfl]
              refine (reads_readText _).bind ?_
              simp only [found, free, Bool.false_eq_true, if_false]
              refine (reads_readColon hgap).bind ?_
              exact (value _ _ hspace hvalue).bind htail

theorem SpellsMembers.length_lt {first : Bool} {members : List (String × Value)}
    {inside : List Char} (h : SpellsMembers first members inside) :
    members.length < inside.length := by
  induction members generalizing first inside with
  | nil =>
      cases h with
      | stop hblanks => simp
  | cons member members ih =>
      cases h with
      | cons before hgap hspace value tail =>
          have htail := ih tail
          simp only [List.length_append, List.length_cons]
          omega

theorem decodes_readRecord (name : String) {fields : List (Field σ)} {empty record : σ}
    {members : List (String × Value)} (h : Fills fields empty members record)
    (hrecord : Complete fields record) :
    Decodes (readRecord name fields empty) (.object members) record := by
  intro blanks text hblanks htext
  cases htext with
  | object hmembers =>
      refine .peekValue hblanks (by decide) ?_
      refine (Reads.bump '\x7b').bind (.get fun cursor hcursor => ?_)
      have hlength := hmembers.length_lt
      exact reads_readMembers h hrecord hmembers (by omega)

end Records

/-- A document is read as the value that its text spells. -/
theorem Decodes.readDocument {α : Type} {read : Reading α} {v : Value} {a : α}
    (h : Decodes read v a) {text behind : List Char} (htext : Spells v text)
    (hbehind : Blank behind) :
    Json.readDocument read (String.ofList (text ++ behind)) = .ok a := by
  obtain ⟨line, column, hread⟩ := h [] text blank_nil htext 1 0 behind
  obtain ⟨line', column', hskip⟩ := skipFrom_of_blank hbehind line column
  rw [List.nil_append] at hread
  simp [Json.readDocument, StateT.run, Cursor.start, Bind.bind, Except.bind, hread,
    Cursor.skipBlanks, hskip]

end ClassSkeleton.Json
