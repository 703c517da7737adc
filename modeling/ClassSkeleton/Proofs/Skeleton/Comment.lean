import ClassSkeleton.Proofs.Pattern.Literal
import ClassSkeleton.Proofs.Rules.Entries
import ClassSkeleton.Proofs.Text.Occurrence
import ClassSkeleton.Proofs.Text.Trimming
import ClassSkeleton.Skeleton.Rewriting
import Mathlib.Data.List.Forall2

namespace ClassSkeleton.Skeleton.Rewriting

/-!
# Comment blocks

A comment block opens and closes on lines of its own, and has one line in between for every line
of the documentation that is not blank. Whatever the rules have made of the documentation, nothing
but the last line ends the comment.
-/

open Text

def closer : List Char := ['*', '/']

/-- A line with the text that is shown for it: what would end a comment is written otherwise, and
any other character is kept. -/
inductive Guards : List Char → List Char → Prop
  | nil : Guards [] []
  | closed {rest shown : List Char} (tail : Guards rest shown) :
      Guards ('*' :: '/' :: rest) ('*' :: '&' :: '#' :: '4' :: '7' :: ';' :: shown)
  | kept {c : Char} {rest shown : List Char} (apart : ¬ closer <+: c :: rest)
      (tail : Guards rest shown) : Guards (c :: rest) (c :: shown)

theorem guards_guardLine (line : List Char) : Guards line (guardLine line) := by
  match line with
  | [] => exact .nil
  | c :: rest =>
    by_cases h : closer <+: c :: rest
    · obtain ⟨behind, hbehind⟩ := h
      obtain ⟨rfl, rfl⟩ : '*' = c ∧ '/' :: behind = rest := List.cons.inj hbehind
      have hstep : guardLine ('*' :: '/' :: behind) =
          ['*', '&', '#', '4', '7', ';'] ++ guardLine behind :=
        @substituteFrom_needle '*' ['/'] ['*', '&', '#', '4', '7', ';'] behind
      rw [hstep]
      exact .closed (guards_guardLine behind)
    · have hnot : ¬ ['*', '/'].isPrefixOf (c :: rest) = true := fun hfits =>
        h (List.isPrefixOf_iff_prefix.mp hfits)
      have hstep : guardLine (c :: rest) = c :: guardLine rest := by
        rw [guardLine, substitute, substituteFrom]
        simp only [hnot]
        rfl
      rw [hstep]
      exact .kept h (guards_guardLine rest)
termination_by line.length

namespace Guards

variable {line shown : List Char} (h : Guards line shown)
include h

theorem head?_eq : shown.head? = line.head? := by
  cases h <;> rfl

/-- No part of what is shown ends a comment. -/
theorem not_occurs_closer : ¬ closer <:+: shown := by
  induction h with
  | nil => decide
  | @closed rest shown _ ih =>
      have hsplit : '*' :: '&' :: '#' :: '4' :: '7' :: ';' :: shown =
          ['*', '&', '#', '4', '7'] ++ ';' :: shown := rfl
      rw [hsplit, infix_append_cons_iff (by decide), not_or]
      exact ⟨by decide, ih⟩
  | @kept c rest shown apart tail ih =>
      rw [List.infix_cons_iff, not_or]
      refine ⟨fun hstarts => apart ?_, ih⟩
      -- What begins with a slash is shown for a line that does.
      obtain ⟨rfl, hslash⟩ := List.cons_prefix_cons.mp hstarts
      obtain ⟨behind, hbehind⟩ := hslash
      have hhead : rest.head? = some '/' := by rw [← tail.head?_eq, ← hbehind]; rfl
      obtain ⟨more, rfl⟩ := List.head?_eq_some_iff.mp hhead
      exact ⟨more, rfl⟩

theorem mem_getLast? {c : Char} (hc : c ∈ shown.getLast?) : c = ';' ∨ c ∈ line.getLast? := by
  have hnil {rest shown : List Char} (h : Guards rest shown) (hshown : shown = []) : rest = [] := by
    subst hshown
    cases h
    rfl
  induction h with
  | nil => cases hc
  | @closed rest shown tail ih =>
      rcases List.eq_nil_or_concat' shown with rfl | ⟨init, d, rfl⟩
      · exact Or.inl (by simpa using hc.symm)
      · refine (ih (by simpa [List.getLast?_cons] using hc)).imp_right fun hlast => ?_
        rw [Option.mem_def] at hlast ⊢
        simp [List.getLast?_cons, hlast]
  | @kept c' rest shown _ tail ih =>
      rcases List.eq_nil_or_concat' shown with rfl | ⟨init, d, rfl⟩
      · obtain rfl := hnil tail rfl
        exact Or.inr hc
      · refine (ih (by simpa [List.getLast?_cons] using hc)).imp_right fun hlast => ?_
        rw [Option.mem_def] at hlast ⊢
        simp [List.getLast?_cons, hlast]

theorem tidy (hline : Tidy line) : Tidy shown where
  nonempty := by
    rintro rfl
    cases h
    exact hline.nonempty rfl
  front := by
    rw [h.head?_eq]
    exact hline.front
  back := by
    intro c hc
    rcases h.mem_getLast? hc with rfl | hlast
    · decide +kernel
    · exact hline.back c hlast

theorem notMem_feed (hline : '\n' ∉ line) : '\n' ∉ shown := by
  induction h with
  | nil => exact hline
  | closed _ ih => simpa using ih fun hmem => hline (by simp [hmem])
  | kept _ _ ih =>
      obtain ⟨hne, hrest⟩ := not_or.mp (mt List.mem_cons.mpr hline)
      exact not_or.mpr ⟨hne, ih hrest⟩ ∘ List.mem_cons.mp

end Guards

/-- The lines of a text in which something stands. -/
def solidLines (text : String) : List (List Char) :=
  (lines text.toList).filter fun line => line.any fun c => !Unicode.isBlank c

/-- The lines of the rewritten documentation in which something stands, fragment by fragment. -/
def docSource (w : Rewriting) (doc : Decl.Doc) : List (List Char) :=
  (doc.brief ++ doc.detailed).flatMap fun fragment => solidLines (w.rules.docs.apply fragment)

theorem commentLines_eq (text : String) :
    commentLines text =
      (solidLines text).map fun line => String.ofList (guardLine (trim line)) := by
  have hsolid (line : List Char) :
      (!(trim line).isEmpty) = line.any fun c => !Unicode.isBlank c := by
    rw [Bool.eq_iff_iff, Bool.not_eq_true', List.isEmpty_eq_false_iff, List.any_eq_true,
      Ne, trim_eq_nil_iff]
    simp
  have hkeep : ((fun line : List Char => !line.isEmpty) ∘ trim) =
      fun line => line.any fun c => !Unicode.isBlank c := funext hsolid
  rw [commentLines, List.filter_map, List.map_map, hkeep]
  rfl

theorem docLines_eq (w : Rewriting) (doc : Decl.Doc) :
    w.docLines doc =
      (w.docSource doc).map fun line => String.ofList (guardLine (trim line)) := by
  simp only [docLines, docSource, Decl.Doc.fragments, commentLines_eq, List.map_flatMap]

theorem tidy_of_mem_docSource {w : Rewriting} {doc : Decl.Doc} {line : List Char}
    (h : line ∈ w.docSource doc) : Tidy (trim line) ∧ '\n' ∉ trim line := by
  obtain ⟨fragment, -, hline⟩ := List.mem_flatMap.mp h
  obtain ⟨hmem, hsolid⟩ := List.mem_filter.mp hline
  obtain ⟨c, hc, hnot⟩ := List.any_eq_true.mp hsolid
  exact ⟨tidy_trim_of_mem hc (by simpa using hnot),
    fun hfeed => not_mem_of_mem_lines hmem ((trim_sublist line).subset hfeed)⟩

theorem tidy_of_mem_docLines {w : Rewriting} {doc : Decl.Doc} {line : String}
    (h : line ∈ w.docLines doc) : Tidy line.toList ∧ '\n' ∉ line.toList := by
  rw [docLines_eq] at h
  obtain ⟨source, hsource, rfl⟩ := List.mem_map.mp h
  obtain ⟨htidy, hfeed⟩ := tidy_of_mem_docSource hsource
  have hguards := guards_guardLine (trim source)
  rw [String.toList_ofList]
  exact ⟨hguards.tidy htidy, hguards.notMem_feed hfeed⟩

/-- What stands in front of every line of a comment block. -/
def margin (indent : List Char) : List Char := indent ++ [' ', '*', ' ']

def opening (indent : List Char) : List Char := indent ++ ['/', '*', '*']

def closing (indent : List Char) : List Char := indent ++ [' ', '*', '/']

/-- The lines of a comment block around some lines. -/
def framed (indent : List Char) (inner : List (List Char)) : List (List Char) :=
  opening indent :: inner.map (margin indent ++ ·) ++ [closing indent]

/-- A text of lines, each with a line feed behind it. -/
def ended (rows : List (List Char)) : List Char := rows.flatMap (· ++ ['\n'])

theorem lines_ended {rows : List (List Char)} (hfeed : ∀ row ∈ rows, '\n' ∉ row)
    (hreturn : ∀ row ∈ rows, row.getLast? ≠ some '\r') : lines (ended rows) = rows := by
  induction rows with
  | nil => rfl
  | cons row rows ih =>
      obtain ⟨hrow, hrows⟩ := List.forall_mem_cons.mp hfeed
      obtain ⟨hlast, hlasts⟩ := List.forall_mem_cons.mp hreturn
      have hsplit : ended (row :: rows) = row ++ '\n' :: ended rows := by simp [ended]
      rw [hsplit, lines_append_cons hrow hlast, ih hrows hlasts]

theorem toList_commentBlock {indent : String} {shown : List String} (h : shown ≠ []) :
    (commentBlock indent shown).toList =
      ended (framed indent.toList (shown.map String.toList)) := by
  have hjoin (rows : List String) : (String.join rows).toList = rows.flatMap String.toList := by
    induction rows with
    | nil => rfl
    | cons row rows ih => rw [String.join_cons, String.toList_append, ih, List.flatMap_cons]
  have hempty : shown.isEmpty = false := List.isEmpty_eq_false_iff.mpr h
  rw [commentBlock, hempty]
  simp [hjoin, ended, framed, opening, margin, closing, List.flatMap_map]

theorem commentBlock_eq_empty_iff (indent : String) (shown : List String) :
    commentBlock indent shown = "" ↔ shown = [] := by
  constructor
  · intro h
    by_contra hne
    have htext := congrArg String.toList h
    rw [toList_commentBlock hne] at htext
    simp [ended, framed] at htext
  · rintro rfl
    rfl

section Closing

variable {indent : List Char} (hindent : ∀ c ∈ indent, c = ' ')
include hindent

theorem notMem_indent {c : Char} (hc : c ≠ ' ') : c ∉ indent := fun hmem => hc (hindent c hmem)

theorem occurrences_indent : occurrences closer indent = 0 := by
  rw [occurrences_eq_zero_iff (by decide)]
  exact fun h => notMem_indent hindent (by decide : '*' ≠ ' ') (h.subset (by decide))

theorem occurrences_margin {line : List Char} (h : ¬ closer <:+: line) :
    occurrences closer (margin indent ++ line) = 0 := by
  have hsplit : margin indent ++ line = indent ++ ' ' :: (['*'] ++ ' ' :: line) := by simp [margin]
  have hline := (occurrences_eq_zero_iff (by decide) line).mpr h
  rw [hsplit, occurrences_append_cons (by decide) (by decide), occurrences_indent hindent,
    occurrences_append_cons (by decide) (by decide), hline]
  rfl

theorem occurrences_opening : occurrences closer (opening indent) = 0 := by
  rw [occurrences_eq_zero_iff (by decide), opening, closer,
    infix_append_iff_of_notMem (notMem_indent hindent (by decide))]
  decide

theorem occurrences_closing : occurrences closer (closing indent) = 1 := by
  have hsplit : closing indent = indent ++ ' ' :: closer := rfl
  rw [hsplit, occurrences_append_cons (by decide) (by decide), occurrences_indent hindent]
  rfl

end Closing

/-- Lines that do not end a comment count for nothing. -/
theorem occurrences_ended {rows : List (List Char)} (h : ∀ row ∈ rows, occurrences closer row = 0)
    (more : List (List Char)) :
    occurrences closer (ended (rows ++ more)) = occurrences closer (ended more) := by
  induction rows with
  | nil => rfl
  | cons row rows ih =>
      obtain ⟨hrow, hrows⟩ := List.forall_mem_cons.mp h
      have hsplit : ended (row :: rows ++ more) = row ++ '\n' :: ended (rows ++ more) := by
        simp [ended]
      rw [hsplit, occurrences_append_cons (by decide) (by decide), hrow, ih hrows, Nat.zero_add]

/-- The last line of a block ends the comment, and none before it does. -/
theorem occurrences_framed {indent : List Char} (hindent : ∀ c ∈ indent, c = ' ')
    {inner : List (List Char)} (hinner : ∀ line ∈ inner, ¬ closer <:+: line) :
    occurrences closer (ended (framed indent inner)) = 1 := by
  have hrows : ∀ row ∈ opening indent :: inner.map (margin indent ++ ·),
      occurrences closer row = 0 := by
    refine List.forall_mem_cons.mpr ⟨occurrences_opening hindent, ?_⟩
    intro row hrow
    obtain ⟨line, hline, rfl⟩ := List.mem_map.mp hrow
    exact occurrences_margin hindent (hinner line hline)
  have hlast : ended [closing indent] = closing indent ++ '\n' :: [] := by simp [ended]
  rw [framed, occurrences_ended hrows, hlast, occurrences_append_cons (by decide) (by decide),
    occurrences_closing hindent]
  rfl

theorem lines_framed {indent : List Char} (hindent : ∀ c ∈ indent, c = ' ')
    {inner : List (List Char)} (hfeed : ∀ line ∈ inner, '\n' ∉ line)
    (htidy : ∀ line ∈ inner, Tidy line) :
    lines (ended (framed indent inner)) = framed indent inner := by
  have hspaces : '\n' ∉ indent := notMem_indent hindent (by decide)
  have hreturn : Unicode.isBlank '\r' = true := by decide +kernel
  have hrows {P : List Char → Prop} (hopening : P (opening indent)) (hclosing : P (closing indent))
      (hline : ∀ line ∈ inner, P (margin indent ++ line)) : ∀ row ∈ framed indent inner, P row := by
    intro row hrow
    rcases List.mem_append.mp hrow with hrow | hrow
    · rcases List.mem_cons.mp hrow with rfl | hrow
      · exact hopening
      · obtain ⟨line, hmem, rfl⟩ := List.mem_map.mp hrow
        exact hline line hmem
    · obtain rfl := List.mem_singleton.mp hrow
      exact hclosing
  apply lines_ended
  · refine hrows (by simp [opening, hspaces]) (by simp [closing, hspaces]) fun line hline => ?_
    simp [margin, hspaces, hfeed line hline]
  · refine hrows (by simp [opening]) (by simp [closing]) fun line hline hlast => ?_
    rw [List.getLast?_append_of_ne_nil _ (htidy line hline).nonempty] at hlast
    have hback := (htidy line hline).back '\r' hlast
    rw [hreturn] at hback
    cases hback

/-- Documentation is shown as nothing if it is blank line by line, and otherwise as one closed
comment. The comment has a line for every line in which something stands, tidy and guarded, between
a line that opens it and one that closes it, and is ended there and nowhere else. -/
theorem javadoc_closed_comment (w : Rewriting) (doc : Decl.Doc) (indent : String)
    (hindent : ∀ c ∈ indent.toList, c = ' ') :
    (w.javadoc doc indent = "" ↔ ∀ fragment ∈ doc.brief ++ doc.detailed,
        ∀ line ∈ lines (w.rules.docs.apply fragment).toList, ∀ c ∈ line,
          Unicode.isBlank c = true) ∧
      (w.javadoc doc indent ≠ "" → ∃ inner,
        List.Forall₂ (fun line shown => Guards (trim line) shown) (w.docSource doc) inner ∧
        (∀ shown ∈ inner, Tidy shown) ∧
        (w.javadoc doc indent).toList = ended (framed indent.toList inner) ∧
        lines (w.javadoc doc indent).toList = framed indent.toList inner ∧
        occurrences closer (w.javadoc doc indent).toList = 1 ∧
        closer ++ ['\n'] <:+ (w.javadoc doc indent).toList) := by
  refine ⟨?_, fun hne => ?_⟩
  · rw [javadoc, commentBlock_eq_empty_iff, docLines_eq, List.map_eq_nil_iff, docSource,
      List.flatMap_eq_nil_iff]
    simp [solidLines, List.filter_eq_nil_iff]
  · let inner := (w.docSource doc).map fun line => guardLine (trim line)
    have hshown : (w.docLines doc).map String.toList = inner := by
      simp [inner, docLines_eq, Function.comp_def]
    have htext : (w.javadoc doc indent).toList = ended (framed indent.toList inner) := by
      rw [javadoc, toList_commentBlock, hshown]
      rintro hnil
      exact hne (by rw [javadoc, hnil]; rfl)
    have hinner {P : List Char → Prop} (h : ∀ line ∈ w.docSource doc, P (guardLine (trim line))) :
        ∀ shown ∈ inner, P shown := by
      intro shown hmem
      obtain ⟨line, hline, rfl⟩ := List.mem_map.mp hmem
      exact h line hline
    have htidy : ∀ shown ∈ inner, Tidy shown := hinner fun line hline =>
      (guards_guardLine (trim line)).tidy (tidy_of_mem_docSource hline).1
    have hfeed : ∀ shown ∈ inner, '\n' ∉ shown := hinner fun line hline =>
      (guards_guardLine (trim line)).notMem_feed (tidy_of_mem_docSource hline).2
    refine ⟨inner, ?_, htidy, htext, ?_, ?_, ?_⟩
    · rw [List.forall₂_map_right_iff]
      exact List.forall₂_same.mpr fun line _ => guards_guardLine (trim line)
    · rw [htext, lines_framed hindent hfeed htidy]
    · rw [htext]
      exact occurrences_framed hindent (hinner fun line _ =>
        (guards_guardLine (trim line)).not_occurs_closer)
    · rw [htext]
      exact ⟨ended (opening indent.toList :: inner.map (margin indent.toList ++ ·)) ++
        indent.toList ++ [' '], by simp [ended, framed, closing, closer]⟩

/-- Rules for documentation that write the second sign of what ends a comment. -/
def slashing : Rewriting :=
  ⟨{ Rules.PerTable.replicate [] with docs := Rules.Standard.tableOf [("x", "/")] }, ""⟩

/-- Ends of comments that a rule completes, at both ends of a line and in a row, and blank lines. -/
def starred : Decl.Doc := ⟨["*x a\n \n**xx"], ["\r\n/ b*/\t"]⟩

theorem javadoc_closed_comment_slashing :
    (∀ c ∈ "  ".toList, c = ' ') ∧
      slashing.javadoc starred "  " =
        "  /**\n   * *&#47; a\n   * **&#47;/\n   * / b*&#47;\n   */\n" ∧
      (¬ ∀ fragment ∈ starred.brief ++ starred.detailed,
        ∀ line ∈ lines (slashing.rules.docs.apply fragment).toList, ∀ c ∈ line,
          Unicode.isBlank c = true) ∧
      occurrences closer (slashing.javadoc starred "  ").toList = 1 := by
  have hindent : ∀ c ∈ "  ".toList, c = ' ' := by decide
  obtain ⟨hempty, hblock⟩ := javadoc_closed_comment slashing starred "  " hindent
  have hlines : slashing.docLines starred = ["*&#47; a", "**&#47;/", "/ b*&#47;"] := by
    have hdocs (text : String) : slashing.rules.docs.apply text =
        String.ofList (Rules.Standard.replaceWith ['x'] ['/'] text.toList) :=
      Rules.Standard.apply_tableOf [("x", "/")] text
    simp only [docLines, hdocs]
    decide +kernel
  have htext : slashing.javadoc starred "  " =
      "  /**\n   * *&#47; a\n   * **&#47;/\n   * / b*&#47;\n   */\n" := by
    rw [javadoc, hlines]
    decide +kernel
  have hne : slashing.javadoc starred "  " ≠ "" := by
    rw [htext]
    decide
  obtain ⟨_, -, -, -, -, honce, -⟩ := hblock hne
  exact ⟨hindent, htext, fun hall => hne (hempty.mpr hall), honce⟩

end ClassSkeleton.Skeleton.Rewriting
