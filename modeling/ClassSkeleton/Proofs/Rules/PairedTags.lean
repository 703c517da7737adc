import ClassSkeleton.Proofs.Rules.Documentation
import ClassSkeleton.Proofs.Rules.Following

namespace ClassSkeleton.Rules

/-!
# Tags that are renamed in pairs

Lists and fonts are written with two tags each, and each of the two has a rule of its own. The rule
for a tag that ends an element renames every one; the rule for a tag that begins an element renames
those without attributes only. So tags come out in pairs where no element has attributes.
-/

open Pattern Text
open Markup hiding Node

/-- What the tags of an element are renamed to. -/
def tagNames : List (String × String) := [
  ("bold", "b"),
  ("italic", "i"),
  ("emphasis", "em"),
  ("computeroutput", "code"),
  ("itemizedlist", "ul"),
  ("orderedlist", "ol"),
  ("listitem", "li")]

/-- The bodies of tags that are renamed, each with what it becomes. -/
def renamings : List (List Char × List Char) := tagNames.flatMap fun names =>
  [(names.1.toList, names.2.toList), ('/' :: names.1.toList, '/' :: names.2.toList)]

def renamedWords : List (List Char) := renamings.flatMap fun pair => [pair.1, pair.2]

def rename (pair : List Char × List Char) (body : List Char) : List Char :=
  if body = pair.1 then pair.2 else body

def renameToken (pair : List Char × List Char) : Token → Token
  | .tag body => .tag (rename pair body)
  | .text signs => .text signs

section Renaming

variable {pair : List Char × List Char} {z : List Token}

theorem prefix_tag_iff {word body : List Char} (hword : '>' ∉ word) (hbody : '>' ∉ body)
    (rest : List Char) :
    '<' :: (word ++ ['>']) <+: '<' :: (body ++ '>' :: rest) ↔ body = word := by
  rw [List.cons_prefix_cons]
  constructor
  · rintro ⟨-, tail, htail⟩
    rw [List.append_assoc] at htail
    obtain ⟨rfl, -⟩ := Text.append_inj_of_forall (p := (· != '>')) htail
      (fun c hc => bne_iff_ne.mpr fun heq => hword (heq ▸ hc)) (by simp)
      (fun c hc => bne_iff_ne.mpr fun heq => hbody (heq ▸ hc)) (by simp)
    rfl
  · rintro rfl
    exact ⟨rfl, rest, by simp⟩

/-- To substitute for a tag is to rename it. -/
theorem substituteFrom_spell (hword : '>' ∉ pair.1) (hz : Whole z) :
    substituteFrom ('<' :: (pair.1 ++ ['>'])) ('<' :: (pair.2 ++ ['>'])) 0 (spell z) =
      spell (z.map (renameToken pair)) := by
  induction z with
  | nil => rfl
  | cons t z ih =>
      obtain ⟨ht, hrest⟩ := List.forall_mem_cons.mp hz
      cases t with
      | text signs =>
          have hless : '<' ∉ signs := fun hmem => (ht '<' hmem).1 rfl
          rw [spell_text, substituteFrom_append hless, ih hrest]
          rfl
      | tag body =>
          have hbody : '>' ∉ body := ht.notMem_close
          have hless : '<' ∉ body ++ ['>'] := by simp [ht.notMem_open]
          rw [List.map_cons, renameToken, spell_tag, spell_tag, rename, ← ih hrest]
          by_cases hsame : body = pair.1
          · subst hsame
            have hneedle := @substituteFrom_needle '<' (pair.1 ++ ['>']) ('<' :: (pair.2 ++ ['>']))
              (spell z)
            rw [if_pos rfl]
            simpa using hneedle
          · have hnot : ¬ ('<' :: (pair.1 ++ ['>'])).isPrefixOf
                ('<' :: (body ++ '>' :: spell z)) = true := by
              rw [List.isPrefixOf_iff_prefix, prefix_tag_iff hword hbody]
              exact hsame
            have hpass := @substituteFrom_append '<' (pair.1 ++ ['>'])
              ('<' :: (pair.2 ++ ['>'])) (body ++ ['>']) hless (spell z)
            rw [List.append_assoc, List.singleton_append] at hpass
            rw [if_neg hsame, substituteFrom]
            simp only [if_neg hnot, hpass, List.append_assoc, List.singleton_append]

theorem whole_map_renameToken (hbecomes : (Token.tag pair.2).Whole) (hz : Whole z) :
    Whole (z.map (renameToken pair)) := by
  intro t ht
  obtain ⟨s, hs, rfl⟩ := List.mem_map.mp ht
  have hwhole := hz s hs
  cases s with
  | text signs => exact hwhole
  | tag body =>
      rw [renameToken, rename]
      split
      · exact hbecomes
      · exact hwhole

theorem watched_map_renameToken {words : List (List Char)} (hfirst : pair.1 ∈ words)
    (hsecond : pair.2 ∈ words) (z : List Token) :
    watched words (z.map (renameToken pair)) = (watched words z).map (rename pair) := by
  induction z with
  | nil => rfl
  | cons t z ih =>
      rw [List.map_cons, watched_cons, watched_cons, ih, List.map_append]
      congr 1
      cases t with
      | text signs => rfl
      | tag body =>
          rw [renameToken, Token.watched, Token.watched, rename]
          by_cases hsame : body = pair.1
          · subst hsame
            simp [wordOf, hfirst, hsecond, rename]
          · rw [if_neg hsame]
            by_cases hbody : body ∈ words <;> simp [wordOf, hbody, rename, hsame]

/-- Whether an entry puts one tag in the place of another. -/
def renamesTag (x : Node) (parts : List Part) (pair : List Char × List Char) : Bool :=
  x.isPlain && x.words? == some ['<' :: (pair.1 ++ ['>'])] &&
    around?.literal? parts == some ('<' :: (pair.2 ++ ['>']))

theorem replaceMatches_of_renamesTag {x : Node} {parts : List Part}
    (h : renamesTag x parts pair = true) (hword : '>' ∉ pair.1) (names : List (String × Nat))
    (hz : Whole z) :
    replaceMatches x.matchAt? (Template.expand names parts) (spell z) =
      spell (z.map (renameToken pair)) := by
  simp only [renamesTag, Bool.and_eq_true, beq_iff_eq] at h
  obtain ⟨⟨hplain, hwords⟩, hliteral⟩ := h
  rw [← substituteFrom_spell hword hz, replaceMatches]
  exact replaceFrom_of_word (Node.matchAt?_of_word hwords hplain)
    (expand_of_literal? hliteral) [] 0 false (spell z)

end Renaming

namespace Standard

/-- What an entry does to the tags that are renamed: it renames one of them, or none. -/
def effect? (entry : String × String) : Option (Option (List Char × List Char)) :=
  match Grammar.read? entry.1.toList with
  | none => some none
  | some (x, _) =>
    let parts := Template.parts entry.2.toList
    match renamings.find? (renamesTag x parts) with
    | some pair => some (some pair)
    | none =>
      if keepsPlaces renamedWords x parts || keepsLast renamedWords x parts then some none else none

def applyEffect (effect : Option (List Char × List Char)) (body : List Char) : List Char :=
  effect.elim body (rename · body)

def applyEffects (effects : List (Option (List Char × List Char))) (body : List Char) :
    List Char := effects.foldl (fun body effect => applyEffect effect body) body

/-- The effects of the rules for documentation, read off the texts of their patterns. -/
def docEffects : List (Option (List Char × List Char)) := docs.map fun entry =>
  renamings.find? fun pair => entry.1.toList = '<' :: (pair.1 ++ ['>'])

section Effects

variable {entry : String × String} {entries : Entries} {z : List Token}

theorem whole_of_mem_renamedWords : ∀ word ∈ renamedWords, (Token.tag word).Whole := by
  have hall : ∀ word ∈ renamedWords, (∀ c ∈ word, c ≠ '<' ∧ c ≠ '>') ∧ word.count '"' % 2 = 0 := by
    decide +kernel
  exact hall

theorem quoteless_renamedWords : ∀ word ∈ renamedWords, '"' ∉ word := by decide +kernel

theorem mem_renamedWords {pair : List Char × List Char} (h : pair ∈ renamings) :
    pair.1 ∈ renamedWords ∧ pair.2 ∈ renamedWords :=
  ⟨List.mem_flatMap.mpr ⟨pair, h, by simp⟩, List.mem_flatMap.mpr ⟨pair, h, by simp⟩⟩

theorem exists_whole_replaceWith {effect : Option (List Char × List Char)}
    (h : effect? entry = some effect) (hz : Whole z) :
    ∃ y, Whole y ∧ replaceWith entry.1.toList entry.2.toList (spell z) = spell y ∧
      watched renamedWords y = (watched renamedWords z).map (applyEffect effect) := by
  have hsame : (watched renamedWords z).map (applyEffect none) = watched renamedWords z :=
    List.map_id _
  rw [replaceWith]
  unfold effect? at h
  cases hread : Grammar.read? entry.1.toList with
  | none =>
      rw [hread] at h
      obtain rfl := Option.some.inj h
      exact ⟨z, hz, rfl, hsame.symm⟩
  | some found =>
      obtain ⟨x, names⟩ := found
      simp only [hread] at h ⊢
      cases hfind : renamings.find? (renamesTag x (Template.parts entry.2.toList)) with
      | some pair =>
          simp only [hfind] at h
          obtain rfl := Option.some.inj h
          obtain ⟨hfirst, hsecond⟩ := mem_renamedWords (List.mem_of_find?_eq_some hfind)
          have hword : '>' ∉ pair.1 := (whole_of_mem_renamedWords _ hfirst).notMem_close
          exact ⟨z.map (renameToken pair),
            whole_map_renameToken (whole_of_mem_renamedWords _ hsecond) hz,
            replaceMatches_of_renamesTag (List.find?_some hfind) hword names hz,
            watched_map_renameToken hfirst hsecond z⟩
      | none =>
          simp only [hfind] at h
          split at h
          · next hkeeps =>
              obtain rfl := Option.some.inj h
              have hplaces : KeepsPlaces renamedWords x.matchAt?
                  (Template.expand names (Template.parts entry.2.toList)) := by
                rcases (Bool.or_eq_true _ _).mp hkeeps with hkeeps | hkeeps
                · exact keepsPlaces_of_keepsPlaces hkeeps names
                · exact keepsPlaces_of_keepsLast hkeeps names
              have hout : Place.out ∈ places renamedWords := List.mem_cons_self
              have hrun := hplaces.runs_replaceFrom hout
                (runs_spell quoteless_renamedWords hz) [] false
              obtain ⟨y, hy, hspell, hwatched⟩ :=
                exists_tokens_of_runs quoteless_renamedWords hrun
              exact ⟨y, hy, hspell.symm, hwatched.trans hsame.symm⟩
          · cases h

/-- Entries whose effects are known do to the tags that are renamed what these say. -/
theorem exists_whole_replaceAllWith {effects : List (Option (List Char × List Char))}
    (h : entries.map effect? = effects.map some) (hz : Whole z) :
    ∃ y, Whole y ∧ replaceAllWith entries (spell z) = spell y ∧
      watched renamedWords y = (watched renamedWords z).map (applyEffects effects) := by
  induction entries generalizing z effects with
  | nil =>
      obtain rfl : effects = [] := by simpa using h.symm
      exact ⟨z, hz, rfl, (List.map_id _).symm⟩
  | cons entry entries ih =>
      cases effects with
      | nil => cases h
      | cons effect effects =>
          obtain ⟨hentry, hentries⟩ := List.cons.inj h
          obtain ⟨y, hy, hspell, hwatched⟩ := exists_whole_replaceWith hentry hz
          obtain ⟨w, hw, hall, hwords⟩ := ih hentries hy
          refine ⟨w, hw, ?_, ?_⟩
          · rw [replaceAllWith, List.foldl_cons, hspell]
            exact hall
          · rw [hwords, hwatched, List.map_map]
            rfl

theorem docs_effects : docs.map effect? = docEffects.map some := by
  show docs.map (fun entry => effect? entry) = _
  simp only [effect?, docEffects, ← chars_eq_toList]
  decide +kernel

/-- Of the words that are renamed, one becomes what another is renamed to only by that renaming. -/
theorem applyEffects_docEffects : ∀ pair ∈ renamings, ∀ word ∈ renamedWords,
    applyEffects docEffects word = pair.2 ↔ word = pair.1 ∨ word = pair.2 := by
  decide +kernel

end Effects

end Standard

section Counting

theorem occurrences_append_of_notMem {first : Char} {word front : List Char} (h : first ∉ front)
    (back : List Char) :
    occurrences (first :: word) (front ++ back) = occurrences (first :: word) back := by
  induction front with
  | nil => rfl
  | cons c front ih =>
      obtain ⟨hne, hfront⟩ := not_or.mp (mt List.mem_cons.mpr h)
      have hnot : (first :: word).isPrefixOf (c :: (front ++ back)) = false := by
        simp [List.isPrefixOf, hne]
      rw [List.cons_append, occurrences, hnot, ih hfront]
      simp

/-- A tag occurs in markup as often as it is one of the tokens. -/
theorem occurrences_spell {word : List Char} (hword : '>' ∉ word) {z : List Token} (hz : Whole z) :
    occurrences ('<' :: (word ++ ['>'])) (spell z) = z.count (.tag word) := by
  induction z with
  | nil => rfl
  | cons t z ih =>
      obtain ⟨ht, hrest⟩ := List.forall_mem_cons.mp hz
      cases t with
      | text signs =>
          have hless : '<' ∉ signs := fun hmem => (ht '<' hmem).1 rfl
          rw [spell_text, occurrences_append_of_notMem hless, ih hrest, List.count_cons_of_ne]
          simp
      | tag body =>
          have hbody : '>' ∉ body := ht.notMem_close
          have hless : '<' ∉ body ++ ['>'] := by simp [ht.notMem_open]
          have hpass := @occurrences_append_of_notMem '<' (word ++ ['>']) _ hless (spell z)
          rw [List.append_assoc, List.singleton_append] at hpass
          have hstarts : ('<' :: (word ++ ['>'])).isPrefixOf ('<' :: (body ++ '>' :: spell z)) =
              decide (body = word) := by
            rw [Bool.eq_iff_iff, List.isPrefixOf_iff_prefix, prefix_tag_iff hword hbody,
              decide_eq_true_iff]
          rw [spell_tag, occurrences, hstarts, hpass, ih hrest, List.count_cons]
          by_cases hsame : body = word <;> simp [hsame, Nat.add_comm]

theorem count_watched {words : List (List Char)} {word : List Char} (hword : word ∈ words)
    (z : List Token) : (watched words z).count word = z.count (.tag word) := by
  induction z with
  | nil => rfl
  | cons t z ih =>
      rw [watched_cons, List.count_append, ih, List.count_cons, Nat.add_comm]
      congr 1
      cases t with
      | text signs => rfl
      | tag body =>
          rw [Token.watched, wordOf]
          by_cases hsame : body = word
          · subst hsame
            simp [hword]
          · split <;> simp [hsame]

theorem mem_of_mem_watched {words : List (List Char)} {word : List Char} {z : List Token}
    (h : word ∈ watched words z) : word ∈ words := by
  obtain ⟨t, -, ht⟩ := List.mem_flatMap.mp h
  cases t with
  | text signs => cases ht
  | tag body =>
      rw [Token.watched, wordOf] at ht
      split at ht
      · next hbody =>
          obtain rfl := List.mem_singleton.mp ht
          exact List.contains_iff_mem.mp hbody
      · cases ht

/-- Where a translation makes two words one, that one comes out as often as both went in. -/
theorem count_map_of_iff {f : List Char → List Char} {first second : List Char}
    (hne : first ≠ second) {found : List (List Char)}
    (hf : ∀ word ∈ found, f word = second ↔ word = first ∨ word = second) :
    (found.map f).count second = found.count first + found.count second := by
  induction found with
  | nil => rfl
  | cons word found ih =>
      obtain ⟨hword, hrest⟩ := List.forall_mem_cons.mp hf
      rw [List.map_cons, List.count_cons, ih hrest, List.count_cons, List.count_cons]
      by_cases hfirst : word = first
      · subst hfirst
        have himage : f word = second := hword.mpr (Or.inl rfl)
        simp [himage, hne]
        omega
      · by_cases hsecond : word = second
        · subst hsecond
          have himage : f word = word := hword.mpr (Or.inr rfl)
          simp [himage, hfirst]
          omega
        · have himage : f word ≠ second := fun heq => (hword.mp heq).elim hfirst hsecond
          simp [himage, hfirst, hsecond]

end Counting

section Trees

theorem whole_content {tag : Tag} (h : tag.PlainlyNamed) {tail : List Char}
    (htail : tail = [] ∨ tail = ['/']) : (Token.tag (tag.content ++ tail)).Whole := by
  have hcontent := h.noAngle_content
  have hpaired := h.paired_content
  rcases htail with rfl | rfl
  · rw [List.append_nil]
    exact ⟨hcontent, hpaired⟩
  · refine ⟨List.forall_mem_append.mpr ⟨hcontent, by simp⟩, ?_⟩
    simpa [List.count_append] using hpaired

theorem whole_end {tag : Tag} (h : tag.PlainlyNamed) :
    (Token.tag ('/' :: tag.name.toList)).Whole := by
  refine ⟨List.forall_mem_cons.mpr ⟨by decide, fun c hc => (h.name.ne_of_mem hc).2.2⟩, ?_⟩
  rw [List.count_cons_of_ne (by decide), h.name.count_quote]

theorem whole_text (s : String) : (Token.text (escape false s.toList)).Whole := by
  intro c hc
  refine ⟨?_, ?_⟩
  · rintro rfl
    exact not_mem_escape (Or.inl rfl) _ hc
  · rintro rfl
    exact not_mem_escape (Or.inr (Or.inl rfl)) _ hc

mutual

theorem whole_tokens : ∀ {node : Markup.Node}, node.PlainlyNamed → Whole node.tokens
  | .text s, _ => List.forall_mem_singleton.mpr (whole_text s)
  | .element tag [], h => List.forall_mem_singleton.mpr (whole_content h.1 (Or.inr rfl))
  | .element tag (child :: rest), h => by
    have hopen := whole_content h.1 (Or.inl rfl)
    rw [List.append_nil] at hopen
    refine List.forall_mem_cons.mpr ⟨hopen, List.forall_mem_append.mpr ⟨?_, ?_⟩⟩
    · exact List.forall_mem_append.mpr ⟨whole_tokens h.2.1, whole_allTokens h.2.2⟩
    · exact List.forall_mem_singleton.mpr (whole_end h.1)

theorem whole_allTokens : ∀ {nodes : List Markup.Node}, Markup.Node.AllPlainlyNamed nodes →
    Whole (Markup.Node.allTokens nodes)
  | [], _ => List.forall_mem_nil _
  | _ :: _, h => List.forall_mem_append.mpr ⟨whole_tokens h.1, whole_allTokens h.2⟩

end

/-- The elements of a name in a tree that have something in them. -/
def filled (name : String) (node : Markup.Node) : List Element :=
  (node.named name).filter fun e => !e.children.isEmpty

def allFilled (name : String) (nodes : List Markup.Node) : List Element :=
  (Markup.Node.allNamed name nodes).filter fun e => !e.children.isEmpty

variable {name : String}

theorem filled_element (name : String) (tag : Tag) (child : Markup.Node)
    (rest : List Markup.Node) : filled name (.element tag (child :: rest)) =
      (if tag.name = name then [⟨tag, child :: rest⟩] else []) ++
        allFilled name (child :: rest) := by
  rw [filled, Markup.Node.named, List.filter_append, ← allFilled]
  split <;> rfl

theorem allFilled_cons (name : String) (node : Markup.Node) (rest : List Markup.Node) :
    allFilled name (node :: rest) = filled name node ++ allFilled name rest := by
  rw [allFilled, Markup.Node.allNamed, List.filter_append, ← filled, ← allFilled]

theorem content_eq_iff (hspace : ' ' ∉ name.toList) (tag : Tag) :
    tag.content = name.toList ↔ tag.name = name ∧ tag.attributes = [] := by
  rw [Tag.content]
  constructor
  · intro h
    cases hattributes : tag.attributes with
    | nil =>
        rw [hattributes, List.flatMap_nil, List.append_nil] at h
        exact ⟨String.toList_inj.mp h, rfl⟩
    | cons pair pairs =>
        rw [hattributes] at h
        exact absurd (h ▸ by simp [attributeText]) hspace
  · rintro ⟨rfl, hattributes⟩
    rw [hattributes, List.flatMap_nil, List.append_nil]

theorem count_single (hslash : '/' ∉ name.toList) {tag : Tag} (h : tag.PlainlyNamed)
    (word : List Char) (hword : word = name.toList ∨ word = '/' :: name.toList) :
    [Token.tag (tag.content ++ ['/'])].count (.tag word) = 0 := by
  rw [List.count_eq_zero]
  intro hmem
  have hbody : word = tag.content ++ ['/'] := by simpa using hmem
  rcases hword with rfl | rfl
  · exact hslash (hbody ▸ by simp)
  · exact h.content_append_ne_end ['/'] name.toList hbody.symm

theorem count_opened (hspace : ' ' ∉ name.toList) (tag : Tag) :
    [Token.tag tag.content].count (.tag name.toList) =
      if tag.name = name then [tag.attributes.isEmpty].count true else 0 := by
  have hiff := content_eq_iff hspace tag
  by_cases hname : tag.name = name
  · cases hattributes : tag.attributes <;> simp_all
  · simp_all

theorem count_closed (name : String) (tag : Tag) :
    [Token.tag ('/' :: tag.name.toList)].count (.tag ('/' :: name.toList)) =
      if tag.name = name then 1 else 0 := by
  simp [List.count_singleton, String.toList_inj]

mutual

theorem count_tokens (hslash : '/' ∉ name.toList) (hspace : ' ' ∉ name.toList) :
    ∀ {node : Markup.Node}, node.PlainlyNamed →
    node.tokens.count (.tag name.toList) =
        (filled name node).countP (·.tag.attributes.isEmpty) ∧
      node.tokens.count (.tag ('/' :: name.toList)) = (filled name node).length
  | .text _, _ => ⟨rfl, rfl⟩
  | .element tag [], h => by
    have hnone : filled name (.element tag []) = [] := by
      rw [filled, Markup.Node.named]
      split <;> rfl
    rw [hnone]
    exact ⟨count_single hslash h.1 _ (Or.inl rfl), count_single hslash h.1 _ (Or.inr rfl)⟩
  | .element tag (child :: rest), h => by
    obtain ⟨hopens, hcloses⟩ := count_tokens hslash hspace h.2.1
    obtain ⟨hrestOpens, hrestCloses⟩ := count_allTokens hslash hspace h.2.2
    have hopened := count_opened hspace tag
    have hclosed := count_closed name tag
    have hstart : [Token.tag tag.content].count (.tag ('/' :: name.toList)) = 0 := by
      have hne := h.1.content_append_ne_end [] name.toList
      rw [List.append_nil] at hne
      simpa [List.count_eq_zero] using hne.symm
    have hend : [Token.tag ('/' :: tag.name.toList)].count (.tag name.toList) = 0 := by
      have hne : '/' :: tag.name.toList ≠ name.toList := fun heq =>
        hslash (heq ▸ List.mem_cons_self)
      simpa [List.count_eq_zero] using hne.symm
    rw [filled_element, allFilled_cons, Markup.Node.tokens, ← List.singleton_append]
    simp only [List.count_append, List.countP_append, List.length_append, hopens, hcloses,
      hrestOpens, hrestCloses, hopened, hclosed, hstart, hend]
    by_cases hname : tag.name = name
    · cases hattributes : tag.attributes <;> simp [hname, hattributes] <;> omega
    · simp [hname]

theorem count_allTokens (hslash : '/' ∉ name.toList) (hspace : ' ' ∉ name.toList) :
    ∀ {nodes : List Markup.Node}, Markup.Node.AllPlainlyNamed nodes →
    (Markup.Node.allTokens nodes).count (.tag name.toList) =
        (allFilled name nodes).countP (·.tag.attributes.isEmpty) ∧
      (Markup.Node.allTokens nodes).count (.tag ('/' :: name.toList)) =
        (allFilled name nodes).length
  | [], _ => ⟨rfl, rfl⟩
  | node :: rest, h => by
    obtain ⟨hopens, hcloses⟩ := count_tokens hslash hspace h.1
    obtain ⟨hrestOpens, hrestCloses⟩ := count_allTokens hslash hspace h.2
    rw [allFilled_cons, Markup.Node.allTokens, List.count_append, List.count_append,
      List.countP_append, List.length_append, hopens, hcloses, hrestOpens, hrestCloses]
    exact ⟨rfl, rfl⟩

end

end Trees

theorem tagNames_plain : ∀ names ∈ tagNames,
    ('/' ∉ names.1.toList ∧ ' ' ∉ names.1.toList) ∧ '/' ∉ names.2.toList ∧
      ' ' ∉ names.2.toList := by
  decide +kernel

theorem mem_renamings {names : String × String} (h : names ∈ tagNames) :
    (names.1.toList, names.2.toList) ∈ renamings ∧
      ('/' :: names.1.toList, '/' :: names.2.toList) ∈ renamings :=
  ⟨List.mem_flatMap.mpr ⟨names, h, by simp⟩, List.mem_flatMap.mpr ⟨names, h, by simp⟩⟩

theorem ne_of_mem_renamings : ∀ pair ∈ renamings, pair.1 ≠ pair.2 := by decide +kernel

/-- A tag that is renamed comes out as often as the tree has it under either name. -/
theorem occurrences_docs {pair : List Char × List Char} (hpair : pair ∈ renamings)
    {z : List Token} (hz : Whole z) :
    occurrences ('<' :: (pair.2 ++ ['>'])) (Standard.replaceAllWith Standard.docs (spell z)) =
      z.count (.tag pair.1) + z.count (.tag pair.2) := by
  obtain ⟨hfirst, hsecond⟩ := Standard.mem_renamedWords hpair
  have hword : '>' ∉ pair.2 := (Standard.whole_of_mem_renamedWords _ hsecond).notMem_close
  have hne := ne_of_mem_renamings pair hpair
  obtain ⟨y, hy, hspell, hwatched⟩ :=
    Standard.exists_whole_replaceAllWith Standard.docs_effects hz
  rw [hspell, occurrences_spell hword hy, ← count_watched hsecond, hwatched,
    count_map_of_iff hne fun word hmem =>
      Standard.applyEffects_docEffects pair hpair word (mem_of_mem_watched hmem),
    count_watched hfirst, count_watched hsecond]

/-- How often the tags of lists and fonts come out: the one that begins an element as often as the
tree has an element of that name with something in it and without attributes, the one that ends it
as often as the tree has one with something in it. So there are as many of the one as of the other
just where no such element has attributes. -/
theorem occurrences_apply_docs (e : Element) (hnames : e.toNode.PlainlyNamed)
    (hfresh : ∀ names ∈ tagNames, e.toNode.named names.2 = []) :
    ∀ names ∈ tagNames,
      occurrences ("<" ++ names.2 ++ ">").toList (standard.docs.apply e.toXml).toList =
          (filled names.1 e.toNode).countP (·.tag.attributes.isEmpty) ∧
        occurrences ("</" ++ names.2 ++ ">").toList (standard.docs.apply e.toXml).toList =
          (filled names.1 e.toNode).length ∧
        (occurrences ("<" ++ names.2 ++ ">").toList (standard.docs.apply e.toXml).toList =
            occurrences ("</" ++ names.2 ++ ">").toList (standard.docs.apply e.toXml).toList ↔
          ∀ f ∈ filled names.1 e.toNode, f.tag.attributes = []) := by
  intro names hmem
  obtain ⟨hopenPair, hclosePair⟩ := mem_renamings hmem
  obtain ⟨⟨hslash, hspace⟩, hslashNew, hspaceNew⟩ := tagNames_plain names hmem
  have hnone : filled names.2 e.toNode = [] := by rw [filled, hfresh names hmem, List.filter_nil]
  obtain ⟨hopens, hcloses⟩ := count_tokens hslash hspace hnames
  obtain ⟨hopensNew, hclosesNew⟩ := count_tokens hslashNew hspaceNew hnames
  rw [hnone] at hopensNew hclosesNew
  have hopening : occurrences ("<" ++ names.2 ++ ">").toList (standard.docs.apply e.toXml).toList =
      (filled names.1 e.toNode).countP (·.tag.attributes.isEmpty) := by
    have hcount := occurrences_docs hopenPair (whole_tokens hnames)
    rw [Markup.Node.spell_tokens, hopens, hopensNew, List.countP_nil, Nat.add_zero] at hcount
    rw [apply_docs_toXml, String.toList_ofList]
    simpa using hcount
  have hclosing : occurrences ("</" ++ names.2 ++ ">").toList
      (standard.docs.apply e.toXml).toList = (filled names.1 e.toNode).length := by
    have hcount := occurrences_docs hclosePair (whole_tokens hnames)
    rw [Markup.Node.spell_tokens, hcloses, hclosesNew, List.length_nil, Nat.add_zero] at hcount
    rw [apply_docs_toXml, String.toList_ofList]
    simpa using hcount
  refine ⟨hopening, hclosing, ?_⟩
  rw [hopening, hclosing, List.countP_eq_length]
  simp only [List.isEmpty_iff]

/-- Lists in lists, one of them empty, with attributes on one item. -/
def listed : Element :=
  ⟨⟨"itemizedlist", [], 0⟩, [
    .element ⟨"listitem", [], 0⟩ [.text "a < b", .element ⟨"bold", [], 0⟩ [.text "c"]],
    .element ⟨"orderedlist", [("type", "1")], 0⟩ [],
    .element ⟨"listitem", [("override", "<\"")], 0⟩ [.element ⟨"bold", [], 0⟩ []]]⟩

theorem occurrences_apply_docs_listed :
    listed.toNode.PlainlyNamed ∧ (∀ names ∈ tagNames, listed.toNode.named names.2 = []) ∧
      ("listitem", "li") ∈ tagNames ∧
      occurrences "<li>".toList (standard.docs.apply listed.toXml).toList = 1 ∧
      occurrences "</li>".toList (standard.docs.apply listed.toXml).toList = 2 := by
  have hnames : listed.toNode.PlainlyNamed :=
    ⟨⟨by decide +kernel, nofun⟩,
      ⟨⟨by decide +kernel, nofun⟩, trivial, ⟨⟨by decide +kernel, nofun⟩, trivial, trivial⟩,
        trivial⟩,
      ⟨⟨by decide +kernel, by decide +kernel⟩, trivial⟩,
      ⟨⟨by decide +kernel, by decide +kernel⟩, ⟨⟨by decide +kernel, nofun⟩, trivial⟩, trivial⟩,
      trivial⟩
  have hfresh : ∀ names ∈ tagNames, listed.toNode.named names.2 = [] := by
    have hall : (tagNames.all fun names => (listed.toNode.named names.2).isEmpty) = true := by
      decide +kernel
    simpa using hall
  have hmem : ("listitem", "li") ∈ tagNames := by decide
  obtain ⟨hopening, hclosing, -⟩ := occurrences_apply_docs listed hnames hfresh _ hmem
  exact ⟨hnames, hfresh, hmem, hopening.trans (by decide +kernel),
    hclosing.trans (by decide +kernel)⟩

/-- A list that is numbered by an attribute. -/
def numbered : Element :=
  ⟨⟨"orderedlist", [("type", "1")], 0⟩, [.element ⟨"listitem", [], 0⟩ [.text "x"]]⟩

/-- The tag that ends a list with attributes is renamed and the one that begins it is not. -/
theorem apply_docs_numbered :
    numbered.toNode.PlainlyNamed ∧ (∀ names ∈ tagNames, numbered.toNode.named names.2 = []) ∧
      numbered.toXml = "<orderedlist type=\"1\"><listitem>x</listitem></orderedlist>" ∧
      standard.docs.apply numbered.toXml = "<orderedlist type=\"1\"><li>x</li></ol>" ∧
      occurrences "<ol>".toList (standard.docs.apply numbered.toXml).toList = 0 ∧
      occurrences "</ol>".toList (standard.docs.apply numbered.toXml).toList = 1 := by
  have hnames : numbered.toNode.PlainlyNamed :=
    ⟨⟨by decide +kernel, by decide +kernel⟩, ⟨⟨by decide +kernel, nofun⟩, trivial, trivial⟩,
      trivial⟩
  have hfresh : ∀ names ∈ tagNames, numbered.toNode.named names.2 = [] := by
    have hall : (tagNames.all fun names => (numbered.toNode.named names.2).isEmpty) = true := by
      decide +kernel
    simpa using hall
  have hresult : standard.docs.apply numbered.toXml =
      "<orderedlist type=\"1\"><li>x</li></ol>" := by
    rw [apply_docs_toXml, Standard.replaceAllWith_eq]
    exact congrArg String.ofList (by decide +kernel)
  refine ⟨hnames, hfresh, by decide +kernel, hresult, ?_, ?_⟩
  · rw [hresult]
    decide +kernel
  · rw [hresult]
    decide +kernel

end ClassSkeleton.Rules
