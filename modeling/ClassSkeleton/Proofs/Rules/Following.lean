import ClassSkeleton.Proofs.Pattern.Literal
import ClassSkeleton.Proofs.Pattern.Tracking
import ClassSkeleton.Proofs.Rules.Entries
import ClassSkeleton.Proofs.Rules.Retagging

namespace ClassSkeleton.Rules

/-!
# Rules that keep watched tags, and rules that rename them

Most rules for documentation put something in the place of a match that leads through markup as the
match did, and complete no watched tag. The others put one watched tag in the place of another.
Either can be seen from the pattern and the template.
-/

open Pattern
open Markup hiding Node

section Following

variable (words : List (List Char))

/-- The place behind a text that completes no word. -/
def walk (p : Place) : List Char → Option Place
  | [] => some p
  | c :: text =>
    match p.step words c with
    | some (q, []) => walk q text
    | _ => none

/-- Whether a group of a node leads from a place to that place, or can do no harm there. -/
def idles (x : Node) (spans : List (Nat × List Place × List Place)) (p : Place)
    (index : Nat) : Bool :=
  index ≠ 0 && ((p = .out && x.groupsAvoid ['<', '>']) ||
    spans.all fun span => span.1 ≠ index || span.2 = ([p], [p]))

/-- The place behind what a template writes. -/
def follow (x : Node) (spans : List (Nat × List Place × List Place)) (p : Place) :
    List Part → Option Place
  | [] => some p
  | .char c :: parts => (walk words p [c]).bind fun q => follow x spans q parts
  | .numbered index :: parts => if idles x spans p index then follow x spans p parts else none
  | .named _ :: _ => none

/-- The places where a match can begin. -/
def startsOf (x : Node) : List Place := if x.leads ['<'] then [.out] else places words

/-- Whether a node leads from a place to one other place only, and `q?` is that one. -/
def leadsTo (x : Node) (p : Place) (q? : Option Place) : Bool :=
  (x.reach words [p]).any fun ends => ends.isEmpty || q?.any fun q => ends.all (· = q)

/-- Whether what a template writes leads where the match does. -/
def keepsPlaces (x : Node) (parts : List Part) : Bool :=
  (startsOf words x).all fun p => leadsTo words x p (follow words x (x.spans words [p]) p parts)

/-- Whether a template writes the last group of a node, and something in front of it that leads
where the match does up to there. -/
def keepsLast (x : Node) (parts : List Part) : Bool :=
  match x with
  | .cat y (.group index _) =>
    index ≠ 0 && (around? index parts).any fun sides => sides.2.isEmpty &&
      (startsOf words y).all fun p => leadsTo words y p (walk words p sides.1)
  | _ => false

variable {words} {x : Node} {parts : List Part} {before text after : List Char}
  {recorded : List (Nat × List Char)} {p q : Place} {found : List (List Char)}

theorem runs_of_walk (h : walk words p text = some q) : Runs words p text q [] := by
  induction text generalizing p with
  | nil =>
      obtain rfl := Option.some.inj h
      exact .done
  | cons c text ih =>
      rw [walk] at h
      split at h
      · next hstep => exact .quiet hstep (ih h)
      · cases h

theorem runs_of_idles (htakes : x.Takes before text after recorded) {start stop : Place}
    {ends : List Place} (hreach : x.reach words [start] = some ends)
    (hrun : Runs words start text stop found) {index : Nat}
    (h : idles x (x.spans words [start]) p index = true) (names : List (String × Nat)) :
    Runs words p (Template.expandPart names ⟨text.length, recorded ++ [(0, text)]⟩
      (.numbered index)) p [] := by
  rw [Template.expandPart, Match.group?]
  simp only [idles, Bool.and_eq_true, decide_eq_true_eq, Bool.or_eq_true] at h
  obtain ⟨hindex, hidles⟩ := h
  cases hfound : (recorded ++ [(0, text)]).lookup index with
  | none => exact .done
  | some group =>
      have hmem : (index, group) ∈ recorded := mem_of_lookup hfound (by simpa using hindex)
      rw [Option.getD_some]
      rcases hidles with ⟨hout, havoids⟩ | hspans
      · obtain rfl : p = .out := by simpa using hout
        refine runs_out_of_noAngle fun c hc => ?_
        simpa using htakes.recorded_notMem havoids _ hmem c hc
      · obtain ⟨span, hspan, hsame, r, hr, s, hs, hgroup⟩ :=
          htakes.spans hreach (List.mem_singleton_self start) hrun _ hmem
        have hone := List.all_eq_true.mp hspans span hspan
        have hplaces : span.2 = ([p], [p]) := by simpa [hsame] using hone
        rw [hplaces] at hr hs
        obtain rfl := List.mem_singleton.mp hr
        obtain rfl := List.mem_singleton.mp hs
        exact hgroup

theorem runs_of_follow (htakes : x.Takes before text after recorded) {start stop : Place}
    {ends : List Place} (hreach : x.reach words [start] = some ends)
    (hrun : Runs words start text stop found) (names : List (String × Nat))
    (h : follow words x (x.spans words [start]) p parts = some q) :
    Runs words p (Template.expand names parts ⟨text.length, recorded ++ [(0, text)]⟩) q [] := by
  induction parts generalizing p with
  | nil =>
      obtain rfl := Option.some.inj h
      exact .done
  | cons part parts ih =>
      rw [Template.expand, List.flatMap_cons]
      cases part with
      | char c =>
          obtain ⟨r, hr, hrest⟩ := Option.bind_eq_some_iff.mp h
          exact (runs_of_walk hr).append (ih hrest)
      | numbered index =>
          rw [follow] at h
          split at h
          · next hidles =>
              exact (runs_of_idles htakes hreach hrun hidles names).append (ih h)
          · cases h
      | named name => cases h

theorem mem_startsOf (htakes : x.Takes before text after recorded) (hp : p ∈ places words)
    (hrun : Runs words p text q found) : p ∈ startsOf words x := by
  unfold startsOf
  split
  · next hleads =>
      obtain ⟨more, rfl⟩ := htakes.leads hleads
      cases hrun with
      | step head _ => cases p <;> simp [Place.step] at head ⊢
  · exact hp

theorem quiet_of_leadsTo (htakes : x.Takes before text after recorded) {q? : Option Place}
    (h : leadsTo words x p q? = true) (hrun : Runs words p text q found) :
    (∃ ends, x.reach words [p] = some ends) ∧ q? = some q ∧ found = [] := by
  obtain ⟨ends, hreach, hends⟩ := (Option.any_eq_true _ _).mp h
  obtain ⟨hq, rfl⟩ := htakes.reach hreach (List.mem_singleton_self p) hrun
  refine ⟨⟨ends, hreach⟩, ?_, rfl⟩
  rcases (Bool.or_eq_true _ _).mp hends with hempty | hsame
  · rw [List.isEmpty_iff.mp hempty] at hq
    cases hq
  · obtain ⟨r, rfl, hall⟩ := (Option.any_eq_true _ _).mp hsame
    have heq := List.all_eq_true.mp hall q hq
    rw [of_decide_eq_true heq]

end Following

section Replacing

variable {words : List (List Char)} {find : Finder} {expand : Match → List Char}

/-- Whether what is put in the place of a match leads through markup as the match does, and
completes the same words. -/
structure KeepsPlaces (words : List (List Char)) (find : Finder)
    (expand : Match → List Char) : Prop where
  found : ∀ {before after m}, find before after = some m → ∃ text rest, after = text ++ rest ∧
    m.length = text.length ∧ ∀ p ∈ places words, ∀ q found, Runs words p text q found →
      Runs words p (expand m) q found

/-- An empty match can be replaced only by what leads back to its place. -/
theorem KeepsPlaces.runs_empty (h : KeepsPlaces words find expand) {p : Place}
    (hp : p ∈ places words) {before after : List Char} {m : Match}
    (hm : find before after = some m) (hempty : m.length = 0) (adjoins : Bool) :
    Runs words p (if adjoins then [] else expand m) p [] := by
  split
  · exact .done
  · obtain ⟨taken, rest, -, htaken, hkeeps⟩ := h.found hm
    obtain rfl := List.length_eq_zero_iff.mp (htaken.symm.trans hempty)
    exact hkeeps p hp p [] .done

theorem KeepsPlaces.runs_replaceFrom (h : KeepsPlaces words find expand) {p q : Place}
    {text : List Char} {found : List (List Char)} (hp : p ∈ places words)
    (hrun : Runs words p text q found) (before : List Char) (adjoins : Bool) :
    Runs words p (replaceFrom find expand before 0 adjoins text) q found := by
  induction hlength : text.length using Nat.strong_induction_on
    generalizing p text found before adjoins with
  | h n ih =>
      cases text with
      | nil =>
          cases hrun
          rw [replaceFrom]
          cases hm : find before [] with
          | none => exact .done
          | some m =>
              obtain ⟨taken, rest, hnil, htaken, -⟩ := h.found hm
              obtain ⟨rfl, -⟩ := List.append_eq_nil_iff.mp hnil.symm
              exact h.runs_empty hp hm htaken adjoins
      | cons c rest =>
          have hkept : Runs words p (c :: replaceFrom find expand (c :: before) 0 false rest) q
              found := by
            cases hrun with
            | step head tail =>
                have hshort : rest.length < n := by simp [← hlength]
                exact .step head (ih rest.length hshort (mem_places_of_step head) tail _ _ rfl)
          cases hm : find before (c :: rest) with
          | none =>
              rw [replaceFrom_of_eq_none expand hm]
              exact hkept
          | some m =>
              obtain ⟨taken, after, htext, htaken, hkeeps⟩ := h.found hm
              by_cases hne : taken = []
              · have hempty : m.length = 0 := by rw [htaken, hne, List.length_nil]
                rw [replaceFrom_of_empty expand hm hempty]
                exact (h.runs_empty hp hm hempty adjoins).append hkept
              · rw [htext] at hm hrun hlength ⊢
                obtain ⟨s, early, late, hearly, hlate, rfl⟩ := hrun.split
                have hless : after.length < n := by
                  have hpos := List.length_pos_iff.mpr hne
                  rw [← hlength, List.length_append]
                  omega
                rw [replaceFrom_of_eq_some expand hne hm htaken]
                refine (hkeeps p hp s early hearly).append ?_
                exact ih after.length hless (mem_places_of_runs hp hearly) hlate _ _ rfl

variable {x : Node} {parts : List Part}

theorem keepsPlaces_of_keepsPlaces (h : keepsPlaces words x parts = true)
    (names : List (String × Nat)) :
    KeepsPlaces words x.matchAt? (Template.expand names parts) where
  found := by
    intro before after m hm
    obtain ⟨text, rest, recorded, rfl, rfl, htakes⟩ := Node.exists_takes_of_matchAt? hm
    refine ⟨text, rest, rfl, rfl, ?_⟩
    intro p hp q found hrun
    have hone := List.all_eq_true.mp h p (mem_startsOf htakes hp hrun)
    obtain ⟨⟨ends, hreach⟩, hfollow, rfl⟩ := quiet_of_leadsTo htakes hone hrun
    exact runs_of_follow htakes hreach hrun names hfollow

theorem keepsPlaces_of_keepsLast (h : keepsLast words x parts = true)
    (names : List (String × Nat)) :
    KeepsPlaces words x.matchAt? (Template.expand names parts) where
  found := by
    intro before after m hm
    obtain ⟨text, rest, recorded, rfl, rfl, htakes⟩ := Node.exists_takes_of_matchAt? hm
    refine ⟨text, rest, rfl, rfl, ?_⟩
    intro p hp q found hrun
    rw [keepsLast.eq_def] at h
    split at h
    · next y index z =>
        simp only [Bool.and_eq_true, decide_eq_true_eq] at h
        obtain ⟨hindex, hsides⟩ := h
        obtain ⟨⟨front, back⟩, haround, hback⟩ := (Option.any_eq_true _ _).mp hsides
        obtain ⟨hnil, hall⟩ := (Bool.and_eq_true _ _).mp hback
        obtain rfl : back = [] := List.isEmpty_iff.mp hnil
        cases htakes with
        | @cat _ _ _ first second _ groups more head tail =>
            cases tail with
            | @group _ _ _ _ _ inner taken =>
                obtain ⟨r, early, late, hearly, hlate, rfl⟩ := hrun.split
                have hone := List.all_eq_true.mp hall p (mem_startsOf head hp hearly)
                obtain ⟨-, hwalk, rfl⟩ := quiet_of_leadsTo head hone hearly
                rw [expand_of_around? haround, List.append_nil]
                have hgroup : Match.group? ⟨(first ++ second).length,
                    (index, second) :: inner ++ groups ++ [(0, first ++ second)]⟩ index =
                      some second := by
                  simp [Match.group?]
                rw [hgroup, Option.getD_some]
                exact (runs_of_walk hwalk).append hlate
    · cases h

end Replacing

end ClassSkeleton.Rules
