import ClassSkeleton.Proofs.Rules.Turns
import ClassSkeleton.Proofs.Text.Runs

namespace ClassSkeleton.Rules

/-!
# Scalar types

Every rule for a scalar type goes over the whole text. All of them together write each run of the
characters of words that is a name as the type of that name, in one go. A rule looks at one run and
the character in front of it, and what it writes is left alone by the rules behind it.
-/

open Pattern Text

/-- Names of types, with the texts that are written for them. -/
abbrev Naming := List (List Char × List Char)

/-- Whether a name behind a character is part of a marker or of a qualified name. -/
def Bars (prev : Option Char) : Prop := prev = some '@' ∨ prev = some ':'

instance (prev : Option Char) : Decidable (Bars prev) := inferInstanceAs (Decidable (_ ∨ _))

/-- The text for a run, given the character in front of it. -/
def renameRun (names : Naming) (prev : Option Char) (run : List Char) : List Char :=
  if Bars prev then run else (names.lookup run).getD run

def renameRuns (names : Naming) : Option Char → List (List Char) → List Char
  | _, [] => []
  | prev, run :: rest => renameRun names prev run ++ renameRuns names run.getLast? rest

/-- A text with all its names written as types at once. -/
def renamed (names : Naming) (prev : Option Char) (text : List Char) : List Char :=
  renameRuns names prev (runs Unicode.isWord text)

section Renamed

variable {names : Naming} {prev : Option Char}

theorem renameRuns_append {front : List (List Char)} (hne : [] ∉ front)
    (back : List (List Char)) : renameRuns names prev (front ++ back) =
      renameRuns names prev front ++ renameRuns names (front.flatten.getLast?.or prev) back := by
  induction front generalizing prev with
  | nil => rfl
  | cons run front ih =>
      obtain ⟨hrun, hfront⟩ := not_or.mp fun h => hne (List.mem_cons.mpr h)
      rw [List.cons_append, renameRuns, renameRuns, ih hfront, List.append_assoc,
        List.flatten_cons, List.getLast?_append, Option.or_assoc,
        List.getLast?_eq_some_getLast (Ne.symm hrun), Option.some_or]

/-- A text may be cut wherever no word is cut. -/
theorem renamed_append {front back : List Char}
    (h : ∀ c ∈ front.getLast?, Unicode.isWord c = true →
      ∀ d ∈ back.head?, Unicode.isWord d = false) :
    renamed names prev (front ++ back) =
      renamed names prev front ++ renamed names (front.getLast?.or prev) back := by
  rw [renamed, runs_append h, renameRuns_append (nil_notMem_runs _ front), flatten_runs, renamed,
    renamed]

theorem renamed_of_word {run : List Char} (hne : run ≠ [])
    (h : ∀ c ∈ run, Unicode.isWord c = true) :
    renamed names prev run = renameRun names prev run := by
  rw [renamed, runs_of_forall hne h, renameRuns, renameRuns, List.append_nil]

theorem renamed_word_append {run rest : List Char} (hne : run ≠ [])
    (hrun : ∀ c ∈ run, Unicode.isWord c = true)
    (hrest : ∀ c ∈ rest.head?, Unicode.isWord c = false) : renamed names prev (run ++ rest) =
      renameRun names prev run ++ renamed names run.getLast? rest := by
  rw [renamed_append fun _ _ _ => hrest, renamed_of_word hne hrun,
    List.getLast?_eq_some_getLast hne, Option.some_or]

theorem renameRun_cons (n : List Char × List Char) (run : List Char) :
    renameRun (n :: names) prev run =
      if run = n.1 ∧ ¬ Bars prev then n.2 else renameRun names prev run := by
  obtain ⟨name, type⟩ := n
  by_cases hbars : Bars prev
  · simp [renameRun, hbars]
  · by_cases hrun : run = name
    · simp [renameRun, hbars, hrun]
    · simp [renameRun, hbars, hrun, List.lookup_cons, beq_eq_false_iff_ne.mpr hrun]

theorem renameRun_nil (run : List Char) : renameRun [] prev run = run := by simp [renameRun]

theorem renameRun_of_not_bars (h : ¬ Bars prev) (run : List Char) :
    renameRun names prev run = renameRun names none run := by
  rw [renameRun, renameRun, if_neg h, if_neg (by simp [Bars])]

theorem renamed_of_not_bars (h : ¬ Bars prev) (text : List Char) :
    renamed names prev text = renamed names none text := by
  rw [renamed, renamed]
  cases runs Unicode.isWord text with
  | nil => rfl
  | cons run rest => rw [renameRuns, renameRuns, renameRun_of_not_bars h]

variable (hwords : ∀ n ∈ names, ∀ c ∈ n.1, Unicode.isWord c = true)
include hwords

theorem renameRun_sign {c : Char} (hc : Unicode.isWord c = false) :
    renameRun names prev [c] = [c] := by
  have hnone : names.lookup [c] = none := by
    rw [List.lookup_eq_none_iff]
    rintro n hn
    rw [bne_iff_ne]
    rintro heq
    have hword := hwords n hn c (by rw [← heq]; exact List.mem_singleton_self c)
    rw [hc] at hword
    cases hword
  rw [renameRun, hnone, Option.getD_none, ite_self]

theorem renamed_sign_cons {c : Char} (hc : Unicode.isWord c = false) (rest : List Char) :
    renamed names prev (c :: rest) = c :: renamed names (some c) rest := by
  have hcut : ∀ d ∈ [c].getLast?, Unicode.isWord d = true →
      ∀ e ∈ rest.head?, Unicode.isWord e = false := by
    rintro d hd hword
    obtain rfl : c = d := Option.some.inj hd
    rw [hc] at hword
    cases hword
  have hone : renamed names prev [c] = [c] := by
    have hrun : runs Unicode.isWord [c] = [[c]] := rfl
    rw [renamed, hrun, renameRuns, renameRuns, renameRun_sign hwords hc, List.append_nil]
  rw [← List.singleton_append, renamed_append hcut, hone]
  rfl

/-- What is in front of a text that does not start with a word makes no difference to it. -/
theorem renamed_of_head {text : List Char} (h : ∀ c ∈ text.head?, Unicode.isWord c = false)
    (other : Option Char) : renamed names prev text = renamed names other text := by
  rcases text with _ | ⟨c, rest⟩
  · rfl
  · rw [renamed_sign_cons hwords (h c rfl), renamed_sign_cons hwords (h c rfl)]

theorem head?_renamed {text : List Char} (h : ∀ c ∈ text.head?, Unicode.isWord c = false) :
    (renamed names prev text).head? = text.head? := by
  rcases text with _ | ⟨c, rest⟩
  · rfl
  · rw [renamed_sign_cons hwords (h c rfl), List.head?_cons, List.head?_cons]

end Renamed

section Rule

/-- The guard of a rule for a scalar type: no `@`, no character of a word and no `:`. -/
def unqualified : CharSet := .compl (.union (.one '@') (.union .word (.union (.one ':') .none)))

theorem not_contains_of_isWord {c : Char} (h : Unicode.isWord c = true) :
    unqualified.contains c = false := by simp [unqualified, CharSet.contains, h]

theorem all_unqualified_iff {prev : Option Char} (h : ∀ c ∈ prev, Unicode.isWord c = false) :
    prev.all unqualified.contains = true ↔ ¬ Bars prev := by
  cases prev with
  | none => simp [Bars]
  | some c => simp [Bars, unqualified, CharSet.contains, h c rfl]

/-- What a rule for one name takes. -/
def naming (n : List Char × List Char) : Spotter :=
  behind unqualified (turnAny [⟨n.1, none, n.2⟩])

variable {n : List Char × List Char} {prev : Option Char}

theorem naming_of_isWord {c : Char} (hc : Unicode.isWord c = true) (text : List Char) :
    naming n (some c) text = none := by
  rw [naming, behind, Option.all_some, not_contains_of_isWord hc]
  rfl

theorem naming_of_name (hprev : prev.all unqualified.contains = true) {rest : List Char}
    (hrest : ∀ c ∈ rest.head?, Unicode.isWord c = false) :
    naming n prev (n.1 ++ rest) = some n := by
  have hcloses : Closes n.1 rest := fun _ _ _ => hrest
  rw [naming, behind, if_pos hprev, turnAny, List.findSome?_singleton, Turn.at?, Turn.pieces,
    take?_whole_append hcloses]
  rfl

variable (hword : ∀ c ∈ n.1, Unicode.isWord c = true) (hne : n.1 ≠ [])
include hword hne

theorem naming_eq_some {text taken out : List Char} (h : naming n prev text = some (taken, out)) :
    prev.all unqualified.contains = true ∧ taken = n.1 ∧ out = n.2 ∧ ∃ rest,
      text = n.1 ++ rest ∧ ∀ c ∈ rest.head?, Unicode.isWord c = false := by
  obtain ⟨hguard, hany⟩ := Option.ite_none_right_eq_some.mp h
  obtain ⟨t, ht, hat⟩ := turnAny_eq_some hany
  obtain rfl := List.mem_singleton.mp ht
  obtain ⟨⟨taken', rest⟩, htake, heq⟩ := Option.map_eq_some_iff.mp hat
  obtain ⟨htaken, rfl⟩ := Prod.mk.inj heq
  obtain rfl : taken' = taken := htaken
  obtain ⟨rfl, htext, hcloses⟩ := take?_whole htake
  have hlast := List.getLast?_eq_some_getLast hne
  exact ⟨hguard, rfl, rfl, rest, htext, hcloses _ hlast (hword _ (List.getLast_mem hne))⟩

theorem naming_sign {c : Char} (hc : Unicode.isWord c = false) (rest : List Char) :
    naming n prev (c :: rest) = none := by
  rw [Option.eq_none_iff_forall_ne_some]
  rintro ⟨taken, out⟩ hfound
  obtain ⟨-, -, -, back, htext, -⟩ := naming_eq_some hword hne hfound
  obtain ⟨d, more, hname⟩ := List.exists_cons_of_ne_nil hne
  rw [hname] at htext
  obtain ⟨rfl, -⟩ := List.cons.inj htext
  rw [hword c (by rw [hname]; exact List.mem_cons_self)] at hc
  cases hc

omit hword hne in
/-- No name is found behind the first character of a run. -/
theorem rewrites_naming_within {c : Char} {run rest new : List Char}
    (hrun : ∀ d ∈ c :: run, Unicode.isWord d = true)
    (h : Rewrites (naming n) (c :: run).getLast? rest new) :
    Rewrites (naming n) (some c) (run ++ rest) (run ++ new) := by
  obtain ⟨hc, hbehind⟩ := List.forall_mem_cons.mp hrun
  induction run generalizing c with
  | nil => exact h
  | cons d run ih =>
      obtain ⟨hd, hrest⟩ := List.forall_mem_cons.mp hbehind
      exact .keep (naming_of_isWord hc _) (ih hbehind h hd hrest)

/-- A rule for one name writes its type for every run that is the name. -/
theorem rewrites_naming (text : List Char)
    (hprev : ∀ c ∈ text.head?, Unicode.isWord c = true → ∀ d ∈ prev, Unicode.isWord d = false) :
    Rewrites (naming n) prev text (renamed [n] prev text) := by
  have hwords : ∀ m ∈ [n], ∀ c ∈ m.1, Unicode.isWord c = true := by
    rintro m hm
    rwa [List.mem_singleton.mp hm]
  induction text using runs_induction Unicode.isWord generalizing prev with
  | nil => exact .nil
  | other c rest hc ih =>
      rw [renamed_sign_cons hwords hc]
      refine .keep (naming_sign hword hne hc rest) (ih fun d _ _ e he => ?_)
      obtain rfl : c = e := Option.some.inj he
      exact hc
  | run run rest hrun hall hrest ih =>
      have hbehind : Rewrites (naming n) run.getLast? rest (renamed [n] run.getLast? rest) := by
        refine ih fun c hc hw => ?_
        rw [hrest c hc] at hw
        cases hw
      obtain ⟨c, more, rfl⟩ := List.exists_cons_of_ne_nil hrun
      have hguard := all_unqualified_iff fun d hd =>
        hprev c rfl (hall c List.mem_cons_self) d hd
      rw [renamed_word_append hrun hall hrest, renameRun_cons, renameRun_nil]
      split
      · next hhit =>
          rw [hhit.1] at hbehind ⊢
          exact .swap hne (naming_of_name (hguard.mpr hhit.2) hrest) hbehind
      · next hmiss =>
          refine .keep ?_ (rewrites_naming_within hall hbehind)
          rw [Option.eq_none_iff_forall_ne_some]
          rintro ⟨taken, out⟩ hfound
          obtain ⟨hfree, -, -, back, htext, hback⟩ := naming_eq_some hword hne hfound
          obtain ⟨hsame, -⟩ := append_inj_of_forall htext hall hrest hword hback
          exact hmiss ⟨hsame, hguard.mp hfree⟩

end Rule

section Table

/-- Whether no rule finds a name in what the rules in front of it write. -/
def isSettled : Naming → Bool
  | [] => true
  | n :: names => renamed names none n.2 == n.2 && isSettled names

/-- The rule for a name, and behind it those for others, do what all of them do at once. -/
theorem renamed_renamed {n : List Char × List Char} {names : Naming}
    (hwords : ∀ m ∈ n :: names, ∀ c ∈ m.1, Unicode.isWord c = true)
    (hsettled : renamed names none n.2 = n.2) (prev : Option Char) (text : List Char) :
    renamed names prev (renamed [n] prev text) = renamed (n :: names) prev text := by
  obtain ⟨hword, hothers⟩ := List.forall_mem_cons.mp hwords
  have hone : ∀ m ∈ [n], ∀ c ∈ m.1, Unicode.isWord c = true := by
    rintro m hm
    rwa [List.mem_singleton.mp hm]
  induction text using runs_induction Unicode.isWord generalizing prev with
  | nil => rfl
  | other c rest hc ih =>
      rw [renamed_sign_cons hone hc, renamed_sign_cons hothers hc, renamed_sign_cons hwords hc, ih]
  | run run rest hrun hall hrest ih =>
      have hhead : ∀ c ∈ (renamed [n] run.getLast? rest).head?, Unicode.isWord c = false := by
        rw [head?_renamed hone hrest]
        exact hrest
      rw [renamed_word_append hrun hall hrest, renamed_word_append hrun hall hrest, renameRun_cons,
        renameRun_cons, renameRun_nil]
      split
      · next hhit =>
          rw [renamed_append fun _ _ _ => hhead, renamed_of_not_bars hhit.2, hsettled,
            renamed_of_head hothers hhead run.getLast?, ih]
      · rw [renamed_word_append hrun hall hhead, ih]

theorem renamed_nil (prev : Option Char) (text : List Char) : renamed [] prev text = text := by
  have hruns (runs : List (List Char)) : renameRuns [] prev runs = runs.flatten := by
    induction runs generalizing prev with
    | nil => rfl
    | cons run rest ih => rw [renameRuns, renameRun_nil, ih, List.flatten_cons]
  rw [renamed, hruns, flatten_runs]

end Table

namespace Standard

/-- The scalar types and the marked real numbers, with what is written for each. -/
def scalarNames : Naming :=
  scalarTypes.map (fun entry => (entry.1.toList, entry.2.toList)) ++
    markedReals.map fun name => (name.toList, "/* @".toList ++ name.toList ++ " */ double".toList)

/-- What the rule for one name makes of a text. -/
def replaceName (n : List Char × List Char) (text : List Char) : List Char :=
  replaceWith ("(^|[^@\\w:])".toList ++ n.1 ++ "\\b".toList) ("$\x7b1\x7d".toList ++ n.2) text

theorem turning?_scalarNames : ∀ n ∈ scalarNames,
    turning? ("(^|[^@\\w:])".toList ++ n.1 ++ "\\b".toList) ("$\x7b1\x7d".toList ++ n.2) =
      some (unqualified, [⟨n.1, none, n.2⟩]) := by
  simp only [scalarNames, ← chars_eq_toList]
  decide +kernel

theorem isWord_of_mem_scalarNames :
    ∀ n ∈ scalarNames, n.1 ≠ [] ∧ n.1.all Unicode.isWord = true := by
  simp only [scalarNames, ← chars_eq_toList]
  decide +kernel

theorem isSettled_scalarNames : isSettled scalarNames = true := by
  simp only [scalarNames, ← chars_eq_toList]
  decide +kernel

theorem replaceName_eq_renamed {n : List Char × List Char}
    (hturning : turning? ("(^|[^@\\w:])".toList ++ n.1 ++ "\\b".toList)
      ("$\x7b1\x7d".toList ++ n.2) = some (unqualified, [⟨n.1, none, n.2⟩]))
    (hne : n.1 ≠ []) (hword : ∀ c ∈ n.1, Unicode.isWord c = true) (text : List Char) :
    replaceName n text = renamed [n] none text := by
  have hturns : ∀ t ∈ [(⟨n.1, none, n.2⟩ : Turn)], t.word ≠ [] := by
    rintro t ht
    rwa [List.mem_singleton.mp ht]
  exact (rewrites_of_turning? hturning not_contains_of_isWord hturns text).eq
    (rewrites_naming hword hne text nofun)

/-- The rules for some names, one after the other, write all the types at once. -/
theorem foldl_replaceName {names : Naming}
    (hrules : ∀ n ∈ names, ∀ text, replaceName n text = renamed [n] none text)
    (hwords : ∀ n ∈ names, ∀ c ∈ n.1, Unicode.isWord c = true)
    (hsettled : isSettled names = true) (text : List Char) :
    names.foldl (fun text n => replaceName n text) text = renamed names none text := by
  induction names generalizing text with
  | nil => exact (renamed_nil none text).symm
  | cons n names ih =>
      obtain ⟨hn, hrest⟩ := (Bool.and_eq_true _ _).mp hsettled
      obtain ⟨hrule, hrules⟩ := List.forall_mem_cons.mp hrules
      rw [List.foldl_cons, ih hrules (List.forall_mem_cons.mp hwords).2 hrest, hrule,
        renamed_renamed hwords (beq_iff_eq.mp hn)]

theorem apply_scalars (text : String) : (tableOf (scalars ++ markers)).apply text =
    String.ofList (scalarNames.foldl (fun text n => replaceName n text) text.toList) := by
  have hmarker : "$\x7b1\x7d/* @".toList = "$\x7b1\x7d".toList ++ "/* @".toList := by decide
  simp only [apply_tableOf, scalars, markers, scalarNames, List.foldl_append, List.foldl_map,
    scalarPattern, String.toList_append, hmarker, List.append_assoc, replaceName]

end Standard

end ClassSkeleton.Rules
