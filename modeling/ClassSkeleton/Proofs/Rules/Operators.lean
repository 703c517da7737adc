import ClassSkeleton.Proofs.Rules.Turns
import ClassSkeleton.Skeleton.Rewriting

namespace ClassSkeleton.Rules

/-!
# Operators

The first rule that takes the symbol of an operator translates the name. No symbol stands in the
table behind one that it goes on from, so the longest wins, and no rule takes the name that another
has put there. What is behind the symbol is kept, and so an operator that goes on from a listed one
is translated in part.
-/

open Pattern Text

/-- The symbol of an operator and the name that takes its place. -/
structure Operator where
  symbol : List Char
  name : List Char

namespace Operator

/-- The word in front of a symbol. -/
def word : List Char := ['o', 'p', 'e', 'r', 'a', 't', 'o', 'r']

/-- Whether a text names an operator at its start, with some text behind the symbol. -/
def Calls (op : Operator) (text rest : List Char) : Prop :=
  ∃ blanks, (∀ c ∈ blanks, Unicode.isBlank c = true) ∧
    text = word ++ (blanks ++ (op.symbol ++ rest))

def phrase (op : Operator) : Phrase :=
  ⟨.look .textStart :: (letters word ++ .many .blank :: letters op.symbol), op.name, []⟩

/-- Whether a symbol is told from the blanks in front of it, and a name from the word. -/
def isDistinct (op : Operator) : Bool :=
  op.symbol.head?.any (fun c => !Unicode.isBlank c) && op.name.head?.any (· != 'o')

section Distinct

variable {op other : Operator} {text rest : List Char}

theorem exists_symbol (h : op.isDistinct = true) :
    ∃ c more, op.symbol = c :: more ∧ Unicode.isBlank c = false := by
  obtain ⟨c, hc, hblank⟩ := (Option.any_eq_true _ _).mp ((Bool.and_eq_true _ _).mp h).1
  obtain ⟨more, hsymbol⟩ := List.head?_eq_some_iff.mp hc
  exact ⟨c, more, hsymbol, by simpa using hblank⟩

theorem not_calls_name (h : op.isDistinct = true) (behind rest : List Char) :
    ¬ other.Calls (op.name ++ behind) rest := by
  rintro ⟨blanks, -, htext⟩
  obtain ⟨c, hc, hne⟩ := (Option.any_eq_true _ _).mp ((Bool.and_eq_true _ _).mp h).2
  obtain ⟨more, hname⟩ := List.head?_eq_some_iff.mp hc
  rw [hname] at htext
  obtain ⟨rfl, -⟩ := List.cons.inj htext
  exact absurd rfl (bne_iff_ne.mp hne)

/-- The blanks that a text is called with are all there are. -/
theorem Calls.trimStart_eq (hop : op.isDistinct = true) (h : op.Calls text rest) :
    trimStart (text.drop word.length) = op.symbol ++ rest := by
  obtain ⟨blanks, hblanks, rfl⟩ := h
  obtain ⟨c, more, hsymbol, hc⟩ := exists_symbol hop
  rw [List.drop_left]
  refine trimStart_append hblanks fun d hd => ?_
  rw [hsymbol] at hd
  obtain rfl := Option.some.inj hd
  exact hc

theorem calls_iff (hop : op.isDistinct = true) {blanks run : List Char}
    (hblanks : ∀ c ∈ blanks, Unicode.isBlank c = true)
    (hrun : ∀ c ∈ run.head?, Unicode.isBlank c = false) :
    op.Calls (word ++ (blanks ++ run)) rest ↔ run = op.symbol ++ rest := by
  constructor
  · intro h
    rw [← h.trimStart_eq hop, List.drop_left, trimStart_append hblanks hrun]
  · rintro rfl
    exact ⟨blanks, hblanks, rfl⟩

theorem lawful_phrase (op : Operator) : (spotAny [op.phrase]).Lawful :=
  lawful_spotAny (by simp [isFilled, phrase, letters, word])

theorem exists_calls_of_spot {prev : Option Char} {taken out : List Char}
    (h : spotAny [op.phrase] prev text = some (taken, out)) : ∃ rest, op.Calls text rest := by
  obtain ⟨ph, hph, hat⟩ := spotAny_eq_some h
  obtain rfl := List.mem_singleton.mp hph
  obtain ⟨rest, htake, -⟩ := Phrase.take?_of_at? hat
  rw [phrase, List.append_nil, take?] at htake
  obtain ⟨-, htake⟩ := Option.ite_none_right_eq_some.mp htake
  obtain ⟨tail, more, rfl, -, htail⟩ := take?_letters htake
  obtain ⟨found, hfound, -⟩ := Option.map_eq_some_iff.mp htail
  rw [← List.append_nil (letters op.symbol)] at hfound
  obtain ⟨behind, -, hdrop, -⟩ := take?_letters hfound
  refine ⟨behind, tail.takeWhile Unicode.isBlank,
    fun c hc => List.all_eq_true.mp List.all_takeWhile c hc, ?_⟩
  rw [← hdrop]
  exact congrArg _ List.takeWhile_append_dropWhile.symm

theorem spot_of_calls (hop : op.isDistinct = true) (h : op.Calls text rest) : ∃ taken,
    text = taken ++ rest ∧ spotAny [op.phrase] none text = some (taken, op.name) := by
  obtain ⟨blanks, hblanks, rfl⟩ := h
  obtain ⟨c, more, hsymbol, hc⟩ := exists_symbol hop
  have hhead : ∀ d ∈ (op.symbol ++ rest).head?, Unicode.isBlank d = false := by
    intro d hd
    rw [hsymbol] at hd
    obtain rfl := Option.some.inj hd
    exact hc
  have htake : (blanks ++ (op.symbol ++ rest)).takeWhile Unicode.isBlank = blanks :=
    takeWhile_append_of_head hblanks hhead
  have hdrop : (blanks ++ (op.symbol ++ rest)).dropWhile Unicode.isBlank = op.symbol ++ rest :=
    trimStart_append hblanks hhead
  have hset : CharSet.blank.contains = Unicode.isBlank := rfl
  have hsymbols (prev : Option Char) :
      take? (letters op.symbol) prev (op.symbol ++ rest) = some (op.symbol, rest) := by
    have hall := take?_letters_append op.symbol [] prev rest
    rw [List.append_nil] at hall
    simpa [take?] using hall
  refine ⟨word ++ (blanks ++ op.symbol), by simp, ?_⟩
  simp [phrase, spotAny, Phrase.at?, take?, Look.holds, take?_letters_append, hset, htake, hdrop,
    hsymbols]

end Distinct

end Operator

namespace Standard

open Operator

/-- The operators in the order of their rules. -/
def operators : List Operator := [
  ⟨"<<=".toList, "shlAssign".toList⟩,
  ⟨">>=".toList, "shrAssign".toList⟩,
  ⟨"<<".toList, "toString".toList⟩,
  ⟨"+=".toList, "addAssign".toList⟩,
  ⟨"-=".toList, "subAssign".toList⟩,
  ⟨"*=".toList, "mulAssign".toList⟩,
  ⟨"/=".toList, "divAssign".toList⟩,
  ⟨"%=".toList, "modAssign".toList⟩,
  ⟨"==".toList, "eq".toList⟩,
  ⟨"!=".toList, "ne".toList⟩,
  ⟨">=".toList, "ge".toList⟩,
  ⟨"<=".toList, "le".toList⟩,
  ⟨"->".toList, "deref".toList⟩,
  ⟨">>".toList, "shr".toList⟩,
  ⟨">".toList, "gt".toList⟩,
  ⟨"<".toList, "lt".toList⟩,
  ⟨"++".toList, "inc".toList⟩,
  ⟨"--".toList, "dec".toList⟩,
  ⟨"+".toList, "add".toList⟩,
  ⟨"-".toList, "sub".toList⟩,
  ⟨"*".toList, "mul".toList⟩,
  ⟨"/".toList, "div".toList⟩,
  ⟨"%".toList, "mod".toList⟩,
  ⟨"!".toList, "not".toList⟩,
  ⟨"=".toList, "assign".toList⟩,
  ⟨"[]".toList, "at".toList⟩,
  ⟨"()".toList, "get".toList⟩]

/-- The rule of each entry takes the operator in its place. -/
theorem phrases?_methodNames :
    methodNames.map (fun entry => phrases? entry.1.toList entry.2.toList) =
      operators.map fun op => some [op.phrase] := by
  simp only [operators, ← chars_eq_toList]
  decide +kernel

theorem isDistinct_of_mem_operators {op : Operator} (h : op ∈ operators) : op.isDistinct = true :=
  List.all_eq_true.mp (by decide : operators.all isDistinct = true) op h

/-- No symbol stands behind one that it goes on from. -/
theorem pairwise_operators : operators.Pairwise fun op other => ¬ op.symbol <+: other.symbol := by
  decide

theorem nodup_symbols : (operators.map Operator.symbol).Nodup := by decide

section Entry

variable {pattern template : List Char} {op : Operator}
  (hphrase : phrases? pattern template = some [op.phrase])
include hphrase

theorem replaceWith_of_not_calls {text : List Char} (h : ∀ rest, ¬ op.Calls text rest) :
    replaceWith pattern template text = text := by
  refine (rewrites_of_phrases? hphrase op.lawful_phrase text).eq ?_
  refine rewrites_of_anchor spot_anchored ?_
  rw [Option.eq_none_iff_forall_ne_some]
  rintro ⟨taken, out⟩ hfound
  obtain ⟨rest, hcalls⟩ := exists_calls_of_spot hfound
  exact h rest hcalls

theorem replaceWith_of_calls (hop : op.isDistinct = true) {text rest : List Char}
    (h : op.Calls text rest) : replaceWith pattern template text = op.name ++ rest := by
  obtain ⟨taken, rfl, hspot⟩ := spot_of_calls hop h
  have hne : taken ≠ [] := (op.lawful_phrase hspot).1
  refine (rewrites_of_phrases? hphrase op.lawful_phrase _).eq (.swap hne hspot ?_)
  rw [List.getLast?_eq_some_getLast hne]
  exact rewrites_behind_anchor spot_anchored _ rest

end Entry

section Table

variable {entries : Entries} {ops : List Operator}

/-- What a list of entries makes of a text, one after the other. -/
theorem replaceAllWith_of_not_calls
    (hentries : entries.map (fun entry => phrases? entry.1.toList entry.2.toList) =
      ops.map fun op => some [op.phrase])
    {text : List Char} (h : ∀ op ∈ ops, ∀ rest, ¬ op.Calls text rest) :
    replaceAllWith entries text = text := by
  induction ops generalizing entries with
  | nil =>
      rw [List.map_eq_nil_iff.mp hentries]
      rfl
  | cons op ops ih =>
      rcases entries with _ | ⟨entry, entries⟩
      · cases hentries
      · obtain ⟨hphrase, hrest⟩ := List.cons.inj hentries
        obtain ⟨hop, hops⟩ := List.forall_mem_cons.mp h
        rw [replaceAllWith, List.foldl_cons, replaceWith_of_not_calls hphrase hop]
        exact ih hrest hops

/-- The first operator that a text calls gives the text its name. -/
theorem replaceAllWith_of_calls
    (hentries : entries.map (fun entry => phrases? entry.1.toList entry.2.toList) =
      ops.map fun op => some [op.phrase])
    (hops : ∀ op ∈ ops, op.isDistinct = true) {text : List Char}
    (h : ∃ op ∈ ops, ∃ rest, op.Calls text rest) :
    ∃ front op back rest, ops = front ++ op :: back ∧
      (∀ other ∈ front, ∀ behind, ¬ other.Calls text behind) ∧ op.Calls text rest ∧
        replaceAllWith entries text = op.name ++ rest := by
  induction ops generalizing entries with
  | nil =>
      obtain ⟨op, hop, -⟩ := h
      cases hop
  | cons op ops ih =>
      rcases entries with _ | ⟨entry, entries⟩
      · cases hentries
      · obtain ⟨hphrase, hrest⟩ := List.cons.inj hentries
        obtain ⟨hop, hops⟩ := List.forall_mem_cons.mp hops
        by_cases hcalls : ∃ rest, op.Calls text rest
        · obtain ⟨rest, hcalls⟩ := hcalls
          refine ⟨[], op, ops, rest, rfl, nofun, hcalls, ?_⟩
          rw [replaceAllWith, List.foldl_cons, replaceWith_of_calls hphrase hop hcalls]
          exact replaceAllWith_of_not_calls hrest fun other _ => not_calls_name hop rest
        · have hnot (rest : List Char) : ¬ op.Calls text rest := fun h => hcalls ⟨rest, h⟩
          have hbehind : ∃ op ∈ ops, ∃ rest, op.Calls text rest := by
            obtain ⟨other, hother, rest, hrest⟩ := h
            rcases List.mem_cons.mp hother with rfl | hother
            · exact absurd hrest (hnot rest)
            · exact ⟨other, hother, rest, hrest⟩
          obtain ⟨front, found, back, rest, rfl, hfront, hfound, heq⟩ := ih hrest hops hbehind
          refine ⟨op :: front, found, back, rest, rfl, ?_, hfound, ?_⟩
          · exact List.forall_mem_cons.mpr ⟨hnot, hfront⟩
          · rw [replaceAllWith, List.foldl_cons, replaceWith_of_not_calls hphrase hnot]
            exact heq

end Table

/-- The operator with the longest symbol that a text names, with what is behind it. -/
structure CallsLongest (text : List Char) (op : Operator) (rest : List Char) : Prop where
  listed : op ∈ operators
  called : op.Calls text rest
  longest : ∀ other ∈ operators, ∀ behind, other.Calls text behind →
    other.symbol.length ≤ op.symbol.length

/-- The first operator called is the one with the longest symbol. -/
theorem callsLongest_of_first {front back : List Operator} {op : Operator} {text rest : List Char}
    (hops : operators = front ++ op :: back)
    (hfront : ∀ other ∈ front, ∀ behind, ¬ other.Calls text behind)
    (h : op.Calls text rest) : CallsLongest text op rest := by
  have hop : op ∈ operators := by simp [hops]
  refine ⟨hop, h, fun other hother behind hcalls => ?_⟩
  have hmem := hother
  rw [hops] at hmem
  rcases List.mem_append.mp hmem with hmem | hmem
  · exact absurd hcalls (hfront other hmem behind)
  · rcases List.mem_cons.mp hmem with rfl | hback
    · exact Nat.le_refl _
    · have horder := pairwise_operators
      rw [hops] at horder
      have hnot := List.rel_of_pairwise_cons (List.pairwise_append.mp horder).2.1 hback
      have hsame := (h.trimStart_eq (isDistinct_of_mem_operators hop)).symm.trans
        (hcalls.trimStart_eq (isDistinct_of_mem_operators hother))
      have hboth : op.symbol <+: other.symbol ∨ other.symbol <+: op.symbol :=
        List.prefix_or_prefix_of_prefix (List.prefix_append _ rest)
          (hsame ▸ List.prefix_append _ behind)
      exact (hboth.resolve_left hnot).length_le

theorem CallsLongest.unique {op other : Operator} {text rest behind : List Char}
    (h : CallsLongest text op rest) (hother : CallsLongest text other behind) :
    op = other ∧ rest = behind := by
  have hlength := Nat.le_antisymm (hother.longest op h.listed rest h.called)
    (h.longest other hother.listed behind hother.called)
  have hsame := (h.called.trimStart_eq (isDistinct_of_mem_operators h.listed)).symm.trans
    (hother.called.trimStart_eq (isDistinct_of_mem_operators hother.listed))
  obtain ⟨hsymbol, hrest⟩ := List.append_inj hsame hlength
  exact ⟨List.inj_on_of_nodup_map nodup_symbols h.listed hother.listed hsymbol, hrest⟩

theorem methodNames_cases (text : List Char) :
    (∃ op rest, CallsLongest text op rest ∧ replaceAllWith methodNames text = op.name ++ rest) ∨
      (∀ op ∈ operators, ∀ rest, ¬ op.Calls text rest) ∧ replaceAllWith methodNames text = text := by
  by_cases hcalls : ∃ op ∈ operators, ∃ rest, op.Calls text rest
  · obtain ⟨front, op, back, rest, hops, hfront, hop, heq⟩ :=
      replaceAllWith_of_calls phrases?_methodNames (fun _ => isDistinct_of_mem_operators) hcalls
    exact Or.inl ⟨op, rest, callsLongest_of_first hops hfront hop, heq⟩
  · have hnot : ∀ op ∈ operators, ∀ rest, ¬ op.Calls text rest :=
      fun op hop rest h => hcalls ⟨op, hop, rest, h⟩
    exact Or.inr ⟨hnot, replaceAllWith_of_not_calls phrases?_methodNames hnot⟩

theorem apply_methodNames (name : String) :
    standard.methodNames.apply name = String.ofList (replaceAllWith methodNames name.toList) := by
  rw [standard, apply_tableOf, ← replaceAllWith]

/-- A name that calls an operator becomes the name of the longest, with all that is behind it, and
no other name is changed. -/
theorem methodNames_apply_eq_iff (name result : String) :
    standard.methodNames.apply name = result ↔
      (∃ op rest, CallsLongest name.toList op rest ∧ result.toList = op.name ++ rest) ∨
        (∀ op ∈ operators, ∀ rest, ¬ op.Calls name.toList rest) ∧ result = name := by
  rw [apply_methodNames]
  constructor
  · rintro rfl
    rw [String.toList_ofList]
    rcases methodNames_cases name.toList with hlongest | ⟨hnot, heq⟩
    · exact Or.inl hlongest
    · exact Or.inr ⟨hnot, by rw [heq, String.ofList_toList]⟩
  · intro h
    rw [← String.toList_inj, String.toList_ofList]
    rcases methodNames_cases name.toList with ⟨op, rest, hlongest, heq⟩ | ⟨hnot, heq⟩
    · rcases h with ⟨other, behind, hother, hresult⟩ | ⟨hnot, -⟩
      · obtain ⟨rfl, rfl⟩ := hlongest.unique hother
        rw [heq, hresult]
      · exact absurd hlongest.called (hnot op hlongest.listed rest)
    · rcases h with ⟨other, behind, hother, -⟩ | ⟨-, rfl⟩
      · exact absurd hother.called (hnot other hother.listed behind)
      · exact heq

end Standard

end ClassSkeleton.Rules

namespace ClassSkeleton.Skeleton.Rewriting

open Rules Standard Operator

/-- The characters of which operators are made. -/
def operatorChars : List Char := "+-*/%=<>!&|^~,[]()".toList

theorem not_isBlank_of_mem_operatorChars {c : Char} (h : c ∈ operatorChars) :
    Unicode.isBlank c = false := by
  have hall : operatorChars.all (fun c => !Unicode.isBlank c) = true := by decide
  simpa using List.all_eq_true.mp hall c h

theorem not_mem_operatorChars_of_mem_name {op : Operator} (hop : op ∈ operators) {c : Char}
    (hc : c ∈ op.name) : c ∉ operatorChars := by
  have hall : operators.all (fun op => op.name.all fun c => !operatorChars.contains c) = true := by
    decide
  simpa using List.all_eq_true.mp (List.all_eq_true.mp hall op hop) c hc

/-- Whether a name is left alone or made into one without a character of an operator. -/
def IsWhole (name result : String) : Prop :=
  result = name ∨ ∀ c ∈ result.toList, c ∉ operatorChars

instance (name result : String) : Decidable (IsWhole name result) :=
  inferInstanceAs (Decidable (_ ∨ _))

/-- What is left of a run behind the longest symbol shows in the name. -/
theorem isWhole_iff_of_callsLongest {text rest : List Char} {op : Operator}
    (hlongest : CallsLongest text op rest) (hrest : ∀ c ∈ rest, c ∈ operatorChars) :
    IsWhole (String.ofList text) (String.ofList (op.name ++ rest)) ↔ rest = [] := by
  rw [IsWhole, String.toList_ofList]
  constructor
  · rintro (hsame | hnone)
    · rw [String.ofList_inj] at hsame
      have hcalled := hlongest.called
      rw [← hsame] at hcalled
      exact absurd hcalled (not_calls_name (isDistinct_of_mem_operators hlongest.listed) rest rest)
    · by_contra hne
      obtain ⟨c, more, rfl⟩ := List.exists_cons_of_ne_nil hne
      exact hnone c (by simp) (hrest c (by simp))
  · rintro rfl
    rw [List.append_nil]
    exact Or.inr fun c hc => not_mem_operatorChars_of_mem_name hlongest.listed hc

/-- The name of an operator is translated as a whole just if its symbol is listed, or no listed
symbol stands at its start. -/
theorem methodName_isWhole_iff {w : Rewriting} (hrules : w.rules = standard)
    {blanks run : List Char} (hblanks : ∀ c ∈ blanks, Unicode.isBlank c = true)
    (hrun : ∀ c ∈ run, c ∈ operatorChars) :
    let name := String.ofList (word ++ (blanks ++ run))
    IsWhole name (w.methodName name) ↔
      (∀ op ∈ operators, ¬ op.symbol <+: run) ∨ ∃ op ∈ operators, op.symbol = run := by
  intro name
  have hhead : ∀ c ∈ run.head?, Unicode.isBlank c = false := fun c hc =>
    not_isBlank_of_mem_operatorChars (hrun c (List.mem_of_head? hc))
  have hcalls {op : Operator} (hop : op ∈ operators) (rest : List Char) :
      op.Calls (word ++ (blanks ++ run)) rest ↔ run = op.symbol ++ rest :=
    calls_iff (isDistinct_of_mem_operators hop) hblanks hhead
  rw [methodName, hrules, apply_methodNames, String.toList_ofList]
  rcases methodNames_cases (word ++ (blanks ++ run)) with ⟨op, rest, hlongest, heq⟩ | ⟨hnot, heq⟩
  · have hparts := (hcalls hlongest.listed rest).mp hlongest.called
    have hrest : ∀ c ∈ rest, c ∈ operatorChars := fun c hc =>
      hrun c (by rw [hparts]; exact List.mem_append_right _ hc)
    rw [heq, isWhole_iff_of_callsLongest hlongest hrest]
    constructor
    · rintro rfl
      exact Or.inr ⟨op, hlongest.listed, by rw [hparts, List.append_nil]⟩
    · rintro (hnone | ⟨other, hother, hsymbol⟩)
      · exact absurd (hparts ▸ List.prefix_append _ rest) (hnone op hlongest.listed)
      · have hlength := hlongest.longest other hother []
          ((hcalls hother []).mpr (by rw [hsymbol, List.append_nil]))
        rw [hsymbol, hparts, List.length_append] at hlength
        exact List.length_eq_zero_iff.mp (by omega)
  · rw [heq]
    refine iff_of_true (Or.inl rfl) (Or.inl ?_)
    rintro op hop ⟨rest, hparts⟩
    exact hnot op hop rest ((hcalls hop rest).mpr hparts.symm)

/-- The symbol of a listed operator behind blanks. -/
theorem methodName_isWhole_assign :
    let w : Rewriting := ⟨standard, ""⟩
    let name := String.ofList (word ++ ([' ', '\t'] ++ "<<=".toList))
    (∀ c ∈ [' ', '\t'], Unicode.isBlank c = true) ∧ (∀ c ∈ "<<=".toList, c ∈ operatorChars) ∧
      IsWhole name (w.methodName name) := by
  intro w name
  have hblanks : ∀ c ∈ [' ', '\t'], Unicode.isBlank c = true := by decide
  have hrun : ∀ c ∈ "<<=".toList, c ∈ operatorChars := by decide
  have hrules : w.rules = standard := rfl
  have hlisted : ∃ op ∈ operators, op.symbol = "<<=".toList :=
    ⟨⟨"<<=".toList, "shlAssign".toList⟩, List.mem_cons_self, rfl⟩
  exact ⟨hblanks, hrun, (methodName_isWhole_iff hrules hblanks hrun).mpr (Or.inr hlisted)⟩

/-- Operators that go on from a listed one are translated in part. -/
theorem methodName_not_isWhole :
    let w : Rewriting := ⟨standard, ""⟩
    w.methodName "operator<=>" = "le>" ∧ ¬ IsWhole "operator<=>" (w.methodName "operator<=>") ∧
      w.methodName "operator->*" = "deref*" ∧
        ¬ IsWhole "operator->*" (w.methodName "operator->*") := by
  intro w
  have hrules : w.rules = standard := rfl
  have hname {name result : String}
      (h : rewriteAll (asChars methodNames) name.toList = result.toList) :
      w.methodName name = result := by
    rw [methodName, hrules, apply_methodNames, replaceAllWith_eq, h, String.ofList_toList]
  have hspaceship : w.methodName "operator<=>" = "le>" := hname (by decide +kernel)
  have harrow : w.methodName "operator->*" = "deref*" := hname (by decide +kernel)
  rw [hspaceship, harrow]
  exact ⟨rfl, by decide, rfl, by decide⟩

end ClassSkeleton.Skeleton.Rewriting
