import ClassSkeleton.Compile
import ClassSkeleton.Rules.Standard
import Mathlib.Data.List.Forall2
import Mathlib.Data.List.Induction
import Mathlib.Data.List.InsertIdx

namespace ClassSkeleton

/-!
# The first class of a file wins

A file belongs to the first class that can be read and whose unit has its name. The units of a
document are those of the owners, and every other compound has one problem. A compound that owns
no file could as well be missing.
-/

open Skeleton (SourceUnit)

/-- A compound as it has been read, with the name it is reported by. -/
abbrev Entry := String × Except Diagnostic Decl.ClassDecl

section Owners

variable (generate : Decl.ClassDecl → SourceUnit)

def unitOf : Entry → Option SourceUnit
  | (_, .error _) => none
  | (_, .ok c) => some (generate c)

def unitAt (entries : List Entry) (i : Nat) : Option SourceUnit :=
  entries[i]?.bind (unitOf generate)

/-- Whether the entry at a place can be read and no readable entry before it has its file. -/
def owns (entries : List Entry) (i : Nat) : Bool :=
  match unitAt generate entries i with
  | none => false
  | some u =>
    (List.range i).all fun j => (unitAt generate entries j).all (·.fileName ≠ u.fileName)

/-- The problem of an entry that owns no file. A duplicate names the class of the owner. -/
inductive Explains (entries : List Entry) : Nat → Problem → Prop
  | rejected {i : Nat} {name : String} {why : Diagnostic}
      (entry : entries[i]? = some (name, .error why)) :
      Explains entries i (.rejected name why)
  | duplicate {i j : Nat} {name first : String} {c d : Decl.ClassDecl}
      (entry : entries[i]? = some (name, .ok c)) (before : j < i)
      (owner : entries[j]? = some (first, .ok d)) (isOwner : owns generate entries j = true)
      (sameFile : (generate d).fileName = (generate c).fileName) :
      Explains entries i (.duplicate c.name (generate c).fileName d.name)

structure FirstWins (entries : List Entry) (result : Compiled) : Prop where
  units : result.units = (List.range entries.length).filterMap fun i =>
    if owns generate entries i then unitAt generate entries i else none
  problems : List.Forall₂ (Explains generate entries)
    ((List.range entries.length).filter fun i => !owns generate entries i) result.problems

variable {generate}

theorem owns_iff {entries : List Entry} {i : Nat} :
    owns generate entries i = true ↔
      ∃ u, unitAt generate entries i = some u ∧
        ∀ j < i, ∀ v, unitAt generate entries j = some v → v.fileName ≠ u.fileName := by
  unfold owns
  cases hu : unitAt generate entries i with
  | none => simp
  | some u => simp [List.all_eq_true, Option.all_eq_true]

theorem unitAt_append_left {before : List Entry} {i : Nat} (h : i < before.length)
    (rest : List Entry) :
    unitAt generate (before ++ rest) i = unitAt generate before i := by
  rw [unitAt, unitAt, List.getElem?_append_left h]

theorem owns_append_left {before : List Entry} {i : Nat} (h : i < before.length)
    (rest : List Entry) : owns generate (before ++ rest) i = owns generate before i := by
  apply Bool.eq_iff_iff.mpr
  rw [owns_iff, owns_iff, unitAt_append_left h]
  refine exists_congr fun u => and_congr_right fun _ => ?_
  refine forall_congr' fun j => forall_congr' fun hj => ?_
  rw [unitAt_append_left (Nat.lt_trans hj h)]

theorem lt_length_of_unitAt {entries : List Entry} {i : Nat} {u : SourceUnit}
    (h : unitAt generate entries i = some u) : i < entries.length := by
  obtain ⟨e, he, -⟩ := Option.bind_eq_some_iff.mp h
  exact (List.getElem?_eq_some_iff.mp he).1

/-- Every readable entry has the file of an owner that does not come behind it. -/
theorem exists_owner {entries : List Entry} {i : Nat} {u : SourceUnit}
    (h : unitAt generate entries i = some u) :
    ∃ j ≤ i, ∃ v, owns generate entries j = true ∧ unitAt generate entries j = some v ∧
      v.fileName = u.fileName := by
  induction i using Nat.strongRecOn generalizing u with
  | ind i ih =>
      by_cases hfirst : ∀ j < i, ∀ v, unitAt generate entries j = some v →
          v.fileName ≠ u.fileName
      · exact ⟨i, Nat.le_refl i, u, owns_iff.mpr ⟨u, h, hfirst⟩, h, rfl⟩
      · push Not at hfirst
        obtain ⟨j, hj, v, hv, hfile⟩ := hfirst
        obtain ⟨k, hk, w, howner, hw, hwv⟩ := ih j hj hv
        exact ⟨k, Nat.le_trans hk (Nat.le_of_lt hj), w, howner, hw, hwv.trans hfile⟩

/-- The owners of files once an entry has been taken. -/
def claim (generate : Decl.ClassDecl → SourceUnit) (owners : List (String × String)) :
    Entry → List (String × String)
  | (_, .error _) => owners
  | (_, .ok c) =>
    match owners.lookup (generate c).fileName with
    | some _ => owners
    | none => ((generate c).fileName, c.name) :: owners

theorem compileFrom_append (owners : List (String × String)) (before rest : List Entry) :
    compileFrom generate owners (before ++ rest) =
      ⟨(compileFrom generate owners before).units ++
          (compileFrom generate (before.foldl (claim generate) owners) rest).units,
        (compileFrom generate owners before).problems ++
          (compileFrom generate (before.foldl (claim generate) owners) rest).problems⟩ := by
  induction before generalizing owners with
  | nil => rfl
  | cons e before ih =>
      obtain ⟨name, why | c⟩ := e
      · simp [compileFrom, claim, Compiled.addProblem, ih]
      · cases hfile : owners.lookup (generate c).fileName with
        | some first => simp [compileFrom, claim, hfile, Compiled.addProblem, ih]
        | none => simp [compileFrom, claim, hfile, Compiled.addUnit, ih]

/-- Whether `owners` lists the files of the owners among some entries, each with the name of its
class. -/
def Registered (generate : Decl.ClassDecl → SourceUnit) (entries : List Entry)
    (owners : List (String × String)) : Prop :=
  ∀ file first, owners.lookup file = some first ↔
    ∃ i name c, entries[i]? = some (name, .ok c) ∧ owns generate entries i = true ∧
      (generate c).fileName = file ∧ c.name = first

theorem unitAt_of_getElem? {entries : List Entry} {i : Nat} {name : String}
    {c : Decl.ClassDecl} (h : entries[i]? = some (name, .ok c)) :
    unitAt generate entries i = some (generate c) := by
  simp [unitAt, h, unitOf]

theorem exists_getElem?_of_unitAt {entries : List Entry} {i : Nat} {u : SourceUnit}
    (h : unitAt generate entries i = some u) :
    ∃ name c, entries[i]? = some (name, .ok c) ∧ generate c = u := by
  obtain ⟨⟨name, why | c⟩, he, hu⟩ := Option.bind_eq_some_iff.mp h
  · simp [unitOf] at hu
  · exact ⟨name, c, he, Option.some.inj hu⟩

theorem Registered.lookup_eq_none_iff {entries : List Entry} {owners : List (String × String)}
    (h : Registered generate entries owners) (file : String) :
    owners.lookup file = none ↔
      ∀ i u, unitAt generate entries i = some u → u.fileName ≠ file := by
  constructor
  · intro hnone i u hu hfile
    obtain ⟨j, -, v, howner, hv, hvu⟩ := exists_owner hu
    obtain ⟨name, c, he, rfl⟩ := exists_getElem?_of_unitAt hv
    have hsome := (h file c.name).mpr ⟨j, name, c, he, howner, hvu.trans hfile, rfl⟩
    simp [hnone] at hsome
  · intro hall
    cases hfile : owners.lookup file with
    | none => rfl
    | some first =>
        obtain ⟨i, name, c, he, -, hc, -⟩ := (h file first).mp hfile
        exact absurd hc (hall i _ (unitAt_of_getElem? he))

theorem getElem?_concat_eq_some_iff {entries : List Entry} {e x : Entry} {i : Nat} :
    (entries ++ [e])[i]? = some x ↔
      entries[i]? = some x ∨ i = entries.length ∧ e = x := by
  rw [List.getElem?_append]
  split
  · next h => exact ⟨Or.inl, fun hor => hor.resolve_right fun hi => Nat.ne_of_lt h hi.1⟩
  · next h =>
      rw [List.getElem?_eq_none (Nat.le_of_not_lt h), List.getElem?_singleton]
      split
      · next hi => simp [Nat.le_antisymm (Nat.sub_eq_zero_iff_le.mp hi) (Nat.le_of_not_lt h)]
      · next hi => simp [show i ≠ entries.length by omega]

/-- The last entry owns its file if the file has no owner among the entries before it. -/
theorem Registered.owns_concat_iff {entries : List Entry} {owners : List (String × String)}
    (h : Registered generate entries owners) (name : String) (c : Decl.ClassDecl) :
    owns generate (entries ++ [(name, .ok c)]) entries.length = true ↔
      owners.lookup (generate c).fileName = none := by
  have hlast : unitAt generate (entries ++ [(name, .ok c)]) entries.length =
      some (generate c) := unitAt_of_getElem? (getElem?_concat_eq_some_iff.mpr (.inr ⟨rfl, rfl⟩))
  rw [owns_iff, h.lookup_eq_none_iff]
  constructor
  · rintro ⟨u, hu, hfirst⟩ i v hv
    obtain rfl := Option.some.inj (hlast.symm.trans hu)
    have hi := lt_length_of_unitAt hv
    exact hfirst i hi v ((unitAt_append_left hi _).trans hv)
  · intro hall
    refine ⟨generate c, hlast, fun i hi v hv => ?_⟩
    exact hall i v ((unitAt_append_left hi _).symm.trans hv)

theorem Registered.concat {entries : List Entry} {owners : List (String × String)}
    (h : Registered generate entries owners) (e : Entry) :
    Registered generate (entries ++ [e]) (claim generate owners e) := by
  intro file first
  -- The entries before the last one own what they have owned.
  have hold : (∃ i name c, entries[i]? = some (name, .ok c) ∧
      owns generate (entries ++ [e]) i = true ∧ (generate c).fileName = file ∧ c.name = first) ↔
        owners.lookup file = some first := by
    rw [h file first]
    refine exists_congr fun i => exists_congr fun name => exists_congr fun c => ?_
    refine and_congr_right fun hi => ?_
    rw [owns_append_left (List.getElem?_eq_some_iff.mp hi).1]
  simp only [getElem?_concat_eq_some_iff, or_and_right, exists_or, hold]
  obtain ⟨name, why | c⟩ := e
  · simp [claim]
  · have howns := h.owns_concat_iff name c
    cases hfile : owners.lookup (generate c).fileName with
    | some other =>
        simp only [claim, hfile]
        refine ⟨Or.inl, fun hor => hor.elim id ?_⟩
        rintro ⟨i, -, d, ⟨rfl, -⟩, howner, -⟩
        simp [howns.mp howner] at hfile
    | none =>
        simp only [claim, hfile, List.lookup_cons]
        by_cases hname : file = (generate c).fileName
        · subst hname
          simp [hfile, howns.mpr hfile]
        · rw [beq_false_of_ne hname]
          refine ⟨Or.inl, fun hor => hor.elim id ?_⟩
          rintro ⟨i, other, d, ⟨rfl, heq⟩, -, hd, -⟩
          cases heq
          exact absurd hd.symm hname

theorem registered_foldl (entries : List Entry) :
    Registered generate entries (entries.foldl (claim generate) []) := by
  induction entries using List.reverseRecOn with
  | nil => simp [Registered]
  | append_singleton entries e ih =>
      rw [List.foldl_append]
      exact ih.concat e

theorem Explains.append {entries : List Entry} {i : Nat} {p : Problem}
    (h : Explains generate entries i p) (rest : List Entry) :
    Explains generate (entries ++ rest) i p := by
  cases h with
  | rejected entry =>
      have hi := (List.getElem?_eq_some_iff.mp entry).1
      exact .rejected ((List.getElem?_append_left hi).trans entry)
  | duplicate entry before owner isOwner sameFile =>
      have hi := (List.getElem?_eq_some_iff.mp entry).1
      have hj := (List.getElem?_eq_some_iff.mp owner).1
      exact .duplicate ((List.getElem?_append_left hi).trans entry) before
        ((List.getElem?_append_left hj).trans owner) ((owns_append_left hj rest).trans isOwner)
        sameFile

section Concat

variable {entries : List Entry} {result : Compiled} {e : Entry}

theorem FirstWins.before_concat (h : FirstWins generate entries result) (e : Entry) :
    ((List.range entries.length).filterMap fun i =>
      if owns generate (entries ++ [e]) i then unitAt generate (entries ++ [e]) i else none) =
        result.units ∧
      List.Forall₂ (Explains generate (entries ++ [e]))
        ((List.range entries.length).filter fun i => !owns generate (entries ++ [e]) i)
        result.problems := by
  have hsame : ∀ i ∈ List.range entries.length,
      owns generate (entries ++ [e]) i = owns generate entries i := fun i hi =>
    owns_append_left (List.mem_range.mp hi) _
  refine ⟨?_, ?_⟩
  · rw [h.units]
    refine List.filterMap_congr fun i hi => ?_
    rw [hsame i hi, unitAt_append_left (List.mem_range.mp hi)]
  · rw [List.filter_congr fun i hi => congrArg (!·) (hsame i hi)]
    exact h.problems.imp fun i p hp => hp.append [e]

theorem range_length_concat (entries : List Entry) (e : Entry) :
    List.range (entries ++ [e]).length = List.range entries.length ++ [entries.length] := by
  rw [List.length_append, List.length_singleton, List.range_succ]

theorem FirstWins.concat_unit (h : FirstWins generate entries result) {u : SourceUnit}
    (howns : owns generate (entries ++ [e]) entries.length = true)
    (hunit : unitAt generate (entries ++ [e]) entries.length = some u) :
    FirstWins generate (entries ++ [e]) ⟨result.units ++ [u], result.problems⟩ := by
  obtain ⟨hunits, hproblems⟩ := h.before_concat e
  refine ⟨?_, ?_⟩
  · rw [range_length_concat, List.filterMap_append, hunits]
    simp [howns, hunit]
  · rw [range_length_concat, List.filter_append]
    simpa [howns] using hproblems

theorem FirstWins.concat_problem (h : FirstWins generate entries result) {p : Problem}
    (howns : owns generate (entries ++ [e]) entries.length = false)
    (hexplains : Explains generate (entries ++ [e]) entries.length p) :
    FirstWins generate (entries ++ [e]) ⟨result.units, result.problems ++ [p]⟩ := by
  obtain ⟨hunits, hproblems⟩ := h.before_concat e
  refine ⟨?_, ?_⟩
  · rw [range_length_concat, List.filterMap_append, hunits]
    simp [howns]
  · rw [range_length_concat, List.filter_append]
    refine List.rel_append hproblems ?_
    simpa [howns] using hexplains

/-- What the last entry adds, beside the owners among the entries before it. -/
theorem firstWins_concat (h : FirstWins generate entries result) (e : Entry) :
    FirstWins generate (entries ++ [e])
      ⟨result.units ++
          (compileFrom generate (entries.foldl (claim generate) []) [e]).units,
        result.problems ++
          (compileFrom generate (entries.foldl (claim generate) []) [e]).problems⟩ := by
  have hreg : Registered generate entries (entries.foldl (claim generate) []) :=
    registered_foldl entries
  have hlast : (entries ++ [e])[entries.length]? = some e :=
    getElem?_concat_eq_some_iff.mpr (.inr ⟨rfl, rfl⟩)
  obtain ⟨name, why | c⟩ := e
  · have hno : owns generate (entries ++ [(name, .error why)]) entries.length = false := by
      simp [owns, unitAt, unitOf]
    simpa [compileFrom, Compiled.addProblem, Compiled.empty] using
      h.concat_problem hno (.rejected hlast)
  · have howns := hreg.owns_concat_iff name c
    cases hfile : (entries.foldl (claim generate) []).lookup (generate c).fileName with
    | none =>
        simpa [compileFrom, Compiled.addUnit, Compiled.empty, hfile] using
          h.concat_unit (howns.mpr hfile) (unitAt_of_getElem? hlast)
    | some first =>
        have hno : owns generate (entries ++ [(name, .ok c)]) entries.length = false :=
          Bool.eq_false_iff.mpr fun hyes => by simp [howns.mp hyes] at hfile
        obtain ⟨j, other, d, hj, howner, hsameFile, rfl⟩ := (hreg _ _).mp hfile
        have hlt := (List.getElem?_eq_some_iff.mp hj).1
        have hexplains : Explains generate (entries ++ [(name, .ok c)]) entries.length
            (.duplicate c.name (generate c).fileName d.name) :=
          .duplicate hlast hlt ((List.getElem?_append_left hlt).trans hj)
            ((owns_append_left hlt _).trans howner) hsameFile
        simpa [compileFrom, Compiled.addProblem, Compiled.empty, hfile] using
          h.concat_problem hno hexplains

end Concat

theorem firstWins_compileFrom (entries : List Entry) :
    FirstWins generate entries (compileFrom generate [] entries) := by
  induction entries using List.reverseRecOn with
  | nil => exact ⟨rfl, .nil⟩
  | append_singleton entries e ih =>
      rw [compileFrom_append]
      exact firstWins_concat ih e

theorem length_compileFrom (owners : List (String × String)) (entries : List Entry) :
    (compileFrom generate owners entries).units.length +
      (compileFrom generate owners entries).problems.length = entries.length := by
  induction entries generalizing owners with
  | nil => rfl
  | cons e entries ih =>
      obtain ⟨name, why | c⟩ := e
      · have hrest := ih owners
        simp only [compileFrom, Compiled.addProblem, List.length_cons]
        omega
      · cases hfile : owners.lookup (generate c).fileName with
        | some first =>
            have hrest := ih owners
            simp only [compileFrom, hfile, Compiled.addProblem, List.length_cons]
            omega
        | none =>
            have hrest := ih (((generate c).fileName, c.name) :: owners)
            simp only [compileFrom, hfile, Compiled.addUnit, List.length_cons]
            omega

/-- No unit has a file that an owner has, and no two units have the same file. -/
theorem pairwise_fileName_compileFrom (owners : List (String × String)) (entries : List Entry) :
    (∀ u ∈ (compileFrom generate owners entries).units, owners.lookup u.fileName = none) ∧
      ((compileFrom generate owners entries).units.map (·.fileName)).Nodup := by
  induction entries generalizing owners with
  | nil => simp [compileFrom, Compiled.empty]
  | cons e entries ih =>
      obtain ⟨name, why | c⟩ := e
      · exact ih owners
      · cases hfile : owners.lookup (generate c).fileName with
        | some first => simpa [compileFrom, hfile, Compiled.addProblem] using ih owners
        | none =>
            obtain ⟨hfree, hnodup⟩ := ih (((generate c).fileName, c.name) :: owners)
            have hother : ∀ u ∈ (compileFrom generate
                (((generate c).fileName, c.name) :: owners) entries).units,
                u.fileName ≠ (generate c).fileName ∧ owners.lookup u.fileName = none := by
              intro u hu
              have hnone := hfree u hu
              rw [List.lookup_cons] at hnone
              cases hsame : u.fileName == (generate c).fileName with
              | true => simp [hsame] at hnone
              | false => exact ⟨ne_of_beq_false hsame, by simpa [hsame] using hnone⟩
            simp only [compileFrom, hfile, Compiled.addUnit]
            refine ⟨?_, ?_⟩
            · rintro u (_ | ⟨_, hu⟩)
              · exact hfile
              · exact (hother u hu).2
            · refine List.nodup_cons.mpr ⟨fun hmem => ?_, hnodup⟩
              obtain ⟨u, hu, heq⟩ := List.mem_map.mp hmem
              exact (hother u hu).1 heq

theorem compileFrom_cons_of_not_owns {entries : List Entry} {owners : List (String × String)}
    (hreg : Registered generate entries owners) {e : Entry}
    (h : owns generate (entries ++ [e]) entries.length = false) (rest : List Entry) :
    claim generate owners e = owners ∧
      ∃ p, compileFrom generate owners (e :: rest) =
        (compileFrom generate owners rest).addProblem p := by
  obtain ⟨name, why | c⟩ := e
  · exact ⟨rfl, _, rfl⟩
  · cases hfile : owners.lookup (generate c).fileName with
    | none => simp [(hreg.owns_concat_iff name c).mpr hfile] at h
    | some first => exact ⟨by simp [claim, hfile], _, by simp only [compileFrom, hfile]; rfl⟩

/-- Without an entry that owns no file, nothing but the problem of that entry is missing. -/
theorem compileFrom_append_of_not_owns {before after : List Entry} {e : Entry}
    (h : owns generate (before ++ e :: after) before.length = false) :
    compileFrom generate [] (before ++ after) =
      ⟨(compileFrom generate [] (before ++ e :: after)).units,
        (compileFrom generate [] (before ++ e :: after)).problems.eraseIdx
          ((List.range before.length).countP fun j =>
            !owns generate (before ++ e :: after) j)⟩ := by
  have hcount : ((List.range before.length).countP fun j =>
      !owns generate (before ++ e :: after) j) =
        (compileFrom generate [] before).problems.length := by
    rw [← (firstWins_compileFrom before).problems.length_eq, List.countP_eq_length_filter]
    refine congrArg List.length (List.filter_congr fun j hj => congrArg (!·) ?_)
    exact owns_append_left (List.mem_range.mp hj) _
  have hno : owns generate (before ++ [e]) before.length = false := by
    rw [List.append_cons] at h
    rwa [owns_append_left (by simp)] at h
  obtain ⟨-, p, hp⟩ := compileFrom_cons_of_not_owns (registered_foldl before) hno after
  rw [hcount, compileFrom_append, compileFrom_append, hp]
  simp [Compiled.addProblem, List.eraseIdx_append_of_length_le]

theorem compileFrom_eraseIdx {entries : List Entry} {i : Nat} (hi : i < entries.length)
    (h : owns generate entries i = false) :
    compileFrom generate [] (entries.eraseIdx i) =
      ⟨(compileFrom generate [] entries).units,
        (compileFrom generate [] entries).problems.eraseIdx
          ((List.range i).countP fun j => !owns generate entries j)⟩ := by
  obtain ⟨before, e, after, rfl, rfl⟩ : ∃ before e after,
      entries = before ++ e :: after ∧ before.length = i :=
    ⟨_, _, _, by rw [← List.drop_eq_getElem_cons hi, List.take_append_drop],
      List.length_take_of_le (Nat.le_of_lt hi)⟩
  rw [← compileFrom_append_of_not_owns h, List.eraseIdx_append_of_length_le (Nat.le_refl _)]
  simp

end Owners

theorem length_readCompounds (source : String) (compounds : List Markup.Element) :
    (readCompounds source compounds).length = compounds.length := List.length_map _

/-- A document that parses compiles. Its units are those of the first readable class of each
file, and each of the other compounds has its own problem. A compound that owns no file takes
nothing from the others: without it they come to the same. -/
theorem compile_keeps_first_of_each_file (rules : Rules.RuleSet) (options : Skeleton.Options)
    (source : String) (root : Markup.Element) (h : Markup.parse source = .ok root) :
    ∃ result, compile rules options source = .ok result ∧
      let generate := Skeleton.generate rules options
      let compounds := Document.compoundsOf root
      let entries := readCompounds source compounds
      FirstWins generate entries result ∧
      result.units.length + result.problems.length = compounds.length ∧
      (result.units.map (·.fileName)).Nodup ∧
      ∀ i < compounds.length, owns generate entries i = false →
        compileFrom generate [] (readCompounds source (compounds.eraseIdx i)) =
          ⟨result.units, result.problems.eraseIdx
            ((List.range i).countP fun j => !owns generate entries j)⟩ := by
  refine ⟨compileFrom (Skeleton.generate rules options) []
    (readCompounds source (Document.compoundsOf root)), ?_, firstWins_compileFrom _, ?_,
    (pairwise_fileName_compileFrom [] _).2, ?_⟩
  · simp only [compile, Document.compounds, h]
  · rw [length_compileFrom, length_readCompounds]
  · intro i hi hno
    have hi' : i < (readCompounds source (Document.compoundsOf root)).length := by
      rwa [length_readCompounds]
    rw [readCompounds, ← List.eraseIdx_map]
    exact compileFrom_eraseIdx hi' hno

def compoundNode (kind name : String) : Markup.Node :=
  .element ⟨"compounddef", [("kind", kind), ("prot", "public")], 0⟩
    [.element ⟨"compoundname", [], 0⟩ [.text name]]

/-- A malformed class between two classes of one file. -/
def clashing : Markup.Element :=
  ⟨⟨"doxygen", [], 0⟩, [compoundNode "class" "N::A",
    .element ⟨"compounddef", [("kind", "class")], 0⟩ [], compoundNode "struct" "M::A"]⟩

theorem exists_of_map_toOption {ε α β : Type} {f : α → β} {x : Except ε α} {b : β}
    (h : x.toOption.map f = some b) : ∃ a, x = .ok a ∧ f a = b := by
  cases x with
  | error e => simp [Except.toOption] at h
  | ok a => exact ⟨a, rfl, Option.some.inj h⟩

theorem compile_keeps_first_of_clashing :
    ∃ root, Markup.parse clashing.toXml = .ok root ∧
      ∃ result, compile Rules.standard ⟨"", .fieldsFirst, "java"⟩ clashing.toXml = .ok result ∧
        FirstWins (Skeleton.generate Rules.standard ⟨"", .fieldsFirst, "java"⟩)
          (readCompounds clashing.toXml (Document.compoundsOf root)) result ∧
        result.units.length + result.problems.length = 3 ∧
        (result.units.map (·.fileName)).Nodup := by
  have hcount : (Markup.parse clashing.toXml).toOption.map
      (fun root => (Document.compoundsOf root).length) = some 3 := by
    rw [Markup.parse, Markup.events, Markup.Element.toXml, String.toList_ofList]
    decide +kernel
  obtain ⟨root, hparse, hthree⟩ := exists_of_map_toOption hcount
  obtain ⟨result, hresult, hfirst, hlength, hnodup, -⟩ := compile_keeps_first_of_each_file
    Rules.standard ⟨"", .fieldsFirst, "java"⟩ clashing.toXml root hparse
  exact ⟨root, hparse, result, hresult, hfirst, hlength.trans hthree, hnodup⟩

end ClassSkeleton
