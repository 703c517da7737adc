import ClassSkeleton.Document
import ClassSkeleton.Proofs.Decl.Grouping
import ClassSkeleton.Proofs.Text.Trimming

namespace ClassSkeleton.Decl

open Markup

/-!
# Which records are accepted

Reading a compound makes one check after the other: those of the compound itself, then those of
each member record below it in document order. The first check that fails is what is reported.
If none fails there is a declaration, with one member for every record of a function or variable.
-/

/-- Something that an element has to meet, and the error and its kind if it does not. -/
structure Check where
  element : Element
  met : Prop
  kind : DiagnosticKind
  error : RecordError

def Check.fault (c : Check) : RecordFault := ⟨c.error, c.element.tag.offset⟩

/-- Whether `c` fails, and all checks before it are met. -/
inductive FirstFailure : List Check → Check → Prop
  | here {c : Check} {rest : List Check} (fails : ¬ c.met) : FirstFailure (c :: rest) c
  | later {c d : Check} {rest : List Check} (met : c.met) (next : FirstFailure rest d) :
      FirstFailure (c :: rest) d

namespace FirstFailure

theorem not_met {checks : List Check} {c : Check} (h : FirstFailure checks c) :
    c ∈ checks ∧ ¬ c.met := by
  induction h with
  | here fails => exact ⟨List.mem_cons_self, fails⟩
  | later _ _ ih => exact ⟨List.mem_cons_of_mem _ ih.1, ih.2⟩

theorem append_iff {checks more : List Check} {c : Check} : FirstFailure (checks ++ more) c ↔
    FirstFailure checks c ∨ (∀ d ∈ checks, d.met) ∧ FirstFailure more c := by
  induction checks with
  | nil =>
      have hnone : ¬ FirstFailure [] c := nofun
      simp [hnone]
  | cons d checks ih =>
      constructor
      · rintro (fails | ⟨met, next⟩)
        · exact Or.inl (.here fails)
        · rcases ih.mp next with h | ⟨hall, h⟩
          · exact Or.inl (.later met h)
          · exact Or.inr ⟨List.forall_mem_cons.mpr ⟨met, hall⟩, h⟩
      · rintro ((fails | ⟨met, next⟩) | ⟨hall, h⟩)
        · exact .here fails
        · exact .later met (ih.mpr (Or.inl next))
        · obtain ⟨hd, hall⟩ := List.forall_mem_cons.mp hall
          exact .later hd (ih.mpr (Or.inr ⟨hall, h⟩))

end FirstFailure

theorem exists_firstFailure {checks : List Check} (h : ¬ ∀ c ∈ checks, c.met) :
    ∃ c, FirstFailure checks c := by
  induction checks with
  | nil => simp at h
  | cons c checks ih =>
      by_cases hc : c.met
      · have hrest : ¬ ∀ d ∈ checks, d.met :=
          fun hall => h (List.forall_mem_cons.mpr ⟨hc, hall⟩)
        obtain ⟨d, hd⟩ := ih hrest
        exact ⟨d, .later hc hd⟩
      · exact ⟨c, .here hc⟩

/-- A reading that makes some checks in their order. If they are all met it gives a result. -/
structure Obeys {α : Type} (r : Reading α) (checks : List Check) (P : α → Prop) : Prop where
  refuses : ∀ c, FirstFailure checks c → r = .error c.fault
  accepts : (∀ c ∈ checks, c.met) → ∃ a, r = .ok a ∧ P a

namespace Obeys

variable {α β : Type} {r : Reading α} {checks : List Check} {P : α → Prop}

theorem done {a : α} (hr : r = .ok a) (h : P a) : Obeys r [] P := ⟨nofun, fun _ => ⟨a, hr, h⟩⟩

theorem check {c : Check} (hfails : ¬ c.met → r = .error c.fault)
    (hmet : c.met → Obeys r checks P) : Obeys r (c :: checks) P where
  refuses := by
    rintro d (fails | ⟨met, next⟩)
    · exact hfails fails
    · exact (hmet met).refuses d next
  accepts := by
    intro hall
    obtain ⟨hc, hchecks⟩ := List.forall_mem_cons.mp hall
    exact (hmet hc).accepts hchecks

theorem bind {f : α → Reading β} {more : List Check} {Q : β → Prop} (h : Obeys r checks P)
    (hf : ∀ a, P a → Obeys (f a) more Q) : Obeys (r >>= f) (checks ++ more) Q where
  refuses := by
    intro c hc
    rcases FirstFailure.append_iff.mp hc with hfirst | ⟨hall, hmore⟩
    · rw [h.refuses c hfirst]
      rfl
    · obtain ⟨a, rfl, ha⟩ := h.accepts hall
      exact (hf a ha).refuses c hmore
  accepts := by
    intro hall
    obtain ⟨hchecks, hmore⟩ := List.forall_mem_append.mp hall
    obtain ⟨a, rfl, ha⟩ := h.accepts hchecks
    exact (hf a ha).accepts hmore

theorem eq_ok_iff (h : Obeys r checks P) : (∃ a, r = .ok a) ↔ ∀ c ∈ checks, c.met := by
  constructor
  · rintro ⟨a, ha⟩
    by_contra hnot
    obtain ⟨c, hc⟩ := exists_firstFailure hnot
    cases ha.symm.trans (h.refuses c hc)
  · intro hall
    obtain ⟨a, ha, -⟩ := h.accepts hall
    exact ⟨a, ha⟩

theorem of_eq_ok (h : Obeys r checks P) {a : α} (ha : r = .ok a) : P a := by
  obtain ⟨b, hb, hP⟩ := h.accepts (h.eq_ok_iff.mp ⟨a, ha⟩)
  obtain rfl := Except.ok.inj (hb.symm.trans ha)
  exact hP

theorem eq_error_iff (h : Obeys r checks P) (fault : RecordFault) :
    r = .error fault ↔ ∃ c, FirstFailure checks c ∧ fault = c.fault := by
  constructor
  · intro hr
    have hnot : ¬ ∀ c ∈ checks, c.met := by
      intro hall
      obtain ⟨a, ha⟩ := h.eq_ok_iff.mpr hall
      cases hr.symm.trans ha
    obtain ⟨c, hc⟩ := exists_firstFailure hnot
    exact ⟨c, hc, Except.error.inj (hr.symm.trans (h.refuses c hc))⟩
  · rintro ⟨c, hc, rfl⟩
    exact h.refuses c hc

end Obeys

section Requirements

variable (e : Element) (name : String)

/-- The text of the first child of a name is not blank. -/
def HasText : Prop := ∃ child, e.child? name = some child ∧ Text.trimmed child.text ≠ ""

def HasFlag : Prop := e.attr? name = some "yes" ∨ e.attr? name = some "no"

/-- Where there is a protection, it is blank or one of the four levels. -/
def KnownProtection : Prop := ∀ protection ∈ e.attr? "prot",
  Text.trimmed protection ∈ ["public", "protected", "private", "package", ""]

/-- Whether a member record is that of a function or a variable. -/
def IsTranslated : Prop := e.attr? "kind" = some "function" ∨ e.attr? "kind" = some "variable"

instance : Decidable (IsTranslated e) :=
  inferInstanceAs (Decidable (e.attr? "kind" = some "function" ∨ e.attr? "kind" = some "variable"))

/-- The value of an attribute, as it is shown in an error. -/
def shownValue : String := (e.attr? name).getD ""

def attrCheck : Check :=
  ⟨e, (e.attr? name).isSome = true, .missingAttribute, .missingAttribute e.name name⟩

def textChecks : List Check :=
  [⟨e, (e.child? name).isSome = true, .missingElement, .missingChild e.name name⟩,
    ⟨e, HasText e name, .missingElement, .emptyChild e.name name⟩]

def flagChecks : List Check :=
  [attrCheck e name,
    ⟨e, HasFlag e name, .invalidAttribute, .wrongFlag e.name name (shownValue e name)⟩]

def kindCheck : Check :=
  ⟨e, e.attr? "kind" = some "class" ∨ e.attr? "kind" = some "struct", .invalidAttribute,
    .wrongKind (shownValue e "kind")⟩

def protectionCheck : Check :=
  ⟨e, KnownProtection e, .invalidAttribute, .unknownProtection (shownValue e "prot")⟩

/-- What a record of a member has to meet, in order; one that is not translated needs a kind
only. -/
def memberChecks : List Check :=
  [attrCheck e "kind"] ++
    if IsTranslated e then
      textChecks e "name" ++ (flagChecks e "static" ++
        ((if e.attr? "kind" = some "function" then [attrCheck e "virt"]
          else flagChecks e "mutable") ++ [protectionCheck e]))
    else []

def compoundChecks : List Check :=
  [attrCheck e "kind"] ++ ([kindCheck e] ++ ([protectionCheck e] ++ textChecks e "compoundname"))

end Requirements

/-- Everything that a compound has to meet, in order. -/
def checks (e : Element) : List Check :=
  compoundChecks e ++ (e.descendantsNamed "memberdef").flatMap memberChecks

/-- What a record of a member needs to be accepted. -/
structure AcceptableMember (e : Element) : Prop where
  kind : ∃ kind, e.attr? "kind" = some kind
  name : IsTranslated e → HasText e "name"
  isStatic : IsTranslated e → HasFlag e "static"
  protection : IsTranslated e → KnownProtection e
  virt : e.attr? "kind" = some "function" → ∃ virt, e.attr? "virt" = some virt
  isMutable : e.attr? "kind" = some "variable" → HasFlag e "mutable"

/-- What a compound needs to be accepted. -/
structure Acceptable (e : Element) : Prop where
  kind : e.attr? "kind" = some "class" ∨ e.attr? "kind" = some "struct"
  protection : KnownProtection e
  name : HasText e "compoundname"
  members : ∀ m ∈ e.descendantsNamed "memberdef", AcceptableMember m

section Readers

variable (e : Element) (name : String)

theorem obeys_requiredAttr :
    Obeys (requiredAttr e name) [attrCheck e name] (e.attr? name = some ·) := by
  cases hvalue : e.attr? name with
  | none =>
      apply Obeys.check
      · intro _
        simp [requiredAttr, hvalue, refuse, attrCheck, Check.fault]
      · intro hmet
        simp [attrCheck, hvalue] at hmet
  | some value =>
      apply Obeys.check
      · intro hfails
        simp [attrCheck, hvalue] at hfails
      · intro _
        exact .done (by simp [requiredAttr, hvalue]) rfl

/-- The trimmed text of the first child of a name. -/
def IsTextOf (text : String) : Prop :=
  ∃ child, e.child? name = some child ∧ text = Text.trimmed child.text ∧ text ≠ ""

theorem obeys_requiredText :
    Obeys (requiredText e name) (textChecks e name) (IsTextOf e name) := by
  cases hchild : e.child? name with
  | none =>
      apply Obeys.check
      · intro _
        simp [requiredText, hchild, refuse, Check.fault]
      · intro hmet
        simp [hchild] at hmet
  | some child =>
      apply Obeys.check
      · intro hfails
        simp [hchild] at hfails
      · intro _
        apply Obeys.check
        · intro hfails
          have hempty : Text.trimmed child.text = "" := by
            by_contra hne
            exact hfails ⟨child, hchild, hne⟩
          simp [requiredText, hchild, hempty, refuse, Check.fault]
        · rintro ⟨found, hfound, hne⟩
          obtain rfl := Option.some.inj (hchild.symm.trans hfound)
          exact .done (by simp [requiredText, hchild, hne]) ⟨child, hchild, rfl, hne⟩

theorem obeys_requiredFlag : Obeys (requiredFlag e name) (flagChecks e name)
    (fun flag => e.attr? name = some (if flag then "yes" else "no")) := by
  apply (obeys_requiredAttr e name).bind
  intro value hvalue
  apply Obeys.check
  · intro hfails
    have hyes : value ≠ "yes" := fun heq => hfails (Or.inl (heq ▸ hvalue))
    have hno : value ≠ "no" := fun heq => hfails (Or.inr (heq ▸ hvalue))
    split
    · contradiction
    · contradiction
    · simp [refuse, Check.fault, shownValue, hvalue]
  · rintro (hyes | hno)
    · obtain rfl := Option.some.inj (hvalue.symm.trans hyes)
      exact .done (a := true) rfl hyes
    · obtain rfl := Option.some.inj (hvalue.symm.trans hno)
      exact .done (a := false) rfl hno

theorem ofProtection?_isSome_iff (protection : String) :
    (Visibility.ofProtection? protection).isSome = true ↔
      Text.trimmed protection ∈ ["public", "protected", "private", "package", ""] := by
  rw [Visibility.ofProtection?]
  split <;> simp_all

theorem obeys_readVisibility :
    Obeys (readVisibility e) [protectionCheck e] (readVisibility e = .ok ·) := by
  have hknown : KnownProtection e → ∃ visibility, readVisibility e = .ok visibility := by
    intro hknown
    rw [readVisibility]
    cases hprot : e.attr? "prot" with
    | none => exact ⟨.package, rfl⟩
    | some protection =>
        have hsome := (ofProtection?_isSome_iff protection).mpr (hknown protection hprot)
        obtain ⟨visibility, hvisibility⟩ := Option.isSome_iff_exists.mp hsome
        exact ⟨visibility, by simp [hvisibility]⟩
  apply Obeys.check
  · intro hfails
    rw [readVisibility]
    cases hprot : e.attr? "prot" with
    | none => exact absurd (fun protection h => by simp [hprot] at h) hfails
    | some protection =>
        cases hlevel : Visibility.ofProtection? protection with
        | none => simp [hlevel, refuse, Check.fault, protectionCheck, shownValue, hprot]
        | some visibility =>
            have hmem := (ofProtection?_isSome_iff protection).mp (by simp [hlevel])
            refine absurd (fun other hother => ?_) hfails
            obtain rfl := Option.some.inj (hprot.symm.trans hother)
            exact hmem
  · intro hmet
    obtain ⟨visibility, hvisibility⟩ := hknown hmet
    exact .done hvisibility hvisibility

end Readers

/-- The names of the parameters; a field has none. -/
def Member.paramNames (m : Member) : List String :=
  match m.kind with
  | .method _ _ _ params => params.map (·.name)
  | .field _ => []

/-- All names in a declaration that have been read from a text. -/
def ClassDecl.names (c : ClassDecl) : List String :=
  c.name :: (c.bases.map (·.name) ++ c.members.flatMap fun m => m.name :: m.paramNames)

/-- What a member has from the record that it stands for. -/
structure Records (e : Element) (m : Member) : Prop where
  name : IsTextOf e "name" m.name
  kind : e.attr? "kind" = some (if m.isMethod then "function" else "variable")
  isStatic : e.attr? "static" = some (if m.isStatic then "yes" else "no")
  visibility : readVisibility e = .ok m.visibility
  type : m.type = readType (e.child? "type")
  doc : m.doc = readDoc e
  params : ∀ name ∈ m.paramNames, Text.Tidy name.toList

theorem IsTextOf.tidy {e : Element} {name text : String} (h : IsTextOf e name text) :
    Text.Tidy text.toList := by
  obtain ⟨child, -, rfl, hne⟩ := h
  exact Text.tidy_trimmed hne

theorem tidy_of_readParam? {e : Element} {p : Param} (h : readParam? e = some p) :
    Text.Tidy p.name.toList := by
  rw [readParam?] at h
  split at h
  · next name hname =>
    obtain rfl := Option.some.inj h
    have hne := List.find?_some hname
    obtain ⟨tag, -, htag⟩ := List.mem_filterMap.mp (List.mem_of_find?_eq_some hname)
    obtain ⟨child, -, rfl⟩ := Option.map_eq_some_iff.mp htag
    exact Text.tidy_trimmed (by simpa using hne)
  · split at h
    · cases h
    · obtain rfl := Option.some.inj h
      have htext : fallbackName.toList = ['r', 'e', 'f'] := by decide
      rw [htext]
      exact ⟨by decide, by rintro _ ⟨⟩; decide, by rintro _ ⟨⟩; decide⟩

theorem tidy_of_mem_readBases {e : Element} {base : Base} (h : base ∈ readBases e) :
    Text.Tidy base.name.toList := by
  obtain ⟨hmem, hne⟩ := List.mem_filter.mp h
  obtain ⟨ref, -, rfl⟩ := List.mem_map.mp hmem
  exact Text.tidy_trimmed (by simpa [readBase] using hne)

section Members

variable (e : Element)

theorem obeys_readMethodKind : Obeys (readMethodKind e) [attrCheck e "virt"]
    (fun kind => ∃ pureVirtual overrides isConst, kind = .method pureVirtual overrides isConst
      ((e.childrenNamed "param").filterMap readParam?)) := by
  rw [← List.append_nil [attrCheck e "virt"]]
  apply (obeys_requiredAttr e "virt").bind
  intro virt _
  exact .done rfl ⟨_, _, _, rfl⟩

theorem obeys_readFieldKind : Obeys (readFieldKind e) (flagChecks e "mutable")
    (fun kind => ∃ isMutable, kind = .field isMutable) := by
  rw [← List.append_nil (flagChecks e "mutable")]
  apply (obeys_requiredFlag e "mutable").bind
  intro isMutable _
  exact .done rfl ⟨_, rfl⟩

/-- What is read of the kind of a member fits the kind that its record names. -/
def FitsKind (kind : String) (memberKind : MemberKind) : Prop :=
  ∀ m : Member, m.kind = memberKind → kind = (if m.isMethod then "function" else "variable") ∧
    ∀ name ∈ m.paramNames, Text.Tidy name.toList

theorem fitsKind_method (pureVirtual overrides isConst : Bool) (es : List Element) :
    FitsKind "function" (.method pureVirtual overrides isConst (es.filterMap readParam?)) := by
  intro m hm
  refine ⟨by simp [Member.isMethod, Member.isField, hm], ?_⟩
  intro name hname
  simp only [Member.paramNames, hm, List.mem_map, List.mem_filterMap] at hname
  obtain ⟨p, ⟨param, -, hp⟩, rfl⟩ := hname
  exact tidy_of_readParam? hp

theorem fitsKind_field (isMutable : Bool) : FitsKind "variable" (.field isMutable) := by
  intro m hm
  exact ⟨by simp [Member.isMethod, Member.isField, hm], by simp [Member.paramNames, hm]⟩

/-- Reading a member gives one exactly if its record is that of a function or variable. -/
theorem obeys_readMember : Obeys (readMember e) (memberChecks e)
    (fun found => if IsTranslated e then ∃ m, found = some m ∧ Records e m else found = none) := by
  apply (obeys_requiredAttr e "kind").bind
  intro kind hkind
  have htranslated : IsTranslated e ↔ kind = "function" ∨ kind = "variable" := by
    simp [IsTranslated, hkind]
  by_cases h : IsTranslated e
  · simp only [if_pos h, if_pos (htranslated.mp h)]
    apply (obeys_requiredText e "name").bind
    intro name hname
    apply (obeys_requiredFlag e "static").bind
    intro isStatic hstatic
    have hrest : ∀ memberKind, FitsKind kind memberKind →
        Obeys (do
            let visibility ← readVisibility e
            return some ⟨name, readType (e.child? "type"), visibility, isStatic, memberKind,
              readDoc e⟩)
          [protectionCheck e] (fun found => ∃ m, found = some m ∧ Records e m) := by
      intro memberKind hfits
      rw [← List.append_nil [protectionCheck e]]
      apply (obeys_readVisibility e).bind
      intro visibility hvisibility
      obtain ⟨hmethod, hparams⟩ := hfits ⟨name, readType (e.child? "type"), visibility, isStatic,
        memberKind, readDoc e⟩ rfl
      exact .done rfl ⟨_, rfl, hname, hmethod ▸ hkind, hstatic, hvisibility, rfl, rfl, hparams⟩
    by_cases hfunction : kind = "function"
    · subst hfunction
      simp only [if_pos hkind, if_true]
      apply (obeys_readMethodKind e).bind
      rintro _ ⟨pureVirtual, overrides, isConst, rfl⟩
      exact hrest _ (fitsKind_method pureVirtual overrides isConst _)
    · obtain rfl := (htranslated.mp h).resolve_left hfunction
      have hnot : ¬ e.attr? "kind" = some "function" := by simp [hkind]
      simp only [if_neg hfunction, if_neg hnot]
      apply (obeys_readFieldKind e).bind
      rintro _ ⟨isMutable, rfl⟩
      exact hrest _ (fitsKind_field isMutable)
  · simp only [if_neg h, if_neg (mt htranslated.mpr h)]
    exact .done rfl rfl

end Members

theorem obeys_readMembers (es : List Element) :
    Obeys (readMembers es) (es.flatMap memberChecks)
      (List.Forall₂ Records (es.filter (IsTranslated ·))) := by
  induction es with
  | nil => exact .done rfl .nil
  | cons e es ih =>
      rw [List.flatMap_cons]
      apply (obeys_readMember e).bind
      intro found hfound
      rw [← List.append_nil (es.flatMap memberChecks)]
      apply ih.bind
      intro members hmembers
      by_cases h : IsTranslated e
      · obtain ⟨m, rfl, hm⟩ := (if_pos h).mp hfound
        exact .done rfl (by simpa [h] using ⟨hm, hmembers⟩)
      · obtain rfl := (if_neg h).mp hfound
        exact .done rfl (by simpa [h] using hmembers)

theorem ofText?_isSome_iff (kind : String) :
    (Kind.ofText? kind).isSome = true ↔ kind = "class" ∨ kind = "struct" := by
  unfold Kind.ofText?
  split <;> simp_all

/-- What is known of a declaration that has been read. -/
structure IsReadFrom (e : Element) (c : ClassDecl) : Prop where
  members :
    List.Forall₂ Records ((e.descendantsNamed "memberdef").filter (IsTranslated ·)) c.members
  name : IsTextOf e "compoundname" c.name
  bases : c.bases = readBases e

theorem obeys_readClass (e : Element) : Obeys (readClass e) (checks e) (IsReadFrom e) := by
  rw [checks, compoundChecks, List.append_assoc]
  apply (obeys_requiredAttr e "kind").bind
  intro kindText hkind
  have hclass : (Kind.ofText? kindText).isSome = true ↔
      e.attr? "kind" = some "class" ∨ e.attr? "kind" = some "struct" := by
    rw [ofText?_isSome_iff, hkind]
    simp
  cases hkindText : Kind.ofText? kindText with
  | none =>
      rw [hkindText] at hclass
      apply Obeys.check
      · intro _
        simp [refuse, Check.fault, kindCheck, shownValue, hkind, bind, Except.bind]
      · intro hmet
        exact absurd (hclass.mpr hmet) (by simp)
  | some kind =>
      rw [hkindText] at hclass
      apply Obeys.check
      · intro hfails
        exact absurd (hclass.mp rfl) hfails
      · intro _
        apply (obeys_readVisibility e).bind
        intro visibility _
        apply (obeys_requiredText e "compoundname").bind
        intro name hname
        rw [← List.append_nil ((e.descendantsNamed "memberdef").flatMap memberChecks)]
        apply (obeys_readMembers _).bind
        intro members hmembers
        exact .done rfl ⟨hmembers, hname, rfl⟩

theorem IsReadFrom.exists_records {e : Element} {c : ClassDecl} (h : IsReadFrom e c) {m : Member}
    (hm : m ∈ c.members) : ∃ record, Records record m := by
  obtain ⟨i, hi, rfl⟩ := List.getElem_of_mem hm
  exact ⟨_, h.members.get (h.members.length_eq ▸ hi) hi⟩

theorem IsReadFrom.tidy_names {e : Element} {c : ClassDecl} (h : IsReadFrom e c) :
    ∀ name ∈ c.names, Text.Tidy name.toList := by
  intro name hname
  rw [ClassDecl.names, List.mem_cons, List.mem_append] at hname
  rcases hname with rfl | hbase | hmember
  · exact h.name.tidy
  · obtain ⟨base, hmem, rfl⟩ := List.mem_map.mp hbase
    exact tidy_of_mem_readBases (h.bases ▸ hmem)
  · obtain ⟨m, hm, hname⟩ := List.mem_flatMap.mp hmember
    obtain ⟨record, hrecord⟩ := h.exists_records hm
    rcases List.mem_cons.mp hname with rfl | hparam
    · exact hrecord.name.tidy
    · exact hrecord.params name hparam

theorem child?_isSome_of_hasText {e : Element} {name : String} (h : HasText e name) :
    (e.child? name).isSome = true := by
  obtain ⟨child, hchild, -⟩ := h
  simp [hchild]

theorem attr?_isSome_of_hasFlag {e : Element} {name : String} (h : HasFlag e name) :
    (e.attr? name).isSome = true := by
  rcases h with h | h <;> simp [h]

theorem textChecks_met_iff (e : Element) (name : String) :
    (∀ c ∈ textChecks e name, c.met) ↔ HasText e name := by
  simpa [textChecks] using child?_isSome_of_hasText

theorem flagChecks_met_iff (e : Element) (name : String) :
    (∀ c ∈ flagChecks e name, c.met) ↔ HasFlag e name := by
  simpa [flagChecks, attrCheck] using attr?_isSome_of_hasFlag

theorem memberChecks_met_iff (e : Element) :
    (∀ c ∈ memberChecks e, c.met) ↔ AcceptableMember e := by
  have hattr (name : String) :
      (∀ c ∈ [attrCheck e name], c.met) ↔ ∃ value, e.attr? name = some value := by
    simp [attrCheck, Option.isSome_iff_exists]
  have hprotection : (∀ c ∈ [protectionCheck e], c.met) ↔ KnownProtection e := by
    simp [protectionCheck]
  rw [memberChecks, List.forall_mem_append, hattr]
  by_cases h : IsTranslated e
  · rw [if_pos h, List.forall_mem_append, List.forall_mem_append, List.forall_mem_append,
      textChecks_met_iff, flagChecks_met_iff, hprotection]
    by_cases hfunction : e.attr? "kind" = some "function"
    · have hnot : e.attr? "kind" ≠ some "variable" := by simp [hfunction]
      rw [if_pos hfunction, hattr]
      constructor
      · rintro ⟨hkind, hname, hstatic, hvirt, hprot⟩
        exact ⟨hkind, fun _ => hname, fun _ => hstatic, fun _ => hprot, fun _ => hvirt,
          fun hvariable => absurd hvariable hnot⟩
      · rintro ⟨hkind, hname, hstatic, hprot, hvirt, -⟩
        exact ⟨hkind, hname h, hstatic h, hvirt hfunction, hprot h⟩
    · have hvariable : e.attr? "kind" = some "variable" := h.resolve_left hfunction
      rw [if_neg hfunction, flagChecks_met_iff]
      constructor
      · rintro ⟨hkind, hname, hstatic, hmutable, hprot⟩
        exact ⟨hkind, fun _ => hname, fun _ => hstatic, fun _ => hprot,
          fun h => absurd h hfunction, fun _ => hmutable⟩
      · rintro ⟨hkind, hname, hstatic, hprot, -, hmutable⟩
        exact ⟨hkind, hname h, hstatic h, hmutable hvariable, hprot h⟩
  · rw [if_neg h]
    constructor
    · rintro ⟨hkind, -⟩
      exact ⟨hkind, fun ht => absurd ht h, fun ht => absurd ht h, fun ht => absurd ht h,
        fun hf => absurd (Or.inl hf) h, fun hv => absurd (Or.inr hv) h⟩
    · exact fun haccept => ⟨haccept.kind, by simp⟩

theorem checks_met_iff (e : Element) : (∀ c ∈ checks e, c.met) ↔ Acceptable e := by
  have hmembers : (∀ c ∈ (e.descendantsNamed "memberdef").flatMap memberChecks, c.met) ↔
      ∀ m ∈ e.descendantsNamed "memberdef", AcceptableMember m := by
    rw [List.forall_mem_flatMap]
    exact forall₂_congr fun m _ => memberChecks_met_iff m
  rw [checks, compoundChecks, List.forall_mem_append, List.forall_mem_append,
    List.forall_mem_append, List.forall_mem_append, textChecks_met_iff, hmembers]
  simp only [List.forall_mem_singleton, attrCheck, kindCheck, protectionCheck]
  constructor
  · rintro ⟨⟨-, hkind, hprot, hname⟩, hmembers⟩
    exact ⟨hkind, hprot, hname, hmembers⟩
  · rintro ⟨hkind, hprot, hname, hmembers⟩
    have hsome : (e.attr? "kind").isSome = true := by
      rcases hkind with h | h <;> simp [h]
    exact ⟨⟨hsome, hkind, hprot, hname⟩, hmembers⟩

theorem kind_of_mem_checks {e : Element} {c : Check} (h : c ∈ checks e) :
    c.error.kind = c.kind := by
  have hattr (e : Element) (name : String) :
      ∀ c ∈ [attrCheck e name], c.error.kind = c.kind := by simp [attrCheck, RecordError.kind]
  have htext (e : Element) (name : String) : ∀ c ∈ textChecks e name, c.error.kind = c.kind := by
    simp [textChecks, RecordError.kind]
  have hflag (e : Element) (name : String) : ∀ c ∈ flagChecks e name, c.error.kind = c.kind := by
    simp [flagChecks, attrCheck, RecordError.kind]
  have hprotection (e : Element) : ∀ c ∈ [protectionCheck e], c.error.kind = c.kind := by
    simp [protectionCheck, RecordError.kind]
  have hkind : ∀ c ∈ [kindCheck e], c.error.kind = c.kind := by
    simp [kindCheck, RecordError.kind]
  have hmember (e : Element) : ∀ c ∈ memberChecks e, c.error.kind = c.kind := by
    rw [memberChecks]
    refine List.forall_mem_append.mpr ⟨hattr e "kind", ?_⟩
    split
    · simp only [List.forall_mem_append]
      refine ⟨htext e "name", hflag e "static", ?_, hprotection e⟩
      split
      · exact hattr e "virt"
      · exact hflag e "mutable"
    · simp
  have hcompound : ∀ c ∈ compoundChecks e, c.error.kind = c.kind := by
    simp only [compoundChecks, List.forall_mem_append]
    exact ⟨hattr e "kind", hkind, hprotection e, htext e "compoundname"⟩
  rcases List.mem_append.mp h with h | h
  · exact hcompound c h
  · obtain ⟨m, -, hc⟩ := List.mem_flatMap.mp h
    exact hmember m c hc

/-- A compound is accepted exactly if it and its members have all they need. Then it has one
member for each record of a function or variable, and otherwise it is the first check that fails
which is reported, at the element that does not meet it. -/
theorem readClass_accepts_or_reports_first (source : String) (e : Element) :
    ((∃ c, Document.readClass source e = .ok c) ↔ Acceptable e) ∧
      (∀ c, Document.readClass source e = .ok c →
        List.Forall₂ Records ((e.descendantsNamed "memberdef").filter (IsTranslated ·)) c.members ∧
          ∀ name ∈ c.names, Text.Tidy name.toList) ∧
      ∀ d, Document.readClass source e = .error d ↔ ∃ c, FirstFailure (checks e) c ∧
        d = ⟨c.kind, c.error.message, some (.ofByte source c.element.tag.offset),
          some recordHelp⟩ := by
  have hobeys := obeys_readClass e
  have hok (c : ClassDecl) : Document.readClass source e = .ok c ↔ readClass e = .ok c := by
    rw [Document.readClass]
    cases readClass e <;> simp [Except.mapError]
  have herror (d : Diagnostic) : Document.readClass source e = .error d ↔
      ∃ fault, readClass e = .error fault ∧ d = fault.diagnostic source := by
    rw [Document.readClass]
    cases readClass e <;> simp [Except.mapError, eq_comm]
  refine ⟨?_, ?_, ?_⟩
  · simp only [hok]
    exact hobeys.eq_ok_iff.trans (checks_met_iff e)
  · intro c hc
    have hread : IsReadFrom e c := hobeys.of_eq_ok ((hok c).mp hc)
    exact ⟨hread.members, hread.tidy_names⟩
  · intro d
    rw [herror]
    constructor
    · rintro ⟨fault, hfault, rfl⟩
      obtain ⟨c, hc, rfl⟩ := (hobeys.eq_error_iff fault).mp hfault
      refine ⟨c, hc, ?_⟩
      rw [← kind_of_mem_checks hc.not_met.1]
      rfl
    · rintro ⟨c, hc, rfl⟩
      refine ⟨c.fault, hobeys.refuses c hc, ?_⟩
      rw [← kind_of_mem_checks hc.not_met.1]
      rfl

/-- Only the first name of a compound is looked at. If it is blank, a second one does not help. -/
theorem readClass_refuses_second_name :
    let e : Element := ⟨⟨"compounddef", [("kind", "class"), ("prot", "public")], 0⟩,
      [.element ⟨"compoundname", [], 40⟩ [.text " "],
        .element ⟨"compoundname", [], 70⟩ [.text "Foo"]]⟩
    e.attr? "kind" = some "class" ∧ KnownProtection e ∧
      (∃ child ∈ e.childrenNamed "compoundname", Text.trimmed child.text ≠ "") ∧
      (∀ m ∈ e.descendantsNamed "memberdef", AcceptableMember m) ∧
      ∀ source, ¬ ∃ c, Document.readClass source e = .ok c := by
  refine ⟨rfl, ?_, ?_, ?_, ?_⟩
  · rintro _ ⟨⟩
    decide
  · refine ⟨_, List.mem_cons_of_mem _ List.mem_cons_self, ?_⟩
    decide
  · exact nofun
  · rintro source ⟨c, hc⟩
    cases hc

end ClassSkeleton.Decl
