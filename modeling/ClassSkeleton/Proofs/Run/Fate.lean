import ClassSkeleton.Proofs.Run.Account
import ClassSkeleton.Run.Session

namespace ClassSkeleton.Run

/-!
# The fates of inputs

An input cannot be read, or it is no document, or each compound of its document is judged. A run
over files is the accounts of the files one after the other. It succeeds if all compounds of all
files have been written.
-/

open Skeleton (SourceUnit)

section Compounds

variable (folder : Path) (generate : Decl.ClassDecl → SourceUnit) (entries : List Entry)
  (done : List Path) (acts : List Act)

/-- The verdicts on the compound at a place. The unit of an owner is placed, and every other
compound has its problem. -/
inductive Judged (i : Nat) : Verdict → Prop
  | explained {problem : Problem} (why : Explains generate entries i problem) :
      Judged i (.reported problem)
  | placed {u : SourceUnit} {verdict : Verdict} (isOwner : owns generate entries i = true)
      (unit : unitAt generate entries i = some u)
      (each : Verdict.OfUnit folder done acts u verdict) : Judged i verdict

variable {folder generate entries done acts}

theorem Judged.mono {i : Nat} {verdict : Verdict} {all : List Path}
    (h : Judged folder generate entries done acts i verdict) (hdone : done ⊆ all) :
    Judged folder generate entries all acts i verdict := by
  cases h with
  | explained why => exact .explained why
  | placed isOwner unit each =>
      exact .placed isOwner unit (each.mono hdone (List.infix_refl acts))

/-- The verdicts on the units at some places and the problems there are the verdicts on the
compounds. -/
theorem exists_judged {is : List Nat} {verdicts : List Verdict} {problems : List Problem}
    (hverdicts : List.Forall₂ (Verdict.OfUnit folder done acts)
      (is.filterMap fun i => if owns generate entries i then unitAt generate entries i else none)
      verdicts)
    (hproblems : List.Forall₂ (Explains generate entries)
      (is.filter fun i => !owns generate entries i) problems) :
    ∃ all, List.Forall₂ (Judged folder generate entries done acts) is all ∧
      (verdicts ++ problems.map Verdict.reported).Perm all := by
  induction is generalizing verdicts problems with
  | nil =>
      cases hverdicts
      cases hproblems
      exact ⟨[], .nil, .nil⟩
  | cons i is ih =>
      cases howns : owns generate entries i with
      | true =>
          obtain ⟨u, hunit, -⟩ := owns_iff.mp howns
          rw [List.filterMap_cons_some (by rw [if_pos howns, hunit])] at hverdicts
          rw [List.filter_cons_of_neg (by simp [howns])] at hproblems
          cases hverdicts with
          | cons hverdict hverdicts =>
              obtain ⟨all, hall, hperm⟩ := ih hverdicts hproblems
              exact ⟨_, .cons (.placed howns hunit hverdict) hall, hperm.cons _⟩
      | false =>
          rw [List.filterMap_cons_none (by simp [howns])] at hverdicts
          rw [List.filter_cons_of_pos (by simp [howns])] at hproblems
          cases hproblems with
          | cons hproblem hproblems =>
              obtain ⟨all, hall, hperm⟩ := ih hverdicts hproblems
              exact ⟨_, .cons (.explained hproblem) hall, List.perm_middle.trans (hperm.cons _)⟩

end Compounds

inductive Fate where
  | unread (why : DiskError)
  | unreadable (source : String) (why : Diagnostic)
  | judged (source : String) (verdicts : List Verdict)

namespace Fate

/-- Whether the input has been read and every compound of it is written. -/
def IsClean : Fate → Prop
  | judged _ verdicts => ∀ verdict ∈ verdicts, ∃ file text, verdict = .written file text
  | _ => False

end Fate

/-- What is recorded before an input is known. -/
def opening (job : Job) (input : Path) (result : Except DiskError String) : List Act :=
  [.told (if job.verbose then String.join ([input.text].map (logLine "INFO ")) else ""),
    .read input result]

def warned (job : Job) (source : String) : Act :=
  .told (String.join ((compileWarnings job.rules job.options source).map fun w =>
    logLine "WARN " w.message))

/-- Whether an input had a fate in a run that has written some files, and this is all that was
done for it. Every verdict is on one compound and shows once, as a file or as a line. -/
inductive Holds (job : Job) (done : List Path) (input : Path) : Fate → List Act → Prop
  | unread (why : DiskError) :
      Holds job done input (.unread why)
        (opening job input (.error why) ++ [.told ((Failure.unread input why).render "" input)])
  | unreadable {source : String} {why : Diagnostic}
      (compounds : Document.compounds source = .error why) :
      Holds job done input (.unreadable source why)
        (opening job input (.ok source) ++ warned job source ::
          [.told ((Problem.unreadable why).render source input.text)])
  | judged {source : String} {compounds : List Markup.Element} {verdicts : List Verdict}
      {acts : List Act} (parsed : Document.compounds source = .ok compounds)
      (each : List.Forall₂
        (Judged job.output (Skeleton.generate job.rules job.options)
          (readCompounds source compounds) done acts)
        (List.range compounds.length) verdicts)
      (written : (writes acts).Perm (verdicts.filterMap Verdict.file?))
      (told : (tellings acts).Perm (verdicts.map (Verdict.line source input))) :
      Holds job done input (.judged source verdicts)
        (opening job input (.ok source) ++ warned job source :: acts)

theorem Holds.mono {job : Job} {done all : List Path} {input : Path} {fate : Fate}
    {acts : List Act} (h : Holds job done input fate acts) (hdone : done ⊆ all) :
    Holds job all input fate acts := by
  cases h with
  | unread why => exact .unread why
  | unreadable compounds => exact .unreadable compounds
  | judged parsed each written told =>
      exact .judged parsed (each.imp fun i verdict hi => hi.mono hdone) written told

/-- How the progress of a run moves with what is done for an input. -/
structure Advances (p : Progress) (fate : Fate) (q : Progress) (acts : List Act) : Prop where
  files_eq : q.files = p.files ++ writes acts
  spares : Spares p.files acts
  kept : Keeps acts
  success : q.isSuccess = true ↔ p.isSuccess = true ∧ fate.IsClean

namespace Advances

theorem failed (p : Progress) (f : Failure) {fate : Fate} {acts : List Act}
    (hfate : ¬ fate.IsClean) (hacts : ∀ act ∈ acts, act.touched? = none) :
    Advances p fate (p.failed f) acts where
  files_eq := by rw [writes_of_untouched hacts, List.append_nil, Progress.files_failed]
  spares := spares_of_untouched hacts p.files
  kept := keeps_of_writes_eq_nil (writes_of_untouched hacts)
  success := by simp [Progress.isSuccess, Progress.failed, hfate]

theorem of_judges {input : Path} {source : String} {p q : Progress} {verdicts all : List Verdict}
    {acts : List Act} (before : List Act) (h : Judges input source p verdicts q acts)
    (hperm : verdicts.Perm all) (hbefore : ∀ act ∈ before, act.touched? = none) :
    Advances p (.judged source all) q (before ++ acts) where
  files_eq := by
    rw [h.files_eq, writes_append, writes_of_untouched hbefore, h.writes_eq, List.nil_append]
  spares := (spares_of_untouched hbefore p.files).append h.spares
  kept := by
    have hnone := writes_of_untouched hbefore
    exact (keeps_of_writes_eq_nil hnone).append h.kept (hnone ▸ nil_spares acts)
  success := by
    have hclean : verdicts.filterMap Verdict.problem? = [] ↔
        Fate.IsClean (.judged source all) := by
      rw [List.filterMap_eq_nil_iff]
      refine forall_congr' fun verdict => ?_
      rw [hperm.mem_iff]
      cases verdict <;> simp [Verdict.problem?]
    simp [Progress.isSuccess, h.failures_eq, ← hclean]

end Advances

section Files

variable {σ : Type} (h : Host (StateM σ)) (job : Job)

theorem records_processFile (p : Progress) (input : Path) :
    Records (h.recorded.processFile job p input) (h.processFile job p input) fun q acts =>
      ∃ fate, Holds job q.files input fate acts ∧ Advances p fate q acts := by
  refine Records.bind (records_putErr h _) ?_
  rintro _ _ rfl
  refine Records.bind (records_readText h input) ?_
  rintro (why | source) _ rfl
  · refine Records.bind (records_putErr h _) ?_
    rintro _ _ rfl
    exact Records.pure ⟨_, .unread why, .failed p _ id (by simp [Act.touched?])⟩
  · refine Records.bind (records_putErr h _) ?_
    rintro _ _ rfl
    cases hparse : Document.compounds source with
    | error why =>
        simp only [compile, hparse]
        refine (records_report h input source p _).mono ?_
        rintro _ _ ⟨rfl, rfl⟩
        exact ⟨_, .unreadable hparse, .failed p _ id (by simp [Act.touched?])⟩
    | ok compounds =>
        simp only [compile, hparse]
        refine Records.bind (records_foldlM_place h job.output input source p _) ?_
        rintro q acts ⟨verdicts, hverdicts, hplaced⟩
        refine (records_foldlM_report h input source q _).mono ?_
        intro r more hreported
        have hboth := hplaced.append hreported
        -- The units come before the problems, whichever way the compounds stand in the document.
        have hfirst : FirstWins (Skeleton.generate job.rules job.options) _ _ :=
          firstWins_compileFrom (readCompounds source compounds)
        have hshown := hverdicts.imp fun u verdict hu =>
          hu.mono hreported.files_subset (List.prefix_append acts more).isInfix
        rw [hfirst.units] at hshown
        obtain ⟨all, hall, hperm⟩ := exists_judged hshown hfirst.problems
        rw [length_readCompounds] at hall
        refine ⟨.judged source all, .judged hparse hall ?_ ?_,
          .of_judges (opening job input (.ok source) ++ [warned job source]) hboth hperm
            (by simp [opening, warned, Act.touched?])⟩
        · exact hboth.writes_eq ▸ hperm.filterMap _
        · exact hboth.tellings_eq ▸ hperm.map _

/-- What a run does with some inputs, where each of them has a fate and acts of its own. -/
structure Accounts (inputs : List Path) (accounts : List (Fate × List Act)) (p q : Progress)
    (acts : List Act) : Prop where
  holds : List.Forall₂ (fun input account => Holds job q.files input account.1 account.2) inputs
    accounts
  acts_eq : acts = accounts.flatMap Prod.snd
  files_eq : q.files = p.files ++ writes acts
  spares : Spares p.files acts
  kept : Keeps acts
  success : q.isSuccess = true ↔ p.isSuccess = true ∧ ∀ account ∈ accounts, account.1.IsClean

theorem records_foldlM_processFile (p : Progress) (inputs : List Path) :
    Records (inputs.foldlM (h.recorded.processFile job) p) (inputs.foldlM (h.processFile job) p)
      fun q acts => ∃ accounts, Accounts job inputs accounts p q acts := by
  induction inputs generalizing p with
  | nil => exact Records.pure ⟨[], .nil, rfl, by simp, spares_nil _, .nil, by simp⟩
  | cons input inputs ih =>
      rw [List.foldlM_cons, List.foldlM_cons]
      refine Records.bind (records_processFile h job p input) ?_
      rintro q acts ⟨fate, hholds, hadvances⟩
      refine (ih q).mono ?_
      rintro r more ⟨accounts, haccounts⟩
      have hspares : Spares (p.files ++ writes acts) more :=
        hadvances.files_eq ▸ haccounts.spares
      refine ⟨(fate, acts) :: accounts, .cons (hholds.mono ?_) haccounts.holds, ?_, ?_, ?_, ?_, ?_⟩
      · exact haccounts.files_eq ▸ List.subset_append_left _ _
      · rw [haccounts.acts_eq, List.flatMap_cons]
      · rw [haccounts.files_eq, hadvances.files_eq, writes_append, List.append_assoc]
      · exact hadvances.spares.append (hspares.mono (List.subset_append_left _ _))
      · exact hadvances.kept.append haccounts.kept
          (hspares.mono (List.subset_append_right _ _))
      · rw [haccounts.success, hadvances.success, and_assoc, List.forall_mem_cons]

end Files

section Folders

variable {σ : Type} (h : Host (StateM σ))

theorem records_collectInputs (inputs : List Path) :
    Records (h.recorded.collectInputs inputs) (h.collectInputs inputs) fun _ acts =>
      acts = [] := by
  induction inputs with
  | nil => exact Records.pure rfl
  | cons input inputs ih =>
      have hnext : ∀ files : List Path,
          Records (do return (← h.recorded.collectInputs inputs).map (files ++ ·))
            (do return (← h.collectInputs inputs).map (files ++ ·)) fun _ acts => acts = [] := by
        intro files
        refine Records.bind ih ?_
        rintro rest _ rfl
        exact Records.pure rfl
      refine Records.bind (records_isFile h input) ?_
      rintro (_ | _) _ rfl
      · refine Records.bind (Records.silent (h.isFolder input)) ?_
        rintro (_ | _) _ rfl
        · exact Records.pure rfl
        · refine Records.bind (Records.silent (h.filesBelow input)) ?_
          rintro files _ rfl
          exact hnext (files.filter fun file => file.extension? = some "xml")
      · exact hnext [input]

theorem records_settle (folder : Path) (made : Except DiskError Unit) :
    Records (h.recorded.settle folder made) (h.settle folder made) fun _ acts => acts = [] := by
  cases made with
  | ok _ => exact Records.pure rfl
  | error e =>
      refine Records.bind (Records.silent (h.isFolder folder)) ?_
      rintro isFolder _ rfl
      exact Records.pure rfl

theorem records_makeFoldersFrom (parents : Nat) (folder : Path) :
    Records (h.recorded.makeFoldersFrom parents folder) (h.makeFoldersFrom parents folder)
      fun _ acts => acts = [] := by
  induction parents generalizing folder with
  | zero =>
      unfold Host.makeFoldersFrom
      refine Records.bind (Records.silent (h.makeFolder folder)) ?_
      rintro made _ rfl
      by_cases hmissing : made = .error .missing
      · subst hmissing
        exact Records.pure rfl
      · split
        · contradiction
        · exact records_settle h folder made
  | succ parents ih =>
      unfold Host.makeFoldersFrom
      refine Records.bind (Records.silent (h.makeFolder folder)) ?_
      rintro made _ rfl
      by_cases hmissing : made = .error .missing
      · subst hmissing
        cases folder.parent? with
        | none => exact Records.pure rfl
        | some parent =>
            refine Records.bind (ih parent) ?_
            rintro (e | _) _ rfl
            · exact Records.pure rfl
            · refine Records.bind (Records.silent (h.makeFolder folder)) ?_
              rintro again _ rfl
              exact records_settle h folder again
      · split
        · contradiction
        · exact records_settle h folder made

end Folders

/-- Whether a record is that of a run over files with some accounts: their acts one after the
other, and a last line that counts the files. No file is written twice, and what has been written
is not touched again. -/
structure AccountsFor (job : Job) (files : List Path) (accounts : List (Fate × List Act))
    (status : Status) (record : List Act) : Prop where
  holds : List.Forall₂ (fun input account => Holds job (writes record) input account.1 account.2)
    files accounts
  record_eq : ∃ micros, record =
    accounts.flatMap Prod.snd ++ [.told (summary (writes record).length micros)]
  distinct : Distinct (writes record)
  kept : Keeps record
  success : status.code = 0 ↔ ∀ account ∈ accounts, account.1.IsClean

section Runs

variable {σ : Type} (h : Host (StateM σ)) (job : Job)

theorem records_processFiles (files : List Path) :
    Records
      (do
        let progress ← h.recorded.processFiles job files
        h.recorded.putErr (summary progress.count (← h.recorded.elapsed))
        return Status.ofBool progress.isSuccess)
      (do
        let progress ← h.processFiles job files
        h.putErr (summary progress.count (← h.elapsed))
        return Status.ofBool progress.isSuccess)
      fun status acts => ∃ accounts, AccountsFor job files accounts status acts := by
  refine Records.bind (records_foldlM_processFile h job .start files) ?_
  rintro progress acts ⟨accounts, haccounts⟩
  refine Records.bind (Records.silent h.elapsed) ?_
  rintro micros _ rfl
  refine Records.bind (records_putErr h _) ?_
  rintro _ _ rfl
  have hfiles : progress.files = writes acts := haccounts.files_eq
  have hkept : Keeps (acts ++ ([] ++ [.told (summary progress.count micros)])) :=
    haccounts.kept.append (List.pairwise_singleton _ _) (by simp [Spares, Act.touched?])
  refine Records.pure ⟨accounts, ?_, ⟨micros, ?_⟩, hkept.distinct, hkept, ?_⟩
  · simpa [hfiles] using haccounts.holds
  · simp [← haccounts.acts_eq, ← Progress.length_files, hfiles]
  · rw [← haccounts.success.trans (and_iff_right rfl)]
    cases progress.isSuccess <;> simp [Status.ofBool, Status.code]

end Runs

def twice : Session :=
  .ofStore { Store.empty with nodes := [(["a.xml"], .file (some clashing.toXml))] }
    (.error .missing)

end ClassSkeleton.Run
