import ClassSkeleton.Proofs.FirstWins
import ClassSkeleton.Proofs.Run.Record

namespace ClassSkeleton.Run

/-!
# The account of a run

A run writes a unit completely or tells why it does not. What it has told and written is the same,
up to order, as one verdict for each compound of each input that can be read. The progress knows
the files that the record shows, and it holds a failure for every verdict that is no file.
-/

section Steps

variable {σ : Type} (h : Host (StateM σ))

def fullWriting (file : Path) (text : String) : List Act :=
  [.created file none, .wrote file text none, .flushed file none]

/-- Whether some acts write no file and tell nothing. -/
structure Quiet (acts : List Act) : Prop where
  writes_eq : writes acts = []
  tellings_eq : tellings acts = []

theorem quiet_nil : Quiet [] := ⟨rfl, rfl⟩

def TouchesOnly (file : Path) (acts : List Act) : Prop :=
  ∀ act ∈ acts, ∀ other ∈ act.touched?, other = file

/-- What is recorded when a file cannot be written. -/
structure Fails (file : Path) (e : DiskError) (acts : List Act) : Prop where
  quiet : Quiet acts
  touched : TouchesOnly file acts
  cause : ∃ act ∈ acts, act.refused? = some (file, e)

theorem TouchesOnly.append {file : Path} {acts more : List Act} (h : TouchesOnly file acts)
    (hmore : TouchesOnly file more) : TouchesOnly file (acts ++ more) := by
  intro act hact
  rcases List.mem_append.mp hact with hact | hact
  · exact h act hact
  · exact hmore act hact

theorem records_writeFile (file : Path) (text : String) :
    Records (h.recorded.writeFile file text) (h.writeFile file text) fun result acts =>
      match result with
      | .ok () => acts = fullWriting file text
      | .error e => Fails file e acts := by
  refine Tracks.bind (tracks_create h file) ?_
  rintro _ created _ ⟨rfl, rfl⟩
  cases created with
  | error e =>
      refine Records.pure ⟨⟨rfl, rfl⟩, by simp [TouchesOnly, Act.touched?], ?_⟩
      exact ⟨_, List.mem_cons_self, rfl⟩
  | ok handle =>
      refine Records.bind (records_write h file handle text) ?_
      rintro wrote _ rfl
      cases wrote with
      | error e =>
          refine Records.pure ⟨⟨rfl, rfl⟩, by simp [TouchesOnly, Act.touched?], ?_⟩
          exact ⟨_, List.mem_cons_of_mem _ List.mem_cons_self, rfl⟩
      | ok _ =>
          refine (records_flush h file handle).mono ?_
          rintro (e | _) _ rfl
          · refine ⟨⟨rfl, rfl⟩, by simp [TouchesOnly, Act.touched?], ?_⟩
            exact ⟨.flushed file (some e), by simp [failure?], rfl⟩
          · rfl

/-- A unit is written completely, or its file is not and the problem says so. -/
theorem records_writeUnit (folder : Path) (u : Skeleton.SourceUnit) :
    Records (h.recorded.writeUnit folder u) (h.writeUnit folder u) fun result acts =>
      match result with
      | .ok file => file = folder.join u.fileName ∧ acts = fullWriting file u.code
      | .error problem =>
        ∃ e, problem = .unwritten (folder.join u.fileName).text e.message ∧
          Fails (folder.join u.fileName) e acts := by
  refine Records.bind (records_writeFile h (folder.join u.fileName) u.code) ?_
  rintro (e | _) acts hacts
  · refine Records.bind (records_isFile h (folder.join u.fileName)) ?_
    rintro isFile _ rfl
    cases isFile with
    | false => exact Records.pure ⟨e, rfl, by simpa using hacts⟩
    | true =>
        refine Records.bind (records_remove h (folder.join u.fileName)) ?_
        rintro removed _ rfl
        obtain ⟨hquiet, htouched, act, hact, hcause⟩ := hacts
        refine Records.pure ⟨e, rfl, ⟨?_, ?_⟩, ?_, act, List.mem_append_left _ hact, hcause⟩
        · rw [writes_append, hquiet.writes_eq]
          rfl
        · rw [tellings_append, hquiet.tellings_eq]
          rfl
        · exact htouched.append (by simp [TouchesOnly, Act.touched?])
  · exact Records.pure ⟨rfl, by simpa using hacts⟩

end Steps

/-- What a run did with a compound. -/
inductive Verdict where
  | written (file : Path) (text : String)
  | reported (problem : Problem)

namespace Verdict

def file? : Verdict → Option Path
  | written file _ => some file
  | reported _ => none

def problem? : Verdict → Option Problem
  | written _ _ => none
  | reported problem => some problem

/-- What the run tells of the compound. -/
def line (source : String) (input : Path) : Verdict → String
  | written file _ => "  ✓ " ++ file.text ++ "\n"
  | reported problem => problem.render source input.text

/-- The verdicts on a unit that is to be placed into a folder, with what shows in the files that
are written and in the acts. -/
inductive OfUnit (folder : Path) (done : List Path) (acts : List Act) (u : Skeleton.SourceUnit) :
    Verdict → Prop
  | written (whole : fullWriting (folder.join u.fileName) u.code <:+: acts) :
      OfUnit folder done acts u (.written (folder.join u.fileName) u.code)
  | duplicate (first : Path) {other : Path} (isDone : other ∈ done)
      (same : other.same (folder.join u.fileName) = true) :
      OfUnit folder done acts u (.reported (.duplicate u.name u.fileName first.text))
  | unwritten {e : DiskError} {act : Act} (isDone : act ∈ acts)
      (refused : act.refused? = some (folder.join u.fileName, e)) :
      OfUnit folder done acts u (.reported (.unwritten (folder.join u.fileName).text e.message))

theorem OfUnit.mono {folder : Path} {done all : List Path} {acts more : List Act}
    {u : Skeleton.SourceUnit} {verdict : Verdict} (h : OfUnit folder done acts u verdict)
    (hdone : done ⊆ all) (hacts : acts <:+: more) : OfUnit folder all more u verdict := by
  cases h with
  | written whole => exact .written (whole.trans hacts)
  | duplicate first isDone same => exact .duplicate first (hdone isDone) same
  | unwritten isDone refused => exact .unwritten (hacts.subset isDone) refused

end Verdict

namespace Progress

def files (p : Progress) : List Path := p.written.map Prod.fst

@[simp] theorem files_wrote (p : Progress) (file input : Path) :
    (p.wrote file input).files = p.files ++ [file] := List.map_append

@[simp] theorem files_failed (p : Progress) (f : Failure) : (p.failed f).files = p.files := rfl

@[simp] theorem length_files (p : Progress) : p.files.length = p.count := List.length_map _

theorem same_of_owner?_eq_none {p : Progress} {file : Path} (h : p.owner? file = none) :
    ∀ other ∈ p.files, other.same file = false := by
  intro other hother
  obtain ⟨entry, hentry, rfl⟩ := List.mem_map.mp hother
  have hnone := List.find?_eq_none.mp (Option.map_eq_none_iff.mp h) entry hentry
  simpa using hnone

theorem exists_same_of_owner? {p : Progress} {file first : Path} (h : p.owner? file = some first) :
    ∃ other ∈ p.files, other.same file = true := by
  obtain ⟨entry, hentry, -⟩ := Option.map_eq_some_iff.mp h
  have hsame := List.find?_some hentry
  exact ⟨entry.1, List.mem_map_of_mem (List.mem_of_find?_eq_some hentry), hsame⟩

end Progress

/-- What the record shows and the progress holds once some compounds have been judged. -/
structure Judges (input : Path) (source : String) (p : Progress) (verdicts : List Verdict)
    (q : Progress) (acts : List Act) : Prop where
  writes_eq : writes acts = verdicts.filterMap Verdict.file?
  tellings_eq : tellings acts = verdicts.map (Verdict.line source input)
  files_eq : q.files = p.files ++ verdicts.filterMap Verdict.file?
  failures_eq : q.failures = p.failures ++ (verdicts.filterMap Verdict.problem?).map .problem
  spares : Spares p.files acts
  kept : Keeps acts

namespace Judges

variable {input : Path} {source : String} {p q r : Progress}

theorem nil : Judges input source p [] p [] :=
  ⟨rfl, rfl, by simp, by simp, by simp [Spares], .nil⟩

theorem append {verdicts others : List Verdict} {acts more : List Act}
    (h : Judges input source p verdicts q acts) (hnext : Judges input source q others r more) :
    Judges input source p (verdicts ++ others) r (acts ++ more) where
  writes_eq := by rw [writes_append, h.writes_eq, hnext.writes_eq, List.filterMap_append]
  tellings_eq := by rw [tellings_append, h.tellings_eq, hnext.tellings_eq, List.map_append]
  files_eq := by rw [hnext.files_eq, h.files_eq, List.filterMap_append, List.append_assoc]
  failures_eq := by
    rw [hnext.failures_eq, h.failures_eq, List.filterMap_append, List.map_append,
      List.append_assoc]
  spares := by
    refine h.spares.append (hnext.spares.mono ?_)
    rw [h.files_eq]
    exact List.subset_append_left _ _
  kept := by
    refine h.kept.append hnext.kept (hnext.spares.mono ?_)
    rw [h.files_eq, h.writes_eq]
    exact List.subset_append_right _ _

theorem files_subset {verdicts : List Verdict} {acts : List Act}
    (h : Judges input source p verdicts q acts) : p.files ⊆ q.files := by
  rw [h.files_eq]
  exact List.subset_append_left _ _

theorem written {file : Path} (free : p.owner? file = none) (text : String) :
    Judges input source p [.written file text] (p.wrote file input)
      (fullWriting file text ++ [.told ("  ✓ " ++ file.text ++ "\n")]) where
  writes_eq := rfl
  tellings_eq := rfl
  files_eq := by simp [Verdict.file?]
  failures_eq := by simp [Progress.wrote, Verdict.problem?]
  spares := by
    have hfree := Progress.same_of_owner?_eq_none free
    simpa [Spares, fullWriting, Act.touched?] using hfree
  kept := by simp [Keeps, fullWriting, Act.file?, Act.touched?]

theorem reported (problem : Problem) {acts : List Act} (h : Quiet acts)
    (hspares : Spares p.files acts) :
    Judges input source p [.reported problem] (p.failed (.problem problem))
      (acts ++ [.told (problem.render source input.text)]) where
  writes_eq := by rw [writes_append, h.writes_eq]; rfl
  tellings_eq := by rw [tellings_append, h.tellings_eq]; rfl
  files_eq := by simp [Verdict.file?]
  failures_eq := rfl
  spares := hspares.append (by simp [Spares, Act.touched?])
  kept := keeps_of_writes_eq_nil (by rw [writes_append, h.writes_eq]; rfl)

end Judges

section Placing

variable {σ : Type} (h : Host (StateM σ)) (folder input : Path) (source : String)

theorem records_report (p : Progress) (problem : Problem) :
    Records (h.recorded.report input source p (.problem problem))
      (h.report input source p (.problem problem)) fun q acts =>
        q = p.failed (.problem problem) ∧ acts = [.told (problem.render source input.text)] := by
  refine Records.bind (records_putErr h _) ?_
  rintro _ _ rfl
  exact Records.pure ⟨rfl, rfl⟩

theorem records_place (p : Progress) (u : Skeleton.SourceUnit) :
    Records (h.recorded.place folder input source p u) (h.place folder input source p u)
      fun q acts => ∃ verdict, Verdict.OfUnit folder q.files acts u verdict ∧
        Judges input source p [verdict] q acts := by
  unfold Host.place
  cases howner : p.owner? (folder.join u.fileName) with
  | some first =>
      refine (records_report h input source p _).mono ?_
      rintro _ _ ⟨rfl, rfl⟩
      obtain ⟨other, hother, hsame⟩ := Progress.exists_same_of_owner? howner
      exact ⟨_, .duplicate first hother hsame, .reported _ quiet_nil (spares_nil _)⟩
  | none =>
      refine Records.bind (records_writeUnit h folder u) ?_
      rintro (problem | file) acts hacts
      · obtain ⟨e, rfl, hquiet, htouched, act, hact, hcause⟩ := hacts
        -- The attempt may leave a part of the new file, which no written file is the same as.
        have hspares : Spares p.files acts := by
          intro act hact other hother file hfile
          rw [htouched act hact other hother]
          exact Progress.same_of_owner?_eq_none howner file hfile
        refine (records_report h input source p _).mono ?_
        rintro _ _ ⟨rfl, rfl⟩
        exact ⟨_, .unwritten (List.mem_append_left _ hact) hcause, .reported _ hquiet hspares⟩
      · obtain ⟨rfl, rfl⟩ := hacts
        refine Records.bind (records_putErr h _) ?_
        rintro _ _ rfl
        exact Records.pure ⟨_, .written (List.prefix_append _ _).isInfix, .written howner _⟩

theorem records_foldlM_place (p : Progress) (units : List Skeleton.SourceUnit) :
    Records (units.foldlM (h.recorded.place folder input source) p)
      (units.foldlM (h.place folder input source) p)
      fun q acts => ∃ verdicts, List.Forall₂ (Verdict.OfUnit folder q.files acts) units verdicts ∧
        Judges input source p verdicts q acts := by
  induction units generalizing p with
  | nil => exact Records.pure ⟨[], .nil, .nil⟩
  | cons u units ih =>
      rw [List.foldlM_cons, List.foldlM_cons]
      refine Records.bind (records_place h folder input source p u) ?_
      rintro q acts ⟨verdict, hverdict, hhead⟩
      refine (ih q).mono ?_
      rintro r more ⟨verdicts, hverdicts, htail⟩
      refine ⟨verdict :: verdicts, .cons ?_ (hverdicts.imp fun u v hv => ?_), hhead.append htail⟩
      · exact hverdict.mono htail.files_subset (List.prefix_append acts more).isInfix
      · exact hv.mono (List.Subset.refl _) (List.suffix_append acts more).isInfix

theorem records_foldlM_report (p : Progress) (problems : List Problem) :
    Records
      (problems.foldlM (fun p problem => h.recorded.report input source p (.problem problem)) p)
      (problems.foldlM (fun p problem => h.report input source p (.problem problem)) p)
      fun q acts => Judges input source p (problems.map .reported) q acts := by
  induction problems generalizing p with
  | nil => exact Records.pure .nil
  | cons problem problems ih =>
      rw [List.foldlM_cons, List.foldlM_cons]
      refine Records.bind (records_report h input source p problem) ?_
      rintro _ _ ⟨rfl, rfl⟩
      refine (ih _).mono fun q acts hrest => ?_
      exact (Judges.reported problem quiet_nil (spares_nil _)).append hrest

end Placing

end ClassSkeleton.Run
