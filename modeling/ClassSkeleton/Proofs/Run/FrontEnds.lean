import ClassSkeleton.Proofs.Report
import ClassSkeleton.Proofs.Run.Fate
import ClassSkeleton.Proofs.Run.FileName

namespace ClassSkeleton.Run

/-!
# Front ends

One document can be turned into files, into a listing and into a report. If no operation is
refused, the files are the units of the document, the listing and the report show the same
units in their order, and the three runs end with the same status.
-/

open Skeleton (SourceUnit)

namespace Act

/-- Whether an act has gone well, where every file that is read is to hold a source. -/
def succeeds (source : String) : Act → Bool
  | read _ (.ok text) => text = source
  | read _ (.error _) => false
  | created _ failure => failure.isNone
  | wrote _ _ failure => failure.isNone
  | flushed _ failure => failure.isNone
  | _ => true

def shown? : Act → Option String
  | shown text => some text
  | _ => none

theorem refused?_of_succeeds {source : String} {act : Act} (h : act.succeeds source = true) :
    act.refused? = none := by
  cases act with
  | created file failure => cases failure with
    | none => rfl
    | some e => cases h
  | wrote file text failure => cases failure with
    | none => rfl
    | some e => cases h
  | flushed file failure => cases failure with
    | none => rfl
    | some e => cases h
  | _ => rfl

end Act

def showings (acts : List Act) : List String := acts.filterMap Act.shown?

def touching (acts : List Act) : List Act := acts.filter fun act => act.touched?.isSome

@[simp] theorem touching_append (acts more : List Act) :
    touching (acts ++ more) = touching acts ++ touching more := List.filter_append ..

theorem touching_told (texts : List String) : touching (texts.map Act.told) = [] := by
  simp [touching, Act.touched?]

theorem Progress.owner?_wrote {p : Progress} {file other input : Path}
    (hfree : p.owner? other = none) (hother : file.same other = false) :
    (p.wrote file input).owner? other = none := by
  have hfind := Option.map_eq_none_iff.mp hfree
  simp [Progress.owner?, Progress.wrote, List.find?_append, hfind, hother]

/-- What is recorded when a unit is placed into a folder. -/
def placing (folder : Path) (u : SourceUnit) : List Act :=
  fullWriting (folder.join u.fileName) u.code ++
    [.told ("  ✓ " ++ (folder.join u.fileName).text ++ "\n")]

theorem touching_flatMap_placing (folder : Path) (units : List SourceUnit) :
    touching (units.flatMap (placing folder)) =
      units.flatMap fun u => fullWriting (folder.join u.fileName) u.code := by
  induction units with
  | nil => rfl
  | cons u units ih =>
      rw [List.flatMap_cons, touching_append, ih, List.flatMap_cons]
      rfl

section Placing

variable {σ : Type} (h : Host (StateM σ)) (folder input : Path) (source : String)

-- What is assumed of a record stands in what is proved of it: a run that fails on the way has a
-- record too, and nothing is claimed of that one.
theorem records_place_of_free (p : Progress) (u : SourceUnit) :
    Records (h.recorded.place folder input source p u) (h.place folder input source p u)
      fun q acts => p.owner? (folder.join u.fileName) = none →
        (∀ act ∈ acts, act.refused? = none) →
        q = p.wrote (folder.join u.fileName) input ∧ acts = placing folder u := by
  unfold Host.place
  cases howner : p.owner? (folder.join u.fileName) with
  | some first =>
      exact (records_report h input source p _).mono fun _ _ _ hfree => nomatch hfree
  | none =>
      refine Records.bind (records_writeUnit h folder u) ?_
      rintro (problem | file) acts hacts
      · obtain ⟨e, rfl, -, -, act, hact, hcause⟩ := hacts
        refine (records_report h input source p _).mono ?_
        rintro _ _ - - hall
        have hnone := hall act (List.mem_append_left _ hact)
        cases hcause.symm.trans hnone
      · obtain ⟨rfl, rfl⟩ := hacts
        refine Records.bind (records_putErr h _) ?_
        rintro _ _ rfl
        exact Records.pure fun _ _ => ⟨rfl, rfl⟩

theorem records_foldlM_place_of_free (p : Progress) (units : List SourceUnit) :
    Records (units.foldlM (h.recorded.place folder input source) p)
      (units.foldlM (h.place folder input source) p)
      fun q acts => (∀ u ∈ units, p.owner? (folder.join u.fileName) = none) →
        (units.Pairwise fun u v =>
          (folder.join u.fileName).same (folder.join v.fileName) = false) →
        (∀ act ∈ acts, act.refused? = none) →
        q.failures = p.failures ∧ acts = units.flatMap (placing folder) := by
  induction units generalizing p with
  | nil => exact Records.pure fun _ _ _ => ⟨rfl, rfl⟩
  | cons u units ih =>
      rw [List.foldlM_cons, List.foldlM_cons]
      refine Records.bind (records_place_of_free h folder input source p u) ?_
      intro q acts hplaced
      refine (ih q).mono ?_
      intro r more hmore hfree hplaces hall
      obtain ⟨hu, hunits⟩ := List.forall_mem_cons.mp hfree
      obtain ⟨hothers, hplaces⟩ := List.pairwise_cons.mp hplaces
      obtain ⟨rfl, rfl⟩ := hplaced hu fun act hact => hall act (List.mem_append_left _ hact)
      have hstill : ∀ v ∈ units, (p.wrote (folder.join u.fileName) input).owner?
          (folder.join v.fileName) = none :=
        fun v hv => Progress.owner?_wrote (hunits v hv) (hothers v hv)
      obtain ⟨hfailures, rfl⟩ :=
        hmore hstill hplaces fun act hact => hall act (List.mem_append_right _ hact)
      exact ⟨hfailures, rfl⟩

theorem records_reports (p : Progress) (problems : List Problem) :
    Records
      (problems.foldlM (fun p problem => h.recorded.report input source p (.problem problem)) p)
      (problems.foldlM (fun p problem => h.report input source p (.problem problem)) p)
      fun q acts => q.failures = p.failures ++ problems.map .problem ∧
        acts = (problems.map fun problem => problem.render source input.text).map .told := by
  induction problems generalizing p with
  | nil => exact Records.pure ⟨by simp, rfl⟩
  | cons problem problems ih =>
      rw [List.foldlM_cons, List.foldlM_cons]
      refine Records.bind (records_report h input source p problem) ?_
      rintro _ _ ⟨rfl, rfl⟩
      refine (ih _).mono ?_
      rintro q _ ⟨hfailures, rfl⟩
      exact ⟨by simp [hfailures, Progress.failed], rfl⟩

end Placing

section Starting

variable {σ α β : Type} {s s₁ : σ} {a : α}

/-- Whether a recorded program does from one state on what another does, and `Q` holds of the
result and of what is recorded. -/
def RecordsFrom (s : σ) (x : StateM (σ × List Act) α) (y : StateM σ α)
    (Q : α → List Act → Prop) : Prop :=
  ∃ acts, x.run (s, []) = ((y.run s).1, (y.run s).2, acts) ∧ Q (y.run s).1 acts

theorem Records.start {Q : α → List Act → Prop} {x : StateM (σ × List Act) α} {y : StateM σ α}
    (h : Records x y Q) (s : σ) : RecordsFrom s x y Q := h.run_eq s []

/-- What leaves no record may be left out if its result is known. -/
theorem RecordsFrom.after {Q : β → List Act → Prop} {x : StateM (σ × List Act) α}
    {y : StateM σ α} {f : α → StateM (σ × List Act) β} {g : α → StateM σ β}
    (hx : Records x y fun _ acts => acts = []) (hrun : y.run s = (a, s₁))
    (h : RecordsFrom s₁ (f a) (g a) Q) : RecordsFrom s (x >>= f) (y >>= g) Q := by
  obtain ⟨_, hrecorded, rfl⟩ := hx.run_eq s []
  obtain ⟨acts, hrest, hQ⟩ := h
  rw [hrun] at hrecorded
  refine ⟨acts, ?_, ?_⟩
  · rw [StateT.run_bind, StateT.run_bind, hrecorded, hrun]
    exact hrest
  · rw [StateT.run_bind, hrun]
    exact hQ

end Starting

/-- Whether a run has brought the units of a source into the folder of a job and has succeeded
just if nothing else came of the source. -/
def Brings (job : Job) (source : String) (success : Bool) (acts : List Act) : Prop :=
  match compile job.rules job.options source with
  | .error _ => success = false ∧ touching acts = []
  | .ok c => success = c.problems.isEmpty ∧
      touching acts = c.units.flatMap fun u => fullWriting (job.output.join u.fileName) u.code

/-- What standard input is turned into: a report, or a listing, or nothing at all. -/
def Prints (job : Job) (source : String) (asJson : Bool) (status : Status) (acts : List Act) :
    Prop :=
  match compile job.rules job.options source with
  | .error _ => status = .failure ∧ showings acts = []
  | .ok c => status = .ofBool c.problems.isEmpty ∧
      showings acts = [if asJson then String.ofList c.toJson.compact ++ "\n" else c.listing]

section Modes

variable {σ : Type} (h : Host (StateM σ)) (job : Job)

theorem nodup_fileName_of_compile {rules : Rules.RuleSet} {options : Skeleton.Options}
    {source : String} {c : Compiled} (h : compile rules options source = .ok c) :
    (c.units.map (·.fileName)).Nodup := by
  unfold compile at h
  cases hparse : Document.compounds source with
  | error why => simp [hparse] at h
  | ok compounds =>
      rw [hparse] at h
      cases h
      exact (pairwise_fileName_compileFrom [] _).2

theorem pairwise_places (folder : Path) {units : List SourceUnit}
    (hnames : ∀ u ∈ units, IsFileName u.fileName) (hnodup : (units.map (·.fileName)).Nodup) :
    units.Pairwise fun u v => (folder.join u.fileName).same (folder.join v.fileName) = false := by
  refine (List.pairwise_map.mp hnodup).imp_of_mem fun {u v} hu hv hne => ?_
  rw [folder.same_join (hnames u hu) (hnames v hv)]
  exact decide_eq_false hne

theorem records_processFile_of_succeeds (input : Path) :
    Records (h.recorded.processFile job .start input) (h.processFile job .start input)
      fun q acts => ∀ source, (∀ act ∈ acts, act.succeeds source = true) →
        (∀ c, compile job.rules job.options source = .ok c →
          ∀ u ∈ c.units, IsFileName u.fileName) →
        Brings job source q.isSuccess acts := by
  refine Records.bind (records_putErr h _) ?_
  rintro _ _ rfl
  refine Records.bind (records_readText h input) ?_
  rintro (why | text) _ rfl
  · refine Records.bind (records_putErr h _) ?_
    rintro _ _ rfl
    refine Records.pure fun source hall => ?_
    have hread := hall (.read input (.error why)) (by simp)
    cases hread
  · refine Records.bind (records_putErr h _) ?_
    rintro _ _ rfl
    cases hcompiled : compile job.rules job.options text with
    | error why =>
        refine (records_report h input text .start _).mono ?_
        rintro _ _ ⟨rfl, rfl⟩ source hall -
        have hread := hall (.read input (.ok text)) (by simp)
        obtain rfl : text = source := of_decide_eq_true hread
        simp [Brings, hcompiled, touching, Act.touched?, Progress.isSuccess, Progress.failed]
    | ok c =>
        refine Records.bind (records_foldlM_place_of_free h job.output input text .start _) ?_
        intro q acts hplaced
        refine (records_reports h input text q _).mono ?_
        rintro r _ ⟨hfailures, rfl⟩ source hall hnames
        have hread := hall (.read input (.ok text)) (by simp)
        obtain rfl : text = source := of_decide_eq_true hread
        -- Units of one document have different names, and so different places.
        have hplaces := pairwise_places job.output (hnames c hcompiled)
          (nodup_fileName_of_compile hcompiled)
        obtain ⟨hstart, rfl⟩ := hplaced (fun _ _ => rfl) hplaces fun act hact =>
          Act.refused?_of_succeeds (hall act (by simp [hact]))
        simp only [Brings, hcompiled]
        refine ⟨?_, ?_⟩
        · simp [Progress.isSuccess, hfailures, hstart, Progress.start]
        · rw [touching_append, touching_append, touching_append, touching_append, touching_told,
            touching_flatMap_placing]
          simp [touching, Act.touched?]

theorem records_generateFiles (input : Path) {s s₁ s₂ : σ}
    (collected : (h.collectInputs [input]).run s = (.ok [input], s₁))
    (made : (h.makeFolders job.output).run s₁ = (.ok (), s₂)) :
    RecordsFrom s (h.recorded.generateFiles job [input]) (h.generateFiles job [input])
      fun status acts => ∀ source, (∀ act ∈ acts, act.succeeds source = true) →
        (∀ c, compile job.rules job.options source = .ok c →
          ∀ u ∈ c.units, IsFileName u.fileName) →
        ∃ success, status = .ofBool success ∧ Brings job source success acts := by
  refine .after (records_collectInputs h [input]) collected ?_
  refine .after (records_makeFoldersFrom h _ job.output) made ?_
  refine Records.start ?_ s₂
  refine Records.bind (records_processFile_of_succeeds h job input) ?_
  intro q acts hbrings
  refine Records.bind (Records.silent h.elapsed) ?_
  rintro micros _ rfl
  refine Records.bind (records_putErr h _) ?_
  rintro _ _ rfl
  refine Records.pure fun source hall hnames => ⟨q.isSuccess, rfl, ?_⟩
  have hfile := hbrings source (fun act hact => hall act (List.mem_append_left _ hact)) hnames
  have hlast : touching [.told (summary q.count micros)] = [] := rfl
  simpa [Brings, hlast] using hfile

theorem records_generateInput (asJson : Bool) {source : String} {s s₁ : σ}
    (reached : h.readInput.run s = (.ok source, s₁)) :
    RecordsFrom s (h.recorded.generateInput job asJson) (h.generateInput job asJson)
      (Prints job source asJson) := by
  refine .after (Records.silent h.readInput) reached ?_
  refine Records.start ?_ s₁
  refine Records.bind (records_putErr h _) ?_
  rintro _ _ rfl
  cases hcompiled : compile job.rules job.options source with
  | error why =>
      refine Records.bind (records_putErr h _) ?_
      rintro _ _ rfl
      refine Records.pure ?_
      rw [Prints, hcompiled]
      exact ⟨rfl, rfl⟩
  | ok c =>
      cases asJson with
      | true =>
          refine Records.bind (Records.noted (fun _ => .shown _) _) ?_
          rintro _ _ rfl
          refine Records.pure ?_
          rw [Prints, hcompiled]
          exact ⟨rfl, rfl⟩
      | false =>
          refine Records.bind (Records.noted (fun _ => .shown _) _) ?_
          rintro _ _ rfl
          refine Records.bind (records_putErr h _) ?_
          rintro _ _ rfl
          refine Records.pure ?_
          rw [Prints, hcompiled]
          exact ⟨rfl, rfl⟩

end Modes

/-- Whether two programs, one of them recording, end a run from a state with the same status and
in the same state, and this is the record. -/
def Ends {σ : Type} (x : StateM (σ × List Act) Status) (y : StateM σ Status) (s : σ)
    (status : Status) (acts : List Act) : Prop :=
  ∃ last, y.run s = (status, last) ∧ x.run (s, []) = (status, last, acts)

theorem Ends.of_run {σ : Type} {x : StateM (σ × List Act) Status} {y : StateM σ Status} {s : σ}
    {status : Status} {acts : List Act}
    (h : x.run (s, []) = ((y.run s).1, (y.run s).2, acts)) (hstatus : (y.run s).1 = status) :
    Ends x y s status acts := ⟨_, Prod.ext hstatus rfl, hstatus ▸ h⟩

/-- What three runs on one source have in common: what is recorded while files are written, a
listing is printed and a report is printed, and the one status of all three. -/
inductive Agree (job : Job) (source : String) (status : Status)
    (files listing report : List Act) : Prop
  | unreadable {why : Diagnostic} (fault : compile job.rules job.options source = .error why)
      (status_eq : status = .failure) (untouched : touching files = [])
      (unlisted : showings listing = []) (unreported : showings report = [])
  | compiled {c : Compiled} (result : compile job.rules job.options source = .ok c)
      (status_eq : status = .ofBool c.problems.isEmpty)
      (written : touching files =
        c.units.flatMap fun u => fullWriting (job.output.join u.fileName) u.code)
      (inside : ∀ u ∈ c.units, (job.output.join u.fileName).components =
        job.output.components ++ [.name u.fileName])
      (different : (c.units.map (·.fileName)).Nodup)
      (listed : showings listing =
        [String.join (c.units.map fun u => "// " ++ u.fileName ++ "\n" ++ u.code)])
      (reported : ∃ text, showings report = [text] ∧
        Json.readDocument Report.read text = .ok ⟨c.units, c.problems.map Problem.message⟩)

/-- Two classes with one file, and a class without a name between them. -/
def mixed : String :=
  "<d><compounddef kind=\"class\"><compoundname>A</compoundname></compounddef>" ++
    "<compounddef kind=\"class\"/>" ++
    "<compounddef kind=\"struct\"><compoundname>M::A</compoundname></compounddef></d>"

def mixedJob : Job := ⟨Rules.standard, ⟨"", .fieldsFirst, "java"⟩, ⟨"."⟩, false⟩

/-- The document as a file and on standard input. -/
def mixedSession : Session :=
  .ofStore { Store.empty with nodes := [(["a.xml"], .file (some mixed))] } (.ok mixed)

end ClassSkeleton.Run
