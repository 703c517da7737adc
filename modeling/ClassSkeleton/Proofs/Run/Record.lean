import ClassSkeleton.Run.Generate

namespace ClassSkeleton.Run

/-!
# Recorded runs

A host that keeps a state can be made to record what is done through it. A program does the same
with the recording host as with the host itself, and the record only grows.
-/

/-- An operation of a host together with what came of it. -/
inductive Act where
  | read (file : Path) (result : Except DiskError String)
  | created (file : Path) (failure : Option DiskError)
  | wrote (file : Path) (text : String) (failure : Option DiskError)
  | flushed (file : Path) (failure : Option DiskError)
  | removed (file : Path) (failure : Option DiskError)
  | shown (text : String)
  | told (text : String)

namespace Act

/-- The file that has been written, once all of its text has left the program. -/
def file? : Act → Option Path
  | flushed file none => some file
  | _ => none

def told? : Act → Option String
  | told text => some text
  | _ => none

/-- The file that could not be written, and why. -/
def refused? : Act → Option (Path × DiskError)
  | created file (some e) => some (file, e)
  | wrote file _ (some e) => some (file, e)
  | flushed file (some e) => some (file, e)
  | _ => none

/-- The file that may have been changed. -/
def touched? : Act → Option Path
  | created file _ => some file
  | wrote file _ _ => some file
  | flushed file _ => some file
  | removed file _ => some file
  | _ => none

end Act

def writes (acts : List Act) : List Path := acts.filterMap Act.file?

/-- The texts that have been written to the error stream, in order. -/
def tellings (acts : List Act) : List String := acts.filterMap Act.told?

@[simp] theorem writes_nil : writes [] = [] := rfl

@[simp] theorem writes_append (acts more : List Act) :
    writes (acts ++ more) = writes acts ++ writes more := List.filterMap_append

@[simp] theorem writes_told (text : String) : writes [.told text] = [] := rfl

@[simp] theorem tellings_append (acts more : List Act) :
    tellings (acts ++ more) = tellings acts ++ tellings more := List.filterMap_append

/-- Whether some acts touch none of some files. -/
def Spares (files : List Path) (acts : List Act) : Prop :=
  ∀ act ∈ acts, ∀ other ∈ act.touched?, ∀ file ∈ files, file.same other = false

/-- Whether no act touches a file that has been written before it. -/
def Keeps (acts : List Act) : Prop :=
  acts.Pairwise fun act later => ∀ file ∈ act.file?, ∀ other ∈ later.touched?,
    file.same other = false

def Distinct (files : List Path) : Prop := files.Pairwise fun file other => file.same other = false

theorem Spares.mono {files more : List Path} {acts : List Act} (h : Spares more acts)
    (hfiles : files ⊆ more) : Spares files acts := by
  intro act hact other hother file hfile
  exact h act hact other hother file (hfiles hfile)

theorem Spares.append {files : List Path} {acts more : List Act} (h : Spares files acts)
    (hmore : Spares files more) : Spares files (acts ++ more) := by
  intro act hact
  rcases List.mem_append.mp hact with hact | hact
  · exact h act hact
  · exact hmore act hact

theorem Act.touched?_of_file? {act : Act} {file : Path} (h : act.file? = some file) :
    act.touched? = some file := by
  cases act with
  | flushed other failure =>
      cases failure with
      | none => exact h
      | some e => cases h
  | _ => cases h

theorem writes_of_untouched {acts : List Act} (h : ∀ act ∈ acts, act.touched? = none) :
    writes acts = [] := by
  refine List.filterMap_eq_nil_iff.mpr fun act hact => ?_
  cases hfile : act.file? with
  | none => rfl
  | some file => cases (h act hact).symm.trans (Act.touched?_of_file? hfile)

theorem spares_of_untouched {acts : List Act} (h : ∀ act ∈ acts, act.touched? = none)
    (files : List Path) : Spares files acts := by
  intro act hact other hother
  cases (h act hact).symm.trans hother

theorem nil_spares (acts : List Act) : Spares [] acts := by simp [Spares]

theorem spares_nil (files : List Path) : Spares files [] := fun _ h => nomatch h

theorem keeps_of_writes_eq_nil {acts : List Act} (h : writes acts = []) : Keeps acts := by
  refine List.pairwise_of_forall_mem_list fun act hact later _ file hfile => ?_
  rw [List.filterMap_eq_nil_iff.mp h act hact] at hfile
  cases hfile

theorem Keeps.append {acts more : List Act} (h : Keeps acts) (hmore : Keeps more)
    (hspares : Spares (writes acts) more) : Keeps (acts ++ more) := by
  refine List.pairwise_append.mpr ⟨h, hmore, ?_⟩
  intro act hact later hlater file hfile other hother
  exact hspares later hlater other hother file (List.mem_filterMap.mpr ⟨act, hact, hfile⟩)

theorem Keeps.distinct {acts : List Act} (h : Keeps acts) : Distinct (writes acts) := by
  refine List.pairwise_filterMap.mpr (h.imp ?_)
  intro act later hkept file hfile other hother
  exact hkept file hfile other (Act.touched?_of_file? hother)

def failure? {α : Type} : Except DiskError α → Option DiskError
  | .ok _ => none
  | .error e => some e

section Recording

variable {σ α β : Type}

/-- Does something that the record does not show. -/
def silent (x : StateM σ α) : StateM (σ × List Act) α := fun (s, record) =>
  let (a, s) := x.run s
  (a, s, record)

def noted (note : α → Act) (x : StateM σ α) : StateM (σ × List Act) α := fun (s, record) =>
  let (a, s) := x.run s
  (a, s, record ++ [note a])

/-- The host that records what is done through it. Its files know their paths. -/
def Host.recorded (h : Host (StateM σ)) : Host (StateM (σ × List Act)) where
  File := Path × h.File
  isFile p := silent (h.isFile p)
  isFolder p := silent (h.isFolder p)
  filesBelow p := silent (h.filesBelow p)
  readText p := noted (.read p) (h.readText p)
  makeFolder p := silent (h.makeFolder p)
  create p := (Except.map (p, ·)) <$> noted (fun r => .created p (failure? r)) (h.create p)
  write file text := noted (fun r => .wrote file.1 text (failure? r)) (h.write file.2 text)
  flush file := noted (fun r => .flushed file.1 (failure? r)) (h.flush file.2)
  remove p := noted (fun r => .removed p (failure? r)) (h.remove p)
  readInput := silent h.readInput
  putOut text := noted (fun _ => .shown text) (h.putOut text)
  putErr text := noted (fun _ => .told text) (h.putErr text)
  elapsed := silent h.elapsed

/-- Whether a recorded program does what another does, and `Q` holds of the two results and of
what is recorded. -/
def Tracks (x : StateM (σ × List Act) α) (y : StateM σ β) (Q : α → β → List Act → Prop) : Prop :=
  ∀ s record, ∃ a acts, x.run (s, record) = (a, (y.run s).2, record ++ acts) ∧ Q a (y.run s).1 acts

/-- Whether a recorded program does what another does with the same result, and `Q` holds of
that result and of what is recorded. -/
def Records (x : StateM (σ × List Act) α) (y : StateM σ α) (Q : α → List Act → Prop) : Prop :=
  Tracks x y fun a b acts => a = b ∧ Q b acts

theorem Tracks.bind {γ δ : Type} {Q : α → β → List Act → Prop} {R : γ → δ → List Act → Prop}
    {x : StateM (σ × List Act) α} {y : StateM σ β}
    {f : α → StateM (σ × List Act) γ} {g : β → StateM σ δ} (h : Tracks x y Q)
    (hnext : ∀ a b acts, Q a b acts → Tracks (f a) (g b) fun c d more => R c d (acts ++ more)) :
    Tracks (x >>= f) (y >>= g) R := by
  intro s record
  obtain ⟨a, acts, hx, hQ⟩ := h s record
  obtain ⟨c, more, hf, hR⟩ := hnext a _ acts hQ (y.run s).2 (record ++ acts)
  refine ⟨c, acts ++ more, ?_, hR⟩
  rw [StateT.run_bind, hx, ← List.append_assoc]
  exact hf

namespace Records

theorem pure {Q : α → List Act → Prop} {a : α} (h : Q a []) :
    Records (σ := σ) (Pure.pure a) (Pure.pure a) Q :=
  fun s record => ⟨a, [], by rw [List.append_nil]; rfl, rfl, h⟩

theorem bind {Q : α → List Act → Prop} {R : β → List Act → Prop}
    {x : StateM (σ × List Act) α} {y : StateM σ α}
    {f : α → StateM (σ × List Act) β} {g : α → StateM σ β} (h : Records x y Q)
    (hnext : ∀ a acts, Q a acts → Records (f a) (g a) fun b more => R b (acts ++ more)) :
    Records (x >>= f) (y >>= g) R := by
  refine Tracks.bind h ?_
  rintro a b acts ⟨rfl, hQ⟩
  exact hnext a acts hQ

theorem mono {Q R : α → List Act → Prop} {x : StateM (σ × List Act) α} {y : StateM σ α}
    (h : Records x y Q) (hQR : ∀ a acts, Q a acts → R a acts) : Records x y R := by
  intro s record
  obtain ⟨a, acts, hx, ha, hQ⟩ := h s record
  exact ⟨a, acts, hx, ha, hQR _ _ hQ⟩

theorem run_eq {Q : α → List Act → Prop} {x : StateM (σ × List Act) α} {y : StateM σ α}
    (h : Records x y Q) (s : σ) (record : List Act) :
    ∃ acts, x.run (s, record) = ((y.run s).1, (y.run s).2, record ++ acts) ∧
      Q (y.run s).1 acts := by
  obtain ⟨a, acts, hx, rfl, hQ⟩ := h s record
  exact ⟨acts, hx, hQ⟩

theorem silent (x : StateM σ α) : Records (silent x) x fun _ acts => acts = [] :=
  fun s record => ⟨(x.run s).1, [], by rw [List.append_nil]; rfl, rfl, rfl⟩

theorem noted (note : α → Act) (x : StateM σ α) :
    Records (noted note x) x fun a acts => acts = [note a] :=
  fun _ _ => ⟨_, _, rfl, rfl, rfl⟩

end Records

section Operations

variable (h : Host (StateM σ)) (file : Path)

theorem tracks_create : Tracks (h.recorded.create file) (h.create file) fun made made' acts =>
    made = made'.map (file, ·) ∧ acts = [.created file (failure? made')] :=
  fun _ _ => ⟨_, _, rfl, rfl, rfl⟩

theorem records_write (handle : h.File) (text : String) :
    Records (h.recorded.write (file, handle) text) (h.write handle text) fun result acts =>
      acts = [.wrote file text (failure? result)] :=
  Records.noted (fun result => .wrote file text (failure? result)) _

theorem records_flush (handle : h.File) :
    Records (h.recorded.flush (file, handle)) (h.flush handle) fun result acts =>
      acts = [.flushed file (failure? result)] :=
  Records.noted (fun result => .flushed file (failure? result)) _

theorem records_remove : Records (h.recorded.remove file) (h.remove file) fun result acts =>
    acts = [.removed file (failure? result)] :=
  Records.noted (fun result => .removed file (failure? result)) _

theorem records_isFile : Records (h.recorded.isFile file) (h.isFile file) fun _ acts =>
    acts = [] := Records.silent _

theorem records_readText : Records (h.recorded.readText file) (h.readText file) fun result acts =>
    acts = [.read file result] := Records.noted (.read file) _

theorem records_putErr (text : String) :
    Records (h.recorded.putErr text) (h.putErr text) fun _ acts => acts = [.told text] :=
  Records.noted (fun _ => .told text) _

end Operations

end Recording

end ClassSkeleton.Run
