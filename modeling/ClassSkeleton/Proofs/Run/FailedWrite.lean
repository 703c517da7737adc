import ClassSkeleton.Run.Session
import Mathlib.Data.List.Infix

namespace ClassSkeleton.Run

/-!
# Writes that fail

When the file of a unit cannot be written, every other place of the store is as it was. What has
been written of the file is taken away. So is a file that was there and has never been opened,
unless the store refuses that too.
-/

namespace Store

/-- Whether a path leads to a location, where a node may be or not. -/
def Leads (s : Store) (p : Path) (l : Location) : Prop :=
  s.walk (s.origin p) p.pieces = .ok l

section Places

variable {s t : Store} {l : Location}

@[simp] theorem node?_erase_self (s : Store) (h : l ≠ []) : (s.erase l).node? l = none := by
  rw [node?, if_neg h, erase, List.lookup_eq_none_iff]
  intro entry hentry
  have hne : entry.1 ≠ l := by simpa using (List.mem_filter.mp hentry).2
  exact bne_iff_ne.mpr hne.symm

theorem put_put (s : Store) (l : Location) (n m : Node) : (s.put l n).put l m = s.put l m := by
  simp only [put, ne_eq, not_true, decide_false, Bool.false_eq_true, not_false_eq_true,
    List.filter_cons_of_neg, List.filter_filter, Bool.and_self]

theorem erase_put (s : Store) (l : Location) (n : Node) : (s.put l n).erase l = s.erase l := by
  simp only [put, erase, ne_eq, not_true, decide_false, Bool.false_eq_true, not_false_eq_true,
    List.filter_cons_of_neg, List.filter_filter, Bool.and_self]

theorem dropWhile_isEmpty {pieces : List (List Char)} (h : pieces.head? ≠ some []) :
    pieces.dropWhile (·.isEmpty) = pieces := by
  cases pieces with
  | nil => rfl
  | cons piece pieces =>
      have hpiece : piece ≠ [] := fun heq => h (by rw [heq]; rfl)
      exact List.dropWhile_cons_of_neg (by simpa using hpiece)

theorem folder_of_step {k m : Location} {piece : List Char} (h : s.step k piece = .ok m) :
    s.node? k = some .folder := by
  unfold step at h
  split at h
  · cases h
  · cases h
  · assumption

theorem walk_append (s : Store) (k : Location) (first second : List (List Char)) :
    s.walk k (first ++ second) = (s.walk k first).bind fun m => s.walk m second := by
  induction first generalizing k with
  | nil => rfl
  | cons piece first ih =>
      rw [List.cons_append, walk, walk]
      cases s.step k piece with
      | error e => rfl
      | ok m => exact ih m

/-- A walk goes through folders only, so it does not see what else is changed. -/
theorem walk_of_same (hsame : ∀ k ≠ l, t.node? k = s.node? k) (hl : s.node? l ≠ some .folder)
    {k m : Location} {pieces : List (List Char)} (h : s.walk k pieces = .ok m) :
    t.walk k pieces = .ok m := by
  induction pieces generalizing k with
  | nil => exact h
  | cons piece pieces ih =>
      rw [walk] at h ⊢
      cases hstep : s.step k piece with
      | error e =>
          rw [hstep] at h
          cases h
      | ok next =>
          rw [hstep] at h
          have hk : k ≠ l := fun heq => hl (heq ▸ folder_of_step hstep)
          have hnext : t.step k piece = .ok next := by
            rw [← hstep, step, step, hsame k hk]
          rw [hnext]
          exact ih h

end Places

section Files

variable {s t : Store} {p : Path} {l : Location} {n : Node}

theorem find_eq_ok_iff : s.find p = .ok (l, n) ↔
    checkPath p = .ok () ∧ s.Leads p l ∧ s.node? l = some n := by
  unfold find Leads
  cases checkPath p with
  | error e => simp [bind, Except.bind]
  | ok =>
      cases s.walk (s.origin p) p.pieces with
      | error e => simp [bind, Except.bind]
      | ok m =>
          cases hnode : s.node? m with
          | none =>
              simp only [bind, Except.bind, hnode, true_and, Except.ok.injEq]
              constructor
              · rintro ⟨⟩
              · rintro ⟨rfl, hl⟩
                rw [hnode] at hl
                cases hl
          | some other =>
              simp only [bind, Except.bind, hnode, true_and, Except.ok.injEq, Prod.mk.injEq]
              constructor
              · rintro ⟨rfl, rfl⟩
                exact ⟨rfl, hnode⟩
              · rintro ⟨rfl, hl⟩
                exact ⟨rfl, Option.some.inj (hnode.symm.trans hl)⟩

/-- The folder and the last name of a target make up its path, unless a slash follows. -/
theorem leads_of_target {a : Target} (h : s.target p = .ok a) (hslash : a.slash = false)
    (hl : s.step a.folder a.last = .ok l) : checkPath p = .ok () ∧ s.Leads p l := by
  unfold target at h
  cases hcheck : checkPath p with
  | error e => simp [hcheck, bind, Except.bind] at h
  | ok =>
      simp only [hcheck, bind, Except.bind] at h
      refine ⟨rfl, ?_⟩
      split at h
      · cases h
        cases hslash
      · next last before hdrop =>
          cases hwalk : s.walk (s.origin p) before.reverse with
          | error e => simp [hwalk] at h
          | ok folder =>
              simp only [hwalk] at h
              split at h
              · cases h
              · cases h
                have hhead : p.pieces.reverse.head? ≠ some [] := of_decide_eq_false hslash
                have hpieces : p.pieces = before.reverse ++ [last] := by
                  rw [dropWhile_isEmpty hhead] at hdrop
                  rw [← List.reverse_cons, ← hdrop, List.reverse_reverse]
                rw [Leads, hpieces, walk_append, hwalk]
                simp only [Except.bind, walk]
                rw [hl]
                rfl

/-- A file that can be created stands where its path leads, and no folder stood there. -/
theorem leads_of_create (h : s.create p = .ok (l, t)) :
    checkPath p = .ok () ∧ s.Leads p l ∧ s.node? l ≠ some .folder ∧
      t = s.put l (.file (some "")) := by
  unfold create at h
  cases htarget : s.target p with
  | error e => simp [htarget, bind, Except.bind] at h
  | ok a =>
      simp only [htarget, bind, Except.bind] at h
      split at h
      · cases h
      · next hplain =>
          rw [not_or] at hplain
          cases hstep : s.step a.folder a.last with
          | error e => simp [hstep] at h
          | ok m =>
              simp only [hstep] at h
              split at h
              · cases h
              · next hfolder =>
                  split at h
                  · cases h
                  · cases h
                    obtain ⟨hcheck, hleads⟩ := leads_of_target htarget (by simpa using hplain.1) hstep
                    exact ⟨hcheck, hleads, hfolder, rfl⟩

/-- A file that has just been put where a path leads is found and can be taken away. -/
theorem find_put (hcheck : checkPath p = .ok ()) (hleads : s.Leads p l)
    (hl : s.node? l ≠ some .folder) (text : Option String) :
    (s.put l (.file text)).find p = .ok (l, .file text) := by
  have hroot : l ≠ [] := by
    rintro rfl
    exact hl (by rw [node?, if_pos rfl])
  refine find_eq_ok_iff.mpr ⟨hcheck, ?_, node?_put_self s hroot _⟩
  exact walk_of_same (fun k hk => node?_put_of_ne s hk _) hl hleads

/-- Takes away the file that a path leads to, as far as the store allows it. -/
def discard (s : Store) (p : Path) : Store :=
  match s.remove p with
  | .ok t => if s.isFile p then t else s
  | .error _ => s

theorem remove_of_file {content : Option String} (h : s.find p = .ok (l, .file content)) :
    s.remove p = match s.refused .remove l with
      | some e => .error e
      | none => .ok (s.erase l) := by
  rw [remove, h]
  cases hrefused : s.refused .remove l with
  | some e => simp [bind, Except.bind, hrefused]
  | none => simp [bind, Except.bind, hrefused]

theorem isFile_of_file {content : Option String} (h : s.find p = .ok (l, .file content)) :
    s.isFile p = true := by rw [isFile, h]

theorem exists_file (h : s.isFile p = true) :
    ∃ l content, s.find p = .ok (l, .file content) := by
  unfold isFile at h
  split at h
  · next l content hfind => exact ⟨l, content, hfind⟩
  · cases h

theorem discard_of_file {content : Option String} (h : s.find p = .ok (l, .file content)) :
    s.discard p = if s.refused .remove l = none then s.erase l else s := by
  rw [discard, remove_of_file h, isFile_of_file h]
  cases s.refused .remove l with
  | some e => rfl
  | none => rfl

theorem discard_of_not_file (h : s.isFile p = false) : s.discard p = s := by
  rw [discard, h]
  cases s.remove p with
  | error e => rfl
  | ok t => rfl

/-- What is the same and what is not when the file at a path could not be written: nothing else
changes, nothing is left of a file that was opened unless it may not be removed, and a file that
could not be opened is there as before exactly if it may not be removed either. -/
structure Spares (s t : Store) (p : Path) (text : String) : Prop where
  others : ∀ l, ¬ s.Leads p l → t.node? l = s.node? l
  opened : ∀ l created, s.create p = .ok (l, created) → s.Leads p l ∧
    (s.refused .remove l = none → t.node? l = none) ∧
    (s.refused .remove l ≠ none →
      ∃ part, part.toList <+: text.toList ∧ t.node? l = some (.file (some part)))
  unopened : ∀ why, s.create p = .error why → (s.isFile p = false → t = s) ∧
    ∀ l content, s.find p = .ok (l, .file content) →
      (t.node? l = some (.file content) ↔ s.refused .remove l ≠ none)

theorem root_of_not_folder (h : s.node? l ≠ some .folder) : l ≠ [] := by
  rintro rfl
  exact h (by rw [node?, if_pos rfl])

theorem Spares.of_unopened {text : String} {why : DiskError} (h : s.create p = .error why) :
    s.Spares (s.discard p) p text := by
  have hnever : ∀ l created, s.create p ≠ .ok (l, created) := by
    intro l created hcreated
    rw [h] at hcreated
    cases hcreated
  cases hfile : s.isFile p with
  | false =>
      rw [discard_of_not_file hfile]
      refine ⟨fun _ _ => rfl, fun l created hcreated => absurd hcreated (hnever l created), ?_⟩
      rintro - -
      refine ⟨fun _ => rfl, ?_⟩
      intro l content hfind
      rw [isFile_of_file hfind] at hfile
      cases hfile
  | true =>
      obtain ⟨l, content, hfind⟩ := exists_file hfile
      obtain ⟨-, hleads, hnode⟩ := find_eq_ok_iff.mp hfind
      rw [discard_of_file hfind]
      refine ⟨?_, fun l created hcreated => absurd hcreated (hnever l created), ?_⟩
      · intro k hk
        have hne : k ≠ l := fun heq => hk (heq ▸ hleads)
        split
        · exact node?_erase_of_ne s hne
        · rfl
      · rintro - -
        refine ⟨fun hnone => absurd hnone (by simp [hfile]), ?_⟩
        intro k other hother
        obtain ⟨rfl, hsame⟩ := Prod.mk.inj (Except.ok.inj (hfind.symm.trans hother))
        obtain rfl := Node.file.inj hsame
        have hroot : l ≠ [] := root_of_not_folder (by rw [hnode]; simp)
        split
        · next hallowed => simp [node?_erase_self s hroot, hallowed]
        · next hrefused => simp [hnode, hrefused]

theorem Spares.of_opened {text part : String} (h : s.create p = .ok (l, t))
    (hpart : part.toList <+: text.toList) :
    s.Spares ((s.put l (.file (some part))).discard p) p text := by
  obtain ⟨hcheck, hleads, hfolder, rfl⟩ := leads_of_create h
  have hfound := find_put hcheck hleads hfolder (some part)
  have hrefused : (s.put l (.file (some part))).refused = s.refused := rfl
  rw [discard_of_file hfound, hrefused, erase_put]
  refine ⟨?_, ?_, ?_⟩
  · intro k hk
    have hne : k ≠ l := fun heq => hk (heq ▸ hleads)
    split
    · exact node?_erase_of_ne s hne
    · exact node?_put_of_ne s hne _
  · intro k created hcreated
    obtain ⟨rfl, -⟩ := Prod.mk.inj (Except.ok.inj (h.symm.trans hcreated))
    have hroot := root_of_not_folder hfolder
    refine ⟨hleads, ?_, ?_⟩
    · intro hallowed
      rw [if_pos hallowed, node?_erase_self s hroot]
    · intro hrefused
      rw [if_neg hrefused]
      exact ⟨part, hpart, node?_put_self s hroot _⟩
  · intro why hwhy
    rw [h] at hwhy
    cases hwhy

end Files

end Store

namespace Session

variable {s s' : Session} {p : Path} {l : Location} {text : String} {e : DiskError}

theorem run_change {α : Type} (f : Store → Except DiskError (α × Store)) (s : Session) :
    (change f).run s = match f s.store with
      | .error e => (.error e, s)
      | .ok (result, store) => (.ok result, { s with store := store }) := by
  cases h : f s.store with
  | error e =>
      simp only [change, StateT.run_bind, StateT.run_get, pure_bind, h]
      rfl
  | ok result =>
      simp only [change, StateT.run_bind, StateT.run_get, pure_bind, h]
      rfl

theorem run_write (s : Session) (l : Location) (text : String) :
    (host.write l text).run s =
      (match (s.store.write l text).1 with
        | some e => .error e
        | none => .ok (), { s with store := (s.store.write l text).2 }) := by
  rcases h : s.store.write l text with ⟨failure, store⟩
  simp only [host, write, StateT.run_bind, StateT.run_get, pure_bind, h]
  cases failure with
  | some e => rfl
  | none => rfl

/-- Of a text that is written into a new file, a part arrives even if that fails. -/
theorem write_put (s : Store) (l : Location) (n : Node) (text : String) :
    ∃ part, part.toList <+: text.toList ∧
      ((s.put l n).write l text).2 = s.put l (.file (some part)) := by
  unfold Store.write
  split
  · exact ⟨text, List.prefix_rfl, Store.put_put s l n _⟩
  · refine ⟨_, ?_, Store.put_put s l n _⟩
    rw [String.toList_ofList]
    exact List.take_prefix _ _

/-- What a failed attempt to write a file leaves behind before it is cleared away. -/
theorem store_of_writeFile (h : (host.writeFile p text).run s = (.error e, s')) :
    (∃ why, s.store.create p = .error why) ∧ s' = s ∨
      ∃ l created part, s.store.create p = .ok (l, created) ∧ part.toList <+: text.toList ∧
        s' = { s with store := s.store.put l (.file (some part)) } := by
  rw [Host.writeFile, StateT.run_bind] at h
  have hcreate : (host.create p).run s = _ := run_change (·.create p) s
  cases hfile : s.store.create p with
  | error why =>
      rw [hfile] at hcreate
      rw [hcreate] at h
      cases h
      exact Or.inl ⟨⟨_, rfl⟩, rfl⟩
  | ok made =>
      obtain ⟨l, created⟩ := made
      obtain ⟨-, -, -, rfl⟩ := Store.leads_of_create hfile
      obtain ⟨part, hpart, hstore⟩ := write_put s.store l (.file (some "")) text
      rw [hfile] at hcreate
      rw [hcreate] at h
      refine Or.inr ⟨l, _, part, rfl, hpart, ?_⟩
      let made : Session := { s with store := s.store.put l (.file (some "")) }
      replace h : (host.write l text >>= _).run made = (Except.error e, s') := h
      rw [StateT.run_bind, run_write] at h
      rw [← hstore]
      cases hfailure : (made.store.write l text).1 with
      | some why =>
          rw [hfailure] at h
          exact (Prod.mk.inj h).2.symm
      | none =>
          rw [hfailure] at h
          exact (Prod.mk.inj h).2.symm

theorem run_clear {α : Type} (s : Session) (p : Path) (result : α) :
    (do
      if ← host.isFile p then
        let _ ← host.remove p
      return result : SessionM α).run s =
        (result, { s with store := s.store.discard p }) := by
  have hthere : (host.isFile p).run s = (s.store.isFile p, s) := rfl
  have hremove : (host.remove p).run s = _ :=
    run_change (fun store => (store.remove p).map fun store => ((), store)) s
  rw [StateT.run_bind, hthere]
  unfold Store.discard
  cases s.store.isFile p with
  | false =>
      cases s.store.remove p with
      | error e => rfl
      | ok t => rfl
  | true =>
      refine (StateT.run_bind _ _ _).trans ?_
      rw [hremove]
      cases s.store.remove p with
      | error e => rfl
      | ok t => rfl

/-- When the file of a unit cannot be written, the problem names it, nothing but the store is
touched, and the store is spared everything that does not belong to the file. -/
theorem writeUnit_failed {folder : Path} {u : Skeleton.SourceUnit} {problem : Problem}
    (h : (host.writeUnit folder u).run s = (.error problem, s')) :
    let file := folder.join u.fileName
    s' = { s with store := s'.store } ∧
      (∃ why : DiskError, problem = .unwritten file.text why.message) ∧
      s.store.Spares s'.store file u.code := by
  intro file
  rw [Host.writeUnit, StateT.run_bind] at h
  rcases hwritten : (host.writeFile file u.code).run s with ⟨e | _, left⟩
  · rw [hwritten] at h
    obtain ⟨hproblem, rfl⟩ := Prod.mk.inj ((run_clear left file
      (Except.error (Problem.unwritten file.text e.message))).symm.trans h)
    have hwhy := (Except.error.inj hproblem).symm
    rcases store_of_writeFile hwritten with ⟨⟨why, hrefused⟩, rfl⟩ | ⟨l, t, part, ht, hpart, rfl⟩
    · exact ⟨rfl, ⟨e, hwhy⟩, .of_unopened hrefused⟩
    · exact ⟨rfl, ⟨e, hwhy⟩, .of_opened ht hpart⟩
  · rw [hwritten] at h
    cases h

/-- A disk that is full after three characters: what has been written of the file is taken away. -/
theorem writeUnit_failed_full :
    let full : Store := ⟨[], [], fun action _ => if action = .write then some .noSpace else none,
      fun _ => 3⟩
    let s := Session.ofStore full (.error .missing)
    let u : Skeleton.SourceUnit := ⟨"A", "A.java", "class A {}\n"⟩
    ∃ s', (host.writeUnit ⟨"."⟩ u).run s =
        (.error (.unwritten "./A.java" "No space left on device (os error 28)"), s') ∧
      full.Spares s'.store ⟨"./A.java"⟩ u.code ∧ s'.store.node? ["A.java"] = none := by
  intro full s u
  have hrun : (host.writeUnit ⟨"."⟩ u).run s =
      (.error (.unwritten "./A.java" "No space left on device (os error 28)"),
        ((host.writeUnit ⟨"."⟩ u).run s).2) := Prod.ext (by decide +kernel) rfl
  have hfile : (⟨"."⟩ : Path).join u.fileName = ⟨"./A.java"⟩ := by decide +kernel
  obtain ⟨-, -, hspares⟩ := writeUnit_failed hrun
  rw [hfile] at hspares
  obtain ⟨created, hcreated⟩ : ∃ created, full.create ⟨"./A.java"⟩ = .ok (["A.java"], created) :=
    ⟨_, rfl⟩
  exact ⟨_, hrun, hspares, (hspares.opened _ _ hcreated).2.1 rfl⟩

/-- A file that may not be opened but may be removed is lost, and nothing has been written. -/
theorem writeUnit_removes_unopened :
    let closed : Store := ⟨[(["A.java"], .file (some "class A { int kept; }\n"))], [],
      fun action _ => if action = .create then some .denied else none, fun _ => 0⟩
    let u : Skeleton.SourceUnit := ⟨"A", "A.java", "class A {}\n"⟩
    let ended := (host.writeUnit ⟨"."⟩ u).run (Session.ofStore closed (.error .missing))
    (∃ why, closed.create ⟨"./A.java"⟩ = .error why) ∧
      closed.find ⟨"./A.java"⟩ = .ok (["A.java"], .file (some "class A { int kept; }\n")) ∧
      ended.1 = .error (.unwritten "./A.java" "Permission denied (os error 13)") ∧
      ended.2.store.node? ["A.java"] = none := by
  refine ⟨⟨.denied, rfl⟩, ?_, ?_, ?_⟩
  · decide +kernel
  · decide +kernel
  · decide +kernel

end Session

end ClassSkeleton.Run
