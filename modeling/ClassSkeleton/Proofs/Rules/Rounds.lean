import ClassSkeleton.Proofs.Rules.Openers
import ClassSkeleton.Proofs.Rules.Settling
import ClassSkeleton.Proofs.Text.Coordinates

namespace ClassSkeleton.Rules

/-!
# Unwrapping in rounds

To unwrap a text by bytes is a loop. A round searches from a byte on, cuts the text at the bytes
where the match and what it opens begin and end, and says from where to search next. Every round but
the last leaves fewer characters behind that byte, whether it has taken a wrapper off or passed an
empty match. So the loop ends, and with the same text as the pass over the characters.
-/

open Pattern Text

/-- Whether matches stay inside the text. -/
def Fits (find : Finder) : Prop :=
  ∀ before after m, find before after = some m → m.length ≤ after.length

theorem fits_find (p : Pattern) : Fits p.find := by
  intro before after m hm
  obtain ⟨text, rest, recorded, rfl, rfl, -⟩ := Node.exists_takes_of_matchAt? hm
  rw [List.length_append]
  exact Nat.le_add_right _ _

/-- The leftmost match from a place on, with the characters in front of it. -/
def firstMatch? (find : Finder) (before : List Char) : List Char → Option (List Char × Match)
  | [] => (find before []).map fun m => ([], m)
  | c :: rest =>
    match find before (c :: rest) with
    | some m => some ([], m)
    | none => (firstMatch? find (c :: before) rest).map fun found => (c :: found.1, found.2)

/-- The parts of a text before and behind a byte. There are none if the byte is beyond the text or
inside a character. -/
def cutAtByte? (n : Nat) : List Char → Option (List Char × List Char)
  | [] => if n = 0 then some ([], []) else none
  | c :: rest =>
    if n = 0 then some ([], c :: rest)
    else if c.utf8Size ≤ n then
      (cutAtByte? (n - c.utf8Size) rest).map fun cut => (c :: cut.1, cut.2)
    else none

/-- What stands between two bytes of a text. -/
def slice? (text : List Char) (first last : Nat) : Option (List Char) := do
  let (front, _) ← cutAtByte? last text
  let (_, middle) ← cutAtByte? first front
  return middle

/-- The bytes where the leftmost match at or behind a byte begins and ends. There is no outcome if
the match goes on beyond the text. -/
def search? (find : Finder) (text : List Char) (start : Nat) : Option (Option (Nat × Nat)) := do
  let (front, behind) ← cutAtByte? start text
  match firstMatch? find front.reverse behind with
  | none => return none
  | some (passed, m) =>
    let rest := behind.drop passed.length
    let first := start + bytes passed
    if m.length ≤ rest.length then return some (first, first + bytes (rest.take m.length))
    else none

/-- The byte of the bracket that closes the last one of `depth` open brackets, if there is one. The
count of open brackets may not go below zero. -/
def closing? (depth : Nat) : List Char → Option (Option Nat)
  | [] => some none
  | c :: rest =>
    if c = '>' then
      match depth with
      | 0 => none
      | 1 => some (some 0)
      | depth + 2 => (closing? (depth + 1) rest).map (·.map (c.utf8Size + ·))
    else
      (closing? (if c = '<' then depth + 1 else depth) rest).map (·.map (c.utf8Size + ·))

/-- What a round comes to: the text that is left in the end, or the text so far and the byte where
the next search begins. -/
inductive Sequel where
  | done (text : List Char)
  | again (text : List Char) (start : Nat)

/-- One round. There is no outcome if a byte is not a place of the text, or a count goes below
zero. -/
def round? (find : Finder) (text : List Char) (start : Nat) : Option Sequel := do
  match ← search? find text start with
  | none => return .done text
  | some (first, last) =>
    let behind ← slice? text last (bytes text)
    if first = last then
      match behind with
      | [] => return .done text
      | c :: _ => return .again text (first + c.utf8Size)
    else
      let front ← slice? text 0 first
      match ← closing? 1 behind with
      | some offset =>
        let inside ← slice? text last (last + offset)
        let tail ← slice? text (last + offset + 1) (bytes text)
        return .again (front ++ trim inside ++ tail) first
      | none =>
        let _opener ← slice? text first last
        return .again (front ++ behind) first

/-- At most `n` rounds. There is no outcome either if these do not suffice. -/
def rounds? (find : Finder) : Nat → List Char → Nat → Option (List Char)
  | 0, _, _ => none
  | n + 1, text, start => do
    match ← round? find text start with
    | .done text => return text
    | .again text start => rounds? find n text start

section Bytes

theorem cutAtByte?_bytes (front back : List Char) :
    cutAtByte? (bytes front) (front ++ back) = some (front, back) := by
  induction front with
  | nil => cases back <;> rfl
  | cons c front ih =>
      have hpos := Char.utf8Size_pos c
      rw [List.cons_append, cutAtByte?, bytes_cons, if_neg (by omega), if_pos (by omega),
        Nat.add_sub_cancel_left, ih, Option.map_some]

theorem slice?_bytes (front middle back : List Char) :
    slice? (front ++ (middle ++ back)) (bytes front) (bytes front + bytes middle) =
      some middle := by
  have hlast := cutAtByte?_bytes (front ++ middle) back
  rw [bytes_append, List.append_assoc] at hlast
  simp [slice?, hlast, cutAtByte?_bytes]

theorem slice?_tail (front behind : List Char) :
    slice? (front ++ behind) (bytes front) (bytes (front ++ behind)) = some behind := by
  simpa using slice?_bytes front behind []

theorem closing?_eq (inner : Nat) (text : List Char) :
    closing? (inner + 1) text = some ((cutAtClose? inner text).map fun cut => bytes cut.1) := by
  induction text generalizing inner with
  | nil => rfl
  | cons c rest ih =>
      have hbehind (inner : Nat) : (closing? (inner + 1) rest).map (·.map (c.utf8Size + ·)) =
          some (((cutAtClose? inner rest).map fun cut => (c :: cut.1, cut.2)).map
            fun cut => bytes cut.1) := by
        rw [ih, Option.map_some, Option.map_map, Option.map_map]
        rfl
      unfold closing? cutAtClose?
      by_cases hclose : c = '>'
      · cases inner with
        | zero => simp [hclose]
        | succ inner =>
            have hopen : c ≠ '<' := by simp [hclose]
            rw [if_pos hclose, if_neg (by omega), if_neg hopen, if_pos hclose, Nat.add_sub_cancel]
            exact hbehind inner
      · have hinside : ¬ (c = '>' ∧ inner = 0) := fun h => hclose h.1
        rw [if_neg hclose, if_neg hinside, if_neg hclose]
        by_cases hopen : c = '<'
        · rw [if_pos hopen, if_pos hopen]
          exact hbehind (inner + 1)
        · rw [if_neg hopen, if_neg hopen]
          exact hbehind inner

end Bytes

section Searching

variable {find : Finder}

theorem firstMatch?_eq_none_iff (before after : List Char) :
    firstMatch? find before after = none ↔ ¬ HitsFrom find before after := by
  induction after generalizing before with
  | nil => rw [HitsFrom.nil_iff, firstMatch?, Option.map_eq_none_iff, Option.not_isSome_iff_eq_none]
  | cons c rest ih =>
      rw [HitsFrom.cons_iff, not_or, firstMatch?]
      cases hm : find before (c :: rest) with
      | some m => simp
      | none => simpa using ih (c :: before)

/-- No match begins in front of the leftmost one. -/
theorem exists_of_firstMatch? {before after passed : List Char} {m : Match}
    (h : firstMatch? find before after = some (passed, m)) :
    ∃ rest, after = passed ++ rest ∧ find (passed.reverse ++ before) rest = some m ∧
      ∀ front back, passed = front ++ back → back ≠ [] →
        find (front.reverse ++ before) (back ++ rest) = none := by
  induction after generalizing before passed with
  | nil =>
      obtain ⟨m', hm, heq⟩ := Option.map_eq_some_iff.mp h
      obtain ⟨rfl, rfl⟩ := Prod.mk.inj heq
      refine ⟨[], rfl, hm, fun front back hparts hback => ?_⟩
      exact absurd (List.append_eq_nil_iff.mp hparts.symm).2 hback
  | cons c after ih =>
      rw [firstMatch?] at h
      cases hhere : find before (c :: after) with
      | some m' =>
          rw [hhere] at h
          obtain ⟨rfl, rfl⟩ := Prod.mk.inj (Option.some.inj h)
          refine ⟨c :: after, rfl, hhere, fun front back hparts hback => ?_⟩
          exact absurd (List.append_eq_nil_iff.mp hparts.symm).2 hback
      | none =>
          rw [hhere] at h
          obtain ⟨⟨passed', m'⟩, hlater, heq⟩ := Option.map_eq_some_iff.mp h
          obtain ⟨rfl, rfl⟩ := Prod.mk.inj heq
          obtain ⟨rest, rfl, hm, hfirst⟩ := ih hlater
          refine ⟨rest, rfl, by simpa using hm, ?_⟩
          rintro (_ | ⟨d, front⟩) back hparts hback
          · rw [List.nil_append] at hparts
            rw [← hparts]
            exact hhere
          · obtain ⟨rfl, hpassed⟩ := List.cons.inj hparts
            simpa using hfirst front back hpassed hback

/-- A match with something in it makes way for what it opens; if that is not closed, nothing but
the match goes. -/
theorem unwrapFrom_match {before word behind : List Char} {m : Match}
    (hm : find before (word ++ behind) = some m) (hlength : m.length = word.length)
    (hword : word ≠ []) :
    (unwrapFrom find before (word ++ behind)).text =
      match cutAtClose? 0 behind with
      | some (inside, tail) => (unwrapFrom find before (trim inside ++ tail)).text
      | none => (unwrapFrom find before behind).text := by
  cases word with
  | nil => exact absurd rfl hword
  | cons c word =>
      rw [List.cons_append] at hm ⊢
      rw [unwrapFrom]
      simp only [hm, hlength, List.length_cons, List.drop_left]
      split
      · next inside tail hclosed =>
        rw [List.drop_left] at hclosed
        rw [hclosed]
      · next hopen =>
        rw [List.drop_left] at hopen
        rw [hopen]

theorem unwrapFrom_empty {before rest : List Char} {c : Char} {m : Match}
    (hm : find before (c :: rest) = some m) (hlength : m.length = 0) :
    unwrapFrom find before (c :: rest) = unwrapFrom find (c :: before) rest := by
  rw [unwrapFrom]
  simp only [hm, hlength]

/-- Nothing is put anywhere: what is left has been there, in this order. -/
theorem unwrapFrom_sublist (before after : List Char) :
    (unwrapFrom find before after).text.Sublist (before.reverse ++ after) := by
  fun_induction unwrapFrom find before after with
  | case1 before => simp
  | case2 before c rest hnone ih | case3 before c rest m hm hlength ih => simpa using ih
  | case4 before c rest m hm n hlength inside tail hclosed ih =>
      have hdrop : (inside ++ '>' :: tail).Sublist (c :: rest) := by
        rw [← cutAtClose?_eq_append hclosed]
        exact (List.drop_sublist n rest).cons c
      have hkept : (trim inside ++ tail).Sublist (inside ++ '>' :: tail) :=
        (trim_sublist inside).append (List.sublist_cons_self '>' tail)
      exact ih.trans ((hkept.trans hdrop).append_left before.reverse)
  | case5 before c rest m hm n hlength hopen result ih =>
      have hdrop : (rest.drop n).Sublist (c :: rest) := (List.drop_sublist n rest).cons c
      exact ih.trans (hdrop.append_left before.reverse)

theorem unwrapFrom_of_empty (before after : List Char)
    (h : ∀ passed rest m, after = passed ++ rest →
      find (passed.reverse ++ before) rest = some m → m.length = 0) :
    (unwrapFrom find before after).text = before.reverse ++ after := by
  fun_induction unwrapFrom find before after with
  | case1 before => simp
  | case2 before c rest hnone ih | case3 before c rest m hm hlength ih =>
      rw [ih]
      · simp
      · intro passed back m hparts hm
        apply h (c :: passed) back m
        · rw [hparts, List.cons_append]
        · simpa using hm
  | case4 before c rest m hm n hlength | case5 before c rest m hm n hlength =>
      have hzero := h [] (c :: rest) m rfl hm
      rw [hlength] at hzero
      cases hzero

end Searching

section Looping

variable {find : Finder}

theorem search?_of_none {front behind : List Char}
    (h : firstMatch? find front.reverse behind = none) :
    search? find (front ++ behind) (bytes front) = some none := by
  simp [search?, cutAtByte?_bytes, h]

theorem search?_of_match {front passed word behind : List Char} {m : Match}
    (h : firstMatch? find front.reverse (passed ++ (word ++ behind)) = some (passed, m))
    (hlength : m.length = word.length) :
    search? find (front ++ (passed ++ (word ++ behind))) (bytes front) =
      some (some (bytes (front ++ passed), bytes (front ++ passed) + bytes word)) := by
  simp [search?, cutAtByte?_bytes, h, hlength]

/-- What a round does with an empty match. -/
theorem round?_of_empty {front behind : List Char} {start : Nat}
    (h : search? find (front ++ behind) start = some (some (bytes front, bytes front))) :
    round? find (front ++ behind) start = some (behind.head?.elim (.done (front ++ behind))
      fun c => .again (front ++ behind) (bytes front + c.utf8Size)) := by
  have hbehind := slice?_tail front behind
  simp only [round?, h, hbehind, Option.bind_eq_bind, Option.bind_some, if_true]
  cases behind <;> rfl

/-- What a round does with a match that has something in it. -/
theorem round?_of_word {front word behind : List Char} {start : Nat} (hword : word ≠ [])
    (h : search? find (front ++ (word ++ behind)) start =
      some (some (bytes front, bytes front + bytes word))) :
    round? find (front ++ (word ++ behind)) start = some
      (match cutAtClose? 0 behind with
      | some (inside, tail) => .again (front ++ trim inside ++ tail) (bytes front)
      | none => .again (front ++ behind) (bytes front)) := by
  have hne : bytes front ≠ bytes front + bytes word := by
    have hbytes := mt bytes_eq_zero_iff.mp hword
    omega
  have hfront : slice? (front ++ (word ++ behind)) 0 (bytes front) = some front := by
    simpa using slice?_bytes [] front (word ++ behind)
  have hopener := slice?_bytes front word behind
  have hbehind := slice?_tail (front ++ word) behind
  rw [bytes_append front word, List.append_assoc] at hbehind
  have hclosing := closing?_eq 0 behind
  simp only [round?, h, hbehind, hfront, hopener, if_neg hne, Option.bind_eq_bind, Option.bind_some]
  cases hcut : cutAtClose? 0 behind with
  | none =>
      rw [hcut] at hclosing
      simp only [hclosing, Option.map_none, Option.bind_some]
      rfl
  | some cut =>
      obtain ⟨inside, tail⟩ := cut
      obtain rfl := cutAtClose?_eq_append hcut
      have hinside := slice?_bytes (front ++ word) inside ('>' :: tail)
      have htail := slice?_tail (front ++ word ++ inside ++ ['>']) tail
      have htext : front ++ word ++ inside ++ ['>'] ++ tail =
          front ++ (word ++ (inside ++ '>' :: tail)) := by simp
      have hplace : bytes (front ++ word ++ inside ++ ['>']) =
          bytes front + bytes word + bytes inside + 1 := by
        simp only [bytes_append]
        rfl
      rw [bytes_append front word, List.append_assoc] at hinside
      rw [hplace, htext] at htail
      rw [hcut] at hclosing
      simp only [hclosing, Option.map_some, Option.bind_some, hinside, htail]
      rfl

/-- Whether a sequel comes to `out` after at most `left` more rounds: the next one begins at a place
of the text, fewer than `left` characters are behind it, and to unwrap from there gives `out`. -/
def Sequel.LeadsTo (find : Finder) (left : Nat) (out : List Char) : Sequel → Prop
  | .done text => text = out
  | .again text start => ∃ front behind, text = front ++ behind ∧ start = bytes front ∧
      behind.length < left ∧ (unwrapFrom find front.reverse behind).text = out

theorem Sequel.LeadsTo.mono {left more : Nat} {out : List Char} {sequel : Sequel}
    (h : sequel.LeadsTo find left out) (hle : left ≤ more) : sequel.LeadsTo find more out := by
  cases sequel with
  | done text => exact h
  | again text start =>
      obtain ⟨front, behind, htext, hstart, hleft, hout⟩ := h
      exact ⟨front, behind, htext, hstart, Nat.lt_of_lt_of_le hleft hle, hout⟩

theorem exists_round?_of_match {front word behind : List Char} {m : Match} {start : Nat}
    (hsearch : search? find (front ++ (word ++ behind)) start =
      some (some (bytes front, bytes front + bytes word)))
    (hm : find front.reverse (word ++ behind) = some m) (hlength : m.length = word.length) :
    ∃ sequel, round? find (front ++ (word ++ behind)) start = some sequel ∧
      sequel.LeadsTo find (word ++ behind).length
        (unwrapFrom find front.reverse (word ++ behind)).text := by
  by_cases hword : word = []
  · subst hword
    refine ⟨_, round?_of_empty hsearch, ?_⟩
    cases behind with
    | nil => simp [Sequel.LeadsTo, unwrapFrom]
    | cons c rest =>
        refine ⟨front ++ [c], rest, by simp, by simp, by simp, ?_⟩
        rw [List.nil_append, unwrapFrom_empty hm hlength, List.reverse_append]
        rfl
  · refine ⟨_, round?_of_word hword hsearch, ?_⟩
    have hshorter := List.length_pos_iff.mpr hword
    rw [unwrapFrom_match hm hlength hword]
    cases hcut : cutAtClose? 0 behind with
    | none =>
        refine ⟨front, behind, rfl, rfl, ?_, rfl⟩
        rw [List.length_append]
        omega
    | some cut =>
        obtain ⟨inside, tail⟩ := cut
        refine ⟨front, trim inside ++ tail, List.append_assoc _ _ _, rfl, ?_, rfl⟩
        have htrim := length_trim_le inside
        have hparts := congrArg List.length (cutAtClose?_eq_append hcut)
        simp only [List.length_append, List.length_cons] at hparts ⊢
        omega

/-- One round never fails, and leaves less behind the place where the next one begins. -/
theorem exists_round? (hfits : Fits find) (front behind : List Char) :
    ∃ sequel, round? find (front ++ behind) (bytes front) = some sequel ∧
      sequel.LeadsTo find behind.length (unwrapFrom find front.reverse behind).text := by
  cases hfirst : firstMatch? find front.reverse behind with
  | none =>
      have hkept := unwrapFrom_of_not_hits ((firstMatch?_eq_none_iff _ _).mp hfirst)
      rw [List.reverse_reverse] at hkept
      refine ⟨.done (front ++ behind), ?_, hkept.symm⟩
      simp only [round?, search?_of_none hfirst, Option.bind_eq_bind, Option.bind_some]
      rfl
  | some found =>
      obtain ⟨passed, m⟩ := found
      obtain ⟨rest, rfl, hm, hleftmost⟩ := exists_of_firstMatch? hfirst
      obtain ⟨word, tail, rfl, hlength⟩ : ∃ word tail,
          rest = word ++ tail ∧ m.length = word.length := by
        refine ⟨rest.take m.length, rest.drop m.length, (List.take_append_drop _ _).symm, ?_⟩
        rw [List.length_take, Nat.min_eq_left (hfits _ _ _ hm)]
      have hsearch := search?_of_match hfirst hlength
      rw [← List.append_assoc] at hsearch
      rw [← List.reverse_append] at hm
      obtain ⟨sequel, hround, hleads⟩ := exists_round?_of_match hsearch hm hlength
      rw [unwrapFrom_append hleftmost, ← List.reverse_append, ← List.append_assoc]
      refine ⟨sequel, hround, hleads.mono ?_⟩
      simp only [List.length_append]
      omega

/-- Enough rounds never fail. -/
theorem rounds?_eq (hfits : Fits find) {n : Nat} (front behind : List Char)
    (h : behind.length < n) :
    rounds? find n (front ++ behind) (bytes front) =
      some (unwrapFrom find front.reverse behind).text := by
  induction n generalizing front behind with
  | zero => exact absurd h (Nat.not_lt_zero _)
  | succ n ih =>
      -- The rounds that are left outnumber the characters behind the place of the search.
      obtain ⟨sequel, hround, hleads⟩ := exists_round? hfits front behind
      rw [rounds?, hround]
      cases sequel with
      | done text => exact congrArg some hleads
      | again text start =>
          obtain ⟨front', behind', rfl, rfl, hless, hout⟩ := hleads
          rw [← hout]
          exact ih front' behind' (by omega)

/-- Whatever a matcher matches inside the text, and be it nothing anywhere, the loop ends after
at most one round more than the text has characters. No byte it searches from or cuts at is beyond
the text or inside a character, and the count of open brackets does not go below zero. What is left
has been in the text, in this order; and where every match is empty, all of it is left. -/
theorem unwrapAll_in_rounds (find : Finder) (hfits : Fits find) (text : List Char) :
    rounds? find (text.length + 1) text 0 = some (unwrapAll find text).text ∧
      (unwrapAll find text).text.Sublist text ∧
      ((∀ front behind m, text = front ++ behind → find front.reverse behind = some m →
        m.length = 0) → (unwrapAll find text).text = text) := by
  refine ⟨rounds?_eq hfits [] text (Nat.lt_succ_self _), ?_, fun hempty => ?_⟩
  · exact unwrapFrom_sublist [] text
  · apply unwrapFrom_of_empty [] text
    simpa using hempty

/-- An opener that may be missing: it matches nothing in most places of a text. -/
def optionalHandle : Pattern :=
  (Pattern.ofString? "(?:Handle\\s*<)?").get (by decide +kernel)

/-- One wrapper is closed and one is not. -/
theorem unwrapAll_in_rounds_optional :
    Fits optionalHandle.find ∧
      (optionalHandle.find [] ['é']).any (·.length == 0) = true ∧
      (unwrapAll optionalHandle.find "é: List<Handle < ß >, Handle<ü".toList).text =
        "é: List<ß, ü".toList := by
  have hfits := fits_find optionalHandle
  obtain ⟨hrounds, -, -⟩ :=
    unwrapAll_in_rounds optionalHandle.find hfits "é: List<Handle < ß >, Handle<ü".toList
  refine ⟨hfits, by decide +kernel, ?_⟩
  apply Option.some.inj
  rw [← hrounds]
  decide +kernel

end Looping

end ClassSkeleton.Rules
