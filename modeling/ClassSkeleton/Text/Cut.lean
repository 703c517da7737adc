namespace ClassSkeleton.Text

/-!
# Cutting texts

A text is cut at the first place where a separator stands, or where a bracket is closed. What
stands before, the separator and what stands behind make up the text again.
-/

/-- What holds of every character of a text is decided along the text, not over all characters. -/
instance decidableForallMem (text : List Char) (p : Char → Prop) [DecidablePred p] :
    Decidable (∀ c ∈ text, p c) := List.decidableBAll p text

/-- The number of bytes of a text in UTF-8. -/
def bytes : List Char → Nat
  | [] => 0
  | c :: rest => c.utf8Size + bytes rest

@[simp] theorem bytes_nil : bytes [] = 0 := rfl

@[simp] theorem bytes_cons (c : Char) (text : List Char) :
    bytes (c :: text) = c.utf8Size + bytes text := rfl

@[simp] theorem bytes_append (text rest : List Char) :
    bytes (text ++ rest) = bytes text + bytes rest := by
  induction text with
  | nil => simp
  | cons c text ih => rw [List.cons_append, bytes_cons, bytes_cons, ih, Nat.add_assoc]

/-- What stands before and behind the first place of `sep`. -/
def cutAt? (sep : List Char) : List Char → Option (List Char × List Char)
  | [] => none
  | c :: rest =>
    if sep.isPrefixOf (c :: rest) then some ([], (c :: rest).drop sep.length)
    else (cutAt? sep rest).map fun cut => (c :: cut.1, cut.2)

theorem cutAt?_eq_append {sep text before behind : List Char}
    (h : cutAt? sep text = some (before, behind)) : text = before ++ sep ++ behind := by
  induction text generalizing before with
  | nil => simp [cutAt?] at h
  | cons c rest ih =>
    unfold cutAt? at h
    split at h
    · next hp =>
      obtain ⟨rfl, rfl⟩ := Prod.mk.inj (Option.some.inj h)
      obtain ⟨tail, ht⟩ := List.isPrefixOf_iff_prefix.mp hp
      rw [← ht]
      simp
    · obtain ⟨cut, hcut, heq⟩ := Option.map_eq_some_iff.mp h
      obtain ⟨rfl, rfl⟩ := Prod.mk.inj heq
      simp [ih hcut]

/-- What stands before and behind the `>` that closes a bracket in front of the text, when
`inner` more brackets are open. -/
def cutAtClose? (inner : Nat) : List Char → Option (List Char × List Char)
  | [] => none
  | c :: rest =>
    if c = '>' ∧ inner = 0 then some ([], rest)
    else
      let inner := if c = '<' then inner + 1 else if c = '>' then inner - 1 else inner
      (cutAtClose? inner rest).map fun cut => (c :: cut.1, cut.2)

theorem cutAtClose?_eq_append {inner : Nat} {text before behind : List Char}
    (h : cutAtClose? inner text = some (before, behind)) : text = before ++ '>' :: behind := by
  induction text generalizing inner before with
  | nil => simp [cutAtClose?] at h
  | cons c rest ih =>
    unfold cutAtClose? at h
    split at h
    · next hc =>
      obtain ⟨rfl, rfl⟩ := Prod.mk.inj (Option.some.inj h)
      simp [hc.1]
    · obtain ⟨cut, hcut, heq⟩ := Option.map_eq_some_iff.mp h
      obtain ⟨rfl, rfl⟩ := Prod.mk.inj heq
      simp [ih hcut]

end ClassSkeleton.Text
