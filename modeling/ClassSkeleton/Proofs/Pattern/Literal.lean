import ClassSkeleton.Pattern.Replace
import ClassSkeleton.Proofs.Pattern.Words
import ClassSkeleton.Text.Substitute

namespace ClassSkeleton

/-!
# Literal patterns

A pattern that spells one word is matched wherever the word stands. To replace all its matches is
to substitute for the word.
-/

namespace Text

theorem substituteFrom_append {first : Char} {needle filler text : List Char}
    (h : first ∉ text) (rest : List Char) :
    substituteFrom (first :: needle) filler 0 (text ++ rest) =
      text ++ substituteFrom (first :: needle) filler 0 rest := by
  induction text with
  | nil => rfl
  | cons c text ih =>
      obtain ⟨hc, htext⟩ := not_or.mp (mt List.mem_cons.mpr h)
      have hnot : ¬ (first :: needle).isPrefixOf (c :: (text ++ rest)) = true := by
        simp [List.isPrefixOf, hc]
      rw [List.cons_append, substituteFrom]
      simp only [hnot]
      rw [ih htext]
      rfl

theorem substituteFrom_drop (needle filler : List Char) (skip : Nat) (text : List Char) :
    substituteFrom needle filler skip text = substituteFrom needle filler 0 (text.drop skip) := by
  induction text generalizing skip with
  | nil => simp [substituteFrom]
  | cons c text ih =>
      cases skip with
      | zero => rfl
      | succ skip => rw [substituteFrom, ih, List.drop_succ_cons]

theorem substituteFrom_needle {first : Char} {needle filler : List Char}
    (rest : List Char) : substituteFrom (first :: needle) filler 0 (first :: (needle ++ rest)) =
      filler ++ substituteFrom (first :: needle) filler 0 rest := by
  have hfits : (first :: needle).isPrefixOf (first :: (needle ++ rest)) = true := by
    rw [List.isPrefixOf_iff_prefix]
    exact List.prefix_append (first :: needle) rest
  rw [substituteFrom]
  simp only [hfits, if_true]
  rw [substituteFrom_drop, List.length_cons, Nat.add_sub_cancel, List.drop_left]

end Text

namespace Pattern

open Text

/-- A node that spells one word matches it wherever it stands. -/
theorem Node.matchAt?_of_word {x : Node} {word : List Char}
    (hword : x.words? = some [word]) (hplain : x.isPlain = true) (before after : List Char) :
    (x.matchAt? before after).map Match.length =
      if word.isPrefixOf after then some word.length else none := by
  by_cases hfits : word <+: after
  · obtain ⟨rest, rfl⟩ := hfits
    have htakes : x.Takes before word rest [] :=
      (Node.takes_iff_of_words? hword).mpr ⟨List.mem_singleton_self word, rfl⟩
    have hsome := (Node.matchAt?_isSome_iff hplain before _).mpr ⟨word, rest, [], rfl, htakes⟩
    obtain ⟨m, hm⟩ := Option.isSome_iff_exists.mp hsome
    obtain ⟨text, tail, recorded, -, rfl, hother⟩ := Node.exists_takes_of_matchAt? hm
    obtain ⟨htext, -⟩ := (Node.takes_iff_of_words? hword).mp hother
    obtain rfl := List.mem_singleton.mp htext
    rw [hm, if_pos (List.isPrefixOf_iff_prefix.mpr (List.prefix_append text rest))]
    rfl
  · rw [if_neg (mt List.isPrefixOf_iff_prefix.mp hfits), Option.map_eq_none_iff,
      Option.eq_none_iff_forall_ne_some]
    intro m hm
    obtain ⟨text, tail, recorded, rfl, -, htakes⟩ := Node.exists_takes_of_matchAt? hm
    obtain ⟨htext, -⟩ := (Node.takes_iff_of_words? hword).mp htakes
    obtain rfl := List.mem_singleton.mp htext
    exact hfits (List.prefix_append text tail)

/-- To replace every match of one word is to substitute for it. -/
theorem replaceFrom_of_word {find : Finder} {expand : Match → List Char} {first : Char}
    {needle filler : List Char} (hfind : ∀ before after, (find before after).map Match.length =
      if (first :: needle).isPrefixOf after then some (needle.length + 1) else none)
    (hexpand : ∀ m, expand m = filler) (before : List Char) (skip : Nat) (adjoins : Bool)
    (text : List Char) : replaceFrom find expand before skip adjoins text =
      substituteFrom (first :: needle) filler skip text := by
  induction text generalizing before skip adjoins with
  | nil =>
      have hnone : find before [] = none := by simpa [List.isPrefixOf] using hfind before []
      simp [replaceFrom, substituteFrom, hnone]
  | cons c rest ih =>
      cases skip with
      | succ skip => rw [replaceFrom, substituteFrom, ih]
      | zero =>
          have hc := hfind before (c :: rest)
          rw [replaceFrom, substituteFrom]
          by_cases hfits : (first :: needle).isPrefixOf (c :: rest) = true
          · rw [if_pos hfits] at hc ⊢
            obtain ⟨m, hm, hlength⟩ := Option.map_eq_some_iff.mp hc
            simp only [hm, hlength, ih, hexpand]
            rfl
          · rw [if_neg hfits, Option.map_eq_none_iff] at hc
            simp only [hc, if_neg hfits, ih]

end Pattern

end ClassSkeleton
