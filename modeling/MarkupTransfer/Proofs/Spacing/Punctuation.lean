import MarkupTransfer.Proofs.Spacing.Separators
/-!
# Each gap is told by its two words

A word takes out the blank in front of it or the one behind it, or both. It looks for them from its
own beginning and from its own end, and finds just these. So between two words the blank is taken
out by one of the two if by any word at all.

* `IsRow.punctuateWord_eq`: what a word takes out.
* `IsRow.requires?_punctuate`: whether a blank stays behind a word.
* `isPunctuated_apply_punctuate`: the flags that words get.
-/

namespace MarkupTransfer

namespace Separators

variable {ts : List Text} {s : Separators} {i : Nat}

/-! ## What is taken out -/

/-- The blank in front of a word of a row, if the word does not want it. -/
def unwantedBefore (ts : List Text) (i : Nat) : List Nat :=
  if 0 < i ∧ (ts[i]?.getD []).all isClosingMark then [stopAt ts (i - 1)] else []

/-- The blank behind a word of a row, if the word does not want it. -/
def unwantedBehind (ts : List Text) (i : Nat) : List Nat :=
  if i + 1 < ts.length ∧ (ts[i]?.getD []).all isOpeningMark then [stopAt ts i] else []

/-- The blanks that a word of a row does not want. -/
def unwanted (ts : List Text) (i : Nat) : List Nat := unwantedBefore ts i ++ unwantedBehind ts i

theorem remove_nil (s : Separators) : s.remove [] = s := by
  simp [remove]

theorem remove_remove (s : Separators) (ms ns : List Nat) :
    (s.remove ms).remove ns = s.remove (ms ++ ns) := by
  simp [remove]

theorem not_mem_of_all_isClosingMark {t : Text} (h : t.all isClosingMark = true) : ' ' ∉ t :=
  fun hmem => absurd (List.all_eq_true.mp h ' ' hmem) (by decide)

theorem IsRow.removeLeft_eq (h : s.IsRow ts) (hi : i < ts.length) (hne : ts[i] ≠ []) :
    (if 0 < i ∧ ts[i].all isClosingMark then s.removeLeft (startAt ts i) else s) =
      s.remove (unwantedBefore ts i) := by
  rw [unwantedBefore, List.getElem?_eq_getElem hi, Option.getD_some]
  split
  · next hcond =>
    obtain ⟨hpos, hclosing⟩ := hcond
    obtain ⟨j, rfl⟩ : ∃ j, i = j + 1 := ⟨i - 1, by omega⟩
    exact h.removeLeft_startAt hi hne (not_mem_of_all_isClosingMark hclosing)
  · exact (remove_nil s).symm

theorem IsRow.removeRight_eq (h : s.IsRow ts) (hi : i < ts.length) :
    (if i + 1 < s.ranges.length ∧ ts[i].all isOpeningMark then s.removeRight (stopAt ts i) else s) =
      s.remove (unwantedBehind ts i) := by
  rw [unwantedBehind, List.getElem?_eq_getElem hi, Option.getD_some, h.length_ranges]
  split
  · exact h.removeRight_stopAt hi
  · exact (remove_nil s).symm

/-- **A word takes out the blank in front of it or the one behind it**, or both or neither. -/
theorem IsRow.punctuateWord_eq (h : s.IsRow ts) (hi : i < ts.length) (hne : ts[i] ≠ []) :
    s.punctuateWord i ⟨startAt ts i, stopAt ts i⟩ = s.remove (unwanted ts i) := by
  rw [unwanted, ← remove_remove, ← (h.remove _).removeRight_eq hi, ← h.removeLeft_eq hi hne]
  simp only [punctuateWord, h.slice_eq hi]

theorem IsRow.foldl_punctuateWord {places : List Nat} (h : s.IsRow ts) (hne : ∀ t ∈ ts, t ≠ [])
    (hplaces : ∀ i ∈ places, i < ts.length) :
    places.foldl (fun acc i => acc.punctuateWord i ⟨startAt ts i, stopAt ts i⟩) s =
      s.remove (places.flatMap (unwanted ts)) := by
  induction places generalizing s with
  | nil => exact (remove_nil s).symm
  | cons i places ih =>
    have hi : i < ts.length := hplaces i List.mem_cons_self
    rw [List.foldl_cons, h.punctuateWord_eq hi (hne _ (List.getElem_mem hi)),
      ih (h.remove _) fun j hj => hplaces j (List.mem_cons_of_mem i hj), remove_remove,
      List.flatMap_cons]

/-- **From left to right every word takes out what it does not want.** -/
theorem IsRow.punctuate_eq (h : s.IsRow ts) (hne : ∀ t ∈ ts, t ≠ []) :
    punctuate s = s.remove ((List.range ts.length).flatMap (unwanted ts)) := by
  have hranges : s.ranges.zipIdx =
      (List.range ts.length).map fun i => (⟨startAt ts i, stopAt ts i⟩, i) := by
    apply List.ext_getElem?
    intro i
    rw [List.getElem?_zipIdx, h.getElem?_ranges, List.getElem?_map, Option.map_map]
    by_cases hi : i < ts.length
    · simp [hi]
    · simp [hi]
  rw [punctuate, hranges, List.foldl_map]
  exact h.foldl_punctuateWord hne fun i hi => List.mem_range.mp hi

/-- Whether a blank is wanted between two neighbours: it is not if the second consists of closing
marks or the first of opening ones. -/
def wantsBlank (t u : Text) : Bool := !(u.all isClosingMark || t.all isOpeningMark)

theorem stopAt_mem_unwantedBefore_iff (hi : i < ts.length) {k : Nat} (hk : k < ts.length) :
    stopAt ts i ∈ unwantedBefore ts k ↔ k = i + 1 ∧ ts[k].all isClosingMark := by
  rw [unwantedBefore, List.getElem?_eq_getElem hk, Option.getD_some]
  split
  · next hcond =>
    rw [List.mem_singleton, stopAt_inj hi (by omega)]
    constructor
    · exact fun h => ⟨by omega, hcond.2⟩
    · exact fun h => by omega
  · next hcond => exact iff_of_false List.not_mem_nil fun h => hcond ⟨by omega, h.2⟩

theorem stopAt_mem_unwantedBehind_iff (hi : i < ts.length) {k : Nat} (hk : k < ts.length) :
    stopAt ts i ∈ unwantedBehind ts k ↔ k = i ∧ i + 1 < ts.length ∧ ts[k].all isOpeningMark := by
  rw [unwantedBehind, List.getElem?_eq_getElem hk, Option.getD_some]
  split
  · next hcond =>
    rw [List.mem_singleton, stopAt_inj hi hk]
    constructor
    · rintro rfl
      exact ⟨rfl, hcond⟩
    · exact fun h => h.1.symm
  · next hcond =>
    refine iff_of_false List.not_mem_nil ?_
    rintro ⟨rfl, h⟩
    exact hcond h

/-- The blank behind a text is unwanted if the next one does not want it, or this one. -/
theorem stopAt_mem_flatMap_unwanted_iff (hi : i + 1 < ts.length) :
    stopAt ts i ∈ (List.range ts.length).flatMap (unwanted ts) ↔
      ts[i + 1].all isClosingMark ∨ ts[i].all isOpeningMark := by
  have hi' : i < ts.length := Nat.lt_of_succ_lt hi
  rw [List.mem_flatMap]
  constructor
  · rintro ⟨k, hk, hstop⟩
    have hk := List.mem_range.mp hk
    rcases List.mem_append.mp hstop with hbefore | hbehind
    · obtain ⟨rfl, hclosing⟩ := (stopAt_mem_unwantedBefore_iff hi' hk).mp hbefore
      exact .inl hclosing
    · obtain ⟨rfl, -, hopening⟩ := (stopAt_mem_unwantedBehind_iff hi' hk).mp hbehind
      exact .inr hopening
  · rintro (hclosing | hopening)
    · exact ⟨i + 1, List.mem_range.mpr hi, List.mem_append_left _
        ((stopAt_mem_unwantedBefore_iff hi' hi).mpr ⟨rfl, hclosing⟩)⟩
    · exact ⟨i, List.mem_range.mpr hi', List.mem_append_right _
        ((stopAt_mem_unwantedBehind_iff hi' hi').mpr ⟨rfl, hi, hopening⟩)⟩

/-- **Between two texts of a row a blank is required** if it is wanted there. -/
theorem IsRow.requires?_punctuate (h : s.IsRow ts) (hremoved : s.removed = [])
    (hne : ∀ t ∈ ts, t ≠ []) (hi : i + 1 < ts.length) :
    (punctuate s).requires? i = some (wantsBlank ts[i] ts[i + 1]) := by
  have hrow : (punctuate s).IsRow ts := h.punctuate_eq hne ▸ h.remove _
  have hall : (punctuate s).removed = (List.range ts.length).flatMap (unwanted ts) := by
    rw [h.punctuate_eq hne, Separators.remove, hremoved, List.nil_append]
  have hstop : (punctuate s).isRemoved (stopAt ts i) =
      (ts[i + 1].all isClosingMark || ts[i].all isOpeningMark) := by
    rw [Bool.eq_iff_iff, Bool.or_eq_true, ← stopAt_mem_flatMap_unwanted_iff hi, isRemoved, hall,
      List.contains_iff_mem]
  rw [requires?, hrow.length_ranges, if_pos hi, hrow.getElem?_ranges,
    List.getElem?_eq_getElem (Nat.lt_of_succ_lt hi), Option.map_map, Option.map_some,
    Function.comp_apply, hstop]
  rfl

end Separators

/-! ## Flags -/

/-- A word without the flags of its two sides. -/
def Word.sideless (w : Word) : Word :=
  { w with leftSpaceRequired := false, rightSpaceRequired := false }

namespace Separators

/-- Words flagged by their punctuation. Nothing but the flags of the two sides is new. They are off
at the two outer ends, and between two words they agree: they are off just if the second word
consists of closing marks or the first of opening ones. -/
structure IsPunctuated (words flagged : List Word) : Prop where
  rest : flagged.map Word.sideless = words.map Word.sideless
  first : ∀ w ∈ flagged.head?, w.leftSpaceRequired = false
  last : ∀ w ∈ flagged.getLast?, w.rightSpaceRequired = false
  gap : ∀ i v w v' w', words[i]? = some v → words[i + 1]? = some w →
    flagged[i]? = some v' → flagged[i + 1]? = some w' →
    v'.rightSpaceRequired = w'.leftSpaceRequired ∧
      (v'.rightSpaceRequired = false ↔
        (∀ c ∈ w.placeholder, isClosingMark c) ∨ ∀ c ∈ v.placeholder, isOpeningMark c)

theorem wantsBlank_eq_false_iff {t u : Text} : wantsBlank t u = false ↔
    (∀ c ∈ u, isClosingMark c) ∨ ∀ c ∈ t, isOpeningMark c := by
  rw [wantsBlank, Bool.not_eq_false', Bool.or_eq_true, List.all_eq_true, List.all_eq_true]

/-- Each word of a row with the flags that the row gives it. -/
theorem getElem?_apply (s : Separators) (words : List Word) (i : Nat) :
    (s.apply words)[i]? = words[i]?.map fun w =>
      { w with
        leftSpaceRequired :=
          if i = 0 then false else (s.requires? (i - 1)).getD w.leftSpaceRequired
        rightSpaceRequired :=
          if i + 1 = words.length then false else (s.requires? i).getD w.rightSpaceRequired } :=
  List.getElem?_mapIdx

theorem length_apply (s : Separators) (words : List Word) :
    (s.apply words).length = words.length :=
  List.length_mapIdx

/-- **Each gap is told by its two words.** -/
theorem isPunctuated_apply_punctuate {words : List Word} (hne : ∀ w ∈ words, w.placeholder ≠ []) :
    IsPunctuated words ((punctuate (ofWords words)).apply words) where
  rest := by
    apply List.ext_getElem?
    intro i
    rw [List.getElem?_map, getElem?_apply, Option.map_map, List.getElem?_map]
    rfl
  first w hw := by
    rw [List.head?_eq_getElem?, getElem?_apply] at hw
    obtain ⟨v, -, rfl⟩ := Option.map_eq_some_iff.mp hw
    rfl
  last w hw := by
    rw [List.getLast?_eq_getElem?, getElem?_apply, length_apply] at hw
    obtain ⟨v, hv, rfl⟩ := Option.map_eq_some_iff.mp hw
    obtain ⟨hlt, -⟩ := List.getElem?_eq_some_iff.mp hv
    exact if_pos (by omega)
  gap i v w v' w' hv hw hv' hw' := by
    obtain ⟨hi, rfl⟩ := List.getElem?_eq_some_iff.mp hw
    obtain ⟨hi', rfl⟩ := List.getElem?_eq_some_iff.mp hv
    have hne' : ∀ t ∈ words.map Word.placeholder, t ≠ [] := by
      intro t ht
      obtain ⟨w, hw, rfl⟩ := List.mem_map.mp ht
      exact hne w hw
    have hgap := (isRow_ofWords words).requires?_punctuate rfl hne'
      (i := i) (by rwa [List.length_map])
    rw [List.getElem_map, List.getElem_map] at hgap
    rw [getElem?_apply, hv, Option.map_some, Option.some_inj] at hv'
    rw [getElem?_apply, hw, Option.map_some, Option.some_inj] at hw'
    have hright : v'.rightSpaceRequired =
        wantsBlank words[i].placeholder words[i + 1].placeholder := by
      rw [← hv']
      simp only [if_neg (Nat.ne_of_lt hi), hgap, Option.getD_some]
    have hleft : w'.leftSpaceRequired =
        wantsBlank words[i].placeholder words[i + 1].placeholder := by
      rw [← hw']
      simp only [if_neg (Nat.succ_ne_zero i), Nat.add_sub_cancel, hgap, Option.getD_some]
    exact ⟨hright.trans hleft.symm, by rw [hright, wantsBlank_eq_false_iff]⟩

/-- A blank inside a word, marks around a letter of two bytes, and words of marks only. -/
def bracketedWords : List Word :=
  [['x', ' ', 'y'], ['.', 'é', ')'], ['(', '['], ['z'], [')', '.']].map fun t =>
    .ofText none t none none

theorem isPunctuated_apply_punctuate_bracketedWords :
    IsPunctuated bracketedWords ((punctuate (ofWords bracketedWords)).apply bracketedWords) ∧
    ((punctuate (ofWords bracketedWords)).apply bracketedWords).map
      (fun w => (w.leftSpaceRequired, w.rightSpaceRequired)) =
        [(false, true), (true, true), (true, false), (false, false), (false, false)] :=
  ⟨isPunctuated_apply_punctuate (by decide), by decide⟩

end Separators

end MarkupTransfer
