import MarkupTransfer.Spacing.Transfer
import MarkupTransfer.Proofs.Alignment
import MarkupTransfer.Proofs.Sentence.Settle
/-!
# Carrying spacing over a second time

Several source words may write the space of one target word, one after the other, and whether a
write takes place may depend on what the writes before it have left: a space that was taken away is
not put in again where one is required. But no write asks which space it finds. So whatever a row of
writes makes of a space, it makes the same of every space, and of no space either this or nothing
again (`Space.IsOverwrite`). What has been written stays if it is written once more.

* `getElem?_foldl_copySpace`: what a row of pairs makes of a target word, side by side.
* `Space.IsOverwrite.idempotent`, `isOverwrite_foldl`: why a second run changes nothing.
* `Translation.projectSpacing_idempotent`: carrying spacing over, once and twice.
-/

namespace MarkupTransfer

/-! ## Writes -/

namespace Space

/-- Writes that do not ask which space they find. All spaces become the same, and where there is
none this is put in or there is none still; or everything stays as it is. -/
def IsOverwrite (f : Option Space → Option Space) : Prop :=
  f = id ∨ ∃ c, (∀ s, f (some s) = c) ∧ (f none = none ∨ f none = c)

namespace IsOverwrite

variable {f g : Option Space → Option Space}

/-- **What was written stays** if it is written again. -/
theorem idempotent (h : IsOverwrite f) (s : Option Space) : f (f s) = f s := by
  rcases h with rfl | ⟨c, hsome, hnone⟩
  · rfl
  · have hfixed : f c = c := by
      cases c with
      | none => exact hnone.elim id id
      | some c => exact hsome c
    cases s with
    | some s => rw [hsome, hfixed]
    | none =>
      rcases hnone with hnone | hnone
      · rw [hnone, hnone]
      · rw [hnone, hfixed]

theorem comp (hg : IsOverwrite g) (hf : IsOverwrite f) : IsOverwrite (g ∘ f) := by
  rcases hf with rfl | ⟨c, hsome, hnone⟩
  · exact hg
  rcases hg with rfl | ⟨d, hsome', hnone'⟩
  · exact .inr ⟨c, hsome, hnone⟩
  refine .inr ⟨g c, fun s => congrArg g (hsome s), ?_⟩
  rcases hnone with hnone | hnone
  -- A space that is not there is not put in by the first write, so the second one decides.
  · have hcomp : (g ∘ f) none = g none := congrArg g hnone
    rw [hcomp]
    cases c with
    | none => exact .inr rfl
    | some c => rwa [hsome']
  · exact .inr (congrArg g hnone)

end IsOverwrite

/-- A row of writes is a write. -/
theorem isOverwrite_foldl {ι : Type} {write : Option Space → ι → Option Space} {row : List ι}
    (h : ∀ i, IsOverwrite (write · i)) : IsOverwrite (row.foldl write) := by
  induction row with
  | nil => exact .inl rfl
  | cons i row ih => exact ih.comp (h i)

theorem foldl_eq_self {ι : Type} {write : Option Space → ι → Option Space} {row : List ι}
    (h : ∀ i ∈ row, ∀ s, write s i = s) (s : Option Space) : row.foldl write s = s := by
  induction row with
  | nil => rfl
  | cons i row ih =>
    rw [List.foldl_cons, h i List.mem_cons_self, ih fun j hj => h j (List.mem_cons_of_mem i hj)]

end Space

namespace Translation

open Space (foldl_eq_self)

/-! ## One side of one word -/

/-- What becomes of a space of the target that faces a space of the source. -/
def carried (required : Bool) (source target : Option Space) : Option Space :=
  if takesOver required source target then source else target

theorem isOverwrite_carried (required : Bool) (source : Option Space) :
    Space.IsOverwrite (carried required source) := by
  cases required with
  | true => exact .inr ⟨source, fun _ => rfl, .inl rfl⟩
  | false =>
    cases source with
    | none => exact .inl rfl
    | some s => exact .inr ⟨some s, fun _ => rfl, .inr rfl⟩

/-- What a space of the source says of the one it was carried over to. Where a space is required,
there is none or it is this one; where none is required and there is one all the same, it is this
one. -/
structure IsCarriedOver (required : Bool) (source target : Option Space) : Prop where
  of_required : required = true → target = none ∨ target = source
  of_not_required : required = false → source ≠ none → target = source

theorem isCarriedOver_carried (required : Bool) (source target : Option Space) :
    IsCarriedOver required source (carried required source target) := by
  cases required with
  | true =>
    refine ⟨fun _ => ?_, nofun⟩
    cases target with
    | none => exact .inl rfl
    | some s => exact .inr rfl
  | false =>
    refine ⟨nofun, fun _ hsource => ?_⟩
    cases source with
    | none => exact absurd rfl hsource
    | some s => rfl

theorem copyRight_eq (v w : Word) :
    copyRight v w =
      { w with rightSpace := carried v.rightSpaceRequired v.rightSpace w.rightSpace } := by
  unfold copyRight carried
  split <;> rfl

theorem copyLeft_eq (v w : Word) :
    copyLeft v w = { w with leftSpace := carried v.leftSpaceRequired v.leftSpace w.leftSpace } := by
  unfold copyLeft carried
  split <;> rfl

/-- Where the other writes behind it change nothing, it is the last write that is seen. -/
theorem isCarriedOver_foldl {ι : Type} {write : Option Space → ι → Option Space}
    {front back : List ι} {i : ι} {required : Bool} {source : Option Space}
    (hi : ∀ s, IsCarriedOver required source (write s i)) (hback : ∀ j ∈ back, ∀ s, write s j = s)
    (s : Option Space) : IsCarriedOver required source ((front ++ i :: back).foldl write s) := by
  rw [List.foldl_append, List.foldl_cons, foldl_eq_self hback]
  exact hi _

/-! ## Rows of pairs -/

section Row

variable {source target : List Word} {width i : Nat} {pair : Nat × Nat} {pairs : List (Nat × Nat)}
  {v v' : Word}

/-- The source words on both sides of the gap of a pair, if both rows have this gap. `width` is the
number of target words. -/
def gap? (source : List Word) (width : Nat) (pair : Nat × Nat) : Option (Word × Word) :=
  match source[pair.1]?, source[pair.1 + 1]? with
  | some v, some v' => if pair.2 + 1 < width then some (v, v') else none
  | _, _ => none

theorem gap?_eq_some_iff : gap? source width pair = some (v, v') ↔
    source[pair.1]? = some v ∧ source[pair.1 + 1]? = some v' ∧ pair.2 + 1 < width := by
  unfold gap?
  split
  · next hleft hright => simp [hleft, hright, and_comm, and_assoc]
  · next hnone =>
    simp only [reduceCtorEq, false_iff]
    exact fun h => hnone v v' h.1 h.2.1

/-- What a pair makes of a side of a target word. `carry` is what the two source words at its gap
make of this side, and the word that has it is the one named by the pair or, with an `offset` of 1,
the next one. -/
def writeSide (offset : Nat) (carry : Word → Word → Option Space → Option Space)
    (source : List Word) (width i : Nat) (s : Option Space) (pair : Nat × Nat) : Option Space :=
  match gap? source width pair with
  | some (v, v') => if i = pair.2 + offset then carry v v' s else s
  | none => s

/-- What a pair makes of the right space of a target word. -/
def writeRight : List Word → Nat → Nat → Option Space → Nat × Nat → Option Space :=
  writeSide 0 fun v _ => carried v.rightSpaceRequired v.rightSpace

/-- What a pair makes of the left space of a target word. -/
def writeLeft : List Word → Nat → Nat → Option Space → Nat × Nat → Option Space :=
  writeSide 1 fun _ v' => carried v'.leftSpaceRequired v'.leftSpace

section Side

variable {offset : Nat} {carry : Word → Word → Option Space → Option Space}

theorem isOverwrite_writeSide (hcarry : ∀ v v', Space.IsOverwrite (carry v v'))
    (pair : Nat × Nat) : Space.IsOverwrite (writeSide offset carry source width i · pair) := by
  unfold writeSide
  split
  · split
    · exact hcarry _ _
    · exact .inl rfl
  · exact .inl rfl

/-- A pair writes to one word only, and only if both rows have its gap. -/
theorem writeSide_eq_self
    (h : i = pair.2 + offset → pair.1 + 1 < source.length → ¬ pair.2 + 1 < width)
    (s : Option Space) : writeSide offset carry source width i s pair = s := by
  unfold writeSide
  split
  · next hgap =>
    obtain ⟨-, hright, hwidth⟩ := gap?_eq_some_iff.mp hgap
    obtain ⟨hlt, -⟩ := List.getElem?_eq_some_iff.mp hright
    exact if_neg fun hi => h hi hlt hwidth
  · rfl

theorem writeSide_of_gap? (h : gap? source width pair = some (v, v')) (hi : i = pair.2 + offset)
    (s : Option Space) : writeSide offset carry source width i s pair = carry v v' s := by
  rw [writeSide, h]
  exact if_pos hi

end Side

theorem isOverwrite_writeRight (pair : Nat × Nat) :
    Space.IsOverwrite (writeRight source width i · pair) :=
  isOverwrite_writeSide (fun _ _ => isOverwrite_carried _ _) pair

theorem isOverwrite_writeLeft (pair : Nat × Nat) :
    Space.IsOverwrite (writeLeft source width i · pair) :=
  isOverwrite_writeSide (fun _ _ => isOverwrite_carried _ _) pair

theorem writeRight_eq_self
    (h : i = pair.2 → pair.1 + 1 < source.length → ¬ pair.2 + 1 < width) (s : Option Space) :
    writeRight source width i s pair = s :=
  writeSide_eq_self h s

theorem writeLeft_eq_self
    (h : i = pair.2 + 1 → pair.1 + 1 < source.length → ¬ pair.2 + 1 < width) (s : Option Space) :
    writeLeft source width i s pair = s :=
  writeSide_eq_self h s

theorem length_copySpace (source target : List Word) (pair : Nat × Nat) :
    (copySpace source target pair).length = target.length := by
  unfold copySpace
  split
  · split <;> simp
  · rfl

theorem copySpace_of_gap? {pair : Nat × Nat}
    (h : gap? source target.length pair = some (v, v')) :
    copySpace source target pair =
      (target.modify pair.2 (copyRight v)).modify (pair.2 + 1) (copyLeft v') := by
  obtain ⟨hleft, hright, hwidth⟩ := gap?_eq_some_iff.mp h
  simp only [copySpace, hleft, hright, if_pos hwidth]

theorem copySpace_of_gap?_eq_none {pair : Nat × Nat}
    (h : gap? source target.length pair = none) : copySpace source target pair = target := by
  unfold copySpace
  split
  · next hleft hright =>
    split
    · next hwidth => exact absurd (gap?_eq_some_iff.mpr ⟨hleft, hright, hwidth⟩) (by simp [h])
    · rfl
  · rfl

/-- **What a pair makes of a target word**, each side by itself. -/
theorem getElem?_copySpace (source target : List Word) (pair : Nat × Nat) (i : Nat) :
    (copySpace source target pair)[i]? = target[i]?.map fun w =>
      { w with
        leftSpace := writeLeft source target.length i w.leftSpace pair
        rightSpace := writeRight source target.length i w.rightSpace pair } := by
  cases hgap : gap? source target.length pair with
  | none =>
    simp only [copySpace_of_gap?_eq_none hgap, writeLeft, writeRight, writeSide, hgap,
      Option.map_id']
  | some sides =>
    obtain ⟨v, v'⟩ := sides
    rw [copySpace_of_gap? hgap]
    simp only [List.getElem?_modify, writeLeft, writeRight, writeSide, hgap, Nat.add_zero,
      copyRight_eq, copyLeft_eq]
    cases target[i]? with
    | none => rfl
    | some w =>
      by_cases hright : i = pair.2
      · simp [hright]
      · by_cases hleft : i = pair.2 + 1
        · simp [hleft]
        · simp [hright, hleft, Ne.symm hright, Ne.symm hleft]

theorem length_foldl_copySpace (source target : List Word) (pairs : List (Nat × Nat)) :
    (pairs.foldl (copySpace source) target).length = target.length := by
  induction pairs generalizing target with
  | nil => rfl
  | cons pair pairs ih => rw [List.foldl_cons, ih, length_copySpace]

/-- **What a row of pairs makes of a target word**, each side by itself. -/
theorem getElem?_foldl_copySpace (source target : List Word) (pairs : List (Nat × Nat)) (i : Nat) :
    (pairs.foldl (copySpace source) target)[i]? = target[i]?.map fun w =>
      { w with
        leftSpace := pairs.foldl (writeLeft source target.length i) w.leftSpace
        rightSpace := pairs.foldl (writeRight source target.length i) w.rightSpace } := by
  induction pairs generalizing target with
  | nil => simp
  | cons pair pairs ih =>
    rw [List.foldl_cons, ih, getElem?_copySpace, length_copySpace, Option.map_map]
    rfl

/-- A row of pairs that was gone through once changes nothing any more. -/
theorem foldl_copySpace_foldl_copySpace (source target : List Word) (pairs : List (Nat × Nat)) :
    pairs.foldl (copySpace source) (pairs.foldl (copySpace source) target) =
      pairs.foldl (copySpace source) target := by
  apply List.ext_getElem?
  intro i
  simp only [getElem?_foldl_copySpace, length_foldl_copySpace, Option.map_map, Function.comp_def]
  cases target[i]? with
  | none => rfl
  | some w =>
    simp only [Option.map_some, (Space.isOverwrite_foldl isOverwrite_writeLeft).idempotent,
      (Space.isOverwrite_foldl isOverwrite_writeRight).idempotent]

/-- A gap of the target whose sides are as the sides of a gap of the source ask for. -/
def HasGapOf (source : List Word) (s : Nat) (target : List Word) (j : Nat) : Prop :=
  ∃ v v' w w', source[s]? = some v ∧ source[s + 1]? = some v' ∧
    target[j]? = some w ∧ target[j + 1]? = some w' ∧
    IsCarriedOver v.rightSpaceRequired v.rightSpace w.rightSpace ∧
    IsCarriedOver v'.leftSpaceRequired v'.leftSpace w'.leftSpace

/-- Of the pairs that write at a gap, the last one is seen. -/
theorem hasGapOf_foldl_copySpace {s j : Nat} {front back : List (Nat × Nat)}
    (hs : s + 1 < source.length) (hj : j + 1 < target.length)
    (hback : ∀ q ∈ back, j = q.2 → q.1 + 1 < source.length → ¬ q.2 + 1 < target.length) :
    HasGapOf source s ((front ++ (s, j) :: back).foldl (copySpace source) target) j := by
  have hgap : gap? source target.length (s, j) = some (source[s], source[s + 1]) :=
    gap?_eq_some_iff.mpr ⟨List.getElem?_eq_getElem _, List.getElem?_eq_getElem hs, hj⟩
  have hw := getElem?_foldl_copySpace source target (front ++ (s, j) :: back) j
  have hw' := getElem?_foldl_copySpace source target (front ++ (s, j) :: back) (j + 1)
  rw [List.getElem?_eq_getElem (Nat.lt_of_succ_lt hj)] at hw
  rw [List.getElem?_eq_getElem hj] at hw'
  refine ⟨_, _, _, _, List.getElem?_eq_getElem (Nat.lt_of_succ_lt hs), List.getElem?_eq_getElem hs,
    hw, hw', isCarriedOver_foldl (fun x => ?right) ?_ _, isCarriedOver_foldl (fun x => ?left) ?_ _⟩
  case right =>
    rw [writeRight, writeSide_of_gap? (i := j) hgap rfl]
    exact isCarriedOver_carried _ _ x
  case left =>
    rw [writeLeft, writeSide_of_gap? (i := j + 1) hgap rfl]
    exact isCarriedOver_carried _ _ x
  · exact fun q hq => writeRight_eq_self (hback q hq)
  · exact fun q hq => writeLeft_eq_self fun hi => hback q hq (Nat.succ.inj hi)

end Row

/-! ## The translation -/

/-- The words of a source with the sides flagged on which a space is required. -/
def flaggedWords (annotator : Annotator) (source : Sentence) : List Word :=
  (annotator (.ofWords source.words)).apply source.words

/-- Two neighbours of the source, beginning at a word, were translated by two neighbours of the
target, beginning at a word: the gap between the first ones is carried over to the gap between the
second ones. -/
structure CarriesGap (t : Translation) (sourceWord targetWord : Nat) : Prop where
  aligned : (sourceWord, targetWord) ∈ t.alignment.toList
  next_aligned : (sourceWord + 1, targetWord + 1) ∈ t.alignment.toList
  source_lt : ∃ source, t.source = some source ∧ sourceWord + 1 < source.words.length
  target_lt : targetWord + 1 < t.sentence.words.length

/-- A translation that differs from another one in spaces only, and in these only at gaps that are
carried over. -/
structure IsRespaced (t u : Translation) : Prop where
  rest : u = { t with sentence := { t.sentence with words := u.sentence.words } }
  words : u.sentence.words.map Word.spaceless = t.sentence.words.map Word.spaceless
  right : ∀ i, (∀ s, ¬ t.CarriesGap s i) →
    u.sentence.words[i]?.map Word.rightSpace = t.sentence.words[i]?.map Word.rightSpace
  left : ∀ i, (∀ s j, i = j + 1 → ¬ t.CarriesGap s j) →
    u.sentence.words[i]?.map Word.leftSpace = t.sentence.words[i]?.map Word.leftSpace

section Project

variable {annotator : Annotator} {t : Translation} {source : Sentence} {s j : Nat}

theorem length_flaggedWords (annotator : Annotator) (source : Sentence) :
    (flaggedWords annotator source).length = source.words.length := by
  simp [flaggedWords, Separators.apply]

theorem projectSpacing_eq (hsource : t.source = some source) (annotator : Annotator) :
    t.projectSpacing annotator = { t with
      sentence := { t.sentence with
        words := (monotonePairs t.alignment).foldl (copySpace (flaggedWords annotator source))
          t.sentence.words } } := by
  simp only [projectSpacing, hsource, flaggedWords]

theorem mem_monotonePairs {a : Alignment} {p : Nat × Nat} :
    p ∈ monotonePairs a ↔ p ∈ a.toList ∧ (p.1 + 1, p.2 + 1) ∈ a.toList := by
  rw [monotonePairs, List.mem_filter, Alignment.contains_iff]

/-- The pairs that write at a gap carry it over. -/
theorem carriesGap_of_mem (annotator : Annotator) (hsource : t.source = some source)
    {p : Nat × Nat} (hp : p ∈ monotonePairs t.alignment)
    (hlt : p.1 + 1 < (flaggedWords annotator source).length)
    (hwidth : p.2 + 1 < t.sentence.words.length) : t.CarriesGap p.1 p.2 where
  aligned := (mem_monotonePairs.mp hp).1
  next_aligned := (mem_monotonePairs.mp hp).2
  source_lt := ⟨source, hsource, length_flaggedWords annotator source ▸ hlt⟩
  target_lt := hwidth

theorem isRespaced_projectSpacing (annotator : Annotator) (t : Translation) :
    t.IsRespaced (t.projectSpacing annotator) := by
  cases hsource : t.source with
  | none =>
    have hsame : t.projectSpacing annotator = t := by simp only [projectSpacing, hsource]
    rw [hsame]
    exact ⟨rfl, rfl, fun _ _ => rfl, fun _ _ => rfl⟩
  | some source =>
    rw [projectSpacing_eq hsource]
    refine ⟨rfl, ?words, fun i hright => ?right, fun i hleft => ?left⟩
    case words =>
      apply List.ext_getElem?
      intro i
      simp only [List.getElem?_map, getElem?_foldl_copySpace, Option.map_map]
      rfl
    case right =>
      have hkept := foldl_eq_self fun p hp => writeRight_eq_self fun hi hlt hwidth =>
        hright p.1 (hi ▸ carriesGap_of_mem annotator hsource hp hlt hwidth)
      simp only [getElem?_foldl_copySpace, Option.map_map, Function.comp_def, hkept]
    case left =>
      have hkept := foldl_eq_self fun p hp => writeLeft_eq_self fun hi hlt hwidth =>
        hleft p.1 p.2 hi (carriesGap_of_mem annotator hsource hp hlt hwidth)
      simp only [getElem?_foldl_copySpace, Option.map_map, Function.comp_def, hkept]

theorem projectSpacing_projectSpacing (annotator : Annotator) (t : Translation) :
    (t.projectSpacing annotator).projectSpacing annotator = t.projectSpacing annotator := by
  cases hsource : t.source with
  | none =>
    have hsame : t.projectSpacing annotator = t := by simp only [projectSpacing, hsource]
    rw [hsame, hsame]
  | some source =>
    have hsame : (t.projectSpacing annotator).source = some source := by
      rw [projectSpacing_eq hsource, hsource]
    rw [projectSpacing_eq hsame, projectSpacing_eq hsource]
    simp only [foldl_copySpace_foldl_copySpace]

/-- Of the gaps carried over to one gap, the last one is found there. -/
theorem hasGapOf_projectSpacing (hsource : t.source = some source) (hgap : t.CarriesGap s j)
    (hlast : ∀ s', t.CarriesGap s' j → s' ≤ s) :
    HasGapOf (flaggedWords annotator source) s (t.projectSpacing annotator).sentence.words j := by
  have hmem : (s, j) ∈ monotonePairs t.alignment :=
    mem_monotonePairs.mpr ⟨hgap.aligned, hgap.next_aligned⟩
  obtain ⟨front, back, hpairs⟩ := List.append_of_mem hmem
  have hnext : s + 1 < (flaggedWords annotator source).length := by
    obtain ⟨source', hsource', hlt⟩ := hgap.source_lt
    obtain rfl := Option.some.inj (hsource'.symm.trans hsource)
    rwa [length_flaggedWords]
  have hbehind : ∀ q ∈ back, j = q.2 → q.1 + 1 < (flaggedWords annotator source).length →
      ¬ q.2 + 1 < t.sentence.words.length := by
    intro q hq htarget hlt hwidth
    have hmem' : q ∈ monotonePairs t.alignment := by simp [hpairs, hq]
    have hle := hlast q.1 (htarget ▸ carriesGap_of_mem annotator hsource hmem' hlt hwidth)
    have hlater : s < q.1 :=
      Alignment.fst_lt_of_mem_behind List.filter_sublist hpairs hq htarget
    omega
  rw [projectSpacing_eq hsource, hpairs]
  exact hasGapOf_foldl_copySpace hnext hgap.target_lt hbehind

/-- **Carrying spacing over is confined and is done with once.** A second run changes nothing. The
first run changes the right spaces of those words only behind which a gap of the source is carried
over, and the left spaces of those in front of which one is; all else of the translation stays. Of
several gaps that are carried over to one, the last of the source is the one that is found there. -/
theorem projectSpacing_idempotent (annotator : Annotator) (t : Translation) :
    (t.projectSpacing annotator).projectSpacing annotator = t.projectSpacing annotator ∧
    t.IsRespaced (t.projectSpacing annotator) ∧
    ∀ source s j, t.source = some source → t.CarriesGap s j →
      (∀ s', t.CarriesGap s' j → s' ≤ s) →
      HasGapOf (flaggedWords annotator source) s (t.projectSpacing annotator).sentence.words j :=
  ⟨projectSpacing_projectSpacing annotator t, isRespaced_projectSpacing annotator t,
    fun _ _ _ hsource hgap hlast => hasGapOf_projectSpacing hsource hgap hlast⟩

end Project

/-- The target has a tab in its gap, and two gaps of the source are carried over to it: one that
asks for a blank and one without a space, on which a space is required all the same. -/
def blankedTranslation : Translation :=
  .ofWords
    [.ofText none ['x'] none (some (.literal ['\t'])), .ofText none ['y'] (some .virtual) none]
    (.ofTokens [.ofText none ['a'] none (some .blank), .ofText none ['b'] (some .blank) none,
      .ofText none ['c'] none none] [])
    (.ofPairs [(0, 0), (1, 1), (1, 0), (2, 1), (9, 9)])

theorem projectSpacing_idempotent_blankedTranslation :
    blankedTranslation.CarriesGap 0 0 ∧ blankedTranslation.CarriesGap 1 0 ∧
    ((blankedTranslation.projectSpacing Separators.punctuate).projectSpacing
      Separators.punctuate).sentence.words.map
      (fun w => (w.leftSpace, w.rightSpace)) = [(none, none), (none, none)] ∧
    ∀ source, blankedTranslation.source = some source →
      HasGapOf (flaggedWords Separators.punctuate source) 1
        (blankedTranslation.projectSpacing Separators.punctuate).sentence.words 0 := by
  have hlater : blankedTranslation.CarriesGap 1 0 :=
    ⟨by decide, by decide, ⟨_, rfl, by decide⟩, by decide⟩
  have hlast : ∀ s', blankedTranslation.CarriesGap s' 0 → s' ≤ 1 := by
    intro s' hgap
    have haligned : ∀ p ∈ blankedTranslation.alignment.toList, p.2 = 0 → p.1 ≤ 1 := by decide
    exact haligned _ hgap.aligned rfl
  have hproject := projectSpacing_idempotent Separators.punctuate blankedTranslation
  refine ⟨⟨by decide, by decide, ⟨_, rfl, by decide⟩, by decide⟩, hlater, ?_, fun source hsource =>
    hproject.2.2 source 1 0 hsource hlater hlast⟩
  rw [hproject.1]
  decide

end Translation

end MarkupTransfer
