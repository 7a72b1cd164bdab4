import MarkupTransfer.Spacing.Separators
import MarkupTransfer.Proofs.Text.Scan
import MarkupTransfer.Proofs.Text.Slices
/-!
# Words between blanks

Words in a row have one blank in front of each and one behind each, so a word ends where the blank
behind it stands and begins one further on than the blank in front of it. A blank that is looked for
to the right of the end of a word is found at once. One that is looked for to the left of its
beginning is the blank in front of it, unless the word itself begins with a blank.

* `isRow_ofWords`, `IsRow.getElem?_ranges`: the row and where its words are.
* `blanksFrom_append`: the blanks of a text part by part.
* `IsRow.removeRight_stopAt`, `IsRow.removeLeft_startAt`: which blank is found from the end and from
  the beginning of a word.
-/

namespace MarkupTransfer.Separators

open Text (size)

/-! ## The row -/

/-- Texts in a row, each with a blank behind it. -/
def joined (ts : List Text) : Text := ts.flatMap (· ++ [' '])

/-- Where a text of the row begins, the row itself beginning with a blank. -/
def startAt (ts : List Text) (i : Nat) : Nat := 1 + size (joined (ts.take i))

/-- Where a text of the row ends. -/
def stopAt (ts : List Text) (i : Nat) : Nat := startAt ts i + size (ts[i]?.getD [])

variable {ts : List Text} {i j : Nat}

theorem joined_append (ts us : List Text) : joined (ts ++ us) = joined ts ++ joined us :=
  List.flatMap_append

theorem joined_cons (t : Text) (ts : List Text) : joined (t :: ts) = t ++ ' ' :: joined ts := by
  simp [joined]

/-- **The row cut at one of its texts.** -/
theorem joined_eq (hi : i < ts.length) :
    joined ts = joined (ts.take i) ++ (ts[i] ++ ' ' :: joined (ts.drop (i + 1))) := by
  rw [← joined_cons, ← List.drop_eq_getElem_cons hi, ← joined_append, List.take_append_drop]

theorem size_blankChar : ' '.utf8Size = 1 := rfl

theorem startAt_succ (hi : i < ts.length) : startAt ts (i + 1) = stopAt ts i + 1 := by
  rw [stopAt, startAt, startAt, List.take_succ_eq_append_getElem hi, joined_append, joined_cons,
    List.getElem?_eq_getElem hi, Option.getD_some, Text.size_append, Text.size_append,
    Text.size_cons, size_blankChar]
  simp only [joined, List.flatMap_nil, Text.size_nil]
  omega

theorem startAt_le_stopAt (ts : List Text) (i : Nat) : startAt ts i ≤ stopAt ts i :=
  Nat.le_add_right _ _

theorem stopAt_lt_stopAt (hij : i < j) (hj : j < ts.length) : stopAt ts i < stopAt ts j := by
  induction j with
  | zero => omega
  | succ j ih =>
    have hstep : stopAt ts j < stopAt ts (j + 1) := by
      have := startAt_succ (Nat.lt_of_succ_lt hj)
      have := startAt_le_stopAt ts (j + 1)
      omega
    rcases Nat.lt_succ_iff_lt_or_eq.mp hij with hlt | rfl
    · exact Nat.lt_trans (ih hlt (Nat.lt_of_succ_lt hj)) hstep
    · exact hstep

theorem stopAt_inj (hi : i < ts.length) (hj : j < ts.length) :
    stopAt ts i = stopAt ts j ↔ i = j := by
  refine ⟨fun h => ?_, fun h => h ▸ rfl⟩
  rcases Nat.lt_trichotomy i j with hlt | heq | hlt
  · have := stopAt_lt_stopAt hlt hj
    omega
  · exact heq
  · have := stopAt_lt_stopAt hlt hi
    omega

theorem fst_row (offset : Nat) (ts : List Text) : (row offset ts).1 = joined ts := by
  induction ts generalizing offset with
  | nil => rfl
  | cons t ts ih => rw [joined_cons, ← ih (offset + size t + 1)]; rfl

theorem getElem?_snd_row (offset : Nat) (ts : List Text) (i : Nat) :
    (row offset ts).2[i]? = ts[i]?.map fun t =>
      ⟨offset + size (joined (ts.take i)), offset + size (joined (ts.take i)) + size t⟩ := by
  induction ts generalizing offset i with
  | nil => rfl
  | cons t ts ih =>
    have hrow : (row offset (t :: ts)).2 =
        ⟨offset, offset + size t⟩ :: (row (offset + size t + 1) ts).2 := rfl
    rw [hrow]
    cases i with
    | zero => simp [joined]
    | succ i =>
      have hsize : offset + size (joined (t :: ts.take i)) =
          offset + size t + 1 + size (joined (ts.take i)) := by
        rw [joined_cons, Text.size_append, Text.size_cons, size_blankChar]
        omega
      rw [List.getElem?_cons_succ, List.getElem?_cons_succ, ih, List.take_succ_cons, hsize]

theorem length_snd_row (offset : Nat) (ts : List Text) :
    (row offset ts).2.length = ts.length := by
  induction ts generalizing offset with
  | nil => rfl
  | cons t ts ih => exact congrArg Nat.succ (ih _)

/-! ## Blanks -/

/-- The blanks of a text that begins at an offset. -/
def blanksFrom (offset : Nat) (t : Text) : List Nat :=
  (Text.scanFrom blankLength offset 0 t).map Text.Occurrence.start

theorem blanks_eq_blanksFrom (s : Separators) : s.blanks = blanksFrom 0 s.text := rfl

theorem blanksFrom_blank (offset : Nat) (t : Text) :
    blanksFrom offset (' ' :: t) = offset :: blanksFrom (offset + 1) t := rfl

theorem blanksFrom_cons {c : Char} (hc : c ≠ ' ') (offset : Nat) (t : Text) :
    blanksFrom offset (c :: t) = blanksFrom (offset + c.utf8Size) t := by
  have hzero : blankLength (c :: t) = 0 := by
    unfold blankLength
    split
    · next h => exact absurd (List.cons.inj h).1 hc
    · rfl
  rw [blanksFrom, Text.scanFrom_cons_of_eq_zero hzero, blanksFrom]

/-- **The blanks of a text part by part.** -/
theorem blanksFrom_append (offset : Nat) (s t : Text) :
    blanksFrom offset (s ++ t) = blanksFrom offset s ++ blanksFrom (offset + size s) t := by
  induction s generalizing offset with
  | nil => rfl
  | cons c s ih =>
    by_cases hc : c = ' '
    · subst hc
      rw [List.cons_append, blanksFrom_blank, blanksFrom_blank, ih, Text.size_cons, size_blankChar,
        Nat.add_assoc, List.cons_append]
    · rw [List.cons_append, blanksFrom_cons hc, blanksFrom_cons hc, ih, Text.size_cons,
        Nat.add_assoc]

theorem blanksFrom_eq_nil {t : Text} (h : ' ' ∉ t) (offset : Nat) : blanksFrom offset t = [] := by
  induction t generalizing offset with
  | nil => rfl
  | cons c t ih =>
    rw [List.mem_cons, not_or] at h
    rw [blanksFrom_cons (Ne.symm h.1), ih h.2]

theorem bounds_of_mem_blanksFrom {offset b : Nat} {t : Text} (h : b ∈ blanksFrom offset t) :
    offset ≤ b ∧ b < offset + size t := by
  induction t generalizing offset with
  | nil => cases h
  | cons c t ih =>
    have hpos := c.utf8Size_pos
    rw [Text.size_cons]
    by_cases hc : c = ' '
    · subst hc
      rw [blanksFrom_blank, List.mem_cons] at h
      rcases h with rfl | h
      · omega
      · have := ih h
        rw [size_blankChar]
        omega
    · rw [blanksFrom_cons hc] at h
      have := ih h
      omega

/-! ## Looking for a blank -/

/-- Separators between texts in a row, whatever has been taken out. -/
structure IsRow (s : Separators) (ts : List Text) : Prop where
  text : s.text = ' ' :: joined ts
  ranges : s.ranges = (row 1 ts).2

theorem isRow_ofWords (words : List Word) : (ofWords words).IsRow (words.map Word.placeholder) where
  text := by
    rw [← fst_row 1]
    rfl
  ranges := rfl

namespace IsRow

variable {s : Separators}

theorem remove (h : s.IsRow ts) (offsets : List Nat) : (s.remove offsets).IsRow ts :=
  ⟨h.text, h.ranges⟩

theorem length_ranges (h : s.IsRow ts) : s.ranges.length = ts.length := by
  rw [h.ranges, length_snd_row]

theorem getElem?_ranges (h : s.IsRow ts) (i : Nat) :
    s.ranges[i]? = ts[i]?.map fun _ => ⟨startAt ts i, stopAt ts i⟩ := by
  rw [h.ranges, getElem?_snd_row]
  cases ht : ts[i]? with
  | none => rfl
  | some t => simp [stopAt, startAt, ht]

/-- The row cut at one of its texts, with the blank in front of the row. -/
theorem text_eq (h : s.IsRow ts) (hi : i < ts.length) :
    s.text = ' ' :: joined (ts.take i) ++ ts[i] ++ ' ' :: joined (ts.drop (i + 1)) := by
  rw [h.text, joined_eq hi, List.cons_append, List.cons_append, List.append_assoc]

theorem slice_eq (h : s.IsRow ts) (hi : i < ts.length) :
    s.text.slice (startAt ts i) (stopAt ts i) = ts[i] := by
  have hstart : startAt ts i = size (' ' :: joined (ts.take i)) := rfl
  rw [h.text_eq hi, stopAt, List.getElem?_eq_getElem hi, Option.getD_some, hstart]
  exact Text.slice_size _ _ _

/-- The blanks of a row: those in front of a text, those inside it, the one behind it, and those
further on. -/
theorem blanks_eq (h : s.IsRow ts) (hi : i < ts.length) :
    s.blanks = blanksFrom 0 (' ' :: joined (ts.take i)) ++ blanksFrom (startAt ts i) ts[i] ++
      stopAt ts i :: blanksFrom (stopAt ts i + 1) (joined (ts.drop (i + 1))) := by
  have hstart : size (' ' :: joined (ts.take i)) = startAt ts i := rfl
  rw [blanks_eq_blanksFrom, h.text_eq hi, blanksFrom_append, blanksFrom_append, Text.size_append,
    blanksFrom_blank (0 + _), Nat.zero_add, Nat.zero_add, hstart, stopAt,
    List.getElem?_eq_getElem hi, Option.getD_some]

/-- **The first blank at the end of a text or behind it** is the one that follows it. -/
theorem removeRight_stopAt (h : s.IsRow ts) (hi : i < ts.length) :
    s.removeRight (stopAt ts i) = s.remove [stopAt ts i] := by
  have hstart : 1 ≤ startAt ts i := Nat.le_add_right _ _
  have hstop := startAt_le_stopAt ts i
  have hfound : (s.blanks.find? fun b => max (stopAt ts i) 1 ≤ b) = some (stopAt ts i) := by
    refine List.find?_eq_some_iff_append.mpr
      ⟨decide_eq_true (by omega), _, _, h.blanks_eq hi, fun b hb => ?_⟩
    have hlt : b < stopAt ts i := by
      rcases List.mem_append.mp hb with hb | hb
      · have := bounds_of_mem_blanksFrom hb
        have : size (' ' :: joined (ts.take i)) = startAt ts i := rfl
        omega
      · have := bounds_of_mem_blanksFrom hb
        rw [stopAt, List.getElem?_eq_getElem hi]
        exact this.2
    simp only [Bool.not_eq_true', decide_eq_false_iff_not]
    omega
  rw [removeRight, hfound]
  rfl

/-- **The last blank at the beginning of a text or in front of it** is the one that precedes it,
unless the text begins with a blank. -/
theorem removeLeft_startAt (h : s.IsRow ts) (hi : i + 1 < ts.length) (hne : ts[i + 1] ≠ [])
    (hblank : ' ' ∉ ts[i + 1]) :
    s.removeLeft (startAt ts (i + 1)) = s.remove [stopAt ts i] := by
  have hi' : i < ts.length := Nat.lt_of_succ_lt hi
  have hnext : startAt ts (i + 1) = stopAt ts i + 1 := startAt_succ hi'
  have hstart : 1 ≤ startAt ts i := Nat.le_add_right _ _
  have hstop := startAt_le_stopAt ts i
  have hfound : (s.blanks.reverse.find? fun b => 1 ≤ b && b ≤ startAt ts (i + 1)) =
      some (stopAt ts i) := by
    rw [h.blanks_eq hi', List.reverse_append, List.reverse_cons, List.append_assoc,
      List.singleton_append]
    refine List.find?_eq_some_iff_append.mpr ⟨?_, _, _, rfl, fun b hb => ?_⟩
    · simp only [Bool.and_eq_true, decide_eq_true_eq]
      omega
    have hpos := Text.size_pos hne
    rw [List.mem_reverse, List.drop_eq_getElem_cons hi, joined_cons, blanksFrom_append,
      blanksFrom_eq_nil hblank, List.nil_append] at hb
    have := bounds_of_mem_blanksFrom hb
    simp only [Bool.not_eq_true', Bool.and_eq_false_iff, decide_eq_false_iff_not]
    omega
  rw [removeLeft, hfound]
  rfl

end IsRow

end MarkupTransfer.Separators
