import MarkupTransfer.Proofs.Draft.Stretches
/-!
# Rows of cells divided by a scan

As long as every cell shows a single character, a scan of the working text divides the cells as it
divides the text: a token is a stretch, and so is every cell outside of tokens. What is done to a
token depends on its text alone.

* `Stretch.divide`: the stretches into which a scan divides a row.
* `Stretch.exists_divide_append`: a character that no token reaches over divides the row.
* `Stretch.exists_of_mem_scanFrom`: where a token stands in a row of copied characters.
* `Draft.IsRow.run_divide`, `Draft.IsRow.run_words`: what a pass that reads tokens and the pass over
  words make of a draft in cells.
-/

namespace MarkupTransfer

open Cell (plain raws showns)
open Text (size Occurrence scanFrom rewriteFrom)

/-- A cell stands for something and shows a single character. -/
structure Cell.IsGlyph (c : Cell) : Prop where
  raw_ne_nil : c.raw ≠ []
  exists_shown : ∃ d, c.shown = [d]

namespace Cell

variable {cs : List Cell}

theorem IsGlyph.exists_showns {c : Cell} (h : c.IsGlyph) :
    ∃ d, showns [c] = [d] ∧ ∀ cs, showns (c :: cs) = d :: showns cs := by
  obtain ⟨d, hd⟩ := h.exists_shown
  exact ⟨d, by simp [hd], fun cs => by simp [hd]⟩

theorem isGlyph_plain (c : Char) : (plain c).IsGlyph := ⟨by simp [plain], c, rfl⟩

theorem isGlyph_of_mem_map_plain (t : Text) : ∀ c ∈ t.map plain, c.IsGlyph := by
  intro c hc
  obtain ⟨d, -, rfl⟩ := List.mem_map.mp hc
  exact isGlyph_plain d

theorem length_showns (h : ∀ c ∈ cs, c.IsGlyph) : (showns cs).length = cs.length := by
  induction cs with
  | nil => rfl
  | cons c cs ih =>
    obtain ⟨hc, hcs⟩ := List.forall_mem_cons.mp h
    obtain ⟨d, hd⟩ := hc.exists_shown
    rw [showns_cons, hd, List.singleton_append, List.length_cons, List.length_cons, ih hcs]

theorem take_showns (h : ∀ c ∈ cs, c.IsGlyph) (n : Nat) :
    (showns cs).take n = showns (cs.take n) := by
  induction cs generalizing n with
  | nil => simp
  | cons c cs ih =>
    obtain ⟨hc, hcs⟩ := List.forall_mem_cons.mp h
    obtain ⟨d, hd⟩ := hc.exists_shown
    cases n with
    | zero => rfl
    | succ n => simp [hd, ih hcs]

theorem drop_showns (h : ∀ c ∈ cs, c.IsGlyph) (n : Nat) :
    (showns cs).drop n = showns (cs.drop n) := by
  have happend := showns_append (cs.take n) (cs.drop n)
  rw [List.take_append_drop, ← take_showns h] at happend
  exact List.append_cancel_left ((List.take_append_drop n (showns cs)).trans happend)

theorem raws_ne_nil (h : ∀ c ∈ cs, c.IsGlyph) (hne : cs ≠ []) : raws cs ≠ [] := by
  cases cs with
  | nil => exact absurd rfl hne
  | cons c cs => simp [(h c (by simp)).raw_ne_nil]

theorem showns_flatten (groups : List (List Cell)) :
    showns groups.flatten = (groups.map showns).flatten := by
  induction groups with
  | nil => rfl
  | cons group groups ih =>
    rw [List.flatten_cons, showns_append, ih, List.map_cons, List.flatten_cons]

/-- Parts of what cells show are shown by parts of the row. -/
theorem exists_append_of_showns_eq {u v : Text} (h : ∀ c ∈ cs, c.IsGlyph)
    (hshowns : showns cs = u ++ v) :
    ∃ as bs, cs = as ++ bs ∧ showns as = u ∧ showns bs = v := by
  refine ⟨cs.take u.length, cs.drop u.length, (List.take_append_drop _ _).symm, ?_, ?_⟩
  · rw [← take_showns h, hshowns, List.take_left]
  · rw [← drop_showns h, hshowns, List.drop_left]

/-- A row falls apart in one way only into parts that show given texts. -/
theorem append_inj_of_showns_eq {as bs cs' ds : List Cell} (h : ∀ c ∈ as ++ cs', c.IsGlyph)
    (hrow : as ++ cs' = bs ++ ds) (hshowns : showns as = showns bs) : as = bs ∧ cs' = ds := by
  have has : ∀ c ∈ as, c.IsGlyph := fun c hc => h c (List.mem_append_left _ hc)
  have hbs : ∀ c ∈ bs, c.IsGlyph := fun c hc => h c (hrow ▸ List.mem_append_left _ hc)
  exact List.append_inj hrow (by rw [← length_showns has, ← length_showns hbs, hshowns])

theorem exists_groups {texts : List Text} (h : ∀ c ∈ cs, c.IsGlyph)
    (htexts : showns cs = texts.flatten) :
    ∃ groups : List (List Cell), groups.flatten = cs ∧ groups.map showns = texts := by
  induction texts generalizing cs with
  | nil =>
    have hlength := length_showns h
    rw [htexts] at hlength
    exact ⟨[], (List.length_eq_zero_iff.mp hlength.symm).symm, rfl⟩
  | cons t texts ih =>
    obtain ⟨group, cs, rfl, hfront, hback⟩ := exists_append_of_showns_eq h htexts
    obtain ⟨groups, rfl, hmap⟩ := ih (fun c hc => h c (List.mem_append_right _ hc)) hback
    exact ⟨group :: groups, rfl, by rw [List.map_cons, hfront, hmap]⟩

end Cell

namespace Treatment

/-- What a treated text shows. -/
def shown (treatment : Treatment) (t : Text) : Text :=
  match treatment with
  | .edit (some r) => r
  | _ => t

/-- A treatment leaves a text alone or puts a single character in its place. -/
def IsSingle (treatment : Treatment) : Prop :=
  treatment = .leave ∨ ∃ d, treatment = .edit (some [d])

theorem IsSingle.ne {treatment : Treatment} (h : treatment.IsSingle) :
    treatment ≠ .edit (some []) := by
  rcases h with rfl | ⟨d, rfl⟩ <;> simp

end Treatment

namespace Stretch

/-- The stretches into which a scan divides a row of cells, once some have been skipped. -/
def divideFrom (lengthAt : Text → Nat) (treat : Text → Treatment) : Nat → List Cell → List Stretch
  | _, [] => []
  | skip + 1, _ :: cs => divideFrom lengthAt treat skip cs
  | 0, c :: cs =>
    match lengthAt (showns (c :: cs)) with
    | 0 => ⟨[c], .leave⟩ :: divideFrom lengthAt treat 0 cs
    | n + 1 =>
      ⟨(c :: cs).take (n + 1), treat (showns ((c :: cs).take (n + 1)))⟩ ::
        divideFrom lengthAt treat n cs

/-- The stretches into which a scan divides a row of cells. -/
def divide (lengthAt : Text → Nat) (treat : Text → Treatment) (cs : List Cell) : List Stretch :=
  divideFrom lengthAt treat 0 cs

variable {lengthAt : Text → Nat} {treat : Text → Treatment} {cs : List Cell}

theorem divideFrom_eq (skip : Nat) (cs : List Cell) :
    divideFrom lengthAt treat skip cs = divide lengthAt treat (cs.drop skip) := by
  induction skip generalizing cs with
  | zero => rfl
  | succ n ih =>
    cases cs with
    | nil => rfl
    | cons c cs => exact ih cs

theorem divide_cons_of_eq_zero {c : Cell} (h : lengthAt (showns (c :: cs)) = 0) :
    divide lengthAt treat (c :: cs) = ⟨[c], .leave⟩ :: divide lengthAt treat cs := by
  rw [divide, divideFrom, h]
  rfl

theorem divide_cons_of_eq_succ {c : Cell} {n : Nat} (h : lengthAt (showns (c :: cs)) = n + 1) :
    divide lengthAt treat (c :: cs) =
      ⟨(c :: cs).take (n + 1), treat (showns ((c :: cs).take (n + 1)))⟩ ::
        divide lengthAt treat (cs.drop n) := by
  rw [divide, divideFrom, h]
  simp only [divideFrom_eq]

theorem flatMap_cells_divide (lengthAt : Text → Nat) (treat : Text → Treatment) (cs : List Cell) :
    (divide lengthAt treat cs).flatMap cells = cs := by
  induction cs using Text.scan_induction fun cs => lengthAt (showns cs) with
  | nil => rfl
  | skip c cs h ih => rw [divide_cons_of_eq_zero h, List.flatMap_cons, ih, List.singleton_append]
  | token c cs n h ih =>
    rw [divide_cons_of_eq_succ h, List.flatMap_cons, ih, List.take_succ_cons, List.cons_append,
      List.take_append_drop]

/-- A stretch is a single cell that is left alone, or the token at the head of the cells from some
cell on. -/
theorem mem_divide_cases {g : Stretch} (hg : g ∈ divide lengthAt treat cs) :
    g.treatment = .leave ∨ ∃ c rest n, c :: rest <:+ cs ∧ lengthAt (showns (c :: rest)) = n + 1 ∧
      g = ⟨(c :: rest).take (n + 1), treat (showns ((c :: rest).take (n + 1)))⟩ := by
  induction cs using Text.scan_induction fun cs => lengthAt (showns cs) with
  | nil => cases hg
  | skip c cs h ih =>
    rw [divide_cons_of_eq_zero h] at hg
    rcases List.mem_cons.mp hg with rfl | hg
    · exact .inl rfl
    · refine (ih hg).imp_right fun ⟨c', rest, n, hc', hrest⟩ => ?_
      exact ⟨c', rest, n, hc'.trans (List.suffix_cons c cs), hrest⟩
  | token c cs n h ih =>
    rw [divide_cons_of_eq_succ h] at hg
    rcases List.mem_cons.mp hg with rfl | hg
    · exact .inr ⟨c, cs, n, List.suffix_rfl, h, rfl⟩
    · refine (ih hg).imp_right fun ⟨c', rest, n, hc', hrest⟩ => ?_
      exact ⟨c', rest, n, hc'.trans ((List.drop_suffix _ cs).trans (List.suffix_cons c cs)), hrest⟩

/-! ## The edits of a pass -/

/-- The edit that a pass makes of a token. -/
def editOf (role : Option Role) (treat : Text → Treatment) (o : Occurrence) : Option Edit :=
  match treat o.text with
  | .leave => none
  | .edit r => some ⟨o.start, size o.text, r, role⟩

/-- **A pass edits the stretches into which its scan divides the row.** -/
theorem edits_divide (role : Option Role) (hcs : ∀ c ∈ cs, c.IsGlyph) (n : Nat) :
    edits role n (divide lengthAt treat cs) =
      (scanFrom lengthAt n 0 (showns cs)).filterMap (editOf role treat) := by
  induction cs using Text.scan_induction fun cs => lengthAt (showns cs) generalizing n with
  | nil => rfl
  | skip c cs h ih =>
    obtain ⟨hc, hcs⟩ := List.forall_mem_cons.mp hcs
    obtain ⟨d, hone, hcons⟩ := hc.exists_showns
    rw [divide_cons_of_eq_zero h, edits, ih hcs, hone]
    rw [hcons] at h ⊢
    rw [Text.scanFrom_cons_of_eq_zero h]
    rfl
  | token c cs k h ih =>
    have hglyphs := hcs
    obtain ⟨hc, hcs⟩ := List.forall_mem_cons.mp hcs
    obtain ⟨d, -, hcons⟩ := hc.exists_showns
    have htake := Cell.take_showns hglyphs (k + 1)
    have hdrop : (showns (c :: cs)).drop (k + 1) = showns (cs.drop k) :=
      Cell.drop_showns hglyphs (k + 1)
    rw [divide_cons_of_eq_succ h]
    rw [hcons] at h htake hdrop ⊢
    rw [Text.scanFrom_cons_of_eq_succ h, htake, hdrop, List.filterMap_cons, editOf]
    cases treat (showns ((c :: cs).take (k + 1))) with
    | leave => rw [edits, ih fun c hc => hcs c (List.mem_of_mem_drop hc)]
    | edit r => rw [edits, ih fun c hc => hcs c (List.mem_of_mem_drop hc)]

/-! ## The row that a pass leaves -/

theorem showns_results (g : Stretch) : showns g.results = g.treatment.shown (showns g.cells) := by
  rcases g with ⟨cells, _ | _ | r⟩ <;> simp [results, Treatment.shown]

/-- **A pass rewrites the working text.** -/
theorem showns_results_divide (hcs : ∀ c ∈ cs, c.IsGlyph) :
    showns ((divide lengthAt treat cs).flatMap results) =
      Text.rewrite lengthAt (fun t => (treat t).shown t) (showns cs) := by
  induction cs using Text.scan_induction fun cs => lengthAt (showns cs) with
  | nil => rfl
  | skip c cs h ih =>
    obtain ⟨hc, hcs⟩ := List.forall_mem_cons.mp hcs
    obtain ⟨d, hone, hcons⟩ := hc.exists_showns
    rw [divide_cons_of_eq_zero h, List.flatMap_cons, Cell.showns_append, ih hcs]
    rw [hcons] at h ⊢
    rw [Text.rewrite_cons_of_eq_zero h]
    exact congrArg (· ++ _) hone
  | token c cs k h ih =>
    have hglyphs := hcs
    obtain ⟨hc, hcs⟩ := List.forall_mem_cons.mp hcs
    obtain ⟨d, -, hcons⟩ := hc.exists_showns
    have htake := Cell.take_showns hglyphs (k + 1)
    have hdrop : (showns (c :: cs)).drop (k + 1) = showns (cs.drop k) :=
      Cell.drop_showns hglyphs (k + 1)
    rw [divide_cons_of_eq_succ h, List.flatMap_cons, Cell.showns_append, showns_results,
      ih fun c hc => hcs c (List.mem_of_mem_drop hc)]
    rw [hcons] at h htake hdrop ⊢
    rw [Text.rewrite_cons_of_eq_succ h, htake, hdrop]

/-- **A pass leaves a row whose cells show single characters**, if that is what it puts in. -/
theorem isGlyph_results_divide (htreat : ∀ t, (treat t).IsSingle) (hcs : ∀ c ∈ cs, c.IsGlyph) :
    ∀ c ∈ (divide lengthAt treat cs).flatMap results, c.IsGlyph := by
  induction cs using Text.scan_induction fun cs => lengthAt (showns cs) with
  | nil => simp [divide, divideFrom]
  | skip c cs h ih =>
    obtain ⟨hc, hcs⟩ := List.forall_mem_cons.mp hcs
    rw [divide_cons_of_eq_zero h, List.flatMap_cons]
    exact List.forall_mem_cons.mpr ⟨hc, ih hcs⟩
  | token c cs k h ih =>
    rw [divide_cons_of_eq_succ h, List.flatMap_cons]
    refine List.forall_mem_append.mpr
      ⟨?_, ih fun c' hc' => hcs c' (by simp [List.mem_of_mem_drop hc'])⟩
    have htoken : ∀ c' ∈ (c :: cs).take (k + 1), c'.IsGlyph :=
      fun c' hc' => hcs c' (List.mem_of_mem_take hc')
    rcases htreat (showns ((c :: cs).take (k + 1))) with hleave | ⟨d, hedit⟩
    · rw [hleave]
      exact htoken
    · rw [hedit]
      exact List.forall_mem_singleton.mpr ⟨Cell.raws_ne_nil htoken (by simp), d, rfl⟩

/-- **A character that no token reaches over divides a row**, whatever stands on its two sides. -/
theorem exists_divide_append {as : List Cell} {x : Cell} {d : Char} (hx : x.shown = [d])
    (has : ∀ c ∈ as, c.IsGlyph) (hclear : ∀ t r, lengthAt (t ++ d :: r) ≤ t.length)
    (bs : List Cell) :
    ∃ front, divide lengthAt treat (as ++ x :: bs) =
        front ++ ⟨[x], .leave⟩ :: divide lengthAt treat bs ∧ front.flatMap cells = as := by
  have hshown : ∀ as : List Cell, showns (as ++ x :: bs) = showns as ++ d :: showns bs :=
    fun as => by simp [hx]
  generalize hcs : as ++ x :: bs = cs
  induction cs using Text.scan_induction fun cs => lengthAt (showns cs) generalizing as with
  | nil => simp at hcs
  | skip c cs h ih =>
    rw [divide_cons_of_eq_zero h]
    cases as with
    | nil =>
      obtain ⟨rfl, rfl⟩ := List.cons.inj hcs
      exact ⟨[], rfl, rfl⟩
    | cons a as =>
      obtain ⟨rfl, htail⟩ := List.cons.inj hcs
      obtain ⟨front, hfront, hcells⟩ := ih (fun c hc => has c (List.mem_cons_of_mem a hc)) htail
      exact ⟨⟨[a], .leave⟩ :: front, by rw [hfront]; rfl, by rw [List.flatMap_cons, hcells]; rfl⟩
  | token c cs k h ih =>
    rw [divide_cons_of_eq_succ h]
    have hle := hclear (showns as) (showns bs)
    rw [← hshown, hcs, h, Cell.length_showns has] at hle
    cases as with
    | nil => simp at hle
    | cons a as =>
      obtain ⟨rfl, htail⟩ := List.cons.inj hcs
      have hk : k ≤ as.length := by simpa using hle
      have htake : cs.take k = as.take k := by
        rw [← htail]
        exact List.take_append_of_le_length hk
      have hdrop : as.drop k ++ x :: bs = cs.drop k := by
        rw [← htail]
        exact (List.drop_append_of_le_length hk).symm
      obtain ⟨front, hfront, hcells⟩ :=
        ih (fun c hc => has c (List.mem_cons_of_mem a (List.mem_of_mem_drop hc))) hdrop
      refine ⟨⟨a :: as.take k, treat (showns (a :: as.take k))⟩ :: front, ?_, ?_⟩
      · rw [hfront, List.take_succ_cons, htake]
        rfl
      · rw [List.flatMap_cons, hcells, List.cons_append, List.take_append_drop]

/-! ## Rows of copied characters -/

/-- The mark that a pass leaves on a token of the source. -/
def markOf (role : Option Role) (treat : Text → Treatment) (o : Occurrence) : Option Mark :=
  match treat o.text with
  | .leave => none
  | .edit r => some ⟨o.start, o.stop, o.text, r, role⟩

theorem marks_divide_plain (role : Option Role) (n : Nat) (t : Text) :
    marks role raws n (divide lengthAt treat (t.map plain)) =
      (scanFrom lengthAt n 0 t).filterMap (markOf role treat) := by
  induction t using Text.scan_induction lengthAt generalizing n with
  | nil => rfl
  | skip c t h ih =>
    have hcells : lengthAt (showns (plain c :: t.map plain)) = 0 := by simpa [plain] using h
    rw [List.map_cons, divide_cons_of_eq_zero hcells, marks, ih, Text.scanFrom_cons_of_eq_zero h]
    rfl
  | token c t k h ih =>
    have hcells : lengthAt (showns (plain c :: t.map plain)) = k + 1 := by
      simpa [plain] using h
    have htake : (plain c :: t.map plain).take (k + 1) = ((c :: t).take (k + 1)).map plain := by
      simp
    rw [List.map_cons, divide_cons_of_eq_succ hcells, Text.scanFrom_cons_of_eq_succ h, htake,
      Cell.showns_map_plain, List.filterMap_cons, markOf]
    cases treat ((c :: t).take (k + 1)) with
    | leave => rw [marks, ← List.map_drop, ih, Cell.raws_map_plain]; rfl
    | edit r => rw [marks, ← List.map_drop, ih, Cell.raws_map_plain, Cell.showns_map_plain]; rfl

/-- **Where a token stands in the source**, and how it divides the row of its characters. -/
theorem exists_of_mem_scanFrom (treat : Text → Treatment) {t : Text} {n : Nat} {o : Occurrence}
    (ho : o ∈ scanFrom lengthAt n 0 t) :
    ∃ front rest stretches, t = front ++ o.text ++ rest ∧ o.start = n + size front ∧
      0 < lengthAt (o.text ++ rest) ∧ o.text = (o.text ++ rest).take (lengthAt (o.text ++ rest)) ∧
      divide lengthAt treat (t.map plain) = stretches ++
        ⟨o.text.map plain, treat o.text⟩ :: divide lengthAt treat (rest.map plain) ∧
      stretches.flatMap cells = front.map plain := by
  induction t using Text.scan_induction lengthAt generalizing n with
  | nil => cases ho
  | skip c t h ih =>
    have hcells : lengthAt (showns (plain c :: t.map plain)) = 0 := by simpa [plain] using h
    rw [Text.scanFrom_cons_of_eq_zero h] at ho
    obtain ⟨front, rest, stretches, rfl, hstart, hpos, htake, hdivide, hfront⟩ := ih ho
    refine ⟨c :: front, rest, ⟨[plain c], .leave⟩ :: stretches, by simp, ?_, hpos, htake, ?_, ?_⟩
    · rw [hstart, Text.size_cons, Nat.add_assoc]
    · rw [List.map_cons, divide_cons_of_eq_zero hcells, hdivide]
      rfl
    · rw [List.flatMap_cons, hfront]
      rfl
  | token c t k h ih =>
    have hcells : lengthAt (showns (plain c :: t.map plain)) = k + 1 := by
      simpa [plain] using h
    have hdivide : divide lengthAt treat ((c :: t).map plain) =
        ⟨((c :: t).take (k + 1)).map plain, treat ((c :: t).take (k + 1))⟩ ::
          divide lengthAt treat ((t.drop k).map plain) := by
      rw [List.map_cons, divide_cons_of_eq_succ hcells, ← List.map_cons, ← List.map_take,
        Cell.showns_map_plain, List.map_drop]
    rw [Text.scanFrom_cons_of_eq_succ h] at ho
    rcases List.mem_cons.mp ho with rfl | ho
    · have htext : (c :: t).take (k + 1) ++ t.drop k = c :: t := List.take_append_drop (k + 1) _
      refine ⟨[], t.drop k, [], by rw [List.nil_append, htext], by simp, ?_, ?_, hdivide, rfl⟩
      · rw [htext, h]
        omega
      · rw [htext, h]
    · obtain ⟨front, rest, stretches, hrest, hstart, hpos, htake, hdivide', hfront⟩ := ih ho
      refine ⟨(c :: t).take (k + 1) ++ front, rest,
        ⟨((c :: t).take (k + 1)).map plain, treat ((c :: t).take (k + 1))⟩ :: stretches,
        ?_, ?_, hpos, htake, ?_, ?_⟩
      · rw [List.append_assoc, List.append_assoc, ← List.append_assoc front, ← hrest]
        exact (List.take_append_drop (k + 1) (c :: t)).symm
      · rw [hstart, Text.size_append, Nat.add_assoc]
      · rw [hdivide, hdivide']
        rfl
      · rw [List.flatMap_cons, hfront, List.map_append]

/-! ## Groups of cells -/

/-- The stretch of a group of cells: it is marked, unless it shows nothing but white space. -/
def ofGroup (group : List Cell) : Stretch :=
  ⟨group, if Text.isBlank (showns group) then .leave else .edit none⟩

theorem edits_ofGroup (groups : List (List Cell)) (n : Nat) :
    edits (some .word) n (groups.map ofGroup) =
      ((Text.placed n (groups.map showns)).filter fun s => !Text.isBlank s.2).map
        fun s => .token .word s.1 s.2.size none := by
  induction groups generalizing n with
  | nil => rfl
  | cons group groups ih =>
    rw [List.map_cons, List.map_cons, Text.placed, List.filter_cons, ofGroup]
    cases h : Text.isBlank (showns group) <;> simp [edits, ih, Edit.token]

theorem flatMap_cells_ofGroup (groups : List (List Cell)) :
    (groups.map ofGroup).flatMap cells = groups.flatten := by
  rw [List.flatMap_map, ← List.flatMap_id]
  rfl

theorem flatMap_results_ofGroup (groups : List (List Cell)) :
    (groups.map ofGroup).flatMap results = groups.flatten := by
  have hresults : ∀ group, (ofGroup group).results = group := by
    intro group
    rw [ofGroup]
    cases Text.isBlank (showns group) <;> rfl
  rw [List.flatMap_map, funext hresults, ← List.flatMap_id]
  rfl

theorem treatment_ofGroup_ne (group : List Cell) :
    (ofGroup group).treatment ≠ .edit (some []) := by
  rw [ofGroup]
  split <;> simp

/-- The marks of groups are those of the groups that show something. -/
theorem mem_marks_ofGroup {groups : List (List Cell)} {m : Mark} :
    m ∈ marks (some .word) raws 0 (groups.map ofGroup) ↔
      ∃ front group back, groups = front ++ group :: back ∧
        Text.isBlank (showns group) = false ∧
        m = ⟨size (raws front.flatten), size (raws front.flatten) + size (raws group),
          showns group, none, some .word⟩ := by
  rw [mem_marks_map]
  constructor
  · rintro ⟨front, group, back, r, rfl, hr, rfl⟩
    cases hg : Text.isBlank (showns group) with
    | false =>
      obtain rfl : none = r := by simpa [ofGroup, hg] using hr
      exact ⟨front, group, back, rfl, hg, by rw [flatMap_cells_ofGroup]; rfl⟩
    | true => simp [ofGroup, hg] at hr
  · rintro ⟨front, group, back, rfl, hg, rfl⟩
    exact ⟨front, group, back, none, rfl, by simp [ofGroup, hg], by
      rw [flatMap_cells_ofGroup]; rfl⟩

end Stretch

/-! ## Passes -/

namespace Draft.IsRow

variable {lengthAt : Text → Nat} {treat : Text → Treatment} {role : Option Role}

/-- **What a pass that reads tokens makes of a draft in cells.** -/
theorem run_divide {d : Draft} {p : Pass} {cs : List Cell} (h : d.IsRow cs)
    (hcs : ∀ c ∈ cs, c.IsGlyph) (hput : ∀ t, treat t ≠ .edit (some []))
    (hedits : ∀ t, p.edits t = (Text.scan lengthAt t).filterMap (Stretch.editOf role treat)) :
    ∃ d', d.run p = .ok d' ∧
      d'.IsRow ((Stretch.divide lengthAt treat cs).flatMap Stretch.results) ∧
      d'.marks = d.marks ++ Stretch.marks role raws 0 (Stretch.divide lengthAt treat cs) := by
  have hcells := Stretch.flatMap_cells_divide lengthAt treat cs
  have hrow : d.IsRow ((Stretch.divide lengthAt treat cs).flatMap Stretch.cells) := by rwa [hcells]
  refine hrow.run_eq (fun g hg => ?_) ?_
  · rcases Stretch.mem_divide_cases hg with hleave | ⟨c, rest, n, -, -, rfl⟩
    · simp [hleave]
    · exact hput _
  · rw [hedits, h.buffer_eq, Stretch.edits_divide role hcs]
    rfl

/-- **The pass over words leaves a row as it is**, and marks the groups of cells that show its
segments. -/
theorem run_words {d : Draft} {cs : List Cell} (h : d.IsRow cs) (hcs : ∀ c ∈ cs, c.IsGlyph) :
    ∃ (d' : Draft) (groups : List (List Cell)), d.run .words = .ok d' ∧ groups.flatten = cs ∧
      groups.map showns = Text.segments (showns cs) ∧ d'.IsRow cs ∧
      d'.marks = d.marks ++ Stretch.marks (some .word) raws 0 (groups.map Stretch.ofGroup) := by
  obtain ⟨groups, rfl, hshowns⟩ :=
    Cell.exists_groups hcs (Text.flatten_segments (showns cs)).symm
  have hrow : d.IsRow ((groups.map Stretch.ofGroup).flatMap Stretch.cells) := by
    rwa [Stretch.flatMap_cells_ofGroup]
  have hput : ∀ g ∈ groups.map Stretch.ofGroup, g.treatment ≠ .edit (some []) := by
    intro g hg
    obtain ⟨group, -, rfl⟩ := List.mem_map.mp hg
    exact Stretch.treatment_ofGroup_ne group
  have hedits : Pass.words.edits d.buffer =
      Stretch.edits (some .word) 0 (groups.map Stretch.ofGroup) := by
    rw [Stretch.edits_ofGroup, hshowns, h.buffer_eq]
    rfl
  obtain ⟨d', hrun, hrow', hmarks⟩ := hrow.run_eq hput hedits
  rw [Stretch.flatMap_results_ofGroup] at hrow'
  exact ⟨d', groups, hrun, rfl, hshowns, hrow', hmarks⟩

end Draft.IsRow

end MarkupTransfer
