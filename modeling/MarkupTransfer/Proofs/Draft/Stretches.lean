import MarkupTransfer.Tokenize
import MarkupTransfer.Proofs.Draft.Cells
import MarkupTransfer.Proofs.Rows
import MarkupTransfer.Proofs.Text.Scan
/-!
# Passes that keep to cells

A pass divides a row of cells into stretches and leaves each as it is, marks it, or puts another
text in its place. The edits are stated in the working text as it was before the pass, yet the marks
end up where the stretches stand in the source, however much the replacements before them have moved
the working text.

* `Stretch.recordAll_edits`: a session takes all edits that treat stretches.
* `Draft.IsRow.commit_edits`: the marks they leave are those of the stretches in the source.
* `Draft.IsRow.run_eq`: what a pass makes of a draft in cells.
-/

namespace MarkupTransfer

open Cell (plain raws showns)
open Text (size)

/-- What a pass does to a stretch of cells: leave it alone, or edit it, with another text in its
place if one is given. -/
inductive Treatment
  | leave
  | edit (replacement : Option Text)
  deriving DecidableEq, Repr

/-- Some cells in a row and what a pass does to them. -/
structure Stretch where
  cells : List Cell
  treatment : Treatment
  deriving DecidableEq, Repr

namespace Stretch

/-- The cells that come of a stretch. -/
def results (g : Stretch) : List Cell :=
  match g.treatment with
  | .edit (some r) => [⟨raws g.cells, r⟩]
  | _ => g.cells

@[simp] theorem raws_results (g : Stretch) : raws g.results = raws g.cells := by
  rcases g with ⟨cells, _ | _ | r⟩ <;> simp [results]

theorem raws_flatMap_results (gs : List Stretch) :
    raws (gs.flatMap results) = raws (gs.flatMap cells) := by
  induction gs with
  | nil => rfl
  | cons g gs ih => simp [ih]

/-- **A cell that comes of stretches was there before**, at the same place of the source, or it is
what was put in for a stretch there. -/
theorem flatMap_results_cases {gs : List Stretch} {as bs : List Cell} {c : Cell}
    (h : gs.flatMap results = as ++ c :: bs) :
    (∃ as' bs', gs.flatMap cells = as' ++ c :: bs' ∧ raws as' = raws as) ∨
      ∃ front ms r back, gs = front ++ ⟨ms, .edit (some r)⟩ :: back ∧ c = ⟨raws ms, r⟩ ∧
        raws (front.flatMap cells) = raws as := by
  obtain ⟨front, g, back, xs, ys, rfl, hg, rfl, -⟩ := exists_of_flatMap_eq h
  have hfront : raws (front.flatMap results) = raws (front.flatMap cells) := raws_flatMap_results _
  have hkept : g.results = g.cells → ∃ as' bs',
      (front ++ g :: back).flatMap cells = as' ++ c :: bs' ∧
        raws as' = raws (front.flatMap results ++ xs) := fun hsame =>
    ⟨front.flatMap cells ++ xs, ys ++ back.flatMap cells, by simp [← hsame, hg], by simp [hfront]⟩
  rcases g with ⟨ms, _ | _ | r⟩
  · exact .inl (hkept rfl)
  · exact .inl (hkept rfl)
  · obtain _ | ⟨x, xs⟩ := xs
    · refine .inr ⟨front, ms, r, back, rfl, (List.head_eq_of_cons_eq hg).symm, ?_⟩
      rw [List.append_nil, hfront]
    · simp [results] at hg

/-- The edits that treat a row of stretches, in the role of one pass. The first stretch begins at an
offset of the working text. -/
def edits (role : Option Role) : Nat → List Stretch → List Edit
  | _, [] => []
  | n, ⟨cells, .leave⟩ :: gs => edits role (n + size (showns cells)) gs
  | n, ⟨cells, .edit r⟩ :: gs =>
    ⟨n, size (showns cells), r, role⟩ :: edits role (n + size (showns cells)) gs

/-- The marks of a row of stretches in a text of theirs, the source or the working text. -/
def marks (role : Option Role) (view : List Cell → Text) : Nat → List Stretch → List Mark
  | _, [] => []
  | n, ⟨cells, .leave⟩ :: gs => marks role view (n + size (view cells)) gs
  | n, ⟨cells, .edit r⟩ :: gs =>
    ⟨n, n + size (view cells), showns cells, r, role⟩ :: marks role view (n + size (view cells)) gs

/-! ## Stretches that a scan tells apart -/

/-- Stretches told apart by a scan of the working text: those that are edited are found as tokens,
and no token begins in those that are left alone. -/
def AreScanned (lengthAt : Text → Nat) (edit? : Text.Occurrence → Option Edit)
    (role : Option Role) : List Stretch → Prop
  | [] => True
  | ⟨cells, .leave⟩ :: gs =>
    (∀ s c r, showns cells = s ++ c :: r →
        lengthAt (c :: r ++ showns (gs.flatMap Stretch.cells)) = 0) ∧
      AreScanned lengthAt edit? role gs
  | ⟨cells, .edit r⟩ :: gs =>
    showns cells ≠ [] ∧
      lengthAt (showns cells ++ showns (gs.flatMap Stretch.cells)) = (showns cells).length ∧
      (∀ n, edit? ⟨n, showns cells⟩ = some ⟨n, size (showns cells), r, role⟩) ∧
      AreScanned lengthAt edit? role gs

theorem AreScanned.filterMap_scanFrom {lengthAt : Text → Nat}
    {edit? : Text.Occurrence → Option Edit} {role : Option Role} {gs : List Stretch}
    (h : AreScanned lengthAt edit? role gs) (n : Nat) :
    (Text.scanFrom lengthAt n 0 (showns (gs.flatMap cells))).filterMap edit? =
      edits role n gs := by
  induction gs generalizing n with
  | nil => rfl
  | cons g gs ih =>
    rw [List.flatMap_cons, Cell.showns_append]
    rcases g with ⟨cells, _ | r⟩
    · obtain ⟨hnone, hgs⟩ := h
      rw [Text.scanFrom_text hnone, ih hgs, edits]
    · obtain ⟨hne, hlength, hedit, hgs⟩ := h
      rw [Text.scanFrom_token hlength hne, List.filterMap_cons, hedit, ih hgs, edits]

/-! ## Marks in the source -/

theorem marks_append (role : Option Role) (n : Nat) (as bs : List Stretch) :
    marks role raws n (as ++ bs) =
      marks role raws n as ++ marks role raws (n + size (raws (as.flatMap cells))) bs := by
  induction as generalizing n with
  | nil => simp [marks]
  | cons g as ih => rcases g with ⟨cells, _ | r⟩ <;> simp [marks, ih, Nat.add_assoc]

/-- A mark belongs to a stretch that is edited. -/
theorem exists_of_mem_marks {role : Option Role} {n : Nat} {gs : List Stretch} {m : Mark}
    (h : m ∈ marks role raws n gs) :
    ∃ front cells r back, gs = front ++ ⟨cells, .edit r⟩ :: back ∧
      m = ⟨n + size (raws (front.flatMap Stretch.cells)),
        n + size (raws (front.flatMap Stretch.cells)) + size (raws cells), showns cells, r,
        role⟩ := by
  induction gs generalizing n with
  | nil => simp [marks] at h
  | cons g gs ih =>
    rcases g with ⟨first, _ | r⟩
    · obtain ⟨front, cells, r, back, rfl, rfl⟩ := ih h
      exact ⟨⟨first, .leave⟩ :: front, cells, r, back, by simp, by simp [Nat.add_assoc]⟩
    · rcases List.mem_cons.mp h with rfl | h
      · exact ⟨[], first, r, gs, by simp, by simp⟩
      · obtain ⟨front, cells, r', back, rfl, rfl⟩ := ih h
        exact ⟨⟨first, .edit r⟩ :: front, cells, r', back, by simp, by simp [Nat.add_assoc]⟩

theorem le_start_of_mem_marks {role : Option Role} {n : Nat} {gs : List Stretch} {m : Mark}
    (h : m ∈ marks role raws n gs) : n ≤ m.start := by
  obtain ⟨_, _, _, _, -, rfl⟩ := exists_of_mem_marks h
  exact Nat.le_add_right n _

theorem stop_le_of_mem_marks {role : Option Role} {n : Nat} {gs : List Stretch} {m : Mark}
    (h : m ∈ marks role raws n gs) : m.stop ≤ n + size (raws (gs.flatMap cells)) := by
  obtain ⟨front, cells, _, back, rfl, rfl⟩ := exists_of_mem_marks h
  simp only [List.flatMap_append, List.flatMap_cons, Cell.raws_append, Text.size_append]
  omega

/-- No mark of a pass meets a stretch that is left alone. -/
theorem apart_of_mem_marks {role : Option Role} {n : Nat} {front back : List Stretch}
    {cells : List Cell} {m : Mark} (h : m ∈ marks role raws n (front ++ ⟨cells, .leave⟩ :: back)) :
    m.stop ≤ n + size (raws (front.flatMap Stretch.cells)) ∨
      n + size (raws (front.flatMap Stretch.cells)) + size (raws cells) ≤ m.start := by
  rw [marks_append] at h
  rcases List.mem_append.mp h with h | h
  · exact .inl (stop_le_of_mem_marks h)
  · exact .inr (le_start_of_mem_marks h)

theorem role_of_mem_marks {role : Option Role} {n : Nat} {gs : List Stretch} {m : Mark}
    (h : m ∈ marks role raws n gs) : m.role = role := by
  obtain ⟨_, _, _, _, -, rfl⟩ := exists_of_mem_marks h
  rfl

/-- The marks of stretches that come of a list. -/
theorem mem_marks_map {α : Type} {f : α → Stretch} {role : Option Role} {as : List α}
    {m : Mark} :
    m ∈ marks role raws 0 (as.map f) ↔
      ∃ front a back r, as = front ++ a :: back ∧ (f a).treatment = .edit r ∧
        m = ⟨size (raws ((front.map f).flatMap Stretch.cells)),
          size (raws ((front.map f).flatMap Stretch.cells)) + size (raws (f a).cells),
          showns (f a).cells, r, role⟩ := by
  constructor
  · intro h
    obtain ⟨front', cells, r, back', hgs, rfl⟩ := exists_of_mem_marks h
    obtain ⟨front, rest, rfl, rfl, hrest⟩ := List.map_eq_append_iff.mp hgs
    obtain ⟨a, back, rfl, ha, rfl⟩ := List.map_eq_cons_iff.mp hrest
    exact ⟨front, a, back, r, rfl, by rw [ha], by simp [ha]⟩
  · rintro ⟨front, a, back, r, rfl, hr, rfl⟩
    rw [List.map_append, List.map_cons, marks_append]
    refine List.mem_append_right _ ?_
    cases hf : f a with
    | mk cells treatment =>
      obtain rfl : treatment = .edit r := by simpa [hf] using hr
      simp [marks]

/-- The marks of a pass follow each other in the source. -/
theorem marks_pairwise (role : Option Role) (n : Nat) (gs : List Stretch) :
    (marks role raws n gs).Pairwise fun a b => a.stop ≤ b.start := by
  induction gs generalizing n with
  | nil => exact .nil
  | cons g gs ih =>
    rcases g with ⟨cells, _ | r⟩
    · exact ih _
    · exact List.pairwise_cons.mpr ⟨fun m hm => le_start_of_mem_marks hm, ih _⟩

/-! ## The session -/

theorem refusal?_eq_none {s : Session} {front rest : Text} {cells : List Cell} {r : Option Text}
    {role : Option Role} (htext : s.text = front ++ showns cells ++ rest) (hr : r ≠ some [])
    (hlimit : s.limit ≤ size front) :
    s.refusal? ⟨size front, size (showns cells), r, role⟩ = none := by
  have hstart : Text.isBoundary s.text (size front) = true := by
    rw [htext, List.append_assoc]
    exact Text.isBoundary_append_size _ _
  have hstop : Text.isBoundary s.text (size front + size (showns cells)) = true := by
    rw [htext, ← Text.size_append]
    exact Text.isBoundary_append_size _ _
  have hsize : size front + size (showns cells) ≤ size s.text := by
    rw [htext, Text.size_append, Text.size_append]
    omega
  simp only [Session.refusal?, Edit.stop]
  rw [if_neg (Nat.not_lt.mpr hsize), if_neg (by simp [hstart, hstop]), if_neg (by simp [hr]),
    if_neg (Nat.not_lt.mpr hlimit)]

/-- **A session takes all edits that treat stretches.** -/
theorem recordAll_edits {s : Session} {role : Option Role} {front : Text} {gs : List Stretch}
    (htext : s.text = front ++ showns (gs.flatMap cells))
    (hput : ∀ g ∈ gs, g.treatment ≠ .edit (some [])) (hlimit : s.limit ≤ size front) :
    s.recordAll (edits role (size front) gs) =
      ({ s with pending := s.pending ++ marks role showns (size front) gs }, none) := by
  induction gs generalizing s front with
  | nil => simp [edits, marks, Session.recordAll]
  | cons g gs ih =>
    have hput' : ∀ g ∈ gs, g.treatment ≠ .edit (some []) := fun g hg => hput g (by simp [hg])
    rcases g with ⟨cells, _ | r⟩
    · have htext' : s.text = front ++ showns cells ++ showns (gs.flatMap Stretch.cells) := by
        simpa using htext
      have := ih htext' hput' (by rw [Text.size_append]; omega)
      simpa [edits, marks] using this
    · have hr : r ≠ some [] := fun h => hput ⟨cells, .edit r⟩ (by simp) (by rw [h])
      have hmark : s.mark ⟨size front, size (showns cells), r, role⟩ =
          ⟨size front, size front + size (showns cells), showns cells, r, role⟩ := by
        simp only [Session.mark, Edit.stop, htext, List.flatMap_cons, Cell.showns_append]
        rw [← List.append_assoc, Text.slice_size]
      have hrecord : s.record ⟨size front, size (showns cells), r, role⟩ =
          .ok { s with pending := s.pending ++
            [⟨size front, size front + size (showns cells), showns cells, r, role⟩] } := by
        rw [Session.record, refusal?_eq_none (by simpa using htext) hr hlimit, hmark]
      rw [edits, Session.recordAll, hrecord, ← Text.size_append]
      simp only
      rw [ih (by simpa using htext) hput']
      · simp [marks]
      · simp only [Session.limit, List.getLast?_concat, Text.size_append]
        split <;> omega

end Stretch

namespace Draft.IsRow

/-! ## The commit -/

theorem anchor_eq {d : Draft} {as ms bs : List Cell} (h : d.IsRow (as ++ ms ++ bs)) (m : Mark) :
    d.anchor m (size (showns as)) (size (showns (as ++ ms))) =
      { m with start := size (raws as), stop := size (raws (as ++ ms)) } := by
  have hstart : d.provenance.startOf (size (showns as)) = size (raws as) :=
    startOf_eq (by simpa using h)
  rw [Draft.anchor, hstart, h.stopFrom_eq]

/-- **The marks of stretches end up where the stretches stand in the source**, and what was put in
their place stands for them. So far a session has changed the stretches in front to `done`. -/
theorem apply_marks {d : Draft} {role : Option Role} {grown shrunk n : Nat} {done : List Cell}
    {gs : List Stretch} (h : d.IsRow (done ++ gs.flatMap Stretch.cells))
    (hput : ∀ g ∈ gs, g.treatment ≠ .edit (some []))
    (hn : n + grown = size (showns done) + shrunk) :
    (d.apply grown shrunk (Stretch.marks role showns n gs)).IsRow
        (done ++ gs.flatMap Stretch.results) ∧
      (d.apply grown shrunk (Stretch.marks role showns n gs)).marks =
        d.marks ++ Stretch.marks role raws (size (raws done)) gs := by
  induction gs generalizing d grown shrunk n done with
  | nil => simpa [Stretch.marks, Draft.apply] using h
  | cons g gs ih =>
    have hput' : ∀ g ∈ gs, g.treatment ≠ .edit (some []) := fun g hg => hput g (by simp [hg])
    have hstart : n + grown - shrunk = size (showns done) := by omega
    obtain ⟨cells, treatment⟩ := g
    have hrow : d.IsRow (done ++ cells ++ gs.flatMap Stretch.cells) := by simpa using h
    have hsize : size (showns (done ++ cells)) = size (showns done) + size (showns cells) := by
      rw [Cell.showns_append, Text.size_append]
    have hbehind : n + size (showns cells) + grown = size (showns (done ++ cells)) + shrunk := by
      omega
    have hstop : n + size (showns cells) + grown - shrunk = size (showns (done ++ cells)) := by
      omega
    rcases treatment with _ | r
    · have := ih hrow hput' hbehind
      simpa [Stretch.marks, Stretch.results] using this
    have hanchor := hrow.anchor_eq ⟨n, n + size (showns cells), showns cells, r, role⟩
    cases r with
    | none =>
      have hmarked : Draft.IsRow
          { d with marks := d.marks ++
            [⟨size (raws done), size (raws (done ++ cells)), showns cells, none, role⟩] }
          (done ++ cells ++ gs.flatMap Stretch.cells) :=
        ⟨hrow.source_eq, hrow.buffer_eq, hrow.covers, hrow.sourceSize_eq⟩
      rw [Stretch.marks, Draft.apply]
      simp only [hstart, hstop, hanchor]
      have := ih hmarked hput' hbehind
      simpa [Stretch.marks, Stretch.results] using this
    | some r =>
      have hr : r ≠ [] := fun h => hput ⟨cells, .edit (some r)⟩ (by simp) (by rw [h])
      have hchanged := hrow.replace hr (d.marks ++
        [⟨size (raws done), size (raws (done ++ cells)), showns cells, some r, role⟩])
      rw [Stretch.marks, Draft.apply]
      simp only [hstart, hstop, hanchor]
      have hbehind' : n + size (showns cells) + (grown + size r) =
          size (showns (done ++ [⟨raws cells, r⟩])) +
            (shrunk + (size (showns (done ++ cells)) - size (showns done))) := by
        have : size (showns (done ++ [⟨raws cells, r⟩])) = size (showns done) + size r := by simp
        omega
      have := ih hchanged hput' hbehind'
      simpa [Stretch.marks, Stretch.results] using this

/-- **What a pass makes of a draft in cells.** -/
theorem run_eq {d : Draft} {p : Pass} {role : Option Role} {gs : List Stretch}
    (h : d.IsRow (gs.flatMap Stretch.cells)) (hput : ∀ g ∈ gs, g.treatment ≠ .edit (some []))
    (hedits : p.edits d.buffer = Stretch.edits role 0 gs) :
    ∃ d', d.run p = .ok d' ∧ d'.IsRow (gs.flatMap Stretch.results) ∧
      d'.marks = d.marks ++ Stretch.marks role raws 0 gs := by
  have htext : d.edit.text = [] ++ showns (gs.flatMap Stretch.cells) := h.buffer_eq
  have hsession : d.edit.recordAll (p.edits d.buffer) =
      (⟨d.buffer, Stretch.marks role showns 0 gs⟩, none) := by
    rw [hedits]
    exact Stretch.recordAll_edits htext hput (Nat.le_refl 0)
  have hrow : d.IsRow ([] ++ gs.flatMap Stretch.cells) := h
  have hn : 0 + 0 = size (showns []) + 0 := rfl
  obtain ⟨hrow', hmarks⟩ := hrow.apply_marks hput hn
  refine ⟨d.apply 0 0 (Stretch.marks role showns 0 gs), ?_, hrow', hmarks⟩
  rw [Draft.run, hsession]
  rfl

/-- What a pass makes of a draft in cells that its scan tells apart. -/
theorem run_eq_of_areScanned {d : Draft} {p : Pass} {lengthAt : Text → Nat}
    {edit? : Text.Occurrence → Option Edit} {role : Option Role} {gs : List Stretch}
    (h : d.IsRow (gs.flatMap Stretch.cells)) (hput : ∀ g ∈ gs, g.treatment ≠ .edit (some []))
    (hscan : Stretch.AreScanned lengthAt edit? role gs)
    (hedits : ∀ t, p.edits t = (Text.scan lengthAt t).filterMap edit?) :
    ∃ d', d.run p = .ok d' ∧ d'.IsRow (gs.flatMap Stretch.results) ∧
      d'.marks = d.marks ++ Stretch.marks role raws 0 gs := by
  refine h.run_eq hput ?_
  rw [hedits, h.buffer_eq]
  exact hscan.filterMap_scanFrom 0

end Draft.IsRow

end MarkupTransfer
