import MarkupTransfer.Proofs.Draft.Reachable
import MarkupTransfer.Proofs.Draft.Woven
/-!
# What committing a session does

The marks of a session are stated in the positions of the text it was opened on, and applied one
after another to a text that changes under them. Still the outcome is that of replacing all ranges
at once, no position is ever out of place, and every mark finds its way back to the source.

* `Session.IsOrderly`: what the checks of a session ensure about its marks.
* `Draft.IsWoven`: the invariant of drafts, which a replacement keeps (`IsWoven.replace`).
* `Draft.Progress`: how far a commit has come; `apply_carries` is the run from there to the end.
* `Draft.commit_of_reachable`: what a commit does to any draft that sessions lead to.
-/

namespace MarkupTransfer

open Text (size isBoundary slice)

/-! ## The marks of a session -/

namespace Mark

/-- Where the next mark may begin at the earliest. -/
def limit (m : Mark) : Nat := if m.replacement.isSome then m.stop else m.start

/-- A mark covers a part of a text. It is taken out only at either end of the text. -/
def FitsIn (t : Text) (m : Mark) : Prop :=
  ∃ front back, t = front ++ m.text ++ back ∧ m.start = size front ∧
    m.stop = size front + size m.text ∧ (m.replacement = some [] → front = [] ∨ back = [])

/-- A text from a place on, with the ranges of marks replaced, all at once. -/
def substitute (t : Text) (cursor : Nat) : List Mark → Text
  | [] => t.after cursor
  | m :: rest =>
    match m.replacement with
    | none => substitute t cursor rest
    | some r => t.slice cursor m.start ++ r ++ substitute t m.stop rest

theorem FitsIn.start_le_limit {t : Text} {m : Mark} (h : m.FitsIn t) : m.start ≤ m.limit := by
  obtain ⟨front, back, -, hstart, hstop, -⟩ := h
  rw [limit]
  split <;> omega

end Mark

namespace Session

/-- Marks cover parts of the text, and follow each other where they replace something. -/
structure IsOrderly (s : Session) : Prop where
  fits : ∀ m ∈ s.pending, m.FitsIn s.text
  ascending : s.pending.Pairwise fun a b => a.limit ≤ b.start

theorem limit_concat (t : Text) (ms : List Mark) (m : Mark) :
    (⟨t, ms ++ [m]⟩ : Session).limit = m.limit := by
  simp [limit, Mark.limit]

/-- What has been checked of an edit that is not turned down. -/
theorem refusal?_eq_none {s : Session} {e : Edit} (h : s.refusal? e = none) :
    s.text.isBoundary e.start = true ∧ s.text.isBoundary e.stop = true ∧
      (e.replacement = some [] → e.start = 0 ∨ e.stop = size s.text) ∧ s.limit ≤ e.start := by
  simp only [refusal?] at h
  split at h
  · cases h
  split at h
  · cases h
  next hboundary =>
  split at h
  · cases h
  next hside =>
  split at h
  · cases h
  next hlimit =>
  simp only [Bool.not_eq_true', Bool.not_eq_false, Bool.and_eq_true] at hboundary
  refine ⟨hboundary.1, hboundary.2, fun hr => ?_, by omega⟩
  simp only [hr, true_and, not_and_or, not_not] at hside
  exact hside

theorem fitsIn_mark {s : Session} {e : Edit} (h : s.refusal? e = none) :
    (s.mark e).FitsIn s.text := by
  obtain ⟨hstart, hstop, hside, -⟩ := refusal?_eq_none h
  obtain ⟨front, rest, ht, hfront⟩ := Text.exists_eq_append_of_isBoundary hstart
  obtain ⟨x, back, ht', hx⟩ := Text.exists_eq_append_of_isBoundary hstop
  obtain ⟨covered, rfl, rfl⟩ := Text.exists_eq_append_of_size_le (ht.symm.trans ht')
    (by rw [hfront, hx, Edit.stop]; omega)
  rw [Text.size_append] at hx
  have htext : (s.mark e).text = covered := by
    rw [mark, ht', ← hfront, ← hx]
    exact Text.slice_size front covered back
  refine ⟨front, back, by rw [htext, ht'], hfront.symm, by rw [htext, hx]; rfl, fun hr => ?_⟩
  rcases hside hr with h0 | hend
  · exact .inl (Text.size_eq_zero.mp (hfront.trans h0))
  · rw [ht', Text.size_append, Text.size_append] at hend
    exact .inr (Text.size_eq_zero.mp (by omega))

theorem isOrderly_ofText (t : Text) : (ofText t).IsOrderly := ⟨by simp [ofText], .nil⟩

/-- **An edit that is not turned down leaves the session orderly.** -/
theorem IsOrderly.record {s s' : Session} (h : s.IsOrderly) {e : Edit}
    (he : s.record e = .ok s') : s'.IsOrderly ∧ s'.text = s.text := by
  rw [Session.record] at he
  split at he
  · cases he
  next hnone =>
  obtain rfl := Except.ok.inj he
  refine ⟨⟨?_, List.pairwise_append.mpr ⟨h.ascending, List.pairwise_singleton _ _, ?_⟩⟩, rfl⟩
  · intro m hm
    rcases List.mem_append.mp hm with hm | hm
    · exact h.fits m hm
    · obtain rfl := List.mem_singleton.mp hm
      exact fitsIn_mark (s := s) hnone
  · intro a ha b hb
    rw [List.mem_singleton.mp hb]
    refine Nat.le_trans ?_ (refusal?_eq_none hnone).2.2.2
    obtain ⟨t, pending⟩ := s
    rcases List.eq_nil_or_concat pending with rfl | ⟨ms, last, rfl⟩
    · cases ha
    · rw [List.concat_eq_append] at h ha ⊢
      rw [limit_concat]
      rcases List.mem_append.mp ha with hfront | hlast
      · have hle := (List.pairwise_append.mp h.ascending).2.2 a hfront last (by simp)
        exact Nat.le_trans hle (h.fits last (by simp)).start_le_limit
      · rw [List.mem_singleton.mp hlast]

theorem IsOrderly.recordEach {s : Session} (h : s.IsOrderly) (edits : List Edit) :
    (s.recordEach edits).IsOrderly ∧ (s.recordEach edits).text = s.text := by
  induction edits generalizing s with
  | nil => exact ⟨h, rfl⟩
  | cons e rest ih =>
    rw [Session.recordEach]
    split
    · next s' hs' =>
      obtain ⟨horderly, htext⟩ := h.record hs'
      exact ⟨(ih horderly).1, (ih horderly).2.trans htext⟩
    · exact ih h

/-- Where no edit is turned down it makes no difference whether the first one that is ends the
session. -/
theorem recordEach_of_recordAll {s s' : Session} {edits : List Edit}
    (h : s.recordAll edits = (s', none)) : s.recordEach edits = s' := by
  induction edits generalizing s with
  | nil => exact (Prod.mk.inj h).1
  | cons e rest ih =>
    rw [recordAll] at h
    rw [Session.recordEach]
    split at h
    · next hs => simpa only [hs] using ih h
    · simp at h

end Session

/-! ## Drafts and their pieces -/

theorem Text.splice_append (front covered back r : Text) :
    Text.splice (front ++ covered ++ back) (size front) (size front + size covered) r =
      front ++ r ++ back := by
  rw [Text.splice, ← Text.size_append, Text.after_append_size, List.append_assoc front covered,
    Text.before_append_size]

/-- A mark covers a range of the source that begins and ends at the edges of characters. -/
structure Mark.IsAnchored (source : Text) (m : Mark) : Prop where
  start_le_stop : m.start ≤ m.stop
  stop_le : m.stop ≤ size source
  isBoundary_start : source.isBoundary m.start = true
  isBoundary_stop : source.isBoundary m.stop = true

namespace Draft

open Piece (takeFront dropFront)

/-- A draft with one more mark. -/
def addMark (d : Draft) (m : Mark) : Draft := { d with marks := d.marks ++ [m] }

/-- A draft with a range of its working text replaced. -/
def splice (d : Draft) (start stop : Nat) (r : Text) : Draft :=
  { d with
    buffer := d.buffer.splice start stop r
    provenance := d.provenance.replace start stop (size r) }

@[simp] theorem marks_addMark (d : Draft) (m : Mark) : (d.addMark m).marks = d.marks ++ [m] := rfl

@[simp] theorem marks_splice (d : Draft) (start stop : Nat) (r : Text) :
    (d.splice start stop r).marks = d.marks := rfl

/-- The working text of a draft is woven of its pieces, and its marks are anchored. -/
structure IsWoven (source : Text) (d : Draft) : Prop where
  reachable : Provenance.Reachable (size source) d.provenance
  woven : Piece.Woven source d.provenance.pieces d.buffer
  apart : Piece.AreApart d.provenance.pieces
  anchored : ∀ m ∈ d.marks, m.IsAnchored source

namespace IsWoven

variable {source front covered back : Text} {d : Draft}

theorem size_provenance (h : d.IsWoven source) : d.provenance.size = size d.buffer :=
  h.woven.totalLength_eq

theorem ofText (source : Text) : (Draft.ofText source).IsWoven source where
  reachable := .identity
  woven := by
    by_cases hs : source = []
    · subst hs
      exact .nil
    · have hsize : size source ≠ 0 := mt Text.size_eq_zero.mp hs
      have hsource : source = [] ++ source ++ [] := by simp
      have hshows : Piece.Shows source (.copied 0 (size source)) source := .copied hsource
      simpa [Draft.ofText, Provenance.identity, hsize] using Piece.Woven.cons hs hshows .nil
  apart := by
    rw [Draft.ofText, Provenance.identity]
    split
    · exact .nil
    · exact .singleton _
  anchored := by simp [Draft.ofText]

theorem isBoundary_startOf (h : d.IsWoven source) (hbuffer : d.buffer = front ++ back) :
    source.isBoundary (d.provenance.startOf (size front)) = true := by
  have hwoven := h.woven
  rw [hbuffer] at hwoven
  rw [Provenance.startOf, h.reachable.sourceSize_eq]
  exact hwoven.isBoundary_startIn

theorem isBoundary_stopFrom (h : d.IsWoven source) (hbuffer : d.buffer = front ++ covered ++ back) :
    source.isBoundary (d.provenance.stopFrom (size front) (size front + size covered)) = true := by
  have hstart : source.isBoundary (d.provenance.startOf (size front)) = true :=
    h.isBoundary_startOf (hbuffer.trans (List.append_assoc _ _ _))
  have hstop : source.isBoundary (d.provenance.stopOf (size front + size covered)) = true := by
    have hwoven := h.woven
    rw [hbuffer] at hwoven
    rw [Provenance.stopOf, h.reachable.sourceSize_eq]
    split
    · exact Text.isBoundary_size_of_append [] source rfl
    · rw [← Text.size_append]
      exact hwoven.isBoundary_stopIn
  rw [Provenance.stopFrom]
  rcases Nat.le_total (d.provenance.stopOf (size front + size covered))
    (d.provenance.startOf (size front)) with hle | hle
  · rwa [Nat.max_eq_right hle]
  · rwa [Nat.max_eq_left hle]

/-- **Marks are anchored in the source**, whatever has become of the working text. -/
theorem anchor (h : d.IsWoven source) (hbuffer : d.buffer = front ++ covered ++ back) (m : Mark) :
    (d.anchor m (size front) (size front + size covered)).IsAnchored source where
  start_le_stop := Nat.le_max_right _ _
  stop_le := by
    rw [← h.reachable.sourceSize_eq]
    exact h.reachable.isOrdered.stopFrom_le _ _
  isBoundary_start := h.isBoundary_startOf (hbuffer.trans (List.append_assoc _ _ _))
  isBoundary_stop := h.isBoundary_stopFrom hbuffer

/-- **A mark of copied text is anchored where the text was copied from.** -/
theorem slice_anchor (h : d.IsWoven source) (hbuffer : d.buffer = front ++ covered ++ back)
    (hne : covered ≠ []) (hcopied : ∀ k, size front ≤ k → k < size front + size covered →
      d.provenance.isCopiedAt k = true) (m : Mark) :
    source.slice (d.anchor m (size front) (size front + size covered)).start
      (d.anchor m (size front) (size front + size covered)).stop = covered := by
  have hsize := h.reachable.sourceSize_eq
  have hpos := Nat.pos_of_ne_zero (mt Text.size_eq_zero.mp hne)
  have hle : d.provenance.startOf (size front) ≤
      d.provenance.stopOf (size front + size covered) := by
    refine h.reachable.isOrdered.startOf_le_stopOf (by omega) ?_
    rw [h.size_provenance, hbuffer, Text.size_append, Text.size_append]
    omega
  have hwoven := h.woven
  rw [hbuffer] at hwoven
  rw [Draft.anchor, Provenance.stopFrom, Nat.max_eq_left hle, Provenance.startOf,
    Provenance.stopOf, if_neg (by omega), hsize]
  exact hwoven.slice_eq hne h.apart hcopied

theorem addMark (h : d.IsWoven source) {m : Mark} (hm : m.IsAnchored source) :
    (d.addMark m).IsWoven source where
  reachable := h.reachable
  woven := h.woven
  apart := h.apart
  anchored := fun n hn => by
    rcases List.mem_append.mp hn with hn | hn
    · exact h.anchored n hn
    · rwa [List.mem_singleton.mp hn]

/-- **Replacing a range keeps the working text woven.** Something may be taken out only where what
is in front was put in, or at the end. -/
theorem splice (h : d.IsWoven source) (hbuffer : d.buffer = front ++ covered ++ back) {r : Text}
    (hside : r = [] →
      (∀ p ∈ takeFront (size front) d.provenance.pieces, p.isCopied = false) ∨ back = []) :
    (d.splice (size front) (size front + size covered) r).IsWoven source where
  reachable := by
    refine .replace _ h.reachable (Nat.le_add_right _ _) ?_
    rw [h.size_provenance, hbuffer, Text.size_append, Text.size_append]
    omega
  woven := by
    have hwoven := h.woven
    rw [hbuffer] at hwoven
    have hfront := (Piece.Woven.cut (show Piece.Woven source d.provenance.pieces
      (front ++ (covered ++ back)) by simpa using hwoven)).1
    have hback := hwoven.cut.2
    rw [Text.size_append] at hback
    simp only [Draft.splice, hbuffer, Text.splice_append]
    refine (hfront.append ?_).append hback
    by_cases hr : r = []
    · subst hr
      exact .nil
    · have hshows : Piece.Shows source (.replaced (size r) (d.provenance.startOf (size front))
          (d.provenance.stopFrom (size front) (size front + size covered))) r :=
        .replaced (h.isBoundary_startOf (hbuffer.trans (List.append_assoc _ _ _)))
          (h.isBoundary_stopFrom hbuffer)
      rw [if_neg (mt Text.size_eq_zero.mp hr)]
      simpa using Piece.Woven.cons hr hshows .nil
  apart := by
    refine Provenance.areApart_replace h.apart fun hr => ?_
    refine (hside (Text.size_eq_zero.mp hr)).imp_right fun hnil => ?_
    subst hnil
    have hwoven := h.woven
    rw [hbuffer] at hwoven
    rw [← Text.size_append]
    exact hwoven.cut.2.eq_nil
  anchored := h.anchored

end IsWoven

end Draft

/-! ## Committing with every step checked -/

/-- A text with what stands between two offsets replaced, if they are in order and both stand at the
edge of a character. -/
def Text.splice? (t : Text) (start stop : Nat) (replacement : Text) : Option Text :=
  if start ≤ stop ∧ t.isBoundary start = true ∧ t.isBoundary stop = true then
    some (t.splice start stop replacement)
  else none

theorem Text.splice?_append (front covered back r : Text) :
    Text.splice? (front ++ covered ++ back) (size front) (size front + size covered) r =
      some (front ++ r ++ back) := by
  have hstart : isBoundary (front ++ covered ++ back) (size front) = true :=
    isBoundary_size_of_append front (covered ++ back) (List.append_assoc _ _ _)
  have hstop : isBoundary (front ++ covered ++ back) (size front + size covered) = true := by
    rw [← size_append]
    exact isBoundary_append_size _ _
  rw [splice?, if_pos ⟨by omega, hstart, hstop⟩, splice_append]

/-- A draft with the positions of its pieces written out. -/
structure PlacedDraft where
  buffer : Text
  marks : List Mark
  positions : PositionMap

namespace PlacedDraft

/-- Apply marks in order, as long as no position falls below zero, out of the text or inside a
character. -/
def applyMarks? (grown shrunk : Nat) (d : PlacedDraft) : List Mark → Option PlacedDraft
  | [] => some d
  | m :: rest => do
    let start ← (m.start + grown).psub shrunk
    let stop ← (m.stop + grown).psub shrunk
    let first ← d.positions.startOf? start
    let last ← d.positions.stopOf? stop
    let marked := { d with marks := d.marks ++ [{ m with start := first, stop := max last first }] }
    match m.replacement with
    | none => applyMarks? grown shrunk marked rest
    | some r => do
      let buffer ← d.buffer.splice? start stop r
      let positions ← d.positions.replace? start stop r.size
      let taken ← stop.psub start
      applyMarks? (grown + r.size) (shrunk + taken)
        { marked with buffer := buffer, positions := positions } rest

end PlacedDraft

namespace Draft

open Piece (takeFront dropFront)

/-- A draft with the positions of its pieces written out. -/
def placed (d : Draft) : PlacedDraft := ⟨d.buffer, d.marks, d.provenance.placed⟩

/-! ## How far a commit has come -/

/-- Of the text that a session was opened on, `front` has become `done`, and `rest` is untouched.
The replacements so far have added `grown` bytes and taken `shrunk` bytes. As long as they were all
made at the very front, there is nothing in front that was copied. -/
structure Progress (opened d : Draft) (front done rest : Text) (grown shrunk : Nat) : Prop where
  opened_eq : opened.buffer = front ++ rest
  buffer_eq : d.buffer = done ++ rest
  balance : size done + shrunk = size front + grown
  isCopiedAt_eq : ∀ k, d.provenance.isCopiedAt (size done + k) =
    opened.provenance.isCopiedAt (size front + k)
  put_in : front = [] → ∀ p ∈ takeFront (size done) d.provenance.pieces, p.isCopied = false

/-- What a mark of a text becomes in the source. If everything it covers was copied, it covers the
same text there. -/
structure Anchors (source : Text) (opened : Draft) (m anchored : Mark) : Prop where
  text_eq : anchored.text = m.text
  replacement_eq : anchored.replacement = m.replacement
  role_eq : anchored.role = m.role
  slice_eq : m.start < m.stop →
    (∀ k, m.start ≤ k → k < m.stop → opened.provenance.isCopiedAt k = true) →
      source.slice anchored.start anchored.stop = m.text

namespace Progress

variable {source front done rest covered mid back r : Text} {opened d : Draft}
  {grown shrunk : Nat} {m : Mark}

theorem start (d : Draft) : Progress d d [] [] d.buffer 0 0 where
  opened_eq := rfl
  buffer_eq := rfl
  balance := rfl
  isCopiedAt_eq _ := rfl
  put_in _ p hp := by
    rw [Text.size_nil, Piece.takeFront_zero] at hp
    cases hp

/-- **A mark is where it should be**: moved by what the replacements have added and taken, its range
covers the same text as in the text that the session was opened on. -/
theorem locate (h : Progress opened d front done rest grown shrunk) (hm : m.FitsIn opened.buffer)
    (hle : size front ≤ m.start) :
    ∃ mid back, opened.buffer = front ++ mid ++ m.text ++ back ∧
      d.buffer = done ++ mid ++ m.text ++ back ∧ m.start = size (front ++ mid) ∧
      m.stop = size (front ++ mid) + size m.text ∧
      m.start + grown = size (done ++ mid) + shrunk ∧
      m.stop + grown = size (done ++ mid) + size m.text + shrunk ∧
      (m.replacement = some [] → front ++ mid = [] ∨ back = []) := by
  obtain ⟨before, back, ht, hstart, hstop, hside⟩ := hm
  have hbalance := h.balance
  have hopened := h.opened_eq
  rw [ht, List.append_assoc] at hopened
  obtain ⟨mid, rfl, hrest⟩ := Text.exists_eq_append_of_size_le hopened.symm (by omega)
  refine ⟨mid, back, ht, ?_, hstart, hstop, ?_, ?_, hside⟩
  · rw [h.buffer_eq, hrest]
    simp
  · rw [hstart, Text.size_append, Text.size_append]
    omega
  · rw [hstop, Text.size_append, Text.size_append]
    omega

theorem addMark (h : Progress opened d front done rest grown shrunk) (m : Mark) :
    Progress opened (d.addMark m) front done rest grown shrunk :=
  ⟨h.opened_eq, h.buffer_eq, h.balance, h.isCopiedAt_eq, h.put_in⟩

/-- What is in front of a range can be taken to be put in if there was nothing in front of it. -/
theorem isCopied_of_takeFront (h : Progress opened d front done rest grown shrunk)
    (hnil : front ++ mid = []) :
    ∀ p ∈ takeFront (size (done ++ mid)) d.provenance.pieces, p.isCopied = false := by
  obtain ⟨hfront, rfl⟩ := List.append_eq_nil_iff.mp hnil
  rw [List.append_nil]
  exact h.put_in hfront

/-- **A replacement takes a commit further.** -/
theorem splice (h : Progress opened d front done rest grown shrunk) (hd : d.IsWoven source)
    (hopened : opened.buffer = front ++ mid ++ covered ++ back)
    (hbuffer : d.buffer = done ++ mid ++ covered ++ back) (r : Text) :
    Progress opened (d.splice (size (done ++ mid)) (size (done ++ mid) + size covered) r)
      (front ++ mid ++ covered) (done ++ mid ++ r) back (grown + size r)
      (shrunk + size covered) where
  opened_eq := hopened
  buffer_eq := by simp only [Draft.splice, hbuffer, Text.splice_append]
  balance := by
    have := h.balance
    simp only [Text.size_append]
    omega
  isCopiedAt_eq k := by
    have hsize := hd.size_provenance
    rw [hbuffer, Text.size_append, Text.size_append] at hsize
    have hle : size (done ++ mid) ≤ d.provenance.size := by omega
    obtain ⟨-, -, hbehind⟩ := Provenance.isCopiedAt_replace hle
      (size (done ++ mid) + size covered) (size r)
    have hrest := h.isCopiedAt_eq (size mid + size covered + k)
    rw [Draft.splice, Text.size_append (done ++ mid), hbehind, Text.size_append, Text.size_append,
      Text.size_append]
    simpa only [Nat.add_assoc] using hrest
  put_in hnil p hp := by
    obtain ⟨hfront, rfl⟩ := List.append_eq_nil_iff.mp hnil
    have hsize := hd.size_provenance
    rw [hbuffer, Text.size_append, Text.size_append] at hsize
    rw [Draft.splice, Text.size_append,
      Provenance.takeFront_replace hd.reachable.isOrdered.length_pos (by omega)] at hp
    rcases List.mem_append.mp hp with hp | hp
    · exact h.isCopied_of_takeFront hfront p hp
    · split at hp
      · cases hp
      · rw [List.mem_singleton.mp hp]
        rfl

/-- **A mark is anchored where its text came from.** -/
theorem anchors (h : Progress opened d front done rest grown shrunk) (hd : d.IsWoven source)
    (hbuffer : d.buffer = done ++ mid ++ m.text ++ back) (hstart : m.start = size (front ++ mid))
    (hstop : m.stop = size (front ++ mid) + size m.text) :
    Anchors source opened m
      (d.anchor m (size (done ++ mid)) (size (done ++ mid) + size m.text)) where
  text_eq := rfl
  replacement_eq := rfl
  role_eq := rfl
  slice_eq hlt hcopied := by
    have hne : m.text ≠ [] := fun hnil => by
      rw [hstart, hstop, hnil, Text.size_nil] at hlt
      omega
    refine hd.slice_anchor hbuffer hne (fun k hk hlt => ?_) m
    rw [Text.size_append] at hk hlt hstart hstop
    obtain ⟨j, rfl⟩ : ∃ j, k = size done + j := ⟨k - size done, by omega⟩
    rw [h.isCopiedAt_eq]
    exact hcopied _ (by omega) (by omega)

end Progress

/-! ## One mark -/

section Step

variable {source front covered back r : Text} {d : Draft} {grown shrunk : Nat} {m : Mark}
  {ms : List Mark}

theorem apply_of_none (hr : m.replacement = none)
    (hfirst : m.start + grown = size front + shrunk)
    (hlast : m.stop + grown = size front + size covered + shrunk) :
    d.apply grown shrunk (m :: ms) =
      apply grown shrunk (d.addMark (d.anchor m (size front) (size front + size covered))) ms := by
  simp only [apply, hr, hfirst, hlast, Nat.add_sub_cancel, addMark]

theorem apply_of_some (hr : m.replacement = some r)
    (hfirst : m.start + grown = size front + shrunk)
    (hlast : m.stop + grown = size front + size covered + shrunk) :
    d.apply grown shrunk (m :: ms) =
      apply (grown + size r) (shrunk + size covered)
        ((d.addMark (d.anchor m (size front) (size front + size covered))).splice (size front)
          (size front + size covered) r) ms := by
  simp only [apply, hr, hfirst, hlast, Nat.add_sub_cancel, Nat.add_sub_cancel_left, addMark, splice]

theorem psub_eq_of_add_eq {j k n : Nat} (h : j = n + k) : j.psub k = some n :=
  Nat.psub_eq_some.mpr h.symm

theorem applyMarks?_of_none (hr : m.replacement = none)
    (hfirst : m.start + grown = size front + shrunk)
    (hlast : m.stop + grown = size front + size covered + shrunk) :
    d.placed.applyMarks? grown shrunk (m :: ms) =
      PlacedDraft.applyMarks? grown shrunk
        (d.addMark (d.anchor m (size front) (size front + size covered))).placed ms := by
  simp only [PlacedDraft.applyMarks?, placed, psub_eq_of_add_eq hfirst, psub_eq_of_add_eq hlast,
    Provenance.startOf?_placed, Provenance.stopOf?_placed, hr, Option.bind_eq_bind,
    Option.bind_some, addMark, anchor, Provenance.stopFrom]

/-- **No check fails** when a mark with a replacement is applied to its place. -/
theorem applyMarks?_of_some (hd : d.IsWoven source) (hbuffer : d.buffer = front ++ covered ++ back)
    (hr : m.replacement = some r) (hfirst : m.start + grown = size front + shrunk)
    (hlast : m.stop + grown = size front + size covered + shrunk) :
    d.placed.applyMarks? grown shrunk (m :: ms) =
      PlacedDraft.applyMarks? (grown + size r) (shrunk + size covered)
        ((d.addMark (d.anchor m (size front) (size front + size covered))).splice (size front)
          (size front + size covered) r).placed ms := by
  have hsize := hd.size_provenance
  rw [hbuffer, Text.size_append, Text.size_append] at hsize
  have hsplice : d.buffer.splice? (size front) (size front + size covered) r =
      some (d.buffer.splice (size front) (size front + size covered) r) := by
    rw [hbuffer, Text.splice?_append, Text.splice_append]
  have hreplace := Provenance.replace?_placed (m := d.provenance)
    hd.reachable.isOrdered.length_pos (Nat.le_add_right (size front) (size covered)) (by omega)
    (size r)
  have htaken : (size front + size covered).psub (size front) = some (size covered) :=
    psub_eq_of_add_eq (Nat.add_comm _ _)
  simp only [PlacedDraft.applyMarks?, placed, psub_eq_of_add_eq hfirst, psub_eq_of_add_eq hlast,
    Provenance.startOf?_placed, Provenance.stopOf?_placed, hr, hsplice, hreplace, htaken,
    Option.bind_eq_bind, Option.bind_some, addMark, splice, anchor, Provenance.stopFrom]

end Step

/-! ## The run of a commit -/

/-- What comes of applying marks to a draft, from some way into a commit on. -/
structure Carries (source : Text) (opened d : Draft) (front done : Text) (grown shrunk : Nat)
    (ms : List Mark) : Prop where
  isWoven : (d.apply grown shrunk ms).IsWoven source
  buffer_eq : (d.apply grown shrunk ms).buffer =
    done ++ Mark.substitute opened.buffer (size front) ms
  marks_eq : ∃ anchored, (d.apply grown shrunk ms).marks = d.marks ++ anchored ∧
    List.Forall₂ (Anchors source opened) ms anchored
  checked : d.placed.applyMarks? grown shrunk ms = some (d.apply grown shrunk ms).placed

variable {source : Text} {opened : Draft}

/-- **From any point of a commit on, all goes well.** -/
theorem apply_carries {ms : List Mark} (hfits : ∀ m ∈ ms, m.FitsIn opened.buffer)
    (hascending : ms.Pairwise fun a b => a.limit ≤ b.start) {d : Draft} (hd : d.IsWoven source)
    {front done rest : Text} {grown shrunk : Nat}
    (h : Progress opened d front done rest grown shrunk) (hle : ∀ m ∈ ms, size front ≤ m.start) :
    Carries source opened d front done grown shrunk ms := by
  induction ms generalizing d front done rest grown shrunk with
  | nil =>
    refine ⟨hd, ?_, ⟨[], by rw [apply, List.append_nil], .nil⟩, rfl⟩
    rw [apply, Mark.substitute, h.buffer_eq, h.opened_eq, Text.after_append_size]
  | cons m ms ih =>
    obtain ⟨hahead, hascending⟩ := List.pairwise_cons.mp hascending
    obtain ⟨hm, hfits⟩ := List.forall_mem_cons.mp hfits
    obtain ⟨mid, back, hopened, hbuffer, hstart, hstop, hfirst, hlast, hside⟩ :=
      h.locate hm (hle m (by simp))
    have hanchors := h.anchors hd hbuffer hstart hstop
    have hmarked := hd.addMark (hd.anchor hbuffer m)
    cases hr : m.replacement with
    | none =>
      obtain ⟨hwoven, htext, ⟨anchored, hmarks, hrest⟩, hchecked⟩ :=
        ih hfits hascending hmarked (h.addMark _) (fun n hn => hle n (by simp [hn]))
      rw [← apply_of_none hr hfirst hlast] at hwoven htext hmarks hchecked
      rw [← applyMarks?_of_none hr hfirst hlast] at hchecked
      refine ⟨hwoven, ?_, ⟨_, ?_, .cons hanchors hrest⟩, hchecked⟩
      · rw [htext, Mark.substitute, hr]
      · simp [hmarks]
    | some r =>
      have hreplaced := hmarked.splice hbuffer (r := r) fun hnil =>
        (hside (by rw [hr, hnil])).imp_left h.isCopied_of_takeFront
      obtain ⟨hwoven, htext, ⟨anchored, hmarks, hrest⟩, hchecked⟩ :=
        ih hfits hascending hreplaced ((h.addMark _).splice hmarked hopened hbuffer r)
            fun n hn => by
          have := hahead n hn
          rw [Mark.limit, hr, Option.isSome_some, if_pos rfl, hstop] at this
          rwa [Text.size_append (front ++ mid)]
      rw [← apply_of_some hr hfirst hlast] at hwoven htext hmarks hchecked
      rw [← applyMarks?_of_some hd hbuffer hr hfirst hlast] at hchecked
      refine ⟨hwoven, ?_, ⟨_, ?_, .cons hanchors hrest⟩, hchecked⟩
      · have hkept : opened.buffer.slice (size front) m.start = mid := by
          rw [hopened, hstart, Text.size_append, List.append_assoc (front ++ mid)]
          exact Text.slice_size front mid (m.text ++ back)
        rw [htext, Mark.substitute, hr, Text.size_append (front ++ mid), ← hstop]
        simp only [hkept, List.append_assoc]
      · simp [hmarks]

theorem commit_carries {d : Draft} (hd : d.IsWoven source) (edits : List Edit) :
    Carries source d d [] [] 0 0 (d.edit.recordEach edits).pending := by
  obtain ⟨⟨hfits, hascending⟩, htext⟩ :=
    (Session.isOrderly_ofText d.buffer).recordEach edits
  refine apply_carries (fun m hm => ?_) hascending hd (.start d) fun m _ => Nat.zero_le _
  have := hfits m hm
  rwa [htext] at this

/-- **Every draft that sessions lead to is woven of its pieces.** -/
theorem Reachable.isWoven {d : Draft} (h : Reachable source d) : d.IsWoven source := by
  induction h with
  | ofText => exact .ofText source
  | annotate name _ ih => exact ⟨ih.reachable, ih.woven, ih.apart, ih.anchored⟩
  | commit edits _ ih => exact (commit_carries ih edits).isWoven

/-- **A commit replaces all ranges of a session at once and never goes out of bounds.** Take any
draft that sessions have led to and a session of any edits, of which those turned down leave no
trace. Then no check fails when the session is committed. The working text becomes that on which the
session was opened, with the replaced ranges, which follow each other, substituted. The provenance
is as long as the working text on one side, and as the source on the other. Every mark of the draft
covers a range of the source that begins and ends at the edge of a character, and a mark all of
whose text was copied covers the same text there. -/
theorem commit_of_reachable {d : Draft} (h : Reachable source d) (edits : List Edit) :
    d.placed.applyMarks? 0 0 (d.edit.recordEach edits).pending =
        some (d.commit (d.edit.recordEach edits)).placed ∧
      (d.commit (d.edit.recordEach edits)).buffer =
        Mark.substitute d.buffer 0 (d.edit.recordEach edits).pending ∧
      (d.edit.recordEach edits).pending.Pairwise
        (fun a b => a.replacement.isSome = true → a.stop ≤ b.start) ∧
      (d.commit (d.edit.recordEach edits)).provenance.size =
        size (d.commit (d.edit.recordEach edits)).buffer ∧
      (d.commit (d.edit.recordEach edits)).provenance.sourceSize = size source ∧
      (∀ m ∈ (d.commit (d.edit.recordEach edits)).marks, m.IsAnchored source) ∧
      ∃ anchored, (d.commit (d.edit.recordEach edits)).marks = d.marks ++ anchored ∧
        List.Forall₂ (Anchors source d) (d.edit.recordEach edits).pending anchored := by
  obtain ⟨hwoven, htext, hmarks, hchecked⟩ := commit_carries h.isWoven edits
  have horderly := ((Session.isOrderly_ofText d.buffer).recordEach edits).1
  refine ⟨hchecked, htext, ?_, hwoven.size_provenance, hwoven.reachable.sourceSize_eq,
    hwoven.anchored, hmarks⟩
  refine horderly.ascending.imp fun hab hr => ?_
  rwa [Mark.limit, if_pos hr] at hab

/-- In the third session on `a<b>&amp; c`, whose working text is `a & c`: the word in front is
lengthened by a character of two bytes, what was put in for the reference is replaced again, and the
last word, which still is as it was copied, is marked. -/
def thirdSession : Session :=
  afterTwoSessions.edit.recordEach
    [.token .word 0 1 (some ['a', 'é']), .replace 2 1 ['u', 'n', 'd'], .token .word 4 1 none]

theorem commit_of_reachable_thirdSession :
    Reachable "a<b>&amp; c".toList afterTwoSessions ∧
      afterTwoSessions.placed.applyMarks? 0 0 thirdSession.pending =
        some (afterTwoSessions.commit thirdSession).placed ∧
      (afterTwoSessions.commit thirdSession).buffer = "aé und c".toList ∧
      ∃ m ∈ (afterTwoSessions.commit thirdSession).marks,
        m.role = some .word ∧ Text.slice "a<b>&amp; c".toList m.start m.stop = ['c'] := by
  have hreach : Reachable "a<b>&amp; c".toList afterTwoSessions := .commit _ (.commit _ .ofText)
  have hcommit := commit_of_reachable hreach
    [.token .word 0 1 (some ['a', 'é']), .replace 2 1 ['u', 'n', 'd'], .token .word 4 1 none]
  rw [← thirdSession] at hcommit
  obtain ⟨hchecked, hbuffer, -, -, -, -, anchored, hmarks, hanchors⟩ := hcommit
  have hpending : thirdSession.pending = [⟨0, 1, ['a'], some ['a', 'é'], some .word⟩,
      ⟨2, 3, ['&'], some ['u', 'n', 'd'], none⟩, ⟨4, 5, ['c'], none, some .word⟩] := by cbv
  refine ⟨hreach, hchecked, hbuffer.trans (by rw [hpending]; cbv), ?_⟩
  rw [hpending] at hanchors
  cases hanchors with
  | cons _ h => cases h with
    | cons _ h => cases h with
      | @cons _ last _ _ hlast _ =>
        have hcopied : afterTwoSessions.provenance.isCopiedAt 4 = true := by cbv
        refine ⟨last, by simp [hmarks], hlast.role_eq, hlast.slice_eq (by simp) fun k hk hlt => ?_⟩
        obtain rfl : k = 4 := by simp only at hk hlt; omega
        exact hcopied

end Draft

end MarkupTransfer
