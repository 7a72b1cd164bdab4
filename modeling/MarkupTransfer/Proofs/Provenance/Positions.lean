import Mathlib.Data.Nat.PSub
import MarkupTransfer.Draft.Provenance
import MarkupTransfer.Text.Basic
/-!
# Provenance with its positions written out

Pieces know how long they are and not where they stand, so nothing has to be moved when a text is
put in. Here their positions are written out: every piece is linked to the range of the working text
that it takes up, a place is looked up among these ranges, and a replacement moves all links behind
it. In this form differences of positions are taken all the time, and none of them may fall below
zero; `Nat.psub` makes that visible, and with it everything below has a result or none.

* `PositionMap.startOf?`, `PositionMap.stopOf?`, `PositionMap.replace?`: looking up and replacing by
  positions.
* `Provenance.placed`: the positions of the pieces of a provenance.
* `Provenance.startOf?_placed`, `Provenance.stopOf?_placed`, `Provenance.replace?_placed`: by
  positions there always is a result, and it is the one found by walking over the pieces.
-/

namespace MarkupTransfer

/-- The range that a piece takes up in the working text, the range of the source that it stands for,
and whether it was copied from there. -/
structure Link where
  shown : Range
  source : Range
  isCopied : Bool
  deriving DecidableEq, Repr

namespace Link

/-- Where in the source a range begins that begins some bytes into a link. -/
def startAt (l : Link) (offset : Nat) : Nat :=
  if l.isCopied then l.source.start + offset else l.source.start

/-- Where in the source a range ends that ends some bytes into a link. -/
def stopAt (l : Link) (offset : Nat) : Nat :=
  if l.isCopied then l.source.start + offset else l.source.stop

/-- The first bytes of a link. -/
def head (l : Link) (n : Nat) : Link where
  shown := ⟨l.shown.start, l.shown.start + n⟩
  source := if l.isCopied then ⟨l.source.start, l.source.start + n⟩ else l.source
  isCopied := l.isCopied

/-- A link without its first bytes. -/
def tail (l : Link) (n : Nat) : Link where
  shown := ⟨l.shown.start + n, l.shown.stop⟩
  source := if l.isCopied then ⟨l.source.start + n, l.source.stop⟩
    else ⟨l.source.stop, l.source.stop⟩
  isCopied := l.isCopied

/-- A position behind a replaced range, once `length` bytes stand in the place of the range. -/
def shift? (start stop length pos : Nat) : Option Nat :=
  (pos.psub stop).map fun d => d + start + length

/-- A link behind a replaced range, moved along with the text. -/
def move? (l : Link) (start stop length : Nat) : Option Link := do
  let first ← shift? start stop length l.shown.start
  let last ← shift? start stop length l.shown.stop
  some { l with shown := ⟨first, last⟩ }

/-- What is left of a link in front of a replaced range that reaches into it. -/
def front? (l : Link) (start : Nat) : Option (List Link) :=
  if l.shown.start < start then do
    let n ← start.psub l.shown.start
    some [l.head n]
  else some []

/-- What is left of a link behind a replaced range that reaches into it. -/
def back? (l : Link) (start stop length : Nat) : Option (List Link) :=
  if stop < l.shown.stop then do
    let n ← stop.psub l.shown.start
    let rest ← (l.tail n).move? start stop length
    some [rest]
  else some []

/-- What a replaced range leaves of links in front of it, and what it leaves of those behind it. -/
def cut? (start stop length : Nat) : List Link → Option (List Link × List Link)
  | [] => some ([], [])
  | l :: ls => do
    let (before, after) ← cut? start stop length ls
    if l.shown.stop ≤ start then some (l :: before, after)
    else if stop ≤ l.shown.start then do
      let moved ← l.move? start stop length
      some (before, moved :: after)
    else do
      let front ← l.front? start
      let back ← l.back? start stop length
      some (front ++ before, back ++ after)

end Link

/-- The links of a working text in order, its size and that of the source. -/
structure PositionMap where
  links : List Link
  size : Nat
  sourceSize : Nat
  deriving DecidableEq, Repr

namespace PositionMap

/-- The map of a working text that is the source itself. -/
def identity (size : Nat) : PositionMap :=
  ⟨if size = 0 then [] else [⟨⟨0, size⟩, ⟨0, size⟩, true⟩], size, size⟩

/-- The first link that ends behind a position. -/
def find? (m : PositionMap) (pos : Nat) : Option Link :=
  (m.links.dropWhile fun l => l.shown.stop ≤ pos).head?

/-- Where in the source a range of the working text begins. -/
def startOf? (m : PositionMap) (pos : Nat) : Option Nat :=
  match m.find? pos with
  | some l => (pos.psub l.shown.start).map l.startAt
  | none => some m.sourceSize

/-- Where in the source a range of the working text ends. -/
def stopOf? (m : PositionMap) (pos : Nat) : Option Nat :=
  if pos = 0 then some 0
  else match m.find? (pos - 1) with
    | some l => (pos.psub l.shown.start).map l.stopAt
    | none => some m.sourceSize

/-- The map of the working text with a range of it replaced by some bytes. No link may be empty. -/
def replace? (m : PositionMap) (start stop length : Nat) : Option PositionMap := do
  let first ← m.startOf? start
  let last ← m.stopOf? stop
  let (before, after) ← Link.cut? start stop length m.links
  let links := before ++
    (if length = 0 then [] else [⟨⟨start, start + length⟩, ⟨first, max last first⟩, false⟩]) ++
    after
  let taken ← stop.psub start
  let left ← m.size.psub taken
  if ∀ l ∈ links, l.shown.start < l.shown.stop then some ⟨links, left + length, m.sourceSize⟩
  else none

/-- The links take up a working text from a place on, without a gap. -/
def IsTiled : Nat → List Link → Nat → Prop
  | start, [], stop => start = stop
  | start, l :: ls, stop =>
    l.shown.start = start ∧ l.shown.start < l.shown.stop ∧ IsTiled l.shown.stop ls stop

end PositionMap

namespace Piece

/-- A piece that begins at a place of the working text, with its positions. -/
def link (start : Nat) : Piece → Link
  | copied s n => ⟨⟨start, start + n⟩, ⟨s, s + n⟩, true⟩
  | replaced n s t => ⟨⟨start, start + n⟩, ⟨s, t⟩, false⟩

/-- Pieces with their positions. The first one begins at a place of the working text. -/
def place : Nat → List Piece → List Link
  | _, [] => []
  | start, p :: ps => p.link start :: place (start + p.length) ps

@[simp] theorem shown_link (start : Nat) (p : Piece) :
    (p.link start).shown = ⟨start, start + p.length⟩ := by cases p <;> rfl

@[simp] theorem startAt_link (start offset : Nat) (p : Piece) :
    (p.link start).startAt offset = p.startAt offset := by cases p <;> rfl

@[simp] theorem stopAt_link (start offset : Nat) (p : Piece) :
    (p.link start).stopAt offset = p.stopAt offset := by cases p <;> rfl

theorem head_link (start n : Nat) (p : Piece) : (p.link start).head n = (p.head n).link start := by
  cases p <;> rfl

theorem tail_link (start : Nat) {n : Nat} {p : Piece} (h : n ≤ p.length) :
    (p.link start).tail n = (p.tail n).link (start + n) := by
  cases p <;> simp only [Piece.length] at h <;>
    simp only [link, Link.tail, tail, Link.mk.injEq, Range.mk.injEq, if_true, true_and, and_true,
      Bool.false_eq_true, if_false] <;> omega

theorem place_append (start : Nat) (ps qs : List Piece) :
    place start (ps ++ qs) = place start ps ++ place (start + totalLength ps) qs := by
  induction ps generalizing start with
  | nil => rfl
  | cons p ps ih => simp [place, totalLength, ih, Nat.add_assoc]

theorem isTiled_place {ps : List Piece} (h : ∀ p ∈ ps, 0 < p.length) (start : Nat) :
    PositionMap.IsTiled start (place start ps) (start + totalLength ps) := by
  induction ps generalizing start with
  | nil => rfl
  | cons p ps ih =>
    have hp := h p (by simp)
    refine ⟨by simp, by simpa using hp, ?_⟩
    simpa [totalLength, Nat.add_assoc] using ih (fun q hq => h q (by simp [hq])) (start + p.length)

theorem shown_lt_of_mem_place {ps : List Piece} (h : ∀ p ∈ ps, 0 < p.length) (start : Nat) :
    ∀ l ∈ place start ps, l.shown.start < l.shown.stop := by
  induction ps generalizing start with
  | nil => simp [place]
  | cons p ps ih =>
    refine List.forall_mem_cons.mpr ⟨?_, ih (fun q hq => h q (by simp [hq])) _⟩
    simpa using h p (by simp)

/-! ## Looking up a place -/

/-- The link found by position is that of the piece found by walking. -/
theorem startIn_eq_find (sourceSize start : Nat) (ps : List Piece) (pos : Nat) :
    (match ((place start ps).dropWhile fun l => l.shown.stop ≤ start + pos).head? with
      | some l => ((start + pos).psub l.shown.start).map l.startAt
      | none => some sourceSize) = some (startIn sourceSize ps pos) := by
  induction ps generalizing start pos with
  | nil => rfl
  | cons p ps ih =>
    rw [place, List.dropWhile_cons, startIn]
    simp only [shown_link, decide_eq_true_eq]
    by_cases hpos : pos < p.length
    · rw [if_neg (by omega), if_pos hpos]
      simp [Nat.psub_eq_sub]
    · rw [if_pos (by omega), if_neg hpos, ← ih (start + p.length) (pos - p.length),
        show start + p.length + (pos - p.length) = start + pos by omega]

theorem stopIn_eq_find (sourceSize start : Nat) (ps : List Piece) {pos : Nat} (hpos : 0 < pos) :
    (match ((place start ps).dropWhile fun l => l.shown.stop ≤ start + pos - 1).head? with
      | some l => ((start + pos).psub l.shown.start).map l.stopAt
      | none => some sourceSize) = some (stopIn sourceSize ps pos) := by
  induction ps generalizing start pos with
  | nil => rfl
  | cons p ps ih =>
    rw [place, List.dropWhile_cons, stopIn]
    simp only [shown_link, decide_eq_true_eq]
    by_cases hle : pos ≤ p.length
    · rw [if_neg (by omega), if_pos hle]
      simp [Nat.psub_eq_sub]
    · rw [if_pos (by omega), if_neg hle,
        ← ih (start + p.length) (show 0 < pos - p.length by omega),
        show start + p.length + (pos - p.length) = start + pos by omega]

/-! ## Replacing a range -/

theorem shift?_eq {start stop length pos : Nat} (h : stop ≤ pos) :
    Link.shift? start stop length pos = some (pos - stop + start + length) := by
  simp [Link.shift?, Nat.psub_eq_sub h]

theorem move?_link {start stop length k : Nat} (h : stop ≤ k) (p : Piece) :
    (p.link k).move? start stop length = some (p.link (k - stop + start + length)) := by
  have hstop : stop ≤ k + p.length := by omega
  rw [Link.move?, shown_link, shift?_eq h, shift?_eq hstop]
  cases p <;>
    simp only [link, Piece.length, Option.bind_eq_bind, Option.bind_some, Option.some.injEq,
      Link.mk.injEq, Range.mk.injEq, true_and, and_true] <;>
    omega

theorem front?_link {start k : Nat} {p : Piece} (h : start < k + p.length) (ps : List Piece) :
    (p.link k).front? start = some (place k (takeFront (start - k) (p :: ps))) := by
  simp only [Link.front?, shown_link]
  by_cases hk : k < start
  · rw [if_pos hk, Nat.psub_eq_sub (by omega), takeFront_inside ps (by omega) (by omega)]
    simp [head_link, place]
  · rw [if_neg hk, show start - k = 0 by omega, takeFront_zero]
    rfl

theorem back?_link (start length : Nat) {stop k : Nat} {p : Piece} (h : k < stop)
    (ps : List Piece) :
    ∃ back, (p.link k).back? start stop length = some back ∧
      back ++ place (k + p.length - stop + start + length) (dropFront (stop - (k + p.length)) ps) =
        place (start + length) (dropFront (stop - k) (p :: ps)) := by
  simp only [Link.back?, shown_link]
  by_cases hstop : stop < k + p.length
  · have htail : ((p.link k).tail (stop - k)).move? start stop length =
        some ((p.tail (stop - k)).link (start + length)) := by
      rw [tail_link k (by omega), move?_link (by omega)]
      congr 2
      omega
    refine ⟨[(p.tail (stop - k)).link (start + length)], ?_, ?_⟩
    · rw [if_pos hstop, Nat.psub_eq_sub (by omega)]
      simp [htail]
    · rw [dropFront_inside ps (by omega) (by omega), show stop - (k + p.length) = 0 by omega,
        dropFront_zero, place, length_tail,
        show k + p.length - stop + start + length = start + length + (p.length - (stop - k)) by
          omega]
      rfl
  · refine ⟨[], if_neg hstop, ?_⟩
    rw [dropFront, if_neg (by omega), if_pos (by omega), Nat.sub_sub,
      show k + p.length - stop + start + length = start + length by omega]
    rfl

/-- **Links are cut where pieces are.** What is left behind the range is moved. -/
theorem cut?_place {start stop : Nat} (h : start ≤ stop) (length : Nat) {ps : List Piece}
    (hps : ∀ p ∈ ps, 0 < p.length) (k : Nat) :
    Link.cut? start stop length (place k ps) =
      some (place k (takeFront (start - k) ps),
        place (k - stop + start + length) (dropFront (stop - k) ps)) := by
  induction ps generalizing k with
  | nil => rfl
  | cons p ps ih =>
    have hp := hps p (by simp)
    have hrest := ih (fun q hq => hps q (by simp [hq])) (k + p.length)
    rw [place, Link.cut?, hrest]
    simp only [Option.bind_eq_bind, Option.bind_some, shown_link]
    by_cases hbefore : k + p.length ≤ start
    · rw [if_pos hbefore, takeFront, if_neg (by omega), if_pos (by omega), dropFront,
        if_neg (by omega), if_pos (by omega), place, Nat.sub_sub, Nat.sub_sub,
        show k + p.length - stop = k - stop by omega]
    rw [if_neg hbefore, show start - (k + p.length) = 0 by omega, takeFront_zero]
    by_cases hbehind : stop ≤ k
    · rw [if_pos hbehind, move?_link hbehind, show start - k = 0 by omega,
        show stop - k = 0 by omega, show stop - (k + p.length) = 0 by omega, takeFront_zero,
        dropFront_zero, dropFront_zero, place,
        show k + p.length - stop + start + length = k - stop + start + length + p.length by omega]
      rfl
    obtain ⟨back, hback, hplace⟩ := back?_link start length
      (show k < stop by omega) ps
    rw [if_neg hbehind, front?_link (by omega) ps, hback]
    simp only [Option.bind_some, Option.some.injEq, Prod.mk.injEq]
    refine ⟨by simp [place], ?_⟩
    rw [hplace, show k - stop + start + length = start + length by omega]

end Piece

namespace Provenance

open Piece

/-- The positions of the pieces of a provenance. -/
def placed (m : Provenance) : PositionMap := ⟨place 0 m.pieces, m.size, m.sourceSize⟩

theorem placed_identity (n : Nat) : (identity n).placed = .identity n := by
  by_cases hn : n = 0 <;> simp [placed, identity, PositionMap.identity, hn, place, link, size,
    totalLength, Piece.length]

theorem startOf?_placed (m : Provenance) (pos : Nat) :
    m.placed.startOf? pos = some (m.startOf pos) := by
  simpa [PositionMap.startOf?, PositionMap.find?, placed, startOf] using
    startIn_eq_find m.sourceSize 0 m.pieces pos

theorem stopOf?_placed (m : Provenance) (pos : Nat) :
    m.placed.stopOf? pos = some (m.stopOf pos) := by
  rw [PositionMap.stopOf?, stopOf]
  split
  · rfl
  · next h =>
    simpa [PositionMap.find?, placed] using
      stopIn_eq_find m.sourceSize 0 m.pieces (Nat.pos_of_ne_zero h)

/-- A replacement puts its text where the range began. -/
theorem totalLength_replaced {m : Provenance} {start : Nat} (hstart : start ≤ m.size)
    (stop length : Nat) :
    totalLength (takeFront start m.pieces ++ if length = 0 then [] else
      [.replaced length (m.startOf start) (m.stopFrom start stop)]) = start + length := by
  rw [totalLength_append, size_takeFront start m.pieces hstart]
  by_cases hl : length = 0 <;> simp [hl, totalLength, Piece.length]

theorem length_pos_of_mem_replace {m : Provenance} (hm : ∀ p ∈ m.pieces, 0 < p.length)
    {start stop length : Nat} : ∀ p ∈ (m.replace start stop length).pieces, 0 < p.length := by
  intro p hp
  simp only [replace, List.mem_append] at hp
  rcases hp with (hp | hp) | hp
  · obtain ⟨q, hq, rfl | ⟨k, hk, -, rfl⟩⟩ := exists_of_mem_takeFront hp
    · exact hm p hq
    · rwa [length_head]
  · split at hp
    · cases hp
    · next h =>
      rw [List.mem_singleton.mp hp]
      exact Nat.pos_of_ne_zero h
  · obtain ⟨q, hq, rfl | ⟨k, -, hk, rfl⟩⟩ := exists_of_mem_dropFront hp
    · exact hm p hq
    · rw [length_tail]
      omega

/-- **A replacement by positions always has a result**, and it is the replacement among pieces. -/
theorem replace?_placed {m : Provenance} (hm : ∀ p ∈ m.pieces, 0 < p.length) {start stop : Nat}
    (h : start ≤ stop) (hstop : stop ≤ m.size) (length : Nat) :
    m.placed.replace? start stop length = some (m.replace start stop length).placed := by
  have hcut := cut?_place h length hm 0
  have hsize := size_replace m start stop length (Nat.le_trans h hstop)
  have hlinks : place 0 (m.replace start stop length).pieces =
      place 0 (takeFront start m.pieces) ++
        (if length = 0 then [] else [⟨⟨start, start + length⟩,
          ⟨m.startOf start, max (m.stopOf stop) (m.startOf start)⟩, false⟩]) ++
        place (start + length) (dropFront stop m.pieces) := by
    have hfront : totalLength (takeFront start m.pieces) = start :=
      size_takeFront start m.pieces (Nat.le_trans h hstop)
    rw [replace, place_append, place_append, totalLength_append, hfront]
    by_cases hl : length = 0 <;> simp [hl, place, link, totalLength, Piece.length, stopFrom]
  have hfull : ∀ l ∈ place 0 (m.replace start stop length).pieces, l.shown.start < l.shown.stop :=
    shown_lt_of_mem_place (length_pos_of_mem_replace hm) 0
  rw [hlinks] at hfull
  simp only [PositionMap.replace?, startOf?_placed, stopOf?_placed, Option.bind_eq_bind,
    Option.bind_some]
  simp only [Nat.sub_zero, Nat.zero_sub, Nat.zero_add] at hcut
  rw [placed, placed, hlinks]
  simp only [hcut, Option.bind_some, Nat.psub_eq_sub h,
    Nat.psub_eq_sub (show stop - start ≤ m.size by omega)]
  have hleft : m.size - (stop - start) + length = (m.replace start stop length).size := by omega
  rw [if_pos hfull, hleft]
  rfl

end Provenance

end MarkupTransfer
