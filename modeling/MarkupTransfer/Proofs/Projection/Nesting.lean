import MarkupTransfer.Projection.SpanTree
import MarkupTransfer.Proofs.Projection.Pairing
/-!
# Spans nest as their tags do

The spans of nested pairs, taken in the order of their first tags, make a row in which every pair
holds what stands between its two tags. The tags of the row in document order are all tags, in their
order.

* `splitAt_cuts`: a row is cut at a place that no pair reaches over.
* `ofSpans_reads`: the row that is made of spans.
* `Reads.exists_enclosure`: a pair holds just the tags between its two tags.
-/

namespace MarkupTransfer

open Pairing (AreNested closing?_eq_some_iff isSome_opening?_iff)

namespace SpanForest

/-- The tags of a row of spans, by index, in document order. -/
def indices : SpanForest → List Nat
  | nil => []
  | node s _ _ inner rest => s.opening :: (inner.indices ++ (s.closing.toList ++ rest.indices))

/-- Whether the spans of a row are those of given pairs and of tags without a partner, which hold
nothing. -/
def Follows (pairs : List (Nat × Nat)) : SpanForest → Prop
  | nil => True
  | node s _ _ inner rest =>
    (match s.closing with
      | some c => (s.opening, c) ∈ pairs
      | none => inner = nil ∧ (∀ c, (s.opening, c) ∉ pairs) ∧ ∀ o, (o, s.opening) ∉ pairs) ∧
    inner.Follows pairs ∧ rest.Follows pairs

theorem indices_splitAt (c : Nat) (row : SpanForest) :
    (row.splitAt c).1.indices ++ (row.splitAt c).2.indices = row.indices := by
  induction row with
  | nil => rfl
  | node s start stop inner rest _ ih =>
    rw [splitAt]
    split
    · simp only [indices, List.cons_append, List.append_assoc, ih]
    · rfl

theorem follows_splitAt {pairs : List (Nat × Nat)} (c : Nat) {row : SpanForest}
    (h : row.Follows pairs) :
    (row.splitAt c).1.Follows pairs ∧ (row.splitAt c).2.Follows pairs := by
  induction row with
  | nil => exact ⟨trivial, trivial⟩
  | node s start stop inner rest _ ih =>
    obtain ⟨hs, hinner, hrest⟩ := h
    obtain ⟨hfront, hback⟩ := ih hrest
    rw [splitAt]
    split
    · exact ⟨⟨hs, hinner, hfront⟩, hback⟩
    · exact ⟨trivial, hs, hinner, hrest⟩

/-- **A row is cut at a place that no pair reaches over.** -/
theorem splitAt_cuts {pairs : List (Nat × Nat)} {c : Nat} {row : SpanForest}
    (h : row.Follows pairs) (hascending : row.indices.Pairwise (· < ·)) (hc : c ∉ row.indices)
    (hover : ∀ p ∈ pairs, p.1 ∈ row.indices → p.1 < c → p.2 < c) :
    (∀ i ∈ (row.splitAt c).1.indices, i < c) ∧ ∀ i ∈ (row.splitAt c).2.indices, c < i := by
  induction row with
  | nil => simp [splitAt, indices]
  | node s start stop inner rest _ ih =>
    obtain ⟨hs, -, hrest⟩ := h
    obtain ⟨hfirst, htail⟩ := List.pairwise_cons.mp hascending
    have hopen : c ≠ s.opening := fun he => hc (by simp [indices, he])
    rw [splitAt]
    split
    · next hlt =>
      have hparts := List.pairwise_append.mp htail
      have hrestAscending := (List.pairwise_append.mp hparts.2.1).2.1
      obtain ⟨hfront, hback⟩ := ih hrest hrestAscending (fun hm => hc (by simp [indices, hm]))
        (fun p hp hm => hover p hp (by simp [indices, hm]))
      refine ⟨fun i hi => ?_, hback⟩
      simp only [indices, List.mem_cons, List.mem_append, Option.mem_toList] at hi
      rcases hi with rfl | hi | hi | hi
      · exact hlt
      · -- Inside the span: its closing tag is still in front of the cut.
        cases hclosing : s.closing with
        | none =>
          rw [hclosing] at hs
          rw [hs.1] at hi
          cases hi
        | some c' =>
          rw [hclosing] at hs
          have hend : c' < c := hover _ hs (by simp [indices]) hlt
          have hbefore : i < c' := hparts.2.2 i hi c' (by simp [hclosing])
          omega
      · rw [hi] at hs
        exact hover _ hs (by simp [indices]) hlt
      · exact hfront i hi
    · next hge =>
      refine ⟨by simp [indices], fun i hi => ?_⟩
      rcases List.mem_cons.mp hi with rfl | hi
      · omega
      · have := hfirst i hi
        omega

end SpanForest

/-- What begins at a tag: a pair, nothing if it ends a pair, or a span of its own. -/
theorem Pairing.span?_cases {p : Pairing} {count : Nat} (h : AreNested count p.pairs)
    (width i : Nat) :
    (∃ c start stop, (i, c) ∈ p.pairs ∧ p.span? width i = some ⟨i, some c, start, stop⟩) ∨
    (∃ o, (o, i) ∈ p.pairs ∧ p.span? width i = none) ∨
    ∃ start stop, (∀ c, (i, c) ∉ p.pairs) ∧ (∀ o, (o, i) ∉ p.pairs) ∧
      p.span? width i = some ⟨i, none, start, stop⟩ := by
  rw [span?]
  cases hc : p.closing? i with
  | some c => exact .inl ⟨c, _, _, (closing?_eq_some_iff h).mp hc, rfl⟩
  | none =>
    have hopens : ∀ c, (i, c) ∉ p.pairs := fun c hm => by
      simp [(closing?_eq_some_iff h).mpr hm] at hc
    cases ho : (p.opening? i).isSome with
    | true =>
      obtain ⟨o, hm⟩ := isSome_opening?_iff.mp ho
      exact .inr (.inl ⟨o, hm, rfl⟩)
    | false =>
      have hcloses : ∀ o, (o, i) ∉ p.pairs := fun o hm => by
        simp [isSome_opening?_iff.mpr ⟨o, hm⟩] at ho
      exact .inr (.inr ⟨_, _, hopens, hcloses, rfl⟩)

namespace SpanForest

/-- A row made of the spans of the tags from one on: it is put together of pairs and tags that
stand alone, in order, and has every tag but those that end what began before. -/
structure Reads (pairs : List (Nat × Nat)) (first count : Nat) (row : SpanForest) : Prop where
  follows : row.Follows pairs
  ascending : row.indices.Pairwise (· < ·)
  mem_iff : ∀ i, i ∈ row.indices ↔ first ≤ i ∧ i < count ∧ ∀ o < first, (o, i) ∉ pairs

namespace Reads

variable {pairs : List (Nat × Nat)} {first count : Nat} {row : SpanForest}

theorem nil (pairs : List (Nat × Nat)) (count : Nat) : Reads pairs count count .nil :=
  ⟨trivial, .nil, fun i => by simp only [indices, List.not_mem_nil, false_iff]; omega⟩

/-- What has been read behind a tag: every later tag but those that end what began so far. -/
theorem mem_succ_iff (h : Reads pairs (first + 1) count row) {i : Nat} :
    i ∈ row.indices ↔
      first < i ∧ i < count ∧ (∀ o < first, (o, i) ∉ pairs) ∧ (first, i) ∉ pairs := by
  rw [h.mem_iff, Nat.forall_lt_succ_right]
  rfl

/-- A tag that ends a pair has been read along with the tag that begins it. -/
theorem closing (h : Reads pairs (first + 1) count row) (hn : AreNested count pairs) {o : Nat}
    (ho : (o, first) ∈ pairs) : Reads pairs first count row := by
  refine ⟨h.follows, h.ascending, fun i => ?_⟩
  rw [h.mem_succ_iff]
  constructor
  · rintro ⟨hfirst, hcount, hfree, -⟩
    exact ⟨Nat.le_of_lt hfirst, hcount, hfree⟩
  · rintro ⟨hfirst, hcount, hfree⟩
    have hne : first ≠ i := by
      rintro rfl
      exact hfree o (hn.bounds _ ho).1 ho
    exact ⟨by omega, hcount, hfree, fun hm => hn.opening_ne_closing hm ho rfl⟩

/-- A tag without a partner is put in front of what has been read. -/
theorem single (h : Reads pairs (first + 1) count row) (hcount : first < count)
    (hopens : ∀ c, (first, c) ∉ pairs) (hcloses : ∀ o, (o, first) ∉ pairs) (start stop : Nat) :
    Reads pairs first count (enclose ⟨first, none, start, stop⟩ row) := by
  have hindices : (enclose ⟨first, none, start, stop⟩ row).indices = first :: row.indices := rfl
  refine ⟨⟨⟨rfl, hopens, hcloses⟩, trivial, h.follows⟩, ?_, fun i => ?_⟩
  · rw [hindices]
    exact List.pairwise_cons.mpr ⟨fun i hi => ((h.mem_iff i).mp hi).1, h.ascending⟩
  · rw [hindices, List.mem_cons, h.mem_succ_iff]
    constructor
    · rintro (rfl | ⟨hfirst, hi, hfree, -⟩)
      · exact ⟨Nat.le_refl _, hcount, fun o _ => hcloses o⟩
      · exact ⟨Nat.le_of_lt hfirst, hi, hfree⟩
    · rintro ⟨hfirst, hi, hfree⟩
      by_cases he : i = first
      · exact .inl he
      · exact .inr ⟨by omega, hi, hfree, hopens i⟩

/-- An ascending row stays so with a number put in where all before are smaller and all behind are
greater. -/
theorem ascending_insert {front back : List Nat} {c : Nat}
    (h : (front ++ back).Pairwise (· < ·)) (hfront : ∀ i ∈ front, i < c)
    (hback : ∀ i ∈ back, c < i) : (front ++ c :: back).Pairwise (· < ·) := by
  obtain ⟨hf, hb, hacross⟩ := List.pairwise_append.mp h
  refine List.pairwise_append.mpr ⟨hf, List.pairwise_cons.mpr ⟨hback, hb⟩, fun i hi j hj => ?_⟩
  rcases List.mem_cons.mp hj with rfl | hj
  · exact hfront i hi
  · exact hacross i hi j hj

/-- **A pair takes in what has been read up to its end.** -/
theorem pair (h : Reads pairs (first + 1) count row) (hn : AreNested count pairs) {c : Nat}
    (hc : (first, c) ∈ pairs) (start stop : Nat) :
    Reads pairs first count (enclose ⟨first, some c, start, stop⟩ row) := by
  obtain ⟨hlt, hcount⟩ := hn.bounds _ hc
  have hout : c ∉ row.indices := fun hm => (h.mem_succ_iff.mp hm).2.2.2 hc
  have hover : ∀ p ∈ pairs, p.1 ∈ row.indices → p.1 < c → p.2 < c := fun p hp hm =>
    hn.closing_lt hc hp (h.mem_succ_iff.mp hm).1
  obtain ⟨hinner, hrest⟩ := splitAt_cuts h.follows h.ascending hout hover
  obtain ⟨hinnerFollows, hrestFollows⟩ := follows_splitAt c h.follows
  have hsplit := indices_splitAt c row
  have hindices : (enclose ⟨first, some c, start, stop⟩ row).indices =
      first :: ((row.splitAt c).1.indices ++ c :: (row.splitAt c).2.indices) := rfl
  have hmem : ∀ i, i ∈ (row.splitAt c).1.indices ++ c :: (row.splitAt c).2.indices ↔
      i = c ∨ i ∈ row.indices := by
    intro i
    rw [← hsplit, List.mem_append, List.mem_append, List.mem_cons]
    exact or_left_comm
  refine ⟨⟨hc, hinnerFollows, hrestFollows⟩, ?_, fun i => ?_⟩
  · rw [hindices]
    refine List.pairwise_cons.mpr ⟨fun i hi => ?_, ascending_insert ?_ hinner hrest⟩
    · rcases (hmem i).mp hi with rfl | hi
      · exact hlt
      · exact (h.mem_succ_iff.mp hi).1
    · rw [hsplit]
      exact h.ascending
  · rw [hindices, List.mem_cons, hmem, h.mem_succ_iff]
    constructor
    · rintro (rfl | rfl | ⟨hfirst, hi, hfree, -⟩)
      · exact ⟨Nat.le_refl _, by omega, fun o _ ho => hn.opening_ne_closing hc ho rfl⟩
      · refine ⟨Nat.le_of_lt hlt, hcount, fun o ho hm => ?_⟩
        have heq := congrArg Prod.fst (hn.eq_of_closing hm hc rfl)
        exact Nat.ne_of_lt ho heq
      · exact ⟨Nat.le_of_lt hfirst, hi, hfree⟩
    · rintro ⟨hfirst, hi, hfree⟩
      by_cases he : i = first
      · exact .inl he
      by_cases hclose : i = c
      · exact .inr (.inl hclose)
      refine .inr (.inr ⟨by omega, hi, hfree, fun hm => ?_⟩)
      exact hclose (congrArg Prod.snd (hn.eq_of_opening hm hc rfl))

end Reads

/-- **The row that is made of spans.** -/
theorem ofSpans_reads {p : Pairing} {count : Nat} (h : AreNested count p.pairs) (width : Nat)
    {first more : Nat} (hcount : first + more = count) :
    Reads p.pairs first count (ofSpans ((List.range' first more).filterMap (p.span? width))) := by
  induction more generalizing first with
  | zero =>
    obtain rfl : first = count := hcount
    exact .nil p.pairs first
  | succ more ih =>
    have hcount' : first + 1 + more = count := by omega
    have hrest := ih hcount'
    rw [List.range'_succ, List.filterMap_cons]
    rcases Pairing.span?_cases h width first with
      ⟨c, start, stop, hc, hspan⟩ | ⟨o, ho, hspan⟩ | ⟨start, stop, hopens, hcloses, hspan⟩ <;>
      rw [hspan]
    · exact hrest.pair h hc start stop
    · exact hrest.closing h ho
    · exact hrest.single (by omega) hopens hcloses start stop

/-- The row that is made of the spans of some tags. -/
theorem reads_spans (tags : List Tag) (width : Nat) : Reads (Pairing.ofTags tags).pairs 0
    (Pairing.ofTags tags).tags.length (ofSpans ((Pairing.ofTags tags).spans width)) := by
  have hrow := ofSpans_reads (Pairing.ofTags_areNested tags) width
    (Nat.zero_add (Pairing.ofTags tags).tags.length)
  rwa [← List.range_eq_range'] at hrow

/-- A row of the spans of all tags has every tag. -/
theorem Reads.mem_iff_lt {pairs : List (Nat × Nat)} {count : Nat} {row : SpanForest}
    (h : Reads pairs 0 count row) {i : Nat} : i ∈ row.indices ↔ i < count := by
  rw [h.mem_iff]
  constructor
  · exact fun hi => hi.2.1
  · exact fun hi => ⟨Nat.zero_le i, hi, fun o ho => absurd ho (Nat.not_lt_zero o)⟩

/-- A row of the spans of all tags has each of them once. -/
theorem Reads.indices_perm {pairs : List (Nat × Nat)} {count : Nat} {row : SpanForest}
    (h : Reads pairs 0 count row) : row.indices.Perm (List.range count) := by
  have hnodup : row.indices.Nodup := h.ascending.imp fun hlt => Nat.ne_of_lt hlt
  refine (List.perm_ext_iff_of_nodup hnodup List.nodup_range).mpr fun i => ?_
  rw [h.mem_iff_lt, List.mem_range]

/-! ## What pairs hold -/

/-- The pairs of a row, each with the tags inside it in document order. -/
def enclosures : SpanForest → List (Nat × Nat × List Nat)
  | nil => []
  | node s _ _ inner rest =>
    s.closing.toList.map (fun c => (s.opening, c, inner.indices)) ++
      (inner.enclosures ++ rest.enclosures)

/-- The tags inside a pair stand between its two tags. -/
theorem exists_of_mem_enclosures {row : SpanForest} {o c : Nat} {inside : List Nat}
    (h : (o, c, inside) ∈ row.enclosures) :
    ∃ before after, row.indices = before ++ o :: (inside ++ c :: after) := by
  induction row with
  | nil => simp [enclosures] at h
  | node s start stop inner rest ihInner ihRest =>
    simp only [enclosures, List.mem_append, List.mem_map, Option.mem_toList] at h
    rcases h with ⟨c', hc', heq⟩ | h | h
    · obtain ⟨rfl, rfl, rfl⟩ : s.opening = o ∧ c' = c ∧ inner.indices = inside := by
        simpa using heq
      exact ⟨[], rest.indices, by simp [indices, hc']⟩
    · obtain ⟨before, after, heq⟩ := ihInner h
      exact ⟨s.opening :: before, after ++ (s.closing.toList ++ rest.indices), by
        simp [indices, heq]⟩
    · obtain ⟨before, after, heq⟩ := ihRest h
      exact ⟨s.opening :: (inner.indices ++ (s.closing.toList ++ before)), after, by
        simp [indices, heq]⟩

/-- A tag of a row begins a pair of the row, ends a pair, or has no partner. -/
theorem Follows.mem_cases {pairs : List (Nat × Nat)} {row : SpanForest} (h : row.Follows pairs)
    {i : Nat} (hi : i ∈ row.indices) :
    (∃ c inside, (i, c) ∈ pairs ∧ (i, c, inside) ∈ row.enclosures) ∨
      (∃ o, (o, i) ∈ pairs) ∨ ((∀ c, (i, c) ∉ pairs) ∧ ∀ o, (o, i) ∉ pairs) := by
  induction row with
  | nil => simp [indices] at hi
  | node s start stop inner rest ihInner ihRest =>
    obtain ⟨hs, hinner, hrest⟩ := h
    simp only [indices, List.mem_cons, List.mem_append, Option.mem_toList] at hi
    rcases hi with rfl | hi | hi | hi
    · cases hclosing : s.closing with
      | none =>
        rw [hclosing] at hs
        exact .inr (.inr hs.2)
      | some c =>
        rw [hclosing] at hs
        exact .inl ⟨c, inner.indices, hs, by simp [enclosures, hclosing]⟩
    · rcases ihInner hinner hi with ⟨c, inside, hc, hm⟩ | ho
      · exact .inl ⟨c, inside, hc, by simp [enclosures, hm]⟩
      · exact .inr ho
    · rw [hi] at hs
      exact .inr (.inl ⟨s.opening, hs⟩)
    · rcases ihRest hrest hi with ⟨c, inside, hc, hm⟩ | ho
      · exact .inl ⟨c, inside, hc, by simp [enclosures, hm]⟩
      · exact .inr ho

/-- **A pair holds just the tags between its two tags.** -/
theorem Reads.exists_enclosure {pairs : List (Nat × Nat)} {count : Nat} {row : SpanForest}
    (h : Reads pairs 0 count row) (hn : AreNested count pairs) {o c : Nat}
    (hp : (o, c) ∈ pairs) :
    ∃ inside, (o, c, inside) ∈ row.enclosures ∧ ∀ i, i ∈ inside ↔ o < i ∧ i < c := by
  obtain ⟨hlt, hcount⟩ := hn.bounds _ hp
  rcases h.follows.mem_cases (h.mem_iff_lt.mpr (Nat.lt_trans hlt hcount)) with
    ⟨c', inside, hp', hm⟩ | ⟨o', ho'⟩ | ⟨hnone, -⟩
  · obtain rfl : c' = c := congrArg Prod.snd (hn.eq_of_opening hp' hp rfl)
    refine ⟨inside, hm, fun i => ?_⟩
    obtain ⟨before, after, heq⟩ := exists_of_mem_enclosures hm
    have hascending := h.ascending
    rw [heq] at hascending
    obtain ⟨-, hrow, hbefore⟩ := List.pairwise_append.mp hascending
    obtain ⟨hopen, htail⟩ := List.pairwise_cons.mp hrow
    obtain ⟨-, hclose, hinside⟩ := List.pairwise_append.mp htail
    constructor
    · intro hi
      exact ⟨hopen i (by simp [hi]), hinside i hi c' (by simp)⟩
    · rintro ⟨hoi, hic⟩
      have hi := h.mem_iff_lt.mpr (Nat.lt_trans hic hcount)
      simp only [heq, List.mem_append, List.mem_cons] at hi
      rcases hi with hi | hi | hi | hi | hi
      · have := hbefore i hi o (by simp)
        omega
      · omega
      · exact hi
      · omega
      · have := (List.pairwise_cons.mp hclose).1 i hi
        omega
  · exact absurd rfl (hn.opening_ne_closing hp ho')
  · exact absurd hp (hnone c)

end SpanForest

end MarkupTransfer
