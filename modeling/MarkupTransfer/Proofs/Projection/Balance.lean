import MarkupTransfer.Proofs.Projection.Transfer
/-!
# Balanced markup stays balanced

The stack of pairing grows at the first tag of a pair and shrinks at the second one. Over a whole
row of spans it ends as it began, however the spans were rearranged, so pairing the tags of the row
finds just the pairs that it was made of.

* `closings`: the pairs of a row, by the places of their tags.
* `pairsFrom_indices`: pairing the tags of a row finds its pairs.
* `mem_closings_iff`: they are the pairs that the row was made of.
* `projectTags_keeps_balance`: a translation has the pairs of its source and no others.
-/

namespace MarkupTransfer

namespace Pairing

variable {index : Nat} {opened : List (Nat × Tag)} {t : Tag}

theorem pairsFrom_of_begins (h : t.begins = true) (rest : List Tag) :
    pairsFrom index opened (t :: rest) = pairsFrom (index + 1) ((index, t) :: opened) rest := by
  rw [pairsFrom, if_pos h]

theorem pairsFrom_of_closes {o : Nat × Tag} (h : t.closes o.2 = true) (rest : List Tag) :
    pairsFrom index (o :: opened) (t :: rest) =
      (o.1, index) :: pairsFrom (index + 1) opened rest := by
  have htype := (Tag.closes_eq_true_iff.mp h).2.1
  simp [pairsFrom, Tag.begins, htype, h]

theorem pairsFrom_of_single (hbegins : t.begins = false) (htype : t.type ≠ .closing)
    (rest : List Tag) :
    pairsFrom index opened (t :: rest) = pairsFrom (index + 1) opened rest := by
  simp [pairsFrom, hbegins, htype]

end Pairing

namespace SpanForest

open Pairing (pairsFrom pairsFrom_of_begins pairsFrom_of_closes pairsFrom_of_single AreNested)

/-- The pairs of a row in the order of their ends, each by the places of its tags, counted from a
first one, and by the tags at them. -/
def closings (first : Nat) : SpanForest → List ((Nat × Nat) × Nat × Nat)
  | nil => []
  | node s _ _ inner rest =>
    let place := first + 1 + inner.indices.length
    inner.closings (first + 1) ++
      (s.closing.toList.map (fun c => ((first, place), s.opening, c)) ++
        rest.closings (place + s.closing.toList.length))

/-- **Pairing the tags of a row finds its pairs.** The stack ends as it began. -/
theorem pairsFrom_indices {pairs : List (Nat × Nat)} {f : Nat → Tag} {row : SpanForest}
    (hpair : ∀ o c, (o, c) ∈ pairs → (f c).closes (f o) = true)
    (hsingle : ∀ i ∈ row.indices, (∀ c, (i, c) ∉ pairs) → (∀ o, (o, i) ∉ pairs) →
      (f i).begins = false ∧ (f i).type ≠ .closing)
    (hrow : row.Follows pairs) (first : Nat) (opened : List (Nat × Tag)) (more : List Tag) :
    pairsFrom first opened (row.indices.map f ++ more) =
      (row.closings first).map Prod.fst ++
        pairsFrom (first + row.indices.length) opened more := by
  induction row generalizing first opened more with
  | nil => rfl
  | node s start stop inner rest ihInner ihRest =>
    obtain ⟨hs, hinner, hrest⟩ := hrow
    simp only [indices, List.mem_cons, List.mem_append, Option.mem_toList] at hsingle
    have hInner := ihInner (fun i hi => hsingle i (.inr (.inl hi))) hinner
    have hRest := ihRest (fun i hi => hsingle i (.inr (.inr (.inr hi)))) hrest
    cases hclosing : s.closing with
    | some c =>
      rw [hclosing] at hs
      have hcloses := hpair _ _ hs
      have hbegins := (Tag.closes_eq_true_iff.mp hcloses).2.2.1
      have htags : (node s start stop inner rest).indices.map f ++ more =
          f s.opening :: (inner.indices.map f ++ f c :: (rest.indices.map f ++ more)) := by
        simp [indices, hclosing]
      have hend : first + (node s start stop inner rest).indices.length =
          first + 1 + inner.indices.length + 1 + rest.indices.length := by
        simp [indices, hclosing]
        omega
      rw [htags, pairsFrom_of_begins hbegins, hInner, pairsFrom_of_closes hcloses, hRest, hend]
      simp [closings, hclosing]
    | none =>
      rw [hclosing] at hs
      obtain ⟨hnil, hopens, hcloses⟩ := hs
      obtain ⟨hbegins, htype⟩ := hsingle s.opening (.inl rfl) hopens hcloses
      have htags : (node s start stop inner rest).indices.map f ++ more =
          f s.opening :: (rest.indices.map f ++ more) := by
        simp [indices, hclosing, hnil]
      have hend : first + (node s start stop inner rest).indices.length =
          first + 1 + rest.indices.length := by
        simp [indices, hclosing, hnil]
        omega
      rw [htags, pairsFrom_of_single hbegins htype, hRest, hend]
      simp [closings, hclosing, hnil, indices]

/-- The places of a row are those of the tags that it names. -/
theorem closings_places {pairs : List (Nat × Nat)} {row : SpanForest} (hrow : row.Follows pairs)
    (front back : List Nat) :
    ∀ q ∈ row.closings front.length, q.2 ∈ pairs ∧
      (front ++ row.indices ++ back)[q.1.1]? = some q.2.1 ∧
      (front ++ row.indices ++ back)[q.1.2]? = some q.2.2 := by
  induction row generalizing front back with
  | nil => simp [closings]
  | node s start stop inner rest ihInner ihRest =>
    obtain ⟨hs, hinner, hrest⟩ := hrow
    -- The row inside, and the rest of the row, each with what stands in front of it.
    have hInner := ihInner hinner (front ++ [s.opening])
      (s.closing.toList ++ rest.indices ++ back)
    have hRest := ihRest hrest (front ++ s.opening :: (inner.indices ++ s.closing.toList)) back
    have happend : front ++ [s.opening] ++ inner.indices ++
        (s.closing.toList ++ rest.indices ++ back) =
        front ++ (node s start stop inner rest).indices ++ back := by
      simp [indices]
    have happend' : front ++ s.opening :: (inner.indices ++ s.closing.toList) ++ rest.indices ++
        back = front ++ (node s start stop inner rest).indices ++ back := by
      simp [indices]
    have hlength : (front ++ s.opening :: (inner.indices ++ s.closing.toList)).length =
        front.length + 1 + inner.indices.length + s.closing.toList.length := by
      simp
      omega
    rw [happend, List.length_append, List.length_singleton] at hInner
    rw [happend', hlength] at hRest
    intro q hq
    simp only [closings, List.mem_append, List.mem_map, Option.mem_toList] at hq
    rcases hq with hq | ⟨c, hc, rfl⟩ | hq
    · exact hInner q hq
    · rw [hc] at hs
      have hplace : front.length + 1 + inner.indices.length =
          (front ++ s.opening :: inner.indices).length := by
        simp
        omega
      refine ⟨hs, by simp [indices], ?_⟩
      rw [hplace]
      simp [indices, hc]
    · exact hRest q hq

theorem exists_closing_of_mem_enclosures {row : SpanForest} {o c : Nat} {inside : List Nat}
    (h : (o, c, inside) ∈ row.enclosures) (first : Nat) :
    ∃ place, (place, o, c) ∈ row.closings first := by
  induction row generalizing first with
  | nil => simp [enclosures] at h
  | node s start stop inner rest ihInner ihRest =>
    simp only [closings, List.mem_append, List.mem_map, Option.mem_toList]
    simp only [enclosures, List.mem_append, List.mem_map, Option.mem_toList] at h
    rcases h with ⟨c', hc', heq⟩ | h | h
    · obtain ⟨rfl, rfl, rfl⟩ : s.opening = o ∧ c' = c ∧ inner.indices = inside := by
        simpa using heq
      exact ⟨_, .inr (.inl ⟨c', hc', rfl⟩)⟩
    · obtain ⟨place, hplace⟩ := ihInner h (first + 1)
      exact ⟨place, .inl hplace⟩
    · obtain ⟨place, hplace⟩ :=
        ihRest h (first + 1 + inner.indices.length + s.closing.toList.length)
      exact ⟨place, .inr (.inr hplace)⟩

/-- **The pairs of a row are the pairs it was made of**, wherever their tags stand now. -/
theorem mem_closings_iff {pairs : List (Nat × Nat)} {row : SpanForest} (hrow : row.Follows pairs)
    (hnodup : row.indices.Nodup)
    (hheld : ∀ o c, (o, c) ∈ pairs → ∃ inside, (o, c, inside) ∈ row.enclosures) {i j : Nat} :
    (i, j) ∈ (row.closings 0).map Prod.fst ↔
      ∃ o c, row.indices[i]? = some o ∧ row.indices[j]? = some c ∧ (o, c) ∈ pairs := by
  have hplaces := closings_places hrow [] []
  simp only [List.nil_append, List.append_nil, List.length_nil] at hplaces
  constructor
  · intro h
    obtain ⟨q, hq, heq⟩ := List.mem_map.mp h
    obtain ⟨hpair, hopening, hclosing⟩ := hplaces q hq
    rw [heq] at hopening hclosing
    exact ⟨q.2.1, q.2.2, hopening, hclosing, hpair⟩
  · rintro ⟨o, c, ho, hc, hpair⟩
    obtain ⟨inside, hinside⟩ := hheld o c hpair
    obtain ⟨place, hplace⟩ := exists_closing_of_mem_enclosures hinside 0
    obtain ⟨-, hopening, hclosing⟩ := hplaces _ hplace
    have hi : i = place.1 :=
      (List.getElem?_inj (List.getElem?_eq_some_iff.mp ho).1 hnodup).mp (ho.trans hopening.symm)
    have hj : j = place.2 :=
      (List.getElem?_inj (List.getElem?_eq_some_iff.mp hc).1 hnodup).mp (hc.trans hclosing.symm)
    exact List.mem_map.mpr ⟨_, hplace, by rw [hi, hj]⟩

end SpanForest

/-! ## Balanced tags -/

namespace Pairing

/-- Whether no tag that begins or ends an element is without a partner. -/
def IsBalanced (p : Pairing) : Prop :=
  ∀ i tag, p.tags[i]? = some tag → tag.type = .closing ∨ tag.begins = true →
    (p.partner? i).isSome = true

/-- Among balanced tags, one without a partner neither begins nor ends an element. -/
theorem IsBalanced.stands_alone {tags : List Tag} (h : (ofTags tags).IsBalanced) {i : Nat} {t : Tag}
    (ht : (ofTags tags).tags[i]? = some t) (hopens : ∀ c, (i, c) ∉ (ofTags tags).pairs)
    (hcloses : ∀ o, (o, i) ∉ (ofTags tags).pairs) : t.begins = false ∧ t.type ≠ .closing := by
  have hfree : ¬ ((ofTags tags).partner? i).isSome = true := by
    rw [isSome_partner?_iff (ofTags_areNested tags)]
    rintro ⟨⟨o, c⟩, hq, rfl | rfl⟩
    · exact hopens c hq
    · exact hcloses o hq
  have hacts := mt (h i t ht) hfree
  exact ⟨Bool.eq_false_iff.mpr fun hb => hacts (.inr hb), fun hc => hacts (.inl hc)⟩

end Pairing

namespace IsCarried

variable {source tags : List Tag} {order : List Nat}

/-- The tag of the source from which a tag comes. -/
theorem exists_source (h : IsCarried source tags order) {i : Nat} {t : Tag}
    (ht : tags[i]? = some t) :
    ∃ k u, order[i]? = some k ∧ source[k]? = some u ∧ u.bare = t.bare := by
  have heq := congrArg (·[i]?) h.same
  simp only [List.getElem?_map, ht, Option.map_some] at heq
  obtain ⟨k, hk, hsame⟩ := Option.map_eq_some_iff.mp heq.symm
  obtain ⟨u, hu, hbare⟩ := Option.map_eq_some_iff.mp hsame
  exact ⟨k, u, hk, hu, hbare⟩

/-- The place to which a tag of the source comes. -/
theorem exists_place (h : IsCarried source tags order) {k : Nat} (hk : k < source.length) :
    ∃ i : Nat, order[i]? = some k :=
  List.mem_iff_getElem?.mp (h.perm.mem_iff.mpr (List.mem_range.mpr hk))

/-- Tags in another order, named one by one. -/
theorem exists_map (h : IsCarried source tags order) : ∃ f : Nat → Tag,
    (∀ i t, source[i]? = some t → f i = t.bare) ∧ tags.map Tag.bare = order.map f := by
  refine ⟨fun i => (source[i]?.map Tag.bare).getD ⟨.xml, [], [], none, none, 0, .empty, false⟩,
    fun i t ht => by simp [ht], ?_⟩
  apply (List.map_inj_right fun _ _ => Option.some.inj).mp
  rw [h.same, List.map_map]
  apply List.map_congr_left
  intro i hi
  have hlt : i < source.length := List.mem_range.mp (h.perm.subset hi)
  simp [hlt]

end IsCarried

namespace Translation

open Pairing (ofTags)

section

variable {source tags : List Tag} {row : SpanForest}

/-- **A translation has the pairs of its source.** -/
theorem mem_pairs_iff (hbalanced : (ofTags source).IsBalanced)
    (hcarried : IsCarried (ofTags source).tags (ofTags tags).tags row.indices)
    (hrow : row.Follows (ofTags source).pairs)
    (hheld : ∀ o c, (o, c) ∈ (ofTags source).pairs → ∃ inside, (o, c, inside) ∈ row.enclosures)
    {i j : Nat} :
    (i, j) ∈ (ofTags tags).pairs ↔ ∃ o c, row.indices[i]? = some o ∧
      row.indices[j]? = some c ∧ (o, c) ∈ (ofTags source).pairs := by
  obtain ⟨f, hf, hmap⟩ := hcarried.exists_map
  have hpair : ∀ o c, (o, c) ∈ (ofTags source).pairs → (f c).closes (f o) = true := by
    intro o c hp
    obtain ⟨t, u, ht, hu, hcloses⟩ := Pairing.closes_of_mem_pairs hp
    rw [hf o t ht, hf c u hu]
    exact hcloses
  have hsingle : ∀ i ∈ row.indices, (∀ c, (i, c) ∉ (ofTags source).pairs) →
      (∀ o, (o, i) ∉ (ofTags source).pairs) → (f i).begins = false ∧ (f i).type ≠ .closing := by
    intro i hi hopens hcloses
    have ht := List.getElem?_eq_getElem (List.mem_range.mp (hcarried.perm.subset hi))
    have halone := hbalanced.stands_alone ht hopens hcloses
    rwa [hf i _ ht]
  have hbare : Pairing.pairsFrom 0 [] ((ofTags tags).tags.map Tag.bare) = (ofTags tags).pairs :=
    Pairing.pairsFrom_map (f := Tag.bare) (fun _ => rfl) (fun _ => rfl) (fun _ => rfl) 0 [] _
  have hfound := SpanForest.pairsFrom_indices hpair hsingle hrow 0 [] []
  rw [List.append_nil, ← hmap, hbare] at hfound
  have hpairs : (ofTags tags).pairs = (row.closings 0).map Prod.fst := by
    simpa [Pairing.pairsFrom] using hfound
  rw [hpairs]
  exact SpanForest.mem_closings_iff hrow (hcarried.perm.nodup_iff.mpr List.nodup_range) hheld

theorem isBalanced_of_mem_pairs_iff {order : List Nat} (hbalanced : (ofTags source).IsBalanced)
    (hcarried : IsCarried (ofTags source).tags (ofTags tags).tags order)
    (hpairs : ∀ i j, (i, j) ∈ (ofTags tags).pairs ↔
      ∃ o c, order[i]? = some o ∧ order[j]? = some c ∧ (o, c) ∈ (ofTags source).pairs) :
    (ofTags tags).IsBalanced := by
  intro i t ht hacts
  obtain ⟨k, u, hk, hu, hbare⟩ := hcarried.exists_source ht
  obtain ⟨-, -, -, htype, hdeclaration⟩ := Tag.bare_eq_bare_iff.mp hbare
  have hacts' : u.type = .closing ∨ u.begins = true := by
    rwa [Tag.begins, htype, hdeclaration]
  have hpartner := hbalanced k u hu hacts'
  rw [Pairing.isSome_partner?_iff (Pairing.ofTags_areNested source)] at hpartner
  rw [Pairing.isSome_partner?_iff (Pairing.ofTags_areNested tags)]
  obtain ⟨⟨o, c⟩, hq, rfl | rfl⟩ := hpartner
  · obtain ⟨-, hcount⟩ := (Pairing.ofTags_areNested source).bounds _ hq
    obtain ⟨j, hj⟩ := hcarried.exists_place hcount
    exact ⟨(i, j), (hpairs i j).mpr ⟨o, c, hk, hj, hq⟩, .inl rfl⟩
  · obtain ⟨hlt, hcount⟩ := (Pairing.ofTags_areNested source).bounds _ hq
    obtain ⟨j, hj⟩ := hcarried.exists_place (Nat.lt_trans hlt hcount)
    exact ⟨(j, i), (hpairs j i).mpr ⟨o, c, hj, hk, hq⟩, .inr rfl⟩

end

/-- **Balanced markup stays balanced.** Pairing the tags of a translation finds the images of the
pairs of the source and no others, and no tag that begins or ends an element is left over. -/
theorem projectTags_keeps_balance (policy : UnalignedPolicy) (words : List Word) {source : Sentence}
    {alignment : Alignment} (hwords : source.words ≠ [])
    (hbalanced : (ofTags source.tags).IsBalanced) (halign : alignment.toList ≠ [])
    (hrange : ∀ p ∈ alignment.toList, p.1 < source.words.length ∧ p.2 < words.length) :
    ∃ t' order, (ofWords words source alignment).projectTags policy = .ok t' ∧
      IsCarried (ofTags source.tags).tags (ofTags t'.sentence.tags).tags order ∧
      (∀ i j, (i, j) ∈ (ofTags t'.sentence.tags).pairs ↔
        ∃ o c, order[i]? = some o ∧ order[j]? = some c ∧ (o, c) ∈ (ofTags source.tags).pairs) ∧
      (ofTags t'.sentence.tags).IsBalanced := by
  have hempty : (ofWords words source alignment).sentence.tags = [] := by
    simp [ofWords, Sentence.ofTokens, Sentence.sortTags]
  obtain ⟨t', row, hok, hrearranged, hcarried, hspread, -⟩ :=
    exists_carried policy (t := ofWords words source alignment) rfl hwords (fun _ => hempty) halign
      hrange
  have hsorted : (ofTags t'.sentence.tags).tags = t'.sentence.tags :=
    Sentence.sortTags_eq_self hspread.ascending
  rw [← hsorted] at hcarried
  have hrow := hrearranged.follows source.reads_spanTree.follows
  have hheld : ∀ o c, (o, c) ∈ (ofTags source.tags).pairs →
      ∃ inside, (o, c, inside) ∈ row.enclosures := by
    intro o c hp
    obtain ⟨held, hheld, -⟩ :=
      source.reads_spanTree.exists_enclosure (Pairing.ofTags_areNested source.tags) hp
    obtain ⟨inside, hinside, -⟩ := hrearranged.exists_enclosure hheld
    exact ⟨inside, hinside⟩
  have hpairs := fun i j => @mem_pairs_iff _ _ _ hbalanced hcarried hrow hheld i j
  exact ⟨t', row.indices, hok, hcarried, hpairs,
    isBalanced_of_mem_pairs_iff hbalanced hcarried hpairs⟩

/-- An element inside another one, behind a tag that stands alone. -/
def nestedTags : List Tag :=
  [⟨.xml, ['p'], "<p>".toList, none, none, 0, .opening, false⟩,
    ⟨.xml, ['b', 'r'], "<br/>".toList, none, none, 1, .empty, false⟩,
    ⟨.xml, ['q'], "<q>".toList, none, none, 1, .opening, false⟩,
    ⟨.xml, ['q'], "</q>".toList, none, none, 2, .closing, false⟩,
    ⟨.xml, ['p'], "</p>".toList, none, none, 2, .closing, false⟩]

/-- Two words with the tags around them. -/
def nestedSource : Sentence :=
  .ofTokens [.ofText none ['a'] none none, .ofText none ['b'] none none] nestedTags

theorem projectTags_keeps_balance_nestedSource :
    nestedSource.words ≠ [] ∧ (ofTags nestedSource.tags).IsBalanced ∧
      (Alignment.ofPairs [(0, 1), (1, 0)]).toList ≠ [] ∧
      (∀ p ∈ (Alignment.ofPairs [(0, 1), (1, 0)]).toList,
        p.1 < nestedSource.words.length ∧ p.2 < nestedSource.words.length) ∧
      ∃ t', (ofWords nestedSource.words nestedSource (.ofPairs [(0, 1), (1, 0)])).projectTags
          .nearest = .ok t' ∧
        (t'.sentence.tags.map Tag.text).Perm (nestedTags.map Tag.text) ∧
        (ofTags t'.sentence.tags).IsBalanced := by
  have hsorted : Sentence.sortTags nestedTags = nestedTags :=
    Sentence.sortTags_eq_self (by decide)
  have hpairing : ofTags nestedSource.tags = ⟨nestedTags, [(2, 3), (0, 4)]⟩ := by
    rw [nestedSource, Sentence.ofTokens, hsorted, ofTags, hsorted]
    rfl
  have hbalanced : (ofTags nestedSource.tags).IsBalanced := by
    rw [hpairing]
    intro i t ht
    obtain ⟨hi, rfl⟩ := List.getElem?_eq_some_iff.mp ht
    revert i
    decide
  have hwords : nestedSource.words ≠ [] := by decide
  have halign : (Alignment.ofPairs [(0, 1), (1, 0)]).toList ≠ [] := by decide
  have hrange : ∀ p ∈ (Alignment.ofPairs [(0, 1), (1, 0)]).toList,
      p.1 < nestedSource.words.length ∧ p.2 < nestedSource.words.length := by decide
  obtain ⟨t', order, hok, hcarried, -, hkept⟩ :=
    projectTags_keeps_balance .nearest nestedSource.words hwords hbalanced halign hrange
  refine ⟨hwords, hbalanced, halign, hrange, t', hok, ?_, hkept⟩
  have htexts := hcarried.bare_perm.map Tag.text
  rw [List.map_map, List.map_map, hpairing] at htexts
  exact ((Sentence.sortTags_perm _).map Tag.text).symm.trans htexts

end Translation

end MarkupTransfer
