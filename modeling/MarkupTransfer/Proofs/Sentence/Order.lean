import MarkupTransfer.Sentence.Basic
/-!
# Document order of numbered tags

A row of tokens is numbered if every tag in it stands at the number of words before it. Taken apart
into words and tags, such a row is put together again by document order.

* `IsNumbered.mem_takeWhile_iff`: a position tells which tags directly follow a word.
* `interleave_of_isNumbered`: document order gives back a numbered row of tokens.
* `interleave_map`: document order looks at nothing but positions.
* `sortTags_eq_self`: tags in order stay where they are.
-/

namespace MarkupTransfer

namespace Token

/-- A token with its word or its tag changed. -/
def map (f : Word → Word) (g : Tag → Tag) : Token → Token
  | word w => word (f w)
  | tag t => tag (g t)

@[simp] theorem filterMap_word?_word (w : Word) (ts : List Token) :
    (word w :: ts).filterMap word? = w :: ts.filterMap word? := rfl

@[simp] theorem filterMap_word?_tag (t : Tag) (ts : List Token) :
    (tag t :: ts).filterMap word? = ts.filterMap word? := rfl

@[simp] theorem filterMap_tag?_word (w : Word) (ts : List Token) :
    (word w :: ts).filterMap tag? = ts.filterMap tag? := rfl

@[simp] theorem filterMap_tag?_tag (t : Tag) (ts : List Token) :
    (tag t :: ts).filterMap tag? = t :: ts.filterMap tag? := rfl

theorem filterMap_word?_map (f : Word → Word) (g : Tag → Tag) (ts : List Token) :
    (ts.map (map f g)).filterMap word? = (ts.filterMap word?).map f := by
  induction ts with
  | nil => rfl
  | cons t ts ih =>
    cases t <;>
      simp only [List.map_cons, map, filterMap_word?_word, filterMap_word?_tag, ih]

theorem filterMap_tag?_map (f : Word → Word) (g : Tag → Tag) (ts : List Token) :
    (ts.map (map f g)).filterMap tag? = (ts.filterMap tag?).map g := by
  induction ts with
  | nil => rfl
  | cons t ts ih =>
    cases t <;>
      simp only [List.map_cons, map, filterMap_tag?_word, filterMap_tag?_tag, ih]

/-- Every tag of a row stands at the number of words before it, `count` words having gone before the
row. -/
def IsNumbered (count : Nat) : List Token → Prop
  | [] => True
  | word _ :: ts => IsNumbered (count + 1) ts
  | tag t :: ts => t.position = count ∧ IsNumbered count ts

theorem IsNumbered.le_position {count : Nat} {ts : List Token} (h : IsNumbered count ts) :
    ∀ t ∈ ts.filterMap tag?, count ≤ t.position := by
  induction ts generalizing count with
  | nil => simp
  | cons token ts ih =>
    cases token with
    | word w =>
      intro t ht
      have := ih h t ht
      omega
    | tag u =>
      intro t ht
      rcases List.mem_cons.mp ht with rfl | ht
      · exact Nat.le_of_eq h.1.symm
      · exact ih h.2 t ht

theorem IsNumbered.ascending {count : Nat} {ts : List Token} (h : IsNumbered count ts) :
    (ts.filterMap tag?).Pairwise fun a b => a.position ≤ b.position := by
  induction ts generalizing count with
  | nil => simp
  | cons token ts ih =>
    cases token with
    | word w =>
      have hrest : IsNumbered (count + 1) ts := h
      exact ih hrest
    | tag u =>
      refine List.pairwise_cons.mpr ⟨fun t ht => ?_, ih h.2⟩
      rw [h.1]
      exact h.2.le_position t ht

/-- Whether a token is a tag. -/
def isTag (t : Token) : Bool := t.cls == .tag

@[simp] theorem isTag_word (w : Word) : (word w).isTag = false := rfl

@[simp] theorem isTag_tag (t : Tag) : (tag t).isTag = true := rfl

@[simp] theorem isTag_map (f : Word → Word) (g : Tag → Tag) (t : Token) :
    (t.map f g).isTag = t.isTag := by
  cases t <;> rfl

theorem isTag_eq_isTag_iff {x y : Token} : x.isTag = y.isTag ↔ x.cls = y.cls := by
  cases x <;> cases y <;> simp [isTag, cls]

theorem mem_filterMap_tag? {t : Tag} {ts : List Token} :
    t ∈ ts.filterMap tag? ↔ .tag t ∈ ts := by
  rw [List.mem_filterMap]
  constructor
  · rintro ⟨token, hmem, htoken⟩
    cases token with
    | word w => cases htoken
    | tag u =>
      obtain rfl := Option.some.inj htoken
      exact hmem
  · exact fun hmem => ⟨_, hmem, rfl⟩

theorem mem_filterMap_word? {w : Word} {ts : List Token} :
    w ∈ ts.filterMap word? ↔ .word w ∈ ts := by
  rw [List.mem_filterMap]
  constructor
  · rintro ⟨token, hmem, htoken⟩
    cases token with
    | word v =>
      obtain rfl := Option.some.inj htoken
      exact hmem
    | tag t => cases htoken
  · exact fun hmem => ⟨_, hmem, rfl⟩

/-- Whether a row is numbered shows in the positions of its tags alone. -/
theorem isNumbered_map {f : Word → Word} {g : Tag → Tag} (hg : ∀ t, (g t).position = t.position)
    {count : Nat} {ts : List Token} :
    IsNumbered count (ts.map (map f g)) ↔ IsNumbered count ts := by
  induction ts generalizing count with
  | nil => rfl
  | cons token ts ih =>
    cases token with
    | word w => exact ih
    | tag t => exact and_congr (by rw [hg]) ih

namespace IsNumbered

theorem drop {count : Nat} {front back : List Token} (h : IsNumbered count (front ++ back)) :
    IsNumbered (count + (front.filterMap word?).length) back := by
  induction front generalizing count with
  | nil => exact h
  | cons token front ih =>
    cases token with
    | word w =>
      have hrest : IsNumbered (count + 1) (front ++ back) := h
      rw [filterMap_word?_word, List.length_cons, Nat.add_comm _ 1, ← Nat.add_assoc]
      exact ih hrest
    | tag t => exact ih h.2

theorem position_eq {count : Nat} {front back : List Token} {t : Tag}
    (h : IsNumbered count (front ++ .tag t :: back)) :
    t.position = count + (front.filterMap word?).length := h.drop.1

theorem position_le {count : Nat} {front back : List Token}
    (h : IsNumbered count (front ++ back)) {t : Tag} (ht : .tag t ∈ front) :
    t.position ≤ count + (front.filterMap word?).length := by
  obtain ⟨before, behind, rfl⟩ := List.append_of_mem ht
  rw [List.append_assoc, List.cons_append] at h
  rw [h.position_eq, List.filterMap_append, List.length_append]
  omega

/-- **The tags at the head of a row are those whose position has just been reached.** -/
theorem mem_takeWhile_iff {count : Nat} {ts : List Token} (h : IsNumbered count ts) {t : Tag} :
    .tag t ∈ ts.takeWhile isTag ↔ .tag t ∈ ts ∧ t.position = count := by
  induction ts with
  | nil => simp
  | cons token ts ih =>
    cases token with
    | word w =>
      have hrest : IsNumbered (count + 1) ts := h
      refine iff_of_false (by simp) fun ⟨hmem, hposition⟩ => ?_
      have := hrest.le_position t (mem_filterMap_tag?.mpr (by simpa using hmem))
      omega
    | tag u =>
      rw [List.takeWhile_cons_of_pos rfl, List.mem_cons, List.mem_cons, ih h.2]
      constructor
      · rintro (heq | ⟨hmem, hposition⟩)
        · obtain rfl := Token.tag.inj heq
          exact ⟨.inl rfl, h.1⟩
        · exact ⟨.inr hmem, hposition⟩
      · rintro ⟨hmem, hposition⟩
        exact hmem.imp_right fun hmem => ⟨hmem, hposition⟩

end IsNumbered

end Token

namespace Sentence

theorem sortTags_eq_self {tags : List Tag}
    (h : tags.Pairwise fun a b => a.position ≤ b.position) : sortTags tags = tags :=
  List.mergeSort_of_pairwise (by simpa using h)

theorem filterMap_word?_tokens (s : Sentence) : s.tokens.filterMap Token.word? = s.words :=
  filterMap_word?_interleave 0 s.words s.tags

theorem filterMap_tag?_tokens (s : Sentence) : s.tokens.filterMap Token.tag? = s.tags :=
  filterMap_tag?_interleave 0 s.words s.tags

theorem word_mem_tokens_iff {s : Sentence} {w : Word} : .word w ∈ s.tokens ↔ w ∈ s.words := by
  rw [← Token.mem_filterMap_word?, filterMap_word?_tokens]

theorem tag_mem_tokens_iff {s : Sentence} {t : Tag} : .tag t ∈ s.tokens ↔ t ∈ s.tags := by
  rw [← Token.mem_filterMap_tag?, filterMap_tag?_tokens]

/-- Document order looks at nothing but the positions of tags. -/
theorem interleave_map (f : Word → Word) {g : Tag → Tag}
    (hg : ∀ t, (g t).position = t.position) (count : Nat) (words : List Word) (tags : List Tag) :
    interleave count (words.map f) (tags.map g) =
      (interleave count words tags).map (Token.map f g) := by
  induction words generalizing count tags with
  | nil => simp [interleave, Token.map]
  | cons w words ih =>
    have hp : ((fun t : Tag => decide (t.position ≤ count)) ∘ g) =
        fun t : Tag => decide (t.position ≤ count) := funext fun t => by simp [hg]
    simp only [List.map_cons, interleave, List.takeWhile_map, List.dropWhile_map, hp, ih,
      List.map_append, List.map_map]
    rfl

theorem interleave_cons_tag {count : Nat} (words : List Word) {t : Tag} (tags : List Tag)
    (h : t.position ≤ count) :
    interleave count words (t :: tags) = .tag t :: interleave count words tags := by
  cases words with
  | nil => rfl
  | cons w words => simp [interleave, h]

theorem interleave_cons_word {count : Nat} (w : Word) (words : List Word) {tags : List Tag}
    (h : ∀ t ∈ tags.head?, count < t.position) :
    interleave count (w :: words) tags = .word w :: interleave (count + 1) words tags := by
  cases tags with
  | nil => rfl
  | cons t tags =>
    have ht : ¬ t.position ≤ count := Nat.not_le.mpr (h t rfl)
    simp [interleave, ht]

/-- **Document order gives back a numbered row of tokens.** -/
theorem interleave_of_isNumbered {count : Nat} {ts : List Token} (h : Token.IsNumbered count ts) :
    interleave count (ts.filterMap Token.word?) (ts.filterMap Token.tag?) = ts := by
  induction ts generalizing count with
  | nil => rfl
  | cons token ts ih =>
    cases token with
    | word w =>
      have hrest : Token.IsNumbered (count + 1) ts := h
      rw [Token.filterMap_word?_word, Token.filterMap_tag?_word,
        interleave_cons_word w _ fun t ht => hrest.le_position t (List.mem_of_mem_head? ht),
        ih hrest]
    | tag t =>
      rw [Token.filterMap_word?_tag, Token.filterMap_tag?_tag,
        interleave_cons_tag _ _ (Nat.le_of_eq h.1), ih h.2]

end Sentence

end MarkupTransfer
