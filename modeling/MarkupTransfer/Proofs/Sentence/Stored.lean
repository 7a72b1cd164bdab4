import Mathlib
import MarkupTransfer.Sentence.Stored
import MarkupTransfer.Proofs.Json.RoundTrip
/-!
# Stored sentences are read back

What a sentence is stored as is read back as the sentence, whatever its words and tags are, so long
as the positions of its tags can be stored. Those of a sentence that has been read can.

* `Json.record?_zip`: the fields of a record are found again.
* `Word.ofJson?_toJson`, `Tag.ofJson?_toJson`, `Sentence.ofJson?_toJson`: values are read back.
* `Sentence.position_le_of_ofJson?`: positions that have been read can be stored.
* `Sentence.load?_stored`: sentences are read back from their values and from the texts of these.
-/

namespace MarkupTransfer

namespace Json

/-! ## Lists and records -/

theorem mapM_eq_some_iff {α β : Type} {f : α → Option β} {xs : List α} {ys : List β} :
    xs.mapM f = some ys ↔ List.Forall₂ (fun x y => f x = some y) xs ys := by
  induction xs generalizing ys with
  | nil => simp [eq_comm]
  | cons x xs ih =>
    rw [List.mapM_cons, List.forall₂_cons_left_iff]
    simp only [Option.bind_eq_bind, Option.bind_eq_some_iff, Option.pure_def, Option.some.injEq, ih]
    constructor
    · rintro ⟨y, hy, ys, hys, rfl⟩
      exact ⟨y, ys, hy, hys, rfl⟩
    · rintro ⟨y, ys, hy, hys, rfl⟩
      exact ⟨y, hy, ys, hys, rfl⟩

/-- A list of values is read back if every one of them is. -/
theorem list?_map {α : Type} {read : Json → Option α} {write : α → Json} {xs : List α}
    (h : ∀ x ∈ xs, read (write x) = some x) : list? read (array (xs.map write)) = some xs := by
  rw [list?, mapM_eq_some_iff, List.forall₂_map_left_iff, List.forall₂_same]
  exact h

/-- What is in a list that has been read has been read. -/
theorem exists_of_mem_list? {α : Type} {read : Json → Option α} {j : Json} {xs : List α}
    (h : list? read j = some xs) {x : α} (hx : x ∈ xs) : ∃ i, read i = some x := by
  unfold list? at h
  split at h
  · replace h := mapM_eq_some_iff.mp h
    induction h with
    | nil => cases hx
    | cons hread _ ih =>
      rcases List.mem_cons.mp hx with rfl | hx
      · exact ⟨_, hread⟩
      · exact ih hx
  · cases h

theorem field?_eq_some {fields : List (Text × Json)} (hnames : (fields.map Prod.fst).Nodup)
    {name : Text} {j : Json} (hmem : (name, j) ∈ fields) : field? fields name = some (some j) := by
  obtain ⟨front, back, rfl⟩ := List.append_of_mem hmem
  have hfound :
      (front ++ (name, j) :: back).filter (fun field => field.1 == name) = [(name, j)] := by
    rw [List.map_append, List.map_cons, List.nodup_middle, List.nodup_cons] at hnames
    have hnone : ∀ field ∈ front ++ back, ¬ (field.1 == name) = true := by
      intro field hfield hname
      apply hnames.1
      rw [← List.map_append, List.mem_map]
      exact ⟨field, hfield, beq_iff_eq.mp hname⟩
    simp only [List.forall_mem_append] at hnone
    rw [List.filter_append, List.filter_eq_nil_iff.mpr hnone.1, List.filter_cons_of_pos (by simp),
      List.filter_eq_nil_iff.mpr hnone.2, List.nil_append]
  rw [field?, hfound]

/-- **The fields of a record are found again**, one value for each of their names. -/
theorem record?_zip {names : List Text} {values : List Json} (hnames : names.Nodup)
    (hlength : names.length = values.length) :
    record? names (object (names.zip values)) = some (values.map some) := by
  rw [record?, mapM_eq_some_iff, List.forall₂_map_right_iff, List.forall₂_iff_zip]
  refine ⟨hlength, fun hmem => field?_eq_some ?_ hmem⟩
  rwa [List.map_fst_zip (Nat.le_of_eq hlength)]

end Json

/-! ## Spaces and texts -/

theorem Space.optional?_optionToJson (s : Option Space) :
    Json.optional? ofJson? (some (optionToJson s)) = some s := by
  rcases s with _ | _ | _ <;> rfl

theorem Text.optional?_optionToJson (t : Option Text) :
    Json.optional? Json.text? (some (optionToJson t)) = some t := by
  cases t <;> rfl

/-! ## Words -/

theorem Word.ofJson?_toJson (w : Word) : ofJson? w.toJson = some w := by
  rw [ofJson?, toJson, Json.record?_zip (by decide) rfl]
  simp [Text.optional?_optionToJson, Space.optional?_optionToJson, Json.text?, Json.bool?]

/-! ## Tags -/

theorem TagKind.ofJson?_storedName (k : TagKind) : ofJson? (.string k.storedName) = some k := by
  cases k <;> decide

theorem TagType.ofJson?_storedName (k : TagType) : ofJson? (.string k.storedName) = some k := by
  cases k <;> decide

theorem Json.count?_integer {n : Nat} (h : n ≤ Text.maxCount) : count? (integer n) = some n := by
  simp [count?, h]

theorem Json.le_maxCount_of_count? {j : Json} {n : Nat} (h : j.count? = some n) :
    n ≤ Text.maxCount := by
  unfold count? at h
  split at h
  · split at h
    · obtain rfl := Option.some.inj h
      omega
    · cases h
  · cases h

theorem Tag.ofJson?_toJson {t : Tag} (h : t.position ≤ Text.maxCount) :
    ofJson? t.toJson = some t := by
  rw [ofJson?, toJson, Json.record?_zip (by decide) rfl]
  simp [Space.optional?_optionToJson, Json.text?, Json.bool?, TagKind.ofJson?_storedName,
    TagType.ofJson?_storedName, Json.count?_integer h]

/-- A position that has been read can be stored. -/
theorem Tag.position_le_of_ofJson? {j : Json} {t : Tag} (h : ofJson? j = some t) :
    t.position ≤ Text.maxCount := by
  unfold ofJson? at h
  split at h
  · next position _ _ _ =>
    simp only [Option.bind_eq_bind, Option.bind_eq_some_iff, Option.pure_def, Option.some.injEq]
      at h
    obtain ⟨_, -, _, -, _, -, _, -, _, -, n, ⟨k, -, hposition⟩, _, -, _, -, rfl⟩ := h
    exact Json.le_maxCount_of_count? hposition
  · cases h

/-! ## Sentences -/

namespace Sentence

theorem annotations_ofList (a : Annotations) : SortedSet.ofList a.toList = a :=
  SortedSet.ext_toList fun _ => SortedSet.mem_ofList

theorem ofJson?_toJson {s : Sentence} (h : ∀ t ∈ s.tags, t.position ≤ Text.maxCount) :
    ofJson? s.toJson = some s := by
  have hwords : Json.list? Word.ofJson? (.array (s.words.map Word.toJson)) = some s.words :=
    Json.list?_map fun w _ => w.ofJson?_toJson
  have htags : Json.list? Tag.ofJson? (.array (s.tags.map Tag.toJson)) = some s.tags :=
    Json.list?_map fun t ht => Tag.ofJson?_toJson (h t ht)
  have hannotations : Json.list? Json.text? (.array (s.annotations.toList.map .string)) =
      some s.annotations.toList :=
    Json.list?_map fun _ _ => rfl
  rw [ofJson?, toJson, Json.record?_zip (by decide) rfl]
  simp [hwords, htags, hannotations, Json.bool?, annotations_ofList]

theorem position_le_of_ofJson? {j : Json} {s : Sentence} (h : ofJson? j = some s) :
    ∀ t ∈ s.tags, t.position ≤ Text.maxCount := by
  unfold ofJson? at h
  split at h
  · simp only [Option.bind_eq_bind, Option.bind_eq_some_iff, Option.pure_def, Option.some.injEq]
      at h
    obtain ⟨_, -, tags, ⟨k, -, htags⟩, _, -, _, -, rfl⟩ := h
    intro t ht
    obtain ⟨i, hi⟩ := Json.exists_of_mem_list? htags ht
    exact Tag.position_le_of_ofJson? hi
  · cases h

/-- **A sentence is stored without loss.** Any sentence whose positions can be counted is read back
from its value, and from the text of its value, whatever its texts, its spaces, the order of its
tags and its flags are. Any value that is read as a sentence, with fields missing or fields that are
not asked for, is written anew as a text that is read as the same sentence and written as the same
text. -/
theorem load?_stored :
    (∀ s : Sentence, (∀ t ∈ s.tags, t.position ≤ Text.maxCount) →
      ofJson? s.toJson = some s ∧ load? s.stored = some s) ∧
    ∀ j s, ofJson? j = some s →
      ∃ s', ofJson? s.toJson = some s' ∧ load? s.stored = some s' ∧ s' = s ∧
        s'.stored = s.stored := by
  have hload : ∀ s : Sentence, (∀ t ∈ s.tags, t.position ≤ Text.maxCount) →
      load? s.stored = some s := by
    intro s h
    rw [load?, stored, Json.read?_write, Option.bind_some, ofJson?_toJson h]
  refine ⟨fun s h => ⟨ofJson?_toJson h, hload s h⟩, fun j s hread => ?_⟩
  have h := position_le_of_ofJson? hread
  exact ⟨s, ofJson?_toJson h, hload s h, rfl, rfl⟩

/-- A sentence with characters that have to be escaped and others that need not be, with a space of
no characters and one that is spelled like a boundary, and with tags out of order. -/
def oddSentence : Sentence where
  words := [⟨some ['"', '\\', '\n', '\x01', '\u00e9'], [], some (.literal []), some .virtual, true,
    false, true⟩]
  tags := [⟨.xml, ['b'], "<b>".toList, some (.literal "virtual".toList), none, Text.maxCount,
      .closing, true⟩,
    ⟨.whitespace, [], ['\t'], none, none, 0, .empty, false⟩]
  spaceConsistent := true
  annotations := .ofList [['z'], ['a'], ['z']]

theorem load?_stored_oddSentence :
    (∀ t ∈ oddSentence.tags, t.position ≤ Text.maxCount) ∧
      load? oddSentence.stored = some oddSentence ∧
      oddSentence.tags.map (fun t => (Space.optionToJson t.leftSpace).write) =
        ["\x7b\"literal\":\"virtual\"\x7d".toList, "null".toList] := by
  have hpositions : ∀ t ∈ oddSentence.tags, t.position ≤ Text.maxCount := by decide
  exact ⟨hpositions, (load?_stored.1 oddSentence hpositions).2, by decide⟩

end Sentence

end MarkupTransfer
