import MarkupTransfer.Space
/-!
# What is made of two spaces

A boundary has characters just if one of the two spaces that describe it has, and none of them is
lost but beside a tag, where the space on the right has precedence even if it is empty. Merging what
was made of two spaces with itself changes nothing.

* `mergeSpace_self`, `eq_word_of_mergeSpace_eq_virtual`: what may stand at a boundary, and that it
  stays.
* `isLiteral_mergeSpace_iff`: when a boundary has characters of the text.
* `isSeen_mergeSpace_iff`: when they are seen.
-/

namespace MarkupTransfer.Space

variable {left right : Option Space} {c d : TokenClass}

/-- Whether a side records white space that is seen: at least one character of the text. -/
def IsSeen (s : Option Space) : Prop := ∃ text, text ≠ [] ∧ s = some (literal text)

/-- Whether a side records characters of the text, be they none. -/
def IsLiteral (s : Option Space) : Prop := ∃ text, s = some (literal text)

instance (s : Option Space) : Decidable (IsSeen s) :=
  match s with
  | none | some virtual => isFalse nofun
  | some (literal []) =>
    isFalse fun ⟨_, hne, heq⟩ => hne (Space.literal.inj (Option.some.inj heq)).symm
  | some (literal (c :: text)) => isTrue ⟨c :: text, nofun, rfl⟩

instance (s : Option Space) : Decidable (IsLiteral s) :=
  match s with
  | none | some virtual => isFalse nofun
  | some (literal text) => isTrue ⟨text, rfl⟩

@[simp] theorem onlyLiteral_none : onlyLiteral none = none := rfl

@[simp] theorem onlyLiteral_virtual : onlyLiteral (some virtual) = none := rfl

@[simp] theorem onlyLiteral_literal (text : Text) :
    onlyLiteral (some (literal text)) = some (literal text) := rfl

@[simp] theorem not_isSeen_none : ¬ IsSeen none := nofun

@[simp] theorem not_isSeen_virtual : ¬ IsSeen (some virtual) := nofun

@[simp] theorem isSeen_literal {text : Text} : IsSeen (some (literal text)) ↔ text ≠ [] :=
  ⟨fun ⟨_, hne, heq⟩ => Space.literal.inj (Option.some.inj heq) ▸ hne, fun h => ⟨text, h, rfl⟩⟩

@[simp] theorem not_isLiteral_none : ¬ IsLiteral none := nofun

@[simp] theorem not_isLiteral_virtual : ¬ IsLiteral (some virtual) := nofun

@[simp] theorem isLiteral_literal (text : Text) : IsLiteral (some (literal text)) := ⟨text, rfl⟩

@[simp] theorem isLiteral_onlyLiteral_iff {s : Option Space} :
    IsLiteral (onlyLiteral s) ↔ IsLiteral s := by
  rcases s with _ | _ | _ <;> simp

@[simp] theorem isSeen_onlyLiteral_iff {s : Option Space} : IsSeen (onlyLiteral s) ↔ IsSeen s := by
  rcases s with _ | _ | _ <;> simp

/-! ## Two kinds of boundary -/

theorem isLiteral_merge_iff : IsLiteral (merge left right) ↔ IsLiteral left ∨ IsLiteral right := by
  rcases left with _ | _ | _ <;> rcases right with _ | _ | _ <;> simp [merge]

theorem isSeen_merge_iff : IsSeen (merge left right) ↔ IsSeen left ∨ IsSeen right := by
  rcases left with _ | l | _ <;> rcases right with _ | r | _
  case some.literal.some.literal =>
    rw [merge, isSeen_literal, isSeen_literal, isSeen_literal]
    split
    · next heq => rw [heq, or_self]
    · rw [ne_eq, List.append_eq_nil_iff, Decidable.not_and_iff_not_or_not]
  all_goals simp [merge]

theorem mergeSpace_of_ne (carried : Option Space) (h : c ≠ d) :
    mergeSpace carried left right c d =
      (onlyLiteral right).or (onlyLiteral (merge carried left)) := by
  cases c <;> cases d
  · exact absurd rfl h
  · exact Option.orElse_eq_or
  · exact Option.orElse_eq_or
  · exact absurd rfl h

/-- Between tokens of one kind neither side has precedence. -/
theorem mergeSpace_self_cases (left right : Option Space) (c : TokenClass) :
    mergeSpace none left right c c = merge left right ∨
      mergeSpace none left right c c = merge (onlyLiteral left) (onlyLiteral right) := by
  cases c
  · exact .inl rfl
  · exact .inr rfl

/-- Beside a tag a boundary without characters does not last. -/
theorem eq_word_of_mergeSpace_eq_virtual (h : mergeSpace none left right c d = some virtual) :
    c = .word ∧ d = .word := by
  cases c <;> cases d
  · exact ⟨rfl, rfl⟩
  all_goals rcases left with _ | _ | _ <;> rcases right with _ | _ | _ <;> cases h

/-- A space that may stand at a boundary is what is made of it and itself there. -/
theorem mergeSpace_self {s : Option Space} (h : s = some virtual → c = .word ∧ d = .word) :
    mergeSpace none s s c d = s := by
  rcases s with _ | text | _
  · cases c <;> cases d <;> rfl
  · cases c <;> cases d <;> simp [mergeSpace, merge]
  · obtain ⟨rfl, rfl⟩ := h rfl
    rfl

/-- **A boundary has characters just if one of its sides has.** -/
theorem isLiteral_mergeSpace_iff :
    IsLiteral (mergeSpace none left right c d) ↔ IsLiteral left ∨ IsLiteral right := by
  by_cases hcd : c = d
  · subst hcd
    rcases mergeSpace_self_cases left right c with h | h <;>
      rw [h, isLiteral_merge_iff]
    simp
  · rw [mergeSpace_of_ne none hcd, merge_none_left]
    rcases right with _ | _ | _ <;> simp

/-- **The characters at a boundary are seen just if those of one side are**; but beside a tag an
empty space on the right takes the place of the space on the left. -/
theorem isSeen_mergeSpace_iff :
    IsSeen (mergeSpace none left right c d) ↔
      IsSeen right ∨ IsSeen left ∧ (right = some (literal []) → c = d) := by
  by_cases hcd : c = d
  · subst hcd
    rcases mergeSpace_self_cases left right c with h | h <;>
      rw [h, isSeen_merge_iff] <;> simp [or_comm]
  · rw [mergeSpace_of_ne none hcd, merge_none_left]
    rcases right with _ | r | _
    · simp
    · by_cases hr : r = [] <;> simp [hr, hcd]
    · simp

end MarkupTransfer.Space
