import Mathlib
import MarkupTransfer.Markup.Reference
/-!
# What references are made of

Between its ampersand and its semicolon a reference has letters and digits, and number signs. So a
reference found in a text never reaches over anything else, whatever stands on its two sides.

* `isAlphanum_of_mem_body`: the characters of a reference.
* `referenceLength_append_le`: a reference does not reach over a blank.
-/

namespace MarkupTransfer.Markup

theorem isAlphanum_of_isHexDigit {c : Char} (h : isHexDigit c = true) : c.isAlphanum = true := by
  simp only [isHexDigit, Text.hexDigitValue?] at h
  simp only [Char.isAlphanum, Char.isAlpha, Char.isUpper, Char.isLower, Char.isDigit] at *
  split at h
  · simp_all
  split at h
  · simp_all [Char.le_def, UInt32.le_iff_toNat_le]
    omega
  split at h
  · simp_all [Char.le_def, UInt32.le_iff_toNat_le]
    omega
  · cases h

/-- Between its two ends a reference has letters, digits and number signs. -/
theorem isAlphanum_of_mem_body {body : Text} (h : isReferenceBody body = true) :
    ∀ c ∈ body, c = '#' ∨ c.isAlphanum = true := by
  have hall : ∀ {p : Char → Bool} {t : Text}, (∀ c, p c = true → c.isAlphanum = true) →
      (!t.isEmpty && t.all p) = true → ∀ c ∈ t, c = '#' ∨ c.isAlphanum = true := by
    intro p t hp ht c hc
    rw [Bool.and_eq_true] at ht
    exact .inr (hp c (List.all_eq_true.mp ht.2 c hc))
  unfold isReferenceBody at h
  split at h
  · exact List.forall_mem_cons.mpr ⟨.inl rfl, List.forall_mem_cons.mpr
      ⟨.inr rfl, hall (fun c => isAlphanum_of_isHexDigit) h⟩⟩
  · exact List.forall_mem_cons.mpr ⟨.inl rfl, List.forall_mem_cons.mpr
      ⟨.inr rfl, hall (fun c => isAlphanum_of_isHexDigit) h⟩⟩
  · exact List.forall_mem_cons.mpr ⟨.inl rfl, hall (fun c hc => by simp [Char.isAlphanum, hc]) h⟩
  · change isEntityName body = true at h
    cases body with
    | nil => cases h
    | cons c t =>
      simp only [isEntityName, Bool.and_eq_true] at h
      exact List.forall_mem_cons.mpr ⟨.inr (by simp [Char.isAlphanum, h.1]),
        fun d hd => .inr (List.all_eq_true.mp h.2 d hd)⟩

/-- No reference reaches over a blank. -/
theorem referenceLength_append_le (t r : Text) : referenceLength (t ++ ' ' :: r) ≤ t.length := by
  cases t with
  | nil => exact Nat.le_refl 0
  | cons c t =>
    rw [List.cons_append]
    unfold referenceLength
    split
    · next t' heq =>
      obtain ⟨rfl, rfl⟩ := List.cons.inj heq
      simp only
      split
      · next hbody =>
        rw [Bool.and_eq_true] at hbody
        have hclear : ' ' ∉ (t ++ ' ' :: r).takeWhile (· != ';') := fun hmem => by
          rcases isAlphanum_of_mem_body hbody.1 ' ' hmem with h | h <;> cases h
        rw [List.takeWhile_append] at hclear ⊢
        have hle := (List.takeWhile_prefix (· != ';') (l := t)).length_le
        split at hclear
        · simp at hclear
        · next hne =>
          rw [if_neg hne, List.length_cons]
          omega
      · exact Nat.zero_le _
    · exact Nat.zero_le _

end MarkupTransfer.Markup
