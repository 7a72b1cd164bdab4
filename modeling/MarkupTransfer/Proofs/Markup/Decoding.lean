import MarkupTransfer.Proofs.Markup.Escape
import MarkupTransfer.Proofs.Markup.Reference
import MarkupTransfer.Proofs.Text.Scan
/-!
# Decoding in one go and reference by reference

A text can be decoded in one go, looking from an ampersand to the semicolon behind it, or its
references can be found first and decoded one at a time. Both leave an ampersand alone that begins
no reference and read on right behind it, so they agree.

* `unescape_ampersand`: an ampersand that begins no reference is text like any other.
* `exists_body_of_referenceLength`: what is found as a reference.
* `rewrite_references`: decoding the references of a text decodes the text.
-/

namespace MarkupTransfer.Markup

theorem ampersand_not_mem_body {body : Text} (h : isReferenceBody body = true) : '&' ∉ body := by
  intro hmem
  rcases isAlphanum_of_mem_body h _ hmem with h | h <;> cases h

theorem semicolon_not_mem_body {body : Text} (h : isReferenceBody body = true) : ';' ∉ body := by
  intro hmem
  rcases isAlphanum_of_mem_body h _ hmem with h | h <;> cases h

/-- Between its two ends a reference has nothing like them. -/
theorem body_mild {body : Text} (h : isReferenceBody body = true) : ∀ c ∈ body, c ≠ '&' ∧ c ≠ ';' :=
  fun _ hc => ⟨fun heq => ampersand_not_mem_body h (heq ▸ hc),
    fun heq => semicolon_not_mem_body h (heq ▸ hc)⟩

theorem unescapeFrom_ampersand {held t : Text}
    (h : ∀ body tail, t = body ++ ';' :: tail → '&' ∉ body → decode? (held ++ body) = none) :
    unescapeFrom (some held) t = '&' :: held ++ unescape t := by
  induction t generalizing held with
  | nil => simp [unescapeFrom, unescape]
  | cons c t ih =>
    rw [unescapeFrom]
    split
    · next hc => rw [hc, unescape, unescapeFrom, if_pos rfl]
    · next hamp =>
      rw [unescape_cons hamp]
      split
      · next hc =>
        subst hc
        have hheld : decode? held = none := by simpa using h [] t rfl (by simp)
        rw [hheld, unescape]
      · next hsemicolon =>
        have hnext : ∀ body tail, t = body ++ ';' :: tail → '&' ∉ body →
            decode? (held ++ [c] ++ body) = none := by
          rintro body tail rfl hbody
          have := h (c :: body) tail rfl (by simp [Ne.symm hamp, hbody])
          simpa using this
        rw [ih hnext]
        simp

/-- **An ampersand that begins no reference is text like any other.** -/
theorem unescape_ampersand {t : Text}
    (h : ∀ body tail, t = body ++ ';' :: tail → '&' ∉ body → decode? body = none) :
    unescape ('&' :: t) = '&' :: unescape t := by
  rw [unescape, unescapeFrom, if_pos rfl]
  exact unescapeFrom_ampersand h

theorem takeWhile_body {body : Text} (h : ';' ∉ body) (tail : Text) :
    (body ++ ';' :: tail).takeWhile (· != ';') = body := by
  have hne : ∀ c ∈ body, (c != ';') = true := fun c hc => bne_iff_ne.mpr fun heq => h (heq ▸ hc)
  rw [List.takeWhile_append_of_pos hne]
  simp

/-- A body is read up to the first semicolon, so there is just one at a place. -/
theorem body_eq {body body' tail tail' : Text} (h : body ++ ';' :: tail = body' ++ ';' :: tail')
    (hbody : ';' ∉ body) (hbody' : ';' ∉ body') : body = body' := by
  rw [← takeWhile_body hbody tail, h, takeWhile_body hbody' tail']

/-- What has the form of a reference and stands for nothing is text like any other. -/
theorem unescape_of_decode?_eq_none {body : Text} (hbody : isReferenceBody body = true)
    (h : decode? body = none) (tail : Text) :
    unescape ('&' :: (body ++ ';' :: tail)) = '&' :: (body ++ [';']) ++ unescape tail := by
  have hrest : ∀ body' tail', body ++ ';' :: tail = body' ++ ';' :: tail' → '&' ∉ body' →
      decode? body' = none := by
    intro body' tail' heq _
    cases hdecode : decode? body' with
    | none => rfl
    | some d =>
      obtain rfl := body_eq heq (semicolon_not_mem_body hbody)
        (semicolon_not_mem_body (isReferenceBody_of_decode hdecode))
      exact hdecode.symm.trans h
  have hamp : '&' ∉ body ++ [';'] := by simpa using ampersand_not_mem_body hbody
  rw [unescape_ampersand hrest, show body ++ ';' :: tail = (body ++ [';']) ++ tail by simp,
    unescape_append_of_not_mem hamp, List.cons_append]

/-! ## References found in a text -/

/-- A reference is found wherever there is one. -/
theorem referenceLength_reference {body tail : Text} (h : isReferenceBody body = true) :
    referenceLength ('&' :: (body ++ ';' :: tail)) = body.length + 2 := by
  rw [referenceLength, takeWhile_body (semicolon_not_mem_body h) tail]
  simp [h]

/-- **What is found as a reference** is an ampersand, a body and a semicolon. -/
theorem exists_body_of_referenceLength {t : Text} {n : Nat} (h : referenceLength t = n + 1) :
    ∃ body tail, t = '&' :: (body ++ ';' :: tail) ∧ isReferenceBody body = true ∧
      n + 1 = body.length + 2 := by
  unfold referenceLength at h
  split at h
  · next u =>
    dsimp only at h
    split at h
    · next hbody =>
      simp only [Bool.and_eq_true, decide_eq_true_eq] at hbody
      have hsplit := List.takeWhile_append_dropWhile (p := (· != ';')) (l := u)
      cases hdrop : u.dropWhile (· != ';') with
      | nil =>
        rw [hdrop, List.append_nil] at hsplit
        have := congrArg List.length hsplit
        omega
      | cons c tail =>
        have hc : c = ';' := by
          have := List.head?_dropWhile_not (p := (· != ';')) u
          simpa [hdrop] using this
        rw [hdrop, hc] at hsplit
        exact ⟨_, tail, congrArg _ hsplit.symm, hbody.1, h.symm⟩
    · cases h
  · cases h

/-- Where no reference is found at an ampersand, none begins there. -/
theorem decode?_eq_none_of_referenceLength {t : Text} (h : referenceLength ('&' :: t) = 0) :
    ∀ body tail, t = body ++ ';' :: tail → decode? body = none := by
  rintro body tail rfl
  cases hdecode : decode? body with
  | none => rfl
  | some d =>
    rw [referenceLength_reference (isReferenceBody_of_decode hdecode)] at h
    cases h

@[simp] theorem decodeReference?_body (body : Text) :
    decodeReference? ('&' :: (body ++ [';'])) = decode? body := by
  rw [decodeReference?, List.drop_succ_cons, List.drop_zero, List.dropLast_concat]

/-- **Decoding the references of a text decodes the text.** -/
theorem rewrite_references (t : Text) :
    Text.rewrite referenceLength (fun r => (decodeReference? r).elim r fun c => [c]) t =
      unescape t := by
  induction t using Text.scan_induction referenceLength with
  | nil => rfl
  | skip c t h ih =>
    rw [Text.rewrite_cons_of_eq_zero h, ih]
    by_cases hc : c = '&'
    · subst hc
      have hnone := decode?_eq_none_of_referenceLength h
      rw [unescape_ampersand fun body tail ht _ => hnone body tail ht]
    · rw [unescape_cons hc]
  | token c t n h ih =>
    obtain ⟨body, tail, hcons, hbody, hn⟩ := exists_body_of_referenceLength h
    obtain ⟨rfl, rfl⟩ := List.cons.inj hcons
    have hn' : n = (body ++ [';']).length := by
      rw [List.length_append, List.length_singleton]
      omega
    have happend : body ++ ';' :: tail = (body ++ [';']) ++ tail := by simp
    rw [Text.rewrite_cons_of_eq_succ h, List.take_succ_cons, List.drop_succ_cons]
    rw [happend, hn', List.drop_left] at ih ⊢
    rw [List.take_left, ih, decodeReference?_body, ← happend]
    cases hdecode : decode? body with
    | some d => exact (unescape_reference (body_mild hbody) hdecode).symm
    | none => exact (unescape_of_decode?_eq_none hbody hdecode tail).symm

end MarkupTransfer.Markup
