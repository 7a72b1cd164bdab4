import MarkupTransfer.Markup.Reference
/-!
# Escaping and decoding

Decoding an escaped text gives the text back, and a text without ampersands stands for itself.

* `unescape_escape`: decoding takes back escaping.
* `unescape_of_not_mem`: without an ampersand there is nothing to decode.
* `escape_eq_self_iff`: when there is nothing to escape.
-/

namespace MarkupTransfer.Markup

/-- Whether a character is written as a reference inside markup. -/
def isSpecial (c : Char) : Bool := c == '&' || c == '<' || c == '>'

theorem escapeChar_of_not_isSpecial {c : Char} (h : isSpecial c = false) : escapeChar c = [c] := by
  simp only [isSpecial, Bool.or_eq_false_iff, beq_eq_false_iff_ne] at h
  obtain ⟨⟨hamp, hlt⟩, hgt⟩ := h
  unfold escapeChar
  split <;> first | contradiction | rfl

theorem isSpecial_cases {c : Char} (h : isSpecial c = true) : c = '&' ∨ c = '<' ∨ c = '>' := by
  simpa [isSpecial, or_assoc] using h

theorem escape_cons (c : Char) (t : Text) : escape (c :: t) = escapeChar c ++ escape t :=
  List.flatMap_cons ..

theorem escapeChar_ne_nil (c : Char) : escapeChar c ≠ [] := by
  unfold escapeChar
  split <;> simp

theorem unescape_cons {c : Char} (h : c ≠ '&') (t : Text) :
    unescape (c :: t) = c :: unescape t := by
  rw [unescape, unescapeFrom, if_neg h, unescape]

/-- Text without ampersands is read over. -/
theorem unescape_append_of_not_mem {u : Text} (h : '&' ∉ u) (t : Text) :
    unescape (u ++ t) = u ++ unescape t := by
  induction u with
  | nil => rfl
  | cons c u ih =>
    have hc : c ≠ '&' := fun hc => h (by simp [hc])
    rw [List.cons_append, unescape_cons hc, ih fun hu => h (List.mem_cons_of_mem c hu),
      List.cons_append]

theorem unescape_of_not_mem {t : Text} (h : '&' ∉ t) : unescape t = t := by
  have happend := unescape_append_of_not_mem h []
  rwa [List.append_nil, show unescape [] = [] from rfl, List.append_nil] at happend

/-- Decoding reads on to the end of a reference. -/
theorem unescapeFrom_body {held body t : Text} {d : Char} (hbody : ∀ c ∈ body, c ≠ '&' ∧ c ≠ ';')
    (h : decode? (held ++ body) = some d) :
    unescapeFrom (some held) (body ++ ';' :: t) = d :: unescapeFrom none t := by
  induction body generalizing held with
  | nil =>
    rw [List.append_nil] at h
    rw [List.nil_append, unescapeFrom, if_neg (by decide), if_pos rfl, h]
  | cons c body ih =>
    obtain ⟨hamp, hsemicolon⟩ := hbody c (by simp)
    rw [List.cons_append, unescapeFrom, if_neg hamp, if_neg hsemicolon]
    exact ih (fun c hc => hbody c (by simp [hc])) (by rw [List.append_assoc]; exact h)

theorem unescape_reference {body t : Text} {d : Char} (hbody : ∀ c ∈ body, c ≠ '&' ∧ c ≠ ';')
    (h : decode? body = some d) : unescape ('&' :: (body ++ ';' :: t)) = d :: unescape t := by
  rw [unescape, unescapeFrom, if_pos rfl]
  exact unescapeFrom_body hbody ((List.nil_append body).symm ▸ h)

/-- The reference of a character that has one. -/
theorem exists_body_of_isSpecial {c : Char} (h : isSpecial c = true) :
    ∃ body, escapeChar c = '&' :: (body ++ [';']) ∧ (∀ d ∈ body, d ≠ '&' ∧ d ≠ ';') ∧
      isReferenceBody body = true ∧ decode? body = some c := by
  rcases isSpecial_cases h with rfl | rfl | rfl
  · exact ⟨['a', 'm', 'p'], rfl, by simp, by decide, by decide +kernel⟩
  · exact ⟨['l', 't'], rfl, by simp, by decide, by decide +kernel⟩
  · exact ⟨['g', 't'], rfl, by simp, by decide, by decide +kernel⟩

/-- Decoding reads the reference of a character whatever follows. -/
theorem unescape_escapeChar_append (c : Char) (t : Text) :
    unescape (escapeChar c ++ t) = c :: unescape t := by
  cases h : isSpecial c with
  | false =>
    rw [escapeChar_of_not_isSpecial h]
    exact unescape_cons (fun hc => by simp [hc, isSpecial] at h) t
  | true =>
    obtain ⟨body, hbody, hmild, -, hdecode⟩ := exists_body_of_isSpecial h
    rw [hbody, List.cons_append, List.append_assoc]
    exact unescape_reference hmild hdecode

/-- **Decoding takes back escaping.** -/
theorem unescape_escape (t : Text) : unescape (escape t) = t := by
  induction t with
  | nil => rfl
  | cons c t ih =>
    rw [escape_cons, unescape_escapeChar_append, ih]

/-- The reference of a character is found whatever follows, and it stands for the character. -/
theorem referenceLength_escapeChar {c : Char} (h : isSpecial c = true) (t : Text) :
    referenceLength (escapeChar c ++ t) = (escapeChar c).length ∧
      decodeReference? (escapeChar c) = some c := by
  obtain ⟨body, hbody, hmild, hform, hdecode⟩ := exists_body_of_isSpecial h
  have htake : (body ++ ';' :: t).takeWhile (· != ';') = body := by
    rw [List.takeWhile_append_of_pos (by simpa using fun d hd => (hmild d hd).2)]
    simp
  rw [hbody]
  refine ⟨?_, by simpa [decodeReference?] using hdecode⟩
  simp [referenceLength, htake, hform]

theorem referenceLength_eq_zero {c : Char} (h : c ≠ '&') (t : Text) :
    referenceLength (c :: t) = 0 := by
  unfold referenceLength
  split
  · next heq => exact absurd (List.cons.inj heq).1 h
  · rfl

/-! ## Nothing to escape -/

/-- Escaping makes no text shorter. -/
theorem length_le_length_escape (t : Text) : t.length ≤ (escape t).length := by
  induction t with
  | nil => exact Nat.le_refl 0
  | cons c t ih =>
    have hpos := List.length_pos_iff.mpr (escapeChar_ne_nil c)
    rw [escape_cons, List.length_append, List.length_cons]
    omega

theorem escapeChar_eq_self_iff {c : Char} : escapeChar c = [c] ↔ isSpecial c = false := by
  refine ⟨fun h => ?_, escapeChar_of_not_isSpecial⟩
  rw [← Bool.not_eq_true]
  intro hspecial
  obtain ⟨body, hbody, -⟩ := exists_body_of_isSpecial hspecial
  have hlength := congrArg List.length (hbody.symm.trans h)
  simp at hlength

/-- **A text stays as it is** just if none of its characters is written as a reference. -/
theorem escape_eq_self_iff {t : Text} : escape t = t ↔ ∀ c ∈ t, isSpecial c = false := by
  induction t with
  | nil => exact iff_of_true rfl nofun
  | cons c t ih =>
    rw [List.forall_mem_cons, ← ih, ← escapeChar_eq_self_iff, escape_cons]
    constructor
    · intro h
      -- Neither part has become shorter, so both have kept their lengths.
      have hlength := congrArg List.length h
      have hpos := List.length_pos_iff.mpr (escapeChar_ne_nil c)
      have hle := length_le_length_escape t
      rw [List.length_append, List.length_cons] at hlength
      have hone : (escapeChar c).length = [c].length := by
        rw [List.length_singleton]
        omega
      exact List.append_inj (h.trans List.singleton_append.symm) hone
    · rintro ⟨hc, ht⟩
      rw [hc, ht, List.singleton_append]

end MarkupTransfer.Markup
