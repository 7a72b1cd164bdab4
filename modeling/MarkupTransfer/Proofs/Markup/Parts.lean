import MarkupTransfer.Proofs.Markup.Escape
import MarkupTransfer.Proofs.Markup.Grammar
import MarkupTransfer.Proofs.Rows
import MarkupTransfer.Proofs.Text.Scan
/-!
# Escaped texts

In an escaped text angle brackets and ampersands occur in tags and in the references that stand for
them, and nowhere else. Such a text is a row of parts, each a tag or a character in its escaped
form, and the tags among the parts are the tags that a scan of the text finds.

* `IsEscaped`: what it is for a text to be escaped.
* `Part.AreFound`: parts are told apart by a scan for tags.
* `isEscaped_iff`: a text is escaped just if it is a row of such parts.
-/

namespace MarkupTransfer

open Text (Occurrence scanFrom size)

namespace Markup

/-- A text whose angle brackets belong to tags, and whose ampersands belong to tags or begin one of
three references. -/
def IsEscaped (t : Text) : Prop :=
  ∀ s c r, t = s ++ c :: r → (∀ o ∈ tags t, ¬ (o.start ≤ size s ∧ size s < o.stop)) →
    c ≠ '<' ∧ c ≠ '>' ∧
      (c = '&' → ∃ ref ∈ ["&amp;".toList, "&lt;".toList, "&gt;".toList], ref <+: c :: r)

/-- A part of a text: a tag, or a character as it is shown inside markup. -/
inductive Part
  | tag (text : Text)
  | char (c : Char)
  deriving DecidableEq, Repr

namespace Part

/-- How a part is written. -/
def raw : Part → Text
  | tag m => m
  | char c => escapeChar c

/-- The text that parts make up. -/
def source (ps : List Part) : Text := ps.flatMap raw

@[simp] theorem source_nil : source [] = [] := rfl

@[simp] theorem source_cons (p : Part) (ps : List Part) :
    source (p :: ps) = p.raw ++ source ps := rfl

@[simp] theorem source_append (ps qs : List Part) :
    source (ps ++ qs) = source ps ++ source qs := by
  simp [source]

/-- Parts whose tags are found where they stand, and no tag elsewhere. -/
def AreFound : List Part → Prop
  | [] => True
  | tag m :: ps => m ≠ [] ∧ tagLength (m ++ source ps) = m.length ∧ AreFound ps
  | char c :: ps =>
    (isSpecial c = false → tagLength (c :: source ps) = 0) ∧ AreFound ps

instance decidableAreFound : (ps : List Part) → Decidable (AreFound ps)
  | [] => inferInstanceAs (Decidable True)
  | tag m :: ps =>
    have := decidableAreFound ps
    inferInstanceAs
      (Decidable (m ≠ [] ∧ tagLength (m ++ source ps) = m.length ∧ AreFound ps))
  | char c :: ps =>
    have := decidableAreFound ps
    inferInstanceAs
      (Decidable ((isSpecial c = false → tagLength (c :: source ps) = 0) ∧ AreFound ps))

theorem AreFound.of_append {front ps : List Part} (h : AreFound (front ++ ps)) : AreFound ps := by
  induction front with
  | nil => exact h
  | cons p front ih =>
    cases p with
    | tag m => exact ih h.2.2
    | char c => exact ih h.2

theorem AreFound.raw_ne_nil {ps : List Part} (h : AreFound ps) : ∀ p ∈ ps, p.raw ≠ [] := by
  intro p hp
  obtain ⟨front, back, rfl⟩ := List.append_of_mem hp
  cases p with
  | tag m => exact h.of_append.1
  | char c => exact escapeChar_ne_nil c

theorem source_ne_nil {ps : List Part} (h : ∀ p ∈ ps, p.raw ≠ []) (hne : ps ≠ []) :
    source ps ≠ [] := by
  cases ps with
  | nil => exact absurd rfl hne
  | cons p ps => simp [h p (by simp)]

/-- The tags among parts, the first of which begins at an offset. -/
def occurrences : Nat → List Part → List Occurrence
  | _, [] => []
  | n, tag m :: ps => ⟨n, m⟩ :: occurrences (n + size m) ps
  | n, char c :: ps => occurrences (n + size (escapeChar c)) ps

theorem exists_tag_of_occurrences_ne_nil {n : Nat} {ps : List Part} (h : occurrences n ps ≠ []) :
    ∃ front m back, ps = front ++ tag m :: back := by
  induction ps generalizing n with
  | nil => exact absurd rfl h
  | cons p ps ih =>
    cases p with
    | tag m => exact ⟨[], m, ps, rfl⟩
    | char c =>
      obtain ⟨front, m, back, rfl⟩ := ih h
      exact ⟨char c :: front, m, back, rfl⟩

/-- No tag begins inside a character in its escaped form. -/
theorem tagLength_escapeChar {c : Char} {rest : Text}
    (h : isSpecial c = false → tagLength (c :: rest) = 0) :
    ∀ s d r, escapeChar c = s ++ d :: r → tagLength (d :: r ++ rest) = 0 := by
  intro s d r heq
  cases hc : isSpecial c with
  | false =>
    rw [escapeChar_of_not_isSpecial hc] at heq
    obtain ⟨rfl, hd⟩ := (List.append_eq_singleton_iff.mp heq.symm).resolve_right (by simp)
    obtain ⟨rfl, rfl⟩ := List.cons.inj hd
    exact h hc
  | true =>
    have hd : d ∈ escapeChar c := by simp [heq]
    have hmild : ∀ d ∈ escapeChar c, d ≠ '<' ∧ d ≠ '-' := by
      rcases isSpecial_cases hc with rfl | rfl | rfl <;> simp [escapeChar]
    exact tagLength_eq_zero (hmild d hd).1 (hmild d hd).2 _

/-- The tags that a scan finds are those among the parts. -/
theorem scanFrom_source {ps : List Part} (h : AreFound ps) (n : Nat) :
    scanFrom tagLength n 0 (source ps) = occurrences n ps := by
  induction ps generalizing n with
  | nil => rfl
  | cons p ps ih =>
    cases p with
    | tag m =>
      obtain ⟨hm, hlength, hps⟩ := h
      rw [source_cons, raw, Text.scanFrom_token hlength hm, ih hps, occurrences]
    | char c =>
      obtain ⟨hc, hps⟩ := h
      rw [source_cons, raw, Text.scanFrom_text (tagLength_escapeChar hc), ih hps, occurrences]

theorem tags_source {ps : List Part} (h : AreFound ps) : tags (source ps) = occurrences 0 ps :=
  scanFrom_source h 0

end Part

/-! ## Dividing an escaped text -/

theorem exists_escapeChar_eq {ref : Text}
    (h : ref ∈ ["&amp;".toList, "&lt;".toList, "&gt;".toList]) :
    ∃ c, isSpecial c = true ∧ ref = escapeChar c := by
  simp only [List.mem_cons, List.not_mem_nil, or_false] at h
  rcases h with rfl | rfl | rfl
  · exact ⟨'&', rfl, rfl⟩
  · exact ⟨'<', rfl, rfl⟩
  · exact ⟨'>', rfl, rfl⟩

/-- The rest of an escaped text is a row of parts, from any place on that the scan has reached
between two tags. -/
theorem IsEscaped.exists_parts_from {t : Text} (h : IsEscaped t) (n : Nat) {s u : Text}
    (earlier : List Occurrence) (hn : u.length ≤ n) (ht : t = s ++ u)
    (htags : tags t = earlier ++ scanFrom tagLength (size s) 0 u)
    (hearlier : ∀ o ∈ earlier, o.stop ≤ size s) :
    ∃ ps, Part.source ps = u ∧ Part.AreFound ps := by
  induction n generalizing s u earlier with
  | zero =>
    obtain rfl : u = [] := List.length_eq_zero_iff.mp (Nat.le_zero.mp hn)
    exact ⟨[], rfl, trivial⟩
  | succ n ih =>
    cases u with
    | nil => exact ⟨[], rfl, trivial⟩
    | cons c u =>
      cases hlength : tagLength (c :: u) with
      | succ k =>
        -- A tag stands at the head of the rest.
        have hle : k + 1 ≤ (c :: u).length := hlength ▸ tagLength_le (c :: u)
        obtain ⟨m, rest, hm, hk⟩ : ∃ m rest, c :: u = m ++ rest ∧ m.length = k + 1 :=
          ⟨(c :: u).take (k + 1), (c :: u).drop (k + 1), (List.take_append_drop ..).symm,
            List.length_take_of_le hle⟩
        have hne : m ≠ [] := List.ne_nil_of_length_eq_add_one hk
        rw [hm] at hlength hn ht htags
        rw [Text.scanFrom_token (hlength.trans hk.symm) hne] at htags
        obtain ⟨ps, hps, hfound⟩ := ih (s := s ++ m) (u := rest) (earlier ++ [⟨size s, m⟩])
          (by rw [List.length_append] at hn; omega) (by rw [ht, List.append_assoc])
          (by rw [htags, Text.size_append, List.append_assoc]; rfl)
          (by
            intro o ho
            rcases List.mem_append.mp ho with ho | ho
            · exact Nat.le_trans (hearlier o ho) (by simp)
            · obtain rfl := List.mem_singleton.mp ho
              simp [Occurrence.stop])
        exact ⟨.tag m :: ps, by rw [Part.source_cons, hps, hm]; rfl,
          hne, by rw [hps, hlength, hk], hfound⟩
      | zero =>
        -- No tag covers the character at the head: one that is found later begins behind it.
        have hstep : scanFrom tagLength (size s) 0 (c :: u) =
            scanFrom tagLength (size s + c.utf8Size) 0 u := by
          rw [scanFrom, hlength]
        have hbare : ∀ o ∈ tags t, ¬ (o.start ≤ size s ∧ size s < o.stop) := by
          intro o ho
          rw [htags, hstep] at ho
          rcases List.mem_append.mp ho with ho | ho
          · have := hearlier o ho
            omega
          · have := Text.le_start_of_mem_scanFrom ho
            have := c.utf8Size_pos
            omega
        obtain ⟨hlt, hgt, hamp⟩ := h s c u ht hbare
        by_cases hc : c = '&'
        · obtain ⟨ref, href, rest, hrest⟩ := hamp hc
          obtain ⟨d, hd, rfl⟩ := exists_escapeChar_eq href
          have hnone := @Part.tagLength_escapeChar d rest (by simp [hd])
          rw [← hrest] at hn ht htags
          rw [Text.scanFrom_text hnone] at htags
          have hpos := List.length_pos_iff.mpr (escapeChar_ne_nil d)
          obtain ⟨ps, hps, hfound⟩ := ih (s := s ++ escapeChar d) (u := rest) earlier
            (by rw [List.length_append] at hn; omega) (by rw [ht, List.append_assoc])
            (by rw [htags, Text.size_append])
            (fun o ho => Nat.le_trans (hearlier o ho) (by simp))
          exact ⟨.char d :: ps, by rw [Part.source_cons, hps, ← hrest]; rfl, by simp [hd], hfound⟩
        · have hspecial : isSpecial c = false := by simp [isSpecial, hc, hlt, hgt]
          obtain ⟨ps, hps, hfound⟩ := ih (s := s ++ [c]) (u := u) earlier
            (by rw [List.length_cons] at hn; omega) (by rw [ht, List.append_assoc]; rfl)
            (by rw [htags, hstep, Text.size_append]; rfl)
            (fun o ho => Nat.le_trans (hearlier o ho) (by simp))
          exact ⟨.char c :: ps, by rw [Part.source_cons, hps, Part.raw,
            escapeChar_of_not_isSpecial hspecial]; rfl, fun _ => by rw [hps, hlength], hfound⟩

/-- **An escaped text is a row of parts**, and the tags among them are those that are found. -/
theorem IsEscaped.exists_parts {t : Text} (h : IsEscaped t) :
    ∃ ps, Part.source ps = t ∧ Part.AreFound ps :=
  h.exists_parts_from t.length (s := []) [] (Nat.le_refl _) rfl rfl (by simp)

/-! ## Putting parts together -/

theorem Part.mem_occurrences (front : List Part) (m : Text) (back : List Part) (n : Nat) :
    ⟨n + size (source front), m⟩ ∈ occurrences n (front ++ tag m :: back) := by
  induction front generalizing n with
  | nil => simp [occurrences]
  | cons p front ih =>
    cases p with
    | tag m' =>
      have := ih (n + size m')
      simp only [source_cons, raw, Text.size_append, List.cons_append, occurrences, List.mem_cons]
      rw [← Nat.add_assoc]
      exact .inr this
    | char c =>
      have := ih (n + size (escapeChar c))
      simp only [source_cons, raw, Text.size_append, List.cons_append, occurrences]
      rwa [← Nat.add_assoc]

/-- Parts whose tags are found make up an escaped text. -/
theorem Part.isEscaped_source {ps : List Part} (h : AreFound ps) : IsEscaped (source ps) := by
  intro s c r hs hbare
  obtain ⟨front, p, back, s', r', rfl, hraw, rfl, rfl⟩ := exists_of_flatMap_eq hs
  cases p with
  | tag m =>
    have hraw' : m = s' ++ c :: r' := hraw
    have hcovered := hbare ⟨0 + size (source front), m⟩ (by
      rw [tags_source h]
      exact mem_occurrences front m back 0)
    have hpos := c.utf8Size_pos
    have hfront : front.flatMap raw = source front := rfl
    simp only [Occurrence.stop, hfront, hraw', Text.size_append, Text.size_cons] at hcovered
    omega
  | char d =>
    cases hd : isSpecial d with
    | false =>
      rw [raw, escapeChar_of_not_isSpecial hd] at hraw
      obtain rfl : c = d := by
        have : c ∈ [d] := by rw [hraw]; simp
        exact List.mem_singleton.mp this
      simp only [isSpecial, Bool.or_eq_false_iff, beq_eq_false_iff_ne] at hd
      exact ⟨hd.1.2, hd.2, fun hc => absurd hc hd.1.1⟩
    | true =>
      have hraw' : escapeChar d = s' ++ c :: r' := hraw
      have hc : c ∈ escapeChar d := by simp [hraw']
      have hmild : ∀ e ∈ escapeChar d, e ≠ '<' ∧ e ≠ '>' := by
        rcases isSpecial_cases hd with rfl | rfl | rfl <;> simp [escapeChar]
      refine ⟨(hmild c hc).1, (hmild c hc).2, fun hamp => ⟨escapeChar d, ?_, source back, ?_⟩⟩
      · rcases isSpecial_cases hd with rfl | rfl | rfl <;> decide
      · -- An ampersand is the first character of a reference and none of the others.
        obtain ⟨body, hbody, hplain, -⟩ := exists_body_of_isSpecial hd
        cases s' with
        | nil =>
          rw [hraw']
          rfl
        | cons e s' =>
          rw [hbody] at hraw'
          have hmem : c ∈ body ++ [';'] := by
            rw [(List.cons.inj hraw').2]
            simp
          rcases List.mem_append.mp hmem with hmem | hmem
          · exact absurd hamp (hplain c hmem).1
          · rw [hamp] at hmem
            simp at hmem

/-- **A text is escaped just if it is a row of parts.** -/
theorem isEscaped_iff {t : Text} :
    IsEscaped t ↔ ∃ ps, Part.source ps = t ∧ Part.AreFound ps := by
  constructor
  · exact IsEscaped.exists_parts
  · rintro ⟨ps, rfl, h⟩
    exact Part.isEscaped_source h

end Markup

end MarkupTransfer
