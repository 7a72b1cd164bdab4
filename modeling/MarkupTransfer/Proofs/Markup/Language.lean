import MarkupTransfer.Proofs.Markup.Grammar
/-!
# Which texts are tags

Tags are a language of five forms. A tag is looked for from its head to the first `>`, and what is
found at the head of a text is the whole of it just if the text is in the language. To read a tag no
more is looked at than its head: the angle bracket, the mark behind it and the first character of
its name. So every tag can be read, but so can every text that begins like one, even if its end is
missing or stands somewhere inside it.

* `IsTag`, `isTag_iff`: the language, and what is found.
* `BeginsTag`, `isSome_read?_iff`: what is read.
* `Tag.xml_eq_ok_iff`: which texts a tag is made of.
-/

namespace MarkupTransfer

namespace Markup

/-! ## The language -/

/-- Names of tags. -/
def IsName (name : Text) : Prop :=
  ∃ c t, name = c :: t ∧ isNameStart c = true ∧ ∀ d ∈ t, isNameChar d = true

/-- Texts that are tags: opening and empty tags, declarations, closing tags, and the two ends of a
comment. -/
inductive IsTag : Text → Prop
  | element {name attributes slash : Text} : IsName name → '>' ∉ attributes →
      slash = [] ∨ slash = ['/'] → IsTag ('<' :: (name ++ attributes ++ slash ++ ['>']))
  | declaration {name attributes : Text} {last : Char} : IsName name → '>' ∉ attributes →
      last ≠ '/' → IsTag ('<' :: '!' :: (name ++ attributes ++ [last, '>']))
  | closing {name attributes : Text} : IsName name → '>' ∉ attributes →
      IsTag ('<' :: '/' :: (name ++ attributes ++ ['>']))
  | commentStart : IsTag ['<', '!', '-', '-']
  | commentEnd : IsTag ['-', '-', '>']

/-- Texts that are found to be a tag: the one at their head is all of them. -/
def IsFound (t : Text) : Prop := t ≠ [] ∧ tagLength t = t.length

theorem isName_singleton {c : Char} (h : isNameStart c = true) : IsName [c] :=
  ⟨c, [], rfl, h, nofun⟩

theorem not_mem_of_all_isNameChar {t : Text} (h : ∀ d ∈ t, isNameChar d = true) : '>' ∉ t :=
  fun hmem => absurd (h '>' hmem) (by decide)

/-! ## Up to the first `>` -/

variable {t u v : Text} {c : Char}

theorem not_mem_inside (t : Text) : '>' ∉ inside t := fun hmem =>
  absurd (List.all_eq_true.mp List.all_takeWhile '>' hmem) (by decide)

theorem ne_of_not_mem (h : '>' ∉ u) : ∀ d ∈ u, (d != '>') = true := by
  intro d hd
  rw [bne_iff_ne]
  rintro rfl
  exact h hd

theorem inside_append (h : '>' ∉ u) (v : Text) : inside (u ++ '>' :: v) = u := by
  rw [inside, List.takeWhile_append_of_pos (ne_of_not_mem h)]
  exact List.append_nil u

theorem fromClose_append (h : '>' ∉ u) (v : Text) : fromClose (u ++ '>' :: v) = '>' :: v := by
  rw [fromClose, List.dropWhile_append_of_pos (ne_of_not_mem h)]
  rfl

/-- A text cut at its first `>`. -/
theorem eq_of_fromClose_eq_cons (h : fromClose t = c :: v) : t = inside t ++ '>' :: v := by
  have hc := List.head?_dropWhile_not (· != '>') t
  rw [← fromClose, h, List.head?_cons] at hc
  obtain rfl : c = '>' := bne_eq_false_iff_eq.mp hc
  rw [← h, inside_append_fromClose]

theorem headed_eq_iff {head tail n : Nat} (hpos : 0 < head) :
    headed head tail = n + head ↔ tail ≠ 0 ∧ tail = n := by
  unfold headed
  split <;> omega

/-- **A tag reaches to the first `>`.** -/
theorem lengthThroughClose_eq_length_iff :
    lengthThroughClose t ≠ 0 ∧ lengthThroughClose t = t.length ↔ ∃ u, '>' ∉ u ∧ t = u ++ ['>'] := by
  constructor
  · unfold lengthThroughClose
    split
    · exact fun h => absurd rfl h.1
    · next d v hclose =>
      rintro ⟨-, hlength⟩
      have ht := eq_of_fromClose_eq_cons hclose
      have hsum := congrArg List.length ht
      rw [List.length_append, List.length_cons] at hsum
      obtain rfl : v = [] := List.length_eq_zero_iff.mp (by omega)
      exact ⟨inside t, not_mem_inside t, ht⟩
  · rintro ⟨u, hu, rfl⟩
    rw [lengthThroughClose, fromClose_append hu, inside_append hu, List.length_append]
    exact ⟨Nat.succ_ne_zero _, rfl⟩

/-- **A declaration reaches to the first `>` or to the second one directly behind it.** -/
theorem declarationTail_eq_length_iff :
    declarationTail t ≠ 0 ∧ declarationTail t = t.length ↔
      ∃ u last, '>' ∉ u ∧ last ≠ '/' ∧ t = u ++ [last, '>'] := by
  constructor
  · unfold declarationTail
    split
    · exact fun h => absurd rfl h.1
    · next d v hclose =>
      rintro ⟨-, hlength⟩
      have ht := eq_of_fromClose_eq_cons hclose
      have hsum := congrArg List.length ht
      rw [List.length_append, List.length_cons, List.length_cons] at hsum
      obtain rfl : v = [] := List.length_eq_zero_iff.mp (by omega)
      exact ⟨inside t, '>', not_mem_inside t, by decide, ht⟩
    · next d v _ hclose =>
      split
      · next hlast =>
        rintro ⟨-, hlength⟩
        have ht := eq_of_fromClose_eq_cons hclose
        have hsum := congrArg List.length ht
        rw [List.length_append, List.length_cons] at hsum
        obtain rfl : v = [] := List.length_eq_zero_iff.mp (by omega)
        obtain ⟨last, hsome, hne⟩ := (Option.any_eq_true _ _).mp hlast
        obtain ⟨u, hu⟩ := List.getLast?_eq_some_iff.mp hsome
        have hmem := not_mem_inside t
        rw [hu] at ht hmem
        refine ⟨u, last, fun h => hmem (List.mem_append_left _ h), by simpa using hne, ?_⟩
        rw [ht, List.append_assoc]
        rfl
      · exact fun h => absurd rfl h.1
  · rintro ⟨u, last, hu, hlast, rfl⟩
    by_cases hclose : last = '>'
    · subst hclose
      rw [declarationTail, fromClose_append hu, inside_append hu, List.length_append]
      exact ⟨Nat.succ_ne_zero _, rfl⟩
    · have hu' : '>' ∉ u ++ [last] := by simp [hu, Ne.symm hclose]
      have hcut : u ++ [last, '>'] = u ++ [last] ++ ['>'] := by simp
      rw [hcut, declarationTail, fromClose_append hu', inside_append hu']
      simp [hlast]

theorem headed_lengthThroughClose_eq_iff {head : Nat} (hpos : 0 < head) :
    headed head (lengthThroughClose t) = t.length + head ↔ ∃ u, '>' ∉ u ∧ t = u ++ ['>'] := by
  rw [headed_eq_iff hpos, lengthThroughClose_eq_length_iff]

theorem headed_declarationTail_eq_iff : headed 3 (declarationTail t) = t.length + 3 ↔
    ∃ u last, '>' ∉ u ∧ last ≠ '/' ∧ t = u ++ [last, '>'] := by
  rw [headed_eq_iff (by decide), declarationTail_eq_length_iff]

/-! ## What is found -/

theorem tagLength_element (h : isNameStart c = true) (t : Text) :
    tagLength ('<' :: c :: t) = headed 2 (lengthThroughClose t) := by
  have hbang : c ≠ '!' := ne_of_isNameStart h (by decide)
  have hslash : c ≠ '/' := ne_of_isNameStart h (by decide)
  simp [tagLength, hbang, hslash, h]

theorem tagLength_declaration (h : isNameStart c = true) (t : Text) :
    tagLength ('<' :: '!' :: c :: t) = headed 3 (declarationTail t) := by
  have hhyphen : c ≠ '-' := ne_of_isNameStart h (by decide)
  simp [tagLength, hhyphen, h]

theorem tagLength_closing (h : isNameStart c = true) (t : Text) :
    tagLength ('<' :: '/' :: c :: t) = headed 3 (lengthThroughClose t) :=
  if_pos h

/-- Every tag is found as a whole. -/
theorem IsTag.isFound (h : IsTag t) : IsFound t := by
  cases h with
  | @element _ attributes slash hname hattributes hslash =>
    obtain ⟨c, n, rfl, hc, hn⟩ := hname
    have hclose : '>' ∉ slash := by rcases hslash with rfl | rfl <;> decide
    refine ⟨nofun, (tagLength_element hc _).trans ?_⟩
    refine (headed_lengthThroughClose_eq_iff (by decide)).mpr ⟨n ++ attributes ++ slash, ?_, rfl⟩
    simp [not_mem_of_all_isNameChar hn, hattributes, hclose]
  | @declaration _ attributes last hname hattributes hlast =>
    obtain ⟨c, n, rfl, hc, hn⟩ := hname
    refine ⟨nofun, (tagLength_declaration hc _).trans ?_⟩
    refine headed_declarationTail_eq_iff.mpr ⟨n ++ attributes, last, ?_, hlast, rfl⟩
    simp [not_mem_of_all_isNameChar hn, hattributes]
  | @closing _ attributes hname hattributes =>
    obtain ⟨c, n, rfl, hc, hn⟩ := hname
    refine ⟨nofun, (tagLength_closing hc _).trans ?_⟩
    refine (headed_lengthThroughClose_eq_iff (by decide)).mpr ⟨n ++ attributes, ?_, rfl⟩
    simp [not_mem_of_all_isNameChar hn, hattributes]
  | commentStart => exact ⟨nofun, rfl⟩
  | commentEnd => exact ⟨nofun, rfl⟩

/-- What is found as a whole is a tag. -/
theorem IsFound.isTag (h : IsFound t) : IsTag t := by
  obtain ⟨hne, hlength⟩ := h
  unfold tagLength at hlength
  split at hlength
  · next rest =>
    obtain rfl : rest = [] := List.length_eq_zero_iff.mp (by simpa using hlength.symm)
    exact .commentEnd
  · next rest =>
    obtain rfl : rest = [] := List.length_eq_zero_iff.mp (by simpa using hlength.symm)
    exact .commentStart
  · next c t _ =>
    split at hlength
    · next hc =>
      obtain ⟨u, last, hu, hlast, rfl⟩ := headed_declarationTail_eq_iff.mp hlength
      exact .declaration (isName_singleton hc) hu hlast
    · cases hlength
  · next c t =>
    split at hlength
    · next hc =>
      obtain ⟨u, hu, rfl⟩ := (headed_lengthThroughClose_eq_iff (by decide)).mp hlength
      exact .closing (isName_singleton hc) hu
    · cases hlength
  · next c t _ _ _ =>
    split at hlength
    · next hc =>
      obtain ⟨u, hu, rfl⟩ := (headed_lengthThroughClose_eq_iff (by decide)).mp hlength
      have htag := IsTag.element (isName_singleton hc) hu (.inl rfl)
      rwa [List.append_nil] at htag
    · cases hlength
  · exact absurd (List.length_eq_zero_iff.mp hlength.symm) hne

/-- **Tags are the texts that are found to be one.** -/
theorem isTag_iff : IsTag t ↔ IsFound t := ⟨IsTag.isFound, IsFound.isTag⟩

/-! ## What is read -/

/-- Texts that begin as a tag does: with an angle bracket and a name, or with a mark between the
two. How they go on is left open. -/
inductive BeginsTag : Text → Prop
  | element {c d : Char} {t : Text} : isNameStart c = true → BeginsTag ('<' :: c :: d :: t)
  | declaration {c : Char} {t : Text} : isNameStart c = true → BeginsTag ('<' :: '!' :: c :: t)
  | closing {c : Char} {t : Text} : isNameStart c = true → BeginsTag ('<' :: '/' :: c :: t)

/-- **A text can be read** just if it begins as a tag does or is an end of a comment. -/
theorem isSome_read?_iff : (Tag.read? t).isSome = true ↔
    BeginsTag t ∨ t = ['<', '!', '-', '-'] ∨ t = ['-', '-', '>'] := by
  constructor
  · unfold Tag.read?
    split
    · exact fun _ => .inr (.inl rfl)
    · exact fun _ => .inr (.inr rfl)
    · next c d t _ =>
      intro h
      left
      split at h
      · next hc =>
        rw [Option.isSome_map, isSome_nameAt?_iff] at h
        exact hc ▸ .declaration h
      · split at h
        · next hc =>
          rw [Option.isSome_map, isSome_nameAt?_iff] at h
          exact hc ▸ .closing h
        · rw [Option.isSome_map, isSome_nameAt?_iff] at h
          exact .element h
    · exact nofun
  · rintro ((h | h | h) | rfl | rfl)
    · exact isSome_read?_opening h _
    · exact isSome_read?_declaration h _
    · exact isSome_read?_closing h _
    · rfl
    · rfl

/-- Every tag can be read, and every text that begins like one. -/
theorem isSome_read?_iff_isTag_or : (Tag.read? t).isSome = true ↔ IsTag t ∨ BeginsTag t := by
  constructor
  · intro h
    rcases isSome_read?_iff.mp h with hbegins | rfl | rfl
    · exact .inr hbegins
    · exact .inl .commentStart
    · exact .inl .commentEnd
  · rintro (htag | hbegins)
    · obtain ⟨hne, hlength⟩ := htag.isFound
      have hwhole : tagLength (t ++ []) = t.length := by rwa [List.append_nil]
      exact isSome_read? hwhole hne
    · exact isSome_read?_iff.mpr (.inl hbegins)

end Markup

namespace Tag

open Markup (IsTag IsFound BeginsTag)

variable (text : Text) (left right : Option Space) (position : Nat)

/-- A tag is made of what can be read, and else the text is given back as an error. -/
theorem xml_cases :
    (∃ tag, (read? text).isSome = true ∧ xml text left right position = .ok tag) ∨
      ((read? text).isSome = false ∧ xml text left right position = .error ⟨text⟩) := by
  unfold xml
  cases read? text with
  | none => exact .inr ⟨rfl, rfl⟩
  | some r => exact .inl ⟨_, rfl, rfl⟩

/-- **A tag is made of every text that is one**, as it is found to be, **and of every text that
begins like one**, whatever its end. Of any other text none is made, and the error carries the
text. -/
theorem xml_eq_ok_iff :
    (IsTag text ↔ IsFound text) ∧
    ((∃ tag, xml text left right position = .ok tag) ↔ IsTag text ∨ BeginsTag text) ∧
    (xml text left right position = .error ⟨text⟩ ↔ ¬ (IsTag text ∨ BeginsTag text)) := by
  refine ⟨Markup.isTag_iff, ?_⟩
  rw [← Markup.isSome_read?_iff_isTag_or]
  rcases xml_cases text left right position with ⟨tag, hread, hxml⟩ | ⟨hread, hxml⟩
  · rw [hread, hxml]
    exact ⟨iff_of_true ⟨tag, rfl⟩ rfl, iff_of_false nofun fun h => h rfl⟩
  · rw [hread, hxml]
    exact ⟨iff_of_false (fun ⟨_, h⟩ => nomatch h) nofun, iff_of_true rfl nofun⟩

/-- A tag is made of a text without an end, which is none. -/
theorem xml_unfinished :
    ¬ ((∃ tag, xml ['<', 'a', 'b'] none none 0 = .ok tag) ↔ IsTag ['<', 'a', 'b']) :=
  fun h => absurd (h.mp ⟨_, rfl⟩).isFound.2 (by decide)

end Tag

end MarkupTransfer
