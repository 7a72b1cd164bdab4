import Mathlib
import MarkupTransfer.Json.Read
/-!
# Written values are read back

What is written for a value is read back as that value, with anything behind it that cannot be taken
for more of it. Only a number has no last character of its own: what comes behind it must not go on
with a digit, a point or an exponent.

* `readString_write`: strings, whatever characters they have.
* `readNumber_writeInteger`, `readNumber_writeFraction`: numbers.
* `reads`: values, the items of arrays and the fields of objects.
* `read?_write`: a text that was written for a value is read as that value.
-/

namespace MarkupTransfer

/-! ## Numerals -/

namespace Text

theorem isDigit_of_mem_decimal {n : Nat} {c : Char} (h : c ∈ decimal n) : c.isDigit = true :=
  Nat.isDigit_of_mem_toDigits (by decide) (by decide) h

theorem natural?_decimal (n : Nat) : natural? (decimal n) = some n := by
  have hsome : (!(decimal n).isEmpty && (decimal n).all Char.isDigit) = true := by
    have hne : decimal n ≠ [] := Nat.toDigits_ne_nil
    simpa [hne] using fun _ => isDigit_of_mem_decimal
  rw [natural?, if_pos hsome]
  have hfold := Nat.ofDigitChars_ten_toDigits (n := n)
  simp only [Nat.ofDigitChars_eq_foldl, Nat.mul_comm 10] at hfold
  exact congrArg some hfold

theorem exists_decimal_eq (n : Nat) : ∃ c t, decimal n = c :: t ∧ c.isDigit = true := by
  cases h : decimal n with
  | nil => exact absurd h Nat.toDigits_ne_nil
  | cons c t => exact ⟨c, t, rfl, isDigit_of_mem_decimal (h ▸ List.mem_cons_self)⟩

end Text

namespace Json

open Text (decimal natural? hexNatural? hexadecimal)

/-! ## Strings -/

/-- What a character may be written as: itself, or its number if no surrogates are needed. -/
inductive StringPart.Spells : StringPart → Char → Prop
  | char (c : Char) : Spells (.char c) c
  | unit {c : Char} (h : c.toNat < 0xD800) : Spells (.unit c.toNat) c

theorem joinParts_unit {n : Nat} (hn : n < 0xD800) (parts : List StringPart) :
    joinParts (.unit n :: parts) = (joinParts parts).map (Char.ofNat n :: ·) := by
  have hhigh : ¬ 0xD800 ≤ n := by omega
  have hlow : ¬ 0xDC00 ≤ n := by omega
  rcases parts with _ | ⟨_ | _, parts⟩ <;> simp [joinParts, hhigh, hlow]

theorem joinParts_eq {parts : List StringPart} {t : Text}
    (h : List.Forall₂ StringPart.Spells parts t) : joinParts parts = some t := by
  induction h with
  | nil => rfl
  | cons hspells _ ih =>
    cases hspells with
    | char c => rw [joinParts, ih, Option.map_some]
    | unit hc => rw [joinParts_unit hc, ih, Option.map_some, Char.ofNat_toNat]

theorem readParts_escaped {e c : Char} (h : escaped? e = some c) (t : Text) :
    readParts ('\\' :: e :: t) =
      (readParts t).map fun (parts, rest) => (.char c :: parts, rest) := by
  have hu : e ≠ 'u' := by
    rintro rfl
    have hnone : escaped? 'u' = none := by decide
    cases hnone.symm.trans h
  rw [readParts, h, Option.bind_some]
  exact fun _ _ _ _ _ heq => absurd heq hu

/-- A control character is written with four digits. -/
theorem hexNatural?_control : ∀ n < 0x20,
    ((if n < 0x10 then ['0'] else []) ++ hexadecimal n).length = 2 ∧
      hexNatural? (['0', '0'] ++ ((if n < 0x10 then ['0'] else []) ++ hexadecimal n)) = some n := by
  decide

/-- Every character is written as one part. -/
theorem exists_readParts_writeChar (c : Char) (t : Text) : ∃ p : StringPart, p.Spells c ∧
    readParts (writeChar c ++ t) =
      (readParts t).map fun (parts, rest) => (p :: parts, rest) := by
  have hescape : ∀ e, escaped? e = some c → ∃ p : StringPart, p.Spells c ∧
      readParts (['\\', e] ++ t) =
        (readParts t).map fun (parts, rest) => (p :: parts, rest) :=
    fun e h => ⟨_, .char c, readParts_escaped h t⟩
  -- the characters that have an escape of their own, the other control characters, the rest
  unfold writeChar
  split
  · next h => exact hescape '"' (by subst h; decide)
  split
  · next h => exact hescape '\\' (by subst h; decide)
  split
  · next h => exact hescape 'b' (by subst h; decide)
  split
  · next h => exact hescape 'f' (by subst h; decide)
  split
  · next h => exact hescape 'n' (by subst h; decide)
  split
  · next h => exact hescape 'r' (by subst h; decide)
  split
  · next h => exact hescape 't' (by subst h; decide)
  split
  · next hcontrol =>
    obtain ⟨hlength, hvalue⟩ := hexNatural?_control c.toNat hcontrol
    obtain ⟨a, b, hab⟩ := List.length_eq_two.mp hlength
    rw [hab] at hvalue
    refine ⟨_, .unit (by omega), ?_⟩
    rw [List.append_assoc ['\\', 'u', '0', '0'], hab]
    exact congrArg (Option.bind · _) hvalue
  · next hquote hslash _ _ _ _ _ hcontrol =>
    refine ⟨_, .char c, ?_⟩
    rw [List.singleton_append, readParts, if_neg hquote, if_neg (by simp [hcontrol, hslash])]
    · simp [hslash]
    · simp [hslash]

theorem exists_readParts_write (t rest : Text) : ∃ parts, List.Forall₂ StringPart.Spells parts t ∧
    readParts (t.flatMap writeChar ++ '"' :: rest) = some (parts, rest) := by
  induction t with
  | nil => exact ⟨[], .nil, by simp [readParts]⟩
  | cons c t ih =>
    obtain ⟨parts, hparts, hread⟩ := ih
    obtain ⟨p, hp, hreadChar⟩ := exists_readParts_writeChar c (t.flatMap writeChar ++ '"' :: rest)
    refine ⟨p :: parts, .cons hp hparts, ?_⟩
    rw [List.flatMap_cons, List.append_assoc, hreadChar, hread, Option.map_some]

/-- **A written string is read back**, whatever characters it has. -/
theorem readString_write (t rest : Text) :
    readString (t.flatMap writeChar ++ '"' :: rest) = some (t, rest) := by
  obtain ⟨parts, hparts, hread⟩ := exists_readParts_write t rest
  rw [readString, hread, Option.bind_some]
  simp only [joinParts_eq hparts, Option.map_some]

/-! ## Numbers -/

/-- Whether a text does not go on with a number that stands in front of it. -/
def EndsNumber (t : Text) : Prop :=
  ∀ c ∈ t.head?, c.isDigit = false ∧ c ≠ '.' ∧ c ≠ 'e' ∧ c ≠ 'E'

theorem span_isDigit {digits rest : Text} (hdigits : ∀ c ∈ digits, c.isDigit = true)
    (hrest : ∀ c ∈ rest.head?, c.isDigit = false) :
    (digits ++ rest).span Char.isDigit = (digits, rest) := by
  rw [List.span_eq_takeWhile_dropWhile, List.takeWhile_append_of_pos hdigits,
    List.dropWhile_append_of_pos hdigits]
  cases rest with
  | nil => simp
  | cons c rest =>
    have hc : ¬ c.isDigit = true := by simp [hrest c rfl]
    rw [List.takeWhile_cons_of_neg hc, List.dropWhile_cons_of_neg hc, List.append_nil]

theorem readWhole_decimal (n : Nat) {rest : Text} (h : ∀ c ∈ rest.head?, c.isDigit = false) :
    readWhole (decimal n ++ rest) = some (n, rest) := by
  simp only [readWhole, span_isDigit (fun _ => Text.isDigit_of_mem_decimal) h,
    Text.natural?_decimal, Option.bind_some, if_true]

theorem readDecimals_none {t : Text} (h : ∀ c ∈ t.head?, c ≠ '.') :
    readDecimals t = some (none, t) := by
  cases t with
  | nil => rfl
  | cons c t =>
    rw [readDecimals]
    exact fun _ heq => h c rfl (List.cons.inj heq).1

theorem readExponent_none {t : Text} (h : EndsNumber t) : readExponent t = some (none, t) := by
  cases t with
  | nil => rfl
  | cons c t =>
    obtain ⟨-, -, he, hE⟩ := h c rfl
    simp [readExponent, he, hE]

theorem readExponent_minus (n : Nat) {rest : Text} (h : EndsNumber rest) :
    readExponent ('e' :: '-' :: (decimal n ++ rest)) = some (some (-n : Int), rest) := by
  simp only [readExponent,
    span_isDigit (fun _ => Text.isDigit_of_mem_decimal) fun c hc => (h c hc).1,
    Text.natural?_decimal]
  rfl

/-- A written integer shows its sign. -/
theorem readNumber_writeInteger_append (n : Int) (t : Text) :
    readNumber (writeInteger n ++ t) = readUnsigned (decide (n < 0)) (decimal n.natAbs ++ t) := by
  obtain ⟨c, digits, hdecimal, hc⟩ := Text.exists_decimal_eq n.natAbs
  unfold writeInteger
  split
  · next hneg =>
    rw [decide_eq_true hneg]
    rfl
  · next hneg =>
    have hminus : c ≠ '-' := by
      rintro rfl
      exact absurd hc (by decide)
    rw [decide_eq_false hneg, hdecimal, readNumber]
    exact fun _ heq => hminus (List.cons.inj heq).1

theorem readNumber_writeInteger (n : Int) {rest : Text} (h : EndsNumber rest) :
    readNumber (writeInteger n ++ rest) = some (integer n, rest) := by
  have hparts : ofParts (decide (n < 0)) n.natAbs none none = integer n := by
    by_cases hneg : n < 0
    · have hzero : n.natAbs ≠ 0 := by omega
      simp [ofParts, hneg, hzero, abs_of_neg]
    · simp [ofParts, hneg, abs_of_nonneg (not_lt.mp hneg)]
  rw [readNumber_writeInteger_append, readUnsigned, readWhole_decimal _ fun c hc => (h c hc).1]
  simp only [Option.bind_some, readDecimals_none fun c hc => (h c hc).2.1, readExponent_none h,
    Option.map_some, hparts]

theorem readNumber_writeFraction (m : Int) (p : Nat) {rest : Text} (h : EndsNumber rest) :
    readNumber (writeInteger m ++ 'e' :: '-' :: (decimal p ++ rest)) =
      some (fraction m p, rest) := by
  have hparts : ofParts (decide (m < 0)) m.natAbs none (some (-p : Int)) = fraction m p := by
    have hscale : (-(p : Int)).toNat = 0 := by omega
    have hnone : (natural? []).getD 0 = 0 := rfl
    by_cases hneg : m < 0
    · simp [ofParts, hneg, hscale, hnone, abs_of_neg]
    · simp [ofParts, hneg, hscale, hnone, abs_of_nonneg (not_lt.mp hneg)]
  rw [readNumber_writeInteger_append, readUnsigned, readWhole_decimal _ (by simp)]
  simp only [Option.bind_some, readDecimals_none (t := 'e' :: _) (by simp), readExponent_minus p h,
    Option.map_some, hparts]

/-! ## Values -/

theorem endsNumber_cons {c : Char} (t : Text) (hdigit : c.isDigit = false)
    (hpoint : c ≠ '.' ∧ c ≠ 'e' ∧ c ≠ 'E') : EndsNumber (c :: t) := by
  rintro _ ⟨⟩
  exact ⟨hdigit, hpoint⟩

/-- Whether a character can begin a value: it is no blank and ends no row of items. -/
structure Opens (c : Char) : Prop where
  not_blank : (c == ' ' || c == '\t' || c == '\n' || c == '\r') = false
  not_bracket : c ≠ ']'

theorem skipBlanks_cons {c : Char} (h : Opens c) (t : Text) : skipBlanks (c :: t) = c :: t := by
  rw [skipBlanks, List.dropWhile_cons_of_neg (by simp [h.not_blank])]

/-- Whether a number can begin with a character. -/
def BeginsNumber (c : Char) : Prop := c = '-' ∨ c.isDigit = true

theorem BeginsNumber.ne {c d : Char} (h : BeginsNumber c) (hminus : d ≠ '-')
    (hdigit : d.isDigit = false) : c ≠ d := by
  rintro rfl
  rcases h with rfl | hc
  · exact hminus rfl
  · cases hdigit.symm.trans hc

theorem BeginsNumber.opens {c : Char} (h : BeginsNumber c) : Opens c where
  not_blank := by
    have hblank := fun d hminus hdigit => beq_eq_false_iff_ne.mpr (h.ne (d := d) hminus hdigit)
    simp [hblank]
  not_bracket := h.ne (by decide) (by decide)

theorem exists_writeInteger_eq (n : Int) : ∃ c t, writeInteger n = c :: t ∧ BeginsNumber c := by
  obtain ⟨c, t, hdecimal, hc⟩ := Text.exists_decimal_eq n.natAbs
  unfold writeInteger
  split
  · exact ⟨'-', _, rfl, .inl rfl⟩
  · exact ⟨c, t, hdecimal, .inr hc⟩

/-- Every value is written with a head. -/
theorem exists_write_eq (j : Json) : ∃ c t, j.write = c :: t ∧ Opens c := by
  cases j with
  | null => exact ⟨'n', _, rfl, by decide, by decide⟩
  | bool b =>
    cases b with
    | true => exact ⟨'t', _, rfl, by decide, by decide⟩
    | false => exact ⟨'f', _, rfl, by decide, by decide⟩
  | integer n =>
    obtain ⟨c, t, hwrite, hc⟩ := exists_writeInteger_eq n
    exact ⟨c, t, hwrite, hc.opens⟩
  | fraction m p =>
    obtain ⟨c, t, hwrite, hc⟩ := exists_writeInteger_eq m
    exact ⟨c, _, by rw [write, hwrite]; rfl, hc.opens⟩
  | string t => exact ⟨'"', _, rfl, by decide, by decide⟩
  | array items => exact ⟨'[', _, rfl, by decide, by decide⟩
  | object fields => exact ⟨'\x7b', _, rfl, by decide, by decide⟩

theorem exists_writeItems_eq {items : List Json} (h : items ≠ []) :
    ∃ c t, writeItems items = c :: t ∧ Opens c := by
  match items, h with
  | [j], _ => exact exists_write_eq j
  | j :: k :: items, _ =>
    obtain ⟨c, t, hwrite, hc⟩ := exists_write_eq j
    exact ⟨c, _, by rw [writeItems, hwrite]; rfl; simp, hc⟩

theorem exists_writeFields_eq {fields : List (Text × Json)} (h : fields ≠ []) :
    ∃ t, writeFields fields = '"' :: t := by
  match fields, h with
  | [(name, j)], _ => exact ⟨_, rfl⟩
  | (name, j) :: field :: fields, _ => exact ⟨_, rfl⟩

/-- What begins like a number is read as a number. -/
theorem readValue_number {c : Char} (h : BeginsNumber c) (fuel : Nat) (t : Text) :
    readValue (fuel + 1) (c :: t) = readNumber (c :: t) := by
  have hname : readName (c :: t) = none := by
    have hn := h.ne (d := 'n') (by decide) (by decide)
    have ht := h.ne (d := 't') (by decide) (by decide)
    have hf := h.ne (d := 'f') (by decide) (by decide)
    simp [readName, hn.symm, ht.symm, hf.symm]
  have hquote := h.ne (d := '"') (by decide) (by decide)
  have hbracket := h.ne (d := '[') (by decide) (by decide)
  have hbrace := h.ne (d := '\x7b') (by decide) (by decide)
  rw [readValue, skipBlanks_cons h.opens]
  simp only [if_neg hquote, if_neg hbracket, if_neg hbrace, hname]
  rfl

/-- A bracket in front of anything but a closing one begins the items of an array. -/
theorem readValue_bracket {c : Char} (h : Opens c) (fuel : Nat) (t : Text) :
    readValue (fuel + 1) ('[' :: c :: t) =
      (readItems fuel (c :: t)).map fun (items, rest) => (array items, rest) := by
  have hbracket : Opens '[' := ⟨by decide, by decide⟩
  rw [readValue, skipBlanks_cons hbracket]
  simp only [if_neg (show '[' ≠ '"' by decide), if_true, skipBlanks_cons h]
  split
  · next heq => exact absurd (List.cons.inj heq).1 h.not_bracket
  · rfl

/-- What reading with some fuel makes of what is written for values, for the items of an array and
for the fields of an object. Items and fields have the sign behind them to spare. -/
structure Reads (fuel : Nat) : Prop where
  value : ∀ j rest, j.write.length ≤ fuel → EndsNumber rest →
    readValue fuel (j.write ++ rest) = some (j, rest)
  items : ∀ items rest, items ≠ [] → (writeItems items).length < fuel →
    readItems fuel (writeItems items ++ ']' :: rest) = some (items, rest)
  fields : ∀ fields rest, fields ≠ [] → (writeFields fields).length < fuel →
    readFields fuel (writeFields fields ++ '\x7d' :: rest) = some (fields, rest)

section Step

variable {fuel : Nat} (h : Reads fuel)
include h

theorem readValue_write (j : Json) (rest : Text) (hfuel : j.write.length ≤ fuel + 1)
    (hrest : EndsNumber rest) : readValue (fuel + 1) (j.write ++ rest) = some (j, rest) := by
  cases j with
  | null => simp [write, readValue, skipBlanks, readName]
  | bool b => cases b <;> simp [write, readValue, skipBlanks, readName]
  | integer n =>
    obtain ⟨c, t, hwrite, hc⟩ := exists_writeInteger_eq n
    have hread := readNumber_writeInteger n hrest
    rw [hwrite] at hread
    rw [write, hwrite, List.cons_append, readValue_number hc]
    exact hread
  | fraction m p =>
    obtain ⟨c, t, hwrite, hc⟩ := exists_writeInteger_eq m
    have hread := readNumber_writeFraction m p hrest
    rw [write, List.append_assoc, List.append_assoc]
    rw [hwrite] at hread ⊢
    rw [List.cons_append, readValue_number hc]
    exact hread
  | string t =>
    rw [write, writeString, List.append_assoc, List.append_assoc]
    show (readString (t.flatMap writeChar ++ '"' :: rest)).map _ = _
    rw [readString_write]
    rfl
  | array items =>
    by_cases hitems : items = []
    · subst hitems
      simp [write, writeItems, readValue, skipBlanks]
    · obtain ⟨c, t, hwrite, hc⟩ := exists_writeItems_eq hitems
      have hread := h.items items rest hitems (by simp [write] at hfuel; omega)
      rw [write, List.append_assoc, List.append_assoc]
      rw [hwrite] at hread ⊢
      rw [List.singleton_append, List.cons_append, readValue_bracket hc]
      exact congrArg _ hread
  | object fields =>
    by_cases hfields : fields = []
    · subst hfields
      simp [write, writeFields, readValue, skipBlanks]
    · obtain ⟨t, hwrite⟩ := exists_writeFields_eq hfields
      have hread := h.fields fields rest hfields (by simp [write] at hfuel; omega)
      rw [write, List.append_assoc, List.append_assoc]
      rw [hwrite] at hread ⊢
      show (readFields fuel ('"' :: t ++ '\x7d' :: rest)).map _ = _
      rw [hread]
      rfl

theorem readItems_write (items : List Json) (rest : Text) (hne : items ≠ [])
    (hfuel : (writeItems items).length < fuel + 1) :
    readItems (fuel + 1) (writeItems items ++ ']' :: rest) = some (items, rest) := by
  match items, hne with
  | [j], _ =>
    rw [writeItems] at hfuel ⊢
    rw [readItems, h.value j _ (by omega) (endsNumber_cons _ (by decide) (by decide))]
    rfl
  | j :: k :: items, _ =>
    rw [writeItems] at hfuel ⊢
    · simp only [List.length_append, List.length_cons] at hfuel
      rw [List.append_assoc, List.cons_append, readItems,
        h.value j _ (by omega) (endsNumber_cons _ (by decide) (by decide)), Option.bind_some]
      show (readItems fuel _).map _ = _
      rw [h.items _ rest (List.cons_ne_nil _ _) (by omega)]
      rfl
    · simp
    · simp

/-- A field is read, and what stands behind it says whether there are more. -/
theorem readFields_field (name : Text) (j : Json) {t : Text} (hfuel : j.write.length ≤ fuel)
    (ht : EndsNumber t) : readFields (fuel + 1) (writeString name ++ ':' :: (j.write ++ t)) =
      match skipBlanks t with
      | ',' :: rest => (readFields fuel rest).map fun (fields, rest) => ((name, j) :: fields, rest)
      | '\x7d' :: rest => some ([(name, j)], rest)
      | _ => none := by
  rw [writeString, List.append_assoc, List.append_assoc]
  show (readString (name.flatMap writeChar ++ '"' :: ':' :: (j.write ++ t))).bind _ = _
  rw [readString_write, Option.bind_some]
  show (readValue fuel (j.write ++ t)).bind _ = _
  rw [h.value j t hfuel ht]
  rfl

theorem readFields_write (fields : List (Text × Json)) (rest : Text) (hne : fields ≠ [])
    (hfuel : (writeFields fields).length < fuel + 1) :
    readFields (fuel + 1) (writeFields fields ++ '\x7d' :: rest) = some (fields, rest) := by
  match fields, hne with
  | [(name, j)], _ =>
    simp only [writeFields, List.length_append, List.length_cons] at hfuel
    rw [writeFields, List.append_assoc, List.cons_append,
      readFields_field h name j (by omega) (endsNumber_cons _ (by decide) (by decide))]
    rfl
  | (name, j) :: field :: fields, _ =>
    rw [writeFields] at hfuel ⊢
    · simp only [List.length_append, List.length_cons] at hfuel
      rw [List.append_assoc, List.append_assoc, List.cons_append, List.cons_append,
        readFields_field h name j (by omega) (endsNumber_cons _ (by decide) (by decide))]
      show (readFields fuel _).map _ = _
      rw [h.fields _ rest (List.cons_ne_nil _ _) (by omega)]
      rfl
    · simp
    · simp

end Step

/-- **As much fuel as there are characters is enough.** -/
theorem reads (fuel : Nat) : Reads fuel := by
  induction fuel with
  | zero =>
    refine ⟨fun j rest hfuel _ => ?_, fun _ _ _ hfuel => absurd hfuel (Nat.not_lt_zero _),
      fun _ _ _ hfuel => absurd hfuel (Nat.not_lt_zero _)⟩
    obtain ⟨c, t, hwrite, -⟩ := exists_write_eq j
    simp [hwrite] at hfuel
  | succ fuel h => exact ⟨readValue_write h, readItems_write h, readFields_write h⟩

/-- **A text that was written for a value is read as that value.** -/
theorem read?_write (j : Json) : read? j.write = some j := by
  have hread := (reads j.write.length).value j [] (Nat.le_refl _) (by simp [EndsNumber])
  rw [List.append_nil] at hread
  rw [read?, hread]
  rfl

end Json

end MarkupTransfer
