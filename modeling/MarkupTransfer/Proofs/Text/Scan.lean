import MarkupTransfer.Text.Scan
/-!
# Scanning a text part by part

A scan takes a token whole where one stands at the head, and passes over text in which none begins.
Whether a token begins somewhere may depend on all that follows, so both facts are stated with the
rest of the text in place.

* `scanFrom_token`, `scanFrom_text`: a scan of a token, or of text without one, and what follows.
* `le_start_of_mem_scanFrom`: nothing is found before the offset where a scan begins.
* `rewrite`: a text with the tokens of one kind rewritten.
-/

namespace MarkupTransfer.Text

/-- **Going through a list as a scan does**: element by element, and over tokens. -/
theorem scan_induction {α : Type} (lengthAt : List α → Nat) {motive : List α → Prop}
    (nil : motive []) (skip : ∀ c t, lengthAt (c :: t) = 0 → motive t → motive (c :: t))
    (token : ∀ c t n, lengthAt (c :: t) = n + 1 → motive (t.drop n) → motive (c :: t))
    (t : List α) : motive t := by
  induction hn : t.length using Nat.strongRecOn generalizing t with
  | ind n ih =>
    cases t with
    | nil => exact nil
    | cons c t =>
      rw [List.length_cons] at hn
      cases h : lengthAt (c :: t) with
      | zero => exact skip c t h (ih t.length (by omega) t rfl)
      | succ k =>
        refine token c t k h (ih (t.drop k).length ?_ _ rfl)
        rw [List.length_drop]
        omega

variable {lengthAt : Text → Nat}

theorem scanFrom_token {m rest : Text} (h : lengthAt (m ++ rest) = m.length) (hm : m ≠ [])
    (n : Nat) :
    scanFrom lengthAt n 0 (m ++ rest) = ⟨n, m⟩ :: scanFrom lengthAt (n + size m) 0 rest := by
  cases m with
  | nil => exact absurd rfl hm
  | cons c m =>
    have hlength : lengthAt (c :: (m ++ rest)) = m.length + 1 := h
    rw [List.cons_append, scanFrom, hlength]
    simp only [List.take_succ_cons, List.take_left, size_cons]
    rw [scanFrom_skip, List.take_left, List.drop_left, Nat.add_assoc]

theorem scanFrom_text {m rest : Text}
    (h : ∀ s c r, m = s ++ c :: r → lengthAt (c :: r ++ rest) = 0) (n : Nat) :
    scanFrom lengthAt n 0 (m ++ rest) = scanFrom lengthAt (n + size m) 0 rest := by
  induction m generalizing n with
  | nil => rfl
  | cons c m ih =>
    have hhead : lengthAt (c :: (m ++ rest)) = 0 := h [] c m rfl
    rw [List.cons_append, scanFrom, hhead]
    simp only [size_cons]
    rw [ih (fun s d r hm => h (c :: s) d r (by rw [hm, List.cons_append])), Nat.add_assoc]

theorem scanFrom_cons_of_eq_zero {c : Char} {t : Text} (h : lengthAt (c :: t) = 0) (n : Nat) :
    scanFrom lengthAt n 0 (c :: t) = scanFrom lengthAt (n + c.utf8Size) 0 t := by
  rw [scanFrom, h]

theorem scanFrom_cons_of_eq_succ {c : Char} {t : Text} {k : Nat} (h : lengthAt (c :: t) = k + 1)
    (n : Nat) :
    scanFrom lengthAt n 0 (c :: t) = ⟨n, (c :: t).take (k + 1)⟩ ::
      scanFrom lengthAt (n + size ((c :: t).take (k + 1))) 0 ((c :: t).drop (k + 1)) := by
  rw [scanFrom, h]
  simp only [List.take_succ_cons, List.drop_succ_cons, size_cons]
  rw [scanFrom_skip, Nat.add_assoc]

theorem le_start_of_mem_scanFrom {n skip : Nat} {t : Text} {o : Occurrence}
    (h : o ∈ scanFrom lengthAt n skip t) : n ≤ o.start := by
  induction t generalizing n skip with
  | nil => simp [scanFrom] at h
  | cons c t ih =>
    have hlater : ∀ skip, o ∈ scanFrom lengthAt (n + c.utf8Size) skip t → n ≤ o.start :=
      fun skip ho => Nat.le_trans (Nat.le_add_right n _) (ih ho)
    cases skip with
    | succ skip => exact hlater skip h
    | zero =>
      rw [scanFrom] at h
      split at h
      · exact hlater 0 h
      · rcases List.mem_cons.mp h with rfl | h
        · exact Nat.le_refl n
        · exact hlater _ h

/-! ## Rewriting tokens -/

/-- A text with its tokens rewritten, once some characters have been skipped. -/
def rewriteFrom (lengthAt : Text → Nat) (f : Text → Text) : Nat → Text → Text
  | _, [] => []
  | skip + 1, _ :: t => rewriteFrom lengthAt f skip t
  | 0, c :: t =>
    match lengthAt (c :: t) with
    | 0 => c :: rewriteFrom lengthAt f 0 t
    | n + 1 => f ((c :: t).take (n + 1)) ++ rewriteFrom lengthAt f n t

/-- A text with its tokens rewritten. -/
def rewrite (lengthAt : Text → Nat) (f : Text → Text) (t : Text) : Text :=
  rewriteFrom lengthAt f 0 t

theorem rewriteFrom_eq (f : Text → Text) (skip : Nat) (t : Text) :
    rewriteFrom lengthAt f skip t = rewrite lengthAt f (t.drop skip) := by
  induction skip generalizing t with
  | zero => rfl
  | succ n ih =>
    cases t with
    | nil => rfl
    | cons c t => exact ih t

theorem rewrite_cons_of_eq_zero {c : Char} {t : Text} (h : lengthAt (c :: t) = 0)
    (f : Text → Text) : rewrite lengthAt f (c :: t) = c :: rewrite lengthAt f t := by
  rw [rewrite, rewriteFrom, h]
  rfl

theorem rewrite_cons_of_eq_succ {c : Char} {t : Text} {k : Nat} (h : lengthAt (c :: t) = k + 1)
    (f : Text → Text) :
    rewrite lengthAt f (c :: t) =
      f ((c :: t).take (k + 1)) ++ rewrite lengthAt f ((c :: t).drop (k + 1)) := by
  rw [rewrite, rewriteFrom, h]
  simp only [rewriteFrom_eq, List.drop_succ_cons]

end MarkupTransfer.Text
