/-
NewtonMethod/Proofs/NumberText.lean

Texts of numbers among other text.

Numbers stand in lists, with separators between them and white space around them.  That
they can be told apart rests on two facts.  A text that is read as a number is made of
plain characters, which are neither separators nor white space (`isPlain_of_readFloat?`);
the proof follows the reader, from the sign over the digits to the exponent, and takes the
words for what is no number in either case of their letters.  And trimming a text of plain
characters takes away all that was put around it, and nothing else (`trim_padded`).
-/
import Mathlib.Data.List.TakeWhile
import NewtonMethod.Decimal.Reader
import NewtonMethod.Text.Blank

namespace NewtonMethod

/-! ### The characters of a number -/

/-- Neither white space nor a separator. -/
def IsPlain (c : Char) : Prop := Text.isBlank c = false ∧ c ≠ ',' ∧ c ≠ ';'

instance (c : Char) : Decidable (IsPlain c) := inferInstanceAs (Decidable (_ ∧ _ ∧ _))

/-- Digits and capital letters are plain. -/
theorem isPlain_of_toNat {c : Char}
    (h : 48 ≤ c.toNat ∧ c.toNat ≤ 57 ∨ 65 ≤ c.toNat ∧ c.toNat ≤ 90) : IsPlain c := by
  have hcomma : c.toNat ≠ ','.toNat := by
    show c.toNat ≠ 44
    omega
  have hsemicolon : c.toNat ≠ ';'.toNat := by
    show c.toNat ≠ 59
    omega
  refine ⟨?_, ne_of_apply_ne _ hcomma, ne_of_apply_ne _ hsemicolon⟩
  simp only [Text.isBlank, Bool.or_eq_false_iff, Bool.and_eq_false_iff, decide_eq_false_iff_not]
  omega

theorem isPlain_of_isDigit {c : Char} (h : c.isDigit = true) : IsPlain c := by
  apply isPlain_of_toNat
  simp only [Char.isDigit, Bool.and_eq_true, decide_eq_true_eq] at h
  exact .inl h

/-- Capital letters are plain, and every other character is what it is in lower case. -/
theorem isPlain_of_isPlain_toLower {c : Char} (h : IsPlain c.toLower) : IsPlain c := by
  by_cases hupper : 'A' ≤ c ∧ c ≤ 'Z'
  · exact isPlain_of_toNat (.inr hupper)
  · have hlower : c.toLower = c := dif_neg hupper
    rwa [hlower] at h

/-- A word is plain if it is so in lower case. -/
theorem isPlain_of_toLower_eq {cs : List Char} {word : String}
    (h : String.ofList (cs.map Char.toLower) = word)
    (hword : word.toList.all (fun c => decide (IsPlain c)) = true) : ∀ c ∈ cs, IsPlain c := by
  subst h
  intro c hc
  apply isPlain_of_isPlain_toLower
  apply of_decide_eq_true
  apply List.all_eq_true.mp hword
  rw [String.toList_ofList]
  exact List.mem_map_of_mem hc

theorem isPlain_cons {c : Char} {cs : List Char} (hc : IsPlain c) (h : ∀ c ∈ cs, IsPlain c) :
    ∀ c' ∈ c :: cs, IsPlain c' :=
  List.forall_mem_cons.mpr ⟨hc, h⟩

/-- Digits in front of a text are plain. -/
theorem isPlain_of_dropWhile {cs : List Char} (h : ∀ c ∈ cs.dropWhile Char.isDigit, IsPlain c) :
    ∀ c ∈ cs, IsPlain c := by
  intro c hc
  rw [← List.takeWhile_append_dropWhile (p := Char.isDigit) (l := cs), List.mem_append] at hc
  rcases hc with hc | hc
  · exact isPlain_of_isDigit (List.all_eq_true.mp List.all_takeWhile c hc)
  · exact h c hc

/-! ### The text of a number -/

theorem Decimal.isPlain_of_readExponent? {cs : List Char} {e : Int}
    (h : readExponent? cs = some e) : ∀ c ∈ cs, IsPlain c := by
  have hdigits : ∀ {digits : List Char} {a : Int},
      (if digits.isEmpty || !digits.all Char.isDigit then none else some a) = some e →
      ∀ c ∈ digits, IsPlain c := by
    intro digits a h c hc
    split at h
    next => cases h
    next hall =>
      rw [Bool.or_eq_true, not_or, Bool.not_eq_true', Bool.not_eq_false, List.all_eq_true] at hall
      exact isPlain_of_isDigit (hall.2 c hc)
  unfold readExponent? at h
  split at h
  next hsign =>
    split at hsign
    · cases hsign
      exact isPlain_cons (by decide) (hdigits h)
    · cases hsign
      exact isPlain_cons (by decide) (hdigits h)
    · cases hsign
      exact hdigits h

/-- A decimal number is made of digits, a point and an exponent. -/
theorem Decimal.isPlain_of_read? {cs : List Char} {d : Decimal} (h : read? cs = some d) :
    ∀ c ∈ cs, IsPlain c := by
  unfold read? at h
  extract_lets whole rest at h
  split at h
  next fraction tail hfraction =>
    -- after the digits there is an exponent or nothing
    have htail : ∀ c ∈ tail, IsPlain c := by
      split at h
      next => cases h
      next =>
        obtain ⟨e, he, -⟩ := Option.map_eq_some_iff.mp h
        split at he
        next => exact fun _ hc => absurd hc List.not_mem_nil
        next c tail =>
          split at he
          next hc =>
            have hc : c = 'e' ∨ c = 'E' := by simpa using hc
            refine isPlain_cons ?_ (isPlain_of_readExponent? he)
            rcases hc with rfl | rfl <;> decide
          next => cases he
    have hrest : ∀ c ∈ rest, IsPlain c := by
      clear_value rest
      split at hfraction
      next =>
        cases hfraction
        exact isPlain_cons (by decide) (isPlain_of_dropWhile htail)
      next =>
        cases hfraction
        exact htail
    exact isPlain_of_dropWhile hrest

/-- Whatever is read as a number, words included, is made of plain characters. -/
theorem isPlain_of_readFloat? {cs : List Char} {x : Float} (h : readFloat? cs = some x) :
    ∀ c ∈ cs, IsPlain c := by
  unfold readFloat? at h
  split at h
  next negative body hsign =>
    -- after the sign there is a word or a decimal number
    have hbody : ∀ c ∈ body, IsPlain c := by
      extract_lets word at h
      split at h
      next hword => exact isPlain_of_toLower_eq hword (by decide)
      next =>
        split at h
        next hword =>
          have hword : word = "inf" ∨ word = "infinity" := by simpa using hword
          rcases hword with hword | hword
          · exact isPlain_of_toLower_eq hword (by decide)
          · exact isPlain_of_toLower_eq hword (by decide)
        next =>
          obtain ⟨d, hd, -⟩ := Option.map_eq_some_iff.mp h
          exact Decimal.isPlain_of_read? hd
    split at hsign
    · cases hsign
      exact isPlain_cons (by decide) hbody
    · cases hsign
      exact isPlain_cons (by decide) hbody
    · cases hsign
      exact hbody

/-! ### White space around a text -/

namespace Text

theorem dropWhile_of_isPlain {cs : List Char} (h : ∀ c ∈ cs, IsPlain c) :
    cs.dropWhile isBlank = cs := by
  cases cs with
  | nil => rfl
  | cons c cs =>
    exact List.dropWhile_cons_of_neg (Bool.eq_false_iff.mp (h c List.mem_cons_self).1)

/-- White space after a text of plain characters is taken away. -/
theorem trimRight_padded {text right : List Char} (htext : ∀ c ∈ text, IsPlain c)
    (hright : ∀ c ∈ right, isBlank c = true) : trimRight (text ++ right) = text := by
  have hright' : ∀ c ∈ right.reverse, isBlank c = true :=
    fun c hc => hright c (List.mem_reverse.mp hc)
  have htext' : ∀ c ∈ text.reverse, IsPlain c := fun c hc => htext c (List.mem_reverse.mp hc)
  -- the text is trimmed from behind, so it is reversed twice
  rw [trimRight, List.reverse_append, List.dropWhile_append_of_pos hright',
    dropWhile_of_isPlain htext', List.reverse_reverse]

/-- White space around a text of plain characters is taken away. -/
theorem trim_padded {left text right : List Char} (hleft : ∀ c ∈ left, isBlank c = true)
    (htext : ∀ c ∈ text, IsPlain c) (hright : ∀ c ∈ right, isBlank c = true) :
    trim (left ++ text ++ right) = text := by
  rw [trim, List.append_assoc, List.dropWhile_append_of_pos hleft]
  cases text with
  | nil =>
    -- all of it is white space, and is taken away from the left
    rw [List.nil_append, ← List.append_nil right, List.dropWhile_append_of_pos hright]
    rfl
  | cons c text =>
    have hc : ¬isBlank c = true := Bool.eq_false_iff.mp (htext c List.mem_cons_self).1
    rw [List.cons_append, List.dropWhile_cons_of_neg hc, ← List.cons_append]
    exact trimRight_padded htext hright

end Text

/-! ### Separators -/

theorem ne_separator_of_isBlank {c : Char} (h : Text.isBlank c = true) : c ≠ ',' ∧ c ≠ ';' := by
  constructor
  · rintro rfl
    exact absurd h (by decide)
  · rintro rfl
    exact absurd h (by decide)

/-- A number has no separators in it, and the white space around it has none. -/
theorem separators_not_mem_padded {left text right : List Char}
    (hleft : ∀ c ∈ left, Text.isBlank c = true) (htext : ∀ c ∈ text, IsPlain c)
    (hright : ∀ c ∈ right, Text.isBlank c = true) :
    ',' ∉ left ++ text ++ right ∧ ';' ∉ left ++ text ++ right := by
  have h : ∀ c ∈ left ++ text ++ right, c ≠ ',' ∧ c ≠ ';' := by
    intro c hc
    rw [List.mem_append, List.mem_append] at hc
    rcases hc with (hc | hc) | hc
    · exact ne_separator_of_isBlank (hleft c hc)
    · exact (htext c hc).2
    · exact ne_separator_of_isBlank (hright c hc)
  exact ⟨fun hc => (h _ hc).1 rfl, fun hc => (h _ hc).2 rfl⟩

end NewtonMethod
