/-
NewtonMethod/Proofs/MatrixText.lean

Tables on one line, read and written.

A text is cut at its semicolons, and each part at its commas.  What is left are its
pieces, row by row (`pieces`).  They describe a table (`Describes`) if it has a row for
each part, a column for each piece, and the numbers that the pieces stand for as its
entries.  Reading finds the table that is described, if there is one
(`readMatrix_eq_ok_iff`): what is read is described, a text whose pieces are numbers in
rows of one width is read, and no text describes two tables.

A table can be written in many ways.  Each entry may be any text that stands for it, with
any white space on both sides.  Such a text has no separator in it, so that cutting finds
the pieces that were joined (`pieces_written`).  That gives the other half of the main
result, `readMatrix_exact`: whatever is written is read back.
-/
import Mathlib.Data.List.Forall2
import Mathlib.Data.List.OfFn
import NewtonMethod.MatrixText
import NewtonMethod.Proofs.NumberText

namespace NewtonMethod

/-! ### Lists of values -/

section Lists

variable {α β : Type} {R : α → β → Prop} {l : List α} {ys : List β}

/-- Each value comes from the element at the same place. -/
theorem exists_getElem?_of_forall₂ (h : List.Forall₂ R l ys) {i : ℕ} {b : β}
    (hb : ys[i]? = some b) : ∃ a, l[i]? = some a ∧ R a b := by
  obtain ⟨hlength, hget⟩ := List.forall₂_iff_get.mp h
  obtain ⟨hi, rfl⟩ := List.getElem?_eq_some_iff.mp hb
  exact ⟨_, List.getElem?_eq_getElem (hlength ▸ hi), hget i (hlength ▸ hi) hi⟩

theorem exists_mem_of_forall₂ (h : List.Forall₂ R l ys) {b : β} (hb : b ∈ ys) :
    ∃ a ∈ l, R a b := by
  obtain ⟨i, hi⟩ := List.mem_iff_getElem?.mp hb
  obtain ⟨a, ha, hab⟩ := exists_getElem?_of_forall₂ h hi
  exact ⟨a, List.mem_of_getElem? ha, hab⟩

theorem exists_forall₂ (h : ∀ a ∈ l, ∃ b, R a b) : ∃ ys, List.Forall₂ R l ys := by
  induction l with
  | nil => exact ⟨[], .nil⟩
  | cons a l ih =>
    obtain ⟨⟨b, hb⟩, hl⟩ := List.forall_mem_cons.mp h
    obtain ⟨ys, hys⟩ := ih hl
    exact ⟨b :: ys, .cons hb hys⟩

theorem bind_eq_ok_iff {ε γ : Type} {x : Except ε β} {f : β → Except ε γ} {c : γ} :
    (x >>= f) = .ok c ↔ ∃ b, x = .ok b ∧ f b = .ok c := by
  rcases x with e | b <;> simp [bind, Except.bind]

/-- Reading a list reads each of its elements. -/
theorem mapM_eq_ok_iff {ε : Type} {f : α → Except ε β} :
    l.mapM f = .ok ys ↔ List.Forall₂ (fun a b => f a = .ok b) l ys := by
  induction l generalizing ys with
  | nil =>
    rw [List.forall₂_nil_left_iff]
    exact ⟨fun h => (Except.ok.inj h).symm, fun h => congrArg Except.ok h.symm⟩
  | cons a l ih =>
    simp only [List.mapM_cons, bind_eq_ok_iff, ih, List.forall₂_cons_left_iff]
    constructor
    · rintro ⟨b, hb, bs, hbs, h⟩
      exact ⟨b, bs, hb, hbs, (Except.ok.inj h).symm⟩
    · rintro ⟨b, bs, hb, hbs, rfl⟩
      exact ⟨b, hb, bs, hbs, rfl⟩

end Lists

/-- A table that is made of rows has their entries. -/
theorem Jacobian.ofRows?_spec {α : Type} {rows : List (List α)} {t : Jacobian α}
    (h : ofRows? rows = some t) :
    rows.length = t.rows ∧ (∀ row ∈ rows, row.length = t.cols)
      ∧ ∀ (i : Fin t.rows) (j : Fin t.cols), ∃ row,
        rows[i.val]? = some row ∧ row[j.val]? = some (t.table.entry i j) := by
  rw [ofRows?] at h
  split at h
  next hwidth =>
    obtain rfl := Option.some.inj h
    refine ⟨rfl, hwidth, fun i j => ⟨_, List.getElem?_eq_getElem i.isLt, ?_⟩⟩
    rw [Table.entry_ofFn]
    exact List.getElem?_eq_getElem _
  next => cases h

namespace MatrixText

/-! ### What a text describes -/

/-- The pieces of a text between its separators, row by row. -/
def pieces (text : List Char) : List (List (List Char)) :=
  (text.splitOn ';').map (·.splitOn ',')

/-- A piece stands for a number; white space around it does not count. -/
def Denotes (piece : List Char) (x : Float) : Prop := readFloat? (Text.trim piece) = some x

/-- The text has a row of pieces for each row of the table and a piece for each entry, which stands
for it. -/
structure Describes (text : List Char) (t : Jacobian Float) : Prop where
  rows : (pieces text).length = t.rows
  cols : ∀ row ∈ pieces text, row.length = t.cols
  entry : ∀ (i : Fin t.rows) (j : Fin t.cols), ∃ row piece,
    (pieces text)[i.val]? = some row ∧ row[j.val]? = some piece ∧ Denotes piece (t.table.entry i j)

/-- Even the empty text has a row. -/
theorem pieces_ne_nil (text : List Char) : pieces text ≠ [] :=
  mt List.map_eq_nil_iff.mp (List.splitOn_ne_nil ';' text)

theorem ne_nil_of_mem_pieces {text : List Char} {row : List (List Char)} (h : row ∈ pieces text) :
    row ≠ [] := by
  obtain ⟨part, -, rfl⟩ := List.mem_map.mp h
  exact List.splitOn_ne_nil ',' part

/-- A table that is described is not empty. -/
theorem Describes.pos {text : List Char} {t : Jacobian Float} (h : Describes text t) :
    1 ≤ t.rows ∧ 1 ≤ t.cols := by
  obtain ⟨row, rest, hpieces⟩ := List.exists_cons_of_ne_nil (pieces_ne_nil text)
  have hrow : row ∈ pieces text := hpieces ▸ List.mem_cons_self
  rw [← h.rows, ← h.cols row hrow]
  exact ⟨List.length_pos_of_ne_nil (pieces_ne_nil text),
    List.length_pos_of_ne_nil (ne_nil_of_mem_pieces hrow)⟩

/-- A text describes one table at most. -/
theorem Describes.unique {text : List Char} {t t' : Jacobian Float} (h : Describes text t)
    (h' : Describes text t') : t = t' := by
  obtain ⟨m, n, table⟩ := t
  obtain ⟨m', n', table'⟩ := t'
  obtain ⟨row, rest, hpieces⟩ := List.exists_cons_of_ne_nil (pieces_ne_nil text)
  have hrow : row ∈ pieces text := hpieces ▸ List.mem_cons_self
  obtain rfl : m = m' := h.rows.symm.trans h'.rows
  obtain rfl : n = n' := (h.cols row hrow).symm.trans (h'.cols row hrow)
  -- the sizes are those of the pieces, and each entry is the number of its piece
  refine congrArg _ (Table.ext fun i j => ?_)
  obtain ⟨row, piece, hrow, hpiece, hx⟩ := h.entry i j
  obtain ⟨row', piece', hrow', hpiece', hx'⟩ := h'.entry i j
  obtain rfl : row = row' := Option.some.inj (hrow.symm.trans hrow')
  obtain rfl : piece = piece' := Option.some.inj (hpiece.symm.trans hpiece')
  exact Option.some.inj (hx.symm.trans hx')

/-! ### Reading -/

theorem readEntry_eq_ok_iff {piece : List Char} {x : Float} :
    readEntry piece = .ok x ↔ Denotes piece x := by
  rw [readEntry, Denotes]
  rcases readFloat? (Text.trim piece) with - | y <;> simp

theorem readVector_eq_ok_iff {text : List Char} {xs : List Float} :
    readVector text = .ok xs ↔ List.Forall₂ Denotes (text.splitOn ',') xs := by
  simp only [readVector, mapM_eq_ok_iff, readEntry_eq_ok_iff]

theorem readRows_eq_ok_iff {text : List Char} {rows : List (List Float)} :
    (text.splitOn ';').mapM readVector = .ok rows
      ↔ List.Forall₂ (List.Forall₂ Denotes) (pieces text) rows := by
  simp only [mapM_eq_ok_iff, readVector_eq_ok_iff, pieces, List.forall₂_map_left_iff]

/-- A table is read if its rows can be read and have one width. -/
theorem readMatrix_eq_ok_iff_rows {text : List Char} {t : Jacobian Float} :
    readMatrix text = .ok t ↔ ∃ rows, List.Forall₂ (List.Forall₂ Denotes) (pieces text) rows
      ∧ Jacobian.ofRows? rows = some t := by
  rw [readMatrix, bind_eq_ok_iff]
  simp only [readRows_eq_ok_iff]
  refine exists_congr fun rows => and_congr_right' ?_
  rcases Jacobian.ofRows? rows with - | t' <;> simp

/-- What is read is described. -/
theorem describes_of_readMatrix {text : List Char} {t : Jacobian Float}
    (h : readMatrix text = .ok t) : Describes text t := by
  obtain ⟨rows, hrows, ht⟩ := readMatrix_eq_ok_iff_rows.mp h
  obtain ⟨hlength, hwidth, hentry⟩ := Jacobian.ofRows?_spec ht
  refine ⟨hrows.length_eq.trans hlength, fun row hrow => ?_, fun i j => ?_⟩
  · obtain ⟨values, hvalues, hread⟩ := exists_mem_of_forall₂ hrows.flip hrow
    exact hread.length_eq.trans (hwidth values hvalues)
  · -- from the table to the rows, and from the rows to the pieces
    obtain ⟨values, hvalues, hx⟩ := hentry i j
    obtain ⟨row, hrow, hread⟩ := exists_getElem?_of_forall₂ hrows hvalues
    obtain ⟨piece, hpiece, hdenotes⟩ := exists_getElem?_of_forall₂ hread hx
    exact ⟨row, piece, hrow, hpiece, hdenotes⟩

/-- Numbers in rows of one width are read. -/
theorem exists_readMatrix {text : List Char}
    (hnumbers : ∀ row ∈ pieces text, ∀ piece ∈ row, ∃ x, Denotes piece x)
    (hwidths : ∀ row ∈ pieces text, ∀ row' ∈ pieces text, row.length = row'.length) :
    ∃ t, readMatrix text = .ok t := by
  obtain ⟨rows, hrows⟩ := exists_forall₂ fun row hrow => exists_forall₂ (hnumbers row hrow)
  -- the width that is asked for is that of the first row
  have hwidth : ∀ values ∈ rows, values.length = (rows.headD []).length := by
    intro values hvalues
    obtain ⟨row, hrow, hread⟩ := exists_mem_of_forall₂ hrows hvalues
    obtain ⟨first, rest, rfl⟩ := List.exists_cons_of_ne_nil (List.ne_nil_of_mem hvalues)
    obtain ⟨row', hrow', hread'⟩ := exists_mem_of_forall₂ hrows List.mem_cons_self
    rw [List.headD_cons, ← hread.length_eq, ← hread'.length_eq]
    exact hwidths row hrow row' hrow'
  exact ⟨_, readMatrix_eq_ok_iff_rows.mpr ⟨rows, hrows, dif_pos hwidth⟩⟩

theorem Describes.exists_denotes {text : List Char} {t : Jacobian Float} (h : Describes text t)
    {row : List (List Char)} (hrow : row ∈ pieces text) {piece : List Char} (hpiece : piece ∈ row) :
    ∃ x, Denotes piece x := by
  obtain ⟨i, hi, rfl⟩ := List.mem_iff_getElem.mp hrow
  obtain ⟨j, hj, rfl⟩ := List.mem_iff_getElem.mp hpiece
  obtain ⟨row, piece, hrow', hpiece', hx⟩ := h.entry ⟨i, h.rows ▸ hi⟩ ⟨j, h.cols _ hrow ▸ hj⟩
  obtain rfl := Option.some.inj ((List.getElem?_eq_getElem hi).symm.trans hrow')
  obtain rfl := Option.some.inj ((List.getElem?_eq_getElem hj).symm.trans hpiece')
  exact ⟨_, hx⟩

theorem Describes.length_eq {text : List Char} {t : Jacobian Float} (h : Describes text t)
    {row row' : List (List Char)} (hrow : row ∈ pieces text) (hrow' : row' ∈ pieces text) :
    row.length = row'.length :=
  (h.cols row hrow).trans (h.cols row' hrow').symm

/-- Reading finds the table that a text describes. -/
theorem readMatrix_eq_ok_iff {text : List Char} {t : Jacobian Float} :
    readMatrix text = .ok t ↔ Describes text t := by
  refine ⟨describes_of_readMatrix, fun h => ?_⟩
  obtain ⟨t', ht'⟩ := exists_readMatrix (fun _ hrow _ => h.exists_denotes hrow)
    fun _ hrow _ => h.length_eq hrow
  rwa [h.unique (describes_of_readMatrix ht')]

/-! ### Writing -/

/-- Joining puts no other character in than the separator. -/
theorem not_mem_intercalate {c separator : Char} (hc : c ≠ separator) {parts : List (List Char)}
    (h : ∀ part ∈ parts, c ∉ part) : c ∉ [separator].intercalate parts := by
  induction parts with
  | nil => exact List.not_mem_nil
  | cons part parts ih =>
    obtain ⟨hpart, hparts⟩ := List.forall_mem_cons.mp h
    cases parts with
    | nil =>
      rw [List.intercalate_singleton]
      exact hpart
    | cons next parts =>
      rw [List.intercalate_cons_cons, List.mem_append, List.mem_append, List.mem_singleton]
      rintro ((hmem | hmem) | hmem)
      · exact hpart hmem
      · exact hc hmem
      · exact ih hparts hmem

/-- The text with the given pieces: those of a row with commas between them, and the rows with
semicolons between them. -/
def written {m n : ℕ} (piece : Fin m → Fin n → List Char) : List Char :=
  [';'].intercalate (List.ofFn fun i => [','].intercalate (List.ofFn (piece i)))

/-- What is joined is found again, if no piece has a separator in it. -/
theorem pieces_written {m n : ℕ} (hm : m ≠ 0) (hn : n ≠ 0) {piece : Fin m → Fin n → List Char}
    (hpiece : ∀ i j, ',' ∉ piece i j ∧ ';' ∉ piece i j) :
    pieces (written piece) = List.ofFn fun i => List.ofFn (piece i) := by
  -- within a row the commas are the separators, and the semicolons between the rows
  have hrow : ∀ i, ([','].intercalate (List.ofFn (piece i))).splitOn ',' = List.ofFn (piece i) := by
    intro i
    refine List.splitOn_intercalate ',' ?_ (mt List.ofFn_eq_nil_iff.mp hn)
    rw [List.forall_mem_ofFn_iff]
    exact fun j => (hpiece i j).1
  rw [pieces, written, List.splitOn_intercalate ';' _ (mt List.ofFn_eq_nil_iff.mp hm),
    List.map_ofFn]
  · exact congrArg List.ofFn (funext hrow)
  · rw [List.forall_mem_ofFn_iff]
    intro i
    apply not_mem_intercalate (by decide)
    rw [List.forall_mem_ofFn_iff]
    exact fun j => (hpiece i j).2

/-- A text that is written describes the table whose entries its pieces stand for. -/
theorem describes_written {m n : ℕ} (hm : m ≠ 0) (hn : n ≠ 0) {table : Table Float m n}
    {piece : Fin m → Fin n → List Char} (hpiece : ∀ i j, ',' ∉ piece i j ∧ ';' ∉ piece i j)
    (hx : ∀ i j, Denotes (piece i j) (table.entry i j)) :
    Describes (written piece) ⟨m, n, table⟩ := by
  have hpieces := pieces_written hm hn hpiece
  refine ⟨?_, ?_, fun i j => ⟨List.ofFn (piece i), piece i j, ?_, ?_, hx i j⟩⟩
  · rw [hpieces, List.length_ofFn]
  · rw [hpieces, List.forall_mem_ofFn_iff]
    exact fun i => List.length_ofFn
  · rw [hpieces, List.getElem?_ofFn, dif_pos i.isLt]
  · rw [List.getElem?_ofFn, dif_pos j.isLt]

/-- **The text of a table is read exactly.**  A text can be read if all of its pieces stand for
numbers and all rows have equally many pieces, and then it describes the table that is read, which
has a row and a column at least.  A table that is written with any texts for its entries, and any
white space around them, is read back. -/
theorem readMatrix_exact :
    (∀ text, (∃ t, readMatrix text = .ok t)
        ↔ (∀ row ∈ pieces text, ∀ piece ∈ row, ∃ x, Denotes piece x)
          ∧ ∀ row ∈ pieces text, ∀ row' ∈ pieces text, row.length = row'.length)
      ∧ (∀ text t, readMatrix text = .ok t ↔ Describes text t ∧ 1 ≤ t.rows ∧ 1 ≤ t.cols)
      ∧ ∀ (m n : ℕ) (table : Table Float m n), 1 ≤ m → 1 ≤ n →
        ∀ number left right : Fin m → Fin n → List Char,
          (∀ i j, readFloat? (number i j) = some (table.entry i j)) →
          (∀ i j, ∀ c ∈ left i j ++ right i j, Text.isBlank c = true) →
          readMatrix (written fun i j => left i j ++ number i j ++ right i j)
            = .ok ⟨m, n, table⟩ := by
  refine ⟨fun text => ⟨?_, fun h => exists_readMatrix h.1 h.2⟩, fun text t => ?_, ?_⟩
  · rintro ⟨t, ht⟩
    have hdescribes := describes_of_readMatrix ht
    exact ⟨fun _ hrow _ => hdescribes.exists_denotes hrow,
      fun _ hrow _ => hdescribes.length_eq hrow⟩
  · rw [readMatrix_eq_ok_iff]
    exact ⟨fun h => ⟨h, h.pos⟩, fun h => h.1⟩
  · intro m n table hm hn number left right hnumber hblank
    rw [Nat.one_le_iff_ne_zero] at hm hn
    refine readMatrix_eq_ok_iff.mpr (describes_written hm hn (fun i j => ?_) fun i j => ?_)
    · -- there is no separator in a number or in the white space around it
      obtain ⟨hleft, hright⟩ := List.forall_mem_append.mp (hblank i j)
      exact separators_not_mem_padded hleft (isPlain_of_readFloat? (hnumber i j)) hright
    · obtain ⟨hleft, hright⟩ := List.forall_mem_append.mp (hblank i j)
      rw [Denotes, Text.trim_padded hleft (isPlain_of_readFloat? (hnumber i j)) hright]
      exact hnumber i j

/-- A table of four numbers, the last of which is none, with white space around some of them. -/
theorem readMatrix_exact_padded :
    readMatrix " 1 ,-2.5;\t3e2, NaN\n".toList = .ok ⟨2, 2, #v[#v[1, -2.5], #v[300, 0 / 0]]⟩
      ∧ ¬∃ t, readMatrix "1,-2.5;3e2".toList = .ok t := by
  obtain ⟨hread, -, hwritten⟩ := readMatrix_exact
  constructor
  · have hsource : " 1 ,-2.5;\t3e2, NaN\n".toList = written fun i j =>
        Table.entry #v[#v[" ".toList, []], #v["\t".toList, " ".toList]] i j
          ++ Table.entry #v[#v["1".toList, "-2.5".toList], #v["3e2".toList, "NaN".toList]] i j
          ++ Table.entry #v[#v[" ".toList, []], #v[[], "\n".toList]] i j := by
      decide +kernel
    rw [hsource]
    refine hwritten 2 2 _ (by decide) (by decide) _ _ _ (by decide +kernel) fun i j => ?_
    apply List.all_eq_true.mp
    revert i j
    decide +kernel
  · rw [hread]
    rintro ⟨-, hwidths⟩
    revert hwidths
    decide +kernel

end MatrixText

end NewtonMethod
