import HostTimeline.Proofs.IntegerText
import HostTimeline.Table.Basic
import Mathlib.Data.List.DropRight
import Mathlib.Data.List.Forall2

/-!
Reading fixed columns.  A column is at least as wide as each of its cells has characters
(`Fixed.exists_width`), so that it starts at the same place in every line, and what is trimmed at
the end of a line is no part of a cell that does not end in white space.  Hence every cell is read
back from where its column starts to where the next one starts (`isReadByColumn`).
-/

namespace HostTimeline

theorem Text.take_length_trimEnd (text : List Char) :
    text.take (trimEnd text).length = trimEnd text := by
  obtain ⟨behind, split, _⟩ := exists_trimEnd text
  have start : trimEnd text <+: text := ⟨behind, split.symm⟩
  exact (List.prefix_iff_eq_take.mp start).symm

/-- What is left by trimming goes beyond every character that is no white space. -/
theorem Text.lt_length_trimEnd {text : List Char} {place : Nat} {char : Char}
    (found : text[place]? = some char) (solid : isBlank char = false) :
    place < (trimEnd text).length := by
  obtain ⟨behind, split, blank⟩ := exists_trimEnd text
  by_contra beyond
  rw [split, List.getElem?_append_right (Nat.le_of_not_lt beyond)] at found
  have trimmed := blank char (List.mem_of_getElem? found)
  rw [solid] at trimmed
  cases trimmed

theorem length_toList_le_utf8ByteSize (text : String) : text.toList.length ≤ text.utf8ByteSize := by
  induction text using String.push_induction with
  | empty => exact Nat.le_refl 0
  | push text char ih =>
      have wide := char.utf8Size_pos
      rw [String.toList_push, List.length_append, String.utf8ByteSize_push, List.length_singleton]
      omega

namespace Table

/-- The rows that a text shows: first the names of the fields, if there is a header. -/
def shownRows (fields : List String) (header : Bool) (rows : List (List String)) :
    List (List String) :=
  (if header then [fields] else []) ++ rows

/-- The characters of a line from one place to another, or to the end of the line. -/
def charsBetween (line : List Char) (start : Nat) : Option Nat → List Char
  | some stop => (line.take stop).drop start
  | none => line.drop start

def withoutSpaces (text : List Char) : List Char :=
  text.rdropWhile (· == ' ')

/-- A cell of one line that does not end in white space. -/
structure IsTrimmedCell (cell : String) : Prop where
  noBreak : '\n' ∉ cell.toList
  solid : ∀ char ∈ cell.toList.getLast?, Text.isBlank char = false

theorem isTrimmedCell_iff {cell : String} : IsTrimmedCell cell ↔ '\n' ∉ cell.toList ∧
    (cell.toList.getLast?.all fun char => !Text.isBlank char) = true := by
  rw [Option.all_eq_true]
  simp only [Bool.not_eq_true']
  exact ⟨fun trimmed => ⟨trimmed.noBreak, trimmed.solid⟩, fun both => ⟨both.1, both.2⟩⟩

instance (cell : String) : Decidable (IsTrimmedCell cell) :=
  decidable_of_iff _ isTrimmedCell_iff.symm

/-- A line from which the cells of a row are read at the starts of the columns.  At least two
places lie between the end of a cell and the start of the next column, and as far as the line goes
there are spaces. -/
structure IsRowLine (starts : List Nat) (row : List String) (shown : List Char) : Prop where
  noBreak : '\n' ∉ shown
  read : ∀ (column : Nat) (cell : String), row[column]? = some cell →
    ∃ start, starts[column]? = some start ∧
      withoutSpaces (charsBetween shown start starts[column + 1]?) = cell.toList
  apart : ∀ (column : Nat) (cell : String) (start next : Nat), row[column]? = some cell →
    starts[column]? = some start → starts[column + 1]? = some next →
      start + cell.toList.length + 2 ≤ next ∧
        ∀ (place : Nat) (char : Char), start + cell.toList.length ≤ place → place < next →
          shown[place]? = some char → char = ' '

/-- A text with one line for each row, in columns with the same starts in all lines. -/
structure IsInColumns (starts : List Nat) (rows : List (List String)) (lines : List (List Char))
    (text : List Char) : Prop where
  text_eq : text = lines.flatMap (· ++ ['\n'])
  first : ∀ start ∈ starts.head?, start = 0
  rows : List.Forall₂ (IsRowLine starts) rows lines

namespace Fixed

section Widths

variable {rows : List (List String)}

/-- In each column the width is not below that of any cell. -/
theorem exists_width {start : List Nat} {column size : Nat} (here : start[column]? = some size)
    (complete : ∀ row ∈ rows, ∃ cell, row[column]? = some cell) :
    ∃ width, (rows.foldl (fun widths row => widths.zipWith max (row.map String.utf8ByteSize))
        start)[column]? = some width ∧ size ≤ width ∧
      ∀ row ∈ rows, ∀ cell, row[column]? = some cell → cell.utf8ByteSize ≤ width := by
  induction rows generalizing start size with
  | nil => exact ⟨size, here, Nat.le_refl size, fun row member => by cases member⟩
  | cons first rest ih =>
      obtain ⟨firstComplete, restComplete⟩ := List.forall_mem_cons.mp complete
      obtain ⟨cell, found⟩ := firstComplete
      have next : (start.zipWith max (first.map String.utf8ByteSize))[column]? =
          some (max size cell.utf8ByteSize) := by
        rw [List.getElem?_zipWith, here, List.getElem?_map, found, Option.map_some]
      obtain ⟨width, isWidth, grown, above⟩ := ih next restComplete
      refine ⟨width, isWidth, Nat.le_trans (Nat.le_max_left _ _) grown, ?_⟩
      refine List.forall_mem_cons.mpr ⟨fun other same => ?_, above⟩
      rw [found, Option.some.injEq] at same
      exact same ▸ Nat.le_trans (Nat.le_max_right _ _) grown

theorem length_foldl_widths {start : List Nat} (complete : ∀ row ∈ rows, row.length = start.length) :
    (rows.foldl (fun widths row => widths.zipWith max (row.map String.utf8ByteSize)) start).length =
      start.length := by
  induction rows generalizing start with
  | nil => rfl
  | cons first rest ih =>
      obtain ⟨firstComplete, restComplete⟩ := List.forall_mem_cons.mp complete
      have kept : (start.zipWith max (first.map String.utf8ByteSize)).length = start.length := by
        rw [List.length_zipWith, List.length_map, firstComplete, Nat.min_self]
      rw [List.foldl_cons, ih (by rwa [kept]), kept]

variable {columns : Nat} (complete : ∀ row ∈ rows, row.length = columns)
include complete

theorem length_widths : (widths columns rows).length = columns := by
  have filled : ∀ row ∈ rows, row.length = (List.replicate columns 0).length := by
    simpa using complete
  exact (length_foldl_widths filled).trans List.length_replicate

/-- A column has at least as many places as a cell in it has characters. -/
theorem length_le_of_widths {row : List String} (member : row ∈ rows) {column width : Nat}
    {cell : String} (found : row[column]? = some cell)
    (isWidth : (widths columns rows)[column]? = some width) : cell.toList.length ≤ width := by
  have inside : column < columns := by
    rw [← complete row member]
    exact (List.getElem?_eq_some_iff.mp found).1
  have zero : (List.replicate columns 0)[column]? = some 0 := List.getElem?_replicate_of_lt inside
  have filled : ∀ other ∈ rows, ∃ cell, other[column]? = some cell := fun other otherMember =>
    ⟨_, List.getElem?_eq_getElem (by rwa [complete other otherMember])⟩
  obtain ⟨own, ownWidth, _, above⟩ := exists_width zero filled
  have same : own = width := Option.some.inj (ownWidth.symm.trans isWidth)
  exact Nat.le_trans (length_toList_le_utf8ByteSize cell) (same ▸ above row member cell found)

end Widths

/-- Where blocks of these lengths start, one after the other. -/
def startsFrom (place : Nat) : List Nat → List Nat
  | [] => []
  | length :: rest => place :: startsFrom (place + length) rest

theorem length_startsFrom (place : Nat) (lengths : List Nat) :
    (startsFrom place lengths).length = lengths.length := by
  induction lengths generalizing place with
  | nil => rfl
  | cons length rest ih => exact congrArg (· + 1) (ih (place + length))

/-- A block in a line of blocks lies between its start and the next one. -/
theorem exists_split {blocks : List (List Char)} {column : Nat} {block : List Char}
    (found : blocks[column]? = some block) (place : Nat) :
    ∃ before after, blocks.flatten = before ++ (block ++ after) ∧
      (startsFrom place (blocks.map List.length))[column]? = some (place + before.length) ∧
      ((startsFrom place (blocks.map List.length))[column + 1]? =
          some (place + before.length + block.length) ∨
        (startsFrom place (blocks.map List.length))[column + 1]? = none ∧ after = []) := by
  induction blocks generalizing column place with
  | nil => cases found
  | cons first rest ih =>
      cases column with
      | zero =>
          rw [List.getElem?_cons_zero, Option.some.injEq] at found
          subst found
          refine ⟨[], rest.flatten, rfl, rfl, ?_⟩
          cases rest with
          | nil => exact .inr ⟨rfl, rfl⟩
          | cons next rest => exact .inl rfl
      | succ column =>
          rw [List.getElem?_cons_succ] at found
          obtain ⟨before, after, split, start, next⟩ := ih found (place + first.length)
          have moved : place + first.length + before.length =
              place + (first ++ before).length := by
            rw [List.length_append, Nat.add_assoc]
          rw [moved] at start next
          refine ⟨first ++ before, after, ?_, start, next⟩
          rw [List.flatten_cons, split, List.append_assoc]

theorem cellChars_eq (cell : String) (width : Nat) : cellChars cell width =
    cell.toList ++ List.replicate (width - cell.toList.length + 2) ' ' := by
  rw [cellChars, List.rightpad, List.append_assoc, List.replicate_add]
  rfl

theorem withoutSpaces_append {cell : List Char} (solid : ∀ char ∈ cell.getLast?, char ≠ ' ')
    (count : Nat) : withoutSpaces (cell ++ List.replicate count ' ') = cell := by
  unfold withoutSpaces
  induction count with
  | zero =>
      rw [List.replicate_zero, List.append_nil, List.rdropWhile_eq_self_iff]
      intro nonempty
      simpa using solid _ (List.getLast?_eq_some_getLast nonempty)
  | succ count ih =>
      rw [List.replicate_succ', ← List.append_assoc, List.rdropWhile_concat, if_pos (by rfl), ih]

/-- Where columns of these widths start, with two spaces after each. -/
def starts (widths : List Nat) : List Nat :=
  startsFrom 0 (widths.map (· + 2))

theorem length_starts (widths : List Nat) : (starts widths).length = widths.length :=
  (length_startsFrom 0 _).trans (List.length_map _)

theorem head?_starts (widths : List Nat) : ∀ start ∈ (starts widths).head?, start = 0 := by
  cases widths with
  | nil => exact fun start member => nomatch member
  | cons width rest => exact fun start member => (Option.some.inj member).symm

/-- A row with a cell for each column, none of which is too long. -/
structure Fits (widths : List Nat) (row : List String) : Prop where
  complete : row.length = widths.length
  within : ∀ (column width : Nat) (cell : String), row[column]? = some cell →
    widths[column]? = some width → cell.toList.length ≤ width

theorem fits_widths {columns : Nat} {rows : List (List String)}
    (complete : ∀ row ∈ rows, row.length = columns) {row : List String} (member : row ∈ rows) :
    Fits (widths columns rows) row where
  complete := (complete row member).trans (length_widths complete).symm
  within _ _ _ found isWidth := length_le_of_widths complete member found isWidth

namespace Fits

variable {widths : List Nat} {row : List String} (fits : Fits widths row)
include fits

theorem map_length : (List.zipWith cellChars row widths).map List.length = widths.map (· + 2) := by
  refine List.ext_getElem ?_ fun column inside _ => ?_
  · simp [fits.complete]
  · rw [List.length_map, List.length_zipWith] at inside
    have within := fits.within column widths[column] row[column]
      (List.getElem?_eq_getElem (by omega)) (List.getElem?_eq_getElem (by omega))
    simp only [List.getElem_map, List.getElem_zipWith, cellChars_eq, List.length_append,
      List.length_replicate]
    omega

/-- A cell stands at the start of its column, with spaces up to the next one. -/
theorem exists_split {column : Nat} {cell : String} (found : row[column]? = some cell) :
    ∃ before count after, 2 ≤ count ∧
      (List.zipWith cellChars row widths).flatten =
        before ++ (cell.toList ++ List.replicate count ' ' ++ after) ∧
      (starts widths)[column]? = some before.length ∧
      ((starts widths)[column + 1]? = some (before.length + cell.toList.length + count) ∨
        (starts widths)[column + 1]? = none ∧ after = []) := by
  have inside : column < widths.length := by
    rw [← fits.complete]
    exact (List.getElem?_eq_some_iff.mp found).1
  have block : (List.zipWith cellChars row widths)[column]? =
      some (cellChars cell widths[column]) := by
    rw [List.getElem?_zipWith, found, List.getElem?_eq_getElem inside]
  obtain ⟨before, after, split, start, next⟩ := Fixed.exists_split block 0
  rw [fits.map_length, Nat.zero_add] at start next
  rw [cellChars_eq] at split next
  rw [List.length_append, List.length_replicate, ← Nat.add_assoc] at next
  exact ⟨before, _, after, Nat.le_add_left 2 _, split, start, next⟩

end Fits

section Line

variable {before cell after : List Char} {count : Nat}
  (solid : ∀ char ∈ cell.getLast?, Text.isBlank char = false)
include solid

/-- No character of the cell is trimmed. -/
theorem length_le_length_trimEnd : cell.length ≤
    (Text.trimEnd (before ++ (cell ++ List.replicate count ' ' ++ after))).length -
      before.length := by
  rcases List.eq_nil_or_concat cell with rfl | ⟨earlier, last, rfl⟩
  · exact Nat.zero_le _
  · rw [List.concat_eq_append] at solid ⊢
    have found : (before ++ (earlier ++ [last] ++ List.replicate count ' ' ++ after))[
        before.length + earlier.length]? = some last := by simp
    have kept := Text.lt_length_trimEnd found (solid last (by simp))
    rw [List.length_append, List.length_singleton]
    omega

theorem withoutSpaces_charsBetween {next : Option Nat}
    (ends : next = some (before.length + cell.length + count) ∨ next = none ∧ after = []) :
    withoutSpaces (charsBetween
      (Text.trimEnd (before ++ (cell ++ List.replicate count ' ' ++ after))) before.length next) =
        cell := by
  have kept : cell.length ≤
      (Text.trimEnd (before ++ (cell ++ List.replicate count ' ' ++ after))).length -
        before.length := length_le_length_trimEnd solid
  have trimmed := Text.take_length_trimEnd
    (before ++ (cell ++ List.replicate count ' ' ++ after))
  generalize (Text.trimEnd (before ++ (cell ++ List.replicate count ' ' ++ after))).length = size
    at kept trimmed
  -- what is left of the column is a part of it that has the whole cell
  have shown : ∃ places, cell.length ≤ places ∧ charsBetween
      (Text.trimEnd (before ++ (cell ++ List.replicate count ' ' ++ after))) before.length next =
        (cell ++ List.replicate count ' ').take places := by
    rw [← trimmed]
    rcases ends with rfl | ⟨rfl, rfl⟩
    · refine ⟨min (before.length + cell.length + count) size - before.length, by omega, ?_⟩
      rw [charsBetween, List.take_take, List.drop_take, List.drop_left]
      refine List.take_append_of_le_length ?_
      rw [List.length_append, List.length_replicate]
      omega
    · refine ⟨size - before.length, kept, ?_⟩
      rw [charsBetween, List.drop_take, List.drop_left, List.append_nil]
  obtain ⟨places, whole, shown⟩ := shown
  rw [shown, List.take_append, List.take_of_length_le whole, List.take_replicate]
  refine withoutSpaces_append (fun char member space => ?_) _
  have blank := solid char member
  rw [space] at blank
  cases blank

end Line

theorem mem_flatten_cells {widths : List Nat} {row : List String} {char : Char}
    (member : char ∈ (List.zipWith cellChars row widths).flatten) :
    char = ' ' ∨ ∃ cell ∈ row, char ∈ cell.toList := by
  obtain ⟨block, within, inBlock⟩ := List.mem_flatten.mp member
  obtain ⟨column, found⟩ := List.getElem?_of_mem within
  obtain ⟨cell, width, isCell, _, rfl⟩ := List.getElem?_zipWith_eq_some.mp found
  rw [cellChars_eq] at inBlock
  rcases List.mem_append.mp inBlock with inCell | space
  · exact .inr ⟨cell, List.mem_of_getElem? isCell, inCell⟩
  · exact .inl (List.eq_of_mem_replicate space)

theorem isRowLine {widths : List Nat} {row : List String} (fits : Fits widths row)
    (trimmed : ∀ cell ∈ row, IsTrimmedCell cell) :
    IsRowLine (starts widths) row
      (Text.trimEnd (List.zipWith cellChars row widths).flatten) := by
  obtain ⟨behind, kept, _⟩ := Text.exists_trimEnd (List.zipWith cellChars row widths).flatten
  refine ⟨fun member => ?_, fun column cell found => ?_, ?_⟩
  · have inLine := List.mem_append_left behind member
    rw [← kept] at inLine
    rcases mem_flatten_cells inLine with space | ⟨cell, inRow, inCell⟩
    · cases space
    · exact (trimmed cell inRow).noBreak inCell
  · obtain ⟨before, count, after, _, split, start, next⟩ := fits.exists_split found
    refine ⟨before.length, start, ?_⟩
    rw [split]
    exact withoutSpaces_charsBetween (trimmed cell (List.mem_of_getElem? found)).solid next
  · intro column cell start next found isStart isNext
    obtain ⟨before, count, after, wide, split, own, ownNext⟩ := fits.exists_split found
    obtain rfl := Option.some.inj (own.symm.trans isStart)
    rw [isNext] at ownNext
    obtain ends | ⟨none, _⟩ := ownNext
    · obtain rfl := Option.some.inj ends
      refine ⟨by omega, fun place char past within shown => ?_⟩
      have inside := (List.getElem?_eq_some_iff.mp shown).1
      rw [← List.getElem?_append_left inside, ← kept, split, List.getElem?_append_right (by omega),
        List.getElem?_append_left (by simp; omega),
        List.getElem?_append_right (by omega)] at shown
      exact List.eq_of_mem_replicate (List.mem_of_getElem? shown)
    · cases none

end Fixed

/-- The text of a table in fixed columns has one line for each row, after one for the names of the
fields if there is a header, and every cell can be read back by the place of its column. -/
theorem isReadByColumn {fields : List String} {header : Bool} {rows : List (List String)}
    (complete : ∀ row ∈ rows, row.length = fields.length)
    (trimmed : ∀ row ∈ shownRows fields header rows, ∀ cell ∈ row, IsTrimmedCell cell) :
    ∃ starts lines, starts.length = fields.length ∧
      IsInColumns starts (shownRows fields header rows) lines
        (renderCells fields { mode := .fixed, header } rows) := by
  have allComplete : ∀ row ∈ shownRows fields header rows, row.length = fields.length := by
    intro row member
    rcases List.mem_append.mp member with first | later
    · cases header with
      | false => cases first
      | true => rw [List.mem_singleton.mp first]
    · exact complete row later
  have rendered : renderCells fields { mode := .fixed, header } rows =
      Fixed.render fields.length (shownRows fields header rows) := rfl
  rw [rendered]
  generalize shownRows fields header rows = shown at trimmed allComplete ⊢
  refine ⟨Fixed.starts (Fixed.widths fields.length shown), shown.map fun row =>
    Text.trimEnd (List.zipWith Fixed.cellChars row (Fixed.widths fields.length shown)).flatten,
    ?_, ?_, Fixed.head?_starts _, ?_⟩
  · rw [Fixed.length_starts, Fixed.length_widths allComplete]
  · rw [List.flatMap_map]
    rfl
  · refine List.forall₂_map_right_iff.mpr (List.forall₂_same.mpr fun row member => ?_)
    exact Fixed.isRowLine (Fixed.fits_widths allComplete member) (trimmed row member)

def sizeFields : List String :=
  ["host", "slots used", "note"]

/-- A cell with characters of two bytes, and a row that ends in an empty cell. -/
def sizeRows : List (List String) :=
  [["wn1", "größer", "ok"], ["", "12", ""]]

theorem isReadByColumn_sizes :
    (∀ row ∈ sizeRows, row.length = sizeFields.length) ∧
    (∀ row ∈ shownRows sizeFields true sizeRows, ∀ cell ∈ row, IsTrimmedCell cell) ∧
    renderCells sizeFields { mode := .fixed, header := true } sizeRows =
      "host  slots used  note\nwn1   größer      ok\n      12\n".toList ∧
    ∃ starts lines, starts.length = sizeFields.length ∧
      IsInColumns starts (shownRows sizeFields true sizeRows) lines
        (renderCells sizeFields { mode := .fixed, header := true } sizeRows) := by
  have complete : ∀ row ∈ sizeRows, row.length = sizeFields.length := by decide
  have trimmed : ∀ row ∈ shownRows sizeFields true sizeRows, ∀ cell ∈ row,
      IsTrimmedCell cell := by decide +kernel
  exact ⟨complete, trimmed, by decide +kernel, isReadByColumn complete trimmed⟩

end Table

end HostTimeline
