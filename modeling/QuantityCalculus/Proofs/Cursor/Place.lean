import QuantityCalculus.Cursor

/-!
# A cursor keeps its place

The text, what is ahead of a cursor and the offset are kept apart, and each operation changes them for itself. They agree all the same:
a cursor has gone over the first part of its text, the rest is ahead, and the offset is the length of that part (`Reaches.goesOver`).
A reader goes over the slice that it answers, or it stays and answers nothing (`Operation.run_reader`). There is one cursor at an
offset only (`GoesOver.eq_of_position_eq`), so that seeking back to where the cursor was makes it what it was.
-/

namespace QuantityCalculus

/-! ## Boundaries -/

/-- A number of bytes ends between two characters of a text, or goes beyond its end. -/
def OnBoundary (cs : List Char) (bytes : Nat) : Prop :=
  ∃ before after, cs = before ++ after ∧ byteLength before = min bytes (byteLength cs)

/-- A text is split after its first part. -/
theorem splitBytes_byteLength (before after : List Char) : splitBytes (byteLength before) (before ++ after) = (before, after) := by
  induction before with
  | nil => cases after <;> rfl
  | cons c before ih =>
    have hc := c.utf8Size_pos
    rw [byteLength, List.cons_append, splitBytes, if_neg (by omega), Nat.add_sub_cancel_left, ih]

/-- The parts of a split text make up the text. -/
theorem splitBytes_append (bytes : Nat) (cs : List Char) : (splitBytes bytes cs).1 ++ (splitBytes bytes cs).2 = cs := by
  induction cs generalizing bytes with
  | nil => rfl
  | cons c cs ih =>
    rw [splitBytes]
    split
    · rfl
    · exact congrArg (c :: ·) (ih _)

/-- The bytes end between two characters if the first part has all of them and no more. -/
theorem onBoundary_iff {cs : List Char} {bytes : Nat} :
    OnBoundary cs bytes ↔ byteLength (splitBytes (min bytes (byteLength cs)) cs).1 = min bytes (byteLength cs) := by
  constructor
  · rintro ⟨before, after, rfl, hbytes⟩
    rw [← hbytes, splitBytes_byteLength]
  · exact fun h => ⟨_, _, (splitBytes_append _ cs).symm, h⟩

instance (cs : List Char) (bytes : Nat) : Decidable (OnBoundary cs bytes) := decidable_of_iff _ onBoundary_iff.symm

example : OnBoundary ['→', '1'] 3 ∧ ¬OnBoundary ['→', '1'] 2 ∧ OnBoundary ['→', '1'] 9 := by decide +kernel

/-- The length of a first part is on a boundary. -/
theorem onBoundary_byteLength (before after : List Char) : OnBoundary (before ++ after) (byteLength before) :=
  ⟨before, after, rfl, (Nat.min_eq_left (byteLength_le_append ..)).symm⟩

namespace Cursor

variable {c c' c'' : Cursor} {slice slice' rest : List Char} {text : List Char}

/-! ## Going over a slice -/

/-- A cursor goes over a slice of what is ahead of it. -/
structure GoesOver (c : Cursor) (slice : List Char) (c' : Cursor) : Prop where
  text_eq : c'.text = c.text
  ahead_eq : c.ahead = slice ++ c'.ahead
  position_eq : c'.position = c.position + byteLength slice

/-- A cursor that stays goes over nothing. -/
theorem GoesOver.refl (c : Cursor) : c.GoesOver [] c := ⟨rfl, rfl, rfl⟩

/-- Going over two slices is going over both together. -/
theorem GoesOver.trans (h : c.GoesOver slice c') (h' : c'.GoesOver slice' c'') : c.GoesOver (slice ++ slice') c'' where
  text_eq := h'.text_eq.trans h.text_eq
  ahead_eq := by rw [h.ahead_eq, h'.ahead_eq, List.append_assoc]
  position_eq := by rw [h'.position_eq, h.position_eq, byteLength_append, Nat.add_assoc]

/-- From one cursor, there is one cursor at an offset. -/
theorem GoesOver.eq_of_position_eq (h : c.GoesOver slice c') (h' : c.GoesOver slice' c'') (hposition : c'.position = c''.position) :
    c' = c'' := by
  have hlength : byteLength slice = byteLength slice' := by
    have hsum := h.position_eq.symm.trans (hposition.trans h'.position_eq)
    omega
  have hahead : c'.ahead = c''.ahead := by
    have hsplit := congrArg (splitBytes (byteLength slice)) (h.ahead_eq.symm.trans h'.ahead_eq)
    rw [splitBytes_byteLength, hlength, splitBytes_byteLength] at hsplit
    exact congrArg Prod.snd hsplit
  obtain ⟨text, ahead, position⟩ := c'
  obtain ⟨text', ahead', position'⟩ := c''
  obtain rfl := hahead
  obtain rfl := hposition
  obtain rfl := h.text_eq.trans h'.text_eq.symm
  rfl

/-! ## Readers -/

/-- What a reader answers that goes over a slice: the slice with the span from the old offset to the new one, and the cursor after it. -/
structure Consumes (c : Cursor) (slice : List Char) (read : Reading × Cursor) : Prop where
  goesOver : c.GoesOver slice read.2
  reading_eq : read.1 = ⟨slice, ⟨c.position, read.2.position⟩⟩

/-- The next bytes are those of a slice. -/
theorem advance_consumes {bytes : Nat} (hahead : c.ahead = slice ++ rest) (hbytes : byteLength slice = min bytes (byteLength c.ahead)) :
    c.Consumes slice (c.advance bytes) := by
  unfold advance
  dsimp only
  rw [← hbytes, hahead, splitBytes_byteLength]
  exact ⟨⟨rfl, hahead, rfl⟩, rfl⟩

/-- A slice is read by its own length. -/
theorem advance_byteLength_consumes (hahead : c.ahead = slice ++ rest) : c.Consumes slice (c.advance (byteLength slice)) := by
  refine advance_consumes hahead (Nat.min_eq_left ?_).symm
  rw [hahead]
  exact byteLength_le_append ..

/-- A match is read with all of its characters. -/
theorem advanceOver_consumes (c : Cursor) (found : PatternMatch) : c.Consumes (c.ahead.take found.length) (c.advanceOver found) :=
  advance_byteLength_consumes (List.take_append_drop ..).symm

/-- Blanks are skipped as far as they go. -/
theorem skipBlanks_goesOver (c : Cursor) : c.GoesOver (c.ahead.takeWhile Text.isBlank) c.skipBlanks := by
  have htake : c.ahead.take (c.ahead.takeWhile Text.isBlank).length = c.ahead.takeWhile Text.isBlank :=
    (List.prefix_iff_eq_take.1 (List.takeWhile_prefix _)).symm
  have hconsumes := c.advanceOver_consumes ⟨(c.ahead.takeWhile Text.isBlank).length, []⟩
  rw [htake] at hconsumes
  unfold skipBlanks readPattern Pattern.blanks
  cases hblanks : c.ahead.takeWhile Text.isBlank with
  | nil => exact .refl c
  | cons ch blanks =>
    rw [hblanks] at hconsumes
    exact hconsumes.goesOver

/-- After the blanks there is no blank. -/
theorem isBlank_head?_skipBlanks (c : Cursor) : ∀ ch ∈ c.skipBlanks.ahead.head?, Text.isBlank ch = false := by
  have hsplit : c.ahead.takeWhile Text.isBlank ++ c.ahead.dropWhile Text.isBlank =
      c.ahead.takeWhile Text.isBlank ++ c.skipBlanks.ahead := by
    rw [List.takeWhile_append_dropWhile, ← c.skipBlanks_goesOver.ahead_eq]
  have hahead : c.ahead.dropWhile Text.isBlank = c.skipBlanks.ahead := List.append_cancel_left hsplit
  intro ch hch
  rw [← hahead] at hch
  have hhead := List.head?_dropWhile_not Text.isBlank c.ahead
  rw [Option.mem_def.1 hch] at hhead
  simpa using hhead

/-- Seeking goes to the offset, or to the end if that is less. -/
theorem seek_goesOver {position : Nat} (h : OnBoundary c.text position) :
    ∃ slice, (start c.text).GoesOver slice (c.seek position) ∧ byteLength slice = min position (byteLength c.text) := by
  have hclamp : clamp position 0 (byteLength c.text) = min position (byteLength c.text) := by
    unfold clamp
    rw [if_neg (Nat.not_lt_zero _)]
    split <;> omega
  obtain ⟨before, after, htext, hbefore⟩ := h
  refine ⟨before, ?_, hbefore⟩
  unfold seek length
  rw [hclamp, ← hbefore]
  dsimp only
  rw [htext, splitBytes_byteLength]
  exact ⟨rfl, rfl, (Nat.zero_add _).symm⟩

/-! ## Operations -/

/-- What is done with a cursor while a text is read. -/
inductive Operation where
  | advance (bytes : Nat)
  | seek (position : Nat)
  | readChar
  | readLiteral (literal : List Char)
  | readPattern (pattern : Pattern)
  | readGroups (pattern : Pattern)
  | skipBlanks

namespace Operation

/-- The amount of an operation is on a boundary. -/
def Fits (c : Cursor) : Operation → Prop
  | advance bytes => OnBoundary c.ahead bytes
  | seek position => OnBoundary c.text position
  | _ => True

instance (c : Cursor) : (op : Operation) → Decidable (op.Fits c)
  | advance bytes => inferInstanceAs (Decidable (OnBoundary c.ahead bytes))
  | seek position => inferInstanceAs (Decidable (OnBoundary c.text position))
  | readChar | readLiteral _ | readPattern _ | readGroups _ | skipBlanks => isTrue trivial

/-- The operations that answer what they read. -/
def IsReader : Operation → Prop
  | seek _ | skipBlanks => False
  | _ => True

/-- What an operation is to read of the text ahead. -/
inductive Reads : Operation → List Char → List Char → Prop
  | advance {bytes slice rest} : byteLength slice = min bytes (byteLength (slice ++ rest)) → Reads (advance bytes) (slice ++ rest) slice
  | readChar {ch rest} : Reads readChar (ch :: rest) [ch]
  | readLiteral {literal rest} : Reads (readLiteral literal) (literal ++ rest) literal
  | readPattern {pattern ahead found} : pattern ahead = some found → found.length ≠ 0 →
      Reads (readPattern pattern) ahead (ahead.take found.length)
  | readGroups {pattern ahead found} : pattern ahead = some found → Reads (readGroups pattern) ahead (ahead.take found.length)

end Operation

/-- An answer is a slice that is to be read, and nothing if no slice is. -/
def Answers (c : Cursor) (reads : List Char → Prop) : Option (Reading × Cursor) → Prop
  | none => ∀ slice, ¬reads slice
  | some read => ∃ slice, reads slice ∧ c.Consumes slice read

/-- As many bytes are read as are asked for, or all. -/
theorem advance_answers {bytes : Nat} (h : OnBoundary c.ahead bytes) :
    c.Answers ((Operation.advance bytes).Reads c.ahead) (some (c.advance bytes)) := by
  obtain ⟨slice, rest, hahead, hbytes⟩ := h
  refine ⟨slice, ?_, advance_consumes hahead hbytes⟩
  rw [hahead] at hbytes ⊢
  exact .advance hbytes

/-- The next character is read if there is one. -/
theorem readChar_answers (c : Cursor) : c.Answers (Operation.readChar.Reads c.ahead) c.readChar := by
  unfold readChar peek?
  cases hahead : c.ahead with
  | nil => exact nofun
  | cons ch rest => exact ⟨[ch], .readChar, advance_byteLength_consumes hahead⟩

/-- A literal is read if the text ahead starts with it. -/
theorem readLiteral_answers (c : Cursor) (literal : List Char) :
    c.Answers ((Operation.readLiteral literal).Reads c.ahead) (c.readLiteral literal) := by
  unfold readLiteral
  split
  · rename_i hprefix
    obtain ⟨rest, hahead⟩ := List.isPrefixOf_iff_prefix.1 hprefix
    exact ⟨literal, hahead ▸ .readLiteral, advance_byteLength_consumes hahead.symm⟩
  · rename_i hprefix
    intro slice hreads
    refine hprefix (List.isPrefixOf_iff_prefix.2 ?_)
    generalize c.ahead = ahead at hreads
    cases hreads
    exact List.prefix_append ..

/-- The match of a pattern is read if it is not empty. -/
theorem readPattern_answers (c : Cursor) (pattern : Pattern) :
    c.Answers ((Operation.readPattern pattern).Reads c.ahead) (c.readPattern pattern) := by
  unfold readPattern
  cases hfound : pattern c.ahead with
  | none =>
    intro slice hreads
    cases hreads with
    | readPattern hsome => nomatch hfound.symm.trans hsome
  | some found =>
    by_cases hempty : found.length = 0
    · dsimp only
      rw [if_pos (beq_iff_eq.2 hempty)]
      intro slice hreads
      cases hreads with
      | readPattern hsome hne =>
        obtain rfl := Option.some.inj (hfound.symm.trans hsome)
        exact hne hempty
    · dsimp only
      rw [if_neg (by rwa [beq_iff_eq])]
      exact ⟨_, .readPattern hfound hempty, c.advanceOver_consumes found⟩

/-- The match of a pattern is read with its groups, empty or not. -/
theorem readGroups_answers (c : Cursor) (pattern : Pattern) :
    c.Answers ((Operation.readGroups pattern).Reads c.ahead)
      ((c.readGroups pattern).map fun (reading, _, after) => (reading, after)) := by
  unfold readGroups
  cases hfound : pattern c.ahead with
  | none =>
    intro slice hreads
    cases hreads with
    | readGroups hsome => nomatch hfound.symm.trans hsome
  | some found => exact ⟨_, .readGroups hfound, c.advanceOver_consumes found⟩

/-- The answer of a reader, and the cursor after it; without an answer, the cursor stays. -/
def orStay (c : Cursor) : Option (Reading × Cursor) → Option Reading × Cursor
  | none => (none, c)
  | some (reading, after) => (some reading, after)

namespace Operation

/-- The answer to an operation, if it has one, and the cursor after it. -/
def run (c : Cursor) : Operation → Option Reading × Cursor
  | advance bytes => c.orStay (some (c.advance bytes))
  | seek position => (none, c.seek position)
  | readChar => c.orStay c.readChar
  | readLiteral literal => c.orStay (c.readLiteral literal)
  | readPattern pattern => c.orStay (c.readPattern pattern)
  | readGroups pattern => c.orStay ((c.readGroups pattern).map fun (reading, _, after) => (reading, after))
  | skipBlanks => (none, c.skipBlanks)

/-- What a reader answers is what it is to read. -/
theorem exists_answers {op : Operation} (hfits : op.Fits c) (hreader : op.IsReader) :
    ∃ read?, op.run c = c.orStay read? ∧ c.Answers (op.Reads c.ahead) read? := by
  cases op with
  | advance bytes => exact ⟨_, rfl, advance_answers hfits⟩
  | readChar => exact ⟨_, rfl, c.readChar_answers⟩
  | readLiteral literal => exact ⟨_, rfl, c.readLiteral_answers literal⟩
  | readPattern pattern => exact ⟨_, rfl, c.readPattern_answers pattern⟩
  | readGroups pattern => exact ⟨_, rfl, c.readGroups_answers pattern⟩
  | seek | skipBlanks => exact hreader.elim

/-- A reader goes over what it is to read and answers it, or it stays and answers nothing. -/
theorem run_reader {op : Operation} (hfits : op.Fits c) (hreader : op.IsReader) :
    (op.run c = (none, c) ∧ ∀ slice, ¬op.Reads c.ahead slice) ∨
      ∃ slice after, op.Reads c.ahead slice ∧ c.GoesOver slice after ∧
        op.run c = (some ⟨slice, ⟨c.position, after.position⟩⟩, after) := by
  obtain ⟨_ | ⟨reading, after⟩, hrun, hanswers⟩ := exists_answers hfits hreader
  · exact .inl ⟨hrun, hanswers⟩
  · obtain ⟨slice, hreads, hgoes, hreading⟩ := hanswers
    refine .inr ⟨slice, after, hreads, hgoes, ?_⟩
    rw [hrun, ← hreading]
    rfl

end Operation

/-! ## Sequences of operations -/

/-- The cursors that operations lead to, each with an amount on a boundary. -/
inductive Reaches (c : Cursor) : Cursor → Prop
  | refl : Reaches c c
  | step {c' : Cursor} (op : Operation) : Reaches c c' → op.Fits c' → Reaches c (op.run c').2

/-- An operation leaves a place in the text a place in the text. -/
theorem goesOver_run {op : Operation} (h : (start text).GoesOver slice c) (hfits : op.Fits c) :
    ∃ slice, (start text).GoesOver slice (op.run c).2 := by
  cases op with
  | seek position =>
    obtain ⟨slice, hseek, -⟩ := seek_goesOver hfits
    rw [h.text_eq] at hseek
    exact ⟨slice, hseek⟩
  | skipBlanks => exact ⟨_, h.trans c.skipBlanks_goesOver⟩
  | advance | readChar | readLiteral | readPattern | readGroups =>
    rcases Operation.run_reader hfits trivial with ⟨hrun, -⟩ | ⟨slice', after, -, hgoes, hrun⟩
    · rw [hrun]
      exact ⟨slice, h⟩
    · rw [hrun]
      exact ⟨_, h.trans hgoes⟩

/-- Wherever operations lead from a place in a text, it is a place in the text. -/
theorem Reaches.goesOver (hreaches : c.Reaches c') (h : (start text).GoesOver slice c) :
    ∃ slice, (start text).GoesOver slice c' := by
  induction hreaches with
  | refl => exact ⟨slice, h⟩
  | step op _ hfits ih =>
    obtain ⟨slice, hslice⟩ := ih
    exact goesOver_run hslice hfits

/-- A cursor never loses its place. Whatever operations lead from the start of a text to a cursor, it has the text, its offset is on a
boundary within it, and ahead is the text from there. From there a reader answers what it is to read, with the span from the old offset
to the new one and the cursor after it, or it answers nothing and the cursor stays; seeking goes to the offset or to the end; and blanks
are skipped as far as they go. Whatever else is done, seeking back to the offset brings back the cursor. -/
theorem cursor_keeps_place (text : List Char) (c : Cursor) (h : (start text).Reaches c) :
    (c.text = text ∧ c.position ≤ byteLength text ∧ ∃ behind, text = behind ++ c.ahead ∧ byteLength behind = c.position) ∧
      (∀ op : Operation, op.IsReader → op.Fits c →
        (op.run c = (none, c) ∧ ∀ slice, ¬op.Reads c.ahead slice) ∨
          ∃ slice after, op.Reads c.ahead slice ∧ c.GoesOver slice after ∧
            op.run c = (some ⟨slice, ⟨c.position, after.position⟩⟩, after)) ∧
      (∀ position, OnBoundary text position → (c.seek position).position = min position (byteLength text)) ∧
      (∃ slice, c.GoesOver slice c.skipBlanks ∧ (∀ ch ∈ slice, Text.isBlank ch = true) ∧
        ∀ ch ∈ c.skipBlanks.ahead.head?, Text.isBlank ch = false) ∧
      ∀ c', c.Reaches c' → (Operation.seek c.position).Fits c' ∧ c'.seek c.position = c := by
  obtain ⟨behind, hplace⟩ := h.goesOver (.refl _)
  have htext : c.text = text := hplace.text_eq
  have hsplit : text = behind ++ c.ahead := hplace.ahead_eq
  have hposition : c.position = byteLength behind := hplace.position_eq.trans (Nat.zero_add _)
  have hboundary : OnBoundary text c.position := by
    rw [hposition, hsplit]
    exact onBoundary_byteLength ..
  have hle : c.position ≤ byteLength text := by
    rw [hposition, hsplit]
    exact byteLength_le_append ..
  refine ⟨⟨htext, hle, behind, hsplit, hposition.symm⟩, ?_, ?_, ?_, ?_⟩
  · intro op hreader hfits
    exact Operation.run_reader hfits hreader
  · intro position hfits
    rw [← htext] at hfits ⊢
    obtain ⟨slice, hseek, hlength⟩ := seek_goesOver hfits
    rw [← hlength]
    exact hseek.position_eq.trans (Nat.zero_add _)
  · exact ⟨_, c.skipBlanks_goesOver, List.all_eq_true.1 List.all_takeWhile, c.isBlank_head?_skipBlanks⟩
  · intro c' hreaches
    obtain ⟨_, hplace'⟩ := hreaches.goesOver hplace
    have hfits : OnBoundary c'.text c.position := by
      rw [hplace'.text_eq]
      exact hboundary
    refine ⟨hfits, ?_⟩
    obtain ⟨slice, hseek, hlength⟩ := seek_goesOver hfits
    rw [hplace'.text_eq] at hseek hlength
    have hback : (c'.seek c.position).position = c.position := by
      rw [hseek.position_eq, hlength]
      exact (Nat.zero_add _).trans (Nat.min_eq_left hle)
    exact hseek.eq_of_position_eq hplace hback

/-- Two blanks, a label, and an arrow, which has three bytes, before a digit. -/
def arrowText : List Char := [' ', ' ', 'a', 'b', 'c', '7', '→', '1']

/-- The place before the arrow. -/
def beforeArrow : Cursor := ⟨arrowText, ['→', '1'], 6⟩

/-- The blanks and the label lead to the arrow; it is read by its three bytes; and from the end, its offset leads back. -/
theorem arrow_read_and_sought :
    ((start arrowText).Reaches beforeArrow ∧ beforeArrow.position ≤ byteLength arrowText) ∧
      (((Operation.advance 3).IsReader ∧ (Operation.advance 3).Fits beforeArrow) ∧
        ∃ slice after, (Operation.advance 3).Reads beforeArrow.ahead slice ∧ beforeArrow.GoesOver slice after ∧
          (Operation.advance 3).run beforeArrow = (some ⟨slice, ⟨6, after.position⟩⟩, after)) ∧
      (OnBoundary arrowText 99 ∧ (beforeArrow.seek 99).position = 10) ∧
      beforeArrow.Reaches (beforeArrow.seek 99) ∧ (beforeArrow.seek 99).seek 6 = beforeArrow := by
  have hlabel : ((Operation.readGroups .label).run (Operation.skipBlanks.run (start arrowText)).2).2 = beforeArrow := by
    decide +kernel
  have hreaches : (start arrowText).Reaches beforeArrow :=
    hlabel ▸ .step (.readGroups .label) (.step .skipBlanks .refl trivial) trivial
  have harrow : (Operation.advance 3).Fits beforeArrow := by decide +kernel
  have hmoves : (Operation.advance 3).run beforeArrow ≠ (none, beforeArrow) := by decide +kernel
  have hend : OnBoundary arrowText 99 := by decide +kernel
  have hlater : beforeArrow.Reaches (beforeArrow.seek 99) := .step (.seek 99) .refl hend
  obtain ⟨⟨-, hle, -⟩, hreader, hseek, -, hback⟩ := cursor_keeps_place arrowText beforeArrow hreaches
  refine ⟨⟨hreaches, hle⟩, ⟨⟨trivial, harrow⟩, ?_⟩, ⟨hend, hseek 99 hend⟩, hlater, (hback _ hlater).2⟩
  exact (hreader (.advance 3) trivial harrow).resolve_left fun hstays => hmoves hstays.1

end Cursor

end QuantityCalculus
