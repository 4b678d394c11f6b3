/-!
# Places in a text

A place in a text is an offset in bytes of its UTF-8 encoding; a span is a half-open interval of them.
-/

namespace QuantityCalculus

/-- The length of a text in bytes of its UTF-8 encoding. -/
def byteLength : List Char → Nat
  | [] => 0
  | c :: cs => c.utf8Size + byteLength cs

/-- The length of a text in two parts. -/
theorem byteLength_append (cs ds : List Char) : byteLength (cs ++ ds) = byteLength cs + byteLength ds := by
  induction cs with
  | nil => simp [byteLength]
  | cons c cs ih => rw [List.cons_append, byteLength, byteLength, ih, Nat.add_assoc]

/-- The first part of a text is not longer than the text. -/
theorem byteLength_le_append (cs ds : List Char) : byteLength cs ≤ byteLength (cs ++ ds) := by
  rw [byteLength_append]
  exact Nat.le_add_right ..

/-- A text that is not empty has a length. -/
theorem byteLength_pos {cs : List Char} (h : cs ≠ []) : 0 < byteLength cs := by
  obtain ⟨c, cs', rfl⟩ := List.exists_cons_of_ne_nil h
  have hc := c.utf8Size_pos
  rw [byteLength]
  omega

/-- The part of a text from the byte offset `start` up to the byte offset `stop`. -/
structure Span where
  start : Nat
  stop : Nat
  deriving DecidableEq, Repr, Inhabited

/-- The number of bytes in a span. -/
def Span.length (s : Span) : Nat := s.stop - s.start

/-- The smallest span that contains two spans. -/
def Span.merge (s t : Span) : Span := ⟨min s.start t.start, max s.stop t.stop⟩

/-- The two ends of a span with a hyphen between them. -/
def Span.text (s : Span) : String := toString s.start ++ "-" ++ toString s.stop

end QuantityCalculus
