import QuantityCalculus.Text.Blank

/-!
# Blanks around and between words
-/

namespace QuantityCalculus.Text

/-- The text without blanks at its start. -/
def trimStart (cs : List Char) : List Char :=
  cs.dropWhile isBlank

/-- The text without blanks at its end. -/
def trimEnd (cs : List Char) : List Char :=
  (cs.reverse.dropWhile isBlank).reverse

/-- The text without blanks at either end. -/
def trim (cs : List Char) : List Char :=
  trimEnd (trimStart cs)

/-- The words of a text and the word that a letter at its start would continue. -/
def wordsAfter (word : List Char) : List Char → List (List Char)
  | [] => if word.isEmpty then [] else [word]
  | c :: cs =>
    if isBlank c then (if word.isEmpty then [] else [word]) ++ wordsAfter [] cs
    else wordsAfter (word ++ [c]) cs

/-- The words of a text: what stands between its blanks. -/
def words (cs : List Char) : List (List Char) :=
  wordsAfter [] cs

/-- The text with each run of blanks replaced by one space. -/
def collapseBlanks : List Char → List Char
  | [] => []
  | c :: cs =>
    if isBlank c then
      match cs with
      | [] => [' ']
      | d :: _ => if isBlank d then collapseBlanks cs else ' ' :: collapseBlanks cs
    else c :: collapseBlanks cs

end QuantityCalculus.Text
