/-! # Line ends

A text file may end its lines in three ways; a text inside the library ends them in one. -/

namespace IiifRules.Text

/-- Writes every line end, a carriage return with or without a line feed, as one line feed. -/
def unifyLineEnds : List Char → List Char
  | [] => []
  | '\r' :: '\n' :: cs => '\n' :: unifyLineEnds cs
  | '\r' :: cs => '\n' :: unifyLineEnds cs
  | c :: cs => c :: unifyLineEnds cs

end IiifRules.Text
