import IiifRules.Failure

/-! # Thresholds of the log

A threshold is given by a word. A word that names nothing is the threshold for information; a word
that names something else in the logging system than a threshold is refused. -/

namespace IiifRules.Log

/-- The characters above ASCII whose upper case is in ASCII, in so far as a level's word can hold
it. -/
def upperChar (c : Char) : List Char :=
  if c = 'ı' then ['I']
  else if c = 'ſ' then ['S']
  else if c = 'ﬅ' ∨ c = 'ﬆ' then ['S', 'T']
  else [c.toUpper]

/-- The threshold of a word in upper case. -/
def thresholds : List (String × Int) :=
  [("DEBUG", 10), ("INFO", 20), ("WARN", 30), ("WARNING", 30), ("ERROR", 40), ("FATAL", 50),
   ("CRITICAL", 50), ("NOTSET", 30)]

/-- **The threshold of a word** in any case: records of at least that level are written. -/
def threshold (word : String) : Except Failure Int :=
  let word := String.ofList (word.toList.flatMap upperChar)
  if word = "BASIC_FORMAT" then .error .unknownLogLevel
  else if word = "_STYLES" then .error .unsuitableLogLevel
  else .ok ((thresholds.lookup word).getD 20)

end IiifRules.Log
