import IiifRules.Json.Basic
import IiifRules.Numeric.Shortest
import IiifRules.Text.Quoted

/-! # JSON values in messages

How a message shows a JSON value: the words `None`, `True` and `False`, quoted texts, brackets and
braces with a comma and a blank between entries. A text on its own is shown without marks. An
integer is shown whatever its length: one of more digits than can be written cannot be read from a
document either. -/

namespace IiifRules.Json

open Numeric Text

mutual

/-- A value inside another one, texts quoted by `quote`. -/
def quotedBy (quote : List Char → List Char) : Json → List Char
  | null => "None".toList
  | bool true => "True".toList
  | bool false => "False".toList
  | int n => Numeral.chars n
  | float x => Layout.message.write x
  | text s => quote s.toList
  | array items => '[' :: quotedItems quote items ++ [']']
  | object members => '{' :: quotedMembers quote members ++ ['}']

/-- Values with a comma and a blank between them. -/
def quotedItems (quote : List Char → List Char) : List Json → List Char
  | [] => []
  | [v] => quotedBy quote v
  | v :: rest => quotedBy quote v ++ ',' :: ' ' :: quotedItems quote rest

/-- Members as name, colon, blank and value. -/
def quotedMembers (quote : List Char → List Char) : List (String × Json) → List Char
  | [] => []
  | [(n, v)] => quote n.toList ++ ':' :: ' ' :: quotedBy quote v
  | (n, v) :: rest =>
    quote n.toList ++ ':' :: ' ' :: quotedBy quote v ++ ',' :: ' ' :: quotedMembers quote rest

end

/-- A value as part of another one. -/
def quoted (v : Json) : List Char := quotedBy Quoted.quote v

/-- A value on its own: a text as it is. -/
def shown : Json → List Char
  | text s => s.toList
  | v => v.quoted

def shownText (v : Json) : String := String.ofList v.shown
def quotedText (v : Json) : String := String.ofList v.quoted

/-- The word for the kind of a value. -/
def kindWord : Json → String
  | null => "NoneType"
  | bool _ => "bool"
  | int _ => "int"
  | float _ => "float"
  | text _ => "str"
  | array _ => "list"
  | object _ => "dict"

end IiifRules.Json
