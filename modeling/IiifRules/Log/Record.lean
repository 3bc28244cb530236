import IiifRules.Json.Writer
import IiifRules.Log.Template
import IiifRules.Text.Utf8

/-! # Log records

A record is written as one JSON object: the time, its level, its message and its logger, then the
extra values that were given with it, and the error if there is one. Extra values may take the name
of a member of the object, and do replace it then; those with the name of a property that every
record has, or with a low line in front, are not shown.

* `Record.object`: the members of the object; `Record.members` leaves out the time. -/

namespace IiifRules.Log

open Text

/-- An extra value: JSON, or bytes, which are shown as a text. -/
inductive Extra
  | json (v : Json)
  | bytes (bs : List Nat)

structure ReportedError where
  kind : String
  message : String

/-- The wording of a reported error: its kind alone if it has no message. -/
def ReportedError.text (e : ReportedError) : String :=
  if e.message = "" then e.kind else e.kind ++ ": " ++ e.message

/-- A record before it is written. -/
structure Record where
  level : Int
  logger : String
  message : String
  arguments : List Json
  extras : List (String × Extra)
  error? : Option ReportedError

/-- The word for a level; a level without one is shown by its number. -/
def levelWord (level : Int) : String :=
  if level = 0 then "NOTSET"
  else if level = 10 then "DEBUG"
  else if level = 20 then "INFO"
  else if level = 30 then "WARNING"
  else if level = 40 then "ERROR"
  else if level = 50 then "CRITICAL"
  else "Level " ++ Numeric.Numeral.text level

/-- The properties that every record has. -/
def ownProperties : List String :=
  ["name", "msg", "args", "levelname", "levelno", "pathname", "filename", "module", "exc_info",
   "exc_text", "stack_info", "lineno", "funcName", "created", "msecs", "relativeCreated", "thread",
   "threadName", "processName", "process", "taskName"]

def isShown (name : String) : Bool := !ownProperties.contains name && name.toList.head? != some '_'

def Extra.toJson : Extra → Json
  | .json v => v
  | .bytes bs => .text (String.ofList (Quoted.quoteBytes bs))

namespace Record

/-- A property of the record, or the extra value of that name. -/
def property (r : Record) (name : String) (own : Json) : Json :=
  match r.extras.lookup name with
  | some e => e.toJson
  | none => own

/-- The arguments of the message; an extra value in their place is one argument unless it is
empty. -/
def supply (r : Record) : Template.Supply :=
  match r.extras.lookup "args" with
  | some e =>
    match e.toJson with
    | .object ms => Template.Supply.ofArguments (if ms.isEmpty then [] else [.object ms])
    | .array vs => ⟨if vs.isEmpty then [] else [.array vs], some []⟩
    | v => ⟨if v.isTruthy then [v] else [], none⟩
  | none => .ofArguments r.arguments

/-- The message with its arguments; without arguments the template is the message. -/
def messageText (r : Record) : Except Failure String :=
  let template := (r.property "msg" (.text r.message)).shown
  if r.supply.next.isEmpty then .ok (String.ofList template)
  else (Template.expand template r.supply).map String.ofList

/-- The members of its own that a record is written with at a time. -/
def ownMembers (r : Record) (time message : String) : Json.Members :=
  [("ts", .text time), ("level", r.property "levelname" (.text (levelWord r.level))),
   ("msg", .text message), ("logger", r.property "name" (.text r.logger))]

def shown (r : Record) : List (String × Extra) := r.extras.filter fun e => isShown e.1

def shownMembers (r : Record) (time message : String) : Json.Members :=
  r.shown.foldl (fun ms e => Json.put ms e.1 e.2.toJson) (r.ownMembers time message)

/-- All members: the error comes last. -/
def allMembers (r : Record) (time message : String) : Json.Members :=
  match r.error? with
  | some e => Json.put (r.shownMembers time message) "exc_info" (.text e.text)
  | none => r.shownMembers time message

/-- **The members of the object** that a record is written as at a time. -/
def object (r : Record) (time : String) : Except Failure Json.Members := do
  let all := r.allMembers time (← r.messageText)
  if (Json.object all).writable then return all else throw .digitLimit

/-- The members without the time. -/
def members (r : Record) : Except Failure Json.Members :=
  (r.object "").map fun ms => ms.filter fun m => m.1 ≠ "ts"

end Record

end IiifRules.Log
