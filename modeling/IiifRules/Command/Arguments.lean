import IiifRules.Descriptor.Integer
import IiifRules.Text.Decimal
import IiifRules.Text.Fields

/-! # Command line arguments

Options begin with a hyphen and take a value, after an equals sign or as the next argument; all
other arguments are positional, and so is everything after `--`.

* `Arguments.collect`: options and positional arguments apart.
* `integer?`: the integer that an argument spells. -/

namespace IiifRules.Command

open Text

/-- Why the arguments name nothing to do. -/
inductive Usage
  | wrong
  | help
deriving DecidableEq, Repr

/-- Options with their values in order, and positional arguments in order. -/
structure Arguments where
  options : List (String × String)
  positional : List String
deriving DecidableEq, Repr

namespace Arguments

def addOption (name value : String) (a : Arguments) : Arguments :=
  { a with options := (name, value) :: a.options }

def addPositional (value : String) (a : Arguments) : Arguments :=
  { a with positional := value :: a.positional }

/-- Whether an argument is an option. -/
def isOption (arg : String) : Bool :=
  match arg.toList with
  | '-' :: _ :: _ => true
  | _ => false

/-- The name of an option and its value after an equals sign. -/
def splitOption (arg : String) : String × Option String :=
  match cut '=' arg.toList with
  | (name, some value) => (String.ofList name, some (String.ofList value))
  | (_, none) => (arg, none)

/-- Where help is asked for, that is all there is to do, unless another argument is wrong. -/
def asHelp : Except Usage Arguments → Except Usage Arguments
  | .ok _ => .error .help
  | .error u => .error u

/-- **Takes arguments apart.** Only the named options are known, and `--help`. -/
def collect (names : List String) : List String → Except Usage Arguments
  | [] => .ok ⟨[], []⟩
  | arg :: rest =>
    if arg = "--" then .ok ⟨[], rest⟩
    else if isOption arg then
      match splitOption arg with
      | (name, some value) =>
        if names.contains name then (collect names rest).map (addOption name value)
        else .error .wrong
      | (name, none) =>
        if names.contains name then
          match rest with
          | [] => .error .wrong
          | value :: rest => (collect names rest).map (addOption name value)
        else if name = "--help" then asHelp (collect names rest)
        else .error .wrong
    else (collect names rest).map (addPositional arg)

/-- The value of an option; the last one counts. -/
def last? (a : Arguments) (name : String) : Option String := a.options.reverse.lookup name

/-- All values of an option. -/
def all (a : Arguments) (name : String) : List String :=
  (a.options.filter fun o => o.1 = name).map Prod.snd

end Arguments

/-- The number that digits of any scripts spell, with single underscores between them. A fraction of
zeros is passed over, since the command line takes `10.0` for ten. -/
def natural? (cs : List Char) : Option Nat := do
  let runs := fields '_' (Descriptor.dropFraction cs)
  if runs.any List.isEmpty then none
  else
    let ds ← runs.flatten.mapM decimalValue?
    if Numeric.Numeral.digitLimit < ds.length then none
    else some (ds.foldl (fun n d => 10 * n + d) 0)

/-- **The integer that an argument spells**, with or without a sign and with blanks around it. -/
def integer? (arg : String) : Option Int :=
  match trim isWhiteSpace arg.toList with
  | '-' :: cs => (natural? cs).map fun n : Nat => -(n : Int)
  | '+' :: cs => (natural? cs).map Nat.cast
  | cs => (natural? cs).map Nat.cast

end IiifRules.Command
