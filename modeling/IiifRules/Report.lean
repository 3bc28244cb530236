/-! # Reports

What judging something comes to: all errors and all warnings that were found, each in the order of
the rules. Warnings do not make the thing judged invalid. -/

namespace IiifRules

/-- Errors and warnings found in one pass. -/
structure Report (ε ω : Type) where
  errors : List ε
  warnings : List ω
deriving DecidableEq, Repr

namespace Report

variable {ε ω : Type}

/-- Whether no error was found. -/
def valid (r : Report ε ω) : Bool := r.errors.isEmpty

/-- A report by its wordings. -/
def mapMessages {ε' ω' : Type} (f : ε → ε') (g : ω → ω') (r : Report ε ω) : Report ε' ω' :=
  ⟨r.errors.map f, r.warnings.map g⟩

/-- The findings of two passes, one after the other. -/
def append (r s : Report ε ω) : Report ε ω := ⟨r.errors ++ s.errors, r.warnings ++ s.warnings⟩

/-- A report of errors alone. -/
def ofErrors (es : List ε) : Report ε ω := ⟨es, []⟩

/-- A report of warnings alone. -/
def ofWarnings (ws : List ω) : Report ε ω := ⟨[], ws⟩

instance : Append (Report ε ω) := ⟨append⟩

end Report

end IiifRules
