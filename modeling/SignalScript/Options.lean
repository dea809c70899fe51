import SignalScript.Diagnostic

/-!
# Parser options

The settings of a parser, and the check that they make sense.  A parser works
with any settings; the check is for settings that come from a document.
-/

namespace SignalScript

/-- The version of the settings' format that is understood. -/
def optionsSchema : String := "sigscr-syntax/0.1.0"

structure Options where
  schema : String := optionsSchema
  /-- Added to the number of every line. -/
  lineOffset : Nat := 0
  /-- Whether an unknown operator is an error; otherwise it gives a warning. -/
  strictOperators : Bool := false
  /-- The greatest depth a node that is not a leaf may have. -/
  maxDepth : Option Nat := none
  deriving DecidableEq, Repr, Inhabited

namespace Options

/-- The finding about a schema that is not understood. -/
def schemaFinding (schema : String) : Diagnostic :=
  (Diagnostic.error "sigscr.options.schema" 0
    ("unsupported parse options schema `" ++ schema ++ "` (expected `" ++
      optionsSchema ++ "`)")).withReference "schema"

/-- The finding about a depth limit that admits nothing. -/
def depthFinding : Diagnostic :=
  ((Diagnostic.error "sigscr.options.max_depth" 0 "max_depth must be > 0").withReference
    "max_depth").withRelated (.object [("max_depth", .nat 0)])

/-- What is wrong with settings. -/
def findings (options : Options) : List Diagnostic :=
  (if options.schema = optionsSchema then [] else [schemaFinding options.schema]) ++
    (if options.maxDepth = some 0 then [depthFinding] else [])

/-- Nothing is found exactly if the schema is the one understood and the depth
limit, if any, is positive. -/
theorem findings_eq_nil_iff (options : Options) :
    options.findings = [] ↔ options.schema = optionsSchema ∧ options.maxDepth ≠ some 0 := by
  rw [findings, List.append_eq_nil_iff]
  by_cases schema : options.schema = optionsSchema <;>
    by_cases depth : options.maxDepth = some 0 <;> simp [schema, depth]

end Options

end SignalScript
