/-!
# Formats of options documents

The name of a file tells the format of the settings in it.
-/

namespace SignalScript

inductive OptionsFormat where
  | json
  | yaml
  deriving DecidableEq, Repr, Inhabited

namespace OptionsFormat

/-- The last name in a path.  Empty names and `.` do not count. -/
def fileName? (path : String) : Option String :=
  ((path.splitOn "/").filter fun name => name ≠ "" ∧ name ≠ ".").getLast?

/-- What stands behind the last dot of a file name, if something stands before
that dot. -/
def extension? (name : String) : Option String :=
  match name.splitOn "." with
  | [] | [_] | ["", _] => none
  | parts => parts.getLast?

/-- The format that an extension names. -/
def ofExtension? (extension : String) : Option OptionsFormat :=
  match extension with
  | "json" => some .json
  | "yaml" | "yml" => some .yaml
  | _ => none

/-- The format of the file at a path, if it is one for settings. -/
def ofPath? (path : String) : Option OptionsFormat :=
  ((fileName? path).bind extension?).bind ofExtension?

end OptionsFormat

end SignalScript
