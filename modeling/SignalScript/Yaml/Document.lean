import SignalScript.Yaml.Scalar

/-!
# YAML documents that hold one mapping

Settings are written as one mapping from scalars to scalars, in block style (a
field on a line) or in flow style (between braces).  Everything else that YAML
has is refused: nested collections, sequences, anchors, tags, directives, block
scalars and further documents.  An empty document is an empty mapping.
-/

namespace SignalScript.Yaml

/-- The fields of a mapping, in order. -/
abbrev Fields := List (Scalar × Scalar)

/-- A key that needs no `?` is followed by its colon on the same line, within
so many characters. -/
def keyLimit : Nat := 1024

/-- Whether a colon at `colon` can belong to a key that begins at `key`. -/
def reaches (key colon : Cursor) : Bool :=
  colon.line == key.line && colon.index ≤ key.index + keyLimit

/-! ## Flow style -/

/-- Reads the value of a field in flow style, which may be left out; the cursor
is behind the colon. -/
def flowValue? (cursor : Cursor) : Option (Scalar × Cursor) :=
  let start := nextInFlow cursor
  match start.rest with
  | ',' :: _ | '\x7d' :: _ => some (.omitted, start)
  | _ => (scalar? true 0 start).map fun found => (found.scalar, nextInFlow found.cursor)

/-- Reads a field in flow style, up to the token behind it. -/
def flowField? (cursor : Cursor) : Option ((Scalar × Scalar) × Cursor) := do
  let explicit := cursor.rest.head? == some '?'
  let start := if explicit then nextInFlow (cursor.skip 1) else cursor
  let key ← scalar? true 0 start
  let colon := nextInFlow key.cursor
  if colon.rest.head? == some ':' then
    if explicit || reaches start colon then
      let (value, next) ← flowValue? (colon.skip 1)
      return ((key.scalar, value), next)
    else
      none
  else
    return ((key.scalar, .omitted), colon)

/-- Reads the fields of a mapping in flow style, up to behind its closing
brace. -/
def flowFields? (cursor : Cursor) : Option (Fields × Cursor) :=
  let start := nextInFlow cursor
  if start.rest.head? == some '\x7d' then
    some ([], start.skip 1)
  else
    match flowField? start with
    | none => none
    | some (field, next) =>
      match next.rest with
      | '\x7d' :: _ => some ([field], next.skip 1)
      | ',' :: rest =>
        if rest.length < cursor.rest.length then
          match flowFields? { next.skip 1 with rest } with
          | none => none
          | some (others, last) => some (field :: others, last)
        else
          none
      | _ => none
termination_by cursor.rest.length

/-! ## Block style -/

/-- Whether a token in block style stands behind a column, and so belongs to the
field that begins there. -/
def isInside (column : Nat) (start : Start) : Bool :=
  !start.cursor.rest.isEmpty && column < start.cursor.column

/-- Reads what belongs to a field that begins at a column: a scalar or nothing.
The result is the token behind it, which does not belong to the field. -/
def blockScalar? (column : Nat) (start : Start) : Option (Scalar × Start) :=
  if isInside column start then do
    let found ← scalar? false (column + 1) start.cursor
    let next := nextInBlock found.crossedLine found.cursor
    if isInside column next then none else return (found.scalar, next)
  else
    some (.omitted, start)

/-- Reads a field in block style, up to the token behind it. -/
def blockField? (cursor : Cursor) : Option ((Scalar × Scalar) × Start) :=
  let column := cursor.column
  if cursor.atIndicator '?' then do
    let (key, colon) ← blockScalar? column (nextInBlock true (cursor.skip 1))
    if colon.cursor.column == column && colon.cursor.atIndicator ':' then
      let (value, next) ← blockScalar? column (nextInBlock true (colon.cursor.skip 1))
      return ((key, value), next)
    else
      return ((key, .omitted), colon)
  else do
    let key ← scalar? false (column + 1) cursor
    let colon := (nextInBlock key.crossedLine key.cursor).cursor
    if colon.atIndicator ':' && reaches cursor colon then
      let (value, next) ← blockScalar? column (nextInBlock false (colon.skip 1))
      return ((key.scalar, value), next)
    else
      none

/-- Reads the fields of a mapping in block style.  All of them begin at the same
column; the mapping ends before a token at a lesser one. -/
def blockFields? (cursor : Cursor) : Option (Fields × Start) :=
  match blockField? cursor with
  | none => none
  | some (field, next) =>
    if next.cursor.column = cursor.column ∧ ¬next.cursor.rest.isEmpty ∧
        ¬next.cursor.atAnyMarker then
      if next.cursor.rest.length < cursor.rest.length then
        match blockFields? next.cursor with
        | none => none
        | some (others, last) => some (field :: others, last)
      else
        none
    else
      some ([field], next)
termination_by cursor.rest.length

/-! ## Documents -/

/-- Whether nothing but end markers follows the document. -/
def endsDocument (start : Start) : Bool :=
  if start.cursor.rest.isEmpty then true
  else if start.cursor.atEndMarker then
    let next := nextInBlock false (start.cursor.skip 3)
    if next.cursor.rest.length < start.cursor.rest.length then endsDocument next else false
  else false
termination_by start.cursor.rest.length

/-- The fields of a document, from the first token of its content on. -/
def content? (start : Start) : Option Fields :=
  if start.cursor.rest.isEmpty || start.cursor.atEndMarker then
    if endsDocument start then some [] else none
  else if start.cursor.rest.head? == some '\x7b' then do
    let (fields, last) ← flowFields? (start.cursor.skip 1)
    if endsDocument (nextInBlock false last) then return fields else none
  else if start.keyAllowed then do
    let (fields, last) ← blockFields? start.cursor
    if endsDocument last then return fields else none
  else
    none

/-- The fields of the mapping that a text is. -/
def readMapping (text : String) : Option Fields :=
  if text.toList.all isAllowed then
    let first := nextInBlock true { rest := normalizeBreaks text.toList }
    if first.cursor.atStartMarker then
      content? (nextInBlock false (first.cursor.skip 3))
    else if first.cursor.atEndMarker then
      none
    else
      content? first
  else
    none

end SignalScript.Yaml
