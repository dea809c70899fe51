import SignalScript.Options.Encoding
import SignalScript.Options.Format

/-!
# Loading options

Settings that come from a document are decoded and then checked, so what is
loaded always makes sense.
-/

namespace SignalScript

/-- Why settings were not loaded. -/
inductive OptionsError where
  /-- The name of the file does not tell a format. -/
  | unsupportedFormat (path : String)
  /-- The file cannot be read, or is no text. -/
  | unreadable (path : String)
  /-- The document is no settings. -/
  | malformed (format : OptionsFormat)
  /-- The settings do not make sense. -/
  | invalid (findings : List Diagnostic)
  deriving Inhabited, Repr

/-- The wording of a format that is not supported. -/
def OptionsError.unsupportedMessage (path : String) : String :=
  "parse options file `" ++ path ++ "` must end in .json, .yaml or .yml"

namespace Options

/-- The settings that a document holds, whose JSON values are read in some way. -/
def decodeWith (read : String → Option Json) (format : OptionsFormat) (text : String) :
    Option Options :=
  match format with
  | .json => (read text).bind ofJson?
  | .yaml => (Yaml.readMapping text).bind ofYaml?

/-- The settings that a document holds. -/
def decode : OptionsFormat → String → Option Options := decodeWith Json.read

/-- The settings, if nothing is wrong with them. -/
def check (options : Options) : Except OptionsError Options :=
  match options.findings with
  | [] => .ok options
  | findings => .error (.invalid (Diagnostic.sort findings))

/-- Reads and checks the settings in a document that is decoded in some way. -/
def parseWith (decoder : OptionsFormat → String → Option Options) (format : OptionsFormat)
    (text : String) : Except OptionsError Options :=
  match decoder format text with
  | none => .error (.malformed format)
  | some options => options.check

/-- Reads and checks the settings in a document. -/
def parse : OptionsFormat → String → Except OptionsError Options := parseWith decode

/-- Reads and checks the settings in a file; `content` is what it holds, if it
can be read. -/
def load (path : String) (content : Option ByteArray) : Except OptionsError Options :=
  match OptionsFormat.ofPath? path with
  | none => .error (.unsupportedFormat path)
  | some format =>
    match content.bind String.fromUTF8? with
    | none => .error (.unreadable path)
    | some text => parse format text

/-- Settings that were checked have no findings. -/
theorem findings_of_check {options checked : Options} (ok : options.check = .ok checked) :
    checked.findings = [] := by
  rw [check] at ok
  split at ok
  · rename_i none
    cases ok
    exact none
  · cases ok

end Options

end SignalScript
