import SignalScript.Diagnostic.Encoding
import SignalScript.Proofs.Json.Reading

/-!
# Findings are read back

A finding that is written as JSON and read again is the same finding, with one exception.
Related data that is set to null is written, but it is read as if it had not been set.
-/

namespace SignalScript.Diagnostic

variable {diagnostic : Diagnostic}

theorem referenceOfJson?_ofOption (reference : Option String) :
    referenceOfJson? (Json.ofOption (reference.map .string)) = some reference := by
  cases reference <;> rfl

/-- Related data is lost exactly if it is null. -/
theorem bind_relatedOfJson_eq_iff (related : Option Json) :
    related.bind relatedOfJson = related ↔ related ≠ some .null := by
  cases related with
  | none => simp
  | some value => cases value <;> simp [relatedOfJson]

theorem relatedOfJson_ofOption (related : Option Json) :
    relatedOfJson (Json.ofOption related) = related.bind relatedOfJson := by
  cases related <;> rfl

/-- The fields of a finding, as they are looked up in what it is written as. -/
theorem ofJson?_eq_ofParts? (diagnostic : Diagnostic) :
    ofJson? diagnostic.toJson =
      ofParts? (.string diagnostic.kind) diagnostic.severity.toJson (.nat diagnostic.line)
        (.string diagnostic.message) (Json.ofOption (diagnostic.reference.map .string))
        (Json.ofOption diagnostic.related) := by
  obtain ⟨kind, severity, line, message, reference, related⟩ := diagnostic
  cases reference <;> cases related <;> rfl

/-- What a finding is written as is read as this finding, without related data that is
null. -/
theorem ofJson?_toJson (hline : diagnostic.line < Json.natBound) :
    ofJson? diagnostic.toJson =
      some { diagnostic with related := diagnostic.related.bind relatedOfJson } := by
  rw [ofJson?_eq_ofParts?]
  simp [ofParts?, hline, referenceOfJson?_ofOption, relatedOfJson_ofOption]

/-- The finding that a text is, for a reader of JSON values. -/
def decodeWith (reader : String → Option Json) (text : String) : Option Diagnostic :=
  (reader text).bind ofJson?

/-- The finding that a text is. -/
def decode : String → Option Diagnostic := decodeWith Json.read

/-- A finding is read back from every text that spells it, as from the value it is written
as, exactly if its related data is not null; otherwise nothing but this data is missing.  This
holds for every reader of JSON that knows all spellings of the finding, as the one of `decode`
does. -/
theorem decode_toJson {reader : String → Option Json}
    (hreader : Json.ReadsSpellings reader diagnostic.toJson)
    (hline : diagnostic.line < Json.natBound) {text : String}
    (hspells : Json.Token.Spells text.toList diagnostic.toJson.tokens) :
    decodeWith reader text = ofJson? diagnostic.toJson ∧
      (decodeWith reader text = some diagnostic ↔ diagnostic.related ≠ some .null) ∧
      (diagnostic.related = some .null →
        decodeWith reader text = some { diagnostic with related := none }) := by
  have hvalue : decodeWith reader text = ofJson? diagnostic.toJson := by
    rw [decodeWith, hreader _ hspells, Option.bind_some]
  refine ⟨hvalue, ?_, fun hnull => ?_⟩
  · rw [hvalue, ofJson?_toJson hline, ← bind_relatedOfJson_eq_iff]
    obtain ⟨kind, severity, line, message, reference, related⟩ := diagnostic
    simp
  · rw [hvalue, ofJson?_toJson hline, hnull]
    rfl

/-- A finding whose related data was set to null is not read back. -/
theorem decode_toJson_null :
    let diagnostic := (warning "k" 4 "m").withRelated .null
    let text := "\x7b\"kind\":\"k\",\"severity\":\"warning\",\"line\":4,\"message\":\"m\"," ++
      "\"related\":null\x7d"
    Json.ReadsSpellings Json.read diagnostic.toJson ∧ diagnostic.line < Json.natBound ∧
      Json.Token.Spells text.toList diagnostic.toJson.tokens ∧
      decode text = some (warning "k" 4 "m") ∧ decode text ≠ some diagnostic := by
  intro diagnostic text
  have hline : diagnostic.line < Json.natBound := by decide
  have hcompact : diagnostic.toJson.compact = text := by decide +kernel
  have hspells : Json.Token.Spells text.toList diagnostic.toJson.tokens :=
    hcompact ▸ Json.spells_compact diagnostic.toJson
  have hreader := Json.read_of_spells diagnostic.toJson
  obtain ⟨-, hread, hnull⟩ := decode_toJson hreader hline hspells
  exact ⟨hreader, hline, hspells, hnull rfl, fun hsame => hread.mp hsame rfl⟩

end SignalScript.Diagnostic
