import Mathlib.Data.List.Nodup
import SignalScript.Options.Load
import SignalScript.Proofs.Json.Reading

/-!
# Settings in documents

A JSON document of settings lists their fields in any order, and may leave out those whose
value is the default.  Whatever its blanks and escapes are, it is read as these settings if
nothing is wrong with them; otherwise it is refused with just what is wrong, in order.  No
document of any kind gives settings that have a finding.
-/

namespace SignalScript.Json

theorem nat_inj {value other : Nat} : nat value = nat other ↔ value = other := by
  rw [nat, nat, integer.injEq, Int.ofNat_inj]

theorem ofOption_nat_inj {limit other : Option Nat} :
    ofOption (limit.map .nat) = ofOption (other.map .nat) ↔ limit = other := by
  cases limit with
  | none =>
      cases other with
      | none => simp
      | some other => simp [ofOption, nat]
  | some limit =>
      cases other with
      | none => simp [ofOption, nat]
      | some other => simp [ofOption, nat_inj]

end SignalScript.Json

namespace SignalScript.Options

/-! ## Fields -/

theorem keys_jsonFields (options : Options) : options.jsonFields.map Prod.fst = keys := rfl

/-- The numbers of settings are those that documents can hold. -/
structure Bounded (options : Options) : Prop where
  lineOffset : options.lineOffset < Json.natBound
  maxDepth : ∀ limit ∈ options.maxDepth, limit < Json.natBound

/-- Fields hold settings if they are fields of theirs in any order, each at most once, and
what is missing has its default. -/
structure HeldBy (options : Options) (fields : List (String × Json)) : Prop where
  once : fields.Nodup
  own : ∀ field ∈ fields, field ∈ options.jsonFields
  missing : ∀ field ∈ options.jsonFields, field ∉ fields → field ∈ ({} : Options).jsonFields

variable {options : Options} {fields : List (String × Json)}

theorem limit_ofOption (hbounded : options.Bounded) :
    jsonReader.limit (Json.ofOption (options.maxDepth.map .nat)) = some options.maxDepth := by
  cases hmaxDepth : options.maxDepth with
  | none => rfl
  | some limit =>
      have hlimit := Json.nat?_nat (hbounded.maxDepth limit hmaxDepth)
      show (Json.nat limit).nat?.map some = some (some limit)
      rw [hlimit, Option.map_some]

/-- A field of settings sets one of them, and keeps those that were already set. -/
theorem readField_of_mem (hbounded : options.Bounded) {field : String × Json}
    (hfield : field ∈ options.jsonFields) (start : Options) :
    ∃ next, readField jsonReader start field = some next ∧
      ∀ other ∈ options.jsonFields, other ∈ start.jsonFields ∨ other = field →
        other ∈ next.jsonFields := by
  simp only [jsonFields, List.mem_cons, List.not_mem_nil, or_false] at hfield
  -- One case for each key; the settings of the other keys are those of the start.
  rcases hfield with rfl | rfl | rfl | rfl
  · refine ⟨{ start with schema := options.schema }, rfl, ?_⟩
    simp [jsonFields]
  · refine ⟨{ start with lineOffset := options.lineOffset }, ?_, ?_⟩
    · show (Json.nat options.lineOffset).nat?.map _ = _
      rw [Json.nat?_nat hbounded.lineOffset, Option.map_some]
    · simp [jsonFields]
  · refine ⟨{ start with strictOperators := options.strictOperators }, rfl, ?_⟩
    simp [jsonFields]
  · refine ⟨{ start with maxDepth := options.maxDepth }, ?_, ?_⟩
    · show (jsonReader.limit _).map _ = _
      rw [limit_ofOption hbounded, Option.map_some]
    · simp [jsonFields]

/-- The fields tell the settings. -/
theorem eq_of_jsonFields_subset {start : Options}
    (hsubset : ∀ field ∈ options.jsonFields, field ∈ start.jsonFields) : start = options := by
  obtain ⟨schema, lineOffset, strictOperators, maxDepth⟩ := start
  have hfields : options.schema = schema ∧ options.lineOffset = lineOffset ∧
      options.strictOperators = strictOperators ∧ options.maxDepth = maxDepth := by
    simpa [jsonFields, Json.nat_inj, Json.ofOption_nat_inj] using hsubset
  obtain ⟨rfl, rfl, rfl, rfl⟩ := hfields
  rfl

/-- Fields of settings that are read one after the other give these settings, if those that
are not among them were set before. -/
theorem foldlM_readField (hbounded : options.Bounded) (start : Options)
    (hown : ∀ field ∈ fields, field ∈ options.jsonFields)
    (hset : ∀ field ∈ options.jsonFields, field ∈ start.jsonFields ∨ field ∈ fields) :
    fields.foldlM (readField jsonReader) start = some options := by
  -- What was read before has gone into the start, so every field of the settings is either in
  -- the start or still to be read.
  induction fields generalizing start with
  | nil =>
      have hall : ∀ field ∈ options.jsonFields, field ∈ start.jsonFields := fun field hfield =>
        (hset field hfield).resolve_right List.not_mem_nil
      rw [List.foldlM_nil, eq_of_jsonFields_subset hall]
      rfl
  | cons field rest ih =>
      obtain ⟨next, hread, hkept⟩ := readField_of_mem hbounded (hown field (.head _)) start
      rw [List.foldlM_cons, hread]
      refine ih next (fun other hother => hown other (.tail _ hother)) fun other hother => ?_
      rcases hset other hother with hbefore | hbehind
      · exact .inl (hkept other hother (.inl hbefore))
      · refine (List.mem_cons.mp hbehind).imp_left fun heq => ?_
        exact hkept other hother (.inr heq)

theorem ofFields?_of_heldBy (hbounded : options.Bounded) (hheld : options.HeldBy fields) :
    ofFields? jsonReader fields = some options := by
  have hkeys : (options.jsonFields.map Prod.fst).Nodup := by
    rw [keys_jsonFields]
    decide
  have honce : (fields.map Prod.fst).Nodup :=
    hheld.once.map_on fun field hfield other hother heq =>
      List.inj_on_of_nodup_map hkeys (hheld.own field hfield) (hheld.own other hother) heq
  rw [ofFields?, if_pos honce]
  refine foldlM_readField hbounded {} hheld.own fun field hfield => ?_
  by_cases hmem : field ∈ fields
  · exact .inr hmem
  · exact .inl (hheld.missing field hfield hmem)

/-! ## Documents -/

/-- A document that spells fields of settings is decoded to these settings. -/
theorem decodeWith_of_heldBy {reader : String → Option Json}
    (hreader : Json.ReadsSpellings reader (.object fields)) (hbounded : options.Bounded)
    (hheld : options.HeldBy fields) {text : String}
    (hspells : Json.Token.Spells text.toList (Json.object fields).tokens) :
    decodeWith reader .json text = some options := by
  rw [decodeWith, hreader _ hspells, Option.bind_some, ofJson?, ofFields?_of_heldBy hbounded hheld]

example : decode .json "\x7b \"schema\" : \"\\u0041\\uD83D\\uDE00\\/\",\n\"max_depth\":8 \x7d" =
    some { schema := "A😀/", maxDepth := some 8 } := by
  decide +kernel

theorem heldBy_jsonFields (options : Options) : options.HeldBy options.jsonFields where
  once := List.Nodup.of_map Prod.fst (options.keys_jsonFields ▸ by decide)
  own _ hfield := hfield
  missing _ hfield hmissing := absurd hfield hmissing

/-- Settings that are written as JSON are decoded again. -/
theorem decode_compact (hbounded : options.Bounded) :
    decode .json options.toJson.compact = some options := by
  rw [toJson]
  exact decodeWith_of_heldBy (Json.read_of_spells _) hbounded options.heldBy_jsonFields
    (Json.spells_compact _)

theorem findings_of_parseWith {decoder : OptionsFormat → String → Option Options}
    {format : OptionsFormat} {text : String} {accepted : Options}
    (haccepted : parseWith decoder format text = .ok accepted) : accepted.findings = [] := by
  unfold parseWith at haccepted
  split at haccepted
  · cases haccepted
  · exact findings_of_check haccepted

theorem check_of_findings (hfindings : options.findings = []) : options.check = .ok options := by
  rw [check, hfindings]

theorem check_of_findings_ne (hfindings : options.findings ≠ []) :
    options.check = .error (.invalid (Diagnostic.sort options.findings)) := by
  unfold check
  split
  · contradiction
  · rfl

/-- The finding about the depth limit stands before the one about the schema. -/
theorem sort_findings (options : Options) :
    Diagnostic.sort options.findings =
      (if options.maxDepth = some 0 then [depthFinding] else []) ++
        (if options.schema = optionsSchema then [] else [schemaFinding options.schema]) := by
  have hkind : compare "sigscr.options.schema" "sigscr.options.max_depth" = .gt := by decide
  have hdepth : (schemaFinding options.schema).precedes depthFinding = false := by
    simp [Diagnostic.precedes, Diagnostic.order, schemaFinding, depthFinding, Diagnostic.error,
      Diagnostic.withReference, Diagnostic.withRelated, hkind]
  by_cases hschema : options.schema = optionsSchema <;>
    by_cases hmaxDepth : options.maxDepth = some 0 <;>
      simp [findings, hschema, hmaxDepth, Diagnostic.sort, List.mergeSort, hdepth]

/-- No document gives settings that something is wrong with, whatever decodes it. -/
theorem findings_of_accepted :
    (∀ format raw accepted, parse format raw = .ok accepted → accepted.findings = []) ∧
      ∀ decoder format raw accepted, parseWith decoder format raw = .ok accepted →
        accepted.findings = [] :=
  ⟨fun _ _ _ haccepted => findings_of_parseWith haccepted,
    fun _ _ _ _ haccepted => findings_of_parseWith haccepted⟩

/-- A JSON document that holds settings gives these settings if nothing is found wrong with
them, and otherwise the findings in order, for every reader of JSON that knows all spellings
of the document, as the one of `parse` does.  No document gives settings that something is wrong
with, whatever decodes it. -/
theorem parse_json_document {reader : String → Option Json}
    (hreader : Json.ReadsSpellings reader (.object fields)) (hbounded : options.Bounded)
    (hheld : options.HeldBy fields) {text : String}
    (hspells : Json.Token.Spells text.toList (Json.object fields).tokens) :
    (options.findings = [] → parseWith (decodeWith reader) .json text = .ok options) ∧
      (options.findings ≠ [] → parseWith (decodeWith reader) .json text =
        .error (.invalid (Diagnostic.sort options.findings))) ∧
      (∀ format raw accepted, parse format raw = .ok accepted → accepted.findings = []) ∧
      ∀ decoder format raw accepted, parseWith decoder format raw = .ok accepted →
        accepted.findings = [] := by
  have hparse : parseWith (decodeWith reader) .json text = options.check := by
    rw [parseWith, decodeWith_of_heldBy hreader hbounded hheld hspells]
  refine ⟨fun hfindings => ?_, fun hfindings => ?_, findings_of_accepted⟩
  · rw [hparse, check_of_findings hfindings]
  · rw [hparse, check_of_findings_ne hfindings]

/-- Two settings of this document are refused; the two that it leaves out have their
defaults. -/
theorem parse_json_document_refused :
    let options : Options := { schema := "a\"\n\u00e9", maxDepth := some 0 }
    let fields : List (String × Json) := [("max_depth", .nat 0), ("schema", .string "a\"\n\u00e9")]
    let text := "\x7b\"max_depth\":0,\"schema\":\"a\\\"\\n\u00e9\"\x7d"
    Json.ReadsSpellings Json.read (.object fields) ∧ options.Bounded ∧ options.HeldBy fields ∧
      Json.Token.Spells text.toList (Json.object fields).tokens ∧ options.findings ≠ [] ∧
      parse .json text = .error (.invalid [depthFinding, schemaFinding "a\"\n\u00e9"]) := by
  intro options fields text
  have hbounded : options.Bounded := ⟨by decide, by rintro limit ⟨⟩; decide⟩
  have hheld : options.HeldBy fields := by
    refine ⟨?_, ?_, ?_⟩
    · simp [fields]
    · simp [fields, options, jsonFields, Json.ofOption]
    · simp [fields, options, jsonFields, Json.ofOption]
  have hcompact : (Json.object fields).compact = text := by decide +kernel
  have hspells : Json.Token.Spells text.toList (Json.object fields).tokens :=
    hcompact ▸ Json.spells_compact (.object fields)
  have hfindings : options.findings ≠ [] := by
    rw [Ne, findings_eq_nil_iff]
    simp [options]
  have hreader := Json.read_of_spells (.object fields)
  have hparse := (parse_json_document hreader hbounded hheld hspells).2.1 hfindings
  rw [sort_findings] at hparse
  exact ⟨hreader, hbounded, hheld, hspells, hfindings, hparse⟩

end SignalScript.Options
