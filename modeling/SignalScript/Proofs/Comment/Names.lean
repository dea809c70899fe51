import SignalScript.Proofs.Parser.Regions

/-!
# Names that end early

Only the name of a script takes notice of the end of a line.  An assembler whose name
is ended before the tokens that would end it goes on as if it were not, unless a part of
the name still follows: then the names differ.
-/

namespace SignalScript

/-- Whether a name goes on with tokens: the next one, blanks and commas aside, is a part
of it. -/
def nameGoesOn : List Token → Bool
  | [] => false
  | token :: rest =>
    match token.kind with
    | .value | .operator => true
    | .separator | .tab | .comma => nameGoesOn rest
    | _ => false

namespace Assembler

/-- Whether the name of a script is being read. -/
def readsName (assembler : Assembler) : Bool :=
  assembler.builder.any (·.readingName)

/-- The assembler behind the name, if it reads one. -/
def endName (assembler : Assembler) : Assembler :=
  { assembler with builder := assembler.builder.map Builder.endName }

@[simp]
theorem readsName_endName (assembler : Assembler) : assembler.endName.readsName = false := by
  cases hbuilder : assembler.builder with
  | none => simp [endName, readsName, hbuilder]
  | some builder => simp [endName, readsName, hbuilder, Builder.endName]

/-- Where no name is read, none can be ended. -/
theorem endName_eq_self {assembler : Assembler} (hname : assembler.readsName = false) :
    assembler.endName = assembler := by
  rcases assembler with ⟨strict, depth, _ | builder, remark, findings⟩
  · rfl
  · rcases builder with ⟨script, cursor, readingName, maxDepth⟩
    obtain rfl : readingName = false := by simpa [readsName] using hname
    rfl

@[simp]
theorem endName_endName (assembler : Assembler) :
    assembler.endName.endName = assembler.endName :=
  endName_eq_self assembler.readsName_endName

/-! ## Tokens that a name is not made of -/

private theorem with_builder {assembler : Assembler} {builder : Builder}
    (hbuilder : assembler.builder = some builder) :
    ({ assembler with builder := some builder } : Assembler) = assembler := by
  rw [← hbuilder]

/-- A blank or comma changes nothing. -/
theorem consume_filler (assembler : Assembler) {token : Token}
    (hkind : token.kind = .separator ∨ token.kind = .tab ∨ token.kind = .comma) :
    assembler.consume token = (assembler, .ok none) := by
  rcases token with ⟨kind, text, line⟩
  cases hbuilder : assembler.builder with
  | none => rcases hkind with rfl | rfl | rfl <;> simp [consume, hbuilder, consumeOutside]
  | some builder =>
      have hsame := with_builder hbuilder
      cases hname : builder.readingName with
      | true =>
          rw [consume_name hbuilder hname]
          rcases hkind with rfl | rfl | rfl <;> simp [consumeName, hsame]
      | false =>
          rw [consume_body hbuilder hname]
          rcases hkind with rfl | rfl | rfl <;> simp [consumeBody, Action.ofToken, hsame]

/-- The end of a line ends a name, and changes nothing else. -/
theorem consume_lineEnd (assembler : Assembler) {token : Token} (hkind : token.kind = .lineEnd) :
    assembler.consume token = (assembler.endName, .ok none) := by
  rcases token with ⟨kind, text, line⟩
  obtain rfl : kind = .lineEnd := hkind
  cases hbuilder : assembler.builder with
  | none =>
      have hname : assembler.readsName = false := by simp [readsName, hbuilder]
      rw [endName_eq_self hname]
      simp [consume, hbuilder, consumeOutside]
  | some builder =>
      cases hname : builder.readingName with
      | true =>
          rw [consume_name hbuilder hname]
          simp [consumeName, endName, hbuilder]
      | false =>
          have hnone : assembler.readsName = false := by simp [readsName, hbuilder, hname]
          rw [consume_body hbuilder hname, endName_eq_self hnone]
          simp [consumeBody, Action.ofToken, with_builder hbuilder]

end Assembler

/-! ## A name that is ended before its end -/

namespace Region

open Assembler

/-- Where a name is read, the scanner reads one. -/
theorem Fits.heading {options : Options} {place : Place} {assembler : Assembler}
    (hfits : Fits options place assembler) (hname : assembler.readsName = true) :
    ∃ line name, place = .heading line name := by
  have hbuilder := hfits.builder
  cases place with
  | outside remark =>
      have hnone : assembler.builder = none := hbuilder
      simp [readsName, hnone] at hname
  | heading line name => exact ⟨line, name, rfl⟩
  | inside line name body =>
      obtain ⟨reading, hbody, hsome⟩ := hbuilder
      have hending : reading.readingName = false := (continues_named hbody).readingName
      simp [readsName, hsome, hending] at hname

/-- The builder behind the name. -/
private theorem Fits.builder_endName {options : Options} {line : Nat} {name : List Token}
    {assembler : Assembler} (hfits : Fits options (.heading line name) assembler) :
    assembler.endName.builder = some (named options line name) := by
  have hbuilder : assembler.builder = some _ := hfits.builder
  rw [Assembler.endName, hbuilder]
  rfl

/-- Ending the name leads to the body. -/
theorem Fits.endName {options : Options} {line : Nat} {name : List Token}
    {assembler : Assembler} (hfits : Fits options (.heading line name) assembler) :
    Fits options (.inside line name []) assembler.endName where
  strict := hfits.strict
  depth := hfits.depth
  remark := hfits.remark
  builder := ⟨named options line name, rfl, hfits.builder_endName⟩

/-- A semicolon ends a name or is nothing behind it. -/
private theorem consume_statementEnd {options : Options} {line : Nat} {name : List Token}
    {assembler : Assembler} (hfits : Fits options (.heading line name) assembler) {token : Token}
    (hkind : token.kind = .statementEnd) :
    assembler.consume token = (assembler.endName, .ok none) ∧
      assembler.endName.consume token = (assembler.endName, .ok none) := by
  have hbuilder : assembler.builder = some _ := hfits.builder
  have hending := hfits.builder_endName
  constructor
  · rw [consume_name hbuilder rfl, consumeName, hkind]
    simp [Assembler.endName, hbuilder]
  · rw [consume_body hending rfl, consumeBody, Action.ofToken, hkind]
    have happly : (named options line name).apply (.close .statement) token.line =
        .ok (named options line name) := rfl
    simp only [Assembler.build, checkOperator, happly]
    rw [← hending]

/-- A bracket or brace meets the same builder, whether it ends the name or not. -/
private theorem consume_bracket {options : Options} {line : Nat} {name : List Token}
    {assembler : Assembler} (hfits : Fits options (.heading line name) assembler) {token : Token}
    (hpart : consumeName ((Builder.start line options.maxDepth).pushName (nameText name)) token =
      (named options line name, true)) :
    assembler.endName.consume token = assembler.consume token := by
  rw [consume_name hfits.builder rfl, consume_body hfits.builder_endName rfl, hpart]
  rfl

/-- Whether an assembler is another one, perhaps behind the name which the tokens still
to be taken do not go on with. -/
def Follows (tokens : List Token) (assembler other : Assembler) : Prop :=
  other = assembler ∨ other = assembler.endName ∧ nameGoesOn tokens = false

/-- Both do the same with the next token. -/
theorem Follows.consume {options : Options} {place : Place} {assembler other : Assembler}
    (hfits : Fits options place assembler) {token : Token} {tokens : List Token}
    (hfollows : Follows (token :: tokens) assembler other) :
    (other.consume token).2 = (assembler.consume token).2 ∧
      Follows tokens (assembler.consume token).1 (other.consume token).1 := by
  rcases hfollows with rfl | ⟨rfl, hends⟩
  · exact ⟨rfl, .inl rfl⟩
  cases hname : assembler.readsName with
  | false =>
      rw [endName_eq_self hname]
      exact ⟨rfl, .inl rfl⟩
  | true =>
      obtain ⟨line, name, rfl⟩ := hfits.heading hname
      have hfiller : token.kind = .separator ∨ token.kind = .tab ∨ token.kind = .comma →
          (assembler.endName.consume token).2 = (assembler.consume token).2 ∧
            Follows tokens (assembler.consume token).1 (assembler.endName.consume token).1 := by
        intro hkind
        rw [consume_filler assembler hkind, consume_filler assembler.endName hkind]
        refine ⟨rfl, .inr ⟨rfl, ?_⟩⟩
        rcases hkind with hkind | hkind | hkind <;> simpa [nameGoesOn, hkind] using hends
      have hbracket : consumeName ((Builder.start line options.maxDepth).pushName
            (nameText name)) token = (named options line name, true) →
          (assembler.endName.consume token).2 = (assembler.consume token).2 ∧
            Follows tokens (assembler.consume token).1 (assembler.endName.consume token).1 := by
        intro hpart
        rw [consume_bracket hfits hpart]
        exact ⟨rfl, .inl rfl⟩
      cases hkind : token.kind with
      | value | operator => simp [nameGoesOn, hkind] at hends
      | separator => exact hfiller (.inl hkind)
      | tab => exact hfiller (.inr (.inl hkind))
      | comma => exact hfiller (.inr (.inr hkind))
      | lineEnd =>
          rw [consume_lineEnd assembler hkind, consume_lineEnd assembler.endName hkind]
          exact ⟨rfl, .inl (endName_endName assembler)⟩
      | statementEnd =>
          obtain ⟨hnamed, hbehind⟩ := consume_statementEnd hfits hkind
          rw [hnamed, hbehind]
          exact ⟨rfl, .inl rfl⟩
      | bracketOpen | bracketClose | blockOpen | blockClose =>
          exact hbracket (by rw [consumeName, hkind]; rfl)

/-! ## A name that is ended before one of its parts -/

/-- A name that has been begun goes on with tokens, and with a part of a name if one is
next. -/
def GoesOn (endLine line : Nat) (name tokens : List Token) : Prop :=
  ∃ more body ends others,
    regions endLine (.heading line name) tokens = ⟨line, name ++ more, body, ends⟩ :: others ∧
      more ⊆ tokens ∧
        (nameGoesOn tokens = true → ∃ token ∈ more, token.kind = .value ∨ token.kind = .operator)

private theorem goesOn_part {endLine line : Nat} {name tokens : List Token} {token : Token}
    (hnext : Place.next (.heading line name) token = (.heading line (name ++ [token]), []))
    (hpart : nameGoesOn (token :: tokens) = true →
      (token.kind = .value ∨ token.kind = .operator) ∨ nameGoesOn tokens = true)
    (hrest : GoesOn endLine line (name ++ [token]) tokens) :
    GoesOn endLine line name (token :: tokens) := by
  obtain ⟨more, body, ends, others, hregions, hsubset, hparts⟩ := hrest
  refine ⟨token :: more, body, ends, others, ?_, List.cons_subset_cons token hsubset, ?_⟩
  · rw [regions, hnext, hregions, List.append_assoc]
    rfl
  · intro hgoes
    rcases hpart hgoes with hkind | hrest
    · exact ⟨token, .head _, hkind⟩
    · obtain ⟨part, hmem, hkind⟩ := hparts hrest
      exact ⟨part, .tail _ hmem, hkind⟩

private theorem goesOn_end {endLine line : Nat} {name tokens body : List Token} {token : Token}
    (hnext : Place.next (.heading line name) token = (.inside line name body, []))
    (hends : nameGoesOn (token :: tokens) = false) :
    GoesOn endLine line name (token :: tokens) := by
  obtain ⟨more, ends, others, hregions⟩ := regions_inside endLine line name body tokens
  refine ⟨[], body ++ more, ends, others, ?_, List.nil_subset _, by simp [hends]⟩
  rw [regions, hnext, hregions, List.append_nil]
  rfl

theorem goesOn (endLine line : Nat) (name tokens : List Token) :
    GoesOn endLine line name tokens := by
  induction tokens generalizing name with
  | nil => exact ⟨[], [], endLine, [], by simp [regions, Place.close, nameGoesOn]⟩
  | cons token tokens ih =>
      have hrest := ih (name ++ [token])
      cases hkind : token.kind with
      | value =>
          exact goesOn_part (by rw [Place.next, hkind]) (fun _ => .inl (.inl hkind)) hrest
      | operator =>
          exact goesOn_part (by rw [Place.next, hkind]) (fun _ => .inl (.inr hkind)) hrest
      | separator | tab | comma =>
          exact goesOn_part (by rw [Place.next, hkind]) (by simp [nameGoesOn, hkind]) hrest
      | lineEnd | statementEnd | bracketOpen | bracketClose | blockOpen | blockClose =>
          exact goesOn_end (by rw [Place.next, hkind]) (by simp [nameGoesOn, hkind])

/-- Whether not all results are scripts or they are not the same as others. -/
def Differ (results others : List (Except ParseError Script)) : Prop :=
  ∀ scripts : List Script, results = scripts.map .ok → others ≠ scripts.map .ok

private theorem cutAfterError_cons {first : Except ParseError Script}
    {rest : List (Except ParseError Script)} {scripts : List Script}
    (hcut : cutAfterError (first :: rest) = scripts.map .ok) :
    ∃ script others, scripts = script :: others ∧ first = .ok script := by
  cases scripts with
  | nil => cases first <;> simp [cutAfterError] at hcut
  | cons script others =>
      cases first with
      | error error => simp [cutAfterError] at hcut
      | ok found =>
          simp only [cutAfterError, List.map_cons, List.cons.injEq] at hcut
          exact ⟨script, others, rfl, hcut.1⟩

private theorem nameText_ne_empty {tokens : List Token} {token : Token} (hmem : token ∈ tokens)
    (hkind : token.kind = .value ∨ token.kind = .operator) (htext : token.text ≠ "") :
    nameText tokens ≠ "" := by
  obtain ⟨left, right, rfl⟩ := List.append_of_mem hmem
  intro hempty
  have hparts : (nameText left).toList ++ token.text.toList ++ (nameText right).toList = [] := by
    rw [← String.toList_empty, ← hempty]
    simp [nameText, hkind]
  simp only [List.append_eq_nil_iff, String.toList_eq_nil_iff] at hparts
  exact htext hparts.1.2

/-- A script whose name goes on has another name if the name is ended before. -/
theorem differ_endName {options : Options} {line : Nat} {name : List Token}
    {assembler : Assembler} (hfits : Fits options (.heading line name) assembler)
    {tokens : List Token} (hgoes : nameGoesOn tokens = true)
    (htexts : ∀ token ∈ tokens, token.kind = .value ∨ token.kind = .operator → token.text ≠ "")
    (endLine : Nat) (others : List Token) :
    Differ (assembler.results endLine tokens) (assembler.endName.results endLine others) := by
  intro scripts hscripts hothers
  obtain ⟨more, body, ends, later, hregions, hsubset, hparts⟩ := goesOn endLine line name tokens
  obtain ⟨part, hmem, hkind⟩ := hparts hgoes
  obtain ⟨otherBody, otherEnds, otherLater, hended⟩ := regions_inside endLine line name [] others
  rw [results_of_fits hfits, hregions] at hscripts
  rw [results_of_fits hfits.endName, hended] at hothers
  obtain ⟨script, rest, rfl, hlong⟩ := cutAfterError_cons hscripts
  obtain ⟨other, otherRest, hsame, hshort⟩ := cutAfterError_cons hothers
  obtain rfl := (List.cons.inj hsame).1
  have hnames : nameText (name ++ more) = nameText name :=
    (name_build hlong).symm.trans (name_build hshort)
  have hempty : nameText more = "" := by
    have happend : nameText (name ++ more) = nameText name ++ nameText more := by
      simp [nameText]
    have hlists : (nameText name).toList ++ (nameText more).toList = (nameText name).toList := by
      rw [← String.toList_append, ← happend, hnames]
    exact String.toList_eq_nil_iff.mp (List.append_right_eq_self.mp hlists)
  exact nameText_ne_empty hmem hkind (htexts part (hsubset hmem) hkind) hempty

end Region

end SignalScript
