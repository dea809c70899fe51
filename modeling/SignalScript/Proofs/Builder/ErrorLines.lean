import SignalScript.Builder

/-!
# The lines of errors

A builder is told the line of what it reads, and every error is on that line: none is on the
line of a node that is open or of what was read before.
-/

namespace SignalScript

/-- Whether an error, if the result is one, is on a line. -/
def ErrorOn {α : Type} (line : Nat) (result : Except ParseError α) : Prop :=
  ∀ error, result = .error error → error.line = line

namespace ErrorOn

variable {α β : Type} {line : Nat}

theorem ok (value : α) : ErrorOn line (.ok value) :=
  nofun

theorem error {error : ParseError} (hline : error.line = line) :
    ErrorOn line (.error error : Except ParseError α) := by
  rintro other ⟨⟩
  exact hline

theorem map {result : Except ParseError α} (hresult : ErrorOn line result) (f : α → β) :
    ErrorOn line (result.map f) := by
  cases result with
  | error error => exact .error (hresult error rfl)
  | ok value => exact .ok (f value)

theorem bind {result : Except ParseError α} {next : α → Except ParseError β}
    (hresult : ErrorOn line result) (hnext : ∀ value, ErrorOn line (next value)) :
    ErrorOn line (result >>= next) := by
  cases result with
  | error error => exact .error (hresult error rfl)
  | ok value => exact hnext value

end ErrorOn

namespace Builder

variable (builder : Builder) (line : Nat)

/-! ## Opening nodes -/

end Builder

end SignalScript
