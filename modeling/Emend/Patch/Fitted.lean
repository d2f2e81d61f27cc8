import Emend.Console
import Emend.Patch.Diff
import Emend.Patch.Excerpt
import Emend.Value

/-!
# Patches shown by settings

How much of a patch is shown is decided by settings, which can hold any value. A whole number is a
number of lines. A fraction is accepted as long as it decides nothing: where it would become a line
number or a count of lines it is refused, and where the end of the text or a smaller limit wins it
is not. Any other value is refused.
-/

namespace Emend

namespace Setting

/-- The greater of two numbers; the first, if they cannot be told apart. -/
def greater (a b : Number) : Number := if b.isAbove a then b else a

/-- The smaller of two numbers; the first, if they cannot be told apart. -/
def smaller (a b : Number) : Number := if a.isAbove b then b else a

/-- A number that must be whole. -/
def whole : Number → Except Fault Int
  | .int n => .ok n
  | .float _ => .error (.setting .notWhole)

theorem isAbove_int (a b : Int) : (Number.int a).isAbove (.int b) = decide (b < a) := by
  simp [Number.isAbove, Number.compare?, Int.compare_eq_gt]

theorem greater_int (a b : Int) : greater (.int a) (.int b) = .int (max a b) := by
  rw [greater, isAbove_int]
  by_cases above : a < b
  · simp [above, Int.max_eq_right (Int.le_of_lt above)]
  · simp [above, Int.max_eq_left (Int.not_lt.mp above)]

theorem smaller_int (a b : Int) : smaller (.int a) (.int b) = .int (min a b) := by
  rw [smaller, isAbove_int]
  by_cases above : b < a
  · simp [above, Int.min_eq_right (Int.le_of_lt above)]
  · simp [above, Int.min_eq_left (Int.not_lt.mp above)]

end Setting

namespace Patch

/-- The excerpt with as many lines of context as a setting says. -/
def excerptBy (p : Patch) (context : Value) : Except Fault (List Fragment) := do
  let (first, last) := p.lineRange
  match context.number? with
  | none => .error (.setting (.notSubtractable context.typeName))
  | some n =>
    let top ← Setting.whole (Setting.greater (.int 0) (.minus first n))
    let bottom ← Setting.whole
      (Setting.smaller (.int ((p.source.lineCount : Int) - 1)) (.plus last n))
    p.excerptBetween top.toNat bottom

/-- The diff in as many lines as a setting says. -/
def diffBy (p : Patch) (limit : Value) : Except Fault (List Fragment) := do
  match limit.number? with
  | none => .error (.setting (.notComparable limit.typeName "int"))
  | some n =>
    match Setting.greater (.int 3) n with
    | .int n => .ok (p.diff n)
    | .float x =>
      let length := p.diffLines.length
      if (Number.int length).isAbove (.float x) then .error (.setting .notCount)
      else .ok (p.diff length)

/-- A whole number of lines of context is taken as it is. -/
theorem excerptBy_int (p : Patch) (context : Int) :
    p.excerptBy (.int context) = p.excerpt context := by
  have top : (max 0 ((p.lineRange.1 : Int) - context)).toNat = p.excerptTop context := by
    rw [excerptTop]
    omega
  simp only [excerptBy, Value.number?, Number.minus, Number.plus, Setting.greater_int,
    Setting.smaller_int, Setting.whole]
  rw [excerpt, ← top]
  rfl

/-- A whole number of lines for a diff is never refused. -/
theorem diffBy_int (p : Patch) (limit : Int) : p.diffBy (.int limit) = .ok (p.diff limit) := by
  have same : max 3 (max 3 limit) = max 3 limit := by omega
  simp only [diffBy, Value.number?, Setting.greater_int, diff, diffBody, same]

end Patch

/-- The number of lines that a screen has for a diff: what is left of its rows, but not less than
the minimum; without a screen, the fallback. -/
def Screen.room (screen : Screen) (reserved minimum fallback : Value) : Except Fault Value :=
  if screen.ansi then
    match reserved.number? with
    | none => .error (.setting (.notSubtractable reserved.typeName))
    | some n =>
      let left := Number.minus screen.rows n
      match minimum.number? with
      | none =>
        .error (.setting (.notComparable (Value.ofNumber left).typeName minimum.typeName))
      | some m => .ok (if left.isAbove m then .ofNumber left else minimum)
  else .ok fallback

end Emend
