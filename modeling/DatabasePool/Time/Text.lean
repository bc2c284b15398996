import DatabasePool.Text.Decimal
import DatabasePool.Time

/-!
# A span in its largest unit

A span is written in the largest of the units second, millisecond,
microsecond and nanosecond of which it holds at least one, with the fewest
digits that are exact: `1.5s`, `100ms`, `1.000001ms`, `0ns`.
-/

namespace DatabasePool.Time

/-- The nanoseconds of one microsecond. -/
def perMicro : Nat := 1000

/-- The text of a span. -/
def text (span : Nat) : String :=
  if perSecond ≤ span then
    Text.numeral (span / perSecond) ++ Text.fraction 9 (span % perSecond) ++ "s"
  else if perMilli ≤ span then
    Text.numeral (span / perMilli) ++ Text.fraction 6 (span % perMilli) ++ "ms"
  else if perMicro ≤ span then
    Text.numeral (span / perMicro) ++ Text.fraction 3 (span % perMicro) ++ "µs"
  else
    Text.numeral span ++ "ns"

end DatabasePool.Time
