/-!
What can be wrong with the text of a regular expression.
-/

namespace MetaFed.Regex

inductive Trouble where
  | malformed
  /-- A bound of a repetition does not fit into 32 bits. -/
  | hugeBound
  /-- The whole expression is to be read both by ASCII and by Unicode. -/
  | clashingFlags
  deriving DecidableEq, Repr

end MetaFed.Regex
