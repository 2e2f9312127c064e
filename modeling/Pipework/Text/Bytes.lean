/-!
# Lengths in bytes

The length that a text has in UTF-8.  Limits and margins are counted in it where they are counted in
bytes.
-/

namespace Pipework.Text

/-- The number of bytes of a text. -/
def byteCount : List Char → Nat
  | [] => 0
  | c :: rest => c.utf8Size + byteCount rest

end Pipework.Text
