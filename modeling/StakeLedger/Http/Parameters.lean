import StakeLedger.Text.Utf8
import StakeLedger.Text.Pieces

/-!
# Parameters of a request

The query of a request names parameters and their values, percent-encoded and
separated by ampersands.  A plus sign is a blank, octets that are not UTF-8 read
as U+FFFD, and of equal names the last one counts.

Main definitions:

- {lit}`Http.unescape`: the text that an encoded text stands for.
- {lit}`Http.Parameters.parse`: the names and values of a query.
- {lit}`Http.Parameters.value`: the value of a name.
-/

namespace StakeLedger.Http

/-- The octets that an encoded text stands for; a percent sign without two
hexadecimal digits stands for itself. -/
def unescapeOctets : List Char → Octets
  | [] => []
  | '%' :: high :: low :: rest =>
      match Hex.value? high, Hex.value? low with
      | some h, some l => UInt8.ofNat (16 * h + l) :: unescapeOctets rest
      | _, _ => Utf8.encodeChar '%' ++ unescapeOctets (high :: low :: rest)
  | '+' :: rest => Utf8.encodeChar ' ' ++ unescapeOctets rest
  | c :: rest => Utf8.encodeChar c ++ unescapeOctets rest

/-- The text that an encoded text stands for. -/
def unescape (text : List Char) : String :=
  String.ofList (Utf8.decodeLossy (unescapeOctets text))

/-- Names and values in the order of a query. -/
abbrev Parameters := List (String × String)

namespace Parameters

/-- The name and the value of a piece; without an equals sign the value is empty. -/
def pair (piece : List Char) : String × String :=
  (unescape (piece.takeWhile (· ≠ '=')), unescape ((piece.dropWhile (· ≠ '=')).drop 1))

/-- The names and values of a query; empty pieces are left out. -/
def parse (query : String) : Parameters :=
  ((pieces '&' query.toList).filter fun piece => !piece.isEmpty).map pair

/-- The last value of a name, or the empty text. -/
def value (ps : Parameters) (name : String) : String :=
  (ps.reverse.lookup name).getD ""

end Parameters

end StakeLedger.Http
