/-!
# Hexadecimal Numbers

Addresses and magic numbers are written with `0x` and lower-case digits, either without padding
or padded with zeros to a number of digits.
-/

namespace DllGraph.Text

/-- The hexadecimal digits of a number, without padding. -/
def hexDigits (n : Nat) : List Char :=
  Nat.toDigits 16 n

/-- A number in hexadecimal, such as `0x1f`. -/
def hex (n : Nat) : String :=
  "0x" ++ String.ofList (hexDigits n)

/-- A number in hexadecimal with at least `width` digits, such as `0x001f`. -/
def hexPadded (width n : Nat) : String :=
  let ds := hexDigits n
  "0x" ++ String.ofList (List.replicate (width - ds.length) '0' ++ ds)

end DllGraph.Text
