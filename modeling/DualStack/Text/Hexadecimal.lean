/-!
# Hexadecimal text

Addresses and bytes are shown to a reader in base sixteen: an `x`, then upper-case digits, at least
two of them (`Text.hexadecimal`).
-/

set_option autoImplicit false
set_option relaxedAutoImplicit false

namespace DualStack.Text

/-- The upper-case hexadecimal digits of a number, without leading zeros. -/
def hexDigits (value : Nat) : List Char := (Nat.toDigits 16 value).map Char.toUpper

/-- The way an address or a byte is shown: `5` is `x05` and `300` is `x12C`. -/
def hexadecimal (value : Nat) : String :=
  String.ofList ('x' :: (hexDigits value).leftpad 2 '0')

end DualStack.Text
