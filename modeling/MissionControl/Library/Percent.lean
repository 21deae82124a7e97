import MissionControl.Library.Utf8

/-!
# Percent encoding

A text in which `%` and two hexadecimal digits stand for an octet. Reading is strict: it
fails where a percent sign has no digits behind it, and where the octets are not UTF-8. It
runs the decoder of `Utf8` over the pieces of the text – characters and octets – so that
octets of one character have to stand next to each other.
-/

namespace Percent

def hexDigit (c : Char) : Option ℕ :=
  if '0' ≤ c ∧ c ≤ '9' then some (c.toNat - '0'.toNat)
  else if 'a' ≤ c ∧ c ≤ 'f' then some (c.toNat - 'a'.toNat + 10)
  else if 'A' ≤ c ∧ c ≤ 'F' then some (c.toNat - 'A'.toNat + 10)
  else none

inductive Piece where
  | char (c : Char)
  | octet (b : ℕ)

/-- **The pieces of a text**; none if a percent sign stands alone. -/
def pieces : List Char → Option (List Piece)
  | [] => some []
  | '%' :: a :: b :: s => do
    let x ← hexDigit a
    let y ← hexDigit b
    let rest ← pieces s
    return .octet (16 * x + y) :: rest
  | '%' :: _ => none
  | c :: s => do
    let rest ← pieces s
    return .char c :: rest

/-- The characters that pieces bring, from where the decoder stands. -/
def decodePieces : Utf8.State → List Piece → Option (List Char)
  | .start, [] => some []
  | .start, .char c :: ps => (decodePieces .start ps).map (c :: ·)
  | .start, .octet b :: ps =>
    match Utf8.first b with
    | none => none
    | some (out, s) => (decodePieces s ps).map (out ++ ·)
  | .need 0 lower upper code, .octet b :: ps =>
    if lower ≤ b ∧ b ≤ upper then
      (decodePieces .start ps).map (Char.ofNat (code * 64 + (b - 0x80)) :: ·)
    else none
  | .need (more + 1) lower upper code, .octet b :: ps =>
    if lower ≤ b ∧ b ≤ upper then
      decodePieces (.need more 0x80 0xBF (code * 64 + (b - 0x80))) ps
    else none
  | .need _ _ _ _, _ => none

/-- **The text that is encoded**; none if it is not encoded well. -/
def decode (s : List Char) : Option (List Char) := (pieces s).bind (decodePieces .start)

example : decode "a%C3%A9".toList = some "aé".toList := by decide

example : decode "%C3".toList = none := by decide

end Percent
