/-
# Addresses

Recipients and sessions are found under one canonical form of their address. An
account address is `0x` and forty hexadecimal digits, alone or after `eip155:` and
any chain segments; all its spellings become `eip155:0x…` in small letters. Any other
address is a namespace, a colon and a rest, both not empty, in small ASCII letters.
Blanks are cut from the ends and refused inside.
-/
import NotificationRelay.Text.Lower
import NotificationRelay.Text.Numeral

namespace NotificationRelay
namespace Address

/-- The namespace of account addresses, with its colon. -/
def accountSpace : List Char := "eip155:".toList

/-- What stands before the digits of an account address. -/
def hexMark : List Char := "0x".toList

/-- `0x` and forty hexadecimal digits. -/
def isAccount (cs : List Char) : Bool :=
  hexMark.isPrefixOf cs && (cs.drop 2).length == 40 && (cs.drop 2).all Text.isHexDigit

/-- What follows the last colon of a text, or all of it. -/
def lastSegment (cs : List Char) : List Char :=
  (cs.reverse.takeWhile (· != ':')).reverse

/-- A namespace and a rest around the first colon, both not empty. -/
def isNamespaced (cs : List Char) : Bool :=
  !(cs.takeWhile (· != ':')).isEmpty && 1 < (cs.dropWhile (· != ':')).length

/-- The canonical form of an address in small letters without blanks. -/
def canonical? (cs : List Char) : Option (List Char) :=
  if accountSpace.isPrefixOf cs then
    let account := lastSegment (cs.drop accountSpace.length)
    if isAccount account then some (accountSpace ++ account) else none
  else if hexMark.isPrefixOf cs then
    if isAccount cs then some (accountSpace ++ cs) else none
  else if isNamespaced cs then some cs
  else none

/-- The canonical form of an address as written. -/
def normalizeChars (raw : List Char) : Option (List Char) :=
  let trimmed := Text.trimChars raw
  if trimmed.isEmpty || trimmed.any Text.isBlank then none
  else canonical? (Text.asciiLower trimmed)

/-- The canonical form of an address as written, if it is one. -/
def normalize (raw : String) : Option String :=
  (normalizeChars raw.toList).map String.ofList

end Address
end NotificationRelay
