/-
# Host addresses

The gateway listens on a numeric address: four decimal numbers with dots between
them, none above 255 and none with a needless zero in front, or, in brackets, eight
hexadecimal groups with colons between them. Two colons in a row stand for one or more
groups of zeros, once; the last two groups may be written as four decimal numbers; and
the number of an interface may follow a percent sign. A name is not looked up.
-/
import NotificationRelay.Settings.Basic
import NotificationRelay.Text.Numeral

namespace NotificationRelay
namespace Gateway

/-- A number of at least one and at most `most` digits up to a bound: what follows it. -/
def dropNumber (base most bound : Nat) (isDigit : Char → Bool) (cs : List Char) :
    Option (List Char) :=
  let digits := cs.takeWhile isDigit
  if digits.isEmpty ∨ most < digits.length ∨ bound < Text.ofDigits base digits then none
  else some (cs.drop digits.length)

/-- A decimal number up to 255 without a needless zero: what follows it. -/
def dropOctet (cs : List Char) : Option (List Char) :=
  match cs with
  | '0' :: c :: rest => if Text.isDigit c then none else some (c :: rest)
  | _ => dropNumber 10 3 255 Text.isDigit cs

/-- A character: what follows it. -/
def dropChar (c : Char) : List Char → Option (List Char)
  | d :: rest => if d = c then some rest else none
  | [] => none

/-- Four decimal numbers with dots between them: what follows them. -/
def dropQuad (cs : List Char) : Option (List Char) := do
  let cs ← dropOctet cs
  let cs ← (dropChar '.' cs).bind dropOctet
  let cs ← (dropChar '.' cs).bind dropOctet
  (dropChar '.' cs).bind dropOctet

/-- A colon, unless nothing stands before it: what follows it. -/
def dropSeparator (isFirst : Bool) (cs : List Char) : Option (List Char) :=
  if isFirst then some cs else dropChar ':' cs

/-- A hexadecimal group: what follows it. -/
def dropGroup (cs : List Char) : Option (List Char) := dropNumber 16 4 0xFFFF Text.isHexDigit cs

/-- Groups, as many as there are and at most `most`: their number, whether the last two
were written as decimal numbers, and what follows them. -/
def dropGroups (isFirst : Bool) : (most : Nat) → List Char → Nat × Bool × List Char
  | 0, cs => (0, false, cs)
  | most + 1, cs =>
    match if most = 0 then none else (dropSeparator isFirst cs).bind dropQuad with
    | some rest => (2, true, rest)
    | none =>
      match (dropSeparator isFirst cs).bind dropGroup with
      | none => (0, false, cs)
      | some rest =>
        let (count, decimal, rest) := dropGroups false most rest
        (count + 1, decimal, rest)

/-- Eight groups, some of which may be left out once: what follows them. -/
def dropLong (cs : List Char) : Option (List Char) :=
  let (count, decimal, rest) := dropGroups true 8 cs
  if count = 8 then some rest
  else if decimal then none
  else
    match (dropChar ':' rest).bind (dropChar ':') with
    | none => none
    | some rest => some (dropGroups true (7 - count) rest).2.2

/-- The number of an interface after a percent sign, if there is one: what follows it. -/
def dropScope (cs : List Char) : Option (List Char) :=
  match cs with
  | '%' :: rest => dropNumber 10 rest.length 4294967295 Text.isDigit rest
  | _ => some cs

/-- Whether a text is a numeric address. -/
def isHostAddress (host : String) : Bool :=
  match host.toList with
  | '[' :: rest => ((dropLong rest).bind dropScope) == some [']']
  | cs => dropQuad cs == some []

/-- The address on which a gateway listens. -/
def listenAddress (l : Settings.Listener) : Except SettingsError String :=
  if isHostAddress l.host then .ok (l.host ++ ":" ++ toString l.port)
  else .error (.invalid .listenAddress)

end Gateway
end NotificationRelay
