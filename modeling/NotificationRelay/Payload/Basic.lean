/-
# Payloads

The signed content of a notification travels through the relay as it was received.
The relay reads its kind and its texts, and it writes two fields, the identifier and
the epoch of the feed that carries it; fields it does not know are kept. Recipients
are one address, a list, or an object whose keys are addresses, and they keep that
shape. `toJson` and `ofJson` are the two directions of the format.
-/
import NotificationRelay.Payload.Kind
import NotificationRelay.Text.Lower

namespace NotificationRelay

namespace Payload

/-- The addresses in a payload, in the shape they were received in. -/
inductive Recipients where
  | one (address : String)
  | many (addresses : List String)
  | keyed (fields : List (String × Json))

/-- The title and the body that are shown to a person. -/
structure Caption where
  title : String
  body : String

/-- The structured part of a payload. -/
structure Data where
  kind : Kind
  /-- The identifier of the feed, once it is known. -/
  sid : Option String
  /-- The epoch of the feed, once it is known. -/
  epoch : Option String
  asub : String
  amsg : String
  /-- Fields that the relay does not read. -/
  extra : List (String × Json)

end Payload

/-- The content of a notification. -/
structure Payload where
  data : Payload.Data
  caption : Payload.Caption
  recipients : Payload.Recipients
  proof : String

namespace Payload

/-- The addresses that a payload lists. -/
def Recipients.addresses : Recipients → List String
  | .one address => [address]
  | .many addresses => addresses
  | .keyed fields => fields.map Prod.fst

/-- The payload stamped with the identifier and the epoch of its feed. -/
def enrich (p : Payload) (id epoch : Int) : Payload :=
  { p with data := { p.data with sid := some (toString id), epoch := some (toString epoch) } }

/-- The texts that a search looks into. -/
def searchable (p : Payload) : List String :=
  [p.caption.title, p.caption.body, p.data.asub, p.data.amsg]

/-- Whether a lower-case term occurs in the lower-case form of a searchable text. -/
def matchesTerm (p : Payload) (term : String) : Bool :=
  p.searchable.any fun text => Text.occursIn term.toList (Text.lowerChars text.toList)

/-! ## Writing -/

/-- The recipients in their shape. -/
def Recipients.toJson : Recipients → Json
  | .one address => .string address
  | .many addresses => .texts addresses
  | .keyed fields => .object fields

/-- A field that is left out when it has no value. -/
def optionalField (name : String) : Option String → List (String × Json)
  | some s => [(name, .string s)]
  | none => []

/-- The structured part, unknown fields last. -/
def Data.toJson (d : Data) : Json :=
  .object (("type", d.kind.toJson) :: (optionalField "sid" d.sid ++ optionalField "epoch" d.epoch
    ++ ("asub", .string d.asub) :: ("amsg", .string d.amsg) :: d.extra))

/-- The title and the body. -/
def Caption.toJson (c : Caption) : Json :=
  .object [("title", .string c.title), ("body", .string c.body)]

/-- The payload as a value. -/
def toJson (p : Payload) : Json :=
  .object [("data", p.data.toJson), ("notification", p.caption.toJson),
    ("recipients", p.recipients.toJson), ("verificationProof", .string p.proof)]

/-! ## Reading -/

open Json (Decoder asString asOption asList asRecord passes checkAll)

/-- The fields of the structured part that have a meaning here. -/
def knownFields : List String := ["type", "sid", "epoch", "asub", "amsg"]

/-- The check of a field of the structured part. -/
def checkData (name : String) : Decoder Unit :=
  if name = "type" then passes Kind.ofJson
  else if name = "sid" ∨ name = "epoch" then passes (asOption asString)
  else if name = "asub" ∨ name = "amsg" then passes asString
  else fun _ => .ok ()

/-- Reads the structured part, which must be an object. -/
def Data.ofJson : Decoder Data
  | .object fields =>
    match checkAll checkData fields with
    | .error e => .error e
    | .ok () => do
      let r : Json.Record := ⟨fields, true⟩
      let kind ← r.required "type" Kind.ofJson
      let sid ← r.optional "sid" asString
      let epoch ← r.optional "epoch" asString
      let asub ← r.withDefault "asub" "" asString
      let amsg ← r.withDefault "amsg" "" asString
      pure ⟨kind, sid, epoch, asub, amsg, fields.filter fun f => !knownFields.contains f.1⟩
  | _ => .error .mismatch

/-- The check of a field of the caption. -/
def checkCaption (name : String) : Decoder Unit :=
  if name = "title" ∨ name = "body" then passes asString else fun _ => .ok ()

/-- Reads the title and the body. -/
def Caption.ofJson (v : Json) : Except DecodeError Caption := do
  let r ← asRecord ["title", "body"] checkCaption v
  let title ← r.withDefault "title" "" asString
  let body ← r.withDefault "body" "" asString
  pure ⟨title, body⟩

/-- Reads recipients of any shape. -/
def Recipients.ofJson : Decoder Recipients
  | .string address => .ok (.one address)
  | .object fields => .ok (.keyed fields)
  | v => (asList asString v).map .many

/-- The check of a field of a payload. -/
def check (name : String) : Decoder Unit :=
  if name = "data" then passes Data.ofJson
  else if name = "notification" then passes Caption.ofJson
  else if name = "recipients" then passes Recipients.ofJson
  else if name = "verificationProof" then passes asString
  else fun _ => .ok ()

/-- Reads a payload. -/
def ofJson (v : Json) : Except DecodeError Payload := do
  let r ← asRecord ["data", "notification", "recipients", "verificationProof"] check v
  let data ← r.required "data" Data.ofJson
  let caption ← r.withDefault "notification" ⟨"", ""⟩ Caption.ofJson
  let recipients ← r.required "recipients" Recipients.ofJson
  let proof ← r.withDefault "verificationProof" "" asString
  pure ⟨data, caption, recipients, proof⟩

end Payload
end NotificationRelay
