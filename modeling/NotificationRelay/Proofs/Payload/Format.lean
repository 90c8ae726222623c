/-
# The format of payloads loses nothing

A payload that was read from a value can be written and read again, any number of times, and its
identifier and epoch may be filled in meanwhile: it stays the same payload
(`Payload.format_round_trip`). Fields of its data that the relay does not know are written as they
came, and no field is added but those the relay knows; the recipients are the value they came as.

Two values may be read as one payload: a kind may be given as a number or as a text, a record as an
object or as an array, and fields may be left out. What is kept of the value is said by
`Payload.Received`, which the stamp of a feed leaves alone (`Payload.Received.enrich`) and from
which both ways of writing are derived: with the fields in the order of declaration
(`Payload.toJson`), and as a value that is held in key order (`Payload.held`).
-/
import NotificationRelay.Payload.Basic
import NotificationRelay.Proofs.Json.Order

namespace NotificationRelay

/-- A kind is read from the number that it is written as. -/
@[simp]
theorem Kind.ofJson_toJson (kind : Kind) : Kind.ofJson kind.toJson = .ok kind := by
  cases kind <;> rfl

namespace Payload

open Json

/-- The fields of a payload in the order of declaration. -/
def fieldNames : List String := ["data", "notification", "recipients", "verificationProof"]

/-- A field of a payload, which is written as an object or as an array. -/
def part? (name : String) : Json → Option Json
  | .object fields => find? name fields
  | .array items => find? name (fieldNames.zip items)
  | _ => none

/-- A payload as a value is held: with the fields of every object in key order. -/
def held (p : Payload) : Json := p.toJson.arranged

/-- The fields of data that the relay does not know. -/
def unknown (fields : List (String × Json)) : List (String × Json) :=
  fields.filter fun f => !knownFields.contains f.1

/-- What becomes of the fields of data when they are read and written: a field that the relay does
not know keeps its value, and every other one is one of the five that it knows. -/
structure Carries (fields encoded : List (String × Json)) : Prop where
  unchanged : ∀ key ∉ knownFields, find? key encoded = find? key fields
  nothing_else : ∀ key ∈ keys encoded, key ∈ knownFields ∨ key ∈ keys fields
  once : (keys fields).Nodup → (keys encoded).Nodup

/-- What a value in which a payload was received and one in which it is written have in common. -/
structure Preserves (v w : Json) : Prop where
  data : ∃ fields encoded, part? "data" v = some (.object fields) ∧
    part? "data" w = some (.object encoded) ∧ Carries fields encoded
  recipients : ∃ r, part? "recipients" v = some r ∧ part? "recipients" w = some r

/-- A way of writing payloads loses nothing of one that was read from a value as `p`. -/
structure RoundTrip (encode : Payload → Json) (v : Json) (p : Payload) : Prop where
  reread : ofJson (encode p) = .ok p
  reread_enriched : ∀ id epoch, ofJson (encode (p.enrich id epoch)) = .ok (p.enrich id epoch)
  preserves : Preserves v (encode p)
  preserves_enriched : ∀ id epoch, Preserves v (encode (p.enrich id epoch))
  idempotent : (ofJson (encode p)).map encode = .ok (encode p)

variable {v r : Json} {p : Payload} {fields others : List (String × Json)}

/-- The unknown fields are those under other keys than the known ones. -/
theorem mem_unknown {f : String × Json} : f ∈ unknown fields ↔ f ∈ fields ∧ f.1 ∉ knownFields := by
  simp [unknown]

theorem unknown_append : unknown (fields ++ others) = unknown fields ++ unknown others :=
  List.filter_append _ _

/-! ## Recipients -/

/-- A list that is read as texts is a list of texts. -/
theorem readAll_asString {items : List Json} {l : List String}
    (read : readAll asString items = .ok l) : items = l.map .string := by
  induction items generalizing l with
  | nil =>
    cases read
    rfl
  | cons v rest ih =>
    cases v with
    | string s =>
      cases h : readAll asString rest with
      | error e => simp [readAll, asString, h, Except.map] at read
      | ok l =>
        simp only [readAll, asString, h, Except.map, Except.ok.injEq] at read
        rw [← read, ih h, List.map_cons]
    | null | bool | number | array | object => cases read

/-- Texts that are written as a list are read back. -/
theorem readAll_asString_map (l : List String) : readAll asString (l.map .string) = .ok l := by
  induction l with
  | nil => rfl
  | cons s l ih => simp [readAll, asString, ih, Except.map]

/-- **Recipients are written in the shape they were received in.** -/
theorem Recipients.toJson_ofJson {rs : Recipients} (read : Recipients.ofJson r = .ok rs) :
    rs.toJson = r := by
  cases r with
  | string | object =>
    cases read
    rfl
  | array items =>
    cases h : readAll asString items with
    | error e => simp [Recipients.ofJson, asList, h, Except.map] at read
    | ok l =>
      simp only [Recipients.ofJson, asList, h, Except.map, Except.ok.injEq] at read
      rw [← read, readAll_asString h]
      rfl
  | null | bool | number => cases read

/-- Recipients are read back in the shape in which they were written. -/
@[simp]
theorem Recipients.ofJson_toJson (rs : Recipients) : Recipients.ofJson rs.toJson = .ok rs := by
  cases rs with
  | one | keyed => rfl
  | many l => simp [Recipients.toJson, texts, Recipients.ofJson, asList, readAll_asString_map,
      Except.map]

/-! ## The structured part -/

namespace Data

variable {d : Data}

/-- The fields that are written for the structured part, but for the unknown ones. -/
def head (d : Data) : List (String × Json) :=
  ("type", d.kind.toJson) :: (optionalField "sid" d.sid ++ optionalField "epoch" d.epoch ++
    [("asub", .string d.asub), ("amsg", .string d.amsg)])

/-- Data is written as its own fields, followed by the unknown ones. -/
theorem toJson_eq (d : Data) : d.toJson = .object (d.head ++ d.extra) := by
  simp [Data.toJson, head]

/-- The fields that data writes itself have known keys, each once. -/
theorem keys_head (d : Data) : (keys d.head).Sublist knownFields := by
  obtain ⟨kind, sid, epoch, asub, amsg, extra⟩ := d
  cases sid <;> cases epoch <;>
    simp [head, keys, optionalField, knownFields]

/-- Data writes its kind, and texts under the other known keys. -/
theorem mem_head {f : String × Json} (hf : f ∈ d.head) : f = ("type", d.kind.toJson) ∨
    f.1 ∈ ["sid", "epoch", "asub", "amsg"] ∧ ∃ s, f.2 = .string s := by
  obtain ⟨kind, sid, epoch, asub, amsg, extra⟩ := d
  cases sid <;> cases epoch <;>
    simp only [head, optionalField, List.nil_append, List.cons_append, List.mem_cons,
      List.not_mem_nil, or_false] at hf <;>
    rcases hf with rfl | rfl | rfl | rfl | rfl <;> simp

/-- The fields that data writes itself pass their checks. -/
theorem checkData_head {f : String × Json} (hf : f ∈ d.head) : checkData f.1 f.2 = .ok () := by
  obtain rfl | ⟨name, s, value⟩ := mem_head hf
  · simp [checkData, passes, Except.map]
  · rw [value]
    simp only [List.mem_cons, List.not_mem_nil, or_false] at name
    rcases name with name | name | name | name <;>
      simp [name, checkData, passes, asString, asOption, Except.map]

/-- Nothing needs to be rearranged within the fields that data writes itself. -/
theorem arranged_head {f : String × Json} (hf : f ∈ d.head) : f.2.Arranged := by
  obtain rfl | ⟨-, s, value⟩ := mem_head hf
  · exact .number _
  · exact value ▸ .string s

/-- A field under an unknown key is not checked. -/
theorem checkData_of_unknown {f : String × Json} (hf : f.1 ∉ knownFields) :
    checkData f.1 f.2 = .ok () := by
  simp only [knownFields, List.mem_cons, List.not_mem_nil, or_false, not_or] at hf
  simp [checkData, hf]

/-- Unknown fields that follow the known ones are read as such. -/
theorem unknown_fields (unknownOnly : ∀ f ∈ d.extra, f.1 ∉ knownFields) :
    unknown (d.head ++ d.extra) = d.extra := by
  have dropped : unknown d.head = [] := List.filter_eq_nil_iff.2 fun f hf => by
    simpa using d.keys_head.subset (List.mem_map_of_mem hf)
  have kept : unknown d.extra = d.extra := List.filter_eq_self.2 fun f hf => by
    simpa using unknownOnly f hf
  rw [unknown_append, dropped, kept, List.nil_append]

/-- A known key is not found among unknown fields. -/
theorem find?_extra {key : String} (unknownOnly : ∀ f ∈ d.extra, f.1 ∉ knownFields)
    (known : key ∈ knownFields) : find? key d.extra = none :=
  find?_eq_none_iff.2 fun listed => by
    obtain ⟨f, hf, rfl⟩ := List.mem_map.1 listed
    exact unknownOnly f hf known

/-- The structured part is read from its fields, whatever unknown ones follow the known ones. -/
theorem ofJson_toJson (unknownOnly : ∀ f ∈ d.extra, f.1 ∉ knownFields) :
    ofJson d.toJson = .ok d := by
  have checked : checkAll checkData (d.head ++ d.extra) = .ok () :=
    checkAll_eq_ok_iff.2 fun f hf => (List.mem_append.1 hf).elim checkData_head fun hf =>
      checkData_of_unknown (unknownOnly f hf)
  have others := unknown_fields unknownOnly
  rw [unknown] at others
  have noSid : find? "sid" d.extra = none := find?_extra unknownOnly (by decide)
  have noEpoch : find? "epoch" d.extra = none := find?_extra unknownOnly (by decide)
  rw [toJson_eq]
  simp only [ofJson, checked, others]
  obtain ⟨kind, sid, epoch, asub, amsg, extra⟩ := d
  cases sid <;> cases epoch <;>
    simp [head, optionalField, find?, noSid, noEpoch, Record.required, Record.optional,
      Record.withDefault, asOption, asString, Except.map, bind, Except.bind, pure, Except.pure]

/-- The order of the fields shows in the unknown ones only. -/
theorem ofJson_of_perm (once : (keys fields).Nodup) (perm : others.Perm fields)
    (read : ofJson (.object fields) = .ok d) :
    ofJson (.object others) = .ok { d with extra := unknown others } := by
  have same : ∀ key, find? key others = find? key fields := fun key => find?_eq_of_perm once perm
  suffices alike : ofJson (.object others) =
      (fun d => { d with extra := unknown others }) <$> ofJson (.object fields) by
    rw [alike, read]
    rfl
  cases checked : checkAll checkData fields with
  | error e => simp [ofJson, checked] at read
  | ok u =>
    have checkedToo : checkAll checkData others = .ok () :=
      checkAll_eq_ok_iff.2 fun f hf => checkAll_eq_ok_iff.1 checked f (perm.mem_iff.1 hf)
    simp only [ofJson, checked, checkedToo, Record.required, Record.optional, Record.withDefault,
      same, map_bind, map_pure, unknown]

/-- What is read from an object are the values of the known keys, and the unknown fields. -/
theorem fields_of_ofJson (read : ofJson v = .ok d) :
    ∃ fields, v = .object fields ∧ d.extra = unknown fields := by
  cases v with
  | object fields =>
    refine ⟨fields, rfl, ?_⟩
    cases checked : checkAll checkData fields with
    | error e => simp [ofJson, checked] at read
    | ok u =>
      have extra : Data.extra <$> ofJson (.object fields) =
          (fun _ => unknown fields) <$> ofJson (.object fields) := by
        simp only [ofJson, checked, map_bind, map_pure, unknown]
      rw [read] at extra
      exact Except.ok.inj extra
  | null | bool | number | string | array => cases read

/-- Fields of data are carried by what is written for the data that was read from them. -/
theorem carries (extra : d.extra = unknown fields) : Carries fields (d.head ++ d.extra) where
  unchanged key strange := by
    have unwritten : find? key d.head = none :=
      find?_eq_none_iff.2 fun listed => strange (d.keys_head.subset listed)
    rw [find?_append, unwritten, Option.none_or, extra]
    exact find?_filter (fun key => !knownFields.contains key) (by simpa using strange)
  nothing_else key listed := by
    rw [keys_append] at listed
    obtain known | listed := List.mem_append.1 listed
    · exact .inl (d.keys_head.subset known)
    · obtain ⟨f, hf, rfl⟩ := List.mem_map.1 listed
      exact .inr (List.mem_map_of_mem (mem_unknown.1 (extra ▸ hf)).1)
  once once := by
    rw [keys_append]
    refine List.nodup_append.2 ⟨d.keys_head.nodup (by decide), ?_, fun a known b listed same => ?_⟩
    · rw [extra]
      exact once.sublist (List.filter_sublist.map Prod.fst)
    · obtain ⟨f, hf, rfl⟩ := List.mem_map.1 listed
      exact (mem_unknown.1 (extra ▸ hf)).2 (same ▸ d.keys_head.subset known)

end Data

/-- What is carried over by fields is carried over by them in any order, if no key occurs twice. -/
theorem Carries.of_perm {encoded : List (String × Json)} (carries : Carries fields encoded)
    (once : (keys fields).Nodup) (perm : others.Perm encoded) : Carries fields others where
  unchanged key strange :=
    (find?_eq_of_perm (carries.once once) perm).trans (carries.unchanged key strange)
  nothing_else key listed := carries.nothing_else key ((perm.map Prod.fst).mem_iff.1 listed)
  once _ := (perm.map Prod.fst).nodup_iff.2 (carries.once once)

/-! ## Payloads -/

/-- A caption is read back as it was written. -/
@[simp]
theorem Caption.ofJson_toJson (c : Caption) : Caption.ofJson c.toJson = .ok c := rfl

/-- A caption is read back from its fields in any order. -/
theorem Caption.ofJson_arranged (c : Caption) : Caption.ofJson c.toJson.arranged = .ok c := by
  have sorted : c.toJson.arranged =
      .object [("body", .string c.body), ("title", .string c.title)] := by
    simp only [toJson, arranged, arrangedFields, sortFields, insertField, List.foldl,
      String.reduceLT, reduceIte]
  rw [sorted]
  rfl

/-- A payload is read from its fields, each written in whatever way it can be read from. -/
theorem ofJson_object {d c : Json} (data : Data.ofJson d = .ok p.data)
    (caption : Caption.ofJson c = .ok p.caption) :
    ofJson (.object [("data", d), ("notification", c), ("recipients", p.recipients.toJson),
      ("verificationProof", .string p.proof)]) = .ok p := by
  simp [ofJson, asRecord, checkAll, check, passes, data, caption, Record.required,
    Record.withDefault, find?, asString, Except.map, bind, Except.bind, pure, Except.pure]

/-- The fields of a record are those of the value that it is read from. -/
theorem part?_of_asRecord {record : Record} (read : asRecord fieldNames check v = .ok record)
    (name : String) : part? name v = find? name record.fields := by
  cases v with
  | object fields =>
    cases checked : checkAll check fields with
    | error e => simp [asRecord, checked, Except.map] at read
    | ok u =>
      simp only [asRecord, checked, Except.map, Except.ok.injEq] at read
      rw [← read]
      rfl
  | array items =>
    cases checked : checkAll check (fieldNames.zip items) with
    | error e => simp [asRecord, checked] at read
    | ok u =>
      simp only [asRecord, checked] at read
      split at read
      · cases read
      · cases read
        rfl
  | null | bool | number | string => cases read

/-- What is kept in a payload of the value that it came as. -/
structure Received (v : Json) (fields : List (String × Json)) (p : Payload) : Prop where
  data : part? "data" v = some (.object fields)
  extra : p.data.extra = unknown fields
  recipients : part? "recipients" v = some p.recipients.toJson

/-- Whatever a payload was read from was received in one of the accepted shapes. -/
theorem received_of_ofJson (read : ofJson v = .ok p) : ∃ fields, Received v fields p := by
  obtain ⟨record, readRecord, read⟩ := ok_of_bind read
  obtain ⟨data, readData, read⟩ := ok_of_bind read
  obtain ⟨caption, -, read⟩ := ok_of_bind read
  obtain ⟨recipients, readRecipients, read⟩ := ok_of_bind read
  obtain ⟨proof, -, read⟩ := ok_of_bind read
  cases read
  have part := part?_of_asRecord readRecord
  obtain ⟨d, found, readData⟩ := Record.find?_of_required readData
  obtain ⟨fields, rfl, extra⟩ := Data.fields_of_ofJson readData
  obtain ⟨r, foundToo, readRecipients⟩ := Record.find?_of_required readRecipients
  refine ⟨fields, (part "data").trans found, extra, (part "recipients").trans ?_⟩
  rw [foundToo, Recipients.toJson_ofJson readRecipients]

namespace Received

/-- The identifier and the epoch of its feed may be written into a payload. -/
theorem enrich (received : Received v fields p) (id epoch : Int) :
    Received v fields (p.enrich id epoch) where
  data := received.data
  extra := received.extra
  recipients := received.recipients

/-- The unknown fields that were kept have unknown keys. -/
theorem unknownOnly (received : Received v fields p) : ∀ f ∈ p.data.extra, f.1 ∉ knownFields := by
  rw [received.extra]
  exact fun f hf => (mem_unknown.1 hf).2

/-- A payload that was received is read back as it was written. -/
theorem reread (received : Received v fields p) : ofJson p.toJson = .ok p :=
  ofJson_object (Data.ofJson_toJson received.unknownOnly) (Caption.ofJson_toJson p.caption)

/-- Writing a payload that was received preserves what it was read from. -/
theorem preserves (received : Received v fields p) : Preserves v p.toJson where
  data := ⟨fields, _, received.data, congrArg some p.data.toJson_eq, Data.carries received.extra⟩
  recipients := ⟨_, received.recipients, rfl⟩

/-- A payload that was received makes the round trip. -/
theorem roundTrip (received : Received v fields p) : RoundTrip toJson v p where
  reread := received.reread
  reread_enriched id epoch := (received.enrich id epoch).reread
  preserves := received.preserves
  preserves_enriched id epoch := (received.enrich id epoch).preserves
  idempotent := by rw [received.reread]; rfl

/-! ### Payloads that are held as values -/

/-- The parts of an arranged value are arranged. -/
theorem arranged_of_part? (arranged : v.Arranged) {name : String} {w : Json}
    (part : part? name v = some w) : w.Arranged := by
  cases arranged with
  | object each => exact each _ (mem_of_find? part)
  | array each => exact each _ (List.of_mem_zip (mem_of_find? part)).2
  | null | bool | number | string => cases part

/-- The fields of an arranged value stand in the order of their keys. -/
theorem ascending (received : Received v fields p) (arranged : v.Arranged) : Ascending fields := by
  cases arranged_of_part? arranged received.data with
  | object _ ascending => exact ascending

/-- The fields that are written for the data have no key twice, since those that were read have
not. -/
theorem once (received : Received v fields p) (arranged : v.Arranged) :
    (keys (p.data.head ++ p.data.extra)).Nodup :=
  (Data.carries received.extra).once (received.ascending arranged).nodup

/-- The data of a payload is arranged by sorting its fields. -/
theorem held_data (received : Received v fields p) (arranged : v.Arranged) :
    p.data.toJson.arranged = .object (sortFields (p.data.head ++ p.data.extra)) := by
  have each : ∀ f ∈ p.data.head ++ p.data.extra, f.2.arranged = f.2 := by
    intro f hf
    obtain hf | hf := List.mem_append.1 hf
    · exact (Data.arranged_head hf).arranged_eq
    · rw [received.extra] at hf
      cases arranged_of_part? arranged received.data with
      | object each => exact (each f (mem_unknown.1 hf).1).arranged_eq
  rw [Data.toJson_eq, Json.arranged, arrangedFields_eq each]

/-- A payload is held as an object with its parts in the order of their keys. -/
theorem held_eq (received : Received v fields p) (arranged : v.Arranged) :
    p.held = .object [("data", .object (sortFields (p.data.head ++ p.data.extra))),
      ("notification", p.caption.toJson.arranged), ("recipients", p.recipients.toJson),
      ("verificationProof", .string p.proof)] := by
  have recipients := (arranged_of_part? arranged received.recipients).arranged_eq
  have sorted : ∀ d c r s : Json,
      sortFields [("data", d), ("notification", c), ("recipients", r), ("verificationProof", s)] =
        [("data", d), ("notification", c), ("recipients", r), ("verificationProof", s)] := by
    intro d c r s
    simp only [sortFields, insertField, List.foldl, String.reduceLT, String.reduceEq, reduceIte]
  rw [held, toJson]
  simp only [Json.arranged, arrangedFields, received.held_data arranged, recipients, sorted]

/-- A payload is read back as it is held. -/
theorem reread_held (received : Received v fields p) (arranged : v.Arranged) :
    ofJson p.held = .ok p := by
  have once := received.once arranged
  have read := Data.ofJson_toJson received.unknownOnly
  rw [Data.toJson_eq] at read
  have extra : unknown (sortFields (p.data.head ++ p.data.extra)) = p.data.extra := by
    refine eq_of_perm ((ascending_sortFields _).filter _) ?_ ?_
    · rw [received.extra]
      exact (received.ascending arranged).filter _
    · exact ((sortFields_perm once).filter _).trans
        (.of_eq (Data.unknown_fields received.unknownOnly))
  have data := Data.ofJson_of_perm once (sortFields_perm once) read
  rw [extra] at data
  rw [received.held_eq arranged]
  exact ofJson_object data (Caption.ofJson_arranged p.caption)

/-- Holding a payload preserves what it was read from. -/
theorem preserves_held (received : Received v fields p) (arranged : v.Arranged) :
    Preserves v p.held where
  data := by
    have carries := (Data.carries received.extra).of_perm (received.ascending arranged).nodup
      (sortFields_perm (received.once arranged))
    exact ⟨fields, _, received.data, by rw [received.held_eq arranged]; rfl, carries⟩
  recipients := ⟨_, received.recipients, by rw [received.held_eq arranged]; rfl⟩

/-- A payload that is held makes the round trip. -/
theorem roundTrip_held (received : Received v fields p) (arranged : v.Arranged) :
    RoundTrip held v p where
  reread := received.reread_held arranged
  reread_enriched id epoch := (received.enrich id epoch).reread_held arranged
  preserves := received.preserves_held arranged
  preserves_enriched id epoch := (received.enrich id epoch).preserves_held arranged
  idempotent := by rw [received.reread_held arranged]; rfl

end Received

/-- **Reading and writing a payload loses nothing.** Of any value that is read as a payload, what is
written is read as that payload again, with or without the identifier and the epoch of a feed; the
fields of the data that the relay does not know keep their values and are joined only by those it
knows; the recipients are written as they came; and writing again what was read from it writes the
same. This holds with the fields in the order of declaration, and for values that are held in key
order, as everything that is read from a text is. -/
theorem format_round_trip (read : ofJson v = .ok p) :
    RoundTrip toJson v p ∧ (v.Arranged → RoundTrip held v p) := by
  obtain ⟨fields, received⟩ := received_of_ofJson read
  exact ⟨received.roundTrip, received.roundTrip_held⟩

/-- A payload that is written as an array without its last field. The kind is a text, a field of the
data is not known, and there are two recipients. -/
def enclosed : Json :=
  .array [.object [("note", .object [("deep", .array [.null, .bool true])]), ("type", .string "4")],
    .object [("title", .string "t")], .texts ["a", "b"]]

/-- It is read without its last field and keeps the field that is not known. -/
theorem format_round_trip_of_enclosed :
    let p : Payload := ⟨⟨.subset, none, none, "", "",
      [("note", .object [("deep", .array [.null, .bool true])])]⟩, ⟨"t", ""⟩, .many ["a", "b"], ""⟩
    ofJson enclosed = .ok p ∧ RoundTrip toJson enclosed p ∧ RoundTrip held enclosed p := by
  intro p
  have read : ofJson enclosed = .ok p := by rfl
  have inOrder : enclosed.arranged = enclosed := by
    simp only [enclosed, arranged, arrangedItems, arrangedFields, texts, sortFields, insertField,
      List.foldl, List.map, String.reduceLT, String.reduceEq, reduceIte]
  have arranged : enclosed.Arranged := inOrder ▸ enclosed.arranged_arranged
  exact ⟨read, (format_round_trip read).1, (format_round_trip read).2 arranged⟩

end Payload
end NotificationRelay
