/-
# Which submissions are accepted

A submission passes a row of checks, and the first that fails turns it down. What the checks ask is
said of the submission alone: `Submission.Valid` lists what has to be right, and `Submission.Fault`
what can be wrong, each with the reason that is given for it. A draft comes of a submission that
passes every check (`Submission.Passes`), and what it keeps of the submission is
`Submission.Drafted`; a submission that is turned down has the fault that is named
(`Submission.fault_of_validate`). Since a valid submission has no fault, exactly the valid ones
become drafts, and of the others nothing is stored (`Submission.validation_exact`).
-/
import NotificationRelay.Flow.Intake
import NotificationRelay.Proofs.Address.NormalForm
import NotificationRelay.Proofs.Json.Order
import NotificationRelay.Proofs.Text.Trimming

namespace NotificationRelay

/-- The members of a list stand in the order of their first mentions. -/
theorem pairwise_idxOf_firstMentionsAfter {α : Type} [DecidableEq α] (seen l : List α) :
    (firstMentionsAfter seen l).Pairwise fun a b => l.idxOf a < l.idxOf b := by
  induction l generalizing seen with
  | nil => exact .nil
  | cons c rest ih =>
    -- whatever is mentioned after `c` is found one place further on
    have later : ∀ seen', c ∈ seen' → (firstMentionsAfter seen' rest).Pairwise
        fun a b => (c :: rest).idxOf a < (c :: rest).idxOf b := fun seen' hc =>
      (ih seen').imp_of_mem fun {a b} ha hb less => by
        have other : ∀ x ∈ firstMentionsAfter seen' rest, c ≠ x := fun x hx same =>
          (mem_firstMentionsAfter.1 hx).2 (same ▸ hc)
        rw [List.idxOf_cons_ne _ (other a ha), List.idxOf_cons_ne _ (other b hb)]
        exact Nat.succ_lt_succ less
    unfold firstMentionsAfter
    split
    · next hc => exact later seen hc
    · refine List.pairwise_cons.2 ⟨fun b hb => ?_, later _ List.mem_cons_self⟩
      have other : c ≠ b := fun same => (mem_firstMentionsAfter.1 hb).2 (same ▸ List.mem_cons_self)
      rw [List.idxOf_cons_self, List.idxOf_cons_ne _ other]
      exact Nat.succ_pos _

/-- The addresses that a payload lists fit its kind: a targeted one lists exactly one, and one for a
subset at least one. -/
structure Payload.FitsKind (p : Payload) : Prop where
  targeted : p.data.kind = .targeted → p.recipients.addresses.length = 1
  subset : p.data.kind = .subset → 1 ≤ p.recipients.addresses.length

namespace Payload

variable {p : Payload} {reason : Rejection}

/-- A payload with an audience lists as many recipients as its kind asks for. -/
theorem fitsKind_of_audience {a : Audience} (h : p.audience = .ok a) : p.FitsKind := by
  unfold audience at h
  dsimp only at h
  split at h
  · next kind => exact ⟨fun other => Kind.noConfusion (kind.symm.trans other),
      fun other => Kind.noConfusion (kind.symm.trans other)⟩
  · next kind =>
    split at h
    · next one => exact ⟨fun _ => by rw [one]; rfl,
        fun other => Kind.noConfusion (kind.symm.trans other)⟩
    · cases h
  · next kind =>
    split at h
    · cases h
    · next some =>
      rw [List.isEmpty_iff] at some
      exact ⟨fun other => Kind.noConfusion (kind.symm.trans other),
        fun _ => List.length_pos_iff.2 some⟩

/-- A payload without an audience is targeted and does not list one address, or for a subset and
lists none. -/
theorem unfit_of_audience (h : p.audience = .error reason) :
    (p.data.kind = .targeted ∧ p.recipients.addresses.length ≠ 1 ∧
        reason = .notSingle p.recipients.addresses.length) ∨
      p.data.kind = .subset ∧ p.recipients.addresses = [] ∧ reason = .emptySubset := by
  unfold audience at h
  dsimp only at h
  split at h
  · cases h
  · next kind =>
    split at h
    · cases h
    · next other =>
      cases h
      refine .inl ⟨kind, fun one => ?_, rfl⟩
      obtain ⟨address, single⟩ := List.length_eq_one_iff.1 one
      exact other address single
  · next kind =>
    split at h
    · next none =>
      cases h
      exact .inr ⟨kind, List.isEmpty_iff.1 none, rfl⟩
    · cases h

end Payload

namespace Submission

/-! ## What is right and what is wrong -/

/-- Everything that is checked of a submission is right. -/
structure Valid (s : Submission) : Prop where
  payloadId : Text.NonBlank s.payloadId
  sender : Text.NonBlank s.sender
  source : Text.NonBlank s.source
  isSpam : s.isSpam = 0 ∨ s.isSpam = 1
  recipients : ∀ raw ∈ s.recipients, ∃ address, Address.normalize raw = some address
  payload : ∃ p, Payload.ofJson s.payload = .ok p ∧ p.FitsKind
  expiry : ∀ seconds, s.expiry = some seconds → leastSecond ≤ seconds ∧ seconds ≤ greatestSecond

/-- Something that is checked of a submission is wrong, with the reason that tells of it. -/
inductive Fault (s : Submission) : Rejection → Prop
  | payloadId (blank : ¬ Text.NonBlank s.payloadId) : Fault s .blankPayloadId
  | sender (blank : ¬ Text.NonBlank s.sender) : Fault s .blankSender
  | source (blank : ¬ Text.NonBlank s.source) : Fault s .blankSource
  | isSpam (large : 1 < s.isSpam) : Fault s (.spamFlag s.isSpam)
  | recipient {raw : String} (listed : raw ∈ s.recipients)
      (bad : Address.normalize raw = none) : Fault s (.recipient raw)
  | payload {e : DecodeError} (bad : Payload.ofJson s.payload = .error e) : Fault s (.payload e)
  | notSingle {p : Payload} (read : Payload.ofJson s.payload = .ok p)
      (kind : p.data.kind = .targeted) (count : p.recipients.addresses.length ≠ 1) :
      Fault s (.notSingle p.recipients.addresses.length)
  | emptySubset {p : Payload} (read : Payload.ofJson s.payload = .ok p)
      (kind : p.data.kind = .subset) (none : p.recipients.addresses = []) : Fault s .emptySubset
  | expiry {seconds : Int} (given : s.expiry = some seconds)
      (out : ¬ (leastSecond ≤ seconds ∧ seconds ≤ greatestSecond)) : Fault s (.expiry seconds)

/-- What a draft keeps of the submission that it comes from. -/
structure Drafted (s : Submission) (epoch : Int) (d : Draft) : Prop where
  payloadId : Text.IsTrimmed s.payloadId d.payloadId ∧ d.payloadId ≠ ""
  sender : Text.IsTrimmed s.sender d.sender ∧ d.sender ≠ ""
  source : Text.IsTrimmed s.source d.source ∧ d.source ≠ ""
  senderType : d.senderType = s.senderType
  isSpam : d.isSpam = true ↔ s.isSpam = 1
  canonical : ∀ a ∈ d.recipients, Address.normalize a = some a
  distinct : d.recipients.Nodup
  recipients : ∀ a, a ∈ d.recipients ↔ ∃ raw ∈ s.recipients, Address.normalize raw = some a
  ordered : d.recipients.Pairwise fun a b =>
    (s.recipients.filterMap Address.normalize).idxOf a <
      (s.recipients.filterMap Address.normalize).idxOf b
  payload : Payload.ofJson s.payload = .ok d.payload
  channel : ∀ name, d.channel = some name ↔ s.channel = some name ∧ Text.NonBlank name
  delegate : ∀ name, d.delegate = some name ↔ s.delegate = some name ∧ Text.NonBlank name
  hidden : d.hidden = s.hidden
  epoch : d.epoch = epoch
  expiry : d.expiry = s.expiry

/-- A draft holds what the checks of a submission have come to. -/
structure Passes (s : Submission) (epoch : Int) (d : Draft) : Prop where
  payloadId : nonBlank .blankPayloadId s.payloadId = .ok d.payloadId
  sender : nonBlank .blankSender s.sender = .ok d.sender
  source : nonBlank .blankSource s.source = .ok d.source
  isSpam : spamFlag s.isSpam = .ok d.isSpam
  recipients : canonicalRecipients s.recipients = .ok d.recipients
  payload : checkedPayload s.payload = .ok d.payload
  expiry : checkedExpiry s.expiry = .ok d.expiry
  others : d.channel = unlessBlank s.channel ∧ d.senderType = s.senderType ∧
    d.hidden = s.hidden ∧ d.epoch = epoch ∧ d.delegate = unlessBlank s.delegate

variable {s : Submission} {epoch : Int} {d : Draft} {reason : Rejection}

/-! ## The checks one by one -/

/-- A text passes as not blank, and is kept without the blanks around it. -/
theorem nonBlank_eq_ok_iff {name t : String} :
    nonBlank reason name = .ok t ↔ Text.NonBlank name ∧ t = Text.trim name := by
  unfold nonBlank
  dsimp only
  rw [Text.nonBlank_iff]
  split
  · next blank => exact iff_of_false nofun fun h => h.1 (String.isEmpty_iff.1 blank)
  · next some => rw [Except.ok.injEq, and_iff_right (mt String.isEmpty_iff.2 some), eq_comm]

/-- A blank text is turned down for the stated reason. -/
theorem nonBlank_eq_error_iff {stated : Rejection} {name : String} :
    nonBlank stated name = .error reason ↔ ¬ Text.NonBlank name ∧ reason = stated := by
  unfold nonBlank
  dsimp only
  rw [Text.nonBlank_iff, not_not]
  split
  · next blank => rw [Except.error.injEq, and_iff_right (String.isEmpty_iff.1 blank), eq_comm]
  · next some => exact iff_of_false nofun fun h => some (String.isEmpty_iff.2 h.1)

/-- A flag for spam is zero or one. -/
theorem spamFlag_eq_ok_iff {n : Nat} {b : Bool} : spamFlag n = .ok b ↔ n = b.toNat := by
  unfold spamFlag
  match n with
  | 0 => cases b <;> simp
  | 1 => cases b <;> simp
  | n + 2 => cases b <;> simp

/-- Any greater number is turned down as a flag for spam. -/
theorem spamFlag_eq_error_iff {n : Nat} :
    spamFlag n = .error reason ↔ 1 < n ∧ reason = .spamFlag n := by
  unfold spamFlag
  match n with
  | 0 => simp
  | 1 => simp
  | n + 2 => simp [eq_comm]

/-- Recipients that are accepted all have a canonical form, and these are taken in order. -/
theorem canonicalForms_ok {raws addresses : List String} (h : canonicalForms raws = .ok addresses) :
    addresses = raws.filterMap Address.normalize ∧
      ∀ raw ∈ raws, ∃ address, Address.normalize raw = some address := by
  induction raws generalizing addresses with
  | nil =>
    cases h
    exact ⟨rfl, fun raw listed => absurd listed List.not_mem_nil⟩
  | cons raw rest ih =>
    unfold canonicalForms at h
    cases form : Address.normalize raw with
    | none =>
      rw [form] at h
      cases h
    | some address =>
      rw [form] at h
      cases forms : canonicalForms rest with
      | error e =>
        rw [forms] at h
        cases h
      | ok others =>
        rw [forms] at h
        cases h
        obtain ⟨same, formed⟩ := ih forms
        rw [List.filterMap_cons, form, ← same]
        exact ⟨rfl, List.forall_mem_cons.2 ⟨⟨address, form⟩, formed⟩⟩

/-- Recipients are turned down for one that has no canonical form. -/
theorem canonicalForms_error {raws : List String} (h : canonicalForms raws = .error reason) :
    ∃ raw ∈ raws, Address.normalize raw = none ∧ reason = .recipient raw := by
  induction raws with
  | nil => cases h
  | cons raw rest ih =>
    unfold canonicalForms at h
    cases form : Address.normalize raw with
    | none =>
      rw [form] at h
      cases h
      exact ⟨raw, List.mem_cons_self, form, rfl⟩
    | some address =>
      rw [form] at h
      cases forms : canonicalForms rest with
      | error e =>
        rw [forms] at h
        cases h
        obtain ⟨other, listed, bad⟩ := ih forms
        exact ⟨other, List.mem_cons_of_mem _ listed, bad⟩
      | ok others =>
        rw [forms] at h
        cases h

/-- A payload that is accepted can be read, and fits its kind. -/
theorem checkedPayload_ok {v : Json} {p : Payload} (h : checkedPayload v = .ok p) :
    Payload.ofJson v = .ok p ∧ p.FitsKind := by
  unfold checkedPayload at h
  split at h
  · cases h
  · next q read =>
    cases audience : q.audience with
    | error e =>
      rw [audience] at h
      cases h
    | ok a =>
      rw [audience] at h
      cases h
      exact ⟨read, Payload.fitsKind_of_audience audience⟩

/-- A payload is turned down because it cannot be read, or because it does not fit its kind. -/
theorem checkedPayload_error {v : Json} (h : checkedPayload v = .error reason) :
    (∃ e, Payload.ofJson v = .error e ∧ reason = .payload e) ∨
      ∃ p, Payload.ofJson v = .ok p ∧ p.audience = .error reason := by
  unfold checkedPayload at h
  split at h
  · next e bad =>
    cases h
    exact .inl ⟨e, bad, rfl⟩
  · next p read =>
    cases audience : p.audience with
    | error e =>
      rw [audience] at h
      cases h
      exact .inr ⟨p, read, audience⟩
    | ok a =>
      rw [audience] at h
      cases h

/-- A second that can be represented lies between the least and the greatest. -/
theorem isRepresentable_iff {seconds : Int} :
    isRepresentable seconds = true ↔ leastSecond ≤ seconds ∧ seconds ≤ greatestSecond := by
  rw [isRepresentable, Bool.and_eq_true, decide_eq_true_eq, decide_eq_true_eq]

/-- An expiry that is accepted is kept as it is, and lies within the calendar. -/
theorem checkedExpiry_ok {expiry expiry' : Option Int} (h : checkedExpiry expiry = .ok expiry') :
    expiry' = expiry ∧ ∀ seconds, expiry = some seconds →
      leastSecond ≤ seconds ∧ seconds ≤ greatestSecond := by
  unfold checkedExpiry at h
  split at h
  · cases h
    exact ⟨rfl, fun _ given => nomatch given⟩
  · next seconds =>
    split at h
    · next inside =>
      cases h
      exact ⟨rfl, fun _ given => Option.some.inj given ▸ isRepresentable_iff.1 inside⟩
    · cases h

/-- An expiry is turned down because it lies outside the calendar. -/
theorem checkedExpiry_error {expiry : Option Int} (h : checkedExpiry expiry = .error reason) :
    ∃ seconds, expiry = some seconds ∧ ¬ (leastSecond ≤ seconds ∧ seconds ≤ greatestSecond) ∧
      reason = .expiry seconds := by
  unfold checkedExpiry at h
  split at h
  · cases h
  · next seconds =>
    split at h
    · cases h
    · next out =>
      cases h
      exact ⟨seconds, rfl, mt isRepresentable_iff.2 out, rfl⟩

/-- A text that may be absent is kept as it is, unless it is blank. -/
theorem unlessBlank_eq_some_iff {given : Option String} {name : String} :
    unlessBlank given = some name ↔ given = some name ∧ Text.NonBlank name := by
  unfold unlessBlank
  rw [Option.filter_eq_some_iff]
  simp [Text.isAllBlank, Text.NonBlank]

/-! ## All checks -/

/-- A submission that is accepted has passed every check. -/
theorem passes_of_validate (hd : s.validate epoch = .ok d) : s.Passes epoch d := by
  obtain ⟨payloadId, h₁, hd⟩ := ok_of_bind hd
  obtain ⟨sender, h₂, hd⟩ := ok_of_bind hd
  obtain ⟨source, h₃, hd⟩ := ok_of_bind hd
  obtain ⟨isSpam, h₄, hd⟩ := ok_of_bind hd
  obtain ⟨recipients, h₅, hd⟩ := ok_of_bind hd
  obtain ⟨payload, h₆, hd⟩ := ok_of_bind hd
  obtain ⟨expiry, h₇, hd⟩ := ok_of_bind hd
  cases hd
  exact ⟨h₁, h₂, h₃, h₄, h₅, h₆, h₇, rfl, rfl, rfl, rfl, rfl⟩

/-- The payload identifier of a draft is that of its submission without the blanks at its
ends. -/
theorem payloadId_of_validate (hd : s.validate epoch = .ok d) :
    d.payloadId = Text.trim s.payloadId :=
  (nonBlank_eq_ok_iff.1 (passes_of_validate hd).payloadId).2

/-- **A submission that is turned down has the fault that is named.** -/
theorem fault_of_validate (h : s.validate epoch = .error reason) : s.Fault reason := by
  rcases error_of_bind h with h | ⟨payloadId, -, h⟩
  · obtain ⟨blank, rfl⟩ := nonBlank_eq_error_iff.1 h
    exact .payloadId blank
  rcases error_of_bind h with h | ⟨sender, -, h⟩
  · obtain ⟨blank, rfl⟩ := nonBlank_eq_error_iff.1 h
    exact .sender blank
  rcases error_of_bind h with h | ⟨source, -, h⟩
  · obtain ⟨blank, rfl⟩ := nonBlank_eq_error_iff.1 h
    exact .source blank
  rcases error_of_bind h with h | ⟨isSpam, -, h⟩
  · obtain ⟨large, rfl⟩ := spamFlag_eq_error_iff.1 h
    exact .isSpam large
  rcases error_of_bind h with h | ⟨recipients, -, h⟩
  · unfold canonicalRecipients at h
    cases forms : canonicalForms s.recipients with
    | error e =>
      rw [forms] at h
      cases h
      obtain ⟨raw, listed, bad, rfl⟩ := canonicalForms_error forms
      exact .recipient listed bad
    | ok addresses =>
      rw [forms] at h
      cases h
  rcases error_of_bind h with h | ⟨payload, -, h⟩
  · obtain ⟨e, bad, rfl⟩ | ⟨p, read, unfit⟩ := checkedPayload_error h
    · exact .payload bad
    · obtain ⟨kind, count, rfl⟩ | ⟨kind, none, rfl⟩ := Payload.unfit_of_audience unfit
      · exact .notSingle read kind count
      · exact .emptySubset read kind none
  rcases error_of_bind h with h | ⟨expiry, -, h⟩
  · obtain ⟨seconds, given, out, rfl⟩ := checkedExpiry_error h
    exact .expiry given out
  · cases h

/-- There is nothing to be said against a valid submission. -/
theorem Valid.not_fault (valid : s.Valid) : ¬ s.Fault reason := by
  intro fault
  cases fault with
  | payloadId blank => exact blank valid.payloadId
  | sender blank => exact blank valid.sender
  | source blank => exact blank valid.source
  | isSpam large =>
    have := valid.isSpam
    omega
  | recipient listed bad =>
    obtain ⟨address, form⟩ := valid.recipients _ listed
    rw [bad] at form
    cases form
  | payload bad =>
    obtain ⟨p, read, -⟩ := valid.payload
    rw [bad] at read
    cases read
  | notSingle read kind count =>
    obtain ⟨p, read', fits⟩ := valid.payload
    obtain rfl := Except.ok.inj (read.symm.trans read')
    exact count (fits.targeted kind)
  | emptySubset read kind none =>
    obtain ⟨p, read', fits⟩ := valid.payload
    obtain rfl := Except.ok.inj (read.symm.trans read')
    have some := fits.subset kind
    rw [none] at some
    exact absurd some (by decide)
  | expiry given out => exact out (valid.expiry _ given)

namespace Passes

/-- The recipients of a draft are the canonical forms of those of its submission, each once, and all
of these have one. -/
theorem forms (passes : s.Passes epoch d) :
    d.recipients = firstMentions (s.recipients.filterMap Address.normalize) ∧
      ∀ raw ∈ s.recipients, ∃ address, Address.normalize raw = some address := by
  have recipients := passes.recipients
  unfold canonicalRecipients at recipients
  cases forms : canonicalForms s.recipients with
  | error e =>
    rw [forms] at recipients
    cases recipients
  | ok addresses =>
    obtain ⟨collected, formed⟩ := canonicalForms_ok forms
    rw [forms, collected] at recipients
    exact ⟨(Except.ok.inj recipients).symm, formed⟩

/-- A submission that has passed every check is valid. -/
theorem valid (passes : s.Passes epoch d) : s.Valid where
  payloadId := (nonBlank_eq_ok_iff.1 passes.payloadId).1
  sender := (nonBlank_eq_ok_iff.1 passes.sender).1
  source := (nonBlank_eq_ok_iff.1 passes.source).1
  isSpam := by
    rw [spamFlag_eq_ok_iff.1 passes.isSpam]
    cases d.isSpam <;> simp
  recipients := passes.forms.2
  payload := ⟨d.payload, checkedPayload_ok passes.payload⟩
  expiry := (checkedExpiry_ok passes.expiry).2

/-- A draft says what the submission says from which it was made. -/
theorem drafted (passes : s.Passes epoch d) : s.Drafted epoch d := by
  have trimmed : ∀ {reason : Rejection} {name t : String}, nonBlank reason name = .ok t →
      Text.IsTrimmed name t ∧ t ≠ "" := fun h => by
    obtain ⟨some, rfl⟩ := nonBlank_eq_ok_iff.1 h
    exact ⟨Text.isTrimmed_trim _, Text.nonBlank_iff.1 some⟩
  have members : ∀ a, a ∈ d.recipients ↔
      ∃ raw ∈ s.recipients, Address.normalize raw = some a := fun a => by
    rw [passes.forms.1, mem_firstMentions, List.mem_filterMap]
  obtain ⟨channel, senderType, hidden, stamped, delegate⟩ := passes.others
  exact
    { payloadId := trimmed passes.payloadId
      sender := trimmed passes.sender
      source := trimmed passes.source
      senderType := senderType
      isSpam := by
        rw [spamFlag_eq_ok_iff.1 passes.isSpam]
        cases d.isSpam <;> simp
      canonical := fun a ha => by
        obtain ⟨raw, -, form⟩ := (members a).1 ha
        exact Address.normalize_normalize form
      distinct := passes.forms.1 ▸ nodup_firstMentions _
      recipients := members
      ordered := passes.forms.1 ▸ pairwise_idxOf_firstMentionsAfter [] _
      payload := (checkedPayload_ok passes.payload).1
      channel := fun name => by rw [channel, unlessBlank_eq_some_iff]
      delegate := fun name => by rw [delegate, unlessBlank_eq_some_iff]
      hidden := hidden
      epoch := stamped
      expiry := (checkedExpiry_ok passes.expiry).1 }

end Passes

/-- A draft has the canonical forms of the recipients of its submission, each once. -/
theorem recipients_of_validate (hd : s.validate epoch = .ok d) :
    d.recipients = firstMentions (s.recipients.filterMap Address.normalize) :=
  (passes_of_validate hd).forms.1

/-- A submission that is turned down makes no call. -/
theorem submit_of_rejected (h : s.validate epoch = .error reason) :
    Intake.submit s epoch = .done (.error (.rejected reason)) := by
  unfold Intake.submit
  rw [h]

/-- **Exactly the valid submissions are accepted.**

* A submission becomes a draft exactly if its names are not blank, its flag is zero or one, all of
  its recipients have a canonical form, its payload can be read and lists addresses that fit its
  kind, and its expiry, if it has one, lies on a day.
* The draft has the names without the blanks at their ends, the canonical forms of the recipients,
  each once and in the order in which they are first mentioned, no channel or delegate that is
  blank, and everything else as it was given.
* Otherwise the submission is turned down for something that is wrong with it, whatever else is
  going on: nothing is stored, and the hub is as it was. -/
theorem validation_exact (s : Submission) (epoch : Int) :
    ((∃ d, s.validate epoch = .ok d) ↔ s.Valid) ∧
    (∀ d, s.validate epoch = .ok d → s.Drafted epoch d) ∧
    ∀ reason, s.validate epoch = .error reason → s.Fault reason ∧
      ∀ outages h, (Intake.submit s epoch).run outages h = (.error (.rejected reason), h) := by
  refine ⟨⟨?_, fun valid => ?_⟩, fun d hd => (passes_of_validate hd).drafted,
    fun reason hr => ⟨fault_of_validate hr, fun outages h => ?_⟩⟩
  · rintro ⟨d, hd⟩
    exact (passes_of_validate hd).valid
  · cases outcome : s.validate epoch with
    | ok d => exact ⟨d, rfl⟩
    | error reason => exact absurd (fault_of_validate outcome) valid.not_fault
  · rw [submit_of_rejected hr]
    rfl

/-- A request to store a notification for one recipient. -/
def sample (payloadId : String) : Submission where
  payloadId := payloadId
  sender := "solana:channel"
  channel := none
  senderType := .channel
  recipients := ["solana:alice"]
  payload := .object [("data", .object [("type", .int 3)]), ("recipients", .string "solana:alice")]
  source := "ETH_MAINNET"
  isSpam := 0
  hidden := false
  expiry := none
  delegate := none

/-- A request with blanks around its name, one recipient in two spellings, and a blank channel. -/
def spaced : Submission :=
  { sample " p " with recipients := ["Solana:ALICE ", "solana:alice"], channel := some " " }

/-- A targeted notification that lists nobody. -/
def unaddressed : Submission :=
  { sample "p" with
    payload := .object [("data", .object [("type", .int 3)]), ("recipients", .array [])] }

/-- The one is accepted, with one recipient; the other is turned down for its recipients. -/
theorem validation_exact_of_spaced :
    (∃ d, spaced.validate 9 = .ok d ∧ spaced.Drafted 9 d ∧ d.recipients = ["solana:alice"]) ∧
      unaddressed.Fault (.notSingle 0) ∧
      (Intake.submit unaddressed 9).run .none (.empty 1 ⟨true, [], []⟩) =
        (.error (.rejected (.notSingle 0)), .empty 1 ⟨true, [], []⟩) := by
  have recipients : (spaced.validate 9).toOption.map (·.recipients) = some ["solana:alice"] := by
    decide +kernel
  have rejected : unaddressed.validate 9 = .error (.notSingle 0) := by rfl
  obtain ⟨fault, same⟩ := (validation_exact unaddressed 9).2.2 _ rejected
  refine ⟨?_, fault, same .none _⟩
  cases accepted : spaced.validate 9 with
  | error reason =>
    rw [accepted] at recipients
    cases recipients
  | ok d =>
    rw [accepted] at recipients
    exact ⟨d, rfl, (validation_exact spaced 9).2.1 d accepted, Option.some.inj recipients⟩

end Submission
end NotificationRelay
