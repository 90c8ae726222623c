/-
# Terms that occur as they stand

A search disregards letter case, so it should find at least the feeds that contain the term exactly
as it was typed. But the term is put in lower case alone and the texts of a feed as a whole, where a
capital sigma may meet letters that it does not meet in the term. A term that occurs as it stands is
found where its capital sigmas agree with the text, and it is found wherever it occurs if each of
them stands within the term between characters that decide about it
(`Query.search_finds_occurrence`). In particular a term without a capital sigma is.

At an edge of the term a capital sigma may be lost: `ΑΣ` is looked for as `ας`, and not found in
`ΑΣΑ`, which is `ασα` in lower case (`Query.search_misses_occurrence`).
-/
import NotificationRelay.Proofs.Query.Searching

namespace NotificationRelay

/-- A text of a payload contains a term as it stands, the blanks around the term aside, between two
others. -/
def Payload.Contains (p : Payload) (before : List Char) (term : String) (after : List Char) :
    Prop :=
  ∃ text ∈ [p.caption.title, p.caption.body, p.data.asub, p.data.amsg],
    text.toList = before ++ (Text.trim term).toList ++ after

/-- A term that occurs as it stands, and whose capital sigmas agree with the text, is mentioned. -/
theorem Payload.Contains.mentions {p : Payload} {before after : List Char} {term : String}
    (contains : p.Contains before term after)
    (agrees : Text.Agrees before (Text.trim term).toList after) : p.Mentions term := by
  obtain ⟨text, there, whole⟩ := contains
  refine ⟨text, there, ?_⟩
  rw [Text.lower, Text.lower, String.toList_ofList, String.toList_ofList, whole]
  exact Text.infix_of_agrees agrees

namespace Query

/-- **A term that occurs as it stands is found, if its capital sigmas do not turn out otherwise.**
Take a feed that is stored, of the kind asked for, from one of the senders that are looked in, and
on one of the days of the filter, and let a text of it contain the term as it stands. The feed is
among those of which the answer is a page if at that place every capital sigma of the term ends a
word exactly if it does in the term alone. That is so at any place if each capital sigma has on both
sides of it, within the term, a character that is not looked through. -/
theorem search_finds_occurrence {h : Hub} (ascending : h.store.ids.Pairwise (· < ·)) (bound : Nat)
    (request : SearchRequest) (outages : Outages) {senders : List String} {f : Feed} {term : String}
    (ordered : ∀ low high, ¬ request.filter.Inverted low high)
    (seeks : request.Seeks outages h (.ok senders))
    (reached : outages (request.asking bound senders) = none) (stored : f ∈ h.store.feeds)
    (spam : f.isSpam = request.isSpam) (sender : f.sender ∈ senders)
    (dated : ∀ dates, request.filter.dates = some dates → ∃ day, f.LiesOn day ∧ dates.Includes day)
    (asked : request.term = some term) :
    ∃ found shown, request.paging.Shows bound found shown ∧
      ((search bound request).run outages h).1 = .ok ⟨shown.map Feed.view, found.length⟩ ∧
      (∀ before after, f.payload.Contains before term after →
        Text.Agrees before (Text.trim term).toList after → f ∈ found) ∧
      ((∀ p q, (Text.trim term).toList = p ++ 'Σ' :: q →
          (∃ c ∈ p, Text.isCaseIgnorable c = false) ∧ ∃ c ∈ q, Text.isCaseIgnorable c = false) →
        ∀ before after, f.payload.Contains before term after → f ∈ found) := by
  have scan : h.store.Scan (request.Finds senders)
      (h.store.newest (request.criteria senders).accepts) :=
    Store.scan_newest ascending fun f _ => SearchRequest.accepts_criteria
  have finds : ∀ before after, f.payload.Contains before term after →
      Text.Agrees before (Text.trim term).toList after →
        f ∈ h.store.newest (request.criteria senders).accepts := by
    refine fun before after contains agrees => (scan.members f).2 ⟨stored, spam, sender, ?_, dated⟩
    intro term' asked' _
    obtain rfl : term = term' := Option.some.inj (asked.symm.trans asked')
    exact contains.mentions agrees
  have shows := request.paging.shows_slice bound
    (h.store.newest (request.criteria senders).accepts)
  have answers := SearchRequest.Answers.found ordered seeks (fun _ => reached) scan shows
  refine ⟨_, _, shows, answers.run ascending, finds, fun enclosed before after contains => ?_⟩
  exact finds before after contains (Text.agrees_of_enclosed enclosed before after)

/-- A feed with a title in capitals. -/
def capitals : Feed :=
  .ofDraft 1 { Draft.sample "p" ["solana:alice"] 5 with
    payload := { (Draft.sample "p" ["solana:alice"] 5).payload with caption := ⟨"ΑΣΑ", ""⟩ } }

/-- A hub in which the feed is stored. -/
def capitalsStored : Hub := ((Intake.add capitals.toDraft).run .none .sample).2

/-- The hub holds the feed with the title in capitals, and no other. -/
theorem feeds_capitalsStored : capitalsStored.store.feeds = [capitals] := rfl

/-- Its store can come about. -/
theorem coherent_capitalsStored : capitalsStored.store.Coherent :=
  (Program.runs_run .none _ Hub.sample).coherent Store.coherent_empty

/-- A search for a term in the channel of the feed. -/
def forTerm (term : String) : SearchRequest where
  subscriber := "solana:alice"
  term := some term
  isSpam := false
  filter := ⟨some [capitals.sender], none⟩
  paging := ⟨1, 10⟩

/-- The capital sigma at the beginning of a term ends a word neither in the term nor in the title,
so the feed is found. -/
theorem search_finds_occurrence_of_capitals :
    ∃ found shown, (forTerm "ΣΑ").paging.Shows 10 found shown ∧
      ((search 10 (forTerm "ΣΑ")).run .none capitalsStored).1 =
        .ok ⟨shown.map Feed.view, found.length⟩ ∧ capitals ∈ found := by
  obtain ⟨found, shown, shows, answer, finds, -⟩ := search_finds_occurrence (by decide +kernel) 10
    (forTerm "ΣΑ") .none (f := capitals) (fun _ _ inverted => nomatch inverted.1)
    (.named rfl (List.cons_ne_nil _ _)) rfl (feeds_capitalsStored ▸ List.mem_singleton_self _) rfl
    (List.mem_singleton_self _) (fun _ dates => nomatch dates) rfl
  refine ⟨found, shown, shows, answer,
    finds ['Α'] [] ⟨"ΑΣΑ", List.mem_cons_self, by decide +kernel⟩ ?_⟩
  have letters : (Text.trim "ΣΑ").toList = ['Σ', 'Α'] := by decide +kernel
  rw [letters]
  intro p q split
  match p with
  | [] =>
    obtain rfl : ['Α'] = q := (List.cons.inj split).2
    decide +kernel
  | [c] =>
    have other : 'Α' = 'Σ' := (List.cons.inj (List.cons.inj split).2).1
    exact absurd other (by decide)
  | _ :: _ :: _ => simp at split

/-- **A term can occur as it stands and not be found**: the capital sigma at its end ends a word in
the term, and none in the title. -/
theorem search_misses_occurrence :
    ¬ ∀ (h : Hub) (bound : Nat) (request : SearchRequest) (senders : List String) (f : Feed)
      (term : String) (before after : List Char), h.store.Coherent →
      (∀ low high, ¬ request.filter.Inverted low high) → request.Seeks .none h (.ok senders) →
      f ∈ h.store.feeds → f.isSpam = request.isSpam → f.sender ∈ senders →
      (∀ dates, request.filter.dates = some dates → ∃ day, f.LiesOn day ∧ dates.Includes day) →
      request.term = some term → (Text.trim term).toList ≠ [] →
      f.payload.Contains before term after →
        ∃ found shown, request.paging.Shows bound found shown ∧
          ((search bound request).run .none h).1 = .ok ⟨shown.map Feed.view, found.length⟩ ∧
          f ∈ found := by
  intro claim
  have nothing : (((search 10 (forTerm "ΑΣ")).run .none capitalsStored).1.toOption.map
      (·.total)) = some 0 := by decide +kernel
  obtain ⟨found, shown, -, answer, there⟩ := claim capitalsStored 10 (forTerm "ΑΣ") _ capitals
    "ΑΣ" [] ['Α'] coherent_capitalsStored (fun _ _ inverted => nomatch inverted.1)
    (.named rfl (List.cons_ne_nil _ _)) (feeds_capitalsStored ▸ List.mem_singleton_self _) rfl
    (List.mem_singleton_self _) (fun _ dates => nomatch dates) rfl (by decide +kernel)
    ⟨"ΑΣΑ", List.mem_cons_self, by decide +kernel⟩
  rw [answer] at nothing
  have none : found = [] := List.length_eq_zero_iff.1 (Option.some.inj nothing)
  rw [none] at there
  cases there

end Query
end NotificationRelay
