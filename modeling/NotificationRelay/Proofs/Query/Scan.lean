/-
# Queries through the index

A recipient's listings are read through the index, and the index is kept by other acts. A
`Store.Scan` needs no index: it is the feeds of the store that meet a condition, newest
first. Wherever the index is right, a listing is a page of the scan for the recipient
(`Query.run_recipientPage`), and the senders of its spam are those of a scan, in the order
of their first feeds (`Query.run_spamSenders`). Together with `History.indexed` this says
what the queries answer after any history (`History.queries_scan`).
-/
import NotificationRelay.Proofs.Flow.Indexing
import NotificationRelay.Proofs.Query.Slicing

namespace NotificationRelay
namespace Store

/-- All feeds of a store that meet a condition, newest first. -/
structure Scan (s : Store) (condition : Feed → Prop) (l : List Feed) : Prop where
  newest : l.Pairwise fun f g => g.id < f.id
  members : ∀ f, f ∈ l ↔ f ∈ s.feeds ∧ condition f

variable {s : Store}

/-- Under ascending identifiers the feeds of a store that pass a test are a scan. -/
theorem scan_newest (ascending : s.ids.Pairwise (· < ·)) {test : Feed → Bool}
    {condition : Feed → Prop} (agree : ∀ f ∈ s.feeds, test f = true ↔ condition f) :
    s.Scan condition (s.newest test) where
  newest := List.pairwise_reverse.2 ((List.pairwise_map.1 ascending).filter _)
  members f := by
    unfold newest
    rw [List.mem_reverse, List.mem_filter]
    exact and_congr_right fun hf => agree f hf

/-- A scan is determined by its condition. -/
theorem Scan.unique {condition : Feed → Prop} {l l' : List Feed} (hl : s.Scan condition l)
    (hl' : s.Scan condition l') : l = l' := by
  have apart : ∀ {k}, s.Scan condition k → k.Nodup := fun hk =>
    hk.newest.imp fun before same => by
      rw [same] at before
      exact Int.lt_irrefl _ before
  have same : l.Perm l' := (List.perm_ext_iff_of_nodup (apart hl) (apart hl')).2 fun f =>
    (hl.members f).trans (hl'.members f).symm
  exact same.eq_of_pairwise (fun f g _ _ before after => by lia) hl.newest hl'.newest

/-- Two tests that no feed passes both divide among them the feeds that pass either. -/
theorem filter_perm {p q r : Feed → Bool} (whole : ∀ f, r f = (p f ^^ q f))
    (apart : ∀ f, (p f && q f) = false) (feeds : List Feed) :
    (feeds.filter p ++ feeds.filter q).Perm (feeds.filter r) := by
  have part : ∀ a b : Bool, (a && b) = false → a = (a && (a ^^ b)) ∧ b = (!a && (a ^^ b)) := by
    decide
  have first : feeds.filter p = (feeds.filter r).filter p := by
    rw [List.filter_filter]
    refine List.filter_congr fun f _ => ?_
    rw [whole]
    exact (part _ _ (apart f)).1
  have second : feeds.filter q = (feeds.filter r).filter fun f => !p f := by
    rw [List.filter_filter]
    refine List.filter_congr fun f _ => ?_
    rw [whole]
    exact (part _ _ (apart f)).2
  rw [first, second]
  exact List.filter_append_perm _ _

/-- The feeds under ascending identifiers, in that order. -/
theorem pairwise_filterMap_feed? {ids : List FeedId} (h : ids.Pairwise (· < ·)) :
    (ids.filterMap s.feed?).Pairwise fun f g => f.id < g.id := by
  refine List.pairwise_filterMap.2 (h.imp fun {i j} hij f hf g hg => ?_)
  rw [id_of_feed? hf, id_of_feed? hg]
  exact hij

/-- The feeds that are found under some identifiers are the stored ones that have them. -/
theorem Coherent.mem_filterMap_feed? (h : s.Coherent) {ids : List FeedId} {f : Feed} :
    f ∈ ids.filterMap s.feed? ↔ f ∈ s.feeds ∧ f.id ∈ ids := by
  rw [List.mem_filterMap]
  constructor
  · rintro ⟨i, hi, hf⟩
    exact ⟨mem_of_feed? hf, id_of_feed? hf ▸ hi⟩
  · rintro ⟨hf, hi⟩
    exact ⟨f.id, hi, h.feed?_eq_some_iff.2 ⟨hf, rfl⟩⟩

end Store

namespace Query

variable {h : Hub} {raw address : String}

/-- A recipient with a canonical form is looked up under it. -/
theorem recipientKey_of_normalize (ha : Address.normalize raw = some address) :
    recipientKey raw = .ok address := by
  unfold recipientKey
  rw [ha]

/-- A listing is the page of what is filed under the address. -/
theorem run_listing (ha : Address.normalize raw = some address) (bound : Nat) (isSpam : Bool)
    (listing : Listing) (p : Paging) :
    (recipientPage bound raw isSpam listing p).run .none h =
      (.ok (listed (h.store.pageByIds (h.store.indexed address isSpam) listing
        (p.clamp bound))), h) := by
  unfold recipientPage
  rw [recipientKey_of_normalize ha]
  show (if (h.store.indexed address isSpam).isEmpty then _ else _ : Program _).run .none h = _
  split
  · next hempty =>
    rw [List.isEmpty_iff.1 hempty]
    simp [listed, Store.pageByIds, Store.page, Store.newest, Paging.slice, FeedPage.empty]
  · rfl

/-- **A listing is a page of a scan.** -/
theorem run_recipientPage (hs : h.store.Indexed) (ha : Address.normalize raw = some address)
    (bound : Nat) (isSpam : Bool) (listing : Listing) (p : Paging) :
    ∃ l, h.store.Scan (fun f => address ∈ f.recipients ∧ f.isSpam = isSpam ∧
        listing.accepts f = true) l ∧
      (recipientPage bound raw isSpam listing p).run .none h =
        (.ok ⟨((p.clamp bound).slice l).map Feed.view, l.length⟩, h) := by
  let ids := h.store.indexed address isSpam
  refine ⟨h.store.newest fun f => ids.contains f.id && listing.accepts f,
    Store.scan_newest hs.coherent.ascending fun f hf => ?_, ?_⟩
  · rw [Bool.and_eq_true, List.contains_iff_mem, hs.mem_indexed_iff hf, and_assoc]
  · exact run_listing ha bound isSpam listing p

/-- **The senders of a recipient's spam**, each once, in the order of their first feeds. -/
theorem run_spamSenders (hs : h.store.Indexed) (ha : Address.normalize raw = some address) :
    ∃ senders, (spamSenders raw).run .none h = (.ok senders, h) ∧ senders.Nodup ∧
      (∀ x, x ∈ senders ↔ ∃ f ∈ h.store.feeds, address ∈ f.recipients ∧ f.isSpam = true ∧
        f.sender = x) ∧
      senders.Pairwise fun x y => ∃ f ∈ h.store.feeds, (address ∈ f.recipients ∧
        f.isSpam = true ∧ f.sender = x) ∧ ∀ g ∈ h.store.feeds, address ∈ g.recipients →
          g.isSpam = true → g.sender = y → f.id < g.id := by
  let feeds := (h.store.indexed address true).filterMap h.store.feed?
  have members : ∀ f, f ∈ feeds ↔ f ∈ h.store.feeds ∧ address ∈ f.recipients ∧
      f.isSpam = true := fun f => by
    rw [hs.coherent.mem_filterMap_feed?]
    exact and_congr_right fun hf => hs.mem_indexed_iff hf
  have oldest : feeds.Pairwise fun f g => f.id < g.id :=
    Store.pairwise_filterMap_feed? (hs.ascending address true)
  refine ⟨firstMentions (feeds.map (·.sender)), ?_, nodup_firstMentions _, fun x => ?_, ?_⟩
  · unfold spamSenders
    rw [recipientKey_of_normalize ha]
    show (if (h.store.indexed address true).isEmpty then _ else _ : Program _).run .none h = _
    split
    · next hempty =>
      have nothing : feeds = [] := by
        simp only [feeds, List.isEmpty_iff.1 hempty, List.filterMap_nil]
      rw [nothing]
      rfl
    · rfl
  · rw [mem_firstMentions, List.mem_map]
    exact exists_congr fun f => by rw [members, and_assoc, and_assoc]
  · refine (pairwise_firstMentionsAfter oldest []).imp ?_
    rintro x y ⟨f, hf, hfx, hall⟩
    obtain ⟨hmem, hr, hspam⟩ := (members f).1 hf
    exact ⟨f, hmem, ⟨hr, hspam, hfx⟩, fun g hg hgr hgs hgy =>
      hall g ((members g).2 ⟨hg, hgr, hgs⟩) hgy⟩

end Query

/-- **Queries agree with a scan of all feeds.** After any history in which every feed was
filed, each listing of a recipient shows the items at the positions of the page among the feeds
that a scan picks, with its size cut to the bound and the whole length as the total, and the
senders of its spam are those of a scan, each once, in the order of their smallest
identifiers. -/
theorem History.queries_scan {s : Settings} {allowed : Act → Prop} {start h : Hub}
    {ts : List Turn} {raw address : String} (hist : History s allowed start ts h)
    (empty : start.store = Store.empty) (files : ∀ t ∈ ts, t.Files)
    (ha : Address.normalize raw = some address) (bound : Nat) (p : Paging) :
    (∀ isSpam includeHidden, ∃ l shown,
      h.store.Scan (fun f => address ∈ f.recipients ∧ f.isSpam = isSpam ∧
        (includeHidden = true ∨ f.hidden = false)) l ∧
      p.Shows bound l shown ∧
      (Query.feeds bound raw isSpam includeHidden p).run .none h =
        (.ok ⟨shown.map Feed.view, l.length⟩, h)) ∧
    (∀ isSpam channel, ∃ l shown,
      h.store.Scan (fun f => address ∈ f.recipients ∧ f.isSpam = isSpam ∧ f.hidden = false ∧
        f.sender = channel) l ∧
      p.Shows bound l shown ∧
      (Query.channelFeeds bound raw isSpam channel p).run .none h =
        (.ok ⟨shown.map Feed.view, l.length⟩, h)) ∧
    ∃ senders, (Query.spamSenders raw).run .none h = (.ok senders, h) ∧ senders.Nodup ∧
      (∀ x, x ∈ senders ↔ ∃ f ∈ h.store.feeds, address ∈ f.recipients ∧ f.isSpam = true ∧
        f.sender = x) ∧
      senders.Pairwise fun x y => ∃ f ∈ h.store.feeds, (address ∈ f.recipients ∧
        f.isSpam = true ∧ f.sender = x) ∧ ∀ g ∈ h.store.feeds, address ∈ g.recipients →
          g.isSpam = true → g.sender = y → f.id < g.id := by
  have hs : h.store.Indexed := hist.indexed (by rw [empty]; exact Store.indexed_empty) files
  refine ⟨fun isSpam includeHidden => ?_, fun isSpam channel => ?_, Query.run_spamSenders hs ha⟩
  · obtain ⟨l, hscan, hrun⟩ :=
      Query.run_recipientPage hs ha bound isSpam ⟨includeHidden, none, none⟩ p
    refine ⟨l, _, ⟨hscan.newest, fun f => (hscan.members f).trans ?_⟩, p.shows_slice bound l, hrun⟩
    simp [Listing.accepts, absentOr]
  · obtain ⟨l, hscan, hrun⟩ :=
      Query.run_recipientPage hs ha bound isSpam ⟨false, some channel, some isSpam⟩ p
    refine ⟨l, _, ⟨hscan.newest, fun f => (hscan.members f).trans ?_⟩, p.shows_slice bound l, hrun⟩
    simp only [Listing.accepts, absentOr, Bool.false_or, Bool.and_eq_true, Bool.not_eq_true',
      decide_eq_true_eq]
    tauto

/-- A hub with one feed, filed under one recipient. -/
def Hub.oneFiled : Hub := ((Intake.add (.sample "p" ["solana:alice"] 5)).run .none .sample).2

/-- A recipient is found under another spelling of its address. -/
theorem History.queries_scan_of_oneFiled :
    ∃ l shown, Hub.oneFiled.store.Scan (fun f => "solana:alice" ∈ f.recipients ∧
        f.isSpam = false ∧ (false = true ∨ f.hidden = false)) l ∧
      (Paging.mk 1 10).Shows 100 l shown ∧
      (Query.feeds 100 " Solana:ALICE" false false ⟨1, 10⟩).run .none Hub.oneFiled =
        (.ok ⟨shown.map Feed.view, l.length⟩, Hub.oneFiled) := by
  have hist : History Settings.sample (fun _ => True) .sample _ Hub.oneFiled :=
    History.start.andThen trivial (.add _) .none
  have files : ∀ t ∈ [] ++ (Intake.add (.sample "p" ["solana:alice"] 5)).turns .none .sample,
      t.Files := fun t ht _ _ _ _ hf => by
    obtain ⟨_, ho⟩ := Program.outage_of_mem_turns ht hf
    cases ho
  have key : Address.normalize " Solana:ALICE" = some "solana:alice" := by decide +kernel
  exact (hist.queries_scan rfl files key 100 ⟨1, 10⟩).1 false false

end NotificationRelay
