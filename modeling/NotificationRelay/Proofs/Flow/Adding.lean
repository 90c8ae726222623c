/-
# Adding feeds side by side

A draft is stored by one call and then filed under its recipients, one call for each, in any order
(`Intake.AddedBy`); adding it one recipient after another is one such way
(`Intake.addedBy_add`). What a single add comes to is read off its program: it reports what the
store answered, and files a new feed, and only a new one, under each recipient of its draft
(`Intake.AddedBy.of_goes`).

Adds that take turns meet only in the store. What it answered so far and its tables are
kept in step by every call (`Tally.step`): a payload identifier leads to the feed that was reported
for it, and of the calls that presented it one was told that it created the feed, unless it was
taken before. At the end this is `Program.Interleaved.adds_exact`.
-/
import Mathlib.Data.Set.List
import NotificationRelay.Proofs.Flow.Filing
import NotificationRelay.Proofs.Flow.Ledger
import NotificationRelay.Proofs.Run.Interleaving
import NotificationRelay.Proofs.Store.Reachability

namespace NotificationRelay

/-! ## What the store was asked to keep -/

/-- The draft that a call presented, and what the store answered. -/
def Call.stored? : (c : Call) → c.Answer → Option (Draft × Inserted)
  | .insert d, .ok r => some (d, r)
  | _, _ => none

/-- The draft that was presented in a turn, and the answer. -/
def Turn.stored? (t : Turn) : Option (Draft × Inserted) := t.call.stored? t.answer

/-- The drafts presented in turns with the answers, in order. -/
def Turn.stored (ts : List Turn) : List (Draft × Inserted) := ts.filterMap Turn.stored?

/-- The store answers, unless the call fails. -/
theorem Call.answer_insert {outages : Outages} {h : Hub} {d : Draft}
    (hf : ¬ (Call.turn (.insert d) outages h).failed) :
    (Call.perform outages (.insert d) h).1 = .ok (h.store.insert d).1 := by
  simp only [perform, Outages.guard, no_outage _ outages h rfl hf, succeed]

/-- A draft that is inserted without a failure is stored as the store answers. -/
theorem Call.stored?_insert {outages : Outages} {h : Hub} {d : Draft}
    (hf : ¬ (Call.turn (.insert d) outages h).failed) :
    (Call.turn (.insert d) outages h).stored? = some (d, (h.store.insert d).1) := by
  unfold Turn.stored? turn
  rw [answer_insert hf]
  rfl

/-- Whether an answer reports that a draft with a payload identifier was new. -/
def Draft.isNew (payloadId : String) (e : Draft × Inserted) : Bool :=
  decide (e.1.payloadId = payloadId) && e.2.created

/-- What the store has answered since it was `start`, and what its tables say now. -/
structure Tally (start : Store) (asked : List (Draft × Inserted)) (s : Store) : Prop where
  coherent : s.Coherent
  kept : ∀ p i, Table.get? p start.payloadIds = some i → Table.get? p s.payloadIds = some i
  told : ∀ e ∈ asked, Table.get? e.1.payloadId s.payloadIds = some e.2.id
  once : ∀ p, (Table.get? p start.payloadIds).isSome.toNat + asked.countP (Draft.isNew p) =
    (Table.get? p s.payloadIds).isSome.toNat
  stored : ∀ e ∈ asked, e.2.created = true → s.feed? e.2.id = some (.ofDraft e.2.id e.1)
  waiting : ∀ i, i ∈ s.outbox ↔
    i ∈ start.outbox ∨ ∃ e ∈ asked, e.2.created = true ∧ e.2.id = i

namespace Tally

variable {start s : Store} {asked : List (Draft × Inserted)}

theorem refl (hs : start.Coherent) : Tally start [] start where
  coherent := hs
  kept _ _ hp := hp
  told _ he := by cases he
  once _ := rfl
  stored _ he := by cases he
  waiting i := by simp

/-- What leaves the tables of feeds alone keeps the tally. -/
theorem of_same (ht : Tally start asked s) {s' : Store} (coherent : s'.Coherent)
    (payloadIds : s'.payloadIds = s.payloadIds) (feeds : s'.feeds = s.feeds)
    (outbox : s'.outbox = s.outbox) : Tally start asked s' where
  coherent := coherent
  kept := by rw [payloadIds]; exact ht.kept
  told := by rw [payloadIds]; exact ht.told
  once := by rw [payloadIds]; exact ht.once
  stored := by unfold Store.feed?; rw [feeds]; exact ht.stored
  waiting := by rw [outbox]; exact ht.waiting

/-- A draft whose payload identifier is taken is answered with the feed that has taken it. -/
theorem insert_of_taken (ht : Tally start asked s) {d : Draft} {i : FeedId}
    (hd : Table.get? d.payloadId s.payloadIds = some i) :
    Tally start (asked ++ [(d, (s.insert d).1)]) (s.insert d).2 := by
  have same : s.insert d = (⟨i, false⟩, s) := by simp only [Store.insert, hd]
  rw [same]
  refine ⟨ht.coherent, ht.kept, fun e he => ?_, fun p => ?_, fun e he created => ?_, fun j => ?_⟩
  · rcases List.mem_append.1 he with he | he
    · exact ht.told e he
    · rw [List.mem_singleton.1 he]
      exact hd
  · have none : [(d, (⟨i, false⟩ : Inserted))].countP (Draft.isNew p) = 0 := by
      simp [Draft.isNew]
    rw [List.countP_append, none, Nat.add_zero]
    exact ht.once p
  · rcases List.mem_append.1 he with he | he
    · exact ht.stored e he created
    · rw [List.mem_singleton.1 he] at created
      cases created
  · rw [ht.waiting]
    simp

/-- A draft whose payload identifier is free becomes a new feed. -/
theorem insert_of_free (ht : Tally start asked s) {d : Draft}
    (hd : Table.get? d.payloadId s.payloadIds = none) :
    Tally start (asked ++ [(d, (s.insert d).1)]) (s.insert d).2 := by
  have answer : (s.insert d).1 = ⟨s.lastId + 1, true⟩ := by simp only [Store.insert, hd]
  have names : (s.insert d).2.payloadIds = Table.put d.payloadId (s.lastId + 1) s.payloadIds := by
    simp only [Store.insert, hd]
  have outbox : (s.insert d).2.outbox = Ascending.insert (s.lastId + 1) s.outbox := by
    simp only [Store.insert, hd]
  have fresh : s.feed? (s.lastId + 1) = none := by
    refine Option.eq_none_iff_forall_ne_some.2 fun f hf => ?_
    have := (ht.coherent.numbered _ (Store.mem_ids_iff.2 ⟨f, hf⟩)).2
    lia
  have other : ∀ p, Table.get? p s.payloadIds ≠ none → d.payloadId ≠ p := fun p hp hdp =>
    hp (hdp ▸ hd)
  rw [answer]
  refine ⟨ht.coherent.insert d, fun p i hp => ?_, fun e he => ?_, fun p => ?_,
    fun e he created => ?_, fun j => ?_⟩
  · have before := ht.kept p i hp
    rw [names, Table.get?_put, if_neg (other p (by simp [before]))]
    exact before
  · rw [names, Table.get?_put]
    rcases List.mem_append.1 he with he | he
    · rw [if_neg (other _ (by simp [ht.told e he]))]
      exact ht.told e he
    · obtain rfl := List.mem_singleton.1 he
      exact if_pos rfl
  · rw [names, Table.get?_put, List.countP_append, ← Nat.add_assoc, ht.once]
    by_cases hp : d.payloadId = p
    · subst hp
      simp [hd, Draft.isNew]
    · simp [hp, Draft.isNew]
  · rw [Store.feed?_insert s d _ hd]
    rcases List.mem_append.1 he with he | he
    · rw [ht.stored e he created]
      rfl
    · obtain rfl := List.mem_singleton.1 he
      rw [fresh, if_pos rfl]
      rfl
  · rw [outbox, Ascending.mem_insert, ht.waiting]
    simp only [List.mem_append, List.mem_singleton]
    constructor
    · rintro (rfl | old | ⟨e, he, created⟩)
      · exact .inr ⟨_, .inr rfl, rfl, rfl⟩
      · exact .inl old
      · exact .inr ⟨e, .inl he, created⟩
    · rintro (old | ⟨e, he | rfl, created, rfl⟩)
      · exact .inr (.inl old)
      · exact .inr (.inr ⟨e, he, created, rfl⟩)
      · exact .inl rfl

/-- A draft that is presented keeps the tally. -/
theorem insert (ht : Tally start asked s) (d : Draft) :
    Tally start (asked ++ [(d, (s.insert d).1)]) (s.insert d).2 := by
  cases hd : Table.get? d.payloadId s.payloadIds with
  | some i => exact ht.insert_of_taken hd
  | none => exact ht.insert_of_free hd

/-- **One call of an add** keeps the tally, unless it fails. -/
theorem step {t : Turn} (ht : Tally start asked t.before.store) (genuine : t.Genuine)
    (healthy : ¬ t.failed) {d : Draft} (makes : Intake.Makes d t.call) :
    Tally start (asked ++ Turn.stored [t]) t.after.store := by
  obtain ⟨outages, turn⟩ := genuine
  obtain ⟨h, c, a, h'⟩ := t
  rw [turn] at healthy ⊢
  have after := c.store_perform_of_not_failed outages h healthy
  have coherent := c.coherent_perform outages ht.coherent
  have silent : Turn.stored [c.turn outages h] = [] →
      (c.effect h.store).payloadIds = h.store.payloadIds →
      (c.effect h.store).feeds = h.store.feeds → (c.effect h.store).outbox = h.store.outbox →
      Tally start (asked ++ Turn.stored [c.turn outages h]) (c.perform outages h).2.store := by
    intro none payloadIds feeds outbox
    rw [none, List.append_nil]
    rw [after] at coherent ⊢
    exact ht.of_same coherent payloadIds feeds outbox
  cases makes with
  | insert =>
    show Tally start _ (Call.perform outages (.insert d) h).2.store
    have one : Turn.stored [Call.turn (.insert d) outages h] = [(d, (h.store.insert d).1)] := by
      unfold Turn.stored
      rw [List.filterMap_cons_some (Call.stored?_insert healthy)]
      rfl
    rw [one, after]
    exact ht.insert d
  | index hc =>
    cases hc with
    | append => exact silent rfl rfl rfl rfl
    | wake => exact silent rfl rfl rfl rfl

/-- The calls of adds keep the tally. -/
theorem of_chain {s' : Store} {ts : List Turn} (c : Turn.Chain s ts s') (ht : Tally start asked s)
    (healthy : ∀ t ∈ ts, ¬ t.failed) (makes : ∀ t ∈ ts, ∃ d, Intake.Makes d t.call) :
    Tally start (asked ++ Turn.stored ts) s' := by
  induction c generalizing asked with
  | nil => simpa [Turn.stored] using ht
  | @cons t ts s' genuine _ ih =>
    obtain ⟨d, hd⟩ := makes t List.mem_cons_self
    have first := ht.step genuine (healthy t List.mem_cons_self) hd
    have rest := ih first (fun u hu => healthy u (List.mem_cons_of_mem _ hu))
      fun u hu => makes u (List.mem_cons_of_mem _ hu)
    have split : Turn.stored (t :: ts) = Turn.stored [t] ++ Turn.stored ts :=
      List.filterMap_append (l := [t])
    rwa [split, ← List.append_assoc]

/-- Of the drafts with a payload identifier that was free exactly one was told that it is new, and
all were told of one feed. -/
theorem one_new (ht : Tally start asked s) {e : Draft × Inserted} (he : e ∈ asked)
    (free : Table.get? e.1.payloadId start.payloadIds = none) :
    asked.countP (Draft.isNew e.1.payloadId) = 1 ∧
      ∀ e' ∈ asked, e'.1.payloadId = e.1.payloadId → e'.2.id = e.2.id := by
  have known := ht.told e he
  constructor
  · have once := ht.once e.1.payloadId
    rw [free, known] at once
    exact (Nat.zero_add _).symm.trans once
  · intro e' he' same
    have told := ht.told e' he'
    rw [same] at told
    exact Option.some.inj (told.symm.trans known)

/-- A draft with a payload identifier that was taken was told of the feed that had taken it. -/
theorem old_of_taken (ht : Tally start asked s) {e : Draft × Inserted} (he : e ∈ asked) {i : FeedId}
    (taken : Table.get? e.1.payloadId start.payloadIds = some i) : e.2 = ⟨i, false⟩ := by
  have known := ht.kept _ _ taken
  have once := ht.once e.1.payloadId
  rw [taken, known] at once
  have none : asked.countP (Draft.isNew e.1.payloadId) = 0 := by simpa using once
  have old := List.countP_eq_zero.1 none e he
  rw [Draft.isNew, decide_eq_true rfl, Bool.true_and, Bool.not_eq_true] at old
  have told := ht.told e he
  obtain ⟨d, ⟨j, created⟩⟩ := e
  obtain rfl : created = false := old
  obtain rfl : j = i := Option.some.inj (told.symm.trans known)
  rfl

/-- A feed that was created waits in the outbox once. -/
theorem count_outbox (ht : Tally start asked s) {e : Draft × Inserted} (he : e ∈ asked)
    (created : e.2.created = true) : s.outbox.count e.2.id = 1 := by
  refine List.count_eq_one_of_mem (ht.coherent.queued.imp Int.ne_of_lt) ?_
  exact (ht.waiting _).2 (.inr ⟨e, he, created, rfl⟩)

end Tally

/-! ## What one add comes to -/

namespace Intake

/-- Stores a draft and, if it is new, files it in a given way, and calls the outbox loop. -/
def addBy (file : FeedId → Program (List (Stored Unit))) (d : Draft) :
    Program (Except FeedError Inserted) := do
  match ← Program.perform (.insert d) with
  | .error e => return .error (.store e)
  | .ok inserted =>
    if inserted.created then
      let _ ← file inserted.id
      Program.perform .wake
      return .ok inserted
    else
      return .ok inserted

/-- The ways to add a draft: a new feed is filed under its recipients in any order. -/
inductive AddedBy (d : Draft) : Program (Except FeedError Inserted) → Prop
  | inAnyOrder {limit : Nat} {file : FeedId → Program (List (Stored Unit))}
      (sideBySide : ∀ i, Program.Weave limit
        (d.recipients.map fun r => Program.perform (.append r i d.isSpam)) (file i)) :
      AddedBy d (addBy file d)

/-- Filing a feed under one recipient after another is one of the ways. -/
theorem addedBy_add (d : Draft) : AddedBy d (add d) := by
  have same : add d = addBy (fun i => Program.forEach d.recipients fun r =>
      Program.perform (.append r i d.isSpam)) d := by
    unfold add addBy
    refine congrArg (Program.bind _) (funext fun answer => ?_)
    match answer with
    | .error _ => rfl
    | .ok inserted =>
      show (if inserted.created then _ else _ : Program _) = if inserted.created then _ else _
      split
      · exact Program.bind_assoc _ _ _
      · rfl
  rw [same]
  exact .inAnyOrder fun i => Program.weave_forEach (Nat.le_refl 1) _ _

variable {d : Draft} {p : Program (Except FeedError Inserted)}

/-- Whoever adds a draft makes the calls of this draft only. -/
theorem AddedBy.only (hp : AddedBy d p) : p.Only (Makes d) := by
  cases hp with
  | inAnyOrder sideBySide =>
    refine Program.Only.bind_except (Program.only_perform .insert) (fun _ => trivial)
      fun inserted => ?_
    show (if inserted.created then _ else _ : Program _).Only _
    split
    · refine ((sideBySide inserted.id).only fun q hq => ?_).bind fun _ =>
        (Program.only_perform (@Makes.index d inserted.id _ .wake)).bind fun _ => trivial
      obtain ⟨r, hr, rfl⟩ := List.mem_map.1 hq
      exact Program.only_perform (.index (.append hr))
    · trivial

/-- An add files nothing but the feed that it has created. -/
theorem AddedBy.created_of_append {q : Program (Except FeedError Inserted)} (hp : AddedBy d p)
    {us : List Turn} (g : p.Goes us q) {u : Turn} (hu : u ∈ us) {r : String}
    {i : FeedId} {b : Bool} (filing : u.call = .append r i b) :
    ∃ v ∈ us, v.created? = some (i, d) := by
  cases hp with
  | @inAnyOrder limit file sideBySide =>
    rcases Program.Goes.of_bind g with ⟨p', asking, unfinished, -⟩ | ⟨us, vs, answer, rfl, asking, g⟩
    · rcases asking.of_call with ⟨rfl, -⟩ | ⟨outages, h, vs, -, rest⟩
      · cases hu
      · obtain ⟨-, rfl⟩ := rest.of_done
        cases unfinished
    · obtain ⟨outages, h, rfl, answered⟩ := asking.of_perform
      have inserting : ((Call.insert d).turn outages h).created? =
          Call.created? (.insert d) answer := by
        rw [answered]
        rfl
      rcases List.mem_append.1 hu with hu | hu
      · rw [List.mem_singleton.1 hu] at filing
        cases filing
      refine ⟨_, List.mem_append_left _ List.mem_cons_self, ?_⟩
      rw [inserting]
      match answer with
      | .error e =>
        obtain ⟨rfl, -⟩ := Program.Goes.of_done g
        cases hu
      | .ok inserted =>
        replace g : (if inserted.created then _ else _ : Program _).Goes vs q := g
        split at g
        · next new =>
          have only : ((file inserted.id).bind fun _ => (Program.perform .wake).bind fun _ =>
              Program.done (Except.ok inserted : Except FeedError Inserted)).Only
                (Indexes d inserted.id) := by
            refine ((sideBySide inserted.id).only fun q hq => ?_).bind fun _ =>
              (Program.only_perform .wake).bind fun _ => trivial
            obtain ⟨r, hr, rfl⟩ := List.mem_map.1 hq
            exact Program.only_perform (.append hr)
          have made := (Program.Goes.only g only).1 u hu
          rw [filing] at made
          cases made with
          | append => exact if_pos new
        · obtain ⟨rfl, -⟩ := Program.Goes.of_done g
          cases hu

/-- A feed that is filed in any order is filed under each of its recipients, and nothing else is. -/
theorem filed_of_weave {limit : Nat} {w : Program (List (Stored Unit))} {i : FeedId}
    (hw : Program.Weave limit
      (d.recipients.map fun r => Program.perform (.append r i d.isSpam)) w) {us : List Turn}
    {results : List (Stored Unit)} (g : w.Goes us (.done results))
    (healthy : ∀ u ∈ us, ¬ u.failed) (r : String) (j : FeedId) (b : Bool) :
    (∃ u ∈ us, u.Filed r j b) ↔ i = j ∧ r ∈ d.recipients ∧ d.isSpam = b := by
  constructor
  · rintro ⟨u, hu, filed, -⟩
    have only : w.Only fun c => ∃ r ∈ d.recipients, c = .append r i d.isSpam := by
      refine hw.only fun q hq => ?_
      obtain ⟨r, hr, rfl⟩ := List.mem_map.1 hq
      exact Program.only_perform ⟨r, hr, rfl⟩
    obtain ⟨r', hr, made⟩ := (g.only only).1 u hu
    have same := filed.symm.trans made
    simp only [Call.append.injEq] at same
    obtain ⟨rfl, rfl, rfl⟩ := same
    exact ⟨rfl, hr, rfl⟩
  · rintro ⟨rfl, hr, rfl⟩
    obtain ⟨vs, a, goes, sub⟩ := hw.exists_goes g (List.mem_map_of_mem hr)
    obtain ⟨outages, h, rfl, -⟩ := goes.of_perform
    have mine := sub List.mem_cons_self
    exact ⟨_, mine, rfl, healthy _ mine⟩

/-- Nothing is stored by the calls that file a feed. -/
theorem stored_eq_nil_of_indexes {i : FeedId} {us : List Turn}
    (makes : ∀ u ∈ us, Indexes d i u.call) : Turn.stored us = [] := by
  refine List.filterMap_eq_nil_iff.2 fun u hu => ?_
  have filing := makes u hu
  obtain ⟨_, c, _, _⟩ := u
  cases filing <;> rfl

/-- An add none of whose calls fails reports what the store answered, and has filed a new feed
under each of its recipients, and nothing else. -/
theorem AddedBy.of_goes (hp : AddedBy d p) {us : List Turn} {result : Except FeedError Inserted}
    (g : p.Goes us (.done result)) (healthy : ∀ u ∈ us, ¬ u.failed) :
    ∃ inserted, result = .ok inserted ∧ Turn.stored us = [(d, inserted)] ∧
      ∀ r i b, (∃ u ∈ us, u.Filed r i b) ↔
        inserted.created = true ∧ inserted.id = i ∧ r ∈ d.recipients ∧ d.isSpam = b := by
  cases hp with
  | @inAnyOrder limit file sideBySide =>
    obtain ⟨us₁, us₂, answer, rfl, asking, g⟩ := Program.Goes.of_bind_done g
    obtain ⟨outages, h, rfl, rfl⟩ := asking.of_perform
    have reached := healthy _ (List.mem_append_left _ List.mem_cons_self)
    rw [Call.answer_insert reached] at g
    have stored : Turn.stored ([(Call.insert d).turn outages h] ++ us₂) =
        (d, (h.store.insert d).1) :: Turn.stored us₂ :=
      List.filterMap_cons_some (Call.stored?_insert reached)
    have first : ∀ r i b, ¬ ((Call.insert d).turn outages h).Filed r i b :=
      fun r i b filed => nomatch filed.1
    -- from here on only the answer matters: the feed is filed if it is new
    generalize (h.store.insert d).1 = inserted at g stored
    replace g : (if inserted.created then _ else _ : Program _).Goes us₂ (.done result) := g
    rw [stored]
    split at g
    · next new =>
      obtain ⟨vs, ws, results, rfl, filing, g⟩ := Program.Goes.of_bind_done g
      obtain ⟨xs, ys, _, rfl, waking, g⟩ := Program.Goes.of_bind_done g
      obtain ⟨rfl, ended⟩ := g.of_done
      obtain ⟨outages', h', rfl, -⟩ := waking.of_perform
      cases ended
      have only : (file inserted.id).Only (Indexes d inserted.id) :=
        (sideBySide inserted.id).only fun q hq => by
          obtain ⟨r, hr, rfl⟩ := List.mem_map.1 hq
          exact Program.only_perform (.append hr)
      have silent : Turn.stored (vs ++ ([Call.wake.turn outages' h'] ++ [])) = [] := by
        refine stored_eq_nil_of_indexes (d := d) (i := inserted.id) fun u hu => ?_
        rcases List.mem_append.1 hu with hu | hu
        · exact (filing.only only).1 u hu
        · rw [List.append_nil] at hu
          rw [List.mem_singleton.1 hu]
          exact .wake
      refine ⟨inserted, rfl, by rw [silent], fun r i b => ?_⟩
      have filed := filed_of_weave (sideBySide inserted.id) filing (fun u hu =>
        healthy u (List.mem_append_right _ (List.mem_append_left _ hu))) r i b
      have last : ¬ (Call.wake.turn outages' h').Filed r i b := fun filed => nomatch filed.1
      simp only [List.mem_append, List.mem_singleton, List.append_nil, or_and_right, exists_or,
        exists_eq_left, first, last, false_or, or_false, filed, new, true_and]
    · next old =>
      obtain ⟨rfl, ended⟩ := g.of_done
      cases ended
      refine ⟨inserted, rfl, rfl, fun r i b => ?_⟩
      simp [first, old]

end Intake

/-! ## Adds that take turns -/

namespace Program.Interleaved

variable {start h' : Hub} {drafts : List Draft} {ps : List (Program (Except FeedError Inserted))}
  {moves : List (Nat × Turn)} {results : List (Except FeedError Inserted)}

/-- Every draft is added by a program of its own. -/
theorem exists_add (adds : List.Forall₂ Intake.AddedBy drafts ps) {k : Nat} {d : Draft}
    (hk : drafts[k]? = some d) : ∃ p, ps[k]? = some p ∧ Intake.AddedBy d p := by
  obtain ⟨length, add⟩ := List.forall₂_iff_get.1 adds
  obtain ⟨inside, rfl⟩ := List.getElem?_eq_some_iff.1 hk
  exact ⟨_, List.getElem?_eq_getElem (length ▸ inside), add k inside (length ▸ inside)⟩

/-- Each of the adds has come to its end as it would alone. -/
theorem add_of_share (adds : List.Forall₂ Intake.AddedBy drafts ps)
    (r : Interleaved ps start moves (results.map .done) h') (healthy : ∀ m ∈ moves, ¬ m.2.failed)
    {k : Nat} {d : Draft} (hk : drafts[k]? = some d) :
    ∃ inserted, results[k]? = some (.ok inserted) ∧
      Turn.stored (Turn.share k moves) = [(d, inserted)] ∧
      ∀ r i b, (∃ u ∈ Turn.share k moves, u.Filed r i b) ↔
        inserted.created = true ∧ inserted.id = i ∧ r ∈ d.recipients ∧ d.isSpam = b := by
  obtain ⟨p, hp, add⟩ := exists_add adds hk
  obtain ⟨q, hq, goes⟩ := r.goes hp
  rw [List.getElem?_map] at hq
  obtain ⟨result, hresult, rfl⟩ := Option.map_eq_some_iff.1 hq
  obtain ⟨inserted, rfl, stored, filed⟩ := add.of_goes goes fun u hu =>
    healthy _ (Turn.mem_share.1 hu)
  exact ⟨inserted, hresult, stored, filed⟩

/-- The calls of adds are those that adds make. -/
theorem makes_of_adds (adds : List.Forall₂ Intake.AddedBy drafts ps)
    {qs : List (Program (Except FeedError Inserted))} (r : Interleaved ps start moves qs h') :
    ∀ t ∈ moves.map (·.2), ∃ d, Intake.Makes d t.call := by
  intro t ht
  obtain ⟨⟨k, u⟩, hm, rfl⟩ := List.mem_map.1 ht
  obtain ⟨p, q, hp, -, goes, mine⟩ := r.exists_goes hm
  have inside : k < drafts.length := by
    rw [adds.length_eq]
    exact (List.getElem?_eq_some_iff.1 hp).1
  obtain ⟨p', hp', add⟩ := exists_add adds (List.getElem?_eq_getElem inside)
  obtain rfl : p = p' := Option.some.inj (hp.symm.trans hp')
  exact ⟨_, (goes.only add.only).1 u mine⟩

/-- A list put together from its places. -/
theorem flatMap_range_getElem? {γ : Type} (l : List γ) :
    (List.range l.length).flatMap (fun k => l[k]?.toList) = l := by
  induction l with
  | nil => rfl
  | cons a l ih =>
    rw [List.length_cons, List.range_succ_eq_map, List.flatMap_cons, List.flatMap_map]
    simp [ih]

/-- Adds that have come to their ends report what the store answered, each to its own draft. -/
theorem exists_given (adds : List.Forall₂ Intake.AddedBy drafts ps)
    (r : Interleaved ps start moves (results.map .done) h') (healthy : ∀ m ∈ moves, ¬ m.2.failed) :
    ∃ given : List Inserted, results = given.map .ok ∧ given.length = drafts.length ∧
      (Turn.stored (moves.map (·.2))).Perm (drafts.zip given) := by
  have length : results.length = drafts.length := by
    rw [adds.length_eq, ← r.length_eq, List.length_map]
  have reported : ∀ x ∈ results, x ∈ Set.range (Except.ok : Inserted → Except FeedError Inserted) :=
    fun x hx => by
      obtain ⟨k, hk⟩ := List.mem_iff_getElem?.1 hx
      have inside : k < drafts.length := length ▸ (List.getElem?_eq_some_iff.1 hk).1
      obtain ⟨inserted, same, -⟩ := add_of_share adds r healthy (List.getElem?_eq_getElem inside)
      exact ⟨inserted, Option.some.inj (same.symm.trans hk)⟩
  obtain ⟨given, rfl⟩ := (Set.range_list_map (Except.ok : Inserted → _)).ge reported
  rw [List.length_map] at length
  refine ⟨given, rfl, length, ?_⟩
  -- the answers in the order of the calls, and in the order of the adds
  have perm := (Turn.perm_shares (n := drafts.length) fun m hm => by
    rw [adds.length_eq]
    exact r.lt_length (k := m.1) (u := m.2) hm).filterMap Turn.stored?
  have places : ((List.range drafts.length).flatMap fun k => Turn.share k moves).filterMap
      Turn.stored? = drafts.zip given := by
    have zip : (drafts.zip given).length = drafts.length := by simp [length]
    rw [List.filterMap_flatMap, ← flatMap_range_getElem? (drafts.zip given), zip]
    refine List.flatMap_congr fun k hk => ?_
    have inside := List.mem_range.1 hk
    obtain ⟨inserted, result, stored, -⟩ :=
      add_of_share adds r healthy (List.getElem?_eq_getElem inside)
    have pair : (drafts.zip given)[k]? = some (drafts[k], inserted) := by
      refine List.getElem?_zip_eq_some.2 ⟨List.getElem?_eq_getElem inside, ?_⟩
      simpa using result
    rw [pair]
    exact stored
  rw [places] at perm
  exact perm

/-- What has been filed is what was created, under the recipients of its draft. -/
theorem filed_iff {given : List Inserted} (adds : List.Forall₂ Intake.AddedBy drafts ps)
    (run : Interleaved ps start moves ((given.map .ok).map .done) h')
    (healthy : ∀ m ∈ moves, ¬ m.2.failed) {r : String} {i : FeedId} {b : Bool} :
    (∃ t ∈ moves.map (·.2), t.Filed r i b) ↔ ∃ e ∈ drafts.zip given,
      e.2.created = true ∧ e.2.id = i ∧ r ∈ e.1.recipients ∧ e.1.isSpam = b := by
  constructor
  · rintro ⟨t, ht, filed⟩
    obtain ⟨⟨k, u⟩, hm, rfl⟩ := List.mem_map.1 ht
    have inside : k < drafts.length := by
      rw [adds.length_eq]
      exact run.lt_length hm
    have hk := List.getElem?_eq_getElem inside
    obtain ⟨inserted, result, -, files⟩ := add_of_share adds run healthy hk
    have answer : given[k]? = some inserted := by simpa using result
    exact ⟨(drafts[k], inserted),
      List.mem_of_getElem? (List.getElem?_zip_eq_some.2 ⟨hk, answer⟩),
      (files r i b).1 ⟨u, Turn.mem_share.2 hm, filed⟩⟩
  · rintro ⟨e, he, filed⟩
    obtain ⟨k, hk⟩ := List.mem_iff_getElem?.1 he
    obtain ⟨draft, answer⟩ := List.getElem?_zip_eq_some.1 hk
    obtain ⟨inserted, result, -, files⟩ := add_of_share adds run healthy draft
    obtain rfl : e.2 = inserted := by simpa [answer] using result
    obtain ⟨u, mine, done⟩ := (files r i b).2 filed
    exact ⟨u, List.mem_map.2 ⟨(k, u), Turn.mem_share.1 mine, rfl⟩, done⟩

/-- **Adds side by side lose nothing and duplicate nothing.** Any drafts are added to a store that
can come about, call by call in any order, each filed under its recipients in any order, and no
call fails. When all have come to their ends they have reported a feed each: of those with a
payload identifier that was not taken exactly one reports to have created the feed, and all report
the same one; where it was taken they report the feed that was there. A feed that was created is
stored as its draft says and waits in the outbox once, and each partition of the index
lists what it listed before and the feeds that were created for it. -/
theorem adds_exact (reachable : start.store.Reachable)
    (adds : List.Forall₂ Intake.AddedBy drafts ps)
    (r : Interleaved ps start moves (results.map .done) h') (healthy : ∀ m ∈ moves, ¬ m.2.failed) :
    ∃ given : List Inserted, results = given.map .ok ∧ given.length = drafts.length ∧
      (∀ p, (∃ d ∈ drafts, d.payloadId = p) → (∀ f ∈ start.store.feeds, f.payloadId ≠ p) →
        (drafts.zip given).countP (fun e => decide (e.1.payloadId = p) && e.2.created) = 1 ∧
        ∃ i, ∀ e ∈ drafts.zip given, e.1.payloadId = p → e.2.id = i) ∧
      (∀ f ∈ start.store.feeds, ∀ e ∈ drafts.zip given, e.1.payloadId = f.payloadId →
        e.2 = ⟨f.id, false⟩) ∧
      (∀ e ∈ drafts.zip given, e.2.created = true →
        h'.store.feed? e.2.id = some (.ofDraft e.2.id e.1) ∧ h'.store.outbox.count e.2.id = 1) ∧
      (∀ i, i ∈ h'.store.outbox ↔ i ∈ start.store.outbox ∨
        ∃ e ∈ drafts.zip given, e.2.created = true ∧ e.2.id = i) ∧
      ∀ r b, (h'.store.indexed r b).Pairwise (· < ·) ∧ ∀ i, i ∈ h'.store.indexed r b ↔
        i ∈ start.store.indexed r b ∨ ∃ e ∈ drafts.zip given,
          e.2.created = true ∧ e.2.id = i ∧ r ∈ e.1.recipients ∧ e.1.isSpam = b := by
  obtain ⟨given, rfl, length, perm⟩ := exists_given adds r healthy
  have coherent := reachable.coherent
  have makes := makes_of_adds adds r
  have tally : Tally start.store (Turn.stored (moves.map (·.2))) h'.store :=
    Tally.of_chain r.chain (.refl coherent) (fun t ht => by
      obtain ⟨m, hm, rfl⟩ := List.mem_map.1 ht
      exact healthy m hm) makes
  have member : ∀ e, e ∈ Turn.stored (moves.map (·.2)) ↔ e ∈ drafts.zip given :=
    fun e => perm.mem_iff
  refine ⟨given, rfl, length, ?_, ?_, ?_, ?_, ?_⟩
  · rintro p ⟨d, hd, rfl⟩ free
    have unknown : Table.get? d.payloadId start.store.payloadIds = none := by
      refine Option.eq_none_iff_forall_ne_some.2 fun i hi => ?_
      obtain ⟨f, hf, named⟩ := List.mem_map.1 ((coherent.named _ _).1 hi)
      exact free f hf (congrArg Prod.fst named)
    obtain ⟨k, hk⟩ := List.mem_iff_getElem?.1 hd
    have inside : k < given.length := length ▸ (List.getElem?_eq_some_iff.1 hk).1
    have asked : (d, given[k]) ∈ drafts.zip given := List.mem_of_getElem? (i := k)
      (List.getElem?_zip_eq_some.2 ⟨hk, List.getElem?_eq_getElem inside⟩)
    obtain ⟨once, same⟩ := tally.one_new ((member _).2 asked) unknown
    exact ⟨(perm.countP_eq _).symm.trans once, _, fun e he => same e ((member e).2 he)⟩
  · intro f hf e he same
    refine tally.old_of_taken ((member e).2 he) ?_
    rw [same]
    exact (coherent.named _ _).2 (List.mem_map_of_mem hf)
  · intro e he created
    have asked := (member e).2 he
    exact ⟨tally.stored e asked created, tally.count_outbox asked created⟩
  · intro i
    simp only [tally.waiting, member]
  · intro r' b
    refine ⟨(r.chain.reachable reachable).ascending r' b, fun i => ?_⟩
    have kept : ∀ t ∈ moves.map (·.2), ∀ ids, t.call ≠ .unindex ids := fun t ht ids unindex => by
      obtain ⟨d, hd⟩ := makes t ht
      rw [unindex] at hd
      cases hd with
      | index hc => cases hc
    rw [r.chain.mem_indexed_iff kept, filed_iff adds r healthy]

/-- Three adds to a store with one feed: its payload identifier comes back, and two drafts share
one of their own. -/
def racers : List Draft :=
  [.sample "p" ["solana:bob"] 7, .sample "q" ["solana:alice"] 8,
    .sample "q" ["solana:alice", "solana:bob"] 9]

/-- The last of them is stored first, and the others ask while it is being filed. -/
def racing : List (Nat × Turn) × List (Program (Except FeedError Inserted)) × Hub :=
  takeTurns .none [2, 1, 2, 0, 2, 2] (racers.map Intake.add) History.oneStored

/-- One feed is created, for the last of the drafts, and is filed once. -/
theorem adds_exact_of_racing :
    racing.2.1 = ([⟨1, false⟩, ⟨2, false⟩, ⟨2, true⟩].map .ok).map .done ∧
      racing.2.2.store.outbox.count 2 = 1 ∧
      ∀ i, i ∈ racing.2.2.store.indexed "solana:bob" false ↔
        i ∈ History.oneStored.store.indexed "solana:bob" false ∨ i = 2 := by
  have ended : racing.2.1 = ([⟨1, false⟩, ⟨2, false⟩, ⟨2, true⟩].map .ok).map .done := rfl
  have run : Interleaved _ _ racing.1 racing.2.1 racing.2.2 := of_takeTurns .none _ _ _
  rw [ended] at run
  have reachable : History.oneStored.store.Reachable :=
    (runs_run .none (Intake.add (.sample "p" ["solana:alice"] 5)) .sample).chain.reachable
      Store.reachable_empty
  have healthy : ∀ m ∈ racing.1, ¬ m.2.failed := fun m hm => not_failed_of_takeTurns hm
  have adds : List.Forall₂ Intake.AddedBy racers (racers.map Intake.add) := by
    rw [List.forall₂_map_right_iff]
    exact List.forall₂_same.2 fun d _ => Intake.addedBy_add d
  obtain ⟨given, same, -, -, -, created, -, index⟩ := adds_exact reachable adds run healthy
  obtain rfl := List.map_injective_iff.2 (fun _ _ => Except.ok.inj) same
  have third : (.sample "q" ["solana:alice", "solana:bob"] 9, ⟨2, true⟩) ∈
      racers.zip ([⟨1, false⟩, ⟨2, false⟩, ⟨2, true⟩] : List Inserted) :=
    List.mem_of_getElem? (i := 2) rfl
  refine ⟨ended, (created _ third rfl).2, fun i => ?_⟩
  rw [(index "solana:bob" false).2]
  refine or_congr_right ⟨?_, ?_⟩
  · rintro ⟨e, he, new, rfl, -, -⟩
    simp only [racers, List.zip_cons_cons, List.zip_nil_left, List.mem_cons, List.not_mem_nil,
      or_false] at he
    rcases he with rfl | rfl | rfl
    · cases new
    · cases new
    · rfl
  · rintro rfl
    exact ⟨_, third, rfl, rfl, List.mem_cons_of_mem _ List.mem_cons_self, rfl⟩

end Program.Interleaved
end NotificationRelay
