/-
# How the entries of a batch are handled

An entry of the outbox is handled in one of three ways: it cannot be looked up, or there is nothing
to process, or its feed is processed (`Outbox.Handled`); but for the first case it is taken out
afterwards, unless the acknowledgement is lost. Which entries were looked up and which were taken
out is read off the calls (`Turn.considered`, `Turn.acknowledged`), and so is what becomes of the
outbox where nothing is stored and nothing deleted (`Turn.Chain.outbox_eq`).

However the entries of a batch take turns, all calls that name an entry are made by its own program
(`Outbox.Handling`). So each entry is looked up once and found as it was when the batch was begun,
and an entry that could not be looked up is left alone (`Outbox.Handling.unread`).
-/
import NotificationRelay.Proofs.Flow.Abandonment
import NotificationRelay.Proofs.Flow.Account
import NotificationRelay.Proofs.Run.Beginning

namespace NotificationRelay

/-! ## What is read off the calls of a pass -/

/-- The entry that a call looks up. -/
def Call.sought? : Call → Option FeedId
  | .load i => some i
  | _ => none

/-- The entry that a call has taken out of the outbox. -/
def Call.acknowledged? : (c : Call) → c.Answer → Option FeedId
  | .acknowledge i, .ok () => some i
  | _, _ => none

/-- The entry of the outbox that a call names, or the feed whose processing it begins. -/
def Call.entry? : Call → Option FeedId
  | .load i => some i
  | .note i => some i
  | .acknowledge i => some i
  | _ => none

/-- A call that asks for the outbox. -/
def Call.asksOutbox : Call → Bool
  | .pending _ => true
  | _ => false

/-- A call that stores feeds or deletes them. -/
def Call.restocks : Call → Bool
  | .insert _ => true
  | .deleteExpired _ => true
  | _ => false

/-- A feed is stored and has not been processed. -/
def Store.isUnprocessed (s : Store) (i : FeedId) : Bool := (s.feed? i).any fun f => !f.processed

/-- What is taken out in two steps is taken out. -/
theorem Ascending.diff_diff (ns ids more : List Int) :
    diff (diff ns ids) more = diff ns (ids ++ more) := by
  unfold diff
  rw [List.filter_filter]
  refine List.filter_congr fun n _ => ?_
  simp [Bool.and_comm]

namespace Turn

/-- The entries that are looked up in turns, in order. -/
def considered (ts : List Turn) : List FeedId := ts.filterMap (·.call.sought?)

/-- The entries that are taken out of the outbox in turns, in order. -/
def acknowledged (ts : List Turn) : List FeedId :=
  ts.filterMap fun t => t.call.acknowledged? t.answer

/-- A turn tries to take an entry out of the outbox; whether it succeeds. -/
structure Acknowledges (i : FeedId) (b : Bool) (v : Turn) : Prop where
  call : v.call = .acknowledge i
  answer : v.call.acknowledged? v.answer = if b then some i else none
  reached : b = true ↔ ¬ v.failed

variable {i : FeedId} {ts us : List Turn} {s s' : Store}

theorem considered_append : considered (ts ++ us) = considered ts ++ considered us :=
  List.filterMap_append

theorem acknowledged_append : acknowledged (ts ++ us) = acknowledged ts ++ acknowledged us :=
  List.filterMap_append

/-- An entry is considered if its feed is loaded. -/
theorem mem_considered : i ∈ considered ts ↔ ∃ u ∈ ts, u.call = .load i := by
  unfold considered
  rw [List.mem_filterMap]
  refine exists_congr fun u => and_congr_right fun _ => ⟨fun sought => ?_, fun made => ?_⟩
  · generalize u.call = c at sought
    cases c with
    | load j => exact congrArg Call.load (Option.some.inj sought)
    | _ => cases sought
  · rw [made]
    rfl

/-- A genuine turn of a passive call leaves the store as it was. -/
theorem Genuine.store_of_passive {t : Turn} (genuine : t.Genuine)
    (passive : t.call.isPassive = true) : t.after.store = t.before.store := by
  obtain ⟨outages, ht⟩ := genuine
  have after : t.after = (t.call.perform outages t.before).2 := congrArg Turn.after ht
  rw [after]
  by_cases hf : (t.call.turn outages t.before).failed
  · rw [Call.perform_of_failed _ outages _ hf]
  · rw [Call.store_perform_of_not_failed _ outages _ hf, Call.effect_of_passive _ passive]

/-- A call that stores and deletes nothing takes out of the outbox what it acknowledges. -/
theorem Genuine.outbox_eq {t : Turn} (genuine : t.Genuine) (keeps : t.call.restocks = false) :
    t.after.store.outbox = Ascending.diff t.before.store.outbox (acknowledged [t]) := by
  obtain ⟨outages, ht⟩ := genuine
  rw [ht]
  generalize t.call = c at keeps
  generalize t.before = h
  have none : Ascending.diff h.store.outbox [] = h.store.outbox := by simp [Ascending.diff]
  by_cases hf : (c.turn outages h).failed
  · have silent : acknowledged [c.turn outages h] = [] := by
      obtain ⟨reason, failure⟩ := hf
      cases c with
      | acknowledge j =>
        have answer : (Call.perform outages (.acknowledge j) h).1 = .error (.unavailable reason) :=
          Call.error_of_failureOf failure
        simp [acknowledged, Call.turn, answer, Call.acknowledged?]
      | _ => rfl
    show (c.perform outages h).2.store.outbox = _
    rw [silent, c.perform_of_failed outages h hf]
    exact none.symm
  · show (c.perform outages h).2.store.outbox = _
    rw [c.store_perform_of_not_failed outages h hf]
    cases c with
    | acknowledge j =>
      have answer : (Call.perform outages (.acknowledge j) h).1 = .ok () := by
        simp only [Call.perform, Outages.guard, Call.no_outage _ outages h rfl hf]
      simp [acknowledged, Call.turn, answer, Call.acknowledged?, Call.effect, Store.acknowledge,
        Ascending.diff]
    | insert | deleteExpired => cases keeps
    | complete j p =>
      rw [Call.effect, Store.complete, Store.update_snd]
      exact none.symm
    | bump j =>
      rw [Call.effect, Store.bump, Store.update_snd]
      exact none.symm
    | advance j epoch =>
      obtain ⟨_, advanced⟩ := h.store.advance_snd Broadcast.watermarkKey epoch
      rw [Call.effect, advanced]
      exact none.symm
    | _ => exact none.symm

/-- **What calls acknowledge leaves the outbox**, and nothing else if they neither store feeds nor
delete them. -/
theorem Chain.outbox_eq (c : Chain s ts s') (keeps : ∀ t ∈ ts, t.call.restocks = false) :
    s'.outbox = Ascending.diff s.outbox (acknowledged ts) := by
  induction c with
  | nil => simp [acknowledged, Ascending.diff]
  | @cons t ts s' genuine _ ih =>
    rw [ih fun u hu => keeps u (List.mem_cons_of_mem _ hu),
      genuine.outbox_eq (keeps t List.mem_cons_self), Ascending.diff_diff, ← acknowledged_append,
      List.singleton_append]

end Turn

/-! ## How an entry is handled -/

/-- What is done for one feed, to announce it and to settle what becomes of it, does nothing to
another and does not announce it. -/
theorem Program.Phased.spares {α : Type} {p q : Program α} {i j : FeedId} {us : List Turn}
    (phased : p.Phased (Call.AnnouncesOnly j) (Call.SettlesOnly j)) (g : p.Goes us q)
    (other : j ≠ i) : ∀ u ∈ us, Standing.Unmoved i u.call ∧ u.call.announces i = false := by
  intro u hu
  obtain ⟨vs, ws, rfl, announcing, settling⟩ := phased.of_goes g
  rcases List.mem_append.1 hu with hu | hu
  · have only := announcing u hu
    exact ⟨only.unmoved i, Bool.eq_false_iff.2 fun announced => other (only.own i announced)⟩
  · exact ⟨(settling u hu).unmoved i other, (settling u hu).silent i⟩

/-- How often the processing of a feed is begun, among all feeds whose processing is begun. -/
theorem processings_eq_count (i : FeedId) (ts : List Turn) :
    processings i ts = (Turn.noted ts).count i := by
  unfold processings Turn.noted List.count
  rw [List.countP_filterMap]
  refine List.countP_congr fun u _ => ?_
  cases u.call <;> simp [Call.begins, Call.noted?]

namespace Processing

/-- Processing a feed is begun by noting it. -/
theorem opens_process (t : Broadcast.Topic) (f : Feed) :
    (process t f).Opens Call.noted? f.id := by
  have offered : (Dispatch.dispatch f f.enriched).Only fun c => c.noted? = none :=
    Dispatch.only_dispatch rfl rfl (fun _ => rfl) fun _ => rfl
  rw [process_eq]
  refine ⟨rfl, fun outages h => offered.bind fun dispatch => ?_⟩
  refine ((Broadcast.only_publish t f).mono fun c hc => ?_).bind fun outcome => ?_
  · cases hc <;> rfl
  · refine only_settle f ?_ ?_ dispatch outcome <;> rfl

/-- The processing of a feed is begun once for each time it is processed. -/
theorem processings_of_goes {t : Broadcast.Topic} {f : Feed} {us : List Turn}
    {r : Except FeedError Report} (g : (process t f).Goes us (.done r)) :
    processings f.id us = 1 := by
  have noted : Turn.noted us = [f.id] := (opens_process t f).opening g
  rw [processings_eq_count, noted, List.count_singleton_self]

end Processing

namespace Outbox

variable {t : Broadcast.Topic} {i j : FeedId} {us : List Turn} {b : Bool}

/-- How an entry is handled, by which calls, and whether it is taken out: it cannot be looked up, or
there is nothing to process, or its feed is processed. -/
inductive Handled (t : Broadcast.Topic) (i : FeedId) : List Turn → Bool → Prop
  | unread {u : Turn} (load : u.call = .load i) (lost : u.failed) : Handled t i [u] false
  | idle {u v : Turn} {b : Bool} (load : u.call = .load i) (read : ¬ u.failed)
      (nothing : u.before.store.isUnprocessed i = false) (last : v.Acknowledges i b) :
      Handled t i [u, v] b
  | tried {u v : Turn} {us : List Turn} {f : Feed} {r : Except FeedError Processing.Report}
      {b : Bool} (load : u.call = .load i) (read : ¬ u.failed)
      (found : u.before.store.isUnprocessed i = true) (own : f.id = i)
      (goes : (Processing.process t f).Goes us (.done r)) (last : v.Acknowledges i b) :
      Handled t i (u :: (us ++ [v])) b

/-- An entry is taken out of the outbox in one turn. -/
theorem acknowledges_of_goes (g : (acknowledge i).Goes us (.done b)) :
    ∃ v, us = [v] ∧ v.Acknowledges i b := by
  rcases Program.Goes.of_call g with ⟨-, ended⟩ | ⟨outages, h, us, rfl, rest⟩
  · cases ended
  by_cases hf : ((Call.acknowledge i).turn outages h).failed
  · obtain ⟨reason, failure⟩ := id hf
    have answer : (Call.perform outages (.acknowledge i) h).1 = .error (.unavailable reason) :=
      Call.error_of_failureOf failure
    rw [answer] at rest
    obtain ⟨rfl, ended⟩ := Program.Goes.of_done rest
    obtain rfl := Program.done.inj ended
    refine ⟨_, rfl, rfl, ?_, by simp [hf]⟩
    simp [Call.turn, answer, Call.acknowledged?]
  · have answer : (Call.perform outages (.acknowledge i) h).1 = .ok () := by
      simp only [Call.perform, Outages.guard, Call.no_outage _ outages h rfl hf]
    rw [answer] at rest
    obtain ⟨rfl, ended⟩ := Program.Goes.of_done rest
    obtain rfl := Program.done.inj ended
    refine ⟨_, rfl, rfl, ?_, by simp [hf]⟩
    simp [Call.turn, answer, Call.acknowledged?]

/-- An entry whose handling has come to an end has been handled. -/
theorem handled_of_goes (g : (relayOne t i).Goes us (.done b)) : Handled t i us b := by
  rcases Program.Goes.of_call g with ⟨-, ended⟩ | ⟨outages, h, us, rfl, rest⟩
  · cases ended
  by_cases hf : ((Call.load i).turn outages h).failed
  · obtain ⟨reason, ho⟩ := Call.outage_of_failed _ outages h hf
    simp only [Call.perform, Outages.guard, ho] at rest
    obtain ⟨rfl, ended⟩ := Program.Goes.of_done rest
    obtain rfl := Program.done.inj ended
    exact .unread rfl hf
  simp only [Call.perform, Outages.guard, Call.no_outage _ outages h rfl hf, readFrom] at rest
  cases found : h.store.feed? i with
  | none =>
    rw [found] at rest
    obtain ⟨v, rfl, last⟩ := acknowledges_of_goes rest
    exact .idle rfl hf (by simp [Call.turn, Store.isUnprocessed, found]) last
  | some f =>
    rw [found] at rest
    replace rest : (if f.processed then acknowledge i else
      (Processing.process t f).bind fun _ => acknowledge i).Goes us (.done b) := rest
    split at rest
    · next done =>
      obtain ⟨v, rfl, last⟩ := acknowledges_of_goes rest
      exact .idle rfl hf (by simp [Call.turn, Store.isUnprocessed, found, done]) last
    · next todo =>
      obtain ⟨vs, ws, r, rfl, goes, acknowledging⟩ := Program.Goes.of_bind_done rest
      obtain ⟨v, rfl, last⟩ := acknowledges_of_goes acknowledging
      exact .tried rfl hf (by simp [Call.turn, Store.isUnprocessed, found, todo])
        (Store.id_of_feed? found) goes last

namespace Handled

/-- While its feed is processed an entry is neither looked up nor taken out. -/
theorem tends_of_goes {f : Feed} {r : Except FeedError Processing.Report}
    (goes : (Processing.process t f).Goes us (.done r)) : Turn.considered us = [] ∧
      Turn.acknowledged us = [] ∧ ∀ u ∈ us, u.call ≠ .load i ∧ u.call ≠ .acknowledge i := by
  have tends := (goes.only (Processing.only_tends t f)).1
  refine ⟨List.filterMap_eq_nil_iff.2 fun u hu => ?_, List.filterMap_eq_nil_iff.2 fun u hu => ?_,
    fun u hu => ?_⟩ <;> have here := tends u hu
  · generalize u.call = c at here
    cases c with
    | load => cases here
    | _ => rfl
  · obtain ⟨_, c, _, _⟩ := u
    cases c with
    | acknowledge => cases here
    | _ => rfl
  · constructor <;> intro made <;> rw [made] at here <;> cases here

/-- The handling of an entry considers this entry, once. -/
theorem considered_eq (handled : Handled t i us b) : Turn.considered us = [i] := by
  cases handled with
  | unread load => simp [Turn.considered, load, Call.sought?]
  | idle load _ _ last => simp [Turn.considered, load, last.call, Call.sought?]
  | tried load _ _ _ goes last =>
    rw [← List.singleton_append, Turn.considered_append, Turn.considered_append,
      (tends_of_goes (i := i) goes).1]
    simp [Turn.considered, load, last.call, Call.sought?]

/-- A call that looks an entry up takes none out. -/
theorem acknowledged_load {u : Turn} (load : u.call = .load i) : Turn.acknowledged [u] = [] := by
  obtain ⟨_, c, _, _⟩ := u
  obtain rfl : c = .load i := load
  rfl

/-- The handling of an entry tells whether it has been taken out. -/
theorem acknowledged_eq (handled : Handled t i us b) :
    Turn.acknowledged us = if b then [i] else [] := by
  have last : ∀ {v : Turn} {b : Bool}, v.Acknowledges i b →
      Turn.acknowledged [v] = if b then [i] else [] := fun {v b} last => by
    simp only [Turn.acknowledged, List.filterMap_cons, List.filterMap_nil, last.answer]
    cases b <;> rfl
  cases handled with
  | unread load => exact acknowledged_load load
  | @idle u v b load _ _ ack =>
    rw [← List.singleton_append, Turn.acknowledged_append, acknowledged_load load, last ack]
    rfl
  | tried load _ _ _ goes ack =>
    rw [← List.singleton_append, Turn.acknowledged_append, Turn.acknowledged_append,
      (tends_of_goes (i := i) goes).2.1, acknowledged_load load, last ack]
    rfl

/-- The first call looks the entry up. What that finds decides what is done. -/
theorem head (handled : Handled t i us b) : ∃ u rest, us = u :: rest ∧ u.call = .load i ∧
    (Turn.lost (.load i) us ↔ u.failed) ∧ (u.failed → rest = []) ∧
    (¬ u.failed → processings i us = (u.before.store.isUnprocessed i).toNat) := by
  have other : ∀ {v : Turn} {b : Bool}, v.Acknowledges i b → v.call ≠ .load i := fun last made =>
    nomatch last.call.symm.trans made
  cases handled with
  | @unread u load lost =>
    exact ⟨u, [], rfl, load, by simp [Turn.lost, load], fun _ => rfl, absurd lost⟩
  | @idle u v b load read nothing last =>
    refine ⟨u, [v], rfl, load, ?_, fun lost => absurd lost read, fun _ => ?_⟩
    · simp [Turn.lost, load, other last]
    · rw [nothing]
      simp [processings, load, last.call, Call.begins]
  | @tried u v us f r b load read found own goes last =>
    refine ⟨u, us ++ [v], rfl, load, ?_, fun lost => absurd lost read, fun _ => ?_⟩
    · have later : ¬ Turn.lost (.load i) (us ++ [v]) := Turn.not_lost_of_other fun w hw => by
        rcases List.mem_append.1 hw with hw | hw
        · exact ((tends_of_goes goes).2.2 w hw).1
        · exact List.mem_singleton.1 hw ▸ other last
      rw [Turn.lost_cons, or_iff_left later, and_iff_right load]
    · have once := Processing.processings_of_goes goes
      rw [own] at once
      rw [found]
      show List.countP _ _ = 1
      rw [List.countP_cons, List.countP_append]
      show processings i us + _ + _ = 1
      rw [once]
      simp [load, last.call, Call.begins]

/-- An entry is taken out unless it could not be looked up or its acknowledgement is lost. -/
theorem kept_iff (handled : Handled t i us b) :
    b = true ↔ ¬ Turn.lost (.load i) us ∧ ¬ Turn.lost (.acknowledge i) us := by
  obtain ⟨w, rest, hus, -, lost, -, -⟩ := handled.head
  rw [lost]
  cases handled with
  | unread load hlost =>
    obtain ⟨rfl, rfl⟩ := List.cons.inj hus
    simp [hlost]
  | idle load read _ last =>
    obtain ⟨rfl, rfl⟩ := List.cons.inj hus
    rw [last.reached, and_iff_right read]
    simp [Turn.lost, load, last.call]
  | tried load read _ _ goes last =>
    obtain ⟨rfl, rfl⟩ := List.cons.inj hus
    have during := Turn.not_lost_of_other fun u hu => ((tends_of_goes (i := i) goes).2.2 u hu).2
    rw [last.reached, and_iff_right read, Turn.lost_cons, Turn.lost_append, Turn.lost_singleton]
    simp [load, during, last.call]

end Handled

/-- Whoever handles an entry names no other. -/
theorem only_entry (t : Broadcast.Topic) (i : FeedId) :
    (relayOne t i).Only fun c => ∀ j, c.entry? = some j → j = i := by
  refine only_calls t i (fun _ named => (Option.some.inj named).symm)
    (fun _ named => (Option.some.inj named).symm) fun f hf => ?_
  rw [Processing.process_eq]
  refine Program.Only.bind (Program.only_perform fun _ named => ?_) fun _ => ?_
  · exact (Option.some.inj named).symm.trans hf
  refine (Dispatch.only_dispatch nofun nofun (fun _ => nofun) fun _ => nofun).bind
    fun dispatch => ?_
  refine ((Broadcast.only_publish t f).mono fun c hc => ?_).bind fun outcome => ?_
  · cases hc <;> exact nofun
  · exact Processing.only_settle f nofun nofun dispatch outcome

/-- Whoever handles an entry does not ask for the outbox. -/
theorem only_unasking (t : Broadcast.Topic) (i : FeedId) :
    (relayOne t i).Only fun c => c.asksOutbox = false :=
  only_calls t i rfl rfl fun f _ => (Processing.only_tends t f).mono fun c tends => by
    cases c <;> first | rfl | cases tends

/-- Whoever handles another entry does nothing to a feed and does not announce it. -/
theorem spares_of_goes {q : Program Bool} (g : (relayOne t j).Goes us q) (other : j ≠ i) :
    ∀ u ∈ us, Standing.Unmoved i u.call ∧ u.call.announces i = false :=
  (phased_relayOne t j).spares g other

/-! ## How a batch is handled -/

/-- Entries are handled side by side: every call is made for one of them, and each is handled by
its share of the calls. -/
structure Handling (t : Broadcast.Topic) (ids : List FeedId) (moves : List (Nat × Turn))
    (results : List Bool) : Prop where
  inside : ∀ m ∈ moves, m.1 < ids.length
  length : results.length = ids.length
  goes : ∀ (k : Nat) (i : FeedId), ids[k]? = some i →
    ∃ b, results[k]? = some b ∧ (relayOne t i).Goes (Turn.share k moves) (.done b)

/-- Entries that are handled side by side are handled, each in its own turns. -/
theorem handling_of_goes {limit : Nat} {ids : List FeedId} {w : Program (List Bool)}
    {results : List Bool} (hw : Program.Weave limit (ids.map (relayOne t)) w)
    (g : w.Goes us (.done results)) :
    ∃ moves, moves.map (·.2) = us ∧ Handling t ids moves results := by
  obtain ⟨moves, same, inside, length, goes⟩ := hw.exists_shares g
  rw [List.length_map] at inside length
  refine ⟨moves, same, inside, length, fun k i hk => goes k _ ?_⟩
  rw [List.getElem?_map, hk]
  rfl

namespace Handling

variable {ids : List FeedId} {moves : List (Nat × Turn)} {results : List Bool} {k : Nat} {u : Turn}
  {c : Call}

/-- Every call is made for an entry. -/
theorem owner (hd : Handling t ids moves results) (hu : (k, u) ∈ moves) :
    ∃ i b, ids[k]? = some i ∧ (relayOne t i).Goes (Turn.share k moves) (.done b) ∧
      u ∈ Turn.share k moves := by
  have hk := List.getElem?_eq_getElem (hd.inside _ hu)
  obtain ⟨b, -, goes⟩ := hd.goes k _ hk
  exact ⟨_, b, hk, goes, Turn.mem_share.2 hu⟩

/-- A call that names an entry is made for this entry. -/
theorem own (hd : Handling t ids moves results) (once : ids.Nodup) (hk : ids[k]? = some i) :
    ∀ m ∈ moves, m.2.call.entry? = some i → m.1 = k := by
  rintro ⟨j, u⟩ hu named
  obtain ⟨i', b, hj, goes, mine⟩ := hd.owner hu
  obtain rfl := (goes.only (only_entry t i')).1 u mine i named
  exact (List.getElem?_inj (hd.inside _ hu) once).1 (hj.trans hk.symm)

/-- A call that names an entry is lost if it is lost among those made for the entry. -/
theorem lost_iff (hd : Handling t ids moves results) (once : ids.Nodup) (hk : ids[k]? = some i)
    (named : c.entry? = some i) :
    Turn.lost c (moves.map (·.2)) ↔ Turn.lost c (Turn.share k moves) := by
  constructor
  · rintro ⟨u, hu, made, failed⟩
    obtain ⟨⟨j, u⟩, hm, rfl⟩ := List.mem_map.1 hu
    obtain rfl := hd.own once hk _ hm (made ▸ named)
    exact ⟨u, Turn.mem_share.2 hm, made, failed⟩
  · rintro ⟨u, hu, made, failed⟩
    exact ⟨u, List.mem_map.2 ⟨_, Turn.mem_share.1 hu, rfl⟩, made, failed⟩

/-- How often a feed is processed is read off the handling of its own entry. -/
theorem processings_eq (hd : Handling t ids moves results) (once : ids.Nodup)
    (hk : ids[k]? = some i) :
    processings i (moves.map (·.2)) = processings i (Turn.share k moves) := by
  refine Turn.countP_share fun m hm begins => hd.own once hk m hm ?_
  generalize m.2.call = c at begins
  cases c with
  | note => exact congrArg some (of_decide_eq_true begins)
  | _ => cases begins

/-- The entries are looked up, each once. -/
theorem considered_perm (hd : Handling t ids moves results) :
    (Turn.considered (moves.map (·.2))).Perm ids := by
  have parts : (ids.map fun i => [i]).flatten = ids :=
    (List.flatMap_def ..).symm.trans (List.flatMap_singleton' ids)
  conv_rhs => rw [← parts]
  refine Turn.perm_of_shares (by simpa using hd.inside) fun k part hk => ?_
  rw [List.getElem?_map] at hk
  obtain ⟨i, hi, rfl⟩ := Option.map_eq_some_iff.1 hk
  obtain ⟨b, -, goes⟩ := hd.goes k i hi
  exact (handled_of_goes goes).considered_eq

/-- The entries whose result is true are taken out, each once. -/
theorem acknowledged_perm (hd : Handling t ids moves results) :
    (Turn.acknowledged (moves.map (·.2))).Perm (((ids.zip results).filter (·.2)).map (·.1)) := by
  let taken (e : FeedId × Bool) : List FeedId := if e.2 then [e.1] else []
  have flatten : ∀ es : List (FeedId × Bool),
      (es.map taken).flatten = (es.filter (·.2)).map (·.1) := fun es => by
    induction es with
    | nil => rfl
    | cons e es ih =>
      obtain ⟨i, b⟩ := e
      cases b <;> simp [taken, ih]
  rw [← flatten]
  refine Turn.perm_of_shares (by simpa [hd.length] using hd.inside) fun k part hk => ?_
  rw [List.getElem?_map] at hk
  obtain ⟨⟨i, b⟩, hib, rfl⟩ := Option.map_eq_some_iff.1 hk
  obtain ⟨hi, hb⟩ := List.getElem?_zip_eq_some.1 hib
  obtain ⟨b', hb', goes⟩ := hd.goes k i hi
  obtain rfl : b = b' := Option.some.inj (hb.symm.trans hb')
  exact (handled_of_goes goes).acknowledged_eq

/-- As many entries are taken out as say so. -/
theorem length_acknowledged (hd : Handling t ids moves results) :
    (Turn.acknowledged (moves.map (·.2))).length = results.countP id := by
  have snd : (ids.zip results).map (·.2) = results :=
    List.map_snd_zip (Nat.le_of_eq hd.length)
  rw [hd.acknowledged_perm.length_eq, List.length_map, ← List.countP_eq_length_filter]
  conv_rhs => rw [← snd, List.countP_map]
  rfl

/-- No entry is taken out twice. -/
theorem nodup_acknowledged (hd : Handling t ids moves results) (once : ids.Nodup) :
    (Turn.acknowledged (moves.map (·.2))).Nodup := by
  have fst : (ids.zip results).map (·.1) = ids := List.map_fst_zip (Nat.le_of_eq hd.length.symm)
  refine hd.acknowledged_perm.nodup_iff.2 (List.Nodup.sublist ?_ once)
  conv_rhs => rw [← fst]
  exact List.filter_sublist.map _

/-- What is taken out is one of the entries, and neither call for it is lost. -/
theorem mem_acknowledged (hd : Handling t ids moves results) (once : ids.Nodup) :
    i ∈ Turn.acknowledged (moves.map (·.2)) ↔ i ∈ ids ∧
      ¬ Turn.lost (.load i) (moves.map (·.2)) ∧ ¬ Turn.lost (.acknowledge i) (moves.map (·.2)) := by
  have kept : ∀ k, ids[k]? = some i → (results[k]? = some true ↔
      ¬ Turn.lost (.load i) (moves.map (·.2)) ∧
        ¬ Turn.lost (.acknowledge i) (moves.map (·.2))) := fun k hk => by
    obtain ⟨b, hb, goes⟩ := hd.goes k i hk
    rw [hd.lost_iff once hk rfl, hd.lost_iff once hk rfl, ← (handled_of_goes goes).kept_iff, hb,
      Option.some.injEq]
  rw [hd.acknowledged_perm.mem_iff]
  constructor
  · intro taken
    obtain ⟨⟨j, b⟩, hib, rfl⟩ := List.mem_map.1 taken
    obtain ⟨hib, hb⟩ := List.mem_filter.1 hib
    obtain rfl : b = true := hb
    obtain ⟨k, hk⟩ := List.mem_iff_getElem?.1 hib
    obtain ⟨hi, hb⟩ := List.getElem?_zip_eq_some.1 hk
    exact ⟨List.mem_of_getElem? hi, (kept k hi).1 hb⟩
  · rintro ⟨hi, reached⟩
    obtain ⟨k, hk⟩ := List.mem_iff_getElem?.1 hi
    have both : (ids.zip results)[k]? = some (i, true) :=
      List.getElem?_zip_eq_some.2 ⟨hk, (kept k hk).2 reached⟩
    exact List.mem_map.2 ⟨_, List.mem_filter.2 ⟨List.mem_of_getElem? both, rfl⟩, rfl⟩

/-- What is done for the other entries spares a feed. -/
theorem spares (hd : Handling t ids moves results) (hu : (k, u) ∈ moves)
    (other : ids[k]? ≠ some i) : Standing.Unmoved i u.call ∧ u.call.announces i = false := by
  obtain ⟨j, b, hk, goes, mine⟩ := hd.owner hu
  exact spares_of_goes goes (fun same => other (hk.trans (congrArg some same))) u mine

/-- What is done for no entry of its own spares a feed. -/
theorem absent (hd : Handling t ids moves results) {s s' : Store}
    (chain : Turn.Chain s (moves.map (·.2)) s') (out : i ∉ ids) :
    s'.standing i = s.standing i ∧ ∀ u ∈ moves.map (·.2), u.call.announces i = false := by
  have spared : ∀ u ∈ moves.map (·.2),
      Standing.Unmoved i u.call ∧ u.call.announces i = false := fun u hu => by
    obtain ⟨m, hm, rfl⟩ := List.mem_map.1 hu
    exact hd.spares hm fun here => out (List.mem_of_getElem? here)
  exact ⟨chain.standing_eq fun u hu => (spared u hu).1, fun u hu => (spared u hu).2⟩

/-- Others than the program of an entry spare its feed. -/
theorem spares_of_ne (hd : Handling t ids moves results) (once : ids.Nodup)
    (hk : ids[k]? = some i) {m : Nat × Turn} (hm : m ∈ moves) (other : m.1 ≠ k) :
    Standing.Unmoved i m.2.call ∧ m.2.call.announces i = false :=
  hd.spares hm fun here =>
    other ((List.getElem?_inj (hd.inside m hm) once).1 (here.trans hk.symm))

/-- An entry that could not be looked up is left alone. -/
theorem unread (hd : Handling t ids moves results) (once : ids.Nodup) {s s' : Store}
    (chain : Turn.Chain s (moves.map (·.2)) s') (hk : ids[k]? = some i)
    (lost : Turn.lost (.load i) (moves.map (·.2))) :
    s'.standing i = s.standing i ∧ ∀ u ∈ moves.map (·.2), u.call.announces i = false := by
  obtain ⟨b, -, goes⟩ := hd.goes k i hk
  obtain ⟨w, rest, share, load, hlost, ends, -⟩ := (handled_of_goes goes).head
  obtain rfl := ends (hlost.1 ((hd.lost_iff once hk rfl).1 lost))
  have spared : ∀ u ∈ moves.map (·.2),
      Standing.Unmoved i u.call ∧ u.call.announces i = false := fun u hu => by
    obtain ⟨⟨j, u⟩, hm, rfl⟩ := List.mem_map.1 hu
    by_cases hj : j = k
    · have mine := Turn.mem_share.2 (hj ▸ hm)
      rw [share, List.mem_singleton] at mine
      show Standing.Unmoved i u.call ∧ u.call.announces i = false
      rw [mine, load]
      exact ⟨Standing.unmoved_passive rfl, rfl⟩
    · exact hd.spares_of_ne once hk hm hj
  exact ⟨chain.standing_eq fun u hu => (spared u hu).1, fun u hu => (spared u hu).2⟩

/-- An entry that could be looked up is found as it was when the batch was begun. -/
theorem processings_of_read (hd : Handling t ids moves results) (once : ids.Nodup) {s s' : Store}
    (chain : Turn.Chain s (moves.map (·.2)) s') (hk : ids[k]? = some i)
    (read : ¬ Turn.lost (.load i) (moves.map (·.2))) :
    processings i (moves.map (·.2)) = (s.isUnprocessed i).toNat := by
  obtain ⟨b, -, goes⟩ := hd.goes k i hk
  obtain ⟨w, rest, share, -, hlost, -, counts⟩ := (handled_of_goes goes).head
  rw [hd.processings_eq once hk, counts (mt hlost.2 (mt (hd.lost_iff once hk rfl).2 read))]
  have split : Turn.share k moves = [] ++ w :: rest := share
  obtain ⟨before, after, rfl, none, -⟩ := Turn.exists_of_share split
  rw [List.map_append, List.map_cons] at chain
  obtain ⟨s₁, first, second⟩ := chain.of_append
  obtain ⟨rfl, -⟩ := second.of_cons
  -- nothing has been done for the entry until it is looked up
  have still : w.before.store.standing i = s.standing i := first.standing_eq fun u hu => by
    obtain ⟨⟨j, u⟩, hm, rfl⟩ := List.mem_map.1 hu
    refine (hd.spares_of_ne once hk (List.mem_append_left _ hm) ?_).1
    rintro rfl
    have mine := Turn.mem_share.2 hm
    rw [none] at mine
    cases mine
  have same : w.before.store.feed? i = s.feed? i := congrArg Standing.feed still
  rw [Store.isUnprocessed, same]
  rfl

/-- Nobody asks for the outbox. -/
theorem not_pending (hd : Handling t ids moves results) {batch : Nat} :
    ∀ u ∈ moves.map (·.2), u.call ≠ .pending batch := by
  intro u hu
  obtain ⟨⟨k, u⟩, hm, rfl⟩ := List.mem_map.1 hu
  obtain ⟨i, b, -, goes, mine⟩ := hd.owner hm
  have unasked := (goes.only (only_unasking t i)).1 u mine
  show u.call ≠ .pending batch
  intro made
  rw [made] at unasked
  cases unasked

/-- Nothing is stored or deleted. -/
theorem keeps (hd : Handling t ids moves results) :
    ∀ u ∈ moves.map (·.2), u.call.restocks = false := by
  intro u hu
  obtain ⟨⟨k, u⟩, hm, rfl⟩ := List.mem_map.1 hu
  obtain ⟨i, b, -, goes, mine⟩ := hd.owner hm
  have made := (goes.only (only_relayOne t i)).1 u mine
  show u.call.restocks = false
  generalize u.call = c at made
  cases made with
  | acknowledge => rfl
  | passive hc => cases c <;> first | rfl | cases hc
  | processing _ hc =>
    cases hc with
    | passive hc => cases c <;> first | rfl | cases hc
    | broadcast hc => cases hc <;> rfl
    | _ => rfl

end Handling

end Outbox
end NotificationRelay
