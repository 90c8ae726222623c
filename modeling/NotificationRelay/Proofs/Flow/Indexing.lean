/-
# The index over a history

Three kinds of act change what the index has to say. Storing a draft files the new feed
under its recipients (`Intake.store_of_add`), and a sweep takes deleted feeds out again
(`Expiry.store_of_sweep`); whatever is done to a feed after that changes none of the facts
that the index repeats (`Call.SparesIndex`). So the index stays right over any history in
which no feed was filed in vain (`History.indexed`).
-/
import NotificationRelay.Proofs.Store.Index

namespace NotificationRelay

/-- A call that, if it was to file a feed, did. -/
def Turn.Files (t : Turn) : Prop := ∀ r i b, t.call = .append r i b → ¬ t.failed

/-! ## What storing and sweeping leave behind -/

namespace Intake

variable {h h' : Hub} {ts : List Turn}

/-- Listing a feed under one recipient after another files it. -/
theorem store_of_forEach_append {rs : List String} {i : FeedId} {b : Bool}
    {answers : List (Stored Unit)}
    (r : (Program.forEach rs fun r => Program.perform (.append r i b)).Runs h ts answers h')
    (files : ∀ t ∈ ts, t.Files) : h'.store = h.store.file rs i b := by
  induction rs generalizing h h' ts answers with
  | nil =>
    obtain ⟨-, -, o⟩ := r.of_done
    exact Hub.store_eq_of_outside o
  | cons recipient rest ih =>
    obtain ⟨us, vs, a, h₁, rfl, hfirst, hrest⟩ := r.of_bind
    obtain ⟨vs, ws, as, h₂, rfl, hall, hlast⟩ := hrest.of_bind
    obtain ⟨-, -, o⟩ := hlast.of_done
    obtain ⟨h₀, outages, o₀, rfl, -, o₁⟩ := hfirst.of_perform
    have filed := files _ (List.mem_append_left _ (List.mem_singleton_self _)) _ _ _ rfl
    rw [Hub.store_eq_of_outside o, ih hall fun t ht =>
      files t (List.mem_append_right _ (List.mem_append_left _ ht)), Hub.store_eq_of_outside o₁,
      Call.store_perform_of_not_failed _ _ _ filed, Hub.store_eq_of_outside o₀]
    rfl

/-- Filing a feed, if no call for it fails, files it under its recipients. -/
theorem store_of_index {d : Draft} {i : FeedId} {a : Unit} (r : (index d i).Runs h ts a h')
    (files : ∀ t ∈ ts, t.Files) : h'.store = h.store.file d.recipients i d.isSpam := by
  obtain ⟨us, vs, as, h₁, rfl, hall, hwake⟩ := Program.Runs.of_bind r
  obtain ⟨h₀, outages, o₀, rfl, -, o₁⟩ := hwake.of_perform
  have woken : (Call.perform outages .wake h₀).2.store = h₀.store := rfl
  rw [Hub.store_eq_of_outside o₁, woken, Hub.store_eq_of_outside o₀]
  exact store_of_forEach_append hall fun t ht => files t (List.mem_append_left _ ht)

/-- What is done to store a draft begins with its insertion. That comes to nothing if it fails or
the payload identifier is taken; else the new feed is indexed next. -/
theorem runs_add {d : Draft} {a : Except FeedError Inserted} (r : (add d).Runs h ts a h') :
    ∃ outages h₀ us, ts = (Call.insert d).turn outages h₀ :: us ∧ h₀.store = h.store ∧
      (us = [] ∧ h'.store = h.store ∧ (((Call.insert d).turn outages h₀).failed ∨
          ∃ j, Table.get? d.payloadId h.store.payloadIds = some j) ∨
        ¬ ((Call.insert d).turn outages h₀).failed ∧
          Table.get? d.payloadId h.store.payloadIds = none ∧
          a = .ok ⟨h.store.lastId + 1, true⟩ ∧
          ∃ h₁ h₂, h₁.store = (h.store.insert d).2 ∧
            (index d (h.store.lastId + 1)).Runs h₁ us () h₂ ∧ h'.store = h₂.store) := by
  obtain ⟨h₀, outages, us, o, rfl, rest⟩ := Program.Runs.of_call r
  have same := Hub.store_eq_of_outside o
  refine ⟨outages, h₀, us, rfl, same, ?_⟩
  have reached : ∀ e, outages (.insert d) = some e →
      ((Call.insert d).turn outages h₀).failed := fun e ho => Call.failed_of_outage _ _ _ rfl ho
  simp only [Call.perform, Outages.guard] at rest
  cases ho : outages (.insert d) with
  | some reason =>
    rw [ho] at rest
    obtain ⟨rfl, -, o'⟩ := rest.of_done
    exact .inl ⟨rfl, (Hub.store_eq_of_outside o').trans same, .inl (reached _ ho)⟩
  | none =>
    rw [ho] at rest
    cases hd : Table.get? d.payloadId h₀.store.payloadIds with
    | some j =>
      simp only [succeed, Store.insert, hd] at rest
      obtain ⟨rfl, -, o'⟩ := Program.Runs.of_done rest
      exact .inl ⟨rfl, (Hub.store_eq_of_outside o').trans same, .inr ⟨j, same ▸ hd⟩⟩
    | none =>
      have created : (h₀.store.insert d).1 = ⟨h₀.store.lastId + 1, true⟩ := by
        simp only [Store.insert, hd]
      simp only [succeed, created] at rest
      replace rest : ((index d (h₀.store.lastId + 1)).bind _).Runs _ us a h' := rest
      obtain ⟨vs, ws, _, h₂, rfl, hindex, hlast⟩ := Program.Runs.of_bind rest
      obtain ⟨rfl, rfl, o'⟩ := hlast.of_done
      rw [List.append_nil, ← same]
      refine .inr ⟨fun hf => ?_, hd, rfl, _, h₂, rfl, hindex, Hub.store_eq_of_outside o'⟩
      obtain ⟨_, there⟩ := Call.outage_of_failed _ _ _ hf
      rw [ho] at there
      cases there

/-- Storing a draft changes nothing, or stores a feed and files it. -/
theorem store_of_add {d : Draft} {a : Except FeedError Inserted} (r : (add d).Runs h ts a h')
    (files : ∀ t ∈ ts, t.Files) :
    h'.store = h.store ∨ Table.get? d.payloadId h.store.payloadIds = none ∧
      h'.store = (h.store.insert d).2.file d.recipients (h.store.lastId + 1) d.isSpam := by
  obtain ⟨outages, h₀, us, rfl, -, ⟨-, same, -⟩ | ⟨-, free, -, h₁, h₂, stored, hindex, last⟩⟩ :=
    runs_add r
  · exact .inl same
  · have filed := store_of_index hindex fun t ht => files t (List.mem_cons_of_mem _ ht)
    rw [stored] at filed
    exact .inr ⟨free, last.trans filed⟩

end Intake

namespace Expiry

/-- What is done to sweep begins with a deletion. If that fails nothing happens, and if it deletes
nothing the index is not asked; else what was deleted is taken out of the index next, unless that
fails. -/
theorem runs_sweep {now : Int} {h h' : Hub} {ts : List Turn} {a : Stored Nat}
    (r : (sweep now).Runs h ts a h') :
    ∃ outages h₀ us, ts = (Call.deleteExpired now).turn outages h₀ :: us ∧ h₀.store = h.store ∧
      (((Call.deleteExpired now).turn outages h₀).failed ∧ us = [] ∧ h'.store = h.store ∨
        outages (.deleteExpired now) = none ∧
          ((h.store.deleteExpired now).1 = [] ∧ us = [] ∧
              h'.store = (h.store.deleteExpired now).2 ∨
            ∃ outages' h₁, us = [(Call.unindex (h.store.deleteExpired now).1).turn outages' h₁] ∧
              h₁.store = (h.store.deleteExpired now).2 ∧
              h'.store = ((Call.unindex (h.store.deleteExpired now).1).perform
                outages' h₁).2.store)) := by
  obtain ⟨h₀, outages, us, o, rfl, rest⟩ := Program.Runs.of_call r
  have same := Hub.store_eq_of_outside o
  refine ⟨outages, h₀, us, rfl, same, ?_⟩
  have reached : ∀ e, outages (.deleteExpired now) = some e →
      ((Call.deleteExpired now).turn outages h₀).failed :=
    fun e ho => Call.failed_of_outage _ _ _ rfl ho
  simp only [Call.perform, Outages.guard] at rest
  cases ho : outages (.deleteExpired now) with
  | some reason =>
    rw [ho] at rest
    obtain ⟨rfl, -, o'⟩ := rest.of_done
    exact .inl ⟨reached _ ho, rfl, (Hub.store_eq_of_outside o').trans same⟩
  | none =>
    rw [ho, same] at rest
    replace rest : (if (h.store.deleteExpired now).1.isEmpty then _ else _ :
        Program (Stored Nat)).Runs _ us a h' := rest
    split at rest
    · next none =>
      obtain ⟨rfl, -, o'⟩ := rest.of_done
      exact .inr ⟨rfl, .inl ⟨List.isEmpty_iff.1 none, rfl, Hub.store_eq_of_outside o'⟩⟩
    · obtain ⟨h₁, outages', vs, o₁, rfl, tail⟩ := rest.of_call
      have ended : vs = [] ∧ h'.store = (Call.perform outages'
          (.unindex (h.store.deleteExpired now).1) h₁).2.store := by
        generalize (Call.perform outages' (.unindex (h.store.deleteExpired now).1) h₁).1 =
          answer at tail
        cases answer with
        | error =>
          obtain ⟨rfl, -, o'⟩ := Program.Runs.of_done tail
          exact ⟨rfl, Hub.store_eq_of_outside o'⟩
        | ok =>
          obtain ⟨rfl, -, o'⟩ := Program.Runs.of_done tail
          exact ⟨rfl, Hub.store_eq_of_outside o'⟩
      obtain ⟨rfl, last⟩ := ended
      exact .inr ⟨rfl, .inr ⟨outages', h₁, rfl, Hub.store_eq_of_outside o₁, last⟩⟩

/-- A sweep changes nothing, or deletes what has expired, with or without its entries in the
index. -/
theorem store_of_sweep {now : Int} {h h' : Hub} {ts : List Turn} {a : Stored Nat}
    (r : (sweep now).Runs h ts a h') :
    h'.store = h.store ∨ h'.store = (h.store.deleteExpired now).2 ∨
      h'.store = ((h.store.deleteExpired now).2.unindex (h.store.deleteExpired now).1).2 := by
  obtain ⟨_, h₀, us, rfl, -,
    ⟨-, -, same⟩ | ⟨-, ⟨-, -, deleted⟩ | ⟨outages, h₁, rfl, found, last⟩⟩⟩ := runs_sweep r
  · exact .inl same
  · exact .inr (.inl deleted)
  · refine .inr ?_
    rw [last, ← found]
    by_cases hf : (Call.turn (.unindex (h.store.deleteExpired now).1) outages h₁).failed
    · exact .inl (by rw [Call.perform_of_failed _ _ _ hf])
    · exact .inr (Call.store_perform_of_not_failed _ _ _ hf)

end Expiry

/-! ## What every other act leaves alone -/

/-- A call that changes none of the facts that the index repeats. -/
def Call.SparesIndex (c : Call) : Prop :=
  ∀ s : Store, (c.effect s).index = s.index ∧ (c.effect s).entries = s.entries ∧
    (c.effect s).lastId = s.lastId

namespace Call

/-- A call that adds feeds, files them or takes them away. -/
def movesFeeds : Call → Bool
  | .insert _ => true
  | .append _ _ _ => true
  | .unindex _ => true
  | .deleteExpired _ => true
  | _ => false

/-- A change that leaves the recipients and the kind of a feed alone spares the index. -/
theorem sparesIndex_update {c : Call} {i : FeedId} (change : Feed → Feed)
    (same : ∀ f : Feed, ((change f).id, (change f).recipients, (change f).isSpam) =
      (f.id, f.recipients, f.isSpam))
    (heff : ∀ s : Store, c.effect s = (s.update i change).2) : c.SparesIndex := fun s => by
  rw [heff, Store.update_snd]
  exact ⟨rfl, Store.map_modify s i same, rfl⟩

/-- All other calls change none of those facts. -/
theorem sparesIndex {c : Call} (hc : c.movesFeeds = false) : c.SparesIndex := by
  cases c with
  | insert | append | unindex | deleteExpired => cases hc
  | complete _ p => exact sparesIndex_update (·.completed p) (fun _ => rfl) fun _ => rfl
  | bump => exact sparesIndex_update Feed.bumped (fun _ => rfl) fun _ => rfl
  | advance =>
    intro s
    simp only [effect, Store.advance]
    split
    · split <;> exact ⟨rfl, rfl, rfl⟩
    · exact ⟨rfl, rfl, rfl⟩
  | _ => exact fun s => ⟨rfl, rfl, rfl⟩

/-- A passive call moves no feed in the index. -/
theorem movesFeeds_of_passive {c : Call} (hc : c.isPassive = true) : c.movesFeeds = false := by
  cases c <;> first | rfl | cases hc

end Call

/-- Handling an entry of the outbox moves no feed in the index. -/
theorem Outbox.Makes.movesFeeds {t : Broadcast.Topic} {i : FeedId} {c : Call}
    (hc : Makes t i c) : c.movesFeeds = false := by
  cases hc with
  | acknowledge => rfl
  | passive hc => exact Call.movesFeeds_of_passive hc
  | processing _ hc =>
    cases hc with
    | passive hc => exact Call.movesFeeds_of_passive hc
    | broadcast hc => cases hc <;> rfl
    | note | complete | bump => rfl

/-- A program that moves no feeds leaves alone what the index repeats. -/
theorem Program.Runs.sparesIndex {α : Type} {p : Program α} {h h' : Hub} {ts : List Turn} {a : α}
    (r : p.Runs h ts a h') (hp : p.Only fun c => c.movesFeeds = false) :
    h'.store.index = h.store.index ∧ h'.store.entries = h.store.entries ∧
      h'.store.lastId = h.store.lastId := by
  refine (r.keeps (fun g => g.store.index = h.store.index ∧ g.store.entries = h.store.entries ∧
    g.store.lastId = h.store.lastId) hp (fun _ _ o hg => by rwa [o.store_eq])
    (fun c outages g hc hg => ?_) ⟨rfl, rfl, rfl⟩).1
  by_cases hf : (c.turn outages g).failed
  · rwa [c.perform_of_failed outages g hf]
  · obtain ⟨index, entries, lastId⟩ := Call.sparesIndex hc g.store
    rw [c.store_perform_of_not_failed outages g hf, index, entries, lastId]
    exact hg

/-- A program that moves no feeds leaves the index right. -/
theorem Program.Runs.indexed {α : Type} {p : Program α} {h h' : Hub} {ts : List Turn} {a : α}
    (r : p.Runs h ts a h') (hp : p.Only fun c => c.movesFeeds = false) (hs : h.store.Indexed) :
    h'.store.Indexed := by
  obtain ⟨index, entries, lastId⟩ := r.sparesIndex hp
  exact hs.of_same (r.coherent hs.coherent) index entries lastId

/-- An act that adds feeds or takes them away. -/
def Act.movesFeeds : Act → Bool
  | .submit _ _ => true
  | .add _ => true
  | .sweep _ => true
  | _ => false

/-- All other acts move no feeds. -/
theorem Act.PerformedBy.movesFeeds {s : Settings} {a : Act} {α : Type} {p : Program α}
    (hp : a.PerformedBy s p) (ha : a.movesFeeds = false) :
    p.Only fun c => c.movesFeeds = false := by
  refine hp.only.mono fun c hc => ?_
  cases a with
  | submit | add | sweep => cases ha
  | drain =>
    obtain ⟨_, hc⟩ := hc
    exact hc.movesFeeds
  | retry =>
    rcases hc with hc | ⟨f, hc⟩
    · exact Call.movesFeeds_of_passive hc
    · exact (Outbox.Makes.processing rfl hc).movesFeeds
  | process f => exact (Outbox.Makes.processing rfl hc).movesFeeds
  | _ => exact Call.movesFeeds_of_passive hc

/-- **The index is right at the end of every history** that begins with a right one and in
which every feed that was to be filed was. -/
theorem History.indexed {s : Settings} {allowed : Act → Prop} {start h : Hub} {ts : List Turn}
    (hist : History s allowed start ts h) (hs : start.store.Indexed)
    (files : ∀ t ∈ ts, t.Files) : h.store.Indexed := by
  induction hist with
  | start => exact hs
  | outside _ o ih =>
    rw [o.store_eq]
    exact ih files
  | @act a _ p _ ts us h h' _ _ hp run ih =>
    have before := ih fun t ht => files t (List.mem_append_left _ ht)
    have filed : ∀ t ∈ us, t.Files := fun t ht => files t (List.mem_append_right _ ht)
    have added : ∀ {d : Draft} {r : Except FeedError Inserted},
        (Intake.add d).Runs h us r h' → h'.store.Indexed := fun run => by
      rcases Intake.store_of_add run filed with hsame | ⟨hd, hadded⟩
      · rwa [hsame]
      · rw [hadded]
        exact before.add hd
    cases moves : a.movesFeeds with
    | false => exact run.indexed (hp.movesFeeds moves) before
    | true =>
      cases hp with
      | submit x epoch =>
        unfold Intake.submit at run
        split at run
        · rw [Hub.store_eq_of_outside run.of_done.2.2]
          exact before
        · exact added run
      | add d => exact added run
      | sweep now =>
        rcases Expiry.store_of_sweep run with hsame | hdeleted | hcleared
        · rwa [hsame]
        · rw [hdeleted]
          exact before.deleteExpired now
        · rw [hcleared]
          refine (before.deleteExpired now).unindex fun i hi hmem => ?_
          rw [Store.ids_deleteExpired] at hmem
          exact (Ascending.mem_diff.1 hmem).2 hi
      | _ => cases moves

end NotificationRelay
