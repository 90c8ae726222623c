/-
# Any operations on the store

Whoever holds the store may ask for its operations in any order and with any arguments,
also for those that no part of the relay combines in such a way. `Store.Op` lists those that
change something, `Store.after` performs a list of them, and `Store.answers` keeps what the
insertions among them have answered.

One operation keeps the tables in agreement and gives no identifier a second time
(`Store.Issued.perform`), so any list of them does (`Store.Issued.after`). What this means for
the tables is spelt out in `Store.tables_agree`: an identifier that has been given is never
given again, also when its feed has been deleted and its payload identifier has come back.
-/
import NotificationRelay.Proofs.Store.Coherence

namespace NotificationRelay
namespace Store

/-- An operation that can change the store. -/
inductive Op where
  | insert (draft : Draft)
  | complete (id : FeedId) (payload : Payload)
  | bump (id : FeedId)
  | setAttempts (id : FeedId) (attempts : Nat)
  | acknowledge (id : FeedId)
  | append (recipient : String) (id : FeedId) (isSpam : Bool)
  | unindex (ids : List FeedId)
  | advance (key : String) (value : Int)
  | setWatermark (key : String) (value : Int)
  | subscribe (subscriber channel : String)
  | deleteExpired (now : Int)

namespace Op

/-- The store that an operation leaves. -/
def perform (s : Store) : Op → Store
  | .insert d => (s.insert d).2
  | .complete id p => (s.complete id p).2
  | .bump id => (s.bump id).2
  | .setAttempts id n => (s.setAttempts id n).2
  | .acknowledge id => s.acknowledge id
  | .append recipient id isSpam => s.append recipient id isSpam
  | .unindex ids => (s.unindex ids).2
  | .advance key value => (s.advance key value).2
  | .setWatermark key value => s.setWatermark key value
  | .subscribe subscriber channel => s.subscribe subscriber channel
  | .deleteExpired now => (s.deleteExpired now).2

/-- What an operation answers if it is an insertion. -/
def answer? (s : Store) : Op → Option Inserted
  | .insert d => some (s.insert d).1
  | _ => none

end Op

/-- The store after operations, one after another. -/
def after (s : Store) : List Op → Store
  | [] => s
  | op :: rest => (op.perform s).after rest

/-- What the insertions among operations answer, in order. -/
def answers (s : Store) : List Op → List Inserted
  | [] => []
  | op :: rest => (op.answer? s).toList ++ (op.perform s).answers rest

variable {s : Store}

/-- Every operation keeps the store coherent. -/
theorem Coherent.perform (h : s.Coherent) (op : Op) : (op.perform s).Coherent := by
  cases op with
  | insert d => exact h.insert d
  | complete id p => exact h.complete id p
  | bump id => exact h.bump id
  | setAttempts id n => exact h.setAttempts id n
  | acknowledge id => exact h.acknowledge id
  | advance key value => exact h.advance key value
  | deleteExpired now => exact h.deleteExpired now
  | append => exact { h with }
  | unindex => exact { h with }
  | setWatermark => exact { h with }
  | subscribe => exact { h with }

/-- Only an insertion gives an identifier. -/
theorem lastId_perform (op : Op) (silent : op.answer? s = none) :
    (op.perform s).lastId = s.lastId := by
  cases op with
  | insert d => cases silent
  | complete id p => rw [Op.perform, complete, update_snd]; rfl
  | bump id => rw [Op.perform, bump, update_snd]; rfl
  | setAttempts id n => rw [Op.perform, setAttempts, update_snd]; rfl
  | advance key value =>
    simp only [Op.perform, advance]
    split
    · split <;> rfl
    · rfl
  | _ => rfl

/-- A store whose tables agree, and the answers that its insertions have given so far: none
is above the greatest identifier, which counts the feeds created, and a feed that was
created got an identifier above all given before. -/
structure Issued (given : List Inserted) (s : Store) : Prop where
  coherent : s.Coherent
  bounded : ∀ r ∈ given, r.id ≤ s.lastId
  counted : s.lastId = given.countP (·.created)
  fresh : given.Pairwise fun earlier later => later.created = true → earlier.id < later.id

namespace Issued

variable {given : List Inserted}

/-- An empty store has issued nothing. -/
theorem empty : Issued [] Store.empty where
  coherent := coherent_empty
  bounded _ hr := by cases hr
  counted := rfl
  fresh := .nil

/-- An insertion issues what it answers. -/
theorem insert (h : Issued given s) (d : Draft) :
    Issued (given ++ [(s.insert d).1]) (s.insert d).2 := by
  cases hd : Table.get? d.payloadId s.payloadIds with
  | some i =>
    -- the answer repeats the identifier of a feed that is there
    have same : s.insert d = (⟨i, false⟩, s) := by simp only [Store.insert, hd]
    have there : i ∈ s.ids := by
      have named := (h.coherent.named _ _).1 hd
      obtain ⟨f, hf, heq⟩ := List.mem_map.1 named
      simp only [Prod.mk.injEq] at heq
      exact heq.2 ▸ List.mem_map_of_mem hf
    rw [same]
    refine ⟨h.coherent, fun r hr => ?_, ?_, List.pairwise_append.2 ⟨h.fresh, ?_, ?_⟩⟩
    · rcases List.mem_append.1 hr with hr | hr
      · exact h.bounded r hr
      · rw [List.mem_singleton.1 hr]
        exact (h.coherent.numbered i there).2
    · rw [List.countP_append, h.counted]
      rfl
    · exact List.pairwise_singleton _ _
    · intro r _ r' hr' created
      rw [List.mem_singleton.1 hr'] at created
      cases created
  | none =>
    have answer : (s.insert d).1 = ⟨s.lastId + 1, true⟩ := by simp only [Store.insert, hd]
    have lastId : (s.insert d).2.lastId = s.lastId + 1 := by simp only [Store.insert, hd]
    refine ⟨h.coherent.insert d, fun r hr => ?_, ?_, List.pairwise_append.2 ⟨h.fresh, ?_, ?_⟩⟩
    · rw [lastId]
      rcases List.mem_append.1 hr with hr | hr
      · exact Int.le_add_one (h.bounded r hr)
      · have last : r.id = s.lastId + 1 := by rw [List.mem_singleton.1 hr, answer]
        exact Int.le_of_eq last
    · rw [lastId, answer, List.countP_append, h.counted]
      rfl
    · exact List.pairwise_singleton _ _
    · intro r hr r' hr' _
      rw [List.mem_singleton.1 hr', answer]
      exact Int.lt_add_one_of_le (h.bounded r hr)

/-- **One operation** keeps the tables in agreement, and gives no identifier again. -/
theorem perform (h : Issued given s) (op : Op) :
    Issued (given ++ (op.answer? s).toList) (op.perform s) := by
  cases ha : op.answer? s with
  | none =>
    have lastId := lastId_perform op ha
    rw [Option.toList_none, List.append_nil]
    exact ⟨h.coherent.perform op, by rw [lastId]; exact h.bounded, by rw [lastId]; exact h.counted,
      h.fresh⟩
  | some r =>
    cases op with
    | insert d =>
      obtain rfl : (s.insert d).1 = r := Option.some.inj ha
      exact h.insert d
    | _ => cases ha

/-- Any operations, one after another, do. -/
theorem after (h : Issued given s) (ops : List Op) :
    Issued (given ++ s.answers ops) (s.after ops) := by
  induction ops generalizing s given with
  | nil => rwa [answers, List.append_nil]
  | cons op rest ih =>
    rw [answers, ← List.append_assoc]
    exact ih (h.perform op)

end Issued

/-- **The tables of the store agree after any operations.** Each feed is there once and is
found under its own identifier; a payload identifier leads to the feed that has it, and no
two feeds share one; only feeds that are there wait for dispatch; identifiers start with one
and none exceeds the greatest given, which is the number of feeds ever created; and an
insertion that creates a feed answers with an identifier above all that were answered
before. -/
theorem tables_agree (ops : List Op) :
    let s := Store.empty.after ops
    let given := Store.empty.answers ops
    s.feeds.Pairwise (fun f g => f.id < g.id) ∧
    (∀ i f, s.feed? i = some f ↔ f ∈ s.feeds ∧ f.id = i) ∧
    (∀ p i, Table.get? p s.payloadIds = some i ↔ ∃ f, s.feed? i = some f ∧ f.payloadId = p) ∧
    (∀ f ∈ s.feeds, ∀ g ∈ s.feeds, f.payloadId = g.payloadId → f = g) ∧
    (∀ i ∈ s.outbox, ∃ f, s.feed? i = some f) ∧
    (∀ i f, s.feed? i = some f → 1 ≤ i ∧ i ≤ s.lastId) ∧
    s.lastId = given.countP (·.created) ∧
    given.Pairwise fun earlier later => later.created = true → earlier.id < later.id := by
  intro s given
  have issued : Issued given s := Issued.empty.after ops
  have coherent := issued.coherent
  refine ⟨List.pairwise_map.1 coherent.ascending, fun i f => coherent.feed?_eq_some_iff,
    fun p i => ?_, fun f hf g hg same => ?_, fun i hi => mem_ids_iff.1 (coherent.stored i hi),
    fun i f hf => coherent.numbered i (mem_ids_iff.2 ⟨f, hf⟩), issued.counted, issued.fresh⟩
  · rw [coherent.named, names, List.mem_map]
    refine exists_congr fun f => ?_
    rw [coherent.feed?_eq_some_iff, Prod.mk.injEq, and_assoc]
    exact and_congr_right fun _ => and_comm
  · have hid : f.id = g.id := (coherent.names_inj (List.mem_map_of_mem hf)
      (List.mem_map_of_mem hg)).1 same
    exact List.inj_on_of_nodup_map coherent.nodup_ids hf hg hid

/-- A payload identifier that has become free is stored under a new identifier. -/
example : Store.empty.answers
    [.insert { Draft.sample "p" [] 1 with expiry := some 5 }, .insert (.sample "p" [] 1),
      .deleteExpired 6, .insert (.sample "p" [] 1)] = [⟨1, true⟩, ⟨1, false⟩, ⟨2, true⟩] := by
  decide +kernel

end Store
end NotificationRelay
