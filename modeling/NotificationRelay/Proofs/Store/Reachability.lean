/-
# Stores that can come about

A store can come about if operations lead to it from the empty one (`Store.Reachable`). This
leaves nothing out: a call that fails changes nothing, and any other does to the store what an
operation does (`Call.effect_eq`), so calls lead from a store that can come about to another,
whoever makes them and whatever fails (`Turn.Chain.reachable`, `History.reachable`).

What every operation keeps holds of all of them: the tables agree (`Store.Reachable.coherent`), and
the index lists feeds in ascending order (`Store.Reachable.ascending`).

Whoever holds the store may also ask for operations while a relay is at work on it: in
`Hub.Evolves` acts and operations come one after another, and it goes on to be a store that can
come about (`Hub.Evolves.reachable`).
-/
import NotificationRelay.Proofs.Store.Index
import NotificationRelay.Proofs.Store.Operations

namespace NotificationRelay
namespace Store

theorem after_append (s : Store) (ops more : List Op) :
    s.after (ops ++ more) = (s.after ops).after more := by
  induction ops generalizing s with
  | nil => rfl
  | cons op ops ih => exact ih (op.perform s)

/-- A store to which operations lead from the empty one. -/
def Reachable (s : Store) : Prop := ∃ ops, s = empty.after ops

theorem reachable_empty : empty.Reachable := ⟨[], rfl⟩

variable {s : Store}

/-- A store stays reachable by one more operation. -/
theorem Reachable.perform (h : s.Reachable) (op : Op) : (op.perform s).Reachable := by
  obtain ⟨ops, rfl⟩ := h
  exact ⟨ops ++ [op], by rw [after_append]; rfl⟩

/-- What the empty store has and every operation keeps every store has that can come about. -/
theorem Reachable.keeps (inv : Store → Prop) (h : s.Reachable) (empty : inv Store.empty)
    (step : ∀ s op, inv s → inv (Op.perform s op)) : inv s := by
  obtain ⟨ops, rfl⟩ := h
  suffices ∀ s, inv s → inv (s.after ops) from this _ empty
  induction ops with
  | nil => exact fun s hs => hs
  | cons op ops ih => exact fun s hs => ih _ (step s op hs)

/-- A reachable store is coherent. -/
theorem Reachable.coherent (h : s.Reachable) : s.Coherent :=
  h.keeps Coherent coherent_empty fun _ op hs => hs.perform op

/-- An operation files a feed, or takes feeds out, or leaves the index as it is. -/
theorem Op.index_cases (op : Op) : (∃ r i b, op = .append r i b) ∨ (∃ ids, op = .unindex ids) ∨
    ∀ s, (op.perform s).index = s.index := by
  cases op with
  | append r i b => exact .inl ⟨r, i, b, rfl⟩
  | unindex ids => exact .inr (.inl ⟨ids, rfl⟩)
  | insert d =>
    refine .inr (.inr fun s => ?_)
    simp only [perform, Store.insert]
    split <;> rfl
  | complete id p => exact .inr (.inr fun s => by rw [perform, Store.complete, update_snd]; rfl)
  | bump id => exact .inr (.inr fun s => by rw [perform, Store.bump, update_snd]; rfl)
  | setAttempts id n =>
    exact .inr (.inr fun s => by rw [perform, Store.setAttempts, update_snd]; rfl)
  | advance key value =>
    refine .inr (.inr fun s => ?_)
    simp only [perform, Store.advance]
    split
    · split <;> rfl
    · rfl
  | _ => exact .inr (.inr fun _ => rfl)

/-- The index lists feeds in ascending order. -/
theorem Reachable.ascending (h : s.Reachable) (r : String) (b : Bool) :
    (s.indexed r b).Pairwise (· < ·) := by
  refine h.keeps (fun s => ∀ r b, (s.indexed r b).Pairwise (· < ·)) (fun r b => ?_)
    (fun s op hs r b => ?_) r b
  · cases b <;> exact .nil
  · rcases op.index_cases with ⟨r', i, b', rfl⟩ | ⟨ids, rfl⟩ | same
    · rw [Op.perform, indexed_append]
      split
      · exact Ascending.pairwise_insert (hs r' b') i
      · exact hs r b
    · rw [Op.perform, indexed_unindex]
      exact Ascending.pairwise_diff (hs r b) ids
    · unfold indexed partitions
      rw [same]
      exact hs r b

end Store

/-- The operation that a call asks the store for, if it can change something. -/
def Call.op? : Call → Option Store.Op
  | .insert d => some (.insert d)
  | .complete id p => some (.complete id p)
  | .bump id => some (.bump id)
  | .acknowledge id => some (.acknowledge id)
  | .append recipient id isSpam => some (.append recipient id isSpam)
  | .unindex ids => some (.unindex ids)
  | .advance _ epoch => some (.advance Broadcast.watermarkKey epoch)
  | .deleteExpired now => some (.deleteExpired now)
  | _ => none

/-- What a call does to the store is an operation, or nothing. -/
theorem Call.effect_eq (c : Call) (s : Store) :
    c.effect s = (c.op?.map (Store.Op.perform s)).getD s := by
  cases c <;> rfl

/-- No call sets the count of attempts. -/
theorem Call.op?_ne_setAttempts (c : Call) (i : FeedId) (n : Nat) :
    c.op? ≠ some (.setAttempts i n) := by
  cases c <;> exact nofun

/-- What the operation of a call keeps the call keeps, whether it fails or not. -/
theorem Call.keeps_of_op (inv : Store → Prop) (c : Call) (outages : Outages) {h : Hub}
    (step : ∀ op, c.op? = some op → inv (Store.Op.perform h.store op))
    (hh : inv h.store) : inv (c.perform outages h).2.store := by
  by_cases hf : (c.turn outages h).failed
  · rwa [c.perform_of_failed outages h hf]
  · rw [c.store_perform_of_not_failed outages h hf, c.effect_eq]
    cases hop : c.op? with
    | none => exact hh
    | some op => exact step op hop

/-- **Whatever calls are made, and whichever fail**, they lead to a store that can come about. -/
theorem Turn.Chain.reachable {s s' : Store} {ts : List Turn} (c : Turn.Chain s ts s')
    (hs : s.Reachable) : s'.Reachable := by
  induction c with
  | nil => exact hs
  | @cons t ts s' genuine _ ih =>
    obtain ⟨outages, ht⟩ := genuine
    have after : t.after = (t.call.perform outages t.before).2 := congrArg Turn.after ht
    refine ih ?_
    rw [after]
    exact t.call.keeps_of_op Store.Reachable outages (fun op _ => hs.perform op) hs

/-- A history that begins with a reachable store ends with one. -/
theorem History.reachable {s : Settings} {allowed : Act → Prop} {start h : Hub} {ts : List Turn}
    (hist : History s allowed start ts h) (hs : start.store.Reachable) : h.store.Reachable :=
  hist.chain.reachable hs

/-! ## Acts and operations -/

/-- What may become of a hub on which acts of some sort are performed, and operations of some sort
are asked of its store between them; and the calls of the acts. -/
inductive Hub.Evolves (s : Settings) (asked : Store.Op → Prop) (allowed : Act → Prop) :
    Hub → List Turn → Hub → Prop
  | stop (h : Hub) : Evolves s asked allowed h [] h
  | op {op : Store.Op} {ts : List Turn} {h h' : Hub} (ho : asked op)
      (rest : Evolves s asked allowed { h with store := op.perform h.store } ts h') :
      Evolves s asked allowed h ts h'
  | act {a : Act} {α : Type} {p : Program α} {result : α} {ts us : List Turn} {h h₁ h' : Hub}
      (ha : allowed a) (hp : a.PerformedBy s p) (run : p.Runs h ts result h₁)
      (rest : Evolves s asked allowed h₁ us h') : Evolves s asked allowed h (ts ++ us) h'
  | outside {ts : List Turn} {h h₁ h' : Hub} (o : h.Outside h₁)
      (rest : Evolves s asked allowed h₁ ts h') : Evolves s asked allowed h ts h'

/-- A hub that has evolved from a reachable store has one. -/
theorem Hub.Evolves.reachable {s : Settings} {asked : Store.Op → Prop} {allowed : Act → Prop}
    {h h' : Hub} {ts : List Turn} (e : h.Evolves s asked allowed ts h')
    (hs : h.store.Reachable) : h'.store.Reachable := by
  induction e with
  | stop => exact hs
  | @op op _ _ _ _ _ ih => exact ih (hs.perform op)
  | act _ _ run _ ih => exact ih (run.chain.reachable hs)
  | outside o _ ih => exact ih (by rwa [o.store_eq])

end NotificationRelay
