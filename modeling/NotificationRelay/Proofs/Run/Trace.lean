/-
# Traces

A program is run call by call. Each call is made under outages of its own, so that any
call to the store may fail at any time, whatever failed before; and between two calls
the world outside goes on: readers empty their queues or go away, and the far end of
the topic changes its mind (`Hub.Outside`). `Program.Runs` relates a program and a hub
to the calls it made (`Turn`), its result and the hub it leaves.

A run of a program followed by another is a run of the one and then of the other
(`Program.Runs.of_bind`). A program that makes only calls of one sort
(`Program.Only`) leaves only such turns (`Program.Runs.only`) and keeps what such
calls keep (`Program.Runs.keeps`).
-/
import Mathlib.Logic.Relation
import NotificationRelay.Program

namespace NotificationRelay

/-- A call as it was made: the hub it found, its answer, and the hub it left. -/
structure Turn where
  before : Hub
  call : Call
  answer : call.Answer
  after : Hub

/-- The turn of a call that is made on a hub. -/
def Call.turn (c : Call) (outages : Outages) (h : Hub) : Turn :=
  ⟨h, c, (c.perform outages h).1, (c.perform outages h).2⟩

/-- What happens to a hub without a call of the relay. -/
inductive Hub.Outside : Hub → Hub → Prop
  /-- A reader takes events from its queue. -/
  | read (h : Hub) (id : SessionId) (most : Nat) : Outside h (h.take id most).2
  /-- A reader goes away. -/
  | leave (h : Hub) (id : SessionId) : Outside h (h.closeQueue id)
  /-- The far end of the topic is reached or lost, and settles its next answers. -/
  | turn (h : Hub) (reachable : Bool) (answers : List Nat) :
      Outside h { h with sink := ⟨reachable, answers, h.sink.log⟩ }

namespace Hub

/-- Opening a queue leaves the store as it is. -/
theorem store_openQueue (h : Hub) (capacity : Nat) : (h.openQueue capacity).2.store = h.store := by
  unfold openQueue
  split <;> rfl

/-- Closing a queue leaves the store as it is. -/
theorem store_closeQueue (h : Hub) (id : SessionId) : (h.closeQueue id).store = h.store := by
  unfold closeQueue
  split <;> rfl

/-- An offer leaves the store as it is. -/
theorem store_offer (h : Hub) (id : SessionId) (e : Event) :
    (h.offer id e).2.store = h.store := by
  unfold offer
  split <;> rfl

/-- A reader leaves the store as it is. -/
theorem store_take (h : Hub) (id : SessionId) (most : Nat) :
    (h.take id most).2.store = h.store := by
  unfold take
  split <;> rfl

/-- Nothing that happens outside changes the store. -/
theorem Outside.store_eq {h h' : Hub} (o : h.Outside h') : h'.store = h.store := by
  cases o with
  | read id most => exact h.store_take id most
  | leave id => exact h.store_closeQueue id
  | turn => rfl

/-- The store is out of reach from outside. -/
theorem store_eq_of_outside {h h' : Hub} (o : Relation.ReflTransGen Outside h h') :
    h'.store = h.store := by
  induction o with
  | refl => rfl
  | tail _ o ih => exact o.store_eq.trans ih

end Hub

namespace Program

/-- A run of a program on a hub: the calls it made, its result, and the hub it leaves. -/
inductive Runs {α : Type} : Program α → Hub → List Turn → α → Hub → Prop
  | done (a : α) (h : Hub) : Runs (.done a) h [] a h
  | call (outages : Outages) {c : Call} {next : c.Answer → Program α} {h h' : Hub}
      {ts : List Turn} {a : α}
      (rest : Runs (next (c.perform outages h).1) (c.perform outages h).2 ts a h') :
      Runs (.call c next) h (c.turn outages h :: ts) a h'
  | outside {p : Program α} {h h₁ h' : Hub} {ts : List Turn} {a : α} (o : h.Outside h₁)
      (rest : Runs p h₁ ts a h') : Runs p h ts a h'

/-- The calls of a program that runs alone. -/
def turns {α : Type} (outages : Outages) : Program α → Hub → List Turn
  | .done _, _ => []
  | .call c next, h =>
    c.turn outages h :: turns outages (next (c.perform outages h).1) (c.perform outages h).2

/-- The calls of a program and of what follows it. -/
theorem turns_bind {α β : Type} (outages : Outages) (p : Program α)
    (next : α → Program β) (h : Hub) : (p.bind next).turns outages h =
      p.turns outages h ++ (next (p.run outages h).1).turns outages (p.run outages h).2 := by
  induction p generalizing h with
  | done a => rfl
  | call c rest ih => exact congrArg (_ :: ·) (ih _ _)

/-- A program that runs alone has a run. -/
theorem runs_run {α : Type} (outages : Outages) (p : Program α) (h : Hub) :
    p.Runs h (p.turns outages h) (p.run outages h).1 (p.run outages h).2 := by
  induction p generalizing h with
  | done a => exact .done a h
  | call c next ih => exact .call outages (ih _ _)

namespace Runs

variable {α β : Type} {h h' : Hub} {ts : List Turn}

/-- A program that is done makes no calls, and only the world outside may change the hub. -/
theorem of_done {a b : α} (r : (Program.done a).Runs h ts b h') :
    ts = [] ∧ b = a ∧ Relation.ReflTransGen Hub.Outside h h' := by
  generalize hp : Program.done a = p at r
  induction r with
  | done => cases hp; exact ⟨rfl, rfl, .refl⟩
  | call => cases hp
  | outside o _ ih =>
    obtain ⟨ht, hb, hh⟩ := ih hp
    exact ⟨ht, hb, .head o hh⟩

/-- A run of a call and what follows it: the call is made on the hub as it has become
meanwhile. -/
theorem of_call {c : Call} {next : c.Answer → Program α} {a : α}
    (r : (Program.call c next).Runs h ts a h') :
    ∃ h₁ outages us, Relation.ReflTransGen Hub.Outside h h₁ ∧ ts = c.turn outages h₁ :: us ∧
      (next (c.perform outages h₁).1).Runs (c.perform outages h₁).2 us a h' := by
  generalize hp : Program.call c next = p at r
  induction r with
  | done => cases hp
  | call outages rest _ => cases hp; exact ⟨_, outages, _, .refl, rfl, rest⟩
  | outside o _ ih =>
    obtain ⟨h₁, outages, us, hh, ht, rest⟩ := ih hp
    exact ⟨h₁, outages, us, .head o hh, ht, rest⟩

/-- A run may begin when something has happened outside. -/
theorem after_outside {p : Program α} {h₁ : Hub} {a : α}
    (o : Relation.ReflTransGen Hub.Outside h h₁) (r : p.Runs h₁ ts a h') : p.Runs h ts a h' := by
  induction o using Relation.ReflTransGen.head_induction_on with
  | refl => exact r
  | head o _ ih => exact .outside o ih

/-- A run of one program after another is a run of the first and then one of the second. -/
theorem of_bind {p : Program α} {k : α → Program β} {b : β} (r : (p.bind k).Runs h ts b h') :
    ∃ us vs a h₁, ts = us ++ vs ∧ p.Runs h us a h₁ ∧ (k a).Runs h₁ vs b h' := by
  induction p generalizing h ts with
  | done a => exact ⟨[], ts, a, h, rfl, .done a h, r⟩
  | call c next ih =>
    obtain ⟨h₁, outages, us, o, rfl, rest⟩ := of_call r
    obtain ⟨us, vs, a, h₂, rfl, hus, hvs⟩ := ih _ rest
    exact ⟨_ :: us, vs, a, h₂, rfl, after_outside o (.call outages hus), hvs⟩

/-- The runs of two programs, one after the other, make a run of both. -/
theorem bind {p : Program α} {k : α → Program β} {us : List Turn} {h₁ : Hub} {a : α} {b : β}
    (first : p.Runs h ts a h₁) (rest : (k a).Runs h₁ us b h') :
    (p.bind k).Runs h (ts ++ us) b h' := by
  induction first with
  | done => exact rest
  | call outages _ ih => exact .call outages (ih rest)
  | outside o _ ih => exact .outside o (ih rest)

/-- A program of one call runs in one turn. -/
theorem of_perform {c : Call} {a : c.Answer} (r : (perform c).Runs h ts a h') :
    ∃ h₁ outages, Relation.ReflTransGen Hub.Outside h h₁ ∧ ts = [c.turn outages h₁] ∧
      a = (c.perform outages h₁).1 ∧
      Relation.ReflTransGen Hub.Outside (c.perform outages h₁).2 h' := by
  obtain ⟨h₁, outages, us, hh, rfl, rest⟩ := of_call r
  obtain ⟨rfl, rfl, hh'⟩ := of_done rest
  exact ⟨h₁, outages, hh, rfl, rfl, hh'⟩

end Runs

/-! ## Programs that make calls of one sort -/

/-- Every call that a program can come to make is of one sort. -/
def Only {α : Type} (sort : Call → Prop) : Program α → Prop
  | .done _ => True
  | .call c next => sort c ∧ ∀ outages h, (next (c.perform outages h).1).Only sort

section Only

variable {α β : Type} {sort sort' : Call → Prop}

/-- What makes calls of one sort only makes calls of any wider sort only. -/
theorem Only.mono {p : Program α} (hp : p.Only sort) (hs : ∀ c, sort c → sort' c) :
    p.Only sort' := by
  induction p with
  | done => trivial
  | call c next ih => exact ⟨hs c hp.1, fun outages h => ih _ (hp.2 outages h)⟩

/-- A program keeps to a sort if its beginning does and all that may follow. -/
theorem Only.bind {p : Program α} {k : α → Program β} (hp : p.Only sort)
    (hk : ∀ a, (k a).Only sort) : (p.bind k).Only sort := by
  induction p with
  | done a => exact hk a
  | call c next ih => exact ⟨hp.1, fun outages h => ih _ (hp.2 outages h)⟩

/-- A program that goes on in one way after a failure and in another after a success. -/
theorem Only.bind_except {ε : Type} {p : Program (Except ε α)} {k : Except ε α → Program β}
    (hp : p.Only sort) (failure : ∀ e, (k (.error e)).Only sort)
    (success : ∀ a, (k (.ok a)).Only sort) : (p.bind k).Only sort :=
  hp.bind fun
    | .error e => failure e
    | .ok a => success a

/-- Every program keeps to the calls that there are. -/
theorem only_any (p : Program α) : p.Only fun _ => True := by
  induction p with
  | done => trivial
  | call c next ih => exact ⟨trivial, fun _ _ => ih _⟩

/-- A program of one call keeps to the sort of this call. -/
theorem only_perform {c : Call} (hc : sort c) : (perform c).Only sort :=
  ⟨hc, fun _ _ => trivial⟩

/-- Doing something for each item keeps to a sort if it does for every item. -/
theorem only_forEach {items : List β} {body : β → Program α}
    (hb : ∀ b ∈ items, (body b).Only sort) : (forEach items body).Only sort := by
  induction items with
  | nil => trivial
  | cons b rest ih =>
    refine (hb b List.mem_cons_self).bind fun _ => ?_
    exact (ih fun x hx => hb x (List.mem_cons_of_mem _ hx)).bind fun _ => trivial

variable {p : Program α} {h h' : Hub} {ts : List Turn} {a : α}

/-- In a run of a program that keeps to a sort, every call is of that sort. -/
theorem Runs.only (r : p.Runs h ts a h') (hp : p.Only sort) : ∀ t ∈ ts, sort t.call := by
  induction r with
  | done => intro t ht; cases ht
  | call outages _ ih =>
    intro t ht
    rcases List.mem_cons.1 ht with rfl | ht
    · exact hp.1
    · exact ih (hp.2 _ _) t ht
  | outside _ _ ih => exact ih hp

/-- **What every call keeps a program keeps.** A property of the hub that outlasts the
world outside, and every call of the sort that a program makes, holds at every turn of the
program and after it. -/
theorem Runs.keeps (inv : Hub → Prop) (r : p.Runs h ts a h') (hp : p.Only sort)
    (hout : ∀ g g' : Hub, g.Outside g' → inv g → inv g')
    (hcall : ∀ c outages g, sort c → inv g → inv (c.perform outages g).2) (hh : inv h) :
    inv h' ∧ ∀ t ∈ ts, inv t.before ∧ inv t.after := by
  induction r with
  | done => exact ⟨hh, fun t ht => by cases ht⟩
  | call outages _ ih =>
    have after := hcall _ outages _ hp.1 hh
    obtain ⟨hlast, hturns⟩ := ih (hp.2 _ _) after
    refine ⟨hlast, fun t ht => ?_⟩
    rcases List.mem_cons.1 ht with rfl | ht
    · exact ⟨hh, after⟩
    · exact hturns t ht
  | outside o _ ih => exact ih hp (hout _ _ o hh)

end Only

/-! ## Programs whose turns all keep a rule -/

/-- Every turn of every run of a program keeps a rule. -/
def Obeys {α : Type} (rule : Turn → Prop) (p : Program α) : Prop :=
  ∀ h ts a h', p.Runs h ts a h' → ∀ t ∈ ts, rule t

section Obeys

variable {α β : Type} {rule : Turn → Prop}

/-- A program that is done obeys every rule. -/
theorem obeys_done (a : α) : (Program.done a).Obeys rule := by
  intro h ts b h' r t ht
  obtain ⟨rfl, -, -⟩ := r.of_done
  cases ht

/-- A program obeys a rule if its beginning does and all that may follow. -/
theorem Obeys.bind {p : Program α} {k : α → Program β} (hp : p.Obeys rule)
    (hk : ∀ a, (k a).Obeys rule) : (p.bind k).Obeys rule := by
  intro h ts b h' r t ht
  obtain ⟨us, vs, a, h₁, rfl, hus, hvs⟩ := r.of_bind
  rcases List.mem_append.1 ht with ht | ht
  · exact hp _ _ _ _ hus t ht
  · exact hk a _ _ _ _ hvs t ht

/-- A rule for calls of another sort is kept. -/
theorem Obeys.of_only {sort : Call → Prop} {p : Program α} (hp : p.Only sort)
    (hrule : ∀ t : Turn, sort t.call → rule t) : p.Obeys rule := fun _ _ _ _ r t ht =>
  hrule t (r.only hp t ht)

/-- A program of one call obeys the rules that hold of all turns of this call. -/
theorem obeys_perform {c : Call} (hc : ∀ t : Turn, t.call = c → rule t) :
    (perform c).Obeys rule := by
  intro h ts a h' r t ht
  obtain ⟨h₁, outages, -, rfl, -⟩ := r.of_perform
  obtain rfl := List.mem_singleton.1 ht
  exact hc _ rfl

/-- Doing something for each item obeys a rule if it does for every item. -/
theorem obeys_forEach {items : List β} {body : β → Program α}
    (hb : ∀ b ∈ items, (body b).Obeys rule) : (forEach items body).Obeys rule := by
  induction items with
  | nil => exact obeys_done []
  | cons b rest ih =>
    refine (hb b List.mem_cons_self).bind fun _ => ?_
    exact (ih fun x hx => hb x (List.mem_cons_of_mem _ hx)).bind fun _ => obeys_done _

end Obeys

end Program

/-! ## The stores between turns -/

/-- A turn that some outages bring about. -/
def Turn.Genuine (t : Turn) : Prop := ∃ outages, t = t.call.turn outages t.before

/-- Turns each of which finds the store that the one before has left. -/
inductive Turn.Chain : Store → List Turn → Store → Prop
  | nil (s : Store) : Chain s [] s
  | cons {t : Turn} {ts : List Turn} {s' : Store} (genuine : t.Genuine)
      (rest : Chain t.after.store ts s') : Chain t.before.store (t :: ts) s'

namespace Turn.Chain

variable {s s' s'' : Store} {ts us : List Turn}

/-- Chains that meet in a store make a chain. -/
theorem append (h : Chain s ts s') (h' : Chain s' us s'') : Chain s (ts ++ us) s'' := by
  induction h with
  | nil => exact h'
  | cons genuine _ ih => exact .cons genuine (ih h')

/-- A chain can be cut anywhere. -/
theorem of_append (h : Chain s (ts ++ us) s'') : ∃ s', Chain s ts s' ∧ Chain s' us s'' := by
  induction ts generalizing s with
  | nil => exact ⟨s, .nil s, h⟩
  | cons t ts ih =>
    cases h with
    | cons genuine rest =>
      obtain ⟨s', hts, hus⟩ := ih rest
      exact ⟨s', .cons genuine hts, hus⟩

/-- A chain begins with the store that its first turn finds. -/
theorem of_cons {t : Turn} (h : Chain s (t :: ts) s') :
    s = t.before.store ∧ Chain t.after.store ts s' := by
  cases h with
  | cons _ rest => exact ⟨rfl, rest⟩

/-- All turns of a chain are genuine. -/
theorem genuine (c : Chain s ts s') : ∀ t ∈ ts, t.Genuine := by
  induction c with
  | nil => exact fun _ ht => nomatch ht
  | cons genuine _ ih =>
    intro t ht
    rcases List.mem_cons.1 ht with rfl | ht
    · exact genuine
    · exact ih t ht

/-- Turns lead to one store only. -/
theorem end_unique (h : Chain s ts s') (h' : Chain s ts s'') : s' = s'' := by
  induction h with
  | nil => cases h'; rfl
  | cons _ _ ih => exact ih h'.of_cons.2

end Turn.Chain

/-- The turns of a run are a chain from the first store to the last. -/
theorem Program.Runs.chain {α : Type} {p : Program α} {h h' : Hub} {ts : List Turn} {a : α}
    (r : p.Runs h ts a h') : Turn.Chain h.store ts h'.store := by
  induction r with
  | done a h => exact .nil h.store
  | @call outages c _ h _ _ _ _ ih => exact .cons (t := c.turn outages h) ⟨outages, rfl⟩ ih
  | outside o _ ih => rwa [← o.store_eq]

end NotificationRelay
