/-
# Who made which call

`Program.Weave` turns programs that work side by side into one program. `Program.Interleaved`
follows them step by step instead and writes down who made which call, so that every stage they
can reach is covered and not only their ends. What one of them did is its share of the calls
(`Turn.share`). Taken by itself its share leads that program to where it stands
(`Program.Interleaved.goes`), and how a program gets somewhere by its own calls is read off the
program, part by part (`Program.Goes.of_bind`).

Some programs make calls of one kind first and calls of another kind from then on
(`Program.Phased`); then what is of the first kind only comes before what is of the second.

Runs side by side can be told in this way (`Program.Weave.interleaved`).
-/
import Mathlib.Data.List.Basic
import NotificationRelay.Proofs.Run.Calls
import NotificationRelay.Proofs.Run.Weave

namespace NotificationRelay

/-- The turns of one party among turns that are numbered by who made them. -/
def Turn.share (k : Nat) (moves : List (Nat × Turn)) : List Turn :=
  (moves.filter fun m => decide (m.1 = k)).map (·.2)

namespace Turn

variable {k j : Nat} {u : Turn} {moves more : List (Nat × Turn)}

/-- A turn is in the share of whoever has made it. -/
theorem mem_share : u ∈ share k moves ↔ (k, u) ∈ moves := by
  simp [share]

theorem share_append : share k (moves ++ more) = share k moves ++ share k more := by
  unfold share
  rw [List.filter_append, List.map_append]

/-- Whoever makes a move has it in front of its share. -/
@[simp] theorem share_cons_self : share k ((k, u) :: moves) = u :: share k moves := by
  simp [share]

/-- A move of another program is not in the share. -/
theorem share_cons_of_ne (other : j ≠ k) : share k ((j, u) :: moves) = share k moves := by
  simp [share, other]

/-- Where one of the turns of a party stands among those of all. -/
theorem exists_of_share {xs ys : List Turn} (split : share k moves = xs ++ u :: ys) :
    ∃ before after, moves = before ++ (k, u) :: after ∧ share k before = xs ∧
      share k after = ys := by
  obtain ⟨vs, ws, hfilter, rfl, htail⟩ := List.map_eq_append_iff.1 split
  obtain ⟨m, ws, rfl, rfl, rfl⟩ := List.map_eq_cons_iff.1 htail
  obtain ⟨before, rest, rfl, rfl, hrest⟩ := List.filter_eq_append_iff.1 hfilter
  obtain ⟨others, after, rfl, hothers, mine, rfl⟩ := List.filter_eq_cons_iff.1 hrest
  obtain rfl : m.1 = k := of_decide_eq_true mine
  refine ⟨before ++ others, after, (List.append_assoc _ _ _).symm, ?_, rfl⟩
  have none : others.filter (fun n => decide (n.1 = m.1)) = [] :=
    List.filter_eq_nil_iff.2 hothers
  unfold share
  rw [List.filter_append, none, List.append_nil]

/-- Turns are those of all parties, up to their order. -/
theorem perm_shares {n : Nat} (inside : ∀ m ∈ moves, m.1 < n) :
    (moves.map (·.2)).Perm ((List.range n).flatMap fun k => share k moves) := by
  induction n generalizing moves with
  | zero =>
    obtain rfl : moves = [] := List.eq_nil_iff_forall_not_mem.2 fun m hm => by
      have := inside m hm
      omega
    exact .nil
  | succ n ih =>
    -- the last party is taken out, and the shares of the others are what they were
    have others : ∀ m ∈ moves.filter (fun m => !decide (m.1 = n)), m.1 < n := fun m hm => by
      obtain ⟨hm, hne⟩ := List.mem_filter.1 hm
      have := inside m hm
      simp only [Bool.not_eq_true', decide_eq_false_iff_not] at hne
      omega
    have same :
        (List.range n).flatMap (fun k => share k (moves.filter fun m => !decide (m.1 = n))) =
        (List.range n).flatMap fun k => share k moves := by
      refine List.flatMap_congr fun k hk => ?_
      have below := List.mem_range.1 hk
      unfold share
      rw [List.filter_filter]
      congr 1
      refine List.filter_congr fun m _ => ?_
      by_cases hm : m.1 = k <;> simp [hm]
      omega
    have split := (List.filter_append_perm (fun m => decide (m.1 = n)) moves).map (·.2)
    rw [List.map_append] at split
    rw [List.range_succ, List.flatMap_append, List.flatMap_singleton, ← same]
    exact split.symm.trans (List.perm_append_comm.trans ((ih others).append_right _))

end Turn

namespace Program

/-! ## How one program gets somewhere -/

/-- A program gets somewhere by calls of its own, whatever happens to the hub in between. -/
inductive Goes {α : Type} : Program α → List Turn → Program α → Prop
  | stop (p : Program α) : Goes p [] p
  | turn (outages : Outages) (h : Hub) {c : Call} {next : c.Answer → Program α} {us : List Turn}
      {q : Program α} (rest : Goes (next (c.perform outages h).1) us q) :
      Goes (.call c next) (c.turn outages h :: us) q

namespace Goes

variable {α β : Type} {us : List Turn}

/-- A program that is done goes nowhere. -/
theorem of_done {a : α} {q : Program α} (g : (Program.done a).Goes us q) :
    us = [] ∧ q = .done a := by
  cases g
  exact ⟨rfl, rfl⟩

/-- A program that is to make a call has not begun, or has made the call and gone on from its
answer. -/
theorem of_call {c : Call} {next : c.Answer → Program α} {q : Program α}
    (g : (Program.call c next).Goes us q) : us = [] ∧ q = .call c next ∨
      ∃ outages h vs, us = c.turn outages h :: vs ∧ (next (c.perform outages h).1).Goes vs q := by
  cases g with
  | stop => exact .inl ⟨rfl, rfl⟩
  | turn outages h rest => exact .inr ⟨outages, h, _, rfl, rest⟩

/-- A program followed by another is still in the first, or it has come to the end of the first
and gone on with the second. -/
theorem of_bind {p : Program α} {k : α → Program β} {q : Program β} (g : (p.bind k).Goes us q) :
    (∃ p', p.Goes us p' ∧ p'.isUnfinished = true ∧ q = p'.bind k) ∨
      ∃ vs ws a, us = vs ++ ws ∧ p.Goes vs (.done a) ∧ (k a).Goes ws q := by
  induction p generalizing us with
  | done a => exact .inr ⟨[], us, a, rfl, .stop _, g⟩
  | call c next ih =>
    rcases of_call g with ⟨rfl, rfl⟩ | ⟨outages, h, vs, rfl, rest⟩
    · exact .inl ⟨.call c next, .stop _, rfl, rfl⟩
    · rcases ih _ rest with ⟨p', goes, unfinished, rfl⟩ | ⟨vs, ws, a, rfl, goes, more⟩
      · exact .inl ⟨p', .turn outages h goes, unfinished, rfl⟩
      · exact .inr ⟨_ :: vs, ws, a, rfl, .turn outages h goes, more⟩

/-- A program of one call has gone to its end when the call is made. -/
theorem of_perform {c : Call} {a : c.Answer} (g : (perform c).Goes us (.done a)) :
    ∃ outages h, us = [c.turn outages h] ∧ a = (c.perform outages h).1 := by
  rcases of_call g with ⟨-, ended⟩ | ⟨outages, h, vs, rfl, rest⟩
  · cases ended
  · obtain ⟨rfl, ended⟩ := of_done rest
    cases ended
    exact ⟨outages, h, rfl, rfl⟩

/-- A program is unfinished while its beginning is. -/
theorem isUnfinished_bind {p : Program α} (k : α → Program β) (hp : p.isUnfinished = true) :
    (p.bind k).isUnfinished = true := by
  cases p with
  | done => cases hp
  | call => rfl

/-- A program that is still in the first of its parts has not ended. -/
theorem bind_ne_done {p : Program α} {k : α → Program β} (hp : p.isUnfinished = true) (b : β) :
    p.bind k ≠ .done b := fun ended => by
  have goesOn := isUnfinished_bind k hp
  rw [ended] at goesOn
  cases goesOn

/-- A program followed by another ends when the second has ended. -/
theorem of_bind_done {p : Program α} {k : α → Program β} {b : β}
    (g : (p.bind k).Goes us (.done b)) :
    ∃ vs ws a, us = vs ++ ws ∧ p.Goes vs (.done a) ∧ (k a).Goes ws (.done b) := by
  rcases of_bind g with ⟨p', -, unfinished, ended⟩ | second
  · exact absurd ended.symm (bind_ne_done unfinished b)
  · exact second

/-- A program that keeps to a sort has made calls of this sort only, and is to make no others. -/
theorem only {sort : Call → Prop} {p q : Program α} (g : p.Goes us q) (hp : p.Only sort) :
    (∀ u ∈ us, sort u.call) ∧ q.Only sort := by
  induction g with
  | stop => exact ⟨fun u hu => (nomatch hu), hp⟩
  | turn outages h _ ih =>
    obtain ⟨later, last⟩ := ih (hp.2 outages h)
    refine ⟨fun u hu => ?_, last⟩
    rcases List.mem_cons.1 hu with rfl | hu
    · exact hp.1
    · exact later u hu

end Goes

/-- A program whose result is of no interest. -/
def discard {α : Type} (p : Program α) : Program Unit := p.bind fun _ => .done ()

/-- Such a program goes where the program goes. -/
theorem Goes.of_discard {α : Type} {p : Program α} {us : List Turn} {q : Program Unit}
    (g : p.discard.Goes us q) :
    ∃ p', p.Goes us p' ∧ (q = .done () → ∃ a, p' = .done a) := by
  rcases of_bind g with ⟨p', goes, unfinished, rfl⟩ | ⟨vs, ws, a, rfl, goes, rest⟩
  · exact ⟨p', goes, fun ended => absurd ended (bind_ne_done unfinished ())⟩
  · obtain ⟨rfl, rfl⟩ := rest.of_done
    rw [List.append_nil]
    exact ⟨.done a, goes, fun _ => ⟨a, rfl⟩⟩

/-! ## Programs in two phases -/

/-- A program that makes calls of a first sort and then calls of a second sort only. -/
def Phased {α : Type} (first second : Call → Prop) : Program α → Prop
  | .done _ => True
  | .call c next => first c ∧ (∀ outages h, (next (c.perform outages h).1).Phased first second) ∨
      (Program.call c next).Only second

namespace Phased

variable {α β : Type} {first second : Call → Prop} {us : List Turn}

/-- A program that keeps to the second sort has its first phase behind it. -/
theorem of_second {p : Program α} (hp : p.Only second) : p.Phased first second := by
  cases p with
  | done => trivial
  | call => exact .inr hp

/-- The first phase may be preceded by calls of the first sort. -/
theorem first_bind {p : Program α} {k : α → Program β} (hp : p.Only first)
    (hk : ∀ a, (k a).Phased first second) : (p.bind k).Phased first second := by
  induction p with
  | done a => exact hk a
  | call c next ih => exact .inl ⟨hp.1, fun outages h => ih _ (hp.2 outages h)⟩

/-- The second phase may be followed by calls of the second sort. -/
theorem bind_second {p : Program α} {k : α → Program β} (hp : p.Phased first second)
    (hk : ∀ a, (k a).Only second) : (p.bind k).Phased first second := by
  induction p with
  | done a => exact of_second (hk a)
  | call c next ih =>
    rcases hp with ⟨hc, hnext⟩ | hp
    · exact .inl ⟨hc, fun outages h => ih _ (hnext outages h)⟩
    · exact of_second (hp.bind hk)

/-- The calls of a program in two phases fall into two parts. -/
theorem of_goes {p q : Program α} (hp : p.Phased first second) (g : p.Goes us q) :
    ∃ vs ws, us = vs ++ ws ∧ (∀ v ∈ vs, first v.call) ∧ ∀ w ∈ ws, second w.call := by
  induction g with
  | stop => exact ⟨[], [], rfl, fun _ hv => (nomatch hv), fun _ hw => (nomatch hw)⟩
  | turn outages h rest ih =>
    rcases hp with ⟨hc, hnext⟩ | hp
    · obtain ⟨vs, ws, rfl, hvs, hws⟩ := ih (hnext outages h)
      refine ⟨_ :: vs, ws, rfl, fun v hv => ?_, hws⟩
      rcases List.mem_cons.1 hv with rfl | hv
      · exact hc
      · exact hvs v hv
    · exact ⟨[], _, rfl, fun _ hv => (nomatch hv), ((Goes.turn outages h rest).only hp).1⟩

/-- A call that is not of the second sort is of the first, and so are all before it. -/
theorem of_split {p q : Program α} (hp : p.Phased first second) {vs ws : List Turn} {u : Turn}
    (g : p.Goes (vs ++ u :: ws) q) (hu : ¬ second u.call) :
    first u.call ∧ ∀ v ∈ vs, first v.call := by
  obtain ⟨xs, ys, split, hxs, hys⟩ := hp.of_goes g
  rcases List.append_eq_append_iff.1 split with ⟨as, rfl, heq⟩ | ⟨as, -, rfl⟩
  · cases as with
    | nil =>
      have late : u ∈ ys := by
        rw [← show u :: ws = ys from heq]
        exact List.mem_cons_self
      exact absurd (hys u late) hu
    | cons v as =>
      obtain ⟨rfl, -⟩ := List.cons.inj heq
      exact ⟨hxs u (List.mem_append_right _ List.mem_cons_self),
        fun v hv => hxs v (List.mem_append_left _ hv)⟩
  · exact absurd (hys u (List.mem_append_right _ List.mem_cons_self)) hu

end Phased

/-! ## All programs together -/

/-- Stages that programs reach when they take turns call by call. Each call is numbered by the
program that makes it. -/
inductive Interleaved {α : Type} :
    List (Program α) → Hub → List (Nat × Turn) → List (Program α) → Hub → Prop
  | stop (ps : List (Program α)) (h : Hub) : Interleaved ps h [] ps h
  | turn (outages : Outages) {ps qs : List (Program α)} {k : Nat} {c : Call}
      {next : c.Answer → Program α} {h h' : Hub} {moves : List (Nat × Turn)}
      (here : ps[k]? = some (.call c next))
      (rest : Interleaved (ps.set k (next (c.perform outages h).1)) (c.perform outages h).2 moves
        qs h') :
      Interleaved ps h ((k, c.turn outages h) :: moves) qs h'
  | outside {ps qs : List (Program α)} {h h₁ h' : Hub} {moves : List (Nat × Turn)}
      (o : h.Outside h₁) (rest : Interleaved ps h₁ moves qs h') : Interleaved ps h moves qs h'

namespace Interleaved

variable {α : Type} {ps qs : List (Program α)} {h h' : Hub} {moves : List (Nat × Turn)}

/-- Interleaved programs may begin when something has happened outside. -/
theorem after_outside {h₁ : Hub} (o : Relation.ReflTransGen Hub.Outside h h₁)
    (r : Interleaved ps h₁ moves qs h') : Interleaved ps h moves qs h' := by
  induction o using Relation.ReflTransGen.head_induction_on with
  | refl => exact r
  | head o _ ih => exact .outside o ih

/-- The turns of interleaved programs are a chain from the first store to the last. -/
theorem chain (r : Interleaved ps h moves qs h') :
    Turn.Chain h.store (moves.map (·.2)) h'.store := by
  induction r with
  | stop ps h => exact .nil h.store
  | @turn outages _ _ _ c _ h _ _ _ _ ih =>
    exact .cons (t := c.turn outages h) ⟨outages, rfl⟩ ih
  | outside o _ ih => rwa [← o.store_eq]

/-- There are as many programs afterwards as before. -/
theorem length_eq (r : Interleaved ps h moves qs h') : qs.length = ps.length := by
  induction r with
  | stop => rfl
  | turn _ _ _ ih => rw [ih, List.length_set]
  | outside _ _ ih => exact ih

/-- **Every program goes by its share of the calls**, whatever the others do in between. -/
theorem goes (r : Interleaved ps h moves qs h') {k : Nat} {p : Program α} (hk : ps[k]? = some p) :
    ∃ q, qs[k]? = some q ∧ p.Goes (Turn.share k moves) q := by
  induction r generalizing p with
  | stop => exact ⟨p, hk, .stop p⟩
  | @turn outages ps qs j c next h h' moves here _ ih =>
    by_cases hj : j = k
    · subst hj
      obtain rfl : p = .call c next := Option.some.inj (hk.symm.trans here)
      have inside : j < ps.length := (List.getElem?_eq_some_iff.1 here).1
      obtain ⟨q, hq, goes⟩ := ih (List.getElem?_set_self inside)
      rw [Turn.share_cons_self]
      exact ⟨q, hq, .turn outages h goes⟩
    · rw [Turn.share_cons_of_ne hj]
      exact ih (by rwa [List.getElem?_set_ne hj])
  | outside _ _ ih => exact ih hk

/-- Only the programs make calls. -/
theorem lt_length (r : Interleaved ps h moves qs h') {k : Nat} {u : Turn}
    (hu : (k, u) ∈ moves) : k < ps.length := by
  induction r with
  | stop => cases hu
  | turn _ here _ ih =>
    rcases List.mem_cons.1 hu with heq | hu
    · obtain ⟨rfl, -⟩ := Prod.mk.inj heq
      exact (List.getElem?_eq_some_iff.1 here).1
    · exact List.length_set ▸ ih hu
  | outside _ _ ih => exact ih hu

/-- Whoever made a call was on the way to where it stands. -/
theorem exists_goes (r : Interleaved ps h moves qs h') {k : Nat} {u : Turn}
    (hu : (k, u) ∈ moves) :
    ∃ p q, ps[k]? = some p ∧ qs[k]? = some q ∧ p.Goes (Turn.share k moves) q ∧
      u ∈ Turn.share k moves := by
  have hk := List.getElem?_eq_getElem (r.lt_length hu)
  obtain ⟨q, hq, goes⟩ := r.goes hk
  exact ⟨_, q, hk, hq, goes, Turn.mem_share.2 hu⟩

/-- What comes of the first calls, and of those after them. -/
theorem of_append {first rest : List (Nat × Turn)}
    (r : Interleaved ps h (first ++ rest) qs h') :
    ∃ rs h₁, Interleaved ps h first rs h₁ ∧ Interleaved rs h₁ rest qs h' := by
  generalize hmoves : first ++ rest = moves at r
  induction r generalizing first with
  | stop ps h =>
    obtain ⟨rfl, rfl⟩ := List.append_eq_nil_iff.1 hmoves
    exact ⟨ps, h, .stop ps h, .stop ps h⟩
  | turn outages here more ih =>
    rcases List.append_eq_cons_iff.1 hmoves with ⟨rfl, rfl⟩ | ⟨first, rfl, rfl⟩
    · exact ⟨_, _, .stop _ _, .turn outages here more⟩
    · obtain ⟨rs, h₁, before, after⟩ := ih rfl
      exact ⟨rs, h₁, .turn outages here before, after⟩
  | outside o _ ih =>
    obtain ⟨rs, h₁, before, after⟩ := ih hmoves
    exact ⟨rs, h₁, .outside o before, after⟩

/-- What outlasts the world outside and is kept by the calls that are made holds before each of
them and after all. -/
theorem keeps (inv : Hub → Prop) (r : Interleaved ps h moves qs h')
    (hout : ∀ g g' : Hub, g.Outside g' → inv g → inv g')
    (hcall : ∀ m ∈ moves, ∀ outages, m.2 = m.2.call.turn outages m.2.before → inv m.2.before →
      inv m.2.after) (hh : inv h) : inv h' ∧ ∀ m ∈ moves, inv m.2.before := by
  induction r with
  | stop => exact ⟨hh, fun _ hm => nomatch hm⟩
  | turn outages here _ ih =>
    have after := hcall _ List.mem_cons_self outages rfl hh
    obtain ⟨last, turns⟩ := ih (fun m hm => hcall m (List.mem_cons_of_mem _ hm)) after
    exact ⟨last, List.forall_mem_cons.2 ⟨hh, turns⟩⟩
  | outside o _ ih => exact ih hcall (hout _ _ o hh)

/-- What comes after the first of the calls. -/
theorem of_cons {k : Nat} {u : Turn} (r : Interleaved ps h ((k, u) :: moves) qs h') :
    ∃ p, Interleaved (ps.set k p) u.after moves qs h' := by
  generalize hmoves : (k, u) :: moves = all at r
  induction r with
  | stop => cases hmoves
  | turn outages _ rest _ =>
    cases hmoves
    exact ⟨_, rest⟩
  | outside _ _ ih => exact ih hmoves

/-- A program that has come to its end has gone there by its share of the calls. -/
theorem ends {ps qs : List (Program Unit)} (r : Interleaved ps h moves qs h')
    (ended : ∀ q ∈ qs, q = .done ()) {β : Type} {p : Program β} {k : Nat}
    (hk : ps[k]? = some p.discard) : ∃ b, p.Goes (Turn.share k moves) (.done b) := by
  obtain ⟨q, hq, goes⟩ := r.goes hk
  obtain ⟨p', goes, done⟩ := goes.of_discard
  obtain ⟨b, rfl⟩ := done (ended q (List.mem_of_getElem? hq))
  exact ⟨b, goes⟩

/-- Programs that take turns as a list says whose call is next, until it ends. -/
def takeTurns (outages : Outages) : List Nat → List (Program α) → Hub →
    List (Nat × Turn) × List (Program α) × Hub
  | [], ps, h => ([], ps, h)
  | k :: order, ps, h =>
    match ps[k]? with
    | some (.call c next) =>
      let rest := takeTurns outages order (ps.set k (next (c.perform outages h).1))
        (c.perform outages h).2
      ((k, c.turn outages h) :: rest.1, rest.2)
    | _ => takeTurns outages order ps h

/-- Programs that take turns in some order are interleaved. -/
theorem of_takeTurns (outages : Outages) (order : List Nat) (ps : List (Program α)) (h : Hub) :
    Interleaved ps h (takeTurns outages order ps h).1 (takeTurns outages order ps h).2.1
      (takeTurns outages order ps h).2.2 := by
  induction order generalizing ps h with
  | nil => exact .stop ps h
  | cons k order ih =>
    unfold takeTurns
    split
    · next here => exact .turn outages here (ih _ _)
    · exact ih ps h

/-- Only an outage makes one of the calls fail. -/
theorem outage_of_takeTurns {outages : Outages} {order : List Nat} {m : Nat × Turn}
    (hm : m ∈ (takeTurns outages order ps h).1) (hf : m.2.failed) :
    ∃ reason, outages m.2.call = some reason := by
  induction order generalizing ps h with
  | nil => cases hm
  | cons k order ih =>
    unfold takeTurns at hm
    split at hm
    · rcases List.mem_cons.1 hm with rfl | hm
      · exact Call.outage_of_failed _ outages h hf
      · exact ih hm
    · exact ih hm

/-- Without outages none of the calls fails. -/
theorem not_failed_of_takeTurns {order : List Nat} {m : Nat × Turn}
    (hm : m ∈ (takeTurns .none order ps h).1) : ¬ m.2.failed := fun hf =>
  nomatch (outage_of_takeTurns hm hf).choose_spec

end Interleaved

/-- **Programs side by side take turns**, and come to their results. -/
theorem Weave.interleaved {α : Type} {limit : Nat} {ps : List (Program α)} {w : Program (List α)}
    {h h' : Hub} {ts : List Turn} {results : List α} (hw : Weave limit ps w)
    (run : w.Runs h ts results h') :
    ∃ moves, moves.map (·.2) = ts ∧ Interleaved ps h moves (results.map .done) h' := by
  induction hw generalizing h ts with
  | done results =>
    obtain ⟨rfl, rfl, out⟩ := run.of_done
    exact ⟨[], rfl, .after_outside out (.stop _ h')⟩
  | @turn ps k c next rest here _ _ ih =>
    obtain ⟨h₁, outages, us, out, rfl, more⟩ := run.of_call
    obtain ⟨moves, rfl, r⟩ := ih _ more
    exact ⟨(k, c.turn outages h₁) :: moves, rfl, .after_outside out (.turn outages here r)⟩

/-- When all have come to their ends, each of them has by calls among those that were made. -/
theorem Weave.exists_goes {α : Type} {limit : Nat} {ps : List (Program α)} {w : Program (List α)}
    {us : List Turn} {results : List α} (hw : Weave limit ps w) (g : w.Goes us (.done results))
    {p : Program α} (hp : p ∈ ps) : ∃ vs a, p.Goes vs (.done a) ∧ vs ⊆ us := by
  induction hw generalizing us p with
  | done results =>
    obtain ⟨a, -, rfl⟩ := List.mem_map.1 hp
    exact ⟨[], a, .stop _, List.nil_subset us⟩
  | @turn ps k c next rest here _ _ ih =>
    rcases Goes.of_call g with ⟨-, ended⟩ | ⟨outages, h, us, rfl, more⟩
    · cases ended
    have inside : k < ps.length := (List.getElem?_eq_some_iff.1 here).1
    obtain ⟨j, hj⟩ := List.mem_iff_getElem?.1 hp
    by_cases hjk : j = k
    · subst hjk
      obtain rfl : p = .call c next := Option.some.inj (hj.symm.trans here)
      obtain ⟨vs, a, goes, sub⟩ := ih _ more (List.mem_of_getElem? (List.getElem?_set_self inside))
      exact ⟨_ :: vs, a, .turn outages h goes, List.cons_subset_cons _ sub⟩
    · have kept : p ∈ ps.set k (next (c.perform outages h).1) :=
        List.mem_of_getElem? (i := j) (by rwa [List.getElem?_set_ne (Ne.symm hjk)])
      obtain ⟨vs, a, goes, sub⟩ := ih _ more kept
      exact ⟨vs, a, goes, List.subset_cons_of_subset _ sub⟩

/-- When all have come to their ends, every call was made by one of them on its way. -/
theorem Weave.exists_owner {α : Type} {limit : Nat} {ps : List (Program α)} {w : Program (List α)}
    {us : List Turn} {results : List α} (hw : Weave limit ps w) (g : w.Goes us (.done results))
    {u : Turn} (hu : u ∈ us) : ∃ p ∈ ps, ∃ vs a, p.Goes vs (.done a) ∧ vs ⊆ us ∧ u ∈ vs := by
  induction hw generalizing us with
  | done results =>
    obtain ⟨rfl, -⟩ := g.of_done
    cases hu
  | @turn ps k c next rest here _ weave ih =>
    rcases Goes.of_call g with ⟨-, ended⟩ | ⟨outages, h, us, rfl, more⟩
    · cases ended
    have inside : k < ps.length := (List.getElem?_eq_some_iff.1 here).1
    have mine : Program.call c next ∈ ps := List.mem_of_getElem? here
    have moved : next (c.perform outages h).1 ∈ ps.set k (next (c.perform outages h).1) :=
      List.mem_of_getElem? (List.getElem?_set_self inside)
    rcases List.mem_cons.1 hu with rfl | hu
    · obtain ⟨vs, a, goes, sub⟩ := (weave _).exists_goes more moved
      exact ⟨_, mine, _ :: vs, a, .turn outages h goes, List.cons_subset_cons _ sub,
        List.mem_cons_self⟩
    · obtain ⟨p, hp, vs, a, goes, sub, hv⟩ := ih _ more hu
      rcases List.mem_or_eq_of_mem_set hp with hp | rfl
      · exact ⟨p, hp, vs, a, goes, List.subset_cons_of_subset _ sub, hv⟩
      · exact ⟨_, mine, _ :: vs, a, .turn outages h goes, List.cons_subset_cons _ sub,
          List.mem_cons_of_mem _ hv⟩

end Program
end NotificationRelay
