/-
# Parties with roles

Parties that work side by side may owe it to their own past that they keep out of each other's
way: one of them goes by a list that it has read some time ago, and what makes the list still
good is that nobody else does what would spoil it. A `Cast` gives each party a role, which says
how far it is and what it may rely on, and ties the roles of all parties together with the calls
so far and the hub in one invariant. It also has a rule for the calls.

`Program.Plays` says that the program of one party keeps the rule and the invariant, changing no
role but its own, whatever the others do meanwhile. It is put together from the parts of the
program; where a party handles several items side by side, only the one that the roles are about
matters (`Program.Weave.plays_of_key`). If every party plays its part, the rule holds at every
call of all of them together (`Program.Weave.played`).
-/
import Mathlib.Logic.Function.Basic
import NotificationRelay.Proofs.Run.Aspect
import NotificationRelay.Proofs.Run.History

namespace NotificationRelay

/-- An invariant of the roles of all parties, the calls so far and the hub, and a rule for the
next call. -/
structure Cast (ρ : Type) where
  inv : (Nat → ρ) → List Turn → Hub → Prop
  rule : List Turn → Hub → Call → Prop
  outside : ∀ {roles past h h'}, h.Outside h' → inv roles past h → inv roles past h'

/-- What a cast relies on outlasts what happens outside. -/
theorem Cast.inv_of_outside {ρ : Type} {C : Cast ρ} {roles : Nat → ρ} {past : List Turn}
    {h h' : Hub} (o : Relation.ReflTransGen Hub.Outside h h') (hinv : C.inv roles past h) :
    C.inv roles past h' := by
  induction o with
  | refl => exact hinv
  | tail _ o ih => exact C.outside o ih

/-- A call that keeps the rule and the invariant whoever makes it, and changes no role. -/
def Cast.Neutral {ρ : Type} (C : Cast ρ) (c : Call) : Prop :=
  ∀ roles past h outages, C.inv roles past h → C.rule past h c ∧
    C.inv roles (past ++ [c.turn outages h]) (c.perform outages h).2

namespace Program

variable {ρ α β : Type} {C : Cast ρ} {me : Nat}

/-- The party `me` plays its part: from a role on, each of its calls keeps the rule and leads to
a role in which the invariant holds again, until it ends as `post` says. -/
def Plays (C : Cast ρ) (me : Nat) {α : Type} : Program α → (post : α → ρ → Prop) → ρ → Prop
  | .done a, post, r => post a r
  | .call c next, post, r => ∀ roles past h outages, roles me = r → C.inv roles past h →
      C.rule past h c ∧ ∃ r', C.inv (Function.update roles me r') (past ++ [c.turn outages h])
        (c.perform outages h).2 ∧ (next (c.perform outages h).1).Plays C me post r'

namespace Plays

variable {p : Program α} {post post' : α → ρ → Prop} {r : ρ}

/-- What a program plays, it plays to any weaker end. -/
theorem mono (hp : p.Plays C me post r) (hpost : ∀ a r, post a r → post' a r) :
    p.Plays C me post' r := by
  induction p generalizing r with
  | done a => exact hpost a r hp
  | call c next ih =>
    intro roles past h outages hr hinv
    obtain ⟨rule, r', after, rest⟩ := hp roles past h outages hr hinv
    exact ⟨rule, r', after, ih _ rest⟩

/-- A program plays its part if its beginning does, and then what follows. -/
theorem bind {k : α → Program β} {post : β → ρ → Prop}
    (hp : p.Plays C me (fun a r => (k a).Plays C me post r) r) : (p.bind k).Plays C me post r := by
  induction p generalizing r with
  | done a => exact hp
  | call c next ih =>
    intro roles past h outages hr hinv
    obtain ⟨rule, r', after, rest⟩ := hp roles past h outages hr hinv
    exact ⟨rule, r', after, ih _ rest⟩

/-- A call that leaves the role as it is. -/
theorem neutral {c : Call} {next : c.Answer → Program α} (hc : C.Neutral c)
    (hnext : ∀ answer, (next answer).Plays C me post r) :
    (Program.call c next).Plays C me post r := by
  intro roles past h outages hr hinv
  obtain ⟨rule, after⟩ := hc roles past h outages hinv
  refine ⟨rule, r, ?_, hnext _⟩
  rwa [← hr, Function.update_eq_self]

/-- A program of neutral calls ends in the role in which it began. -/
theorem of_only (hp : p.Only C.Neutral) (hpost : ∀ a, post a r) : p.Plays C me post r := by
  induction p with
  | done a => exact hpost a
  | call c next ih =>
    intro roles past h outages hr hinv
    obtain ⟨rule, after⟩ := hp.1 roles past h outages hinv
    refine ⟨rule, r, ?_, ih _ (hp.2 outages h)⟩
    rwa [← hr, Function.update_eq_self]

end Plays

/-- A party that performs acts of a kind one after another; which of them come next may depend on
what came of those before. -/
inductive Performs (s : Settings) (kind : Act → Prop) : Program Unit → Prop
  | rest : Performs s kind (.done ())
  | act {a : Act} {α : Type} {p : Program α} {k : α → Program Unit} (ha : kind a)
      (hp : a.PerformedBy s p) (next : ∀ result, Performs s kind (k result)) :
      Performs s kind (p.bind k)

/-- A party that comes back to its role after every act has it in the end. -/
theorem Performs.plays {s : Settings} {kind : Act → Prop} {q : Program Unit} {r : ρ}
    (hq : q.Performs s kind)
    (acts : ∀ (a : Act) {α : Type} (p : Program α), kind a → a.PerformedBy s p →
      p.Plays C me (fun _ r' => r' = r) r) : q.Plays C me (fun _ r' => r' = r) r := by
  induction hq with
  | rest => exact rfl
  | act ha hp _ ih =>
    refine Plays.bind ((acts _ _ ha hp).mono fun result r' hr => ?_)
    rw [hr]
    exact ih result

/-! ## One party that handles items side by side -/

/-- Where a party handles items side by side of which all but one make neutral calls only, it
plays the part of that one. -/
theorem Weave.plays {limit k : Nat} {ps : List (Program α)} {w : Program (List α)} {p : Program α}
    {post : ρ → Prop} {r : ρ} (hw : Weave limit ps w) (hk : ps[k]? = some p)
    (others : ∀ (j : Nat) q, j ≠ k → ps[j]? = some q → q.Only C.Neutral)
    (hp : p.Plays C me (fun _ => post) r) : w.Plays C me (fun _ => post) r := by
  induction hw generalizing p r with
  | done results =>
    rw [List.getElem?_map] at hk
    obtain ⟨a, -, rfl⟩ := Option.map_eq_some_iff.1 hk
    exact hp
  | @turn ps j c next rest here _ _ ih =>
    intro roles past h outages hr hinv
    have inside : j < ps.length := (List.getElem?_eq_some_iff.1 here).1
    by_cases hjk : j = k
    · subst hjk
      obtain rfl : p = .call c next := Option.some.inj (hk.symm.trans here)
      obtain ⟨rule, r', after, goes⟩ := hp roles past h outages hr hinv
      refine ⟨rule, r', after, ih _ (List.getElem?_set_self inside) (fun i q hi hq => ?_) goes⟩
      exact others i q hi (by rwa [List.getElem?_set_ne (Ne.symm hi)] at hq)
    · have neutral := others j _ hjk here
      obtain ⟨rule, after⟩ := neutral.1 roles past h outages hinv
      refine ⟨rule, r, by rwa [← hr, Function.update_eq_self], ih _ ?_ (fun i q hi hq => ?_) hp⟩
      · rwa [List.getElem?_set_ne hjk]
      · by_cases hij : i = j
        · subst hij
          rw [List.getElem?_set_self inside] at hq
          exact Option.some.inj hq ▸ neutral.2 outages h
        · exact others i q hi (by rwa [List.getElem?_set_ne (Ne.symm hij)] at hq)

/-- Items have keys that differ, and those of other keys make neutral calls only. -/
theorem Weave.plays_of_key {κ : Type} [DecidableEq κ] (key : β → κ) (mine : κ) {limit : Nat}
    {items : List β} {body : β → Program α} {w : Program (List α)} {post : ρ → Prop} {r : ρ}
    (hw : Weave limit (items.map body) w) (apart : (items.map key).Nodup)
    (others : ∀ b ∈ items, key b ≠ mine → (body b).Only C.Neutral)
    (own : ∀ b ∈ items, key b = mine → (body b).Plays C me (fun _ => post) r)
    (stay : (∀ b ∈ items, key b ≠ mine) → post r) : w.Plays C me (fun _ => post) r := by
  rcases exists_or_only_of_key key mine apart others with ⟨k, b, hk, hkey, rest⟩ | ⟨absent, all⟩
  · refine hw.plays (p := body b) (k := k) ?_ rest (own b (List.mem_of_getElem? hk) hkey)
    rw [List.getElem?_map, hk]
    rfl
  · exact .of_only (hw.only all) fun _ => stay absent

/-! ## All parties together -/

/-- **Every party plays its part.** If the program of each party plays from its role, then along
every run of all of them, in whatever way they take turns, each call keeps the rule and the
invariant holds in some roles. -/
theorem Weave.played {limit : Nat} {ps : List (Program α)} {w : Program (List α)}
    {roles : Nat → ρ} {past ts : List Turn} {h h' : Hub} {results : List α}
    (hw : Weave limit ps w)
    (hp : ∀ (k : Nat) p, ps[k]? = some p → p.Plays C k (fun _ _ => True) (roles k))
    (run : w.Runs h ts results h') (hinv : C.inv roles past h) :
    (∃ roles', C.inv roles' (past ++ ts) h') ∧
      ∀ us t vs, ts = us ++ t :: vs →
        C.rule (past ++ us) t.before t.call ∧ ∃ roles', C.inv roles' (past ++ us) t.before := by
  induction hw generalizing roles past ts h with
  | done results =>
    obtain ⟨rfl, -, out⟩ := run.of_done
    rw [List.append_nil]
    exact ⟨⟨roles, Cast.inv_of_outside out hinv⟩, fun us t vs hsplit => by simp at hsplit⟩
  | @turn ps k c next rest here _ _ ih =>
    obtain ⟨h₁, outages, ts, out, rfl, more⟩ := run.of_call
    have found := Cast.inv_of_outside out hinv
    obtain ⟨rule, r', after, goes⟩ := hp k _ here roles past h₁ outages rfl found
    have inside : k < ps.length := (List.getElem?_eq_some_iff.1 here).1
    have goOn : ∀ (j : Nat) q, (ps.set k (next (c.perform outages h₁).1))[j]? = some q →
        q.Plays C j (fun _ _ => True) (Function.update roles k r' j) := by
      intro j q hq
      by_cases hjk : j = k
      · subst hjk
        rw [List.getElem?_set_self inside] at hq
        rw [Function.update_self]
        exact Option.some.inj hq ▸ goes
      · rw [List.getElem?_set_ne (Ne.symm hjk)] at hq
        rw [Function.update_of_ne hjk]
        exact hp j q hq
    obtain ⟨last, turns⟩ := ih _ goOn more after
    rw [List.append_assoc] at last
    refine ⟨last, fun us t vs hsplit => ?_⟩
    rcases List.cons_eq_append_iff.1 hsplit with ⟨rfl, heq⟩ | ⟨us, rfl, heq⟩
    · obtain ⟨rfl, -⟩ := List.cons.inj heq
      rw [List.append_nil]
      exact ⟨rule, roles, found⟩
    · have later := turns us t vs heq
      rwa [List.append_assoc] at later

end Program
end NotificationRelay
