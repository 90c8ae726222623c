/-
# What a program goes on to do

A program can be certain to make a call of some sort before it ends, as long as the hub stays as
it needs it (`Program.Certain`); and it can promise that whenever it makes a call of one sort it
is certain, from there on, to make one of another (`Program.Promises`).

Either is read off the program: the first part of a program may be certain, or what comes after it
(`Program.Certain.bind`, `Program.Certain.after`), and programs that take turns do not keep one
another from what they are certain of (`Program.Certain.weave`). So what each of them promises
they promise together (`Program.Promises.weave`), at every stage they get to
(`Program.Promises.goes`). A program that ends has kept its promises (`Program.Promises.kept`).
-/
import NotificationRelay.Proofs.Run.Interleaving

namespace NotificationRelay
namespace Program

/-- As long as the hub is such, the program comes to a call of some sort before it ends. -/
inductive Certain (inv : Hub → Prop) (goal : Call → Prop) {α : Type} : Program α → Prop
  | now {c : Call} {next : c.Answer → Program α} (hc : goal c) : Certain inv goal (.call c next)
  | later {c : Call} {next : c.Answer → Program α}
      (rest : ∀ outages h, inv h → Certain inv goal (next (c.perform outages h).1)) :
      Certain inv goal (.call c next)

/-- Whenever the program makes a call of one sort, on a hub of which something is known, it is
certain to make one of another sort. -/
def Promises (known inv : Hub → Prop) (trigger goal : Call → Prop) {α : Type} :
    Program α → Prop
  | .done _ => True
  | .call c next => ∀ outages h, known h →
    (trigger c → (next (c.perform outages h).1).Certain inv goal) ∧
      (next (c.perform outages h).1).Promises known inv trigger goal

variable {α β : Type} {known inv : Hub → Prop} {trigger goal : Call → Prop} {us : List Turn}

namespace Certain

/-- What is certain at the beginning of a program is certain. -/
theorem bind {p : Program α} (hp : p.Certain inv goal) (k : α → Program β) :
    (p.bind k).Certain inv goal := by
  induction hp with
  | now hc => exact .now hc
  | later _ ih => exact .later ih

/-- Whatever a program does first, what comes after it is to come. -/
theorem after (p : Program α) {k : α → Program β} (hk : ∀ a, (k a).Certain inv goal) :
    (p.bind k).Certain inv goal := by
  induction p with
  | done a => exact hk a
  | call c next ih => exact .later fun _ _ _ => ih _

/-- What is certain for one of the items is certain for all of them together. -/
theorem forEach {items : List β} {body : β → Program α} {b : β} (hb : b ∈ items)
    (certain : (body b).Certain inv goal) : (forEach items body).Certain inv goal := by
  induction items with
  | nil => cases hb
  | cons x rest ih =>
    rcases List.mem_cons.1 hb with rfl | hb
    · exact certain.bind _
    · exact .after _ fun _ => (ih hb).bind _

/-- Programs that take turns come to what one of them is certain of. -/
theorem weave {limit : Nat} {ps : List (Program α)} {w : Program (List α)}
    (hw : Weave limit ps w) {p : Program α} (hp : p ∈ ps) (certain : p.Certain inv goal) :
    w.Certain inv goal := by
  induction hw generalizing p with
  | done results =>
    obtain ⟨a, -, rfl⟩ := List.mem_map.1 hp
    cases certain
  | @turn ps k c next rest here _ _ ih =>
    have inside : k < ps.length := (List.getElem?_eq_some_iff.1 here).1
    obtain ⟨j, hj⟩ := List.mem_iff_getElem?.1 hp
    by_cases hjk : j = k
    · subst hjk
      obtain rfl : p = .call c next := Option.some.inj (hj.symm.trans here)
      cases certain with
      | now hc => exact .now hc
      | later certain =>
        refine .later fun outages h hh => ih _ ?_ (certain outages h hh)
        exact List.mem_of_getElem? (List.getElem?_set_self inside)
    · refine .later fun outages h hh => ih _ (p := p) ?_ certain
      exact List.mem_of_getElem? (i := j) (by rwa [List.getElem?_set_ne (Ne.symm hjk)])

/-- A program that ends has come to what it was certain of. -/
theorem of_goes {p : Program α} (hp : p.Certain inv goal) {a : α} (g : p.Goes us (.done a))
    (hus : ∀ u ∈ us, inv u.before) : ∃ u ∈ us, goal u.call := by
  induction hp generalizing us with
  | now hc =>
    rcases Goes.of_call g with ⟨-, ended⟩ | ⟨outages, h, us, rfl, -⟩
    · cases ended
    · exact ⟨_, List.mem_cons_self, hc⟩
  | later _ ih =>
    rcases Goes.of_call g with ⟨-, ended⟩ | ⟨outages, h, us, rfl, rest⟩
    · cases ended
    · obtain ⟨first, hus⟩ := List.forall_mem_cons.1 hus
      obtain ⟨u, hu, hc⟩ := ih outages h first rest hus
      exact ⟨u, List.mem_cons_of_mem _ hu, hc⟩

end Certain

namespace Promises

/-- A program that never makes such a call promises anything. -/
theorem of_only {p : Program α} (hp : p.Only fun c => ¬ trigger c) :
    p.Promises known inv trigger goal := by
  induction p with
  | done => trivial
  | call c next ih =>
    exact fun outages h _ => ⟨fun hc => absurd hc hp.1, ih _ (hp.2 outages h)⟩

/-- A program keeps a promise if its beginning does, and all that may follow. -/
theorem bind {p : Program α} {k : α → Program β} (hp : p.Promises known inv trigger goal)
    (hk : ∀ a, (k a).Promises known inv trigger goal) :
    (p.bind k).Promises known inv trigger goal := by
  induction p with
  | done a => exact hk a
  | call c next ih =>
    intro outages h hh
    obtain ⟨certain, rest⟩ := hp outages h hh
    exact ⟨fun hc => (certain hc).bind k, ih _ rest⟩

/-- Programs that take turns promise what each of them promises. -/
theorem weave {limit : Nat} {ps : List (Program α)} {w : Program (List α)}
    (hw : Weave limit ps w) (hps : ∀ p ∈ ps, p.Promises known inv trigger goal) :
    w.Promises known inv trigger goal := by
  induction hw with
  | done => trivial
  | @turn ps k c next rest here _ weave ih =>
    intro outages h hh
    have inside : k < ps.length := (List.getElem?_eq_some_iff.1 here).1
    obtain ⟨certain, promises⟩ := hps _ (List.mem_of_getElem? here) outages h hh
    refine ⟨fun hc => (certain hc).weave (weave _) ?_, ih _ fun p hp => ?_⟩
    · exact List.mem_of_getElem? (List.getElem?_set_self inside)
    · rcases List.mem_or_eq_of_mem_set hp with hp | rfl
      · exact hps p hp
      · exact promises

/-- A program promises at every stage what it promised at the start. -/
theorem goes {p q : Program α} (hp : p.Promises known inv trigger goal) (g : p.Goes us q)
    (hus : ∀ u ∈ us, known u.before) : q.Promises known inv trigger goal := by
  induction g with
  | stop => exact hp
  | turn outages h _ ih =>
    obtain ⟨first, hus⟩ := List.forall_mem_cons.1 hus
    exact ih (hp outages h first).2 hus

/-- **A program that ends has kept its promises.** -/
theorem kept {p : Program α} (hp : p.Promises known inv trigger goal) {a : α}
    (g : p.Goes us (.done a)) (hus : ∀ u ∈ us, known u.before ∧ inv u.before) {u : Turn}
    (hu : u ∈ us) (hc : trigger u.call) : ∃ v ∈ us, goal v.call := by
  generalize hq : Program.done a = q at g
  induction g with
  | stop => cases hu
  | turn outages h rest ih =>
    subst hq
    obtain ⟨first, hus⟩ := List.forall_mem_cons.1 hus
    obtain ⟨certain, promises⟩ := hp outages h first.1
    rcases List.mem_cons.1 hu with rfl | hu
    · obtain ⟨v, hv, goal⟩ := (certain hc).of_goes rest fun w hw => (hus w hw).2
      exact ⟨v, List.mem_cons_of_mem _ hv, goal⟩
    · obtain ⟨v, hv, goal⟩ := ih promises hus hu rfl
      exact ⟨v, List.mem_cons_of_mem _ hv, goal⟩

end Promises

end Program
end NotificationRelay
