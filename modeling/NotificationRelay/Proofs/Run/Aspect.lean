/-
# What one program does to its own part of the hub

Programs that work side by side get in each other's way only where they touch the same
part of the hub. An `Aspect` is a part of the hub that nothing but calls can change,
together with a kind of call that is counted. `Program.Leads` says where a program leads
an aspect, whatever becomes of the rest of the hub between its calls, so it holds beside
any programs that leave the aspect alone: `Program.Weave.leads`. Such a statement is
proved by going through the program once, and `Program.Leads.of_runs` carries it over
to every run.
-/
import NotificationRelay.Proofs.Run.Weave

namespace NotificationRelay

/-- A part of the hub out of reach from outside, and a kind of call to be counted. -/
structure Aspect (σ : Type) where
  view : Hub → σ
  counts : Call → Bool
  outside : ∀ {h h' : Hub}, h.Outside h' → view h' = view h

namespace Aspect

variable {σ : Type} (A : Aspect σ)

/-- A call that leaves an aspect alone. -/
def Spares (c : Call) : Prop :=
  A.counts c = false ∧ ∀ outages h, A.view (c.perform outages h).2 = A.view h

/-- The number of counted calls among turns. -/
def count (ts : List Turn) : Nat := ts.countP fun t => A.counts t.call

@[simp] theorem count_nil : A.count [] = 0 := rfl

theorem count_cons (t : Turn) (ts : List Turn) :
    A.count (t :: ts) = (A.counts t.call).toNat + A.count ts := by
  unfold count
  rw [List.countP_cons, Nat.add_comm]
  cases A.counts t.call <;> rfl

theorem count_append (ts us : List Turn) : A.count (ts ++ us) = A.count ts + A.count us :=
  List.countP_append

end Aspect

namespace Program

variable {σ α β : Type} {A : Aspect σ} {ok : Turn → Prop}

/-- Every run of a program whose turns are `ok`, from a view and a count of an aspect,
ends as `post` says, if nothing else changes the aspect meanwhile. -/
def Leads (A : Aspect σ) (ok : Turn → Prop) {α : Type} :
    Program α → (post : α → σ → Nat → Prop) → σ → Nat → Prop
  | .done a, post, v, n => post a v n
  | .call c next, post, v, n => ∀ outages h, A.view h = v → ok (c.turn outages h) →
      Leads A ok (next (c.perform outages h).1) post (A.view (c.perform outages h).2)
        (n + (A.counts c).toNat)

namespace Leads

variable {p : Program α} {post post' : α → σ → Nat → Prop} {v : σ} {n : Nat}

/-- What a program leads to, it leads to in any weaker form. -/
theorem mono (hp : p.Leads A ok post v n) (hpost : ∀ a v n, post a v n → post' a v n) :
    p.Leads A ok post' v n := by
  induction p generalizing v n with
  | done a => exact hpost a v n hp
  | call c next ih => exact fun outages h hv hok => ih _ (hp outages h hv hok)

/-- What a program leads to is what its beginning leads to, and then what follows. -/
theorem bind {k : α → Program β} {post : β → σ → Nat → Prop}
    (hp : p.Leads A ok (fun a v n => (k a).Leads A ok post v n) v n) :
    (p.bind k).Leads A ok post v n := by
  induction p generalizing v n with
  | done a => exact hp
  | call c next ih => exact fun outages h hv hok => ih _ (hp outages h hv hok)

/-- A program of calls that leave an aspect alone leads it nowhere. -/
theorem of_only (hp : p.Only A.Spares) (hpost : ∀ a, post a v n) : p.Leads A ok post v n := by
  induction p with
  | done a => exact hpost a
  | call c next ih =>
    intro outages h hv _
    rw [hp.1.2 outages h, hv, hp.1.1]
    exact ih _ (hp.2 outages h)

/-- A program of calls that are not counted leads to no other count. -/
theorem of_uncounted (hp : p.Only fun c => A.counts c = false) (hpost : ∀ a v, post a v n) :
    p.Leads A ok post v n := by
  induction p generalizing v with
  | done a => exact hpost a v
  | call c next ih =>
    intro outages h _ _
    rw [hp.1]
    exact ih _ (hp.2 outages h)

/-- What uncounted calls keep of an aspect a program of them keeps. -/
theorem of_kept (inv : σ → Prop) (hp : p.Only fun c => A.counts c = false ∧
      ∀ outages h, inv (A.view h) → inv (A.view (c.perform outages h).2))
    (hv : inv v) (hpost : ∀ a w, inv w → post a w n) : p.Leads A ok post v n := by
  induction p generalizing v with
  | done a => exact hpost a v hv
  | call c next ih =>
    intro outages h there _
    rw [hp.1.1]
    exact ih _ (hp.2 outages h) (hp.1.2 outages h (there ▸ hv))

/-- Where a program leads an aspect, its runs lead it. -/
theorem of_runs {h h' : Hub} {ts : List Turn} {a : α} (r : p.Runs h ts a h')
    (hp : p.Leads A ok post (A.view h) n) (hok : ∀ t ∈ ts, ok t) :
    post a (A.view h') (n + A.count ts) := by
  induction r generalizing n with
  | done => exact hp
  | call outages _ ih =>
    have first := hp outages _ rfl (hok _ List.mem_cons_self)
    rw [Aspect.count_cons, ← Nat.add_assoc]
    exact ih first fun t ht => hok t (List.mem_cons_of_mem _ ht)
  | outside o _ ih => exact ih (by rwa [A.outside o]) hok

end Leads

/-- **A program keeps its effect beside others.** Where one program leads an aspect that
all the others leave alone, any way of working side by side leads it too. -/
theorem Weave.leads {limit k : Nat} {ps : List (Program α)} {w : Program (List α)}
    {p : Program α} {post : α → σ → Nat → Prop} {v : σ} {n : Nat} (hw : Weave limit ps w)
    (hk : ps[k]? = some p)
    (others : ∀ (j : Nat) q, j ≠ k → ps[j]? = some q → q.Only A.Spares)
    (hp : p.Leads A ok post v n) :
    w.Leads A ok (fun as v n => ∃ a, as[k]? = some a ∧ post a v n) v n := by
  induction hw generalizing p v n with
  | done results =>
    rw [List.getElem?_map] at hk
    obtain ⟨a, ha, rfl⟩ := Option.map_eq_some_iff.1 hk
    exact ⟨a, ha, hp⟩
  | @turn ps j c next rest here _ _ ih =>
    intro outages h hv hok
    have inside : j < ps.length := (List.getElem?_eq_some_iff.1 here).1
    by_cases hjk : j = k
    · subst hjk
      obtain rfl : p = .call c next := Option.some.inj (hk.symm.trans here)
      refine ih _ (List.getElem?_set_self inside) (fun i q hi hq => ?_) (hp outages h hv hok)
      exact others i q hi (by rwa [List.getElem?_set_ne (Ne.symm hi)] at hq)
    · have spared := others j _ hjk here
      rw [spared.1.2 outages h, hv, spared.1.1]
      refine ih _ (by rwa [List.getElem?_set_ne hjk]) (fun i q hi hq => ?_) hp
      by_cases hij : i = j
      · subst hij
        rw [List.getElem?_set_self inside] at hq
        exact Option.some.inj hq ▸ spared.2 outages h
      · exact others i q hi (by rwa [List.getElem?_set_ne (Ne.symm hij)] at hq)

/-- Where items have keys that differ, the programs of all but one of them are of a sort if those of
other keys are. -/
theorem only_of_ne_key {κ : Type} (key : β → κ) {items : List β} {body : β → Program α}
    {sort : Call → Prop} {k : Nat} {b : β} (apart : (items.map key).Nodup)
    (hk : items[k]? = some b) (others : ∀ c ∈ items, key c ≠ key b → (body c).Only sort) :
    ∀ (j : Nat) q, j ≠ k → (items.map body)[j]? = some q → q.Only sort := by
  intro j q hj hq
  rw [List.getElem?_map] at hq
  obtain ⟨c, hc, rfl⟩ := Option.map_eq_some_iff.1 hq
  have inside : j < (items.map key).length := by
    rw [List.length_map]
    exact (List.getElem?_eq_some_iff.1 hc).1
  refine others c (List.mem_of_getElem? hc) fun same => hj ?_
  exact (List.getElem?_inj inside apart).1 (by simp [hc, hk, same])

/-- Of items with keys that differ at most one has a given key; the programs of the others are
of a sort. -/
theorem exists_or_only_of_key {κ : Type} [DecidableEq κ] (key : β → κ) (mine : κ)
    {items : List β} {body : β → Program α} {sort : Call → Prop} (apart : (items.map key).Nodup)
    (others : ∀ b ∈ items, key b ≠ mine → (body b).Only sort) :
    (∃ k b, items[k]? = some b ∧ key b = mine ∧
      ∀ (j : Nat) q, j ≠ k → (items.map body)[j]? = some q → q.Only sort) ∨
    (∀ b ∈ items, key b ≠ mine) ∧ ∀ p ∈ items.map body, p.Only sort := by
  by_cases hmine : mine ∈ items.map key
  · obtain ⟨b, hb, rfl⟩ := List.mem_map.1 hmine
    obtain ⟨k, hk⟩ := List.mem_iff_getElem?.1 hb
    exact .inl ⟨k, b, hk, rfl, only_of_ne_key key apart hk others⟩
  · have absent : ∀ b ∈ items, key b ≠ mine := fun b hb hkey =>
      hmine (List.mem_map.2 ⟨b, hb, hkey⟩)
    refine .inr ⟨absent, fun p hp => ?_⟩
    obtain ⟨b, hb, rfl⟩ := List.mem_map.1 hp
    exact others b hb (absent b hb)

/-- **Only one of them matters.** Programs work side by side, one for each of some items
whose keys differ. If those of other keys leave an aspect alone, it is led where the
program of its own key leads it, or nowhere if there is none. -/
theorem Weave.leads_of_key {κ : Type} [DecidableEq κ] (key : β → κ) (mine : κ) {limit : Nat}
    {items : List β} {body : β → Program α} {w : Program (List α)} {post : σ → Nat → Prop} {v : σ}
    {n : Nat} (hw : Weave limit (items.map body) w)
    (apart : (items.map key).Nodup) (others : ∀ b ∈ items, key b ≠ mine → (body b).Only A.Spares)
    (own : ∀ b ∈ items, key b = mine → (body b).Leads A ok (fun _ => post) v n)
    (stay : (∀ b ∈ items, key b ≠ mine) → post v n) : w.Leads A ok (fun _ => post) v n := by
  rcases exists_or_only_of_key key mine apart others with ⟨k, b, hk, hkey, rest⟩ | ⟨absent, all⟩
  · refine (hw.leads (k := k) (p := body b) ?_ rest (own b (List.mem_of_getElem? hk) hkey)).mono ?_
    · rw [List.getElem?_map, hk]
      rfl
    · rintro _ v n ⟨_, _, hpost⟩
      exact hpost
  · exact .of_only (hw.only all) fun _ => stay absent

end Program
end NotificationRelay
