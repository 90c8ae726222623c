/-
# Fetching history in windows and pages

A node that has been away fetches what it missed in windows of time, and each window page by page
until a page is empty (`Query.Walk`). What a walk yields from any page on is the rest of the feeds
of the window (`Query.walk_rest`), so every walk ends and its first page already says how much there
is. Windows that follow upon one another divide the feeds of the whole time among them
(`Query.windows_perm`). Together: nothing is lost or fetched twice, wherever the bounds of the
windows lie and whatever the size of a page is cut to (`Query.backfill_complete`).
-/
import NotificationRelay.Proofs.Query.Slicing
import NotificationRelay.Proofs.Session.Offering

namespace NotificationRelay

namespace Query

/-- What the walk of a window has brought: the feeds in the order in which they came, and the total
that each of its pages gave. -/
structure Yield where
  feeds : List Feed.Export
  totals : List Nat

/-- The windows into which bounds divide the time from a moment on: each ends with its bound, and
the next begins right after it. -/
def windows (start : Int) : List Int → List (Int × Int)
  | [] => []
  | stop :: stops => (start, stop) :: windows (stop + 1) stops

section

variable (bound size : Nat) (h : Hub)

/-- The pages of a window are asked for from one on, always with the same size, up to the first
that is empty. -/
inductive Walk (start stop : Int) : Nat → Yield → Prop
  | finish {page total : Nat} :
      (history bound start stop (.make page size)).run .none h = (.ok ⟨[], total⟩, h) →
      Walk start stop page ⟨[], [total]⟩
  | more {page : Nat} {answer : ExportPage} {rest : Yield} :
      (history bound start stop (.make page size)).run .none h = (.ok answer, h) →
      answer.feeds ≠ [] → Walk start stop (page + 1) rest →
      Walk start stop page ⟨answer.feeds ++ rest.feeds, answer.total :: rest.totals⟩

/-- The windows are walked one after another, each from its first page on. -/
def Walks (ws : List (Int × Int)) (yields : List Yield) : Prop :=
  List.Forall₂ (fun w y => Walk bound size h w.1 w.2 1 y) ws yields

/-- The walks of windows have brought every feed between two moments that is not spam, each once,
those of a window by ascending identifiers and as many as each of its pages said. -/
structure Complete (first last : Int) (yields : List Yield) : Prop where
  all : ∀ e, e ∈ yields.flatMap (·.feeds) ↔
    ∃ f ∈ h.store.feeds, f.isSpam = false ∧ first ≤ f.epoch ∧ f.epoch ≤ last ∧ f.exported = e
  once : ((yields.flatMap (·.feeds)).map (·.id)).Nodup
  ascending : ∀ y ∈ yields, y.feeds.Pairwise fun d e => d.id < e.id
  counted : ∀ y ∈ yields, ∀ total ∈ y.totals, total = y.feeds.length

end

variable {bound size page : Nat} {h : Hub} {start stop : Int} {y y' : Yield}

/-! ## One window -/

/-- The feeds of a window, in the order in which they are stored. -/
def within (h : Hub) (start stop : Int) : List Feed :=
  h.store.feeds.filter (Store.isExported start stop)

/-- A page of an export holds the feeds of its window at its positions. -/
theorem run_page (bound size : Nat) (ordered : start ≤ stop)
    (few : h.store.feeds.length ≤ Text.maxWord) (n : Nat) :
    (history bound start stop (.make (n + 1) size)).run .none h =
      (.ok ⟨(((within h start stop).drop (n * pageSize bound size)).take
        (pageSize bound size)).map Feed.exported, (within h start stop).length⟩, h) := by
  have fewer : (within h start stop).length ≤ Text.maxWord := (List.length_filter_le _ _).trans few
  have page : (Paging.make (n + 1) size).clamp bound = ⟨n + 1, pageSize bound size⟩ := by
    simp [Paging.make, Paging.clamp, pageSize]
  rw [run_history ordered, page]
  show (Except.ok (exported (Store.page _ (within h start stop))), h) = _
  unfold exported Store.page
  rw [Paging.slice_eq _ fewer]
  rfl

/-- **From any page on, a walk yields the rest of the window**, and every page gives the number of
all feeds of the window as the total. -/
theorem walk_rest (bound size : Nat) (ordered : start ≤ stop)
    (few : h.store.feeds.length ≤ Text.maxWord) (n : Nat) :
    ∃ totals, Walk bound size h start stop (n + 1)
        ⟨((within h start stop).drop (n * pageSize bound size)).map Feed.exported, totals⟩ ∧
      ∀ total ∈ totals, total = (within h start stop).length := by
  -- Every page that is not empty leaves less of the window.
  induction left : ((within h start stop).drop (n * pageSize bound size)).length
    using Nat.strongRecOn generalizing n with
  | ind k ih =>
    have asked := run_page bound size ordered few n
    set rest := (within h start stop).drop (n * pageSize bound size) with hrest
    have next : (within h start stop).drop ((n + 1) * pageSize bound size) =
        rest.drop (pageSize bound size) := by
      rw [hrest, List.drop_drop, Nat.succ_mul]
    by_cases finished : rest = []
    · rw [finished, List.take_nil] at asked
      exact ⟨[_], by rw [finished]; exact .finish asked, fun total ht => List.mem_singleton.1 ht⟩
    · have positive : 0 < pageSize bound size := pageSize_pos
      have some : 0 < rest.length := List.length_pos_iff.2 finished
      have less : ((within h start stop).drop ((n + 1) * pageSize bound size)).length < k := by
        rw [next, List.length_drop]
        omega
      obtain ⟨totals, walk, same⟩ := ih _ less (n + 1) rfl
      have nonempty : (rest.take (pageSize bound size)).map Feed.exported ≠ [] := by
        rw [Ne, List.map_eq_nil_iff, List.take_eq_nil_iff]
        exact not_or.2 ⟨positive.ne', finished⟩
      refine ⟨(within h start stop).length :: totals, ?_, List.forall_mem_cons.2 ⟨rfl, same⟩⟩
      have step := Walk.more asked nonempty walk
      rwa [next, ← List.map_append, List.take_append_drop] at step

/-- A window can be walked in one way only. -/
theorem Walk.unique (walk : Walk bound size h start stop page y)
    (walk' : Walk bound size h start stop page y') : y = y' := by
  induction walk generalizing y' with
  | finish asked =>
    cases walk' with
    | finish asked' =>
      rw [asked] at asked'
      cases asked'
      rfl
    | more asked' nonempty =>
      rw [asked] at asked'
      cases asked'
      exact absurd rfl nonempty
  | more asked nonempty _ ih =>
    cases walk' with
    | finish asked' =>
      rw [asked] at asked'
      cases asked'
      exact absurd rfl nonempty
    | more asked' _ walk' =>
      rw [asked] at asked'
      cases asked'
      rw [ih walk']

/-- **A window is walked to its end, and yields its feeds.** -/
theorem walk_window (bound size : Nat) (ordered : start ≤ stop)
    (few : h.store.feeds.length ≤ Text.maxWord) :
    ∃ y, Walk bound size h start stop 1 y ∧ y.feeds = (within h start stop).map Feed.exported ∧
      ∀ total ∈ y.totals, total = y.feeds.length := by
  obtain ⟨totals, walk, same⟩ := walk_rest bound size ordered few 0
  rw [Nat.zero_mul, List.drop_zero] at walk
  exact ⟨_, walk, rfl, fun total ht => by rw [same total ht, List.length_map]⟩

/-! ## Windows that follow upon one another -/

/-- The windows of an export end after they begin. -/
theorem ordered_of_mem_windows {stops : List Int} (later : ∀ stop ∈ stops, start ≤ stop)
    (increasing : stops.Pairwise (· < ·)) : ∀ w ∈ windows start stops, w.1 ≤ w.2 := by
  induction stops generalizing start with
  | nil => exact fun w hw => absurd hw List.not_mem_nil
  | cons stop stops ih =>
    obtain ⟨above, increasing⟩ := List.pairwise_cons.1 increasing
    refine List.forall_mem_cons.2 ⟨later stop List.mem_cons_self, ih (fun t ht => ?_) increasing⟩
    exact above t ht

/-- The feeds up to a moment and those after it make up all of them. -/
theorem within_perm {split : Int} (after : start ≤ split + 1) (before : split ≤ stop) :
    (within h start split ++ within h (split + 1) stop).Perm (within h start stop) := by
  refine Store.filter_perm (fun f => ?_) (fun f => ?_) h.store.feeds
  · grind [Store.isExported]
  · grind [Store.isExported]

/-- **Windows divide the feeds of the whole time among them.** -/
theorem windows_perm {stops : List Int} (later : ∀ stop ∈ stops, start ≤ stop)
    (increasing : stops.Pairwise (· < ·)) (some : stops ≠ []) :
    ((windows start stops).flatMap fun w => within h w.1 w.2).Perm
      (within h start (stops.getLast some)) := by
  induction stops generalizing start with
  | nil => exact absurd rfl some
  | cons stop stops ih =>
    obtain ⟨above, increasing⟩ := List.pairwise_cons.1 increasing
    rw [windows, List.flatMap_cons]
    cases stops with
    | nil => simp [windows]
    | cons t ts =>
      have more : t :: ts ≠ [] := List.cons_ne_nil t ts
      rw [List.getLast_cons more]
      refine ((ih above increasing more).append_left _).trans (within_perm ?_ ?_)
      · have := later stop List.mem_cons_self
        omega
      · exact Int.le_of_lt (above _ (List.getLast_mem more))

/-! ## All windows -/

variable {ws : List (Int × Int)} {yields : List Yield}

/-- Every window can be walked through. -/
theorem exists_walks (ordered : ∀ w ∈ ws, w.1 ≤ w.2)
    (few : h.store.feeds.length ≤ Text.maxWord) : ∃ yields, Walks bound size h ws yields := by
  induction ws with
  | nil => exact ⟨[], .nil⟩
  | cons w ws ih =>
    rw [List.forall_mem_cons] at ordered
    obtain ⟨y, walk, -⟩ := walk_window bound size ordered.1 few
    obtain ⟨yields, walks⟩ := ih ordered.2
    exact ⟨y :: yields, .cons walk walks⟩

/-- The walks of windows yield the feeds of each, and know how many these are. -/
theorem Walks.eq_map (walks : Walks bound size h ws yields) (ordered : ∀ w ∈ ws, w.1 ≤ w.2)
    (few : h.store.feeds.length ≤ Text.maxWord) :
    yields.map (·.feeds) = ws.map (fun w => (within h w.1 w.2).map Feed.exported) ∧
      ∀ y ∈ yields, ∀ total ∈ y.totals, total = y.feeds.length := by
  induction walks with
  | nil => exact ⟨rfl, fun y hy => absurd hy List.not_mem_nil⟩
  | cons walk _ ih =>
    rw [List.forall_mem_cons] at ordered
    obtain ⟨feeds, counted⟩ := ih ordered.2
    obtain ⟨y, walked, yielded, same⟩ := walk_window bound size ordered.1 few
    obtain rfl := walk.unique walked
    rw [List.map_cons, List.map_cons, yielded, feeds, List.forall_mem_cons]
    exact ⟨rfl, same, counted⟩

/-- **Backfill is complete.** Whatever increasing bounds divide a time into windows, whatever size
of a page is asked for and to whatever it is cut, walking the windows one after another, each page
by page up to an empty one, comes to an end and brings every feed of that time that is not spam,
each exactly once and nothing else: within a window by ascending identifiers, and as many as each
page of the window gave as the total. The feeds of a store stand by ascending identifiers
(`Store.Coherent.ascending`), and their number is to be one that 64 bits can hold, as totals and
offsets are. -/
theorem backfill_complete {t₀ t₁ : Int} {ts : List Int}
    (ascending : h.store.ids.Pairwise (· < ·)) (few : h.store.feeds.length ≤ Text.maxWord)
    (increasing : (t₀ :: t₁ :: ts).Pairwise (· < ·)) (bound size : Nat) :
    (∃ yields, Walks bound size h (windows t₀ (t₁ :: ts)) yields) ∧
      ∀ yields, Walks bound size h (windows t₀ (t₁ :: ts)) yields →
        Complete h t₀ ((t₁ :: ts).getLast (List.cons_ne_nil t₁ ts)) yields := by
  obtain ⟨above, increasing⟩ := List.pairwise_cons.1 increasing
  have later : ∀ stop ∈ t₁ :: ts, t₀ ≤ stop := fun t ht => Int.le_of_lt (above t ht)
  have ordered := ordered_of_mem_windows later increasing
  refine ⟨exists_walks ordered few, fun yields walks => ?_⟩
  obtain ⟨feeds, counted⟩ := walks.eq_map ordered few
  have brought : (yields.flatMap (·.feeds)).Perm
      ((within h t₀ ((t₁ :: ts).getLast (List.cons_ne_nil t₁ ts))).map Feed.exported) := by
    have perm := (windows_perm (h := h) later increasing (List.cons_ne_nil t₁ ts)).map Feed.exported
    rwa [List.map_flatMap, List.flatMap_def, ← feeds, ← List.flatMap_def] at perm
  have byId : h.store.feeds.Pairwise fun f g => f.id < g.id := List.pairwise_map.1 ascending
  refine ⟨fun e => ?_, ?_, fun y hy => ?_, counted⟩
  · rw [brought.mem_iff, List.mem_map]
    simp [within, Store.isExported, and_assoc]
  · refine ((brought.map (·.id)).nodup_iff).2 ?_
    rw [List.map_map]
    exact List.pairwise_map.2 ((byId.filter _).imp fun less => (Int.ne_of_lt less))
  · have mem : y.feeds ∈ yields.map (·.feeds) := List.mem_map_of_mem hy
    rw [feeds] at mem
    obtain ⟨w, -, eq⟩ := List.mem_map.1 mem
    rw [← eq]
    exact List.pairwise_map.2 (byId.filter _)

/-- A hub with feeds of three epochs, and one that is spam. -/
def ofFourFeeds : Hub :=
  let add (h : Hub) (d : Draft) : Hub := ((Intake.add d).run .none h).2
  [.sample "a" ["solana:x"] 5, .sample "b" ["solana:x"] 6,
    { Draft.sample "c" ["solana:x"] 6 with isSpam := true }, .sample "d" ["solana:x"] 8].foldl
    add .sample

/-- Two windows that meet between epochs are walked with pages of one feed, for a size of nothing
was asked for and nothing is allowed. -/
theorem backfill_complete_of_fourFeeds :
    (∃ yields, Walks 0 0 ofFourFeeds (windows 5 [6, 8]) yields) ∧
      ∀ yields, Walks 0 0 ofFourFeeds (windows 5 [6, 8]) yields →
        Complete ofFourFeeds 5 8 yields := by
  have ids : ofFourFeeds.store.ids = [1, 2, 3, 4] := by rfl
  have few : ofFourFeeds.store.feeds.length ≤ Text.maxWord := by decide
  exact backfill_complete (by rw [ids]; decide) few (by decide) 0 0

end Query
end NotificationRelay
