/-
# Pages tile a list

A page shows the items of a list at its positions (`Paging.Shows`): the items before it are counted
with saturating arithmetic, and its size is cut to a bound. Neither shows on a list that 64 bits can
count: a page begins where exact arithmetic puts it
(`Paging.slice_eq`), since an offset that saturates lies past the end of the list either way. So the
first pages hold the beginning of the list, item by item (`Paging.flatMap_slice`), and with as many
pages as the length makes necessary (`Query.pageCount`) it is the whole list (`Paging.tiles`).
-/
import Mathlib.Data.List.Basic
import NotificationRelay.Paging

namespace NotificationRelay

namespace Query

/-- The size of the pages that come back, which is never zero. -/
def pageSize (bound size : Nat) : Nat := min (max size 1) (max bound 1)

/-- No page has room for nothing. -/
theorem pageSize_pos {bound size : Nat} : 0 < pageSize bound size := by
  unfold pageSize
  omega

/-- The number of pages that so many items take, the last of which may be partial. -/
def pageCount (bound size items : Nat) : Nat :=
  (items + pageSize bound size - 1) / pageSize bound size

/-- Some pages are enough if all items fit on them. -/
theorem pageCount_le_iff {bound size items pages : Nat} :
    pageCount bound size items ≤ pages ↔ items ≤ pages * pageSize bound size := by
  have positive : 0 < pageSize bound size := pageSize_pos
  unfold pageCount
  rw [← Nat.lt_succ_iff, Nat.div_lt_iff_lt_mul positive, Nat.succ_mul]
  omega

end Query

namespace Paging

open Query (pageSize pageSize_pos pageCount pageCount_le_iff)

variable {α β : Type} {items : List α} {bound size : Nat}

theorem clamp_make (page size bound : Nat) :
    (make page size).clamp bound = ⟨max page 1, pageSize bound size⟩ := rfl

/-- A page begins where exact arithmetic puts it. -/
theorem slice_eq (p : Paging) (few : items.length ≤ Text.maxWord) :
    p.slice items = (items.drop ((p.page - 1) * p.size)).take p.size := by
  unfold slice offset
  obtain within | beyond := Nat.le_total ((p.page - 1) * p.size) Text.maxWord
  · rw [Nat.min_eq_left within]
  · rw [Nat.min_eq_right beyond, List.drop_eq_nil_of_le few,
      List.drop_eq_nil_of_le (Nat.le_trans few beyond)]

/-- What a page shows of changed items is what it shows of the items, changed. -/
theorem map_slice (p : Paging) (f : α → β) (items : List α) :
    (p.slice items).map f = p.slice (items.map f) := by
  unfold slice
  rw [List.map_take, List.map_drop]

/-- Some items are those that a page shows of a list. The size of the page is cut to a bound, which
counts as at least one, and the items before it are counted with saturating 64-bit arithmetic; after
these come the items of the page, in the order of the list, as many as fit on it. -/
def Shows (p : Paging) (bound : Nat) (items shown : List α) : Prop :=
  ∀ k, shown[k]? = if k < min p.size (max bound 1) then
    items[min ((p.page - 1) * min p.size (max bound 1)) 18446744073709551615 + k]? else none

/-- What is cut out of a list is what the page shows of it. -/
theorem shows_slice (p : Paging) (bound : Nat) (items : List α) :
    p.Shows bound items ((p.clamp bound).slice items) := fun k => by
  rw [slice, List.getElem?_take, List.getElem?_drop]
  rfl

/-- A page shows the same of a list every time. -/
theorem Shows.eq_slice {p : Paging} {shown : List α} (shows : p.Shows bound items shown) :
    shown = (p.clamp bound).slice items :=
  List.ext_getElem? fun k => (shows k).trans (shows_slice p bound items k).symm

/-- No page is longer than its size. -/
theorem length_slice_le (p : Paging) (items : List α) : (p.slice items).length ≤ p.size :=
  List.length_take_le _ _

/-- The pages of one size, cut to a bound, tile a list: each holds the items at its positions and
no more of them than the size allows, from the first to the last that is needed they make up the
list, and after it there is nothing. -/
structure Tiles (bound size : Nat) (items : List α) : Prop where
  positions : ∀ page k, (((make page size).clamp bound).slice items)[k]? =
    if k < pageSize bound size then items[(max page 1 - 1) * pageSize bound size + k]? else none
  short : ∀ page, (((make page size).clamp bound).slice items).length ≤ pageSize bound size
  whole : ((List.range' 1 (pageCount bound size items.length)).flatMap fun page =>
    ((make page size).clamp bound).slice items) = items
  beyond : ∀ page, pageCount bound size items.length < page →
    ((make page size).clamp bound).slice items = []

/-- The first pages hold as much of a list as fits on them. -/
theorem flatMap_slice (few : items.length ≤ Text.maxWord) (bound size pages : Nat) :
    ((List.range' 1 pages).flatMap fun page => ((make page size).clamp bound).slice items) =
      items.take (pages * pageSize bound size) := by
  induction pages with
  | zero => rw [Nat.zero_mul]; rfl
  | succ pages ih =>
    have last : ((make (1 + pages) size).clamp bound).slice items =
        (items.drop (pages * pageSize bound size)).take (pageSize bound size) := by
      have before : max (1 + pages) 1 - 1 = pages := by omega
      rw [clamp_make, slice_eq _ few, before]
    rw [List.range'_1_concat, List.flatMap_append, ih, List.flatMap_singleton, last, Nat.succ_mul,
      List.take_add]

/-- As many pages as are needed, or more, hold the whole list. -/
theorem flatMap_slice_of_le (few : items.length ≤ Text.maxWord) {pages : Nat}
    (enough : pageCount bound size items.length ≤ pages) :
    ((List.range' 1 pages).flatMap fun page => ((make page size).clamp bound).slice items) =
      items := by
  rw [flatMap_slice few, List.take_of_length_le (pageCount_le_iff.1 enough)]

/-- **Pages tile every list that 64 bits can count.** -/
theorem tiles (few : items.length ≤ Text.maxWord) (bound size : Nat) : Tiles bound size items where
  positions page k := by
    rw [clamp_make, slice_eq _ few, List.getElem?_take, List.getElem?_drop]
  short page := length_slice_le _ items
  whole := flatMap_slice_of_le few (Nat.le_refl _)
  beyond page after := by
    have before : pageCount bound size items.length ≤ max page 1 - 1 := by omega
    rw [clamp_make, slice_eq _ few, List.drop_eq_nil_of_le (pageCount_le_iff.1 before),
      List.take_nil]

end Paging
end NotificationRelay
