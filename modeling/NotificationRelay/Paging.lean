/-
# Pages

A page is a number, counted from one, and a size. The items before it are counted
with saturating 64-bit arithmetic, so that an absurd page number lies past the end of
every list instead of wrapping round to its start.
-/
import NotificationRelay.Text.Numeral

namespace NotificationRelay

/-- A request for one page of a list. -/
structure Paging where
  page : Nat
  size : Nat
  deriving DecidableEq, Repr, Inhabited

namespace Paging

/-- A page request with both numbers at least one. -/
def make (page size : Nat) : Paging := ⟨max page 1, max size 1⟩

/-- The same page with its size cut to a bound, which counts as at least one. -/
def clamp (p : Paging) (bound : Nat) : Paging := ⟨p.page, min p.size (max bound 1)⟩

/-- The number of items before the page. -/
def offset (p : Paging) : Nat := min ((p.page - 1) * p.size) Text.maxWord

/-- The items of a list that lie on the page. -/
def slice {α : Type} (p : Paging) (items : List α) : List α :=
  (items.drop p.offset).take p.size

end Paging
end NotificationRelay
