/-
# Windows of days

A second lies on the day whose 86400 seconds it is one of, before 1970 as after it, and the days
that seconds lie on are those of the years of the calendar (`Feed.day?_eq_some_iff_fallsOn`).
Criteria ask for the day of a feed only in their window, and a window from one day to another leaves
out the first. So a window that is cut at a day falls into two, of which a feed that the whole
accepts passes exactly one (`Criteria.accepts_cut`), and the windows from each day to the next
divide what is found from the first to the last among them (`Store.newest_chain`). Together:
`Criteria.windows_tile`.
-/
import NotificationRelay.Proofs.Calendar.Gregorian
import NotificationRelay.Proofs.Query.Searching

namespace NotificationRelay

/-! ## The day of a feed -/

namespace Day

/-- A day lies before the new year of a year if its own year does. -/
theorem before_newYear_iff (year : Int) (d : Day) :
    d.civil.Before ⟨year, 1, 1⟩ ↔ d.civil.year < year := by
  have month := d.exists_civil.month
  have day := d.exists_civil.day
  simp only [Civil.Before]
  omega

/-- A day is of a year or a later one from New Year on. -/
theorem le_year_civil_iff (year : Int) (d : Day) :
    year ≤ d.civil.year ↔ (ofCivil ⟨year, 1, 1⟩).number ≤ d.number := by
  have newYear : Civil.Exists ⟨year, 1, 1⟩ :=
    ⟨⟨le_rfl, show 1 ≤ 12 by decide⟩, le_rfl, one_le_monthLength ..⟩
  have order := before_civil_iff d (ofCivil ⟨year, 1, 1⟩)
  rw [civil_ofCivil newYear, before_newYear_iff] at order
  omega

/-- The year of a day is one of the calendar. -/
def InCalendar (d : Day) : Prop := -262143 ≤ d.civil.year ∧ d.civil.year ≤ 262142

instance (d : Day) : Decidable d.InCalendar := inferInstanceAs (Decidable (_ ∧ _))

/-- A day is in the calendar if all of its seconds can be represented. -/
theorem inCalendar_iff (d : Day) : d.InCalendar ↔
    leastSecond ≤ d.number * 86400 ∧ (d.number + 1) * 86400 ≤ greatestSecond + 1 := by
  have first : (ofCivil ⟨-262143, 1, 1⟩).number * 86400 = leastSecond := by decide
  have last : (ofCivil ⟨262143, 1, 1⟩).number * 86400 = greatestSecond + 1 := by decide
  have least := le_year_civil_iff (-262143) d
  have most := le_year_civil_iff 262143 d
  unfold InCalendar
  omega

end Day

namespace Feed

/-- The epoch of a feed is one of the seconds of a day of the calendar. -/
structure FallsOn (f : Feed) (day : Day) : Prop where
  inCalendar : day.InCalendar
  begun : day.number * 86400 ≤ f.epoch
  left : f.epoch < day.next.number * 86400

variable {f g : Feed} {d e : Day}

/-- **The day of a feed is the day that its epoch falls on.** -/
theorem day?_eq_some_iff_fallsOn : f.day? = some d ↔ f.FallsOn d := by
  have next : d.next.number = d.number + 1 := rfl
  have calendar := d.inCalendar_iff
  have bounds : leastSecond % 86400 = 0 ∧ (greatestSecond + 1) % 86400 = 0 := by decide
  rw [day?_eq_some_iff]
  constructor
  · rintro ⟨least, most, begun, left⟩
    exact ⟨calendar.2 (by omega), begun, left⟩
  · rintro ⟨inCalendar, begun, left⟩
    have := calendar.1 inCalendar
    exact ⟨by omega, by omega, begun, left⟩

/-- A later feed is not of an earlier day. -/
theorem FallsOn.mono (first : f.FallsOn d) (second : g.FallsOn e) (le : f.epoch ≤ g.epoch) :
    d.number ≤ e.number := by
  have := first.begun
  have : g.epoch < (e.number + 1) * 86400 := second.left
  omega

end Feed

/-! ## One window -/

namespace DateWindow

variable {low mid high : Day}

/-- A window that is cut at a day. -/
theorem contains_cut (first : low.number ≤ mid.number) (second : mid.number ≤ high.number)
    (d : Day) : (between low high).contains d =
      ((between low mid).contains d ^^ (between mid high).contains d) := by
  simp only [contains]
  grind

/-- A single day is the window from the day before to the day. -/
theorem contains_on (day d : Day) :
    (on day).contains d = (between day.previous day).contains d := by
  simp only [contains, Day.previous]
  grind

end DateWindow

namespace Criteria

variable {c : Criteria} {f : Feed} {w : DateWindow} {low mid high day : Day}

/-- The same criteria, with a window of days. -/
def within (c : Criteria) (w : DateWindow) : Criteria := { c with window := some w }

/-- The same criteria, with any day. -/
def undated (c : Criteria) : Criteria := { c with window := none }

/-- The day of a feed is asked for in the window only. -/
theorem accepts_within (c : Criteria) (w : DateWindow) (f : Feed) :
    (c.within w).accepts f = (c.undated.accepts f && f.day?.any w.contains) := by
  have dated : (c.within w).acceptsDay f = f.day?.any w.contains := by
    unfold acceptsDay within
    cases f.day? <;> rfl
  have free : c.undated.acceptsDay f = true := rfl
  rw [accepts, accepts, dated, free, Bool.and_true]
  rfl

/-- **A window that is cut at a day falls into two**, and of these a feed passes one. -/
theorem accepts_cut (c : Criteria) (f : Feed) (first : low.number ≤ mid.number)
    (second : mid.number ≤ high.number) : (c.within (.between low high)).accepts f =
      ((c.within (.between low mid)).accepts f ^^ (c.within (.between mid high)).accepts f) := by
  rw [accepts_within, accepts_within, accepts_within, ← Bool.and_xor_distrib_left]
  cases f.day? with
  | none => rfl
  | some d => exact congrArg _ (DateWindow.contains_cut first second d)

/-- A day is what lies after the day before and not after the day itself. -/
theorem accepts_on (c : Criteria) (f : Feed) (day : Day) :
    (c.within (.on day)).accepts f = (c.within (.between day.previous day)).accepts f := by
  rw [accepts_within, accepts_within, funext (DateWindow.contains_on day)]

/-- No feed passes both windows into which one is cut. -/
theorem not_accepts_both (c : Criteria) (f : Feed) (low mid high : Day) :
    ((c.within (.between low mid)).accepts f &&
      (c.within (.between mid high)).accepts f) = false := by
  rw [accepts_within, accepts_within]
  cases f.day? with
  | none => simp
  | some d =>
    simp only [Option.any_some, DateWindow.contains]
    grind

end Criteria

/-! ## Windows in a row -/

/-- The windows from each day to the next. -/
def DateWindow.chain (low : Day) : List Day → List DateWindow
  | [] => []
  | day :: days => .between low day :: chain day days

namespace Store

/-- What a store has in the two windows into which one is cut is what it has in the whole. -/
theorem newest_cut (s : Store) (c : Criteria) {low mid high : Day}
    (first : low.number ≤ mid.number) (second : mid.number ≤ high.number) :
    (s.newest (c.within (.between low mid)).accepts ++
      s.newest (c.within (.between mid high)).accepts).Perm
        (s.newest (c.within (.between low high)).accepts) := by
  have parts := filter_perm (c.accepts_cut · first second) (c.not_accepts_both · ..) s.feeds
  exact (((List.reverse_perm _).append (List.reverse_perm _)).trans parts).trans
    (List.reverse_perm _).symm

/-- A window from a day to itself is empty. -/
theorem newest_between_self (s : Store) (c : Criteria) (day : Day) :
    s.newest (c.within (.between day day)).accepts = [] := by
  have none : ∀ f, (c.within (.between day day)).accepts f = false := fun f =>
    (Bool.and_self _).symm.trans (c.not_accepts_both f day day day)
  rw [newest, List.filter_eq_nil_iff.2 fun f _ => by rw [none]; exact Bool.false_ne_true]
  rfl

/-- **Windows in a row divide what is found from the first day to the last among them.** -/
theorem newest_chain (s : Store) (c : Criteria) {low : Day} {days : List Day}
    (ascending : (low :: days).Pairwise (·.number ≤ ·.number)) :
    ((DateWindow.chain low days).flatMap fun w => s.newest (c.within w).accepts).Perm
      (s.newest (c.within
        (.between low ((low :: days).getLast (List.cons_ne_nil low days)))).accepts) := by
  induction days generalizing low with
  | nil => exact .of_eq (s.newest_between_self c low).symm
  | cons day days ih =>
    obtain ⟨above, later⟩ := List.pairwise_cons.1 ascending
    rw [DateWindow.chain, List.flatMap_cons, List.getLast_cons (List.cons_ne_nil day days)]
    refine ((ih later).append_left _).trans (s.newest_cut c ?_ ?_)
    · exact above day List.mem_cons_self
    · rcases List.mem_cons.1 (List.getLast_mem (List.cons_ne_nil day days)) with same | after
      · rw [same]
      · exact (List.pairwise_cons.1 later).1 _ after

end Store

namespace Criteria

open DateWindow (chain)

/-- **Windows of days tile the calendar.** The day of a feed is the one day of the calendar of whose
seconds the epoch is one, and there is none for the epochs outside the calendar; the days are those
of the Gregorian calendar, in its order; and a later epoch is never of an earlier day. Whatever the
criteria are, they accept a feed in a window of days exactly if they accept it in one and not in the
other of the windows into which a day of it cuts that window; and on a day exactly if they accept it
in the window from the day before. So windows in a row lose no feed and repeat none: what a store
has in them is, rearranged, what it has from the first day to the last. -/
theorem windows_tile :
    (∀ (f : Feed) (day : Day), f.day? = some day ↔ f.FallsOn day) ∧
      (Day.civil ⟨0⟩ = ⟨1970, 1, 1⟩ ∧
        (∀ day : Day, day.civil.Exists ∧ day.next.civil = day.civil.next) ∧
        ∀ d e : Day, d.civil.Before e.civil ↔ d.number < e.number) ∧
      (∀ (f g : Feed) (d e : Day), f.day? = some d → g.day? = some e → f.epoch ≤ g.epoch →
        d.number ≤ e.number) ∧
      (∀ (c : Criteria) (f : Feed) (low mid high : Day), low.number ≤ mid.number →
        mid.number ≤ high.number → ((c.within (.between low high)).accepts f = true ↔
          Xor ((c.within (.between low mid)).accepts f = true)
            ((c.within (.between mid high)).accepts f = true))) ∧
      (∀ (c : Criteria) (f : Feed) (day : Day), day.previous.next = day ∧
        ((c.within (.on day)).accepts f = true ↔
          (c.within (.between day.previous day)).accepts f = true)) ∧
      ∀ (c : Criteria) (s : Store) (low : Day) (days : List Day),
        (low :: days).Pairwise (·.number ≤ ·.number) →
          ((chain low days).flatMap fun w => s.newest (c.within w).accepts).Perm
            (s.newest (c.within
              (.between low ((low :: days).getLast (List.cons_ne_nil low days)))).accepts) := by
  have xor : ∀ a b : Bool, (a ^^ b) = true ↔ Xor (a = true) (b = true) := by
    unfold Xor
    decide
  refine ⟨fun _ _ => Feed.day?_eq_some_iff_fallsOn,
    ⟨Day.civil_zero, fun day => ⟨day.exists_civil, day.civil_next⟩, Day.before_civil_iff⟩,
    fun f g d e first second le => ?_, fun c f low mid high first second => ?_,
    fun c f day => ⟨?_, ?_⟩, fun c s low days ascending => s.newest_chain c ascending⟩
  · exact (Feed.day?_eq_some_iff_fallsOn.1 first).mono (Feed.day?_eq_some_iff_fallsOn.1 second) le
  · rw [c.accepts_cut f first second, xor]
  · exact congrArg Day.mk (Int.sub_add_cancel ..)
  · rw [c.accepts_on]

/-- A feed of the last second of 1969. -/
def ofEve : Feed := .ofDraft 1 (.sample "a" ["solana:x"] (-1))

/-- A feed of the first second of 1970. -/
def ofNewYear : Feed := .ofDraft 2 (.sample "b" ["solana:x"] 0)

/-- What one sender has sent. -/
def ofSender : Criteria := ⟨[ofEve.sender], none, false, none⟩

/-- Between two years the days meet at second 0, and so do the windows that are cut there. -/
theorem windows_tile_of_newYear :
    let eve := Day.ofCivil ⟨1969, 12, 31⟩
    let newYear := Day.ofCivil ⟨1970, 1, 1⟩
    let s : Store := { Store.empty with lastId := 2, feeds := [ofEve, ofNewYear] }
    (ofEve.day? = some eve ∧ ofNewYear.day? = some newYear ∧ eve.number ≤ newYear.number) ∧
      (ofSender.within (.between eve.previous newYear)).accepts ofNewYear = true ∧
      (ofSender.within (.between eve.previous eve)).accepts ofEve = true ∧
      ((chain eve.previous [eve, newYear]).flatMap fun w =>
        s.newest (ofSender.within w).accepts).Perm
          (s.newest (ofSender.within (.between eve.previous newYear)).accepts) := by
  obtain ⟨days, -, mono, cut, on, row⟩ := windows_tile
  have eve : ofEve.day? = some (Day.ofCivil ⟨1969, 12, 31⟩) := (days ..).2
    ⟨by decide, by decide, by decide⟩
  have newYear : ofNewYear.day? = some (Day.ofCivil ⟨1970, 1, 1⟩) := (days ..).2
    ⟨by decide, by decide, by decide⟩
  refine ⟨⟨eve, newYear, mono _ _ _ _ eve newYear (by decide)⟩, ?_, ?_, row _ _ _ _ (by decide)⟩
  · exact (cut _ _ _ (.ofCivil ⟨1969, 12, 31⟩) _ (by decide) (by decide)).2
      (.inr ⟨by decide +kernel, by decide +kernel⟩)
  · exact (on ..).2.1 (by decide +kernel)

end Criteria
end NotificationRelay
