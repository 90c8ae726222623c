/-
# Programs

A service is described by the calls it makes: a program is either done, with a
result, or it makes a call and goes on with the answer. Running it alone performs
its calls one after another; programs that run beside each other take turns call by
call. Nothing else of a service can be observed from outside.
-/
import NotificationRelay.Hub

namespace NotificationRelay

/-- A computation that makes calls. -/
inductive Program (α : Type) where
  | done (a : α)
  | call (c : Call) (next : c.Answer → Program α)

namespace Program

/-- One program after another. -/
def bind {α β : Type} : Program α → (α → Program β) → Program β
  | .done a, k => k a
  | .call c next, k => .call c fun answer => (next answer).bind k

instance : Monad Program where
  pure := .done
  bind := bind

/-- A single call. -/
def perform (c : Call) : Program c.Answer := .call c .done

/-- The result of a program that runs alone, and the hub it leaves. -/
def run {α : Type} (outages : Outages) : Program α → Hub → α × Hub
  | .done a, h => (a, h)
  | .call c next, h =>
    run outages (next (c.perform outages h).1) (c.perform outages h).2

/-- A program for every item of a list, in order. -/
def forEach {α β : Type} (items : List α) (body : α → Program β) : Program (List β) :=
  match items with
  | [] => .done []
  | a :: rest => (body a).bind fun b => (forEach rest body).bind fun bs => .done (b :: bs)

/-- A program that is done leaves the hub as it is. -/
@[simp] theorem run_done {α : Type} (outages : Outages) (a : α) (h : Hub) :
    run outages (.done a) h = (a, h) := rfl

/-- A program that only returns leaves the hub as it is. -/
@[simp] theorem run_pure {α : Type} (outages : Outages) (a : α) (h : Hub) :
    run outages (pure a) h = (a, h) := rfl

/-- A program of one call is run by performing it. -/
@[simp] theorem run_perform (outages : Outages) (c : Call) (h : Hub) :
    run outages (perform c) h = c.perform outages h := rfl

/-- Two programs are run one after the other. -/
@[simp] theorem run_bind {α β : Type} (outages : Outages) (p : Program α) (k : α → Program β)
    (h : Hub) :
    run outages (p >>= k) h = run outages (k (run outages p h).1) (run outages p h).2 := by
  show run outages (p.bind k) h = _
  induction p generalizing h with
  | done a => rfl
  | call c next ih => exact ih _ _

/-- Nothing is added to a program by doing nothing after it. -/
@[simp] theorem bind_done {α : Type} (p : Program α) : p.bind .done = p := by
  induction p with
  | done a => rfl
  | call c next ih => simp only [bind, ih]

/-- It does not matter how programs that follow each other are put together. -/
theorem bind_assoc {α β γ : Type} (p : Program α) (k : α → Program β) (l : β → Program γ) :
    (p.bind k).bind l = p.bind fun a => (k a).bind l := by
  induction p with
  | done a => rfl
  | call c next ih => simp only [bind, ih]

end Program
end NotificationRelay
