/-
# Repeated and rejected submissions

A draft whose payload identifier is taken, and a submission that is turned down, leave no
trace. An act is idle at a hub (`Act.Idle`) if it leaves the hub as it is and any course goes on
after it as it would without it: the same deeds, with the same calls and results, to the same
hub. Storing a draft is idle wherever a feed with its payload identifier is there
(`Intake.idle_add`), and so is a submission of such a draft (`Intake.idle_submit`); a
submission that is rejected is idle anywhere (`Intake.idle_rejected`). For every point of every
course this is `Course.repetitions_idle`.
-/
import NotificationRelay.Proofs.Flow.Acceptance
import NotificationRelay.Proofs.Run.Course
import NotificationRelay.Proofs.Store.Coherence

namespace NotificationRelay

/-- An act, performed by a program, that comes to nothing at a hub: alone it leaves the hub as it
is, whatever calls fail; a course in which it is done first answers as given and does the rest
without it; and it may be done first in any course. -/
structure Act.Idle (s : Settings) (h : Hub) (a : Act) (p : Program a.Result)
    (answers : List Turn → a.Result → Prop) : Prop where
  still : ∀ outages, (p.run outages h).2 = h
  leaves : ∀ ts result ds h', Course s h (⟨a, ts, result⟩ :: ds) h' →
    answers ts result ∧ Course s h ds h'
  enters : ∀ outages ds h', Course s h ds h' →
    Course s h (⟨a, p.turns outages h, (p.run outages h).1⟩ :: ds) h'

/-- An act is idle if the only program that performs it is. -/
theorem Act.idle_of_runs {s : Settings} {h : Hub} {a : Act} {p : Program a.Result}
    {answers : List Turn → a.Result → Prop} (hp : a.PerformedBy s p)
    (only : ∀ q : Program a.Result, a.PerformedBy s q → q = p)
    (still : ∀ outages, (p.run outages h).2 = h)
    (runs : ∀ ts result h', p.Runs h ts result h' →
      answers ts result ∧ Relation.ReflTransGen Hub.Outside h h') :
    Act.Idle s h a p answers where
  still := still
  leaves ts result ds h' c := by
    obtain ⟨q, h₁, hq, run, rest⟩ := c.of_cons
    obtain rfl := only q hq
    obtain ⟨answered, o⟩ := runs ts result h₁ run
    exact ⟨answered, rest.after_outside o⟩
  enters outages ds h' c := .alone hp outages (by rwa [still])

namespace Intake

/-- What comes of a draft whose payload identifier is that of a feed with an identifier: that
identifier, or the failure of the only call. -/
def Repeats (i : FeedId) (ts : List Turn) (result : Except FeedError Inserted) : Prop :=
  (result = .ok ⟨i, false⟩ ∧ ∀ t ∈ ts, ¬ t.failed) ∨
    ∃ reason, result = .error (.store (.unavailable reason)) ∧
      ∃ t ∈ ts, t.call.failure? t.answer = some (.unavailable reason)

variable {s : Settings} {h h' : Hub} {d : Draft} {i : FeedId}

/-- Adding a draft whose payload key is taken changes nothing. -/
theorem run_add_of_taken (hd : Table.get? d.payloadId h.store.payloadIds = some i)
    (outages : Outages) : ((add d).run outages h).2 = h := by
  have taken : h.store.insert d = (⟨i, false⟩, h.store) := by simp only [Store.insert, hd]
  unfold add
  rw [Program.run_bind, Program.run_perform]
  simp only [Call.perform, Outages.guard]
  cases ho : outages (.insert d) with
  | some reason => rfl
  | none =>
    simp only [succeed, taken]
    rfl

/-- Whoever adds a draft whose payload key is taken is told of the feed that has it. -/
theorem runs_add_of_taken (hd : Table.get? d.payloadId h.store.payloadIds = some i)
    {ts : List Turn} {result : Except FeedError Inserted} (r : (add d).Runs h ts result h') :
    Repeats i ts result ∧ Relation.ReflTransGen Hub.Outside h h' := by
  obtain ⟨h₁, outages, us, o, rfl, rest⟩ := Program.Runs.of_call r
  rw [← Hub.store_eq_of_outside o] at hd
  have taken : h₁.store.insert d = (⟨i, false⟩, h₁.store) := by simp only [Store.insert, hd]
  simp only [Call.perform, Outages.guard] at rest
  cases ho : outages (.insert d) with
  | some reason =>
    rw [ho] at rest
    obtain ⟨rfl, rfl, o'⟩ := Program.Runs.of_done rest
    refine ⟨.inr ⟨reason, rfl, _, List.mem_singleton_self _, ?_⟩, o.trans o'⟩
    simp only [Call.turn, Call.perform, Outages.guard, ho]
    rfl
  | none =>
    simp only [ho, succeed, taken] at rest
    obtain ⟨rfl, rfl, o'⟩ := Program.Runs.of_done rest
    refine ⟨.inl ⟨rfl, fun t ht hf => ?_⟩, o.trans o'⟩
    rw [List.mem_singleton.1 ht] at hf
    obtain ⟨reason, there⟩ := Call.outage_of_failed _ _ _ hf
    rw [ho] at there
    cases there

/-- **A draft whose payload identifier is taken is idle.** -/
theorem idle_add (hd : Table.get? d.payloadId h.store.payloadIds = some i) :
    Act.Idle s h (.add d) (add d) (Repeats i) := by
  refine Act.idle_of_runs (.add d) (fun q hq => ?_) (run_add_of_taken hd) fun ts result h' r =>
    runs_add_of_taken hd r
  cases hq
  rfl

/-- A submission that comes to such a draft is idle. -/
theorem idle_submit {x : Submission} {epoch : Int} (hx : x.validate epoch = .ok d)
    (hd : Table.get? d.payloadId h.store.payloadIds = some i) :
    Act.Idle s h (.submit x epoch) (submit x epoch) (Repeats i) := by
  have draft : submit x epoch = add d := by
    unfold submit
    rw [hx]
  refine Act.idle_of_runs (.submit x epoch) (fun q hq => ?_) (fun outages => ?_)
    fun ts result h' r => ?_
  · cases hq
    rfl
  · rw [draft]
    exact run_add_of_taken hd outages
  · rw [draft] at r
    exact runs_add_of_taken hd r

/-- **A submission that is rejected is idle** anywhere. -/
theorem idle_rejected {x : Submission} {epoch : Int} {reason : Rejection}
    (hx : x.validate epoch = .error reason) :
    Act.Idle s h (.submit x epoch) (submit x epoch) fun ts result =>
      ts = [] ∧ result = .error (.rejected reason) := by
  have turned : submit x epoch = .done (.error (.rejected reason)) := by
    unfold submit
    rw [hx]
  refine Act.idle_of_runs (.submit x epoch) (fun q hq => ?_) (fun outages => ?_)
    fun ts result h' r => ?_
  · cases hq
    rfl
  · rw [turned]
    rfl
  · rw [turned] at r
    obtain ⟨rfl, rfl, o⟩ := r.of_done
    exact ⟨⟨rfl, rfl⟩, o⟩

end Intake

/-- **Repeated and rejected submissions are idle.** At every point of every course that began
with a coherent store: a draft with the payload identifier of a feed that is there, stored
directly or after its submission was checked, is answered with the identifier of that feed,
as one that was not created, or with the failure of the store; a submission that is
rejected is answered with the reason; and in each case the rest of the course is the same as
without it, call by call and result by result, and so is the hub at its end. -/
theorem Course.repetitions_idle {s : Settings} {start h : Hub} {past : List Deed}
    (before : Course s start past h) (hs : start.store.Coherent) :
    (∀ f ∈ h.store.feeds, ∀ d : Draft, d.payloadId = f.payloadId →
      Act.Idle s h (.add d) (Intake.add d) (Intake.Repeats f.id)) ∧
    (∀ f ∈ h.store.feeds, ∀ (x : Submission) (epoch : Int) (d : Draft),
      x.validate epoch = .ok d → Text.trim x.payloadId = f.payloadId →
      Act.Idle s h (.submit x epoch) (Intake.submit x epoch) (Intake.Repeats f.id)) ∧
    ∀ (x : Submission) (epoch : Int) (reason : Rejection), x.validate epoch = .error reason →
      Act.Idle s h (.submit x epoch) (Intake.submit x epoch) fun ts result =>
        ts = [] ∧ result = .error (.rejected reason) := by
  have coherent : h.store.Coherent := (before.history.coherent hs).1
  have taken : ∀ f ∈ h.store.feeds,
      Table.get? f.payloadId h.store.payloadIds = some f.id := fun f hf =>
    (coherent.named _ _).2 (List.mem_map_of_mem hf)
  refine ⟨fun f hf d same => ?_, fun f hf x epoch d hd same => ?_, fun x epoch reason hx => ?_⟩
  · exact Intake.idle_add (by rw [same]; exact taken f hf)
  · refine Intake.idle_submit hd ?_
    rw [Submission.payloadId_of_validate hd, same]
    exact taken f hf
  · exact Intake.idle_rejected hx

/-- After a feed has been stored, another draft of its name, a submission of its name between
blanks, and a submission without a name come to nothing. -/
theorem Course.repetitions_idle_of_added :
    let h := ((Intake.add (.sample "p" [] 5)).run .none .sample).2
    Act.Idle .sample h (.add (.sample "p" ["solana:bob"] 9))
      (Intake.add (.sample "p" ["solana:bob"] 9)) (Intake.Repeats 1) ∧
    Act.Idle .sample h (.submit (.sample " p ") 9) (Intake.submit (.sample " p ") 9)
      (Intake.Repeats 1) ∧
    Act.Idle .sample h (.submit (.sample " ") 9) (Intake.submit (.sample " ") 9) fun ts result =>
      ts = [] ∧ result = .error (.rejected .blankPayloadId) := by
  have idle := Course.repetitions_idle
    (.alone (.add (.sample "p" [] 5)) .none (.stop _) :
      Course .sample .sample _ ((Intake.add (.sample "p" [] 5)).run .none .sample).2)
    Store.coherent_empty
  have valid : ((Submission.sample " p ").validate 9).toOption.isSome = true := by decide +kernel
  obtain ⟨d, hd⟩ : ∃ d, (Submission.sample " p ").validate 9 = .ok d := by
    cases hv : (Submission.sample " p ").validate 9 with
    | error e => rw [hv] at valid; cases valid
    | ok d => exact ⟨d, rfl⟩
  refine ⟨idle.1 (.ofDraft 1 (.sample "p" [] 5)) (List.mem_singleton_self _) _ rfl,
    idle.2.1 (.ofDraft 1 (.sample "p" [] 5)) (List.mem_singleton_self _) _ 9 d hd ?_,
    idle.2.2 _ 9 .blankPayloadId ?_⟩
  · decide +kernel
  · rfl

end NotificationRelay
