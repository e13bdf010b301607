import InvoiceFi.Backend.InvoiceReminder

/-!
# What happens to a job

A job that is in the queue is taken, retried, finished or woken, and a finished one is removed
(`Changed`). No operation of a worker touches a job that another worker has locked. `Advances` says
so of an operation as a whole, and there is one lemma for each operation; what follows reads no
operation again.
-/

namespace InvoiceFi

namespace Backend

namespace InvoiceReminder

/-- The job is not to be taken: a worker has it, or it has finished. -/
def JobState.Settled : JobState → Prop
  | .waiting | .delayed => False
  | .active _ | .completed _ | .failed _ => True

/-- What an operation of the worker `k` does to a job, where `Retry` is when it retries it. -/
inductive Changed (k : Nat) (Retry : Prop) (job : Job) : Job → Prop
  | taken : job.state = .waiting → Changed k Retry job { job with state := .active k }
  | woken : job.state = .delayed → Changed k Retry job { job with state := .waiting }
  | finished (state : JobState) (attemptsMade : Nat) : job.state = .active k → state.Settled →
      Changed k Retry job { job with attemptsMade, state }
  | retried (attemptsMade : Nat) : job.state = .active k → Retry →
      Changed k Retry job { job with attemptsMade, state := .delayed }

/-- The operation of the worker `k` changes one job, adds none, and leaves alone what other workers
have locked. -/
structure Advances (k : Nat) (jobId : String) (Retry : Prop) (q q' : Queue) : Prop where
  back : ∀ id job', q'.jobs id = some job' → ∃ job, q.jobs id = some job ∧
    (job' = job ∨ id = jobId ∧ Changed k Retry job job')
  locked : ∀ id job j, q.jobs id = some job → job.state = .active j → j ≠ k →
    q'.jobs id = some job

variable {k j : Nat} {jobId : String} {Retry : Prop} {q q' : Queue} {job job' : Job}

@[simp] theorem Queue.set_self : (q.set jobId job).jobs jobId = some job :=
  Function.update_self ..

theorem Queue.set_of_ne {id : String} (hne : id ≠ jobId) :
    (q.set jobId job).jobs id = q.jobs id :=
  Function.update_of_ne hne ..

namespace Changed

/-- A change is of a job that is not locked by another worker. -/
theorem not_locked (h : Changed k Retry job job') (hne : j ≠ k) : job.state ≠ .active j := by
  intro hj
  cases h with
  | taken hstate => cases hstate.symm.trans hj
  | woken hstate => cases hstate.symm.trans hj
  | finished state attemptsMade hstate _ =>
    cases hstate.symm.trans hj
    exact hne rfl
  | retried attemptsMade hstate _ =>
    cases hstate.symm.trans hj
    exact hne rfl

theorem jobId_eq (h : Changed k Retry job job') : job'.jobId = job.jobId := by
  cases h <;> rfl

theorem data_eq (h : Changed k Retry job job') : job'.data = job.data := by
  cases h <;> rfl

/-- A settled job stays settled, unless it is retried. -/
theorem settled (h : Changed k Retry job job') (hsettled : job.state.Settled) (hretry : ¬ Retry) :
    job'.state.Settled := by
  cases h with
  | taken _ => trivial
  | woken hstate =>
    rw [hstate] at hsettled
    exact hsettled.elim
  | finished state _ _ hstate => exact hstate
  | retried _ _ h => exact absurd h hretry

end Changed

namespace Advances

theorem refl (q : Queue) : Advances k jobId Retry q q where
  back _ job' h := ⟨job', h, .inl rfl⟩
  locked _ _ _ h _ _ := h

theorem of_set (hjob : q.jobs jobId = some job) (h : Changed k Retry job job') :
    Advances k jobId Retry q (q.set jobId job') where
  back id job'' hid := by
    rcases eq_or_ne id jobId with rfl | hne
    · cases Queue.set_self.symm.trans hid
      exact ⟨job, hjob, .inr ⟨rfl, h⟩⟩
    · exact ⟨job'', (Queue.set_of_ne hne).symm.trans hid, .inl rfl⟩
  locked id job₀ j hid hactive hne := by
    have hother : id ≠ jobId := by
      rintro rfl
      cases hjob.symm.trans hid
      exact h.not_locked hne hactive
    exact (Queue.set_of_ne hother).trans hid

/-- How many jobs have finished is not part of what is said of the jobs. -/
theorem withCounts (h : Advances k jobId Retry q q') (completions failures : Nat) :
    Advances k jobId Retry q { q' with completions, failures } :=
  ⟨h.back, h.locked⟩

/-- Only finished jobs are removed. -/
theorem trim (h : Advances k jobId Retry q q') : Advances k jobId Retry q q'.trim where
  back id job' hid := h.back id job' (Option.eq_some_of_filter_eq_some hid)
  locked id job j hid hactive hne := by
    have hkept : q'.keeps job = true := by
      rw [Queue.keeps, hactive]
    change (q'.jobs id).filter q'.keeps = some job
    rw [h.locked id job j hid hactive hne, Option.filter_some, if_pos hkept]

end Advances

/-! ## The operations -/

theorem Queue.take_advances (q : Queue) (k : Nat) (jobId : String) :
    Advances k jobId False q (q.take k jobId).2 := by
  unfold Queue.take
  cases hjob : q.jobs jobId with
  | none => exact .refl q
  | some job =>
    dsimp only
    split
    · exact .of_set hjob (.taken ‹_›)
    · exact .refl q

/-- A job that a worker takes was waiting, and the worker has locked it. -/
theorem Queue.take_eq_some (h : (q.take k jobId).1 = some job) :
    (q.take k jobId).2.jobs jobId = some job ∧ job.state = .active k ∧
      ∃ job₀, q.jobs jobId = some job₀ ∧ job₀.state = .waiting := by
  unfold Queue.take at h ⊢
  cases hjob : q.jobs jobId with
  | none =>
    rw [hjob] at h
    cases h
  | some job₀ =>
    simp only [hjob] at h ⊢
    split at h
    · rename_i hwaiting
      rw [if_pos hwaiting]
      cases h
      exact ⟨Queue.set_self, rfl, job₀, rfl, hwaiting⟩
    · cases h

theorem Queue.moveToCompleted_advances (q : Queue) (k : Nat) (jobId : String) :
    Advances k jobId False q (q.moveToCompleted k jobId) := by
  unfold Queue.moveToCompleted
  cases hjob : q.jobs jobId with
  | none => exact .refl q
  | some job =>
    dsimp only
    split
    · rename_i hactive
      have hchanged : Changed k False job { job with state := .completed (q.completions + 1) } :=
        .finished (.completed _) job.attemptsMade hactive trivial
      exact ((Advances.of_set hjob hchanged).withCounts _ _).trim
    · exact .refl q

/-- A failed job is retried as long as it has attempts left. -/
theorem Queue.moveToFailed_advances (hjob : q.jobs jobId = some job) :
    Advances k jobId (job.attemptsMade + 1 < attempts) q (q.moveToFailed k jobId).2 := by
  unfold Queue.moveToFailed
  simp only [hjob]
  split
  · rename_i hactive
    split
    · rename_i hleft
      exact .of_set hjob (.retried _ hactive hleft)
    · have hchanged : Changed k (job.attemptsMade + 1 < attempts) job
          { job with attemptsMade := job.attemptsMade + 1, state := .failed (q.failures + 1) } :=
        .finished (.failed _) _ hactive trivial
      exact ((Advances.of_set hjob hchanged).withCounts _ _).trim
  · exact .refl q

theorem Queue.promote_advances (q : Queue) (k : Nat) (jobId : String) :
    Advances k jobId False q (q.promote jobId) := by
  unfold Queue.promote
  cases hjob : q.jobs jobId with
  | none => exact .refl q
  | some job =>
    dsimp only
    split
    · exact .of_set hjob (.woken ‹_›)
    · exact .refl q

/-- An `add` sets a waiting job where the queue has none of the id, and does nothing otherwise. -/
theorem Queue.add_cases (q : Queue) (jobId : String) (data : JobData) :
    q.add jobId data = q ∨
      q.jobs jobId = none ∧ q.add jobId data = q.set jobId ⟨jobId, data, 0, .waiting⟩ := by
  unfold Queue.add
  cases hjob : q.jobs jobId with
  | none => exact .inr ⟨rfl, rfl⟩
  | some job => exact .inl rfl

end InvoiceReminder

end Backend

end InvoiceFi
