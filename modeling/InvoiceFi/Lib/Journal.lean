import InvoiceFi.Lib.Machine

/-!
# Journals

A machine that publishes events keeps a journal of itself. A `Journal` names the part of the state
that the journal tells, its `view`, and `record`, what reading one event does to it: every
successful invocation appends events, and reading them moves the view as the invocation moved it
(`Journal.written`). The state may hold more than the view, and the view may need an invariant.

Three rules come with it. Events are never taken back (`Journal.prefix_events`). A reader that has
followed the run up to some point follows it to any later one by the events published since
(`Journal.view_append`), and from the initial state by all of them (`Journal.view_exec`).
-/

namespace InvoiceFi

variable {σ ι ε ρ : Type}

/-- A part of a machine's state that the events it publishes tell: `ω` the events, `τ` the part. -/
structure Journal (m : Machine σ ι ε ρ) (ω τ : Type) where
  events : σ → List ω
  view : σ → τ
  record : τ → ω → τ
  /-- What holds of every state of a run and makes the events tell the view. -/
  Inv : σ → Prop
  start : Inv m.init
  kept : ∀ {i s r s'}, Inv s → m.invoke i s = .ok (r, s') → Inv s'
  fresh : events m.init = []
  written : ∀ {i s r s'}, Inv s → m.invoke i s = .ok (r, s') →
    ∃ es, events s' = events s ++ es ∧ view s' = es.foldl record (view s)

namespace Journal

variable {m : Machine σ ι ε ρ} {ω τ : Type} (j : Journal m ω τ)

/-- The view that reading a list of events from the initial state gives. -/
def replay (es : List ω) : τ := es.foldl j.record (j.view m.init)

/-- The events of the state `s'` that the state `s` does not have yet. -/
def since (s s' : σ) : List ω := (j.events s').drop (j.events s).length

/-- The state `s'` has the events of `s` and more, and reading those leads from the view of `s` to
its own. -/
structure Follows (s s' : σ) : Prop where
  events : j.events s' = j.events s ++ j.since s s'
  view : j.view s' = (j.since s s').foldl j.record (j.view s)

variable {j}

/-- A state with more events, read off it, follows the one it came from. -/
theorem Follows.of_append {s s' : σ} {es : List ω} (he : j.events s' = j.events s ++ es)
    (hv : j.view s' = es.foldl j.record (j.view s)) : j.Follows s s' := by
  have hs : j.since s s' = es := by rw [since, he, List.drop_left]
  exact ⟨by rw [hs, he], by rw [hs, hv]⟩

theorem Follows.refl (s : σ) : j.Follows s s :=
  .of_append (List.append_nil _).symm rfl

theorem Follows.trans {s s' s'' : σ} (h : j.Follows s s') (h' : j.Follows s' s'') :
    j.Follows s s'' := by
  have he : j.events s'' = j.events s ++ (j.since s s' ++ j.since s' s'') := by
    rw [← List.append_assoc, ← h.events, ← h'.events]
  refine .of_append he ?_
  rw [List.foldl_append, ← h.view, ← h'.view]

variable (j)

/-- The invariant holds after every run. -/
theorem inv_exec (is : List ι) : j.Inv (m.exec m.init is) :=
  Machine.invariant j.start (fun _ _ _ _ h hi => j.kept h hi) is

/-- What one step does: nothing, or what the events it publishes tell. -/
theorem follows_step {s : σ} (hs : j.Inv s) (i : ι) : j.Follows s (m.step i s).post := by
  rcases Machine.step_cases (m := m) i s with ⟨r, s', hi, ht⟩ | ⟨e, -, ht⟩
  · obtain ⟨es, he, hv⟩ := j.written hs hi
    rw [ht]
    exact .of_append he hv
  · rw [ht]
    exact .refl s

/-- Every state of a run is followed by every later one. -/
theorem follows_exec (is₁ is₂ : List ι) :
    j.Follows (m.exec m.init is₁) (m.exec m.init (is₁ ++ is₂)) := by
  refine Machine.related_of Follows.refl (fun _ _ _ => Follows.trans) fun t ht => ?_
  obtain ⟨is, i, rest, -, rfl⟩ := Machine.mem_trace.1 ht
  rw [Machine.step_pre]
  exact j.follows_step (j.inv_exec is) i

/-- **Events are not taken back.** The events of a part of a run are the first events of the
run. -/
theorem prefix_events (is₁ is₂ : List ι) :
    j.events (m.exec m.init is₁) <+: j.events (m.exec m.init (is₁ ++ is₂)) := by
  rw [(j.follows_exec is₁ is₂).events]
  exact List.prefix_append _ _

/-- **Catching up.** The events published since some point of a run lead from the view there to the
view at its end. -/
theorem view_append (is₁ is₂ : List ι) :
    j.view (m.exec m.init (is₁ ++ is₂)) =
      (j.since (m.exec m.init is₁) (m.exec m.init (is₁ ++ is₂))).foldl j.record
        (j.view (m.exec m.init is₁)) :=
  (j.follows_exec is₁ is₂).view

/-- **Replay.** The events of a run, read from the initial state, give its view. -/
theorem view_exec (is : List ι) :
    j.view (m.exec m.init is) = j.replay (j.events (m.exec m.init is)) := by
  have h := j.view_append [] is
  have hs : j.since (m.exec m.init []) (m.exec m.init is) = j.events (m.exec m.init is) := by
    show (j.events _).drop (j.events m.init).length = _
    rw [j.fresh, List.length_nil, List.drop_zero]
  rw [List.nil_append, hs] at h
  exact h

end Journal

end InvoiceFi
