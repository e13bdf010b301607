import InvoiceFi.Backend.RateLimiter
import Mathlib.Algebra.Order.BigOperators.Group.List
import Mathlib.Algebra.Order.Group.Nat
import Mathlib.Data.List.Nodup

/-!
# When a denied request may be repeated

A denied request is told to wait until the oldest admission of its window is `windowMs` old, in
seconds rounded up. The window of the script includes its left end, so an admission that is exactly
`windowMs` old still counts: a repetition is allowed only after the reset time
(`allowed_after_wait`). Rounding up covers the missing millisecond unless there is nothing to round,
and then the promised instant is the one at which the repetition is denied (`honestRetry_iff`).
-/

namespace InvoiceFi

namespace RateLimiter

open SlidingWindow Backend

/-- The time of the oldest allowed request in the window that ends at `now`. -/
def oldestIn (cfg : RateLimitConfig) (rs : List Request) (now : ℤ) : Option ℤ :=
  (between (now - cfg.windowMs) now (allowedBy cfg rs)).min?

/-- After the request `q` only denied requests `ms` come, and then `q'`. -/
structure Waited (cfg : RateLimitConfig) (rs : List Request) (q : Request) (ms : List Request)
    (q' : Request) : Prop where
  inOrder : InOrder (rs ++ (q :: ms) ++ [q'])
  denied : ∀ ms₁ m ms₂, ms = ms₁ ++ m :: ms₂ → (answer cfg (rs ++ q :: ms₁) m).allowed = false

/-- The `Retry-After` of a denied request `q` is honest: whatever denied requests come in between, a
request after that many seconds is allowed, and a request at a whole second before the reset time
is denied. -/
def HonestRetry (cfg : RateLimitConfig) (rs : List Request) (q : Request) : Prop :=
  ∀ seconds, (answer cfg rs q).retryAfter = some seconds → ∀ ms q', Waited cfg rs q ms q' →
    (q'.now = q.now + 1000 * seconds → (answer cfg (rs ++ q :: ms) q').allowed = true) ∧
    (∀ k : ℕ, q'.now = q.now + 1000 * k → q'.now < (answer cfg rs q).resetAt →
      (answer cfg (rs ++ q :: ms) q').allowed = false)

section
variable {cfg : RateLimitConfig} {rs ms : List Request} {q q' : Request}

/-- Denied requests leave what was allowed. -/
theorem allowedBy_denied (hin : InOrder (rs ++ ms))
    (hdenied : ∀ ms₁ m ms₂, ms = ms₁ ++ m :: ms₂ → (answer cfg (rs ++ ms₁) m).allowed = false) :
    allowedBy cfg (rs ++ ms) = allowedBy cfg rs := by
  induction ms using List.reverseRecOn with
  | nil => rw [List.append_nil]
  | append_singleton ms m ih =>
    rw [← List.append_assoc] at hin ⊢
    have hm := hdenied ms m [] rfl
    rw [hin.answer_eq, ← Bool.not_eq_true, (verdict_eq cfg _ _).1] at hm
    rw [hin.allowedBy_concat, request, if_neg hm]
    refine ih (hin.sublist (List.sublist_append_left ..)) fun ms₁ p ms₂ hms => ?_
    exact hdenied ms₁ p (ms₂ ++ [m]) (by rw [hms]; simp)

/-- The requests allowed before a request of a run in order are not later than it. -/
theorem allowedBy_le (hin : InOrder (rs ++ q :: ms)) : ∀ x ∈ allowedBy cfg rs, x ≤ q.now := by
  intro x hx
  have hrs : InOrder rs := hin.sublist (List.sublist_append_left ..)
  rw [allowedBy, hrs.allowedTimes_eq finds_live] at hx
  obtain ⟨p, hp, rfl⟩ := List.mem_map.1 (admissions_subset _ _ _ x hx)
  exact hin.at_request.1 p hp

/-- A denied request has an oldest admission in its window, which gives its reset time and its
`retryAfter`. -/
theorem denied_oldest (hmax : 1 ≤ cfg.maxRequests) (hin : InOrder (rs ++ q :: ms))
    (hdenied : (answer cfg rs q).allowed = false) :
    ∃ o, oldestIn cfg rs q.now = some o ∧ q.now ≤ o + cfg.windowMs ∧
      (answer cfg rs q).resetAt = o + cfg.windowMs ∧
      (answer cfg rs q).retryAfter = some (max 1 (ceilSeconds (o + cfg.windowMs - q.now))) := by
  have hroom : ¬ (between (q.now - cfg.windowMs) q.now (allowedBy cfg rs)).length <
      cfg.maxRequests := by
    rwa [hin.answer_eq, ← Bool.not_eq_true, (verdict_eq cfg _ _).1] at hdenied
  have hne : between (q.now - cfg.windowMs) q.now (allowedBy cfg rs) ≠ [] :=
    List.ne_nil_of_length_pos (by omega)
  obtain ⟨o, ho⟩ := Option.isSome_iff_exists.1 (List.isSome_min?_of_ne_nil hne)
  have hmem := (mem_between.1 (List.min?_mem ho)).2.1
  refine ⟨o, ho, by omega, ?_, ?_⟩
  · rw [hin.answer_eq]
    simp [verdict, hroom, ho]
  · rw [hin.answer_eq]
    simp [verdict, hroom, ho]

/-- After a denied request, with nothing admitted in between, a request is allowed exactly from the
millisecond after the reset time. -/
theorem allowed_after_wait (hdenied : (answer cfg rs q).allowed = false)
    (hw : Waited cfg rs q ms q') {o : ℤ} (ho : oldestIn cfg rs q.now = some o) :
    (answer cfg (rs ++ q :: ms) q').allowed = true ↔ o + cfg.windowMs < q'.now := by
  have hin : InOrder (rs ++ q :: (ms ++ [q'])) := by simpa using hw.inOrder
  have hupto : InOrder (rs ++ (q :: ms)) := hw.inOrder.sublist (List.sublist_append_left ..)
  have hle : q.now ≤ q'.now := hin.at_request.2 q' (List.mem_append_right _ (.head _))
  have hsame : allowedBy cfg (rs ++ (q :: ms)) = allowedBy cfg rs := by
    refine allowedBy_denied hupto fun ms₁ m ms₂ hms => ?_
    cases ms₁ with
    | nil =>
      obtain ⟨rfl, -⟩ := List.cons.inj hms
      rw [List.append_nil]
      exact hdenied
    | cons p ms₁ =>
      obtain ⟨rfl, htail⟩ := List.cons.inj hms
      exact hw.denied ms₁ m ms₂ htail
  have hfull : (between (q.now - cfg.windowMs) q.now (allowedBy cfg rs)).length =
      cfg.maxRequests := ((window_kept cfg hin).denied rs q _ rfl).1 hdenied
  rw [hw.inOrder.answer_eq, (verdict_eq cfg _ _).1, hsame, ← hfull,
    room_iff (allowedBy_le hin) hle]
  constructor
  · rintro ⟨x, hx, hlt⟩
    have := (List.min?_eq_some_iff.1 ho).2 x hx
    omega
  · intro hlt
    exact ⟨o, List.min?_mem ho, by omega⟩

/-- Some suffix makes a member that is not in a list: one longer than all of them. -/
theorem exists_fresh (now : ℤ) (l : List String) :
    ∃ suffix, (⟨now, suffix⟩ : Request).member ∉ l := by
  let suffix := String.ofList (List.replicate ((l.map String.length).sum + 1) 'x')
  refine ⟨suffix, fun hmem => ?_⟩
  have hle := List.single_le_sum (fun _ _ => Nat.zero_le _) _
    (List.mem_map_of_mem (f := String.length) hmem)
  have hlong : (⟨now, suffix⟩ : Request).member.length =
      (toString now).length + 1 + ((l.map String.length).sum + 1) := by
    have hmember : (⟨now, suffix⟩ : Request).member = toString now ++ "-" ++ suffix := rfl
    have hsuffix : suffix.length = (l.map String.length).sum + 1 := by
      rw [String.length_ofList, List.length_replicate]
    rw [hmember, String.length_append, String.length_append, hsuffix]
    rfl
  omega

/-- A repetition of a denied request at any later time, with nothing in between. -/
theorem exists_waited (cfg : RateLimitConfig) (hin : InOrder (rs ++ [q])) {now : ℤ}
    (hnow : q.now ≤ now) :
    ∃ q', q'.now = now ∧ Waited cfg rs q [] q' := by
  obtain ⟨suffix, hfresh⟩ := exists_fresh now ((rs ++ [q]).map Request.member)
  refine ⟨⟨now, suffix⟩, rfl, ⟨?_, ?_⟩, fun ms₁ m ms₂ hms => ?_⟩
  · rw [List.map_append, List.pairwise_append]
    refine ⟨hin.sorted, List.pairwise_singleton .., fun x hx y hy => ?_⟩
    rw [List.map_singleton, List.mem_singleton] at hy
    obtain ⟨p, hp, rfl⟩ := List.mem_map.1 hx
    rcases List.mem_append.1 hp with hp | hp
    · exact hy ▸ (hin.at_request.1 p hp).trans hnow
    · exact hy ▸ List.mem_singleton.1 hp ▸ hnow
  · rw [List.map_append]
    exact hin.distinct.append (List.nodup_singleton _) (by simpa using hfresh)
  · exact absurd hms.symm (by simp)

/-- The condition under which the `Retry-After` of a request denied at `now` is honest: the oldest
admission of the window leaves it at `now`, or is not a whole number of seconds from leaving it. -/
def NotOnTheSecond (cfg : RateLimitConfig) (rs : List Request) (now : ℤ) : Prop :=
  ∀ o, oldestIn cfg rs now = some o →
    ¬ (0 < o + cfg.windowMs - now ∧ 1000 ∣ o + cfg.windowMs - now)

/-- **A denied request is told the truth unless its wait is a whole number of seconds.** -/
theorem honestRetry_iff (hmax : 1 ≤ cfg.maxRequests) (hin : InOrder (rs ++ [q]))
    (hdenied : (answer cfg rs q).allowed = false) :
    HonestRetry cfg rs q ↔ NotOnTheSecond cfg rs q.now := by
  obtain ⟨o, ho, hleft, hreset, hretry⟩ := denied_oldest hmax hin hdenied
  have hcond : NotOnTheSecond cfg rs q.now ↔
      o + cfg.windowMs < q.now + 1000 * max 1 (ceilSeconds (o + cfg.windowMs - q.now)) := by
    have hround : ¬ (0 < o + cfg.windowMs - q.now ∧ 1000 ∣ o + cfg.windowMs - q.now) ↔
        o + cfg.windowMs < q.now + 1000 * max 1 (ceilSeconds (o + cfg.windowMs - q.now)) := by
      simp only [ceilSeconds]
      omega
    rw [← hround]
    refine ⟨fun h => h o ho, fun h o' ho' => ?_⟩
    rw [ho] at ho'
    cases ho'
    exact h
  rw [hcond]
  constructor
  · intro honest
    have hlater : q.now ≤ q.now + 1000 * max 1 (ceilSeconds (o + cfg.windowMs - q.now)) := by
      omega
    obtain ⟨q', hq', hw⟩ := exists_waited cfg hin hlater
    rw [← hq', ← allowed_after_wait hdenied hw ho]
    exact (honest _ hretry [] q' hw).1 hq'
  · intro hlt seconds hseconds ms q' hw
    rw [hretry] at hseconds
    cases hseconds
    refine ⟨fun hq' => (allowed_after_wait hdenied hw ho).2 (by omega), fun k _ hbefore => ?_⟩
    rw [← Bool.not_eq_true, allowed_after_wait hdenied hw ho]
    omega

end

/-- A denied request that is told the truth: a limit of one in a minute, and a repetition half a
second past the half minute. -/
theorem retry_honest_off_the_second :
    1 ≤ (⟨60000, 1⟩ : RateLimitConfig).maxRequests ∧ InOrder [⟨1000, "a"⟩, ⟨31500, "b"⟩] ∧
      (answer ⟨60000, 1⟩ [⟨1000, "a"⟩] ⟨31500, "b"⟩).allowed = false ∧
      HonestRetry ⟨60000, 1⟩ [⟨1000, "a"⟩] ⟨31500, "b"⟩ := by
  have hin : InOrder ([⟨1000, "a"⟩] ++ [⟨31500, "b"⟩]) := ⟨by decide, by decide⟩
  have hoff : NotOnTheSecond ⟨60000, 1⟩ [⟨1000, "a"⟩] 31500 := by
    intro o ho
    have h1000 : oldestIn ⟨60000, 1⟩ [⟨1000, "a"⟩] 31500 = some 1000 := by decide
    rw [h1000] at ho
    cases ho
    decide
  exact ⟨by decide, hin, by decide,
    (honestRetry_iff (by decide) hin (by decide)).2 hoff⟩

/-- A request denied half a minute after the only allowed one of a minute is told to wait thirty
seconds, and is denied again then. -/
theorem retry_denied_on_the_second :
    ¬ ∀ (cfg : RateLimitConfig) (rs : List Request) (q : Request), 1 ≤ cfg.maxRequests →
      InOrder (rs ++ [q]) → (answer cfg rs q).allowed = false → HonestRetry cfg rs q := by
  intro h
  have hw : Waited ⟨60000, 1⟩ [⟨1000, "a"⟩] ⟨31000, "b"⟩ [] ⟨61000, "c"⟩ :=
    ⟨⟨by decide, by decide⟩, fun ms₁ m ms₂ hms => absurd hms.symm (by simp)⟩
  have honest := h ⟨60000, 1⟩ [⟨1000, "a"⟩] ⟨31000, "b"⟩ (by decide) ⟨by decide, by decide⟩
    (by decide) 30 (by decide) [] ⟨61000, "c"⟩ hw
  exact absurd (honest.1 (by decide)) (by decide)

end RateLimiter

end InvoiceFi
