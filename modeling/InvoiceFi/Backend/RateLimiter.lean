import InvoiceFi.Backend.Runtime
import InvoiceFi.Lib.SlidingWindow
import Mathlib.Algebra.Order.Group.Int

/-!
# The rate limiter (`backend/src/common/rate-limiter.service.ts`)

A check of a limit is one Redis script over the sorted set of one key: it drops the entries that
have left the window, counts those that are in it, and adds one for the request if there is room.
The bounds are off by one from each other on purpose: what is dropped ends at `windowStart - 1`,
and what is counted begins at `windowStart`.

`verdict` says the same without the set: the answer to a request from the times of all requests
admitted so far. The set holds the part of these that can still matter (`Tracks`), whatever has
been dropped from it, by the script or because the key expired, so every check answers with the
verdict (`history_eq_verdicts`). What follows is about the times alone (`Lib.SlidingWindow`).
-/

namespace InvoiceFi

namespace RateLimiter

open SlidingWindow Backend

/-- `RateLimitConfig`, without the prefix of the key: the sets of different keys are apart. -/
structure RateLimitConfig where
  windowMs : ℕ
  maxRequests : ℕ
  deriving DecidableEq, Repr

/-- `RateLimitResult`. -/
structure RateLimitResult where
  allowed : Bool
  current : ℤ
  limit : ℕ
  resetAt : ℤ
  retryAfter : Option ℤ
  deriving DecidableEq, Repr

/-- A request: the time of the check, by `Date.now()`, and the random suffix of its member. -/
structure Request where
  now : ℤ
  suffix : String
  deriving DecidableEq, Repr

/-- The member that the request reserves. -/
def Request.member (r : Request) : String := s!"{r.now}-{r.suffix}"

/-! ## The sorted set of a key -/

/-- An entry of a sorted set. -/
structure Entry where
  member : String
  score : ℤ
  deriving DecidableEq, Repr

/-- What Redis holds under a key: the entries, in the order they were added, and the time at which
the key expires. A key without entries is no key. -/
structure SortedSet where
  entries : List Entry
  expireAt : Option ℤ
  deriving DecidableEq, Repr

namespace SortedSet

/-- No key. -/
def empty : SortedSet := ⟨[], none⟩

/-- The scores. -/
def scores (z : SortedSet) : List ℤ := z.entries.map Entry.score

/-- The key as a command at `now` finds it: it is gone from the time it expires. -/
def live (now : ℤ) (z : SortedSet) : SortedSet :=
  match z.expireAt with
  | some at_ => if at_ ≤ now then empty else z
  | none => z

/-- The key of a store that forgets to expire it. -/
def kept (_ : ℤ) (z : SortedSet) : SortedSet := z

/-- `ZREMRANGEBYSCORE key -inf max`. -/
def zremrangebyscore (z : SortedSet) (max : ℤ) : SortedSet :=
  { z with entries := z.entries.filter fun e => max < e.score }

/-- `ZCOUNT key min max`. -/
def zcount (z : SortedSet) (min max : ℤ) : ℕ := (between min max z.scores).length

/-- `ZADD key score member`: a member that is there gets the new score. -/
def zadd (z : SortedSet) (score : ℤ) (member : String) : SortedSet :=
  if member ∈ z.entries.map Entry.member then
    { z with entries := z.entries.map fun e => if e.member = member then ⟨member, score⟩ else e }
  else { z with entries := z.entries ++ [⟨member, score⟩] }

/-- `EXPIRE key seconds` at `now`. -/
def expire (z : SortedSet) (now seconds : ℤ) : SortedSet :=
  { z with expireAt := some (now + 1000 * seconds) }

/-- The score of `ZRANGE key 0 0 WITHSCORES`, the lowest, if the key has an entry. -/
def lowestScore (z : SortedSet) : Option ℤ := z.scores.min?

end SortedSet

/-! ## The check -/

/-- The table that the script returns. -/
structure Reply where
  admitted : ℤ
  current : ℤ
  reset : ℤ
  denied : ℤ
  deriving DecidableEq, Repr

/-- `SLIDING_WINDOW_SCRIPT`, where `clock` is the time of Redis, from which a key expires. -/
def slidingWindowScript (z : SortedSet) (clock now windowMs maxRequests ttlSeconds : ℤ)
    (member : String) : Reply × SortedSet :=
  let windowStart := now - windowMs
  let z := z.zremrangebyscore (windowStart - 1)
  let current := z.zcount windowStart now
  if current < maxRequests then
    (⟨1, current + 1, now + windowMs, 0⟩, (z.zadd now member).expire clock ttlSeconds)
  else
    let oldestScore := z.lowestScore.getD now
    (⟨0, current, oldestScore + windowMs, 1⟩, z)

/-- `Math.ceil(ms / 1000)`. -/
def ceilSeconds (ms : ℤ) : ℤ := (ms + 999) / 1000

/-- What `checkLimit` returns of a reply. -/
def ofReply (cfg : RateLimitConfig) (now : ℤ) (reply : Reply) : RateLimitResult where
  allowed := reply.admitted = 1
  current := reply.current
  limit := cfg.maxRequests
  resetAt := reply.reset
  retryAfter :=
    if reply.admitted = 1 then none else some (max 1 (ceilSeconds (reply.reset - now)))

/-- What `checkLimit` returns when Redis throws: it fails open. -/
def failOpen (cfg : RateLimitConfig) (now : ℤ) : RateLimitResult :=
  ⟨true, 0, cfg.maxRequests, now, none⟩

/-- `checkLimit` on the set of its key, in a store that finds the key as `find` says, with a script
that runs when the clock of the store is at `clock`. -/
def checkLimitAt (find : ℤ → SortedSet → SortedSet) (cfg : RateLimitConfig) (f : Fault) (clock : ℤ)
    (r : Request) (z : SortedSet) : RateLimitResult × SortedSet :=
  let ttl := ceilSeconds cfg.windowMs + 1
  let (reply, z') :=
    slidingWindowScript (find clock z) clock r.now cfg.windowMs cfg.maxRequests ttl r.member
  match f with
  | .none => (ofReply cfg r.now reply, z')
  | .failed => (failOpen cfg r.now, z)
  | .lost => (failOpen cfg r.now, z')

/-- `checkLimit` with a script that runs at once, on the clock of the request. -/
def checkLimit (find : ℤ → SortedSet → SortedSet) (cfg : RateLimitConfig) (f : Fault)
    (r : Request) (z : SortedSet) : RateLimitResult × SortedSet :=
  checkLimitAt find cfg f r.now r z

/-! ## Runs -/

section
variable (find : ℤ → SortedSet → SortedSet) (cfg : RateLimitConfig)

/-- The set of the key after requests whose scripts all run. -/
def keyAfter (z : SortedSet) (rs : List Request) : SortedSet :=
  rs.foldl (fun z r => (checkLimit find cfg .none r z).2) z

/-- The requests with their results. -/
def history (z : SortedSet) : List Request → List (Request × RateLimitResult)
  | [] => []
  | r :: rs =>
    (r, (checkLimit find cfg .none r z).1) :: history (checkLimit find cfg .none r z).2 rs

end

/-- The times of the requests that a history allowed. -/
def allowedTimes (h : List (Request × RateLimitResult)) : List ℤ :=
  (h.filter fun x => x.2.allowed).map fun x => x.1.now

/-- Requests of one key: the times never go back, and no two reserve the same member. -/
structure InOrder (rs : List Request) : Prop where
  sorted : (rs.map Request.now).Pairwise (· ≤ ·)
  distinct : (rs.map Request.member).Nodup

/-! ## The verdict -/

/-- The answer to a request at `now`, from the times of the requests admitted so far. -/
def verdict (cfg : RateLimitConfig) (admitted : List ℤ) (now : ℤ) : RateLimitResult :=
  let window := between (now - cfg.windowMs) now admitted
  if window.length < cfg.maxRequests then
    ⟨true, window.length + 1, cfg.maxRequests, now + cfg.windowMs, none⟩
  else
    let resetAt := window.min?.getD now + cfg.windowMs
    ⟨false, window.length, cfg.maxRequests, resetAt, some (max 1 (ceilSeconds (resetAt - now)))⟩

/-- The verdicts on requests that follow the admissions `admitted`. -/
def verdicts (cfg : RateLimitConfig) (admitted : List ℤ) :
    List Request → List (Request × RateLimitResult)
  | [] => []
  | r :: rs => (r, verdict cfg admitted r.now) ::
      verdicts cfg (request (cfg.windowMs : ℤ) cfg.maxRequests admitted r.now) rs

/-- The admissions are the requests that the verdicts allow. -/
theorem allowedTimes_verdicts (cfg : RateLimitConfig) (admitted : List ℤ) (rs : List Request) :
    (rs.map Request.now).foldl (request (cfg.windowMs : ℤ) cfg.maxRequests) admitted =
      admitted ++ allowedTimes (verdicts cfg admitted rs) := by
  induction rs generalizing admitted with
  | nil => exact (List.append_nil _).symm
  | cons r rs ih =>
    rw [List.map_cons, List.foldl_cons, ih]
    by_cases h : (between (r.now - cfg.windowMs) r.now admitted).length < cfg.maxRequests
    · simp [verdicts, verdict, allowedTimes, request, h]
    · simp [verdicts, verdict, allowedTimes, request, h]

/-! ## The set holds what matters -/

/-- A store may lose a key only when it has expired. -/
def Finds (find : ℤ → SortedSet → SortedSet) : Prop :=
  ∀ now z, find now z = z ∨ find now z = .empty ∧ ∃ x, z.expireAt = some x ∧ x ≤ now

theorem finds_live : Finds SortedSet.live := by
  intro now z
  rw [SortedSet.live]
  split
  · next x hx =>
    split
    · next hle => exact .inr ⟨rfl, x, hx, hle⟩
    · exact .inl rfl
  · exact .inl rfl

theorem finds_kept : Finds SortedSet.kept := fun _ _ => .inl rfl

/-- The set `z` tracks the admissions up to the time `t`: it has the same entries in the window at
`t`, its members are those reserved before, and it expires after the last window that holds one of
its entries. -/
structure Tracks (cfg : RateLimitConfig) (t : ℤ) (members : List String) (admitted : List ℤ)
    (z : SortedSet) : Prop where
  held : between (t - cfg.windowMs) t z.scores = between (t - cfg.windowMs) t admitted
  admitted_le : ∀ x ∈ admitted, x ≤ t
  scores_le : ∀ x ∈ z.scores, x ≤ t
  reserved : ∀ e ∈ z.entries, e.member ∈ members
  lasting : ∀ x, z.expireAt = some x → ∀ s ∈ z.scores, s + cfg.windowMs < x

section
variable {cfg : RateLimitConfig} {t : ℤ} {members : List String} {admitted : List ℤ}
  {z : SortedSet}

/-- Before the first request the set is empty. -/
theorem Tracks.start (cfg : RateLimitConfig) (t : ℤ) : Tracks cfg t [] [] .empty :=
  ⟨rfl, List.forall_mem_nil _, List.forall_mem_nil _, List.forall_mem_nil _, nofun⟩

/-- Time passes. -/
theorem Tracks.mono (h : Tracks cfg t members admitted z) {t' : ℤ} (ht : t ≤ t') :
    Tracks cfg t' members admitted z := by
  refine ⟨?_, fun x hx => (h.admitted_le x hx).trans ht, fun x hx => (h.scores_le x hx).trans ht,
    h.reserved, h.lasting⟩
  rw [between_later h.scores_le ht, between_later h.admitted_le ht, h.held]

/-- The key is found, or it has expired with all its entries out of the window. -/
theorem Tracks.find {find : ℤ → SortedSet → SortedSet} (hfind : Finds find)
    (h : Tracks cfg t members admitted z) : Tracks cfg t members admitted (find t z) := by
  rcases hfind t z with heq | ⟨heq, x, hx, hxt⟩
  · rw [heq]
    exact h
  · have hgone : between (t - cfg.windowMs) t z.scores = [] := by
      refine List.filter_eq_nil_iff.2 fun s hs hw => ?_
      have := h.lasting x hx s hs
      have := (of_decide_eq_true hw).1
      omega
    rw [heq]
    exact ⟨hgone.symm.trans h.held, h.admitted_le, List.forall_mem_nil _, List.forall_mem_nil _,
      nofun⟩

/-- What is left after the script has dropped the past is the window. -/
theorem Tracks.scores_prune (h : Tracks cfg t members admitted z) :
    (z.zremrangebyscore (t - cfg.windowMs - 1)).scores =
      between (t - cfg.windowMs) t admitted := by
  have hfilter : (z.zremrangebyscore (t - cfg.windowMs - 1)).scores =
      z.scores.filter fun x => t - cfg.windowMs - 1 < x :=
    (List.filter_map (p := fun x => decide (t - cfg.windowMs - 1 < x))).symm
  rw [hfilter, ← h.held]
  refine List.filter_congr fun x hx => decide_eq_decide.2 ?_
  have := h.scores_le x hx
  omega

/-- Dropping the past keeps track. -/
theorem Tracks.prune (h : Tracks cfg t members admitted z) :
    Tracks cfg t members admitted (z.zremrangebyscore (t - cfg.windowMs - 1)) := by
  have hsub : ∀ e ∈ (z.zremrangebyscore (t - cfg.windowMs - 1)).entries, e ∈ z.entries :=
    fun e he => (List.mem_filter.1 he).1
  refine ⟨?_, h.admitted_le, fun x hx => ?_, fun e he => h.reserved e (hsub e he),
    fun x hx s hs => ?_⟩
  · rw [h.scores_prune, between_between]
  · obtain ⟨e, he, rfl⟩ := List.mem_map.1 hx
    exact h.scores_le _ (List.mem_map_of_mem (hsub e he))
  · obtain ⟨e, he, rfl⟩ := List.mem_map.1 hs
    exact h.lasting x hx _ (List.mem_map_of_mem (hsub e he))

/-- A new member is added at the end. -/
theorem zadd_of_notMem {member : String} (hm : member ∉ z.entries.map Entry.member) (score : ℤ) :
    z.zadd score member = { z with entries := z.entries ++ [⟨member, score⟩] } := by
  rw [SortedSet.zadd, if_neg hm]

/-- An admission is added, and the key expires after every window that holds it. -/
theorem Tracks.zadd (h : Tracks cfg t members admitted z) {member : String}
    (hm : member ∉ members) :
    Tracks cfg t (members ++ [member]) (admitted ++ [t])
      ((z.zadd t member).expire t (ceilSeconds cfg.windowMs + 1)) := by
  have hnew : member ∉ z.entries.map Entry.member := by
    rintro hmem
    obtain ⟨e, he, rfl⟩ := List.mem_map.1 hmem
    exact hm (h.reserved e he)
  have hscores : ((z.zadd t member).expire t (ceilSeconds cfg.windowMs + 1)).scores =
      z.scores ++ [t] := by
    rw [zadd_of_notMem hnew]
    exact List.map_append
  have hle : ∀ l : List ℤ, (∀ x ∈ l, x ≤ t) → ∀ x ∈ l ++ [t], x ≤ t := by
    intro l hl x hx
    rcases List.mem_append.1 hx with hx | hx
    · exact hl x hx
    · exact (List.mem_singleton.1 hx).le
  refine ⟨?_, hle _ h.admitted_le, hscores ▸ hle _ h.scores_le, fun e he => ?_, fun x hx s hs => ?_⟩
  · rw [hscores, between_append, between_append, h.held]
  · rw [zadd_of_notMem hnew] at he
    rcases List.mem_append.1 he with he | he
    · exact List.mem_append_left _ (h.reserved e he)
    · rw [List.mem_singleton.1 he]
      exact List.mem_append_right _ (List.mem_singleton_self _)
  · cases hx
    have := hle _ h.scores_le s (hscores ▸ hs)
    simp only [ceilSeconds]
    omega

/-- Another member may be reserved. -/
theorem Tracks.reserve (h : Tracks cfg t members admitted z) (member : String) :
    Tracks cfg t (members ++ [member]) admitted z :=
  ⟨h.held, h.admitted_le, h.scores_le, fun e he => List.mem_append_left _ (h.reserved e he),
    h.lasting⟩

/-- **A check answers with the verdict**, and the set tracks the admissions after it. -/
theorem Tracks.check {find : ℤ → SortedSet → SortedSet} (hfind : Finds find) {r : Request}
    (h : Tracks cfg r.now members admitted z) (hm : r.member ∉ members) :
    (checkLimit find cfg .none r z).1 = verdict cfg admitted r.now ∧
      Tracks cfg r.now (members ++ [r.member])
        (request (cfg.windowMs : ℤ) cfg.maxRequests admitted r.now)
        (checkLimit find cfg .none r z).2 := by
  have hpruned := (h.find hfind).prune
  have hscores := (h.find hfind).scores_prune
  have hcount : ((find r.now z).zremrangebyscore (r.now - cfg.windowMs - 1)).zcount
      (r.now - cfg.windowMs) r.now =
        (between (r.now - cfg.windowMs) r.now admitted).length := by
    rw [SortedSet.zcount, hscores, between_between]
  by_cases hroom : (between (r.now - cfg.windowMs) r.now admitted).length < cfg.maxRequests
  · have hroom' : ((between (r.now - cfg.windowMs) r.now admitted).length : ℤ) <
        (cfg.maxRequests : ℤ) := Int.ofNat_lt.2 hroom
    simp only [checkLimit, checkLimitAt, slidingWindowScript, hcount, hroom', if_true, ofReply,
      verdict, hroom, request, decide_true]
    exact ⟨trivial, hpruned.zadd hm⟩
  · have hroom' : ¬ ((between (r.now - cfg.windowMs) r.now admitted).length : ℤ) <
        (cfg.maxRequests : ℤ) := fun hlt => hroom (Int.ofNat_lt.1 hlt)
    simp only [checkLimit, checkLimitAt, slidingWindowScript, hcount, hroom', if_false, ofReply,
      verdict, hroom, request, SortedSet.lowestScore, hscores]
    exact ⟨by simp, hpruned.reserve r.member⟩

/-- A run of requests in order answers with the verdicts, and the set tracks the admissions after
it. -/
theorem Tracks.run {find : ℤ → SortedSet → SortedSet} (hfind : Finds find) {rs : List Request}
    (h : Tracks cfg t members admitted z) (ht : ∀ r ∈ rs, t ≤ r.now)
    (hsorted : (rs.map Request.now).Pairwise (· ≤ ·))
    (hdistinct : (members ++ rs.map Request.member).Nodup) :
    history find cfg z rs = verdicts cfg admitted rs ∧
      ∀ u, t ≤ u → (∀ r ∈ rs, r.now ≤ u) →
        Tracks cfg u (members ++ rs.map Request.member)
          ((rs.map Request.now).foldl (request (cfg.windowMs : ℤ) cfg.maxRequests) admitted)
          (keyAfter find cfg z rs) := by
  induction rs generalizing t members admitted z with
  | nil =>
    refine ⟨rfl, fun u hu _ => ?_⟩
    rw [List.map_nil, List.append_nil]
    exact h.mono hu
  | cons r rs ih =>
    obtain ⟨hfirst, hsorted⟩ := List.pairwise_cons.1 hsorted
    have hm : r.member ∉ members := fun hmem =>
      (List.nodup_append.1 hdistinct).2.2 _ hmem _ (.head _) rfl
    obtain ⟨hanswer, htracks⟩ := (h.mono (ht r (.head _))).check hfind hm
    rw [List.map_cons, List.append_cons] at hdistinct
    obtain ⟨hhistory, hafter⟩ := ih htracks
      (fun p hp => hfirst _ (List.mem_map_of_mem hp)) hsorted hdistinct
    refine ⟨?_, fun u _ hu => ?_⟩
    · rw [history, verdicts, hhistory, hanswer]
    · rw [List.map_cons, List.append_cons]
      exact hafter u (hu r (.head _)) fun p hp => hu p (.tail _ hp)

end

/-! ## Ordered runs from an empty key -/

section
variable {find : ℤ → SortedSet → SortedSet} {rs rs₁ rs₂ : List Request} {r : Request}

/-- A part of requests in order is in order. -/
theorem InOrder.sublist (h : InOrder rs) (hsub : rs₁.Sublist rs) : InOrder rs₁ :=
  ⟨h.sorted.sublist (hsub.map _), h.distinct.sublist (hsub.map _)⟩

/-- In a run in order a request is no earlier than those before it and no later than those after
it. -/
theorem InOrder.at_request (h : InOrder (rs₁ ++ r :: rs₂)) :
    (∀ p ∈ rs₁, p.now ≤ r.now) ∧ ∀ p ∈ rs₂, r.now ≤ p.now := by
  have hsorted := h.sorted
  rw [List.map_append, List.map_cons] at hsorted
  obtain ⟨-, hr, hcross⟩ := List.pairwise_append.1 hsorted
  exact ⟨fun p hp => hcross _ (List.mem_map_of_mem hp) _ (.head _),
    fun p hp => (List.pairwise_cons.1 hr).1 _ (List.mem_map_of_mem hp)⟩

/-- The run up to the request is in order. -/
theorem InOrder.through_request (h : InOrder (rs₁ ++ r :: rs₂)) : InOrder (rs₁ ++ [r]) :=
  h.sublist ((List.Sublist.refl rs₁).append (List.singleton_sublist.2 (.head _)))

/-- Its member is new. -/
theorem InOrder.member_notMem (h : InOrder (rs₁ ++ r :: rs₂)) :
    r.member ∉ rs₁.map Request.member := by
  have hdistinct := h.distinct
  rw [List.map_append] at hdistinct
  exact fun hmem => (List.nodup_append.1 hdistinct).2.2 _ hmem _ (.head _) rfl

/-- Requests in order have a first time. -/
theorem InOrder.exists_start (h : InOrder rs) : ∃ t, ∀ r ∈ rs, t ≤ r.now := by
  cases rs with
  | nil => exact ⟨0, List.forall_mem_nil _⟩
  | cons p rs =>
    have hfirst : InOrder ([] ++ p :: rs) := h
    refine ⟨p.now, fun r hr => ?_⟩
    rcases List.mem_cons.1 hr with rfl | hr
    · exact le_rfl
    · exact hfirst.at_request.2 r hr

/-- The run from an empty key. -/
theorem InOrder.run (hfind : Finds find) (cfg : RateLimitConfig) (h : InOrder rs) :
    history find cfg .empty rs = verdicts cfg [] rs ∧
      ∀ u, (∀ r ∈ rs, r.now ≤ u) →
        Tracks cfg u (rs.map Request.member)
          (admissions (cfg.windowMs : ℤ) cfg.maxRequests (rs.map Request.now))
          (keyAfter find cfg .empty rs) := by
  obtain ⟨t, ht⟩ := h.exists_start
  refine ⟨((Tracks.start cfg t).run hfind ht h.sorted h.distinct).1, fun u hu => ?_⟩
  have hmin : ∀ r ∈ rs, min t u ≤ r.now := fun r hr => (min_le_left t u).trans (ht r hr)
  exact ((Tracks.start cfg (min t u)).run hfind hmin h.sorted h.distinct).2 u (min_le_right t u) hu

/-- The requests allowed in a run in order are the admissions of a sliding window. -/
theorem InOrder.allowedTimes_eq (hfind : Finds find) (cfg : RateLimitConfig) (h : InOrder rs) :
    allowedTimes (history find cfg .empty rs) =
      admissions (cfg.windowMs : ℤ) cfg.maxRequests (rs.map Request.now) := by
  rw [(h.run hfind cfg).1, admissions, allowedTimes_verdicts, List.nil_append]

end

/-! ## The limit -/

/-- The answer to a request that follows the requests `rs`. -/
def answer (cfg : RateLimitConfig) (rs : List Request) (r : Request) : RateLimitResult :=
  (checkLimit .live cfg .none r (keyAfter .live cfg .empty rs)).1

/-- The times of the allowed ones of the requests `rs`. -/
def allowedBy (cfg : RateLimitConfig) (rs : List Request) : List ℤ :=
  allowedTimes (history .live cfg .empty rs)

/-- The answer to a request of a run in order is the verdict on the requests allowed before. -/
theorem InOrder.answer_eq {cfg : RateLimitConfig} {rs₁ rs₂ : List Request} {r : Request}
    (h : InOrder (rs₁ ++ r :: rs₂)) : answer cfg rs₁ r = verdict cfg (allowedBy cfg rs₁) r.now := by
  have hrs₁ : InOrder rs₁ := h.sublist (List.sublist_append_left ..)
  have htracks := (hrs₁.run finds_live cfg).2 r.now h.at_request.1
  rw [allowedBy, hrs₁.allowedTimes_eq finds_live]
  exact (htracks.check finds_live h.member_notMem).1

/-- What follows a part of a run in order is the verdicts on what that part allowed. -/
theorem InOrder.history_after {cfg : RateLimitConfig} {ps rs : List Request} {u : ℤ}
    (h : InOrder (ps ++ rs)) (hps : ∀ p ∈ ps, p.now ≤ u) (hrs : ∀ r ∈ rs, u ≤ r.now) :
    history .live cfg (keyAfter .live cfg .empty ps) rs = verdicts cfg (allowedBy cfg ps) rs := by
  have hfirst : InOrder ps := h.sublist (List.sublist_append_left ..)
  have hrest : InOrder rs := h.sublist (List.sublist_append_right ..)
  have hdistinct := h.distinct
  rw [List.map_append] at hdistinct
  rw [allowedBy, hfirst.allowedTimes_eq finds_live]
  exact (((hfirst.run finds_live cfg).2 u hps).run finds_live hrs hrest.sorted hdistinct).1

/-- An allowed request is admitted, and a denied one is not. -/
theorem InOrder.allowedBy_concat {cfg : RateLimitConfig} {rs : List Request} {r : Request}
    (h : InOrder (rs ++ [r])) :
    allowedBy cfg (rs ++ [r]) =
      request (cfg.windowMs : ℤ) cfg.maxRequests (allowedBy cfg rs) r.now := by
  have hrs : InOrder rs := h.sublist (List.sublist_append_left ..)
  rw [allowedBy, allowedBy, h.allowedTimes_eq finds_live, hrs.allowedTimes_eq finds_live,
    List.map_append, List.map_singleton, admissions_concat]

/-- The verdict by the room in the window. -/
theorem verdict_eq (cfg : RateLimitConfig) (admitted : List ℤ) (now : ℤ) :
    ((verdict cfg admitted now).allowed = true ↔
      (between (now - cfg.windowMs) now admitted).length < cfg.maxRequests) ∧
    (verdict cfg admitted now).current =
      (between (now - cfg.windowMs) now
        (request (cfg.windowMs : ℤ) cfg.maxRequests admitted now)).length := by
  by_cases h : (between (now - cfg.windowMs) now admitted).length < cfg.maxRequests
  · have hone : between (now - cfg.windowMs) now [now] = [now] := by simp [between]
    simp [verdict, request, h, between_append, hone]
  · simp [verdict, request, h]

/-- A run of requests of one key keeps its limit.

* `bound`: no closed window of the configured length, wherever it lies, holds more than
  `maxRequests` allowed requests.
* `denied`: a request is denied exactly when that many lie in the window that ends at it.
* `counted`: the count it is told is that of the allowed requests in that window, itself included
  when it is allowed.
* `unaffected`: what follows a denied request is as it would be without it.
* `expiry`: every request fares as on a store that never expires the key. -/
structure WindowKept (cfg : RateLimitConfig) (rs : List Request) : Prop where
  bound : ∀ t : ℤ, (between t (t + cfg.windowMs) (allowedBy cfg rs)).length ≤ cfg.maxRequests
  denied : ∀ rs₁ r rs₂, rs = rs₁ ++ r :: rs₂ → ((answer cfg rs₁ r).allowed = false ↔
    (between (r.now - cfg.windowMs) r.now (allowedBy cfg rs₁)).length = cfg.maxRequests)
  counted : ∀ rs₁ r rs₂, rs = rs₁ ++ r :: rs₂ → (answer cfg rs₁ r).current =
    (between (r.now - cfg.windowMs) r.now (allowedBy cfg (rs₁ ++ [r]))).length
  unaffected : ∀ rs₁ r rs₂, rs = rs₁ ++ r :: rs₂ → (answer cfg rs₁ r).allowed = false →
    history .live cfg (keyAfter .live cfg .empty (rs₁ ++ [r])) rs₂ =
      history .live cfg (keyAfter .live cfg .empty rs₁) rs₂
  expiry : history .live cfg .empty rs = history .kept cfg .empty rs

/-- **The sliding window keeps its limit**, for every window length and limit and every run of
requests in order. -/
theorem window_kept (cfg : RateLimitConfig) {rs : List Request} (h : InOrder rs) :
    WindowKept cfg rs := by
  have hbound : ∀ {ps : List Request}, InOrder ps → ∀ t : ℤ,
      (between t (t + cfg.windowMs) (allowedBy cfg ps)).length ≤ cfg.maxRequests := by
    intro ps hps t
    rw [allowedBy, hps.allowedTimes_eq finds_live]
    exact between_admissions_le hps.sorted t
  constructor
  case bound => exact hbound h
  case denied =>
    rintro rs₁ r rs₂ rfl
    have hle := hbound (h.sublist (List.sublist_append_left ..)) (r.now - cfg.windowMs)
    rw [Int.sub_add_cancel] at hle
    rw [h.answer_eq, ← Bool.not_eq_true, (verdict_eq cfg _ _).1]
    omega
  case counted =>
    rintro rs₁ r rs₂ rfl
    rw [h.answer_eq, (h.through_request).allowedBy_concat]
    exact (verdict_eq cfg _ _).2
  case unaffected =>
    rintro rs₁ r rs₂ rfl hdenied
    obtain ⟨hbefore, hafter⟩ := h.at_request
    have hsame : allowedBy cfg (rs₁ ++ [r]) = allowedBy cfg rs₁ := by
      rw [h.answer_eq, ← Bool.not_eq_true, (verdict_eq cfg _ _).1] at hdenied
      rw [(h.through_request).allowedBy_concat, request, if_neg hdenied]
    have hwith : InOrder (rs₁ ++ [r] ++ rs₂) := by rwa [List.append_assoc]
    have hwithout : InOrder (rs₁ ++ rs₂) :=
      h.sublist ((List.Sublist.refl rs₁).append (List.sublist_cons_self r rs₂))
    have hupto : ∀ p ∈ rs₁ ++ [r], p.now ≤ r.now := by
      intro p hp
      rcases List.mem_append.1 hp with hp | hp
      · exact hbefore p hp
      · rw [List.mem_singleton.1 hp]
    rw [hwith.history_after hupto hafter, hwithout.history_after hbefore hafter, hsame]
  case expiry => rw [(h.run finds_live cfg).1, (h.run finds_kept cfg).1]

/-- Three requests against a limit of two in a window of one second: the third is denied. -/
theorem window_kept_burst :
    InOrder [⟨1000, "a"⟩, ⟨1000, "b"⟩, ⟨2000, "c"⟩] ∧
      WindowKept ⟨1000, 2⟩ [⟨1000, "a"⟩, ⟨1000, "b"⟩, ⟨2000, "c"⟩] ∧
      (answer ⟨1000, 2⟩ [⟨1000, "a"⟩, ⟨1000, "b"⟩] ⟨2000, "c"⟩).allowed = false := by
  have hin : InOrder [⟨1000, "a"⟩, ⟨1000, "b"⟩, ⟨2000, "c"⟩] := ⟨by decide, by decide⟩
  exact ⟨hin, window_kept _ hin, by decide⟩

end RateLimiter

end InvoiceFi
