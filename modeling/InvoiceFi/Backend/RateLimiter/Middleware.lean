import InvoiceFi.Backend.Compliance.Exports
import InvoiceFi.Backend.RateLimiter
import InvoiceFi.Lib.Async
import Mathlib.Data.Finset.Card

/-!
# The limits of the API (`common/rate-limit.middleware.ts`, `common/rate-limiter.service.ts`)

Every request passes the middleware, which checks the limit of its user, or of its address if it
has no user, and, where it is about to move money, that of its wallet. The requests are programs
over the checks they await, and the checks of different requests are interleaved in any way; the
sets of all identities are kept in one store, under keys made of a prefix and the identity.

No two identities share a key (`key_injective`), so what a request is told depends on the checks of
its own identities only. A script runs some time after the request has read its clock, and the key
expires on the clock of Redis: a script that is late by a second more than the one before it finds
the key gone while the window is still open. Short of that the set has the entries of one that never
expires (`Mirrors`). `identities_limited` is the result for one identity: as long as its checks are
`Timely`, no window holds more of its requests that are let through than its limit, and a check
denies only when the window is full.

The verification of a token is a parameter. The store also holds what no request reads: all checks
with the requests that made them.
-/

namespace InvoiceFi

namespace RateLimiter

open SlidingWindow Backend

/-! ## Requests -/

/-- `RateLimitType`. -/
inductive RateLimitType where
  | ip
  | user
  | wallet
  | operation
  deriving DecidableEq, Repr

/-- The name of a type, capitalized. -/
def RateLimitType.capitalize : RateLimitType → String
  | .ip => "Ip"
  | .user => "User"
  | .wallet => "Wallet"
  | .operation => "Operation"

/-- The `keyPrefix` of the configurations. -/
def RateLimitType.keyPrefix : RateLimitType → String
  | .ip => "rl:ip:"
  | .user => "rl:user:"
  | .wallet => "rl:wallet:"
  | .operation => "rl:op:"

/-- The key of an identity. -/
def key (type : RateLimitType) (identifier : String) : String := type.keyPrefix ++ identifier

/-- `AuthenticatedRequestUser`. -/
structure AuthenticatedRequestUser where
  userId : Option String
  walletAddress : Option String
  deriving DecidableEq

/-- `JwtRateLimitPayload`. -/
structure JwtRateLimitPayload where
  sub : Option String
  walletAddress : Option String

/-- What the middleware reads of a request. A header that is no text counts as none. -/
structure HttpRequest where
  method : String
  path : String
  forwardedFor : Option String
  authorization : Option String
  remoteAddress : Option String
  userId : Option String
  walletAddress : Option String
  user : Option AuthenticatedRequestUser
  deriving DecidableEq

/-- `RateLimitMiddleware`: whether it is enabled, the configurations, and what the services for
tokens, if they are there, make of a token, which is nothing if it is not valid. -/
structure RateLimitMiddleware where
  enableRateLimit : Bool
  config : RateLimitType → RateLimitConfig
  verify : Option (String → Option JwtRateLimitPayload)

/-- A text that counts as true. -/
def truthy (text : Option String) : Option String := text.filter fun text => text ≠ ""

/-- `getClientIp`. -/
def getClientIp (req : HttpRequest) : String :=
  match req.forwardedFor with
  | some forwarded =>
    String.ofList (Compliance.trim (forwarded.toList.takeWhile fun c => c ≠ ','))
  | none => (truthy req.remoteAddress).getD "unknown"

/-- `getBearerToken`. No character outside ASCII has a letter of `bearer` as its lower case. -/
def getBearerToken (req : HttpRequest) : Option String := do
  let authorization ← req.authorization
  match authorization.toList.splitOn ' ' with
  | scheme :: token :: _ =>
    if (String.ofList scheme).toLower = "bearer" then truthy (some (String.ofList token)) else none
  | _ => none

/-- The claims of the token, if one of the two is not known without it. -/
def tokenClaims (mw : RateLimitMiddleware) (req : HttpRequest)
    (known : AuthenticatedRequestUser) : Option JwtRateLimitPayload := do
  let token ← getBearerToken req
  let verify ← mw.verify
  if (truthy known.userId).isSome ∧ (truthy known.walletAddress).isSome then none
  else verify token

/-- `resolveIdentity`. -/
def resolveIdentity (mw : RateLimitMiddleware) (req : HttpRequest) : AuthenticatedRequestUser :=
  let known : AuthenticatedRequestUser :=
    { userId := req.userId.or (req.user.bind AuthenticatedRequestUser.userId)
      walletAddress :=
        req.walletAddress.or (req.user.bind AuthenticatedRequestUser.walletAddress) }
  match tokenClaims mw req known with
  | none => known
  | some payload =>
    { userId := known.userId.or payload.sub
      walletAddress := known.walletAddress.or payload.walletAddress }

/-- `WALLET_ENDPOINTS`. -/
def walletEndpoints : List (String × String) :=
  [("POST", "/financing-pool/fund"), ("POST", "/settlement/settle")]

/-- `path.replace(/^\/api(?=\/|$)/, '')`. -/
def withoutApi (path : List Char) : List Char :=
  match path with
  | '/' :: 'a' :: 'p' :: 'i' :: rest =>
    if rest = [] ∨ rest.head? = some '/' then rest else path
  | _ => path

/-- `isWalletEndpoint`. -/
def isWalletEndpoint (req : HttpRequest) : Bool :=
  walletEndpoints.any fun (method, path) =>
    method = req.method &&
      (withoutApi req.path.toList = path.toList ||
        (path.toList ++ ['/']).isPrefixOf (withoutApi req.path.toList))

/-- A counter that a request counts under: its type, the identity, and the name by which a rejected
request is told of it. -/
structure Tier where
  type : RateLimitType
  identifier : String
  name : String
  deriving DecidableEq

/-- The counters of a request, in the order they are checked. -/
def tiers (mw : RateLimitMiddleware) (req : HttpRequest) : List Tier :=
  let identity := resolveIdentity mw req
  let first : Tier :=
    match truthy identity.userId with
    | some userId => ⟨.user, userId, "user"⟩
    | none => ⟨.ip, getClientIp req, "IP"⟩
  match isWalletEndpoint req, truthy identity.walletAddress with
  | true, some walletAddress => [first, ⟨.wallet, walletAddress, "wallet"⟩]
  | _, _ => [first]

/-! ## The programs -/

/-- What the programs await: a check of a limit, and the time. -/
inductive Act where
  | checkLimit (identifier : String) (type : RateLimitType)
  | now

/-- The answers of the actions. -/
abbrev Act.Answer : Act → Type
  | .checkLimit .. => RateLimitResult
  | .now => ℤ

/-- What the outside decides when it answers an action: how the script fares, the clock of the
process, the random suffix of the member, and the clock of Redis when the script runs. -/
structure Choice where
  fault : Fault
  now : ℤ
  suffix : String
  clock : ℤ

/-- A check that was made: by which call, under which key, when, and what came of it. -/
structure Check where
  caller : ℕ
  type : RateLimitType
  identifier : String
  request : Request
  clock : ℤ
  fault : Fault
  result : RateLimitResult

/-- The sets under the keys, and all checks so far. -/
structure Store where
  sets : String → SortedSet
  checks : List Check

/-- A store without keys. -/
def Store.empty : Store := ⟨fun _ => .empty, []⟩

/-- What an action of the call `k` answers and does. -/
def perform (config : RateLimitType → RateLimitConfig) (k : ℕ) :
    (a : Act) → Choice → Store → Except Error a.Answer × Store
  | .now, c, s => (.ok c.now, s)
  | .checkLimit identifier type, c, s =>
    let r := checkLimitAt .live (config type) c.fault c.clock ⟨c.now, c.suffix⟩
      (s.sets (key type identifier))
    (.ok r.1,
      { sets := Function.update s.sets (key type identifier) r.2
        checks := s.checks ++ [⟨k, type, identifier, ⟨c.now, c.suffix⟩, c.clock, c.fault, r.1⟩] })

/-- A program of the middleware. -/
abbrev Task (α : Type) := Async Act Act.Answer Error α

/-- The body of the exception of a rejected request. -/
structure TooManyRequests where
  statusCode : ℕ
  error : String
  message : String
  retryAfter : ℤ
  deriving DecidableEq

/-- How a request fares: it goes on to the next handler, or an exception is thrown. The headers are
those set on its response. -/
inductive Outcome where
  | next (headers : List (String × String))
  | rejected (headers : List (String × String)) (exception : TooManyRequests)
  deriving DecidableEq

/-- `applyHeaders`. -/
def applyHeaders (tier : RateLimitType) (result : RateLimitResult) : List (String × String) :=
  let header := "X-RateLimit-" ++ tier.capitalize
  [(header ++ "-Limit", toString result.limit),
    (header ++ "-Remaining", toString (max 0 (result.limit - result.current))),
    (header ++ "-Reset", toString (ceilSeconds result.resetAt))]

/-- `reject`, on a response with some headers. -/
def reject (headers : List (String × String)) (result : RateLimitResult) (tier : String) :
    Task Outcome := do
  let retryAfter ←
    match result.retryAfter with
    | some seconds => pure seconds
    | none => do
      let now ← Async.perform .now
      pure (max 1 (ceilSeconds (result.resetAt - now)))
  pure (.rejected
    (headers ++ [("Retry-After", toString retryAfter), ("X-RateLimit-Tier", tier)])
    { statusCode := 429
      error := "Too Many Requests"
      message := tier ++ " rate limit exceeded. Retry after " ++ toString retryAfter ++ " second" ++
        (if retryAfter = 1 then "" else "s") ++ "."
      retryAfter := retryAfter })

/-- The checks of some counters, one after the other. An error of a check is logged, and the request
goes on with the headers it has. -/
def enforce : List Tier → List (String × String) → Task Outcome
  | [], headers => pure (.next headers)
  | tier :: rest, headers => do
    let checked ← tryCatch
      (do
        let result ← Async.perform (.checkLimit tier.identifier tier.type)
        pure (some result))
      fun _ => pure none
    match checked with
    | none => pure (.next headers)
    | some result =>
      let headers := headers ++ applyHeaders tier.type result
      if result.allowed then enforce rest headers else reject headers result tier.name

/-- `use`. -/
def RateLimitMiddleware.use (mw : RateLimitMiddleware) (req : HttpRequest) : Task Outcome :=
  if mw.enableRateLimit = false then pure (.next []) else enforce (tiers mw req) []

/-- The middleware. Nothing but its checks changes the store. -/
def RateLimitMiddleware.service (mw : RateLimitMiddleware) :
    Service Store HttpRequest Act Act.Answer Error Outcome Choice Empty where
  main := mw.use
  perform := perform mw.config
  environ o := o.elim

/-! ## The keys -/

/-- **No two identities share a key.** -/
theorem key_injective {type type' : RateLimitType} {identifier identifier' : String}
    (h : key type identifier = key type' identifier') :
    type = type' ∧ identifier = identifier' := by
  have hlist := congrArg String.toList h
  rw [key, key, String.toList_append, String.toList_append] at hlist
  obtain rfl : type = type' := by
    have hfourth := congrArg (fun text : List Char => text[3]?) hlist
    cases type <;> cases type' <;>
      first | rfl | exact absurd hfourth (by simp [RateLimitType.keyPrefix])
  exact ⟨rfl, String.toList_inj.1 (List.append_cancel_left hlist)⟩

/-- The checks of an identity. -/
def Store.checksOf (s : Store) (type : RateLimitType) (identifier : String) : List Check :=
  s.checks.filter fun c => decide (c.type = type ∧ c.identifier = identifier)

/-! ## The store -/

/-- How long after the time of the request its script runs, on the clock of Redis. -/
def Check.delay (c : Check) : ℤ := c.clock - c.request.now

/-- The checks reach the store in the order of their times, with different members, and none is
later than one before it by a second or more. -/
structure Timely (cs : List Check) : Prop where
  inOrder : InOrder (cs.map Check.request)
  together : cs.Pairwise fun c c' => c'.delay < c.delay + 1000

theorem Timely.sublist {cs cs' : List Check} (h : Timely cs) (hsub : cs'.Sublist cs) : Timely cs' :=
  ⟨h.inOrder.sublist (hsub.map _), h.together.sublist hsub⟩

section
variable {find : ℤ → SortedSet → SortedSet} {cfg : RateLimitConfig} {z : SortedSet}

theorem keyAfter_concat (rs : List Request) (r : Request) :
    keyAfter find cfg z (rs ++ [r]) = (checkLimit find cfg .none r (keyAfter find cfg z rs)).2 := by
  rw [keyAfter, List.foldl_append]
  rfl

theorem history_append (rs rs' : List Request) :
    history find cfg z (rs ++ rs') =
      history find cfg z rs ++ history find cfg (keyAfter find cfg z rs) rs' := by
  induction rs generalizing z with
  | nil => rfl
  | cons r rs ih =>
    rw [List.cons_append, history, ih, history, List.cons_append]
    rfl

theorem history_length (rs : List Request) : (history find cfg z rs).length = rs.length := by
  induction rs generalizing z with
  | nil => rfl
  | cons r rs ih => rw [history, List.length_cons, ih, List.length_cons]

/-- A denied check says when to come again. -/
theorem retryAfter_of_denied {f : Fault} {clock : ℤ} {r : Request}
    (h : (checkLimitAt find cfg f clock r z).1.allowed = false) :
    ∃ seconds, (checkLimitAt find cfg f clock r z).1.retryAfter = some seconds := by
  cases f with
  | none =>
    simp only [checkLimitAt, ofReply, decide_eq_false_iff_not] at h ⊢
    rw [if_neg h]
    exact ⟨_, rfl⟩
  | failed => cases h
  | lost => cases h

/-- What the script leaves: the entries of the window, and one more where it admits the request. -/
theorem slidingWindowScript_cases (z : SortedSet)
    (clock now windowMs maxRequests ttlSeconds : ℤ) (member : String) :
    let z₁ := z.zremrangebyscore (now - windowMs - 1)
    let z' := (slidingWindowScript z clock now windowMs maxRequests ttlSeconds member).2
    z' = z₁ ∨ z' = (z₁.zadd now member).expire clock ttlSeconds := by
  intro z₁ z'
  unfold z' slidingWindowScript
  dsimp only
  split
  · exact .inr rfl
  · exact .inl rfl

/-- The script reads the entries in the window only. -/
theorem slidingWindowScript_congr {z z' : SortedSet} {now windowMs : ℤ}
    (h : (z.zremrangebyscore (now - windowMs - 1)).entries =
      (z'.zremrangebyscore (now - windowMs - 1)).entries)
    (clock clock' maxRequests ttlSeconds : ℤ) (member : String) :
    (slidingWindowScript z clock now windowMs maxRequests ttlSeconds member).1 =
      (slidingWindowScript z' clock' now windowMs maxRequests ttlSeconds member).1 ∧
    (slidingWindowScript z clock now windowMs maxRequests ttlSeconds member).2.entries =
      (slidingWindowScript z' clock' now windowMs maxRequests ttlSeconds member).2.entries := by
  unfold slidingWindowScript
  dsimp only
  generalize z.zremrangebyscore (now - windowMs - 1) = z₁ at h ⊢
  generalize z'.zremrangebyscore (now - windowMs - 1) = z₂ at h ⊢
  obtain ⟨entries, expireAt⟩ := z₁
  obtain ⟨entries', expireAt'⟩ := z₂
  obtain rfl : entries = entries' := h
  simp only [SortedSet.zcount, SortedSet.scores, SortedSet.lowestScore, SortedSet.zadd,
    SortedSet.expire]
  split
  · refine ⟨rfl, ?_⟩
    split <;> rfl
  · exact ⟨rfl, rfl⟩

theorem mem_scores_zadd {score s : ℤ} {member : String} (h : s ∈ (z.zadd score member).scores) :
    s ∈ z.scores ∨ s = score := by
  obtain ⟨e, he, rfl⟩ := List.mem_map.1 h
  rw [SortedSet.zadd] at he
  split at he
  · obtain ⟨e', he', rfl⟩ := List.mem_map.1 he
    split
    · exact .inr rfl
    · exact .inl (List.mem_map_of_mem he')
  · rcases List.mem_append.1 he with he | he
    · exact .inl (List.mem_map_of_mem he)
    · rw [List.mem_singleton.1 he]
      exact .inr rfl

/-- After the checks of an identity, its set has the entries of one that never expires. They are of
the times of the checks, and the key lasts, from the delay of some check on, for a second beyond
every window that holds one of them. -/
structure Mirrors (cfg : RateLimitConfig) (cs : List Check) (z : SortedSet) : Prop where
  entries : z.entries = (keyAfter .kept cfg .empty (cs.map Check.request)).entries
  times : ∀ s ∈ z.scores, ∃ c ∈ cs, s = c.request.now
  lasting : ∀ x, z.expireAt = some x → ∀ s ∈ z.scores,
    ∃ c ∈ cs, s + cfg.windowMs + c.delay + 1000 ≤ x

theorem Mirrors.start (cfg : RateLimitConfig) : Mirrors cfg [] .empty :=
  ⟨rfl, List.forall_mem_nil _, by intro x h; cases h⟩

section
variable {cs : List Check} {c : Check}

/-- A key that has expired had no entry in the window. -/
theorem Mirrors.prune_live (h : Mirrors cfg cs z)
    (hlate : ∀ c' ∈ cs, c.delay < c'.delay + 1000) :
    ((z.live c.clock).zremrangebyscore (c.request.now - cfg.windowMs - 1)).entries =
      (z.zremrangebyscore (c.request.now - cfg.windowMs - 1)).entries := by
  rcases finds_live c.clock z with heq | ⟨heq, x, hx, hexpired⟩ <;> rw [heq]
  refine (List.filter_eq_nil_iff.2 fun e he hkept => ?_).symm
  obtain ⟨c', hc', hlasting⟩ := h.lasting x hx e.score (List.mem_map_of_mem he)
  have hdelay := hlate c' hc'
  have hscore := of_decide_eq_true hkept
  simp only [Check.delay] at hdelay hlasting
  omega

/-- **A timely check answers as on a key that never expires.** -/
theorem Mirrors.check (h : Mirrors cfg cs z) (htimely : Timely (cs ++ [c])) :
    (checkLimitAt .live cfg .none c.clock c.request z).1 =
      (checkLimit .kept cfg .none c.request
        (keyAfter .kept cfg .empty (cs.map Check.request))).1 ∧
    Mirrors cfg (cs ++ [c]) (checkLimitAt .live cfg .none c.clock c.request z).2 := by
  have hlate : ∀ c' ∈ cs, c.delay < c'.delay + 1000 := fun c' hc' =>
    (List.pairwise_append.1 htimely.together).2.2 c' hc' c (.head _)
  have hlast : ∀ c' ∈ cs ++ [c], c'.request.now ≤ c.request.now := by
    have hin := htimely.inOrder
    rw [List.map_append, List.map_singleton] at hin
    intro c' hc'
    rcases List.mem_append.1 hc' with hc' | hc'
    · exact hin.at_request.1 _ (List.mem_map_of_mem hc')
    · rw [List.mem_singleton.1 hc']
  have hwindow : ((z.live c.clock).zremrangebyscore (c.request.now - cfg.windowMs - 1)).entries =
      ((keyAfter .kept cfg .empty (cs.map Check.request)).zremrangebyscore
        (c.request.now - cfg.windowMs - 1)).entries := by
    rw [h.prune_live hlate, SortedSet.zremrangebyscore, SortedSet.zremrangebyscore, h.entries]
  obtain ⟨hreply, hentries⟩ := slidingWindowScript_congr hwindow c.clock c.request.now
    cfg.maxRequests (ceilSeconds cfg.windowMs + 1) c.request.member
  refine ⟨congrArg (ofReply cfg c.request.now) hreply, ?_⟩
  -- what the script drops is no longer spoken of
  have hsub : ∀ s ∈ ((z.live c.clock).zremrangebyscore
      (c.request.now - cfg.windowMs - 1)).scores, s ∈ z.scores := by
    intro s hs
    obtain ⟨e, he, rfl⟩ := List.mem_map.1 hs
    rw [h.prune_live hlate] at he
    exact List.mem_map_of_mem (List.mem_filter.1 he).1
  have htimes : ∀ s ∈ z.scores, ∃ c' ∈ cs ++ [c], s = c'.request.now := fun s hs =>
    have ⟨c', hc', heq⟩ := h.times s hs
    ⟨c', List.mem_append_left _ hc', heq⟩
  have hexpireAt : ∀ x, (z.live c.clock).expireAt = some x → z.expireAt = some x := by
    intro x hx
    rcases finds_live c.clock z with heq | ⟨heq, -⟩ <;> rw [heq] at hx
    · exact hx
    · cases hx
  rcases slidingWindowScript_cases (z.live c.clock) c.clock c.request.now cfg.windowMs
    cfg.maxRequests (ceilSeconds cfg.windowMs + 1) c.request.member with hz | hz
  · refine ⟨?_, ?_, ?_⟩
    · rw [List.map_append, List.map_singleton, keyAfter_concat]
      exact hentries
    · intro s hs
      change s ∈ (slidingWindowScript ..).2.scores at hs
      rw [hz] at hs
      exact htimes s (hsub s hs)
    · intro x hx s hs
      change (slidingWindowScript ..).2.expireAt = _ at hx
      change s ∈ (slidingWindowScript ..).2.scores at hs
      rw [hz] at hx hs
      obtain ⟨c', hc', hlasting⟩ := h.lasting x (hexpireAt x hx) s (hsub s hs)
      exact ⟨c', List.mem_append_left _ hc', hlasting⟩
  · have hnew : ∀ s ∈ (slidingWindowScript (z.live c.clock) c.clock c.request.now cfg.windowMs
        cfg.maxRequests (ceilSeconds cfg.windowMs + 1) c.request.member).2.scores,
        ∃ c' ∈ cs ++ [c], s = c'.request.now := by
      intro s hs
      rw [hz] at hs
      rcases mem_scores_zadd hs with hs | rfl
      · exact htimes s (hsub s hs)
      · exact ⟨c, List.mem_append_right _ (.head _), rfl⟩
    refine ⟨?_, hnew, ?_⟩
    · rw [List.map_append, List.map_singleton, keyAfter_concat]
      exact hentries
    · intro x hx s hs
      change (slidingWindowScript ..).2.expireAt = _ at hx
      rw [hz] at hx
      cases hx
      obtain ⟨c', hc', rfl⟩ := hnew s hs
      have hle := hlast c' hc'
      refine ⟨c, List.mem_append_right _ (.head _), ?_⟩
      simp only [Check.delay, ceilSeconds]
      omega

end

end

section
variable {mw : RateLimitMiddleware} {k : ℕ} {c : Choice} {s : Store} {type : RateLimitType}
  {identifier : String}

/-- A request with its answer. -/
def Check.answered (c : Check) : Request × RateLimitResult := (c.request, c.result)

/-- As long as the checks of an identity are timely and none of its scripts has failed, its set has
the entries of one that never expires, and the answers to its checks are those of a store of its
own. -/
def Apart (config : RateLimitType → RateLimitConfig) (s : Store) : Prop :=
  ∀ type identifier, (∀ c ∈ s.checksOf type identifier, c.fault = .none) →
    Timely (s.checksOf type identifier) →
    Mirrors (config type) (s.checksOf type identifier) (s.sets (key type identifier)) ∧
    (s.checksOf type identifier).map Check.answered =
      history .kept (config type) .empty ((s.checksOf type identifier).map Check.request)

/-- The checks of an identity after one more. -/
theorem checksOf_concat {s' : Store} {c : Check} (h : s'.checks = s.checks ++ [c]) :
    s'.checksOf type identifier =
      if c.type = type ∧ c.identifier = identifier then s.checksOf type identifier ++ [c]
      else s.checksOf type identifier := by
  rw [Store.checksOf, h, List.filter_append, List.filter_cons, List.filter_nil]
  split
  · next hc => rw [if_pos (of_decide_eq_true hc)]; rfl
  · next hc => rw [if_neg fun h => hc (decide_eq_true h), List.append_nil]; rfl

/-- A check leaves the identities apart. -/
theorem apart_perform (k : ℕ) (a : Act) (c : Choice) (h : Apart mw.config s) :
    Apart mw.config (perform mw.config k a c s).2 := by
  cases a with
  | now => exact h
  | checkLimit identifier' type' =>
    intro type identifier hfault htimely
    rw [checksOf_concat rfl] at hfault htimely ⊢
    by_cases hsame : type' = type ∧ identifier' = identifier
    · obtain ⟨rfl, rfl⟩ := hsame
      rw [if_pos ⟨rfl, rfl⟩] at hfault htimely ⊢
      obtain ⟨hset, hanswers⟩ := h type' identifier'
        (fun c' hc' => hfault c' (List.mem_append_left _ hc'))
        (htimely.sublist (List.sublist_append_left ..))
      have hnone : c.fault = .none := hfault _ (List.mem_append_right _ (.head _))
      obtain ⟨hanswer, hset'⟩ := hset.check htimely
      simp only [perform, Function.update_self, hnone] at hset' ⊢
      refine ⟨hset', ?_⟩
      rw [List.map_append, List.map_append, hanswers, List.map_singleton, List.map_singleton,
        history_append, Check.answered, hanswer]
      rfl
    · rw [if_neg hsame] at hfault htimely ⊢
      obtain ⟨hset, hanswers⟩ := h type identifier hfault htimely
      have hother : key type identifier ≠ key type' identifier' := by
        intro heq
        obtain ⟨rfl, rfl⟩ := key_injective heq
        exact hsame ⟨rfl, rfl⟩
      refine ⟨?_, hanswers⟩
      simp only [perform, Function.update_of_ne hother]
      exact hset

/-! ## The requests -/

/-- The checks that a call has made. -/
def Store.checksBy (s : Store) (k : ℕ) : List Check :=
  s.checks.filter fun c => decide (c.caller = k)

/-- The counters that are checked for a request. -/
def RateLimitMiddleware.counted (mw : RateLimitMiddleware) (req : HttpRequest) : List Tier :=
  if mw.enableRateLimit = false then [] else tiers mw req

/-- How far a request has come: it has checked some of its counters, all of which allowed it, and
goes on with the others; or it was rejected by a check. -/
inductive Standing (counters : List Tier) (made : List Check) : Task Outcome → Prop
  | checking {passed todo : List Tier} (headers : List (String × String))
      (hcounters : counters = passed ++ todo)
      (hmade : made.map (fun c => (c.type, c.identifier)) =
        passed.map fun tier => (tier.type, tier.identifier))
      (hallowed : ∀ c ∈ made, c.result.allowed = true) :
      Standing counters made (enforce todo headers)
  | rejected {headers : List (String × String)} {exception : TooManyRequests} {c : Check}
      (hmem : c ∈ made) (hdenied : c.result.allowed = false) :
      Standing counters made (.done (.ok (.rejected headers exception)))

theorem use_eq (mw : RateLimitMiddleware) (req : HttpRequest) :
    mw.use req = enforce (mw.counted req) [] := by
  unfold RateLimitMiddleware.use RateLimitMiddleware.counted
  split <;> rfl

/-- A request that goes on has checked all its counters, and was allowed by each. -/
theorem Standing.next {counters : List Tier} {made : List Check}
    {headers : List (String × String)}
    (h : Standing counters made (.done (.ok (.next headers)))) :
    made.map (fun c => (c.type, c.identifier)) =
      counters.map (fun tier => (tier.type, tier.identifier)) ∧
    ∀ c ∈ made, c.result.allowed = true := by
  generalize hrest : (Async.done (.ok (.next headers)) : Task Outcome) = rest at h
  cases h with
  | @checking passed todo headers' hcounters hmade hallowed =>
    cases todo with
    | nil =>
      rw [hcounters, List.append_nil]
      exact ⟨hmade, hallowed⟩
    | cons tier todo => cases hrest
  | rejected hmem hdenied => cases hrest

/-- What a step does to the request that takes it. -/
theorem standing_advance {counters : List Tier} {a : Act}
    {f : Except Error a.Answer → Task Outcome}
    (h : Standing counters (s.checksBy k) (.await a f)) :
    Standing counters ((perform mw.config k a c s).2.checksBy k)
      (f (perform mw.config k a c s).1) := by
  generalize hrest : (Async.await a f : Task Outcome) = rest at h
  cases h with
  | rejected hmem hdenied => cases hrest
  | @checking passed todo headers hcounters hmade hallowed =>
    cases todo with
    | nil => cases hrest
    | cons tier todo =>
      cases hrest
      obtain ⟨result, hresult⟩ : ∃ result, (checkLimitAt .live (mw.config tier.type) c.fault c.clock
        ⟨c.now, c.suffix⟩ (s.sets (key tier.type tier.identifier))).1 = result := ⟨_, rfl⟩
      have hchecks : (perform mw.config k (.checkLimit tier.identifier tier.type) c s).2.checksBy k
          = s.checksBy k ++
            [⟨k, tier.type, tier.identifier, ⟨c.now, c.suffix⟩, c.clock, c.fault, result⟩] := by
        simp only [Store.checksBy, perform, List.filter_append, List.filter_cons, decide_true,
          if_true, List.filter_nil, hresult]
      change Standing counters _ (if (checkLimitAt .live (mw.config tier.type) c.fault c.clock
        ⟨c.now, c.suffix⟩ (s.sets (key tier.type tier.identifier))).1.allowed = true then _ else _)
      rw [hchecks, hresult]
      cases hallow : result.allowed with
      | true =>
        rw [if_pos rfl]
        refine @Standing.checking _ _ (passed ++ [tier]) _ _ ?_ ?_ ?_
        · rw [hcounters, List.append_assoc]
          rfl
        · rw [List.map_append, List.map_append, hmade]
          rfl
        · intro c' hc'
          rcases List.mem_append.1 hc' with hc' | hc'
          · exact hallowed c' hc'
          · rw [List.mem_singleton.1 hc']
            exact hallow
      | false =>
        rw [if_neg nofun]
        obtain ⟨seconds, hseconds⟩ := retryAfter_of_denied (hresult ▸ hallow)
        rw [hresult] at hseconds
        rw [reject, hseconds]
        exact .rejected (List.mem_append_right _ (.head _)) hallow

/-- A step of another request leaves the checks of a call as they are. -/
theorem checksBy_perform {j : ℕ} (hne : j ≠ k) (a : Act) :
    (perform mw.config k a c s).2.checksBy j = s.checksBy j := by
  cases a with
  | now => rfl
  | checkLimit identifier type =>
    simp only [Store.checksBy, perform, List.filter_append, List.filter_cons, List.filter_nil,
      decide_eq_true_eq, if_neg hne.symm, List.append_nil]

/-- The checks are those of calls that have been made. -/
def CallersMade (p : Pool Store HttpRequest Act Act.Answer Error Outcome) : Prop :=
  ∀ c ∈ p.state.checks, c.caller < p.calls.length

theorem callersMade_move (m : Move HttpRequest Choice Empty)
    {p : Pool Store HttpRequest Act Act.Answer Error Outcome} (h : CallersMade p) :
    CallersMade (mw.service.move m p) := by
  rcases mw.service.move_cases m p with ⟨req, rfl, hp⟩ | ⟨k, c, req, a, f, rfl, hk, hp⟩ |
    ⟨o, -, -⟩ | ⟨k, c, -, -, hp⟩
  · rw [hp]
    intro check hcheck
    rw [List.length_append]
    exact Nat.lt_add_right _ (h check hcheck)
  · rw [hp]
    intro check hcheck
    rw [List.length_set]
    have hlt : k < p.calls.length := (List.getElem?_eq_some_iff.1 hk).1
    cases a with
    | now => exact h check hcheck
    | checkLimit identifier type =>
      rcases List.mem_append.1 hcheck with hcheck | hcheck
      · exact h check hcheck
      · rwa [List.mem_singleton.1 hcheck]
  · exact o.elim
  · rwa [hp]

/-- The requests and the store, whatever the interleaving. -/
def standing (mw : RateLimitMiddleware) : Outline mw.service fun p _ => CallersMade p where
  Inv := Apart mw.config
  At k req rest s := Standing (mw.counted req) (s.checksBy k) rest
  start := by
    intro p req hmade _ _
    have hnone : p.state.checksBy p.calls.length = [] := by
      refine List.filter_eq_nil_iff.2 fun c hc hcaller => ?_
      exact Nat.ne_of_lt (hmade c hc) (of_decide_eq_true hcaller)
    change Standing _ _ (mw.use req)
    rw [hnone, use_eq]
    exact @Standing.checking _ _ [] _ [] rfl rfl (List.forall_mem_nil _)
  step := by
    intro p k c req a f _ hk happart hat
    exact ⟨apart_perform k a c happart, standing_advance (hat k _ hk)⟩
  stable := by
    intro p k c req a f j call _ _ _ hat hne hcall
    change Standing _ ((perform mw.config k a c p.state).2.checksBy j) _
    rw [checksBy_perform hne]
    exact hat j call hcall
  environ := by
    intro p o
    exact o.elim

/-- What holds after every run. -/
theorem standing_exec (mw : RateLimitMiddleware) (ms : List (Move HttpRequest Choice Empty)) :
    Apart mw.config ((mw.service.machine .empty).exec ⟨.empty, []⟩ ms).state ∧
    ∀ k req rest, ((mw.service.machine .empty).exec ⟨.empty, []⟩ ms).calls[k]? = some ⟨req, rest⟩ →
      Standing (mw.counted req)
        (((mw.service.machine .empty).exec ⟨.empty, []⟩ ms).state.checksBy k) rest := by
  have hmade : ∀ t ∈ (mw.service.machine .empty).trace ⟨.empty, []⟩ ms, CallersMade t.pre := by
    intro t ht
    obtain ⟨ms₁, m, ms₂, rfl, rfl⟩ := Machine.mem_trace.1 ht
    rw [Machine.step_pre]
    have hnone : CallersMade ⟨.empty, []⟩ := List.forall_mem_nil _
    refine Machine.invariant hnone ?_ ms₁
    intro m p u p' h hi
    rw [Service.post_of_invoke hi]
    exact callersMade_move m h
  have hempty : Apart mw.config .empty := fun type _ _ _ => ⟨.start (mw.config type), rfl⟩
  obtain ⟨happart, hat⟩ := (standing mw).exec (s := .empty) (p := ⟨.empty, []⟩) hempty
    Pool.meets_nil hmade
  exact ⟨happart, fun k req rest hcall => hat k _ hcall⟩

/-! ## The limits -/

/-- The request `k` has been let through, and one of its checks is of the identity, at a time from
`t` on until a window later. -/
def LetThrough (mw : RateLimitMiddleware) (p : Pool Store HttpRequest Act Act.Answer Error Outcome)
    (type : RateLimitType) (identifier : String) (t : ℤ) (k : ℕ) : Prop :=
  (∃ req headers, p.calls[k]? = some ⟨req, .done (.ok (.next headers))⟩) ∧
  ∃ c ∈ p.state.checksOf type identifier, c.caller = k ∧
    t ≤ c.request.now ∧ c.request.now ≤ t + (mw.config type).windowMs

/-- The times of the checks of an identity that allowed their requests. -/
def allowedChecks (cs : List Check) : List ℤ :=
  (cs.filter fun c => c.result.allowed).map fun c => c.request.now

/-- The limit of an identity is kept.

* `checked`: every request that counts under the identity and is let through has been allowed by a
  check of it.
* `bound`: no more requests than the limit are let through with their checks in one window, wherever
  the window lies.
* `denied`: a check denies exactly when the limit has been used up in the window that ends at it, by
  earlier checks of this identity. -/
structure LimitKept (mw : RateLimitMiddleware)
    (p : Pool Store HttpRequest Act Act.Answer Error Outcome) (type : RateLimitType)
    (identifier : String) : Prop where
  checked : ∀ (k : ℕ) (req : HttpRequest) (headers : List (String × String)) (tier : Tier),
    p.calls[k]? = some ⟨req, .done (.ok (.next headers))⟩ → tier ∈ mw.counted req →
    tier.type = type → tier.identifier = identifier →
      ∃ c ∈ p.state.checksOf type identifier, c.caller = k ∧ c.result.allowed = true
  bound : ∀ (t : ℤ) (S : Finset ℕ), (∀ k ∈ S, LetThrough mw p type identifier t k) →
    S.card ≤ (mw.config type).maxRequests
  denied : ∀ (before : List Check) (c : Check) (after : List Check),
    p.state.checksOf type identifier = before ++ c :: after →
      (c.result.allowed = false ↔
        (between (c.request.now - ((mw.config type).windowMs : ℤ)) c.request.now
          (allowedChecks before)).length = (mw.config type).maxRequests)

end

section
variable {cs : List Check} {cfg : RateLimitConfig}

/-- The allowed times of checks that are answered as a store of their own does. -/
theorem allowedChecks_eq (h : cs.map Check.answered =
    history .live cfg .empty (cs.map Check.request)) :
    allowedChecks cs = allowedBy cfg (cs.map Check.request) := by
  rw [allowedBy, ← h, allowedTimes, List.filter_map, List.map_map]
  rfl

/-- The answers to the first ones of some checks, and to the one after them. -/
theorem answered_split {before after : List Check} {c : Check}
    (h : (before ++ c :: after).map Check.answered =
      history .live cfg .empty ((before ++ c :: after).map Check.request)) :
    before.map Check.answered = history .live cfg .empty (before.map Check.request) ∧
      c.result = answer cfg (before.map Check.request) c.request := by
  rw [List.map_append, List.map_append, history_append] at h
  obtain ⟨hbefore, hrest⟩ := List.append_inj h (by simp [history_length])
  rw [List.map_cons, List.map_cons, history] at hrest
  exact ⟨hbefore, congrArg (fun x : Request × RateLimitResult => x.2) (List.cons.inj hrest).1⟩

/-- The allowed times between two others. -/
theorem between_allowedChecks (cs : List Check) (t u : ℤ) :
    (between t u (allowedChecks cs)).length = (cs.filter fun c =>
      decide (c.result.allowed = true ∧ t ≤ c.request.now ∧ c.request.now ≤ u)).length := by
  rw [between, allowedChecks, List.filter_map, List.length_map, List.filter_filter]
  refine congrArg List.length (List.filter_congr fun c _ => ?_)
  simp [Bool.and_comm]

end

/-- **The limit of every identity is kept**, whatever the requests and however their checks are
interleaved, if no script of the identity fails and its checks are timely: they reach the store in
the order of their times, with different members, and none is later than one before it by a second
or more. -/
theorem identities_limited (mw : RateLimitMiddleware) (ms : List (Move HttpRequest Choice Empty))
    (type : RateLimitType) (identifier : String) :
    let p := (mw.service.machine .empty).exec ⟨.empty, []⟩ ms
    (∀ c ∈ p.state.checksOf type identifier, c.fault = .none) →
    Timely (p.state.checksOf type identifier) → LimitKept mw p type identifier := by
  intro p hfault htimely
  obtain ⟨happart, hstanding⟩ := standing_exec mw ms
  have hin := htimely.inOrder
  have hanswers := (happart type identifier hfault htimely).2
  rw [(hin.run finds_kept _).1, ← (hin.run finds_live _).1] at hanswers
  have hallowed : ∀ {k req headers},
      p.calls[k]? = some ⟨req, .done (.ok (.next headers))⟩ →
      ∀ c ∈ p.state.checksBy k, c.result.allowed = true := fun hcall =>
    (hstanding _ _ _ hcall).next.2
  constructor
  case checked =>
    intro k req headers tier hcall htier htype hidentifier
    have hmade := (hstanding k req _ hcall).next.1
    have hmem : (tier.type, tier.identifier) ∈
        (p.state.checksBy k).map fun c => (c.type, c.identifier) := by
      rw [hmade]
      exact List.mem_map_of_mem htier
    obtain ⟨c, hc, heq⟩ := List.mem_map.1 hmem
    obtain ⟨hcheck, hcaller⟩ := List.mem_filter.1 hc
    refine ⟨c, List.mem_filter.2 ⟨hcheck, decide_eq_true ?_⟩, of_decide_eq_true hcaller,
      hallowed hcall c hc⟩
    rw [← htype, ← hidentifier]
    exact ⟨congrArg Prod.fst heq, congrArg Prod.snd heq⟩
  case bound =>
    intro t S hS
    have hlist : ∀ k ∈ S, k ∈ (((p.state.checksOf type identifier).filter fun c =>
        decide (c.result.allowed = true ∧ t ≤ c.request.now ∧
          c.request.now ≤ t + (mw.config type).windowMs)).map Check.caller).toFinset := by
      intro k hk
      obtain ⟨⟨req, headers, hcall⟩, c, hc, hcaller, hge, hle⟩ := hS k hk
      refine List.mem_toFinset.2 (List.mem_map.2 ⟨c, List.mem_filter.2 ⟨hc, ?_⟩, hcaller⟩)
      have hby : c ∈ p.state.checksBy k :=
        List.mem_filter.2 ⟨(List.mem_filter.1 hc).1, decide_eq_true hcaller⟩
      exact decide_eq_true ⟨hallowed hcall c hby, hge, hle⟩
    calc S.card ≤ _ := Finset.card_le_card hlist
      _ ≤ _ := List.toFinset_card_le _
      _ = (between t (t + (mw.config type).windowMs)
            (allowedChecks (p.state.checksOf type identifier))).length := by
        rw [between_allowedChecks, List.length_map]
      _ ≤ (mw.config type).maxRequests := by
        rw [allowedChecks_eq hanswers, allowedBy, hin.allowedTimes_eq finds_live]
        exact between_admissions_le hin.sorted t
  case denied =>
    intro before c after hsplit
    rw [hsplit] at hanswers hin
    obtain ⟨hbefore, hresult⟩ := answered_split hanswers
    rw [List.map_append, List.map_cons] at hin
    have hprefix : InOrder (before.map Check.request) := hin.sublist (List.sublist_append_left ..)
    have hle : (between (c.request.now - (mw.config type).windowMs) c.request.now
        (allowedChecks before)).length ≤ (mw.config type).maxRequests := by
      rw [allowedChecks_eq hbefore, allowedBy, hprefix.allowedTimes_eq finds_live]
      have hwindow := @between_admissions_le ℤ _ _ _ (mw.config type).windowMs
        (mw.config type).maxRequests _ hprefix.sorted (c.request.now - (mw.config type).windowMs)
      rwa [Int.sub_add_cancel] at hwindow
    rw [hresult, hin.answer_eq, ← allowedChecks_eq hbefore, ← Bool.not_eq_true,
      (verdict_eq (mw.config type) _ _).1]
    omega

/-- Two settlements of one wallet at once, against a limit of one: the second is rejected. -/
theorem identities_limited_wallet :
    let mw : RateLimitMiddleware :=
      ⟨true, fun type => if type = .wallet then ⟨1000, 1⟩ else ⟨1000, 5⟩, none⟩
    let req : HttpRequest :=
      ⟨"POST", "/api/settlement/settle", none, none, some "10.0.0.1", some "7", some "GA", none⟩
    let p := (mw.service.machine .empty).exec ⟨.empty, []⟩
      [.start req, .start req, .resume 1 ⟨.none, 1000, "a", 1003⟩,
        .resume 0 ⟨.none, 1000, "b", 1004⟩, .resume 0 ⟨.none, 1001, "c", 1500⟩,
        .resume 1 ⟨.none, 1002, "d", 2400⟩]
    LimitKept mw p .wallet "GA" ∧
    (p.state.checksOf .wallet "GA").map (fun c => (c.caller, c.result.allowed)) =
      [(0, true), (1, false)] := by
  intro mw req p
  refine ⟨identities_limited mw _ .wallet "GA" ?_ ⟨⟨?_, ?_⟩, ?_⟩, ?_⟩
  · decide +kernel
  · decide +kernel
  · decide +kernel
  · decide +kernel
  · decide +kernel

end RateLimiter

end InvoiceFi
