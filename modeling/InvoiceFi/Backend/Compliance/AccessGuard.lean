import InvoiceFi.Backend.Compliance.Amounts
import InvoiceFi.Backend.Compliance.Jwt

/-!
# Who a request is from (`compliance/compliance-access.guard.ts`)

`resolvePrincipal` takes the token of a request from its `Authorization` header or from its `token`
cookie, verifies it and reads the principal off it. What goes wrong with the token is an
`UnauthorizedException`, but the value of the cookie is decoded before that is taken care of, and
`decodeURIComponent` throws a `URIError` of its own (`authentication_iff`).

A request is given by the two headers; clocks are in milliseconds.
-/

namespace InvoiceFi

namespace Backend

namespace Compliance

namespace AccessGuard

open Jwt

/-- `ExportRequest`. -/
structure ExportRequest where
  authorization : Option String
  cookie : Option String

/-- What is thrown: an `UnauthorizedException` with its message, or the `URIError` of
`decodeURIComponent`. -/
inductive Thrown where
  | unauthorized (message : String)
  | uriError
  deriving DecidableEq

/-- The token of an `Authorization` header. -/
def bearerToken? (auth : String) : Option String :=
  if "Bearer ".toList.isPrefixOf auth.toList then
    some (String.ofList (trim (auth.toList.drop "Bearer ".length)))
  else none

/-- The value of a cookie of the name `token`. -/
def tokenValue? (part : List Char) : Option (List Char) :=
  match (trim part).splitOn '=' with
  | [] => none
  | name :: rest =>
    if name = "token".toList ∧ rest ≠ [] then some (['='].intercalate rest) else none

/-- The value of the first cookie of the name `token`. -/
def tokenCookie? (cookieHeader : String) : Option (List Char) :=
  (cookieHeader.toList.splitOn ';').findSome? tokenValue?

/-- `extractToken`. -/
def extractToken (req : ExportRequest) : Except Thrown (Option String) :=
  match req.authorization.bind bearerToken? with
  | some token => .ok (some token)
  | none =>
    match req.cookie.bind tokenCookie? with
    | some value => do
      let token ← okOr (Percent.decode value) .uriError
      return some (String.ofList token)
    | none => .ok none

/-- What `resolvePrincipal` does with a token. The messages of all errors are kept. -/
def principalOf (rt : Runtime) (token secret : String) (nowMs : Int) : Except String Principal := do
  let payload ← verifyHs256Jwt rt token secret (nowMs / 1000 : Int)
  Jwt.principalFromPayload rt payload

/-- `resolvePrincipal`. -/
def resolvePrincipal (rt : Runtime) (req : ExportRequest) (secret : String) (nowMs : Int) :
    Except Thrown Principal := do
  match ← extractToken req with
  | none => .error (.unauthorized "Missing authentication token")
  | some token =>
    if token = "" then .error (.unauthorized "Missing authentication token")
    else (principalOf rt token secret nowMs).mapError .unauthorized

/-! ## What is extracted -/

/-- The `Authorization` header carries a token, or the value of the first `token` cookie is a text
whose characters are written as they are or by their octets. -/
def TokenDecodes (req : ExportRequest) : Prop :=
  (∃ auth, req.authorization = some auth ∧ "Bearer ".toList <+: auth.toList) ∨
    ∀ cookieHeader value, req.cookie = some cookieHeader → tokenCookie? cookieHeader = some value →
      ∃ token, Percent.Encoded value token

theorem bearerToken?_isSome_iff {auth : String} :
    (∃ token, bearerToken? auth = some token) ↔ "Bearer ".toList <+: auth.toList := by
  rw [← List.isPrefixOf_iff_prefix]
  unfold bearerToken?
  split
  · next h => exact ⟨fun _ => h, fun _ => ⟨_, rfl⟩⟩
  · next h => exact ⟨fun ⟨_, heq⟩ => (nomatch heq), fun hprefix => absurd hprefix h⟩

/-- **A token is extracted, or found missing, exactly if the cookie that is asked for decodes.** -/
theorem extractToken_isOk_iff {req : ExportRequest} :
    (∃ token, extractToken req = .ok token) ↔ TokenDecodes req := by
  unfold extractToken TokenDecodes
  cases hauth : req.authorization.bind bearerToken? with
  | some token =>
    obtain ⟨auth, hreq, hbearer⟩ := Option.bind_eq_some_iff.1 hauth
    exact ⟨fun _ => .inl ⟨auth, hreq, bearerToken?_isSome_iff.1 ⟨token, hbearer⟩⟩,
      fun _ => ⟨_, rfl⟩⟩
  | none =>
    have hno : ¬ ∃ auth, req.authorization = some auth ∧ "Bearer ".toList <+: auth.toList := by
      rintro ⟨auth, hreq, hprefix⟩
      obtain ⟨token, hbearer⟩ := bearerToken?_isSome_iff.2 hprefix
      rw [hreq, Option.bind_some, hbearer] at hauth
      cases hauth
    cases hcookie : req.cookie.bind tokenCookie? with
    | some value =>
      obtain ⟨cookieHeader, hreq, hvalue⟩ := Option.bind_eq_some_iff.1 hcookie
      constructor
      · rintro ⟨token, htoken⟩
        obtain ⟨out, hout, -⟩ := bind_eq_ok.1 htoken
        refine .inr fun header value' hheader hvalue' => ⟨out, Percent.decode_eq_some_iff.1 ?_⟩
        rw [hreq] at hheader
        cases hheader
        rw [hvalue] at hvalue'
        cases hvalue'
        exact okOr_eq_ok.1 hout
      · intro h
        obtain ⟨token, htoken⟩ := (h.resolve_left hno) cookieHeader value hreq hvalue
        have hdecode := Percent.decode_eq_some_iff.2 htoken
        exact ⟨some (String.ofList token), bind_eq_ok.2 ⟨token, okOr_eq_ok.2 hdecode, rfl⟩⟩
    | none =>
      refine ⟨fun _ => .inr fun cookieHeader value hreq hvalue => ?_, fun _ => ⟨none, rfl⟩⟩
      rw [hreq, Option.bind_some, hvalue] at hcookie
      cases hcookie

/-- Nothing but a `URIError` is thrown. -/
theorem extractToken_eq_error {req : ExportRequest} {thrown : Thrown}
    (h : extractToken req = .error thrown) : thrown = .uriError := by
  unfold extractToken at h
  split at h
  · cases h
  · split at h
    · next value =>
      rcases bind_eq_error.1 h with hdecode | ⟨token, -, htoken⟩
      · exact (okOr_eq_error.1 hdecode).2
      · cases htoken
    · cases h

/-! ## What is resolved -/

/-- The principal has the claims of a token of the request, which is signed with the secret, for
HS256, and not expired; or the request is answered with 401. -/
def Sound (rt : Runtime) (req : ExportRequest) (secret : String) (nowMs : Int) :
    Except Thrown Principal → Prop
  | .ok principal => ∃ token encodedHeader encodedPayload encodedSignature payload,
    extractToken req = .ok (some token) ∧
      token.toList.splitOn '.' = [encodedHeader, encodedPayload, encodedSignature] ∧
      Verified rt secret (nowMs / 1000 : Int) encodedHeader encodedPayload encodedSignature
        payload ∧
      Claims rt payload principal
  | .error thrown => ∃ message, thrown = .unauthorized message

/-- What is done with a token that is extracted is sound. -/
theorem sound_of_extractToken {rt : Runtime} {req : ExportRequest} {secret : String} {nowMs : Int}
    {token : Option String} (h : extractToken req = .ok token) :
    Sound rt req secret nowMs (resolvePrincipal rt req secret nowMs) := by
  rw [resolvePrincipal, h, ok_bind]
  cases token with
  | none => exact ⟨_, rfl⟩
  | some token =>
    dsimp only
    split
    · exact ⟨_, rfl⟩
    · cases hprincipal : principalOf rt token secret nowMs with
      | error message => exact ⟨message, rfl⟩
      | ok principal =>
        obtain ⟨payload, hverify, hclaims⟩ := bind_eq_ok.1 hprincipal
        obtain ⟨encodedHeader, encodedPayload, encodedSignature, hsplit, hverified⟩ :=
          verifyHs256Jwt_eq_ok.1 hverify
        exact ⟨token, encodedHeader, encodedPayload, encodedSignature, payload, h, hsplit,
          hverified, principalFromPayload_eq_ok.1 hclaims⟩

/-- A request whose token is not extracted is not answered with 401. -/
theorem not_sound {rt : Runtime} {req : ExportRequest} {secret : String} {nowMs : Int}
    {thrown : Thrown} (h : extractToken req = .error thrown) :
    ¬ Sound rt req secret nowMs (resolvePrincipal rt req secret nowMs) := by
  rw [extractToken_eq_error h] at h
  rw [resolvePrincipal, h]
  rintro ⟨message, heq⟩
  cases heq

theorem resolvePrincipal_sound_iff {rt : Runtime} {req : ExportRequest} {secret : String}
    {nowMs : Int} :
    Sound rt req secret nowMs (resolvePrincipal rt req secret nowMs) ↔ TokenDecodes req := by
  rw [← extractToken_isOk_iff]
  cases h : extractToken req with
  | ok token => exact ⟨fun _ => ⟨token, rfl⟩, fun _ => sound_of_extractToken h⟩
  | error thrown =>
    exact ⟨fun hsound => absurd hsound (not_sound h), fun ⟨_, htoken⟩ => nomatch htoken⟩

/-! ## Tokens that are signed with the secret -/

/-- The request carries the token. -/
inductive Presents (token : String) (req : ExportRequest) : Prop
  | bearer : req.authorization = some ("Bearer " ++ token) → Presents token req
  | cookie {cookieHeader : String} : req.authorization.bind bearerToken? = none →
    req.cookie = some cookieHeader → tokenCookie? cookieHeader = some token.toList →
      Presents token req

/-- A token without white space is taken from the header as it is. -/
theorem bearerToken?_append {token : String} (h : ∀ c ∈ token.toList, isSpace c = false) :
    bearerToken? ("Bearer " ++ token) = some token := by
  have htrim : trim token.toList = token.toList :=
    trim_eq_self (fun c hc => h c (List.mem_of_head? hc)) fun c hc => h c (List.mem_of_getLast? hc)
  have hdrop : ("Bearer ".toList ++ token.toList).drop "Bearer ".length = token.toList :=
    List.drop_left
  rw [bearerToken?, String.toList_append, if_pos (List.isPrefixOf_iff_prefix.2 ⟨_, rfl⟩), hdrop,
    htrim, String.ofList_toList]

/-- A token of characters that are neither white space nor escaped is extracted. -/
theorem extractToken_of_presents {token : String} {req : ExportRequest}
    (hspace : ∀ c ∈ token.toList, isSpace c = false) (hpercent : '%' ∉ token.toList)
    (h : Presents token req) : extractToken req = .ok (some token) := by
  cases h with
  | bearer hauth =>
    rw [extractToken, hauth, Option.bind_some, bearerToken?_append hspace]
  | cookie hauth hcookie hvalue =>
    have hdecode := Percent.decode_eq_some_iff.2 (Percent.encoded_self hpercent)
    rw [extractToken, hauth, hcookie, Option.bind_some, hvalue]
    refine bind_eq_ok.2 ⟨_, okOr_eq_ok.2 hdecode, ?_⟩
    rw [String.ofList_toList]
    rfl

/-- **A token that is signed with the secret is accepted, and its claims are the principal's.** -/
theorem resolvePrincipal_sign {rt : Runtime} (h : rt.Lawful) {secret : String} {nowMs : Int}
    {payload : JsValue} {principal : Principal}
    (hc : Complete rt (nowMs / 1000 : Int) payload principal) {req : ExportRequest}
    (hreq : Presents (signHs256Jwt rt payload secret) req) :
    resolvePrincipal rt req secret nowMs = .ok principal := by
  have hextract := extractToken_of_presents (fun c hc => (mem_sign hc).2.2)
    (fun hmem => (mem_sign hmem).1 rfl) hreq
  have hclaims := hc.claims h
  have hnull : payload.json.value ≠ .null := by
    intro hnull
    have hwallet := hclaims.walletAddress
    rw [hnull] at hwallet
    cases hwallet
  have hverify := verifyHs256Jwt_sign h secret hc.readable hnull hc.exp
  have hprincipal := principalFromPayload_eq_ok.2 hclaims
  have hne : signHs256Jwt rt payload secret ≠ "" := by
    intro hempty
    have hsplit := splitOn_sign rt payload secret
    rw [hempty] at hsplit
    cases hsplit
  rw [resolvePrincipal, hextract, ok_bind]
  dsimp only
  rw [if_neg hne, mapError_eq_ok]
  exact bind_eq_ok.2 ⟨_, hverify, hprincipal⟩

/-- **Whom a request is taken to be from.** The principal has the claims of a verified token of the
request, or the request is answered with 401, exactly if its cookie decodes where it is asked for;
and tokens that are signed with the secret are accepted. -/
theorem authentication_iff {rt : Runtime} (h : rt.Lawful) (secret : String) (nowMs : Int) :
    (∀ req, Sound rt req secret nowMs (resolvePrincipal rt req secret nowMs) ↔ TokenDecodes req) ∧
      ∀ payload principal, Complete rt (nowMs / 1000 : Int) payload principal →
        ∀ req, Presents (signHs256Jwt rt payload secret) req →
          resolvePrincipal rt req secret nowMs = .ok principal :=
  ⟨fun _ => resolvePrincipal_sound_iff, fun _ _ hc _ hreq => resolvePrincipal_sign h hc hreq⟩

/-- A runtime with one signature, whose numerals are those of natural numbers. -/
def sampleRuntime : Runtime where
  hmacSha256 secret text :=
    if secret = "test-secret" ∧ text = "eyJhbGciOiJIUzI1NiIsInR5cCI6IkpXVCJ9." ++
        "eyJzdWIiOjQyLCJ3YWxsZXRBZGRyZXNzIjoiR0FCQyIsInJvbGUiOiJBZG1pbiIsImV4cCI6NDEwMjQ0NDgwMH0"
    then
      [21, 142, 99, 95, 85, 5, 220, 113, 242, 113, 225, 113, 161, 234, 166, 107, 24, 70, 86, 117,
        192, 23, 1, 59, 89, 142, 108, 163, 23, 244, 157, 30]
    else []
  fromBase64 := Base64.decode
  toLowerCase text := String.ofList (text.toList.map Char.toLower)
  number chars :=
    if h : chars ≠ [] ∧ chars.all isNumeralChar = true then
      .finite ⟨chars, h.1, List.all_eq_true.1 h.2⟩
    else .infinite false
  value n := (n.chars.foldl (fun value c => value * 10 + (c.toNat - '0'.toNat)) 0 : Nat)

theorem sampleRuntime_lawful : sampleRuntime.Lawful where
  fromBase64_digits := Base64.decode_digits
  toLowerCase_ne_empty text hne hempty := by
    refine hne (String.toList_eq_nil_iff.1 ?_)
    exact List.map_eq_nil_iff.1 (String.ofList_eq_empty_iff.1 hempty)

/-- The claims of a token that is good until 2100. -/
def samplePayload : JsValue := .obj [("sub", .num (.finite (.ofNat 42))),
  ("walletAddress", .str "GABC"), ("role", .str "Admin"),
  ("exp", .num (.finite (.ofNat 4102444800)))]

theorem sampleRuntime_number (n : Numeral) : sampleRuntime.number n.chars = .finite n :=
  dif_pos ⟨n.ne_nil, List.all_eq_true.2 n.numeral⟩

theorem samplePayload_complete :
    Complete sampleRuntime (1767225600000 / 1000 : Int) samplePayload ⟨"42", "GABC", "admin"⟩ where
  readable := ⟨⟨by decide, sampleRuntime_number _⟩, trivial, trivial,
    ⟨by decide, sampleRuntime_number _⟩, trivial⟩
  sub := ⟨_, rfl, .number (.ofNat 42)⟩
  walletAddress := rfl
  walletAddress_ne_empty := by decide
  role := ⟨"Admin", rfl, by decide, by decide⟩
  exp n hn := by
    cases hn
    change ((1767225600000 / 1000 : Int) : ℚ) < sampleRuntime.value (.ofNat 4102444800)
    decide +kernel

theorem sample_authenticated :
    resolvePrincipal sampleRuntime
        ⟨some ("Bearer " ++ signHs256Jwt sampleRuntime samplePayload "test-secret"), none⟩
        "test-secret" 1767225600000 = .ok ⟨"42", "GABC", "admin"⟩ :=
  (authentication_iff sampleRuntime_lawful "test-secret" 1767225600000).2 samplePayload
    ⟨"42", "GABC", "admin"⟩ samplePayload_complete _ (.bearer rfl)

/-- The token as it is written. -/
example : signHs256Jwt sampleRuntime samplePayload "test-secret" =
    "eyJhbGciOiJIUzI1NiIsInR5cCI6IkpXVCJ9." ++
      "eyJzdWIiOjQyLCJ3YWxsZXRBZGRyZXNzIjoiR0FCQyIsInJvbGUiOiJBZG1pbiIsImV4cCI6NDEwMjQ0NDgwMH0" ++
      ".FY5jX1UF3HHyceFxoeqmaxhGVnXAFwE7WY5soxf0nR4" := by
  decide +kernel

/-- A cookie whose value is a lone percent sign. -/
theorem cookie_throws :
    resolvePrincipal sampleRuntime ⟨none, some "token=%"⟩ "test-secret" 1767225600000 =
        .error .uriError ∧
      ¬ Sound sampleRuntime ⟨none, some "token=%"⟩ "test-secret" 1767225600000
        (resolvePrincipal sampleRuntime ⟨none, some "token=%"⟩ "test-secret" 1767225600000) := by
  have hextract : extractToken ⟨none, some "token=%"⟩ = .error .uriError := by decide
  exact ⟨by rw [resolvePrincipal, hextract]; rfl, not_sound hextract⟩

end AccessGuard

end Compliance

end Backend

end InvoiceFi
