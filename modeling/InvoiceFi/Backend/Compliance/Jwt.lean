import InvoiceFi.Backend.Compliance.Exports
import InvoiceFi.Lib.Base64
import InvoiceFi.Lib.Fallible
import InvoiceFi.Lib.JsonParse
import Mathlib.Data.List.DropRight
import Mathlib.Algebra.Order.Ring.Rat

/-!
# Signed tokens (`compliance/jwt.ts`, `compliance/principal.ts`)

A token has three segments: the texts of a header and of a payload, in the digits of base64 for
URLs, and a signature of the two. `verifyHs256Jwt` yields the payload of a token, whatever JSON
value it is, and `principalFromPayload` reads the claims off it.

What the runtime computes is a parameter (`Runtime`), with what is said of it in `Runtime.Lawful`.
Errors are given by their messages; those of the language are the messages of its `TypeError`s. The
nesting of a text is not limited by the stack.
-/

namespace InvoiceFi

namespace Backend

namespace Compliance

namespace Jwt

/-- What the runtime computes. -/
structure Runtime where
  /-- `createHmac('sha256', secret).update(text).digest()`. -/
  hmacSha256 : String → String → List UInt8
  /-- `Buffer.from(text, 'base64')`. -/
  fromBase64 : List Char → List UInt8
  /-- `text.toLowerCase()`. -/
  toLowerCase : String → String
  /-- The number of a numeral in a JSON text. -/
  number : List Char → JsNumber
  /-- The value of a finite number. -/
  value : Numeral → ℚ

/-- Octets are read back from their digits without padding, and no text but the empty one is empty
in lower case. -/
structure Runtime.Lawful (rt : Runtime) : Prop where
  fromBase64_digits : ∀ bytes : List UInt8, rt.fromBase64 (Base64.digits bytes) = bytes
  toLowerCase_ne_empty : ∀ text : String, text ≠ "" → rt.toLowerCase text ≠ ""

/-! ## Values of the language -/

/-- The message of the `TypeError` for a value that has no text. -/
def cannotConvert : String := "Cannot convert object to primitive value"

/-- `value[name]`, `undefined` where there is no such property. -/
def member (value : JsValue) (name : String) : Except String (Option JsValue) :=
  match value with
  | .null => .error ("Cannot read properties of null (reading '" ++ name ++ "')")
  | value => .ok (value.get? name)

/-- `String(n)`. -/
def numberText : JsNumber → String
  | .finite n => String.ofList n.chars
  | .infinite negative => if negative then "-Infinity" else "Infinity"

mutual

/-- `String(value)`. An object whose own `toString` is no function has no text. -/
def text? : JsValue → Option String
  | .null => some "null"
  | .bool b => some (if b then "true" else "false")
  | .num n => some (numberText n)
  | .str s => some s
  | .arr items => (itemTexts? items).map fun texts => ",".intercalate texts
  | .obj fields => if fields.any (fun field => field.1 = "toString") then none
    else some "[object Object]"

/-- The texts that an array joins. -/
def itemTexts? : List JsValue → Option (List String)
  | [] => some []
  | .null :: rest => (itemTexts? rest).map ("" :: ·)
  | item :: rest => do
    let text ← text? item
    let texts ← itemTexts? rest
    some (text :: texts)

end

/-- `value === text`. -/
def isText (text : String) : Option JsValue → Bool
  | some (.str s) => s = text
  | _ => false

/-! ## Tokens -/

/-- A digit of base64 in the alphabet for URLs. -/
def toUrl (c : Char) : Char := if c = '+' then '-' else if c = '/' then '_' else c

/-- A digit of the alphabet for URLs in the usual one. -/
def ofUrl (c : Char) : Char := if c = '-' then '+' else if c = '_' then '/' else c

/-- `base64UrlDecode`. -/
def base64UrlDecode (rt : Runtime) (input : List Char) : List UInt8 :=
  rt.fromBase64 (input.map ofUrl)

/-- `base64UrlEncode`. -/
def base64UrlEncode (input : List UInt8) : List Char :=
  ((Base64.encode input).map toUrl).rdropWhile fun c => c = '='

/-- `JSON.parse(base64UrlDecode(segment).toString('utf8'))`. -/
def parseSegment (rt : Runtime) (segment : List Char) : Option JsValue :=
  JsonParse.parse rt.number (Utf8.decode (base64UrlDecode rt segment))

/-- What the signature of a token signs. -/
def signed (encodedHeader encodedPayload : List Char) : String :=
  String.ofList (encodedHeader ++ '.' :: encodedPayload)

/-- The message for an algorithm that is not accepted. -/
def unsupported (alg : Option JsValue) : String :=
  match alg with
  | none => "Unsupported algorithm: undefined"
  | some alg => ((text? alg).map fun text => "Unsupported algorithm: " ++ text).getD cannotConvert

/-- `timingSafeEqual`, for buffers of one length. -/
def timingSafeEqual (expected provided : List UInt8) : Bool := expected = provided

/-- `nowSeconds >= n`. -/
def reached (rt : Runtime) (nowSeconds : ℚ) : JsNumber → Bool
  | .finite n => rt.value n ≤ nowSeconds
  | .infinite negative => negative

/-- `typeof exp === 'number' && nowSeconds >= exp`. -/
def expired (rt : Runtime) (nowSeconds : ℚ) : Option JsValue → Bool
  | some (.num n) => reached rt nowSeconds n
  | _ => false

/-- `verifyHs256Jwt`. -/
def verifyHs256Jwt (rt : Runtime) (token secret : String) (nowSeconds : ℚ) :
    Except String JsValue :=
  match token.toList.splitOn '.' with
  | [encodedHeader, encodedPayload, encodedSignature] => do
    let header ← okOr (parseSegment rt encodedHeader) "Invalid token header"
    let alg ← member header "alg"
    rejectIf (¬ isText "HS256" alg) (unsupported alg)
    let expected := rt.hmacSha256 secret (signed encodedHeader encodedPayload)
    let provided := base64UrlDecode rt encodedSignature
    rejectIf (expected.length ≠ provided.length ∨ ¬ timingSafeEqual expected provided)
      "Invalid signature"
    let payload ← okOr (parseSegment rt encodedPayload) "Invalid token payload"
    let exp ← member payload "exp"
    rejectIf (expired rt nowSeconds exp) "Token expired"
    return payload
  | _ => .error "Malformed token"

/-- `{ alg: 'HS256', typ: 'JWT' }`. -/
def header : JsValue := .obj [("alg", .str "HS256"), ("typ", .str "JWT")]

/-- The segment of a value. -/
def segment (value : JsValue) : List Char := base64UrlEncode (Utf8.encode value.stringify.toList)

/-- `signHs256Jwt`. -/
def signHs256Jwt (rt : Runtime) (payload : JsValue) (secret : String) : String :=
  let body := segment payload
  let signature := base64UrlEncode (rt.hmacSha256 secret (signed (segment header) body))
  String.ofList (segment header ++ '.' :: body ++ '.' :: signature)

/-! ## Claims -/

/-- `typeof claim === 'string' ? claim : ''`. -/
def claimText : Option JsValue → String
  | some (.str s) => s
  | _ => ""

/-- `typeof role === 'string' ? role.toLowerCase() : ''`. -/
def roleText (rt : Runtime) : Option JsValue → String
  | some (.str role) => rt.toLowerCase role
  | _ => ""

/-- `sub === undefined || sub === null ? '' : String(sub)`. -/
def subText : Option JsValue → Except String String
  | none | some .null => .ok ""
  | some sub => okOr (text? sub) cannotConvert

/-- `principalFromPayload`. -/
def principalFromPayload (rt : Runtime) (payload : JsValue) : Except String Principal := do
  let claim ← member payload "role"
  let role := roleText rt claim
  let claim ← member payload "walletAddress"
  let walletAddress := claimText claim
  let claim ← member payload "sub"
  let userId ← subText claim
  rejectIf (role = "" ∨ walletAddress = "" ∨ userId = "") "Token missing required identity claims"
  return ⟨userId, walletAddress, role⟩

/-! ## What is read off a token -/

/-- The number is later. -/
def After (rt : Runtime) (nowSeconds : ℚ) : JsNumber → Prop
  | .finite n => nowSeconds < rt.value n
  | .infinite negative => negative = false

theorem reached_eq_false_iff {rt : Runtime} {nowSeconds : ℚ} {n : JsNumber} :
    reached rt nowSeconds n = false ↔ After rt nowSeconds n := by
  cases n with
  | finite n => rw [reached, decide_eq_false_iff_not, not_le, After]
  | infinite negative => exact Iff.rfl

/-- The segments are those of a token of the payload: signed with the secret, for HS256, and not
expired. -/
structure Verified (rt : Runtime) (secret : String) (nowSeconds : ℚ)
    (encodedHeader encodedPayload encodedSignature : List Char) (payload : JsValue) : Prop where
  header : ∃ header, parseSegment rt encodedHeader = some header ∧
    header.get? "alg" = some (.str "HS256")
  signature : base64UrlDecode rt encodedSignature =
    rt.hmacSha256 secret (signed encodedHeader encodedPayload)
  payload_eq : parseSegment rt encodedPayload = some payload
  ne_null : payload ≠ .null
  exp : ∀ n, payload.get? "exp" = some (.num n) → After rt nowSeconds n

theorem member_eq_ok {value : JsValue} {name : String} {found : Option JsValue} :
    member value name = .ok found ↔ value ≠ .null ∧ value.get? name = found := by
  unfold member
  split
  · next => exact ⟨nofun, fun h => absurd rfl h.1⟩
  · next hne => exact ⟨fun h => ⟨hne, Except.ok.inj h⟩, fun h => congrArg _ h.2⟩

theorem isText_iff {text : String} {found : Option JsValue} :
    isText text found = true ↔ found = some (.str text) := by
  unfold isText
  split
  · next s => rw [decide_eq_true_iff, Option.some.injEq, JsValue.str.injEq]
  · next hne =>
    refine ⟨nofun, fun h => absurd h (hne text)⟩

theorem expired_eq_false_iff {rt : Runtime} {nowSeconds : ℚ} {exp : Option JsValue} :
    expired rt nowSeconds exp = false ↔ ∀ n, exp = some (.num n) → After rt nowSeconds n := by
  unfold expired
  split
  · next n =>
    rw [reached_eq_false_iff]
    refine ⟨fun h m hm => ?_, fun h => h n rfl⟩
    cases hm
    exact h
  · next hne => exact ⟨fun _ n hn => absurd hn (hne n), fun _ => rfl⟩

/-- The signature check compares the two as they stand. -/
theorem signature_ok_iff {expected provided : List UInt8} :
    ¬ (expected.length ≠ provided.length ∨ ¬ timingSafeEqual expected provided = true) ↔
      provided = expected := by
  rw [not_or, not_not, not_not, timingSafeEqual, decide_eq_true_iff]
  exact ⟨fun h => h.2.symm, fun h => ⟨congrArg _ h.symm, h.symm⟩⟩

/-- **What `verifyHs256Jwt` accepts**: three segments of a token of the payload. -/
theorem verifyHs256Jwt_eq_ok {rt : Runtime} {token secret : String} {nowSeconds : ℚ}
    {payload : JsValue} : verifyHs256Jwt rt token secret nowSeconds = .ok payload ↔
      ∃ encodedHeader encodedPayload encodedSignature,
        token.toList.splitOn '.' = [encodedHeader, encodedPayload, encodedSignature] ∧
        Verified rt secret nowSeconds encodedHeader encodedPayload encodedSignature payload := by
  constructor
  · intro h
    unfold verifyHs256Jwt at h
    split at h
    · next encodedHeader encodedPayload encodedSignature hsplit =>
      simp only [bind_eq_ok, okOr_eq_ok, rejectIf_eq_ok, pure_eq_ok, member_eq_ok,
        signature_ok_iff] at h
      obtain ⟨header, hheader, alg, ⟨-, halg⟩, -, htext, -, hsignature, payload, hpayload, exp,
        ⟨hnull, hexp⟩, -, hunexpired, rfl⟩ := h
      refine ⟨_, _, _, hsplit, ⟨header, hheader, ?_⟩, hsignature, hpayload, hnull, ?_⟩
      · rw [halg]
        exact isText_iff.1 (not_not.1 htext)
      · rw [hexp]
        exact expired_eq_false_iff.1 (Bool.eq_false_iff.2 hunexpired)
    · cases h
  · rintro ⟨encodedHeader, encodedPayload, encodedSignature, hsplit, hverified⟩
    obtain ⟨header, hheader, halg⟩ := hverified.header
    have hnull : header ≠ .null := by
      rintro rfl
      cases halg
    have hunexpired := expired_eq_false_iff.2 hverified.exp
    unfold verifyHs256Jwt
    rw [hsplit]
    simp only [bind_eq_ok, okOr_eq_ok, rejectIf_eq_ok, pure_eq_ok, member_eq_ok, signature_ok_iff]
    exact ⟨header, hheader, _, ⟨hnull, rfl⟩, (), not_not.2 (isText_iff.2 halg), (),
      hverified.signature, payload, hverified.payload_eq, _, ⟨hverified.ne_null, rfl⟩, (),
      Bool.eq_false_iff.1 hunexpired, rfl⟩

/-- The principal has the claims of the payload. -/
structure Claims (rt : Runtime) (payload : JsValue) (principal : Principal) : Prop where
  role : ∃ role, payload.get? "role" = some (.str role) ∧ principal.role = rt.toLowerCase role
  walletAddress : payload.get? "walletAddress" = some (.str principal.walletAddress)
  sub : ∃ sub, payload.get? "sub" = some sub ∧ sub ≠ .null ∧ text? sub = some principal.userId
  role_ne_empty : principal.role ≠ ""
  walletAddress_ne_empty : principal.walletAddress ≠ ""
  userId_ne_empty : principal.userId ≠ ""

theorem roleText_ne_empty {rt : Runtime} {claim : Option JsValue} (h : roleText rt claim ≠ "") :
    ∃ role, claim = some (.str role) ∧ roleText rt claim = rt.toLowerCase role := by
  unfold roleText at h ⊢
  split at h
  · next role => exact ⟨role, rfl, rfl⟩
  · exact absurd rfl h

theorem claimText_ne_empty {claim : Option JsValue} (h : claimText claim ≠ "") :
    claim = some (.str (claimText claim)) := by
  unfold claimText at h ⊢
  split at h
  · rfl
  · exact absurd rfl h

theorem subText_eq_ok {claim : Option JsValue} {userId : String} (hne : userId ≠ "") :
    subText claim = .ok userId ↔
      ∃ sub, claim = some sub ∧ sub ≠ .null ∧ text? sub = some userId := by
  unfold subText
  split
  · exact ⟨fun h => absurd (Except.ok.inj h).symm hne, fun h => by simp at h⟩
  · exact ⟨fun h => absurd (Except.ok.inj h).symm hne, fun h => by simp at h⟩
  · next sub hnull =>
    rw [okOr_eq_ok]
    refine ⟨fun h => ⟨sub, rfl, hnull, h⟩, fun h => ?_⟩
    obtain ⟨sub', heq, -, htext⟩ := h
    cases heq
    exact htext

/-- **What `principalFromPayload` yields**: the claims of the payload, none of them empty. -/
theorem principalFromPayload_eq_ok {rt : Runtime} {payload : JsValue} {principal : Principal} :
    principalFromPayload rt payload = .ok principal ↔ Claims rt payload principal := by
  unfold principalFromPayload
  simp only [bind_eq_ok, rejectIf_eq_ok, pure_eq_ok, member_eq_ok, not_or]
  constructor
  · rintro ⟨role, ⟨-, rfl⟩, wallet, ⟨-, rfl⟩, sub, ⟨-, rfl⟩, userId, huserId, -,
      ⟨hrole, hwallet, huser⟩, rfl⟩
    exact ⟨roleText_ne_empty hrole, claimText_ne_empty hwallet, (subText_eq_ok huser).1 huserId,
      hrole, hwallet, huser⟩
  · rintro ⟨⟨role, hrole, hlower⟩, hwallet, hsub, hrole_ne, hwallet_ne, huser_ne⟩
    have hnull : payload ≠ .null := by
      rintro rfl
      cases hwallet
    rw [hlower] at hrole_ne
    refine ⟨_, ⟨hnull, hrole⟩, _, ⟨hnull, hwallet⟩, _, ⟨hnull, rfl⟩, _,
      (subText_eq_ok huser_ne).2 hsub, (), ⟨hrole_ne, hwallet_ne, huser_ne⟩, ?_⟩
    change principal = ⟨principal.userId, principal.walletAddress, rt.toLowerCase role⟩
    rw [← hlower]

/-- The text of `sub`, if it has one. -/
def sub? : Option JsValue → Option String
  | none | some .null => none
  | some sub => text? sub

/-- The claims that the exports are given. -/
def claims (payload : JsValue) : JwtPayload where
  sub := sub? (payload.get? "sub")
  walletAddress := some (claimText (payload.get? "walletAddress"))
  role := some (claimText (payload.get? "role"))

theorem roleText_eq {rt : Runtime} {claim : Option JsValue}
    (hlower : ∀ role, claim = some (.str role) → rt.toLowerCase role = role.toLower) :
    roleText rt claim = (claimText claim).toLower := by
  unfold roleText claimText
  split
  · next role => exact hlower role rfl
  · exact (String.map_eq_empty.2 rfl).symm

theorem subText_eq {claim : Option JsValue} (htext : ∀ sub, claim = some sub → text? sub ≠ none) :
    subText claim = .ok ((sub? claim).getD "") := by
  unfold subText sub?
  split
  · rfl
  · rfl
  · next sub _ =>
    obtain ⟨text, htext⟩ := Option.ne_none_iff_exists'.1 (htext sub rfl)
    rw [htext]
    rfl

/-- The claims make the principal of the exports, where the role is lowered as theirs is and `sub`
has a text. -/
theorem principalFromPayload_claims {rt : Runtime} {payload : JsValue} (hnull : payload ≠ .null)
    (hlower : ∀ role, payload.get? "role" = some (.str role) → rt.toLowerCase role = role.toLower)
    (htext : ∀ sub, payload.get? "sub" = some sub → text? sub ≠ none) :
    principalFromPayload rt payload = Compliance.principalFromPayload (claims payload) := by
  have hmember : ∀ name, member payload name = .ok (payload.get? name) := fun name =>
    member_eq_ok.2 ⟨hnull, rfl⟩
  unfold principalFromPayload Compliance.principalFromPayload
  rw [hmember, ok_bind, hmember, ok_bind, hmember, ok_bind, subText_eq htext, ok_bind,
    roleText_eq hlower, rejectIf]
  dsimp only [claims, Option.getD_some]
  split <;> rfl

/-! ## Tokens that are signed here -/

/-- The characters of a segment: they separate neither segments nor cookies, and are no white
space. -/
theorem toUrl_digit : ∀ n < 64, toUrl (Base64.digit n) ∉ ['.', '%', '='] ∧
    isSpace (toUrl (Base64.digit n)) = false ∧ ofUrl (toUrl (Base64.digit n)) = Base64.digit n := by
  decide

/-- Padding is stripped. -/
theorem rdropWhile_padding (text : List Char) (k : Nat) :
    (text ++ List.replicate k '=').rdropWhile (fun c => c = '=') =
      text.rdropWhile fun c => c = '=' := by
  induction k with
  | zero => rw [List.replicate_zero, List.append_nil]
  | succ k ih =>
    rw [List.replicate_succ', ← List.append_assoc, List.rdropWhile_concat_pos _ _ _ (by simp), ih]

theorem base64UrlEncode_eq (bytes : List UInt8) :
    base64UrlEncode bytes = (Base64.digits bytes).map toUrl := by
  rw [base64UrlEncode, Base64.encode, List.map_append, List.map_replicate]
  refine (rdropWhile_padding _ _).trans (List.rdropWhile_eq_self_iff.2 fun hne => ?_)
  obtain ⟨c, hc, heq⟩ := List.mem_map.1 (List.getLast_mem hne)
  obtain ⟨n, hn, rfl⟩ := Base64.exists_of_mem hc
  have hnot := (toUrl_digit n hn).1
  rw [← heq, decide_eq_true_iff]
  intro hpad
  rw [hpad] at hnot
  exact hnot (by decide)

/-- A character of a segment that is written here. -/
theorem mem_base64UrlEncode {bytes : List UInt8} {c : Char} (hc : c ∈ base64UrlEncode bytes) :
    c ∉ ['.', '%', '='] ∧ isSpace c = false := by
  rw [base64UrlEncode_eq] at hc
  obtain ⟨d, hd, rfl⟩ := List.mem_map.1 hc
  obtain ⟨n, hn, rfl⟩ := Base64.exists_of_mem hd
  exact ⟨(toUrl_digit n hn).1, (toUrl_digit n hn).2.1⟩

section
variable {rt : Runtime} (h : rt.Lawful)
include h

/-- Octets are read back from the segment that they are written as. -/
theorem base64UrlDecode_encode (bytes : List UInt8) :
    base64UrlDecode rt (base64UrlEncode bytes) = bytes := by
  have hdigits : ((Base64.digits bytes).map toUrl).map ofUrl = Base64.digits bytes := by
    rw [List.map_map]
    refine (List.map_congr_left fun c hc => ?_).trans (List.map_id _)
    obtain ⟨n, hn, rfl⟩ := Base64.exists_of_mem hc
    exact (toUrl_digit n hn).2.2
  rw [base64UrlEncode_eq, base64UrlDecode, hdigits, h.fromBase64_digits]

/-- A value is read back from its segment. -/
theorem parseSegment_segment {value : JsValue} (hread : JsonParse.Readable rt.number value.json) :
    parseSegment rt (segment value) = some value.json.value := by
  rw [parseSegment, segment, base64UrlDecode_encode h, Utf8.decode_encode, JsValue.stringify,
    JsonParse.parse_stringify hread]

end

/-- The signature of a token of a payload. -/
def signature (rt : Runtime) (payload : JsValue) (secret : String) : List Char :=
  base64UrlEncode (rt.hmacSha256 secret (signed (segment header) (segment payload)))

/-- Three segments are told apart where none has a dot. -/
theorem splitOn_dots {a b c : List Char} (ha : '.' ∉ a) (hb : '.' ∉ b) (hc : '.' ∉ c) :
    (a ++ '.' :: b ++ '.' :: c).splitOn '.' = [a, b, c] := by
  have hjoin : a ++ '.' :: b ++ '.' :: c = ['.'].intercalate [a, b, c] := by
    simp [List.intercalate]
  rw [hjoin]
  refine List.splitOn_intercalate '.' (fun text htext => ?_) (List.cons_ne_nil _ _)
  simp only [List.mem_cons, List.not_mem_nil, or_false] at htext
  rcases htext with rfl | rfl | rfl
  · exact ha
  · exact hb
  · exact hc

theorem dot_not_mem (bytes : List UInt8) : '.' ∉ base64UrlEncode bytes := fun hc =>
  (mem_base64UrlEncode hc).1 (.head _)

/-- The segments of a token that is signed here. -/
theorem splitOn_sign (rt : Runtime) (payload : JsValue) (secret : String) :
    (signHs256Jwt rt payload secret).toList.splitOn '.' =
      [segment header, segment payload, signature rt payload secret] := by
  rw [signHs256Jwt, String.toList_ofList]
  exact splitOn_dots (dot_not_mem _) (dot_not_mem _) (dot_not_mem _)

/-- A character of a token that is signed here. -/
theorem mem_sign {rt : Runtime} {payload : JsValue} {secret : String} {c : Char}
    (hc : c ∈ (signHs256Jwt rt payload secret).toList) : c ≠ '%' ∧ c ≠ '=' ∧ isSpace c = false := by
  have hdigit : ∀ bytes : List UInt8, c ∈ base64UrlEncode bytes →
      c ≠ '%' ∧ c ≠ '=' ∧ isSpace c = false := by
    intro bytes hmem
    obtain ⟨hnot, hspace⟩ := mem_base64UrlEncode hmem
    refine ⟨?_, ?_, hspace⟩
    · rintro rfl
      exact hnot (by decide)
    · rintro rfl
      exact hnot (by decide)
  rw [signHs256Jwt, String.toList_ofList, List.mem_append, List.mem_append, List.mem_cons,
    List.mem_cons] at hc
  rcases hc with (hc | rfl | hc) | rfl | hc
  · exact hdigit _ hc
  · decide
  · exact hdigit _ hc
  · decide
  · exact hdigit _ hc

/-- A number among the properties of a payload that is read back is one of the payload. -/
theorem get?_eq_num {payload : JsValue} {name : String} {n : JsNumber}
    (h : payload.json.value.get? name = some (.num n)) : payload.get? name = some (.num n) := by
  rw [JsValue.get?_json_value] at h
  obtain ⟨found, hfound, hn⟩ := Option.map_eq_some_iff.1 h
  rw [hfound]
  cases found with
  | num m =>
    cases m with
    | finite m => exact congrArg some hn
    | infinite negative => cases hn
  | null | bool | str | arr | obj => cases hn

/-- **A token that is signed here is verified with the same secret**, as one of the payload as it is
written, if that is not expired. -/
theorem verifyHs256Jwt_sign {rt : Runtime} (h : rt.Lawful) {payload : JsValue} (secret : String)
    {nowSeconds : ℚ} (hread : JsonParse.Readable rt.number payload.json)
    (hnull : payload.json.value ≠ .null)
    (hexp : ∀ n, payload.get? "exp" = some (.num n) → After rt nowSeconds n) :
    verifyHs256Jwt rt (signHs256Jwt rt payload secret) secret nowSeconds =
      .ok payload.json.value := by
  refine verifyHs256Jwt_eq_ok.2 ⟨_, _, _, splitOn_sign rt payload secret,
    ⟨header.json.value, ?_, by rfl⟩, ?_, ?_, hnull, fun n hn => hexp n (get?_eq_num hn)⟩
  · exact parseSegment_segment h ⟨trivial, trivial, trivial⟩
  · exact base64UrlDecode_encode h _
  · exact parseSegment_segment h hread

/-- The identifier of a payload: a text, or a finite number. -/
inductive Identifier : JsValue → String → Prop
  | text {s : String} : s ≠ "" → Identifier (.str s) s
  | number (n : Numeral) : Identifier (.num (.finite n)) (String.ofList n.chars)

theorem Identifier.claim {sub : JsValue} {userId : String} (h : Identifier sub userId) :
    sub.json.value ≠ .null ∧ text? sub.json.value = some userId ∧ userId ≠ "" := by
  cases h with
  | text hs => exact ⟨nofun, rfl, hs⟩
  | number n =>
    refine ⟨nofun, rfl, fun hempty => n.ne_nil ?_⟩
    exact String.ofList_eq_empty_iff.1 hempty

/-- The payload has complete claims, which are those of the principal, and is not expired. -/
structure Complete (rt : Runtime) (nowSeconds : ℚ) (payload : JsValue) (principal : Principal) :
    Prop where
  readable : JsonParse.Readable rt.number payload.json
  sub : ∃ sub, payload.get? "sub" = some sub ∧ Identifier sub principal.userId
  walletAddress : payload.get? "walletAddress" = some (.str principal.walletAddress)
  walletAddress_ne_empty : principal.walletAddress ≠ ""
  role : ∃ role, payload.get? "role" = some (.str role) ∧ role ≠ "" ∧
    principal.role = rt.toLowerCase role
  exp : ∀ n, payload.get? "exp" = some (.num n) → After rt nowSeconds n

/-- The claims are those of the payload as it is written. -/
theorem Complete.claims {rt : Runtime} (h : rt.Lawful) {nowSeconds : ℚ} {payload : JsValue}
    {principal : Principal} (hc : Complete rt nowSeconds payload principal) :
    Claims rt payload.json.value principal := by
  obtain ⟨role, hrole, hne, hlower⟩ := hc.role
  obtain ⟨sub, hsub, hid⟩ := hc.sub
  obtain ⟨hnull, htext, huser⟩ := hid.claim
  refine ⟨⟨role, ?_, hlower⟩, ?_, ⟨sub.json.value, ?_, hnull, htext⟩, ?_,
    hc.walletAddress_ne_empty, huser⟩
  · rw [JsValue.get?_json_value, hrole]
    rfl
  · rw [JsValue.get?_json_value, hc.walletAddress]
    rfl
  · rw [JsValue.get?_json_value, hsub]
    rfl
  · rw [hlower]
    exact h.toLowerCase_ne_empty role hne

end Jwt

end Compliance

end Backend

end InvoiceFi
