import InvoiceFi.Backend.Idempotency.Replay
import InvoiceFi.Lib.JsValue

/-!
# The fingerprint of a body

A body is compared by the hash of its text, and the text follows the order in which the properties
of its objects come. So the fingerprint tells bodies apart that are equal as JSON values and differ
in that order; and it takes a number that is out of range, which `JSON.parse` reads as infinite and
`JSON.stringify` writes as `null`, for `null`. For all other bodies it identifies the value
(`fingerprint_exact_iff`).
-/

namespace InvoiceFi

namespace Backend

namespace Idempotency

/-- A body as it is parsed from a request: an object, without two properties of one name. -/
structure Body where
  fields : List (String × JsValue)
  unique : (JsValue.obj fields).Unique

/-- The body as a value. -/
def Body.value (body : Body) : JsValue := .obj body.fields

/-- The text that `hashBody` hashes: `JSON.stringify(body ?? {})`. -/
def Body.canonical (body : Body) : String := body.value.stringify

/-- The text of a body is the one that is hashed for a request with that body. -/
theorem hashBody_canonical (sha : Sha256) {request : Request} {body : Body}
    (h : request.body = some body.value.json) :
    hashBody sha request = sha.digest body.canonical := by
  rw [hashBody, Request.json, h]
  rfl

variable {first retry : Request} {body retried : Body}

/-- Two requests with bodies have one hash exactly if their bodies have one text, without
collisions. -/
theorem hashBody_inj {sha : Sha256} (hsha : Function.Injective sha.digest)
    (hbody : first.body = some body.value.json)
    (hretried : retry.body = some retried.value.json) :
    hashBody sha first = hashBody sha retry ↔ body.canonical = retried.canonical := by
  rw [hashBody_canonical sha hbody, hashBody_canonical sha hretried]
  exact hsha.eq_iff

/-- The cache answers a retry with 409 for its body exactly if the text of the body is another. -/
theorem replayFromCache_reused_iff {sha : Sha256} (hsha : Function.Injective sha.digest)
    {cached : IdempotencyRecord}
    (h : cached.bodyHash = hashBody sha first) (hbody : first.body = some body.value.json)
    (hretried : retry.body = some retried.value.json) :
    replayFromCache cached cached.userId (hashBody sha retry) = .error reusedKey ↔
      body.canonical ≠ retried.canonical := by
  rw [← (hashBody_inj hsha hbody hretried).ne, ← h]
  by_cases hhash : cached.bodyHash = hashBody sha retry
  · rw [replayFromCache_eq_ok.2 ⟨rfl, hhash, rfl⟩]
    exact iff_of_false nofun (not_not.2 hhash)
  · refine iff_of_true ?_ hhash
    rw [replayFromCache, rejectIf, if_neg (not_not.2 rfl), rejectIf, if_pos hhash]
    rfl

/-- So does the table. -/
theorem replayExisting_reused_iff {sha : Sha256} (hsha : Function.Injective sha.digest)
    {existing : IdempotencyKey}
    (h : existing.bodyHash = hashBody sha first) (hbody : first.body = some body.value.json)
    (hretried : retry.body = some retried.value.json) :
    replayExisting existing (hashBody sha retry) = .error reusedKey ↔
      body.canonical ≠ retried.canonical := by
  rw [← (hashBody_inj hsha hbody hretried).ne, ← h]
  by_cases hhash : existing.bodyHash = hashBody sha retry
  · refine iff_of_false ?_ (not_not.2 hhash)
    rw [replayExisting, rejectIf, if_neg (not_not.2 hhash), rejectIf]
    split
    · exact fun heq => absurd (Except.error.inj heq) (by decide)
    · exact fun heq => by cases heq
  · refine iff_of_true ?_ hhash
    rw [replayExisting, rejectIf, if_pos hhash]
    rfl

/-! ## What the fingerprint identifies -/

/-- The bodies are equal as JSON values, with the properties of an object in another order. -/
def Reordered (b₁ b₂ : Body) : Prop := b₁.value.Same b₂.value ∧ b₁.value ≠ b₂.value

/-- The bodies differ, but only in numbers out of range, which are written as `null`. -/
def Blurred (b₁ b₂ : Body) : Prop := b₁.value.Agree b₂.value ∧ b₁.value ≠ b₂.value

/-- **The fingerprint identifies a body**, as compared with another one, exactly if neither the two
are equal but for the order of properties, nor they differ in numbers out of range alone. -/
theorem fingerprint_exact_iff (b₁ b₂ : Body) :
    (b₁.canonical = b₂.canonical ↔ b₁.value.Same b₂.value) ↔
      ¬ Reordered b₁ b₂ ∧ ¬ Blurred b₁ b₂ := by
  have h := JsValue.stringify_same_iff (w := b₂.value) b₁.unique
  rw [Reordered, Blurred, not_and_not_right, not_and_not_right]
  exact h

/-- The body of a settlement. -/
def settleBody : Body :=
  ⟨[("invoiceId", .str "7"), ("amount", .str "100")], by decide, trivial, trivial, trivial⟩

/-- The same body from a serializer that emits the keys in another order. -/
def swappedBody : Body :=
  ⟨[("amount", .str "100"), ("invoiceId", .str "7")], by decide, trivial, trivial, trivial⟩

/-- A body with a number out of range, as `1e400`. -/
def infiniteBody : Body := ⟨[("amount", .num (.infinite false))], by decide, trivial, trivial⟩

/-- A body without the number. -/
def nullBody : Body := ⟨[("amount", .null)], by decide, trivial, trivial⟩

/-- The order of the keys changes the fingerprint, and a number out of range has the fingerprint of
`null`. -/
theorem fingerprint_not_exact :
    ¬ (settleBody.canonical = swappedBody.canonical ↔
      settleBody.value.Same swappedBody.value) ∧
    ¬ (infiniteBody.canonical = nullBody.canonical ↔
      infiniteBody.value.Same nullBody.value) := by
  constructor
  · intro h
    have hsame : settleBody.value.Same swappedBody.value := .obj (SameFields.refl _) (.swap ..)
    have hfields := Json.obj.inj (JsValue.stringify_eq_iff.1 (h.2 hsame)).json_eq
    exact absurd (Prod.mk.inj (List.cons.inj hfields).1).1 (by decide)
  · intro h
    cases h.1 rfl with
    | obj hfields hperm =>
      -- the number is a number in every object that is equal
      cases hfields with
      | cons name hvalue hrest =>
        cases hvalue
        cases hrest
        cases List.perm_singleton.1 hperm.symm

end Idempotency

end Backend

end InvoiceFi
