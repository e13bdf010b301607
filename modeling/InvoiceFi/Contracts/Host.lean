import InvoiceFi.Lib.Fallible
import InvoiceFi.Lib.Word

/-!
# The Soroban host, as the contracts see it

What an entry point reads from its environment (`Env`) and the three ways an invocation fails
(`Trap`). A failing invocation is reverted by the host whatever the way, which is the
`Machine.step` of `InvoiceFi.Lib.Machine`; an entry point is therefore modelled as a function from
the storage it finds to `Result`, the storage it leaves or the trap.
-/

namespace InvoiceFi

/-- A Stellar account or contract address. -/
structure Address where
  key : Nat
  deriving DecidableEq, Repr

/-- A Soroban `Symbol`. -/
abbrev Symbol := String

/-- The environment of one invocation: `env.ledger().sequence()`, `env.ledger().timestamp()` and
the addresses that authorized the invocation. -/
structure Env where
  sequence : UInt32
  timestamp : UInt64
  auths : List Address
  deriving DecidableEq, Repr

/-- Why an invocation fails: the contract's typed error (an `Err` returned or a
`panic_with_error!`), an address that did not authorize the call, or a Rust panic. -/
inductive Trap (ε : Type) where
  | error (e : ε)
  | auth (a : Address)
  | panic (msg : String)
  deriving DecidableEq, Repr

/-- The `From` conversion that `?` applies to a library error. -/
def Trap.map {ε ε' : Type} (f : ε → ε') : Trap ε → Trap ε'
  | .error e => .error (f e)
  | .auth a => .auth a
  | .panic msg => .panic msg

/-- The outcome of an invocation. -/
abbrev Result (ε α : Type) := Except (Trap ε) α

/-- `a.require_auth()`. -/
def requireAuth {ε : Type} (env : Env) (a : Address) : Result ε Unit :=
  rejectIf (a ∉ env.auths) (.auth a)

@[simp] theorem requireAuth_eq_ok {ε : Type} {env : Env} {a : Address} {u : Unit} :
    (requireAuth env a : Result ε Unit) = .ok u ↔ a ∈ env.auths := by
  simp [requireAuth]

/-- The reentrancy guard that the pool and the settlement contract keep in instance storage
(`financing-pool/src/types.rs`, `settlement/src/types.rs`). -/
inductive ReentrancyGuard where
  | unlocked
  | locked
  deriving DecidableEq, Repr

end InvoiceFi
