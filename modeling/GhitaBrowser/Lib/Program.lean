import Mathlib.Data.List.Basic

/-!
# Programs as trees of operations

A program is a tree: it performs an operation and goes on with the reply, calls a
procedure and goes on with its result, or ends. Procedures call each other through
the `call` node, so that the text of one procedure is an ordinary definition and
the recursion between them is the business of the interpreter, which spends fuel
on it. An error ends the program. `within` runs a body inside a scope that is left
on both exits; `attempt` runs it under a guard, and the continuation is handed the
error.

A run is cut off when its fuel is gone, in the state it has reached. A property of
all runs, cut off or not, is proved from a `Contract`: it says what one operation and
one scope do, and `Contract.run` carries it to every program and every fuel.
`Traces` is the same semantics with the replies left open.
-/

namespace GhitaBrowser

/-- Errors `ε`, operations `ω` and procedures `γ` indexed by their reply, scopes `κ`,
guards `δ`. -/
inductive Program (ε : Type) (ω : Type → Type 1) (γ : Type → Type) (κ δ : Type) :
    Type → Type 1 where
  | pure {α : Type} (value : α) : Program ε ω γ κ δ α
  | throw {α : Type} (error : ε) : Program ε ω γ κ δ α
  | perform {α β : Type} (operation : ω β) (next : β → Program ε ω γ κ δ α) : Program ε ω γ κ δ α
  | call {α β : Type} (callee : γ β) (next : β → Program ε ω γ κ δ α) : Program ε ω γ κ δ α
  | within {α β : Type} (scope : κ) (body : Program ε ω γ κ δ β)
      (next : β → Program ε ω γ κ δ α) : Program ε ω γ κ δ α
  | attempt {α β : Type} (guard : δ) (body : Program ε ω γ κ δ β)
      (next : Except ε β → Program ε ω γ κ δ α) : Program ε ω γ κ δ α

namespace Program

variable {ε : Type} {ω : Type → Type 1} {γ : Type → Type} {κ δ σ α β : Type}

def bind : Program ε ω γ κ δ α → (α → Program ε ω γ κ δ β) → Program ε ω γ κ δ β
  | .pure value, f => f value
  | .throw error, _ => .throw error
  | .perform operation next, f => .perform operation fun reply => (next reply).bind f
  | .call callee next, f => .call callee fun reply => (next reply).bind f
  | .within scope body next, f => .within scope body fun reply => (next reply).bind f
  | .attempt guard body next, f => .attempt guard body fun reply => (next reply).bind f

instance : Monad (Program ε ω γ κ δ) where
  pure := .pure
  bind := bind

/-- `?` on a result. -/
def ofExcept : Except ε α → Program ε ω γ κ δ α
  | .ok value => .pure value
  | .error error => .throw error

/-- Run `body` inside `scope`. -/
def inside (scope : κ) (body : Program ε ω γ κ δ α) : Program ε ω γ κ δ α :=
  .within scope body .pure

/-- Run `body` under `guard` and look at how it ended. -/
def caught (guard : δ) (body : Program ε ω γ κ δ α) : Program ε ω γ κ δ (Except ε α) :=
  .attempt guard body .pure

def op (operation : ω α) : Program ε ω γ κ δ α := .perform operation .pure

def invoke (callee : γ α) : Program ε ω γ κ δ α := .call callee .pure

/-- The same program over a larger set of operations. -/
def lift {ω' : Type → Type 1} (embed : ∀ {β : Type}, ω β → ω' β) :
    ∀ {α : Type}, Program ε ω γ κ δ α → Program ε ω' γ κ δ α
  | _, .pure value => .pure value
  | _, .throw error => .throw error
  | _, .perform operation next => .perform (embed operation) fun reply => (next reply).lift embed
  | _, .call callee next => .call callee fun reply => (next reply).lift embed
  | _, .within scope body next =>
    .within scope (body.lift embed) fun reply => (next reply).lift embed
  | _, .attempt guard body next =>
    .attempt guard (body.lift embed) fun result => (next result).lift embed

@[simp] theorem pure_eq (value : α) : (Pure.pure value : Program ε ω γ κ δ α) = .pure value := rfl

end Program

/-- What operations, procedures, scopes and guards mean over states `σ`. A scope can
refuse to be entered. -/
structure Handler (ε : Type) (ω : Type → Type 1) (γ : Type → Type) (κ δ σ : Type) where
  perform : ∀ {β : Type}, ω β → σ → Except ε β × σ
  body : ∀ {β : Type}, γ β → Program ε ω γ κ δ β
  enter : κ → σ → Except ε Unit × σ
  /-- The flag says whether the body ended without an error. -/
  leave : κ → Bool → σ → σ
  enterGuard : δ → σ → σ
  leaveGuard : δ → Bool → σ → σ

/-- How a run ended. -/
inductive Finish (ε α : Type) where
  | returned (value : α)
  | failed (error : ε)
  /-- The fuel ran out. -/
  | unfinished

/-- How a run ended, without its result. -/
inductive Exit where
  | returned | failed | unfinished
deriving DecidableEq

def Finish.exit {ε α : Type} : Finish ε α → Exit
  | returned _ => .returned
  | failed _ => .failed
  | unfinished => .unfinished

def exitOf {ε α : Type} : Except ε α → Exit
  | .ok _ => .returned
  | .error _ => .failed

/-- How a run ended and in which state. -/
abbrev Ending (ε α σ : Type) := Finish ε α × σ

namespace Handler

variable {ε : Type} {ω : Type → Type 1} {γ : Type → Type} {κ δ σ α β : Type}

/-- Run a program with `recur` for its calls. -/
def runWith (handler : Handler ε ω γ κ δ σ)
    (recur : ∀ {β : Type}, γ β → σ → Ending ε β σ) :
    ∀ {α : Type}, Program ε ω γ κ δ α → σ → Ending ε α σ
  | _, .pure value, s => (.returned value, s)
  | _, .throw error, s => (.failed error, s)
  | _, .perform operation next, s =>
    match handler.perform operation s with
    | (.ok reply, t) => runWith handler recur (next reply) t
    | (.error error, t) => (.failed error, t)
  | _, .call callee next, s =>
    match recur callee s with
    | (.returned reply, t) => runWith handler recur (next reply) t
    | (.failed error, t) => (.failed error, t)
    | (.unfinished, t) => (.unfinished, t)
  | _, .within scope body next, s =>
    match handler.enter scope s with
    | (.error error, t) => (.failed error, t)
    | (.ok _, t) =>
      match runWith handler recur body t with
      | (.returned reply, u) => runWith handler recur (next reply) (handler.leave scope true u)
      | (.failed error, u) => (.failed error, handler.leave scope false u)
      | (.unfinished, u) => (.unfinished, u)
  | _, .attempt guard body next, s =>
    match runWith handler recur body (handler.enterGuard guard s) with
    | (.returned reply, t) =>
      runWith handler recur (next (.ok reply)) (handler.leaveGuard guard true t)
    | (.failed error, t) =>
      runWith handler recur (next (.error error)) (handler.leaveGuard guard false t)
    | (.unfinished, t) => (.unfinished, t)

/-- Calls with `fuel` levels of calls below them. -/
def callWith (handler : Handler ε ω γ κ δ σ) :
    Nat → ∀ {β : Type}, γ β → σ → Ending ε β σ
  | 0, _, _, s => (.unfinished, s)
  | fuel + 1, _, callee, s => handler.runWith (handler.callWith fuel) (handler.body callee) s

def run (handler : Handler ε ω γ κ δ σ) (fuel : Nat) (program : Program ε ω γ κ δ α) (s : σ) :
    Ending ε α σ :=
  handler.runWith (handler.callWith fuel) program s

@[simp] theorem run_pure (handler : Handler ε ω γ κ δ σ) (fuel : Nat) (value : α) (s : σ) :
    handler.run fuel (.pure value) s = (.returned value, s) := rfl

end Handler

/-! ## Contracts -/

variable {ε : Type} {ω : Type → Type 1} {γ : Type → Type} {κ δ σ : Type}

/-- `Q s exit t` relates the state before a run, how the run ended and the state after
it. The fields are the cases of the interpreter. -/
structure Contract (handler : Handler ε ω γ κ δ σ) (Q : σ → Exit → σ → Prop) : Prop where
  done : ∀ s exit, Q s exit s
  next : ∀ {s t u : σ} {exit : Exit}, Q s .returned t → Q t exit u → Q s exit u
  perform : ∀ {β : Type} (operation : ω β) (s : σ),
    Q s (exitOf (handler.perform operation s).1) (handler.perform operation s).2
  refused : ∀ {s t : σ} {error : ε} (scope : κ),
    handler.enter scope s = (.error error, t) → Q s .failed t
  returned : ∀ {s t u : σ} (scope : κ), handler.enter scope s = (.ok (), t) →
    Q t .returned u → Q s .returned (handler.leave scope true u)
  failed : ∀ {s t u : σ} (scope : κ), handler.enter scope s = (.ok (), t) →
    Q t .failed u → Q s .failed (handler.leave scope false u)
  unfinished : ∀ {s t u : σ} (scope : κ), handler.enter scope s = (.ok (), t) →
    Q t .unfinished u → Q s .unfinished u
  guarded : ∀ {s t : σ} (guard : δ), Q (handler.enterGuard guard s) .returned t →
    Q s .returned (handler.leaveGuard guard true t)
  /-- The error of a guarded body is looked at, and the run goes on. -/
  caught : ∀ {s t : σ} (guard : δ), Q (handler.enterGuard guard s) .failed t →
    Q s .returned (handler.leaveGuard guard false t)
  cut : ∀ {s t : σ} (guard : δ), Q (handler.enterGuard guard s) .unfinished t →
    Q s .unfinished t

namespace Contract

variable {handler : Handler ε ω γ κ δ σ} {Q : σ → Exit → σ → Prop}

/-- One case per node; `recur` already keeps the contract. -/
theorem runWith (contract : Contract handler Q) {recur : ∀ {β : Type}, γ β → σ → Ending ε β σ}
    (hrecur : ∀ {β : Type} (callee : γ β) (s : σ), Q s (recur callee s).1.exit (recur callee s).2) :
    ∀ {α : Type} (program : Program ε ω γ κ δ α) (s : σ),
      Q s (handler.runWith recur program s).1.exit (handler.runWith recur program s).2 := by
  intro α program
  induction program with
  | pure value => exact fun s => contract.done s .returned
  | throw error => exact fun s => contract.done s .failed
  | perform operation next ih =>
    intro s
    have hop := contract.perform operation s
    simp only [Handler.runWith]
    cases hr : handler.perform operation s with
    | mk reply t =>
      rw [hr] at hop
      cases reply with
      | ok value => exact contract.next hop (ih value t)
      | error error => exact hop
  | call callee next ih =>
    intro s
    have hcall := hrecur callee s
    simp only [Handler.runWith]
    cases hr : recur callee s with
    | mk reply t =>
      rw [hr] at hcall
      cases reply with
      | returned value => exact contract.next hcall (ih value t)
      | failed error => exact hcall
      | unfinished => exact hcall
  | within scope body next ihBody ihNext =>
    intro s
    simp only [Handler.runWith]
    cases he : handler.enter scope s with
    | mk entered t =>
      cases entered with
      | error error => exact contract.refused scope he
      | ok _ =>
        have hbody := ihBody t
        simp only
        cases hb : handler.runWith recur body t with
        | mk reply u =>
          rw [hb] at hbody
          cases reply with
          | returned value => exact contract.next (contract.returned scope he hbody) (ihNext value _)
          | failed error => exact contract.failed scope he hbody
          | unfinished => exact contract.unfinished scope he hbody
  | attempt guard body next ihBody ihNext =>
    intro s
    have hbody := ihBody (handler.enterGuard guard s)
    simp only [Handler.runWith]
    cases hb : handler.runWith recur body (handler.enterGuard guard s) with
    | mk reply t =>
      rw [hb] at hbody
      cases reply with
      | returned value => exact contract.next (contract.guarded guard hbody) (ihNext _ _)
      | failed error => exact contract.next (contract.caught guard hbody) (ihNext _ _)
      | unfinished => exact contract.cut guard hbody

theorem callWith (contract : Contract handler Q) (fuel : Nat) :
    ∀ {β : Type} (callee : γ β) (s : σ),
      Q s (handler.callWith fuel callee s).1.exit (handler.callWith fuel callee s).2 := by
  induction fuel with
  | zero => exact fun callee s => contract.done s .unfinished
  | succ fuel ih => exact fun callee s => contract.runWith ih (handler.body callee) s

/-- Every run of every program keeps the contract. -/
theorem run (contract : Contract handler Q) {α : Type} (fuel : Nat)
    (program : Program ε ω γ κ δ α) (s : σ) :
    Q s (handler.run fuel program s).1.exit (handler.run fuel program s).2 :=
  contract.runWith (contract.callWith fuel) program s

end Contract

end GhitaBrowser
