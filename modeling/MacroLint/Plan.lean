import MacroLint.Failure
import MacroLint.Fault

/-!
# Plans

A check puts statements to an oracle, one after the other, and tests parameters in between. It is
written down as a *plan*: a tree that branches at each statement on the answer to it, and ends with
a value or with a diagnostic. Nothing in the type keeps a plan from going on after a rejection, or
from asking something else then. That a rejection ends each check of this library is a property of
its plans, and has to be proved of them.

`Plan` is a monad whose actions are `Plan.ask` and `Plan.fail`. `Plan.trace` puts a plan to an
oracle. An oracle sees the statements it was asked before, so it may be as stateful as it likes.

Main statement: a plan that is followed by another is put to an oracle by putting first the one and
then the other to it (`trace_bind`).
-/

set_option autoImplicit false

namespace MacroLint

/-- A statement to be put to an oracle, with the part that is reported when it is rejected and the
text that part was taken from. -/
structure Probe where
  statement : Text
  part : Part
  fragment : Text
  deriving DecidableEq, Repr

/-- The diagnostic for a probe whose statement was rejected. -/
def Probe.rejected (probe : Probe) (failure : Failure) : Diagnostic :=
  ((Fault.rejected probe.part).report probe.fragment).withDetail failure.cause

@[simp] theorem Probe.kind_rejected (probe : Probe) (failure : Failure) :
    (probe.rejected failure).kind = .statement := rfl

@[simp] theorem Probe.context_rejected (probe : Probe) (failure : Failure) :
    (probe.rejected failure).context = some probe.fragment := rfl

@[simp] theorem Probe.detail_rejected (probe : Probe) (failure : Failure) :
    (probe.rejected failure).detail = some failure.cause := rfl

@[simp] theorem Probe.usage_rejected (probe : Probe) (failure : Failure) :
    (probe.rejected failure).usage = none := rfl

/-- What a check may ask and do. -/
inductive Plan (α : Type) where
  /-- The check ends with a value. -/
  | done (a : α)
  /-- The check ends with a diagnostic. -/
  | stop (d : Diagnostic)
  /-- A statement is put to the oracle. How the check goes on may depend on the answer, which is
  `none` for a statement that is accepted. -/
  | put (statement : Text) (next : Option Failure → Plan α)

namespace Plan

/-- Ends the check with a fault found in a text. -/
def fail {α : Type} (fault : Fault) (context : Text) : Plan α := stop (fault.report context)

/-- Puts one statement to the oracle, and ends the check if it is rejected. -/
def ask (probe : Probe) : Plan Unit :=
  put probe.statement fun
    | none => done ()
    | some failure => stop (probe.rejected failure)

/-- Goes on with the value of a plan, where that plan ends with one. -/
def andThen {α β : Type} : Plan α → (α → Plan β) → Plan β
  | done a, next => next a
  | stop d, _ => stop d
  | put statement answered, next => put statement fun answer => (answered answer).andThen next

instance : Monad Plan where
  pure := done
  bind := andThen

/-- Steps may be grouped as one likes: what counts is their order. -/
instance : LawfulMonad Plan := LawfulMonad.mk' Plan
  (by
    intro α p
    induction p with
    | done a => rfl
    | stop d => rfl
    | put statement answered ih => exact congrArg (put statement) (funext ih))
  (by intro α β a f; rfl)
  (by
    intro α β γ p f g
    induction p with
    | done a => rfl
    | stop d => rfl
    | put statement answered ih => exact congrArg (put statement) (funext ih))

@[simp] theorem done_bind {α β : Type} (a : α) (f : α → Plan β) : done a >>= f = f a := rfl

@[simp] theorem stop_bind {α β : Type} (d : Diagnostic) (f : α → Plan β) :
    stop d >>= f = stop d := rfl

@[simp] theorem put_bind {α β : Type} (statement : Text) (answered : Option Failure → Plan α)
    (f : α → Plan β) :
    put statement answered >>= f = put statement fun answer => answered answer >>= f := rfl

/-- Goes on only if a test holds. -/
def require (test : Bool) (fault : Fault) (context : Text) : Plan Unit :=
  if test then done () else fail fault context

/-- Follows a plan for a parameter that may be absent. -/
def forPresent {α : Type} (a : Option α) (plan : α → Plan Unit) : Plan Unit :=
  match a with
  | none => done ()
  | some a => plan a

end Plan

/-- Answers a statement, given the statements it was asked before: `none` accepts it. -/
abbrev Oracle := List Text → Text → Option Failure

/-- How a plan went: the statements that were put to the oracle, and its end. -/
structure Trace (α : Type) where
  statements : List Text
  outcome : Except Diagnostic α

/-- Goes on with the value of a trace, where there is one; what comes next knows the statements. -/
def Trace.andThen {α β : Type} (t : Trace α) (next : List Text → α → Trace β) : Trace β :=
  match t.outcome with
  | .ok a => next t.statements a
  | .error d => ⟨t.statements, .error d⟩

/-- Puts a plan to an oracle that was asked some statements already. -/
def Plan.trace {α : Type} (oracle : Oracle) (asked : List Text) : Plan α → Trace α
  | done a => ⟨asked, .ok a⟩
  | stop d => ⟨asked, .error d⟩
  | put statement answered =>
    (answered (oracle asked statement)).trace oracle (asked ++ [statement])

/-- A plan and what follows it are put to an oracle in turn. -/
theorem Plan.trace_bind {α β : Type} (p : Plan α) (f : α → Plan β) (oracle : Oracle)
    (asked : List Text) :
    (p >>= f).trace oracle asked
      = (p.trace oracle asked).andThen fun asked a => (f a).trace oracle asked := by
  induction p generalizing asked with
  | done a => rfl
  | stop d => rfl
  | put statement answered ih => exact ih _ _

/-- What is seen of a check: the statements that were put to the oracle, and the diagnostic. -/
structure Run where
  statements : List Text
  diagnostic : Option Diagnostic
  deriving DecidableEq, Repr

/-- What is seen of a trace. -/
def Trace.run (t : Trace Unit) : Run where
  statements := t.statements
  diagnostic :=
    match t.outcome with
    | .ok () => none
    | .error d => some d

/-- Puts a plan to an oracle. -/
def Plan.run (p : Plan Unit) (oracle : Oracle) : Run := (p.trace oracle []).run

namespace Oracle

/-- Accepts every statement. -/
def lenient : Oracle := fun _ _ => none

/-- Answers the statements one after the other from a list, and accepts those past its end. -/
def scripted (verdicts : List (Option Failure)) : Oracle :=
  fun asked _ => (verdicts[asked.length]?).join

end Oracle

end MacroLint
