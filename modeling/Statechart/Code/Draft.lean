import Statechart.Code.Stmt
import Statechart.Snippet.Expander
import Statechart.Transition.Exit

/-!
# Drafts

Compiling may fail half-way. A draft is the code so far and, if there is one, the fault that ended
the work; nothing is compiled behind a fault, and the blocks around it stay open.
-/

namespace Statechart

/-- Why a handler could not be compiled. -/
inductive Fault where
  | broken (v : Nat) (invariant : Invariant)
  | expansion (b : Behavior) (error : Snippet.ExpansionError)
deriving DecidableEq, Repr

/-- The wording of a fault. -/
def Fault.message (m : Machine) : Fault → String
  | broken v invariant => "Invariant violated at `" ++ m.describe v ++ "`: " ++ invariant.message
  | expansion b error =>
    "Could not expand code of `" ++ m.describe b.owner ++ "` behavior `" ++
      m.diagramLine b ++ "`: " ++ error.message

/-- Code, and the fault that ended it. -/
structure Draft where
  code : List Stmt := []
  fault : Option Fault := none
deriving Repr

namespace Draft

/-- Code without a fault. -/
def emit (code : List Stmt) : Draft := { code := code }

/-- A fault without code. -/
def fail (fault : Fault) : Draft := { fault := some fault }

/-- One draft after another, which is not looked at if the first one ends in a fault. -/
def andThen (first : Draft) (second : Unit → Draft) : Draft :=
  match first.fault with
  | some _ => first
  | none =>
    let next := second ()
    { next with code := first.code ++ next.code }

instance : AndThen Draft := ⟨andThen⟩

/-- Go on with a value that may be missing because of a fault. -/
def given {α : Type} (value : Except Fault α) (rest : α → Draft) : Draft :=
  match value with
  | .ok a => rest a
  | .error fault => fail fault

/-- A draft for each element in turn, up to the first fault. -/
def each {α : Type} (xs : List α) (f : α → Draft) : Draft :=
  match xs with
  | [] => {}
  | x :: rest => f x >> each rest f

/-- A draft inside a block. -/
def block (head : Head) (body : Draft) : Draft :=
  { body with code := [.block head body.code body.fault.isNone] }

end Draft

end Statechart
