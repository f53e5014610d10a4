import Statechart.Code.Stmt

/-!
# Paths through code

A path through the body of a function goes from statement to statement, into a block or past it,
until it returns or falls off the end. Guards and the other questions in front of blocks are open: a
path may take either answer. A block without a question is always gone into.

What the statements on a path do to the state of the machine is a parameter. Loops are not followed:
they stand in no function that is written for a state or a pseudo-state.
-/

namespace Statechart

/-- Whether what stands in front of a block is a question, so that the block may be passed by. -/
def Head.asks : Head → Bool
  | .text _ | .routine _ | .behavior _ none => false
  | .behavior _ (some _) | .movedOn _ | .consumed | .whileExit | .exitReached => true

/-- Whether control just goes on behind the statement. -/
def Stmt.isStep : Stmt → Bool
  | .ret _ | .block .. | .inlined .. => false
  | _ => true

/-- The paths through code, from one state to another, where `effect` tells what a statement may do.
The last argument tells whether the path ends with a return. -/
inductive Runs {σ : Type} (effect : Stmt → σ → σ → Prop) : σ → List Stmt → σ → Bool → Prop
  | done (s : σ) : Runs effect s [] s false
  | ret (s : σ) (note : String) (rest : List Stmt) : Runs effect s (.ret note :: rest) s true
  | step {s t u : σ} {stmt : Stmt} {rest : List Stmt} {returned : Bool} (hstep : stmt.isStep)
      (heffect : effect stmt s t) (h : Runs effect t rest u returned) :
        Runs effect s (stmt :: rest) u returned
  | into {s t u : σ} {head : Head} {body rest : List Stmt} {closed returned : Bool}
      (heffect : effect (.block head body closed) s t)
        (h : Runs effect t (body ++ rest) u returned) :
      Runs effect s (.block head body closed :: rest) u returned
  | past {s u : σ} {head : Head} {body rest : List Stmt} {closed returned : Bool}
      (hasks : head.asks)
      (h : Runs effect s rest u returned) :
        Runs effect s (.block head body closed :: rest) u returned
  | inlined {s u : σ} {p : Nat} {body rest : List Stmt} {returned : Bool}
      (h : Runs effect s (body ++ rest) u returned) :
        Runs effect s (.inlined p body :: rest) u returned

namespace Runs

variable {σ : Type} {effect : Stmt → σ → σ → Prop} {s t u : σ} {stmt : Stmt} {head : Head}
  {front body rest code : List Stmt} {closed returned : Bool} {p : Nat}

/-- Code that has returned does not go on. -/
theorem append_of_returned (h : Runs effect s front u true) (rest : List Stmt) :
    Runs effect s (front ++ rest) u true := by
  generalize hend : true = returned at h ⊢
  induction h with
  | done => cases hend
  | ret s note code => exact .ret s note _
  | step hstep heffect _ ih => exact .step hstep heffect (ih hend)
  | into heffect _ ih => exact .into heffect (List.append_assoc .. ▸ ih hend)
  | past hasks _ ih => exact .past hasks (ih hend)
  | inlined _ ih => exact .inlined (List.append_assoc .. ▸ ih hend)

/-- Code that falls through goes on with what follows. -/
theorem append_of_fallen (h : Runs effect s front t false) (hrest : Runs effect t rest u returned) :
    Runs effect s (front ++ rest) u returned := by
  generalize hend : false = fallen at h
  induction h with
  | done => exact hrest
  | ret => cases hend
  | step hstep heffect _ ih => exact .step hstep heffect (ih hrest hend)
  | into heffect _ ih => exact .into heffect (List.append_assoc .. ▸ ih hrest hend)
  | past hasks _ ih => exact .past hasks (ih hrest hend)
  | inlined _ ih => exact .inlined (List.append_assoc .. ▸ ih hrest hend)

/-- A path through code in two pieces returns from the first, or falls through it and goes on. -/
theorem of_append (h : Runs effect s (front ++ rest) u returned) :
    (returned = true ∧ Runs effect s front u true) ∨
      ∃ t, Runs effect s front t false ∧ Runs effect t rest u returned := by
  -- The path takes `front` apart statement by statement; a block puts its body before what is left
  -- of it.
  generalize hcode : front ++ rest = code at h
  induction h generalizing front with
  | done s =>
    obtain ⟨rfl, rfl⟩ := List.append_eq_nil_iff.mp hcode
    exact .inr ⟨s, .done s, .done s⟩
  | ret s note code =>
    rcases List.append_eq_cons_iff.mp hcode with ⟨rfl, rfl⟩ | ⟨front, rfl, rfl⟩
    · exact .inr ⟨s, .done s, .ret s note code⟩
    · exact .inl ⟨rfl, .ret s note front⟩
  | @step s t u stmt code returned hstep heffect h ih =>
    rcases List.append_eq_cons_iff.mp hcode with ⟨rfl, rfl⟩ | ⟨front, rfl, rfl⟩
    · exact .inr ⟨s, .done s, .step hstep heffect h⟩
    · rcases ih rfl with ⟨hreturned, hfront⟩ | ⟨mid, hfront, hrest⟩
      · exact .inl ⟨hreturned, .step hstep heffect hfront⟩
      · exact .inr ⟨mid, .step hstep heffect hfront, hrest⟩
  | @into s t u head body code closed returned heffect h ih =>
    rcases List.append_eq_cons_iff.mp hcode with ⟨rfl, rfl⟩ | ⟨front, rfl, rfl⟩
    · exact .inr ⟨s, .done s, .into heffect h⟩
    · rcases ih (List.append_assoc body front rest) with ⟨hreturned, hfront⟩ | ⟨mid, hfront, hrest⟩
      · exact .inl ⟨hreturned, .into heffect hfront⟩
      · exact .inr ⟨mid, .into heffect hfront, hrest⟩
  | @past s u head body code closed returned hasks h ih =>
    rcases List.append_eq_cons_iff.mp hcode with ⟨rfl, rfl⟩ | ⟨front, rfl, rfl⟩
    · exact .inr ⟨s, .done s, .past hasks h⟩
    · rcases ih rfl with ⟨hreturned, hfront⟩ | ⟨mid, hfront, hrest⟩
      · exact .inl ⟨hreturned, .past hasks hfront⟩
      · exact .inr ⟨mid, .past hasks hfront, hrest⟩
  | @inlined s u p body code returned h ih =>
    rcases List.append_eq_cons_iff.mp hcode with ⟨rfl, rfl⟩ | ⟨front, rfl, rfl⟩
    · exact .inr ⟨s, .done s, .inlined h⟩
    · rcases ih (List.append_assoc body front rest) with ⟨hreturned, hfront⟩ | ⟨mid, hfront, hrest⟩
      · exact .inl ⟨hreturned, .inlined hfront⟩
      · exact .inr ⟨mid, .inlined hfront, hrest⟩

/-- A path through no code stays where it is. -/
theorem nil_iff : Runs effect s [] u returned ↔ u = s ∧ returned = false := by
  constructor
  · intro h
    cases h
    exact ⟨rfl, rfl⟩
  · rintro ⟨rfl, rfl⟩
    exact .done u

/-- A path takes a step and goes on behind it. -/
theorem cons_iff (hstep : stmt.isStep) :
    Runs effect s (stmt :: rest) u returned ↔ ∃ t, effect stmt s t ∧
      Runs effect t rest u returned := by
  constructor
  · intro h
    cases h with
    | ret => cases hstep
    | into => cases hstep
    | past => cases hstep
    | inlined => cases hstep
    | step _ heffect h => exact ⟨_, heffect, h⟩
  · rintro ⟨t, heffect, h⟩
    exact .step hstep heffect h

/-- A path through a single step takes it. -/
theorem step_iff (hstep : stmt.isStep) :
    Runs effect s [stmt] u returned ↔ effect stmt s u ∧ returned = false := by
  rw [cons_iff hstep]
  constructor
  · rintro ⟨t, heffect, h⟩
    obtain ⟨rfl, rfl⟩ := nil_iff.mp h
    exact ⟨heffect, rfl⟩
  · rintro ⟨heffect, rfl⟩
    exact ⟨u, heffect, .done u⟩

/-- A path through a single return ends there. -/
theorem ret_iff {note : String} : Runs effect s [.ret note] u returned ↔
    u = s ∧ returned = true := by
  constructor
  · intro h
    cases h with
    | ret => exact ⟨rfl, rfl⟩
    | step hstep => cases hstep
  · rintro ⟨rfl, rfl⟩
    exact .ret u note []

/-- A path through a single block goes through its body, or past it if there is a
question in front. -/
theorem block_iff : Runs effect s [.block head body closed] u returned ↔
    (∃ t, effect (.block head body closed) s t ∧ Runs effect t body u returned) ∨
      head.asks ∧ u = s ∧ returned = false := by
  constructor
  · intro h
    cases h with
    | step hstep => cases hstep
    | into heffect h => exact .inl ⟨_, heffect, by rwa [List.append_nil] at h⟩
    | past hasks h => exact .inr ⟨hasks, nil_iff.mp h⟩
  · rintro (⟨t, heffect, h⟩ | ⟨hasks, rfl, rfl⟩)
    · exact .into heffect (by rwa [List.append_nil])
    · exact .past hasks (.done u)

/-- A path through a single pseudo-state in place goes through its transitions. -/
theorem inlined_iff : Runs effect s [.inlined p body] u returned ↔
    Runs effect s body u returned := by
  constructor
  · intro h
    cases h with
    | step hstep => cases hstep
    | inlined h => rwa [List.append_nil] at h
  · intro h
    exact .inlined (by rwa [List.append_nil])

end Runs

end Statechart
