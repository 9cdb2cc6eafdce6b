import Symbology.Notice

namespace Symbology.Styling

/-- Whether something was styled, or what went wrong; what is left of the state, also after an
error; and what was reported. -/
structure Applied (σ : Type) where
  outcome : Except StyleError Bool
  state : σ
  notices : List Notice := []

namespace Applied

def skipped (s : σ) (notices : List Notice := []) : Applied σ :=
  { outcome := .ok false, state := s, notices }

def styled (s : σ) (notices : List Notice := []) : Applied σ :=
  { outcome := .ok true, state := s, notices }

def failed (e : StyleError) (s : σ) : Applied σ :=
  { outcome := .error e, state := s }

/-- What comes back. After a stop nothing does, whatever the outcome and the state are given as. -/
def returned (a : Applied σ) : Except Stop (Except StyleError Bool) :=
  match Notice.stopIn? a.notices with
  | some cause => .error cause
  | none => .ok a.outcome

def hasStyled (a : Applied σ) : Bool :=
  match a.outcome with
  | .ok b => b
  | .error _ => false

def andThen (a : Applied σ) (f : σ → Applied σ) : Applied σ :=
  match a.outcome with
  | .error _ => a
  | .ok _ =>
      let b := f a.state
      { b with notices := a.notices ++ b.notices }

def mapState (f : σ → τ) (a : Applied σ) : Applied τ :=
  { outcome := a.outcome, state := f a.state, notices := a.notices }

@[simp] theorem outcome_mapState (f : σ → τ) (a : Applied σ) :
    (a.mapState f).outcome = a.outcome := rfl

@[simp] theorem state_mapState (f : σ → τ) (a : Applied σ) :
    (a.mapState f).state = f a.state := rfl

end Applied
end Symbology.Styling
