import Symbology.Feature.Collection
import Symbology.Filter.Evaluate
import Symbology.Icon.Resolution
import Symbology.Style.Document
import Symbology.Styling.Apply

namespace Symbology.Styling

open Style (Rule Symbolizer)

def runAll (step : σ → α → σ × List Notice) : List α → σ → σ × List Notice
  | [], s => (s, [])
  | a :: as, s =>
      let (s, first) := step s a
      let (s, rest) := runAll step as s
      (s, first ++ rest)

theorem runAll_fst (step : σ → α → σ × List Notice) (as : List α) (s : σ) :
    (runAll step as s).1 = as.foldl (fun s a => (step s a).1) s := by
  induction as generalizing s with
  | nil => rfl
  | cons a as ih => simp [runAll, ih]

def mapAll (f : α → β × List Notice) (as : List α) : List β × List Notice :=
  (as.map fun a => (f a).1, as.flatMap fun a => (f a).2)

structure Compiled where
  document : Style.Document
  resolution : Icon.Resolution
  imageId : Icon.ImageIds
  evaluator : Filter.Evaluator
  config : Config

structure Progress where
  subject : Subject
  inFront : Bool := false
  deriving Repr

namespace Compiled

def icon? (c : Compiled) (s : Symbolizer) : Option (Except StyleError Icon) :=
  if s.needsIcon then (c.imageId s).map c.resolution.lookup else none

def iconNotices (c : Compiled) (r : Rule) : List Notice :=
  r.symbolizers.filterMap fun s =>
    match c.icon? s with
    | some (.error cause) => some (.symbolizerSkipped r.name s.kind cause)
    | _ => none

def equipped (c : Compiled) (r : Rule) : List (Symbolizer × Option Icon) :=
  r.symbolizers.filterMap fun s =>
    if s.needsIcon then
      match c.icon? s with
      | some (.ok icon) => some (s, some icon)
      | _ => none
    else some (s, none)

def verdict (c : Compiled) (r : Rule) (e : Entity) : Except StyleError Bool :=
  match r.filter with
  | none => .ok true
  | some f => c.evaluator f e.properties

/-- A filter that fails matches nothing. -/
def isMatch (c : Compiled) (r : Rule) (e : Entity) : Bool :=
  match c.verdict r e with
  | .ok b => b
  | .error _ => false

def verdictNotices (c : Compiled) (r : Rule) (e : Entity) : List Notice :=
  match c.verdict r e with
  | .ok _ => []
  | .error cause => [.filterFailed r.name cause]

/-- Applies one symbolizer; an error is reported and styling goes on. -/
def step (c : Compiled) (r : Rule) (p : Progress) (si : Symbolizer × Option Icon) :
    Progress × List Notice :=
  let (s, icon) := si
  let a := p.subject.apply c.config icon s
  let failure := match a.outcome with
    | .error cause => [.symbolizerFailed r.name s.kind p.subject.entity.id cause]
    | .ok _ => []
  ({ subject := a.state, inFront := p.inFront || (a.hasStyled && s.bringsToFront) },
    a.notices ++ failure)

def styleProgress (c : Compiled) (r : Rule) (symbolizers : List (Symbolizer × Option Icon))
    (p : Progress) : Progress × List Notice :=
  if c.isMatch r p.subject.entity then runAll (c.step r) symbolizers p
  else (p, c.verdictNotices r p.subject.entity)

def styleRule (c : Compiled) (ps : List Progress) (r : Rule) : List Progress × List Notice :=
  let (styled, notices) := mapAll (c.styleProgress r (c.equipped r)) ps
  let count := ps.countP fun p => c.isMatch r p.subject.entity
  (styled, c.iconNotices r ++ notices ++ [.ruleMatched r.name count])

def start (es : List Entity) : List Progress :=
  es.map fun e => { subject := { entity := e } }

def apply (c : Compiled) (coll : Collection) : Collection × List Notice :=
  let (ps, notices) := runAll c.styleRule c.document.rules (start coll.entities)
  ({ entities := ps.map (·.subject.entity)
     drawOrder := Collection.orderOf (ps.map (·.inFront)) },
    notices)

end Compiled
end Symbology.Styling
