import Symbology.Json.Print
import Symbology.Properties
import Symbology.Text.Blank

namespace Symbology

structure Template.Part where
  literal : List Char
  name : List Char
  deriving DecidableEq, Repr

structure Template where
  parts : List Template.Part
  rest : List Char
  deriving DecidableEq, Repr

namespace Template

def splitPair? (c : Char) : List Char → Option (List Char × List Char)
  | [] => none
  | [_] => none
  | a :: b :: cs =>
      if a = c ∧ b = c then some ([], cs)
      else (splitPair? c (b :: cs)).map fun (before, after) => (a :: before, after)

theorem eq_of_splitPair? {c : Char} {cs before after : List Char}
    (h : splitPair? c cs = some (before, after)) : cs = before ++ c :: c :: after := by
  induction cs generalizing before with
  | nil => simp [splitPair?] at h
  | cons a cs ih =>
      cases cs with
      | nil => simp [splitPair?] at h
      | cons b cs =>
          unfold splitPair? at h
          split at h
          · next hc =>
              simp only [Option.some.injEq, Prod.mk.injEq] at h
              obtain ⟨rfl, rfl⟩ := h
              simp [hc.1, hc.2]
          · simp only [Option.map_eq_some_iff, Prod.mk.injEq] at h
            obtain ⟨⟨x, y⟩, hxy, rfl, rfl⟩ := h
            simp [ih hxy]

theorem length_lt_of_splitPair? {c : Char} {cs before after : List Char}
    (h : splitPair? c cs = some (before, after)) : after.length < cs.length := by
  rw [eq_of_splitPair? h]
  simp
  omega

def parse (cs : List Char) : Template :=
  match _open : splitPair? '{' cs with
  | none => { parts := [], rest := cs }
  | some (literal, tail) =>
      match _close : splitPair? '}' tail with
      | none => { parts := [], rest := cs }
      | some (name, rest) =>
          let t := parse rest
          { t with parts := { literal, name } :: t.parts }
termination_by cs.length
decreasing_by
  exact Nat.lt_trans (length_lt_of_splitPair? _close) (length_lt_of_splitPair? _open)

def Part.attributeName (p : Part) : String :=
  String.ofList (Text.trim p.name)

def valueText : Json → List Char
  | .str s => s.toList
  | .null => []
  | v => v.chars

def fill (ps : Properties) (t : Template) : List Char :=
  t.parts.flatMap (fun p => p.literal ++ valueText (ps.value p.attributeName)) ++ t.rest

def render (template : String) (ps : Properties) : String :=
  String.ofList ((parse template.toList).fill ps)

end Template
end Symbology
