import Symbology.Json.Print
import Symbology.Style.Document
import Symbology.Style.Members

/-!
Style documents as JSON text. Documents and rules are read field by field as the text goes on; a
symbolizer is read as a whole before its fields are looked at.
-/

namespace Symbology.Style

open Json (ReadError Reader skipSpace)

structure Slot (σ : Type) where
  name : String
  isFilled : σ → Bool
  read : σ → Reader σ

/-- What stands after a key. A field may stand there once; keys that name no field are passed
over. -/
def Slot.member (slots : List (Slot σ)) (s : σ) (key : String) : Reader σ := fun cs =>
  match slots.find? (·.name = key) with
  | none => do
      let (_, cs) ← Json.colon cs
      let (_, cs) ← Json.skip cs
      .ok (s, cs)
  | some slot =>
      if slot.isFilled s then .error .unsuited
      else do
        let (_, cs) ← Json.colon cs
        slot.read s cs

def arrayEnd (s : σ) : Reader σ := fun cs =>
  match skipSpace cs with
  | [] => .error .incomplete
  | c :: cs => if c = ']' then .ok (s, cs) else .error .malformed

/-- Fields in written order after an opening bracket or an item. The last ones may be missing. -/
def Slot.inOrder (isFirst : Bool) : List (Slot σ) → σ → Reader σ
  | [], s, cs => arrayEnd s cs
  | slot :: slots, s, cs =>
      match skipSpace cs with
      | [] => .error .incomplete
      | c :: cs =>
          if c = ']' then .ok (s, cs)
          else if isFirst then do
            let (s, cs) ← slot.read s (c :: cs)
            inOrder false slots s cs
          else if c = ',' then do
            let (s, cs) ← slot.read s cs
            inOrder false slots s cs
          else .error .malformed

def Slot.record (slots : List (Slot σ)) (empty : σ) : Reader σ := fun cs =>
  match skipSpace cs with
  | [] => .error .incomplete
  | c :: cs =>
      if c = '[' then inOrder true slots empty cs
      else if c = '{' then Json.objectBody Json.stringBody (member slots) empty cs
      else Json.wrongType (c :: cs)

structure Draft where
  kind : Option Kind := none
  others : Members := []
  deriving Repr

def readKind : Reader Kind := fun cs => do
  let (s, cs) ← Json.string cs
  .ok (Kind.ofName s, cs)

def Draft.member (value : Reader Json) (d : Draft) (key : String) : Reader Draft := fun cs =>
  if key = "kind" then
    if d.kind.isSome then .error .unsuited
    else do
      let (_, cs) ← Json.colon cs
      let (kind, cs) ← readKind cs
      .ok ({ d with kind := some kind }, cs)
  else do
    let (_, cs) ← Json.colon cs
    let (v, cs) ← value cs
    .ok ({ d with others := d.others ++ [(key, v)] }, cs)

def Draft.symbolizer (d : Draft) : Except ReadError Symbolizer :=
  match d.kind with
  | some kind => Symbolizer.ofMembers kind d.others
  | none => .error .unsuited

def furtherItems (value : Reader Json) : Reader (List Json) := fun cs =>
  match skipSpace cs with
  | [] => .error .incomplete
  | c :: cs =>
      if c = ']' then .ok ([], cs)
      else if c = ',' then Json.items value cs.length cs
      else .error .malformed

def readValues (value : Reader Json) : Reader Symbolizer := fun cs =>
  match skipSpace cs with
  | ']' :: _ => .error .unsuited
  | cs => do
      let (kind, cs) ← readKind cs
      let (vs, cs) ← furtherItems value cs
      let s ← Symbolizer.ofValues kind vs
      .ok (s, cs)

def readSymbolizer (value : Reader Json) : Reader Symbolizer := fun cs =>
  match skipSpace cs with
  | [] => .error .incomplete
  | c :: cs =>
      if c = '{' then do
        let (d, cs) ← Json.objectBody Json.stringBody (Draft.member value) {} cs
        let s ← d.symbolizer
        .ok (s, cs)
      else if c = '[' then readValues value cs
      else Json.wrongType (c :: cs)

structure RuleDraft where
  name : Option String := none
  filter : Option (Option Json) := none
  symbolizers : Option (List Symbolizer) := none
  deriving Repr

def RuleDraft.rule (d : RuleDraft) : Rule where
  name := d.name.getD ""
  filter := d.filter.getD none
  symbolizers := d.symbolizers.getD []

def readFilter : Reader (Option Json) := fun cs => do
  let (v, cs) ← Json.value (Json.nestingLimit - 3) cs
  match v with
  | .null => .ok (none, cs)
  | v => .ok (some v, cs)

def ruleSlots : List (Slot RuleDraft) :=
  [{ name := "name"
     isFilled := fun d => d.name.isSome
     read := fun d cs => do
       let (s, cs) ← Json.string cs
       .ok ({ d with name := some s }, cs) },
   { name := "filter"
     isFilled := fun d => d.filter.isSome
     read := fun d cs => do
       let (f, cs) ← readFilter cs
       .ok ({ d with filter := some f }, cs) },
   { name := "symbolizers"
     isFilled := fun d => d.symbolizers.isSome
     read := fun d cs => do
       let (ss, cs) ← Json.array (readSymbolizer (Json.value (Json.nestingLimit - 5))) cs
       .ok ({ d with symbolizers := some ss }, cs) }]

def readRule : Reader Rule := fun cs => do
  let (d, cs) ← Slot.record ruleSlots {} cs
  .ok (d.rule, cs)

structure DocumentDraft where
  name : Option String := none
  rules : Option (List Rule) := none
  deriving Repr

def DocumentDraft.document (d : DocumentDraft) : Document where
  name := d.name.getD ""
  rules := d.rules.getD []

def documentSlots : List (Slot DocumentDraft) :=
  [{ name := "name"
     isFilled := fun d => d.name.isSome
     read := fun d cs => do
       let (s, cs) ← Json.string cs
       .ok ({ d with name := some s }, cs) },
   { name := "rules"
     isFilled := fun d => d.rules.isSome
     read := fun d cs => do
       let (rs, cs) ← Json.array readRule cs
       .ok ({ d with rules := some rs }, cs) }]

def readDocument : Reader Document := fun cs => do
  let (d, cs) ← Slot.record documentSlots {} cs
  .ok (d.document, cs)

def Document.ofText (text : String) : Except ReadError Document :=
  Json.whole readDocument text

def Symbolizer.ofText (text : String) : Except ReadError Symbolizer :=
  Json.whole (readSymbolizer (Json.value (Json.nestingLimit - 1))) text

def Rule.json (r : Rule) : Json :=
  .obj (("name", .str r.name) :: ifGiven "filter" id r.filter ++
    [("symbolizers", .arr (r.symbolizers.map Symbolizer.json))])

def Document.json (d : Document) : Json :=
  .obj [("name", .str d.name), ("rules", .arr (d.rules.map Rule.json))]

def Document.text (d : Document) : String :=
  d.json.text

end Symbology.Style
