import Symbology.Error
import Symbology.Feature.Identifier
import Symbology.Icon.Drawer

namespace Symbology

inductive Level where
  | trace
  | debug
  | warn
  /-- Nothing follows. -/
  | fatal
  deriving DecidableEq, Repr

inductive Notice where
  | unknownKind
  | leaderAttached (entity : EntityId)
  | connectorSkipped (entity : EntityId)
  | connectorRefused (fault : RasterFault)
  | dashesReplaced (dashes : List Float)
  | drawing (requested cached : Nat)
  | drawerFailed (requested : Nat) (failure : Icon.DrawFailure)
  | compiled (style : String) (rules icons : Nat)
  | iconUnavailable (id : String)
  | symbolizerSkipped (rule : String) (kind : Style.Kind) (cause : StyleError)
  | symbolizerFailed (rule : String) (kind : Style.Kind) (entity : EntityId) (cause : StyleError)
  | filterFailed (rule : String) (cause : StyleError)
  | ruleMatched (rule : String) (entities : Nat)
  | stopped (cause : Stop)
  deriving Repr

namespace Notice

def level : Notice → Level
  | .unknownKind => .trace
  | .leaderAttached _ => .trace
  | .connectorSkipped _ => .debug
  | .connectorRefused _ => .warn
  | .dashesReplaced _ => .debug
  | .drawing _ _ => .debug
  | .drawerFailed _ _ => .warn
  | .compiled _ _ _ => .debug
  | .iconUnavailable _ => .warn
  | .symbolizerSkipped _ _ _ => .warn
  | .symbolizerFailed _ _ _ _ => .warn
  | .filterFailed _ _ => .warn
  | .ruleMatched _ _ => .debug
  | .stopped _ => .fatal

def stop? : Notice → Option Stop
  | .stopped cause => some cause
  | _ => none

def stopIn? (notices : List Notice) : Option Stop :=
  notices.findSome? stop?

@[simp] theorem stopIn?_append (first rest : List Notice) :
    stopIn? (first ++ rest) = (stopIn? first).or (stopIn? rest) :=
  List.findSome?_append

def dashNotation : Double.Notation where
  least := -4
  greatest := 15
  keepsPoint := true
  signsExponent := false
  tie := .up
  notANumber := "NaN"
  infinity := "inf"

def dashesText (dashes : List Float) : String :=
  "[" ++ ", ".intercalate (dashes.map dashNotation.text) ++ "]"

def message : Notice → String
  | .unknownKind => "skipping symbolizer of unknown kind"
  | .leaderAttached entity => "leader line attached to entity " ++ entity.text
  | .connectorSkipped entity =>
      "entity " ++ entity.text ++ " already has a billboard, skipping label connector"
  | .connectorRefused fault => "label connector not drawn: " ++ fault.message
  | .dashesReplaced dashes =>
      "dash array " ++ dashesText dashes ++ " cannot be encoded, using the default pattern"
  | .drawing requested cached =>
      "drawing " ++ requested.repr ++ " icon(s), " ++ cached.repr ++ " served from cache"
  | .drawerFailed requested failure =>
      "icon drawer failed for " ++ requested.repr ++ " icon(s): " ++ failure.fullMessage
  | .compiled style rules icons =>
      "compiled style " ++ Text.quoted style ++ ": " ++ rules.repr ++ " rule(s), " ++ icons.repr ++
        " icon(s) resolved"
  | .iconUnavailable id =>
      "icon " ++ id ++ " is unavailable, symbolizers using it will be skipped"
  | .symbolizerSkipped rule kind cause =>
      "rule " ++ Text.quoted rule ++ ": skipping " ++ kind.name ++ " symbolizer: " ++ cause.message
  | .symbolizerFailed rule kind entity cause =>
      "rule " ++ Text.quoted rule ++ ": " ++ kind.name ++ " symbolizer failed on entity " ++
        entity.text ++ ": " ++ cause.message
  | .filterFailed rule cause =>
      "rule " ++ Text.quoted rule ++ ": filter treated as not matching: " ++ cause.message
  | .ruleMatched rule entities =>
      "rule " ++ Text.quoted rule ++ " matched " ++ entities.repr ++ " entit(ies)"
  | .stopped cause => "stopped: " ++ cause.message

end Notice
end Symbology
