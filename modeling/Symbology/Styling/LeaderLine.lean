import Symbology.Feature.Entity
import Symbology.Portrayal.Connector
import Symbology.Styling.Applied

namespace Symbology.Styling

open Portrayal (Billboard Polyline)
open Style (Symbolizer)

def leaderColor (l : Style.LeaderLine) : Except StyleError Color :=
  Color.ofHex (l.color.getD "#000000") (l.opacity.getD 1)

def leaderWidth (l : Style.LeaderLine) : Float :=
  l.width.getD 1

def leaderPolyline (config : Config) (p : Position) (width : Float) (color : Color) : Polyline where
  positions := [p.withHeight 0, p]
  width
  material := .solid color
  clampToGround := false
  classification := config.classification

def labelOffset? : Symbolizer → Option (Float × Float)
  | .text s => s.offset
  | _ => none

def labelHeightReference : Symbolizer → Option String
  | .text s => s.heightReference
  | _ => none

def connected (config : Config) (s : Symbolizer) (width : Float) (color : Color) (e : Entity) :
    Option Billboard × List Notice :=
  match labelOffset? s, e.billboard with
  | none, b => (b, [])
  | some _, some b => (some b, [.connectorSkipped e.id])
  | some (x, y), none =>
      match Portrayal.connector config x y width color (labelHeightReference s) with
      | .ok b => (some b, [])
      | .error fault => (none, [fault.stop?.elim (.connectorRefused fault) .stopped])

/-- Attaches the leader line that a symbolizer asks for to an entity that has a position. Doing it
again attaches another one. -/
def attachLeader (config : Config) (s : Symbolizer) (e : Entity) : Applied Entity :=
  match s.leaderLine? with
  | none => .skipped e
  | some l =>
      if !e.geometry.isPoint then .skipped e
      else match e.position with
        | none => .skipped e
        | some p =>
            match leaderColor l with
            | .error err => .failed err e
            | .ok color =>
                let width := leaderWidth l
                let (billboard, notices) := connected config s width color e
                .styled
                  { e with
                    leaderLines := e.leaderLines ++ [leaderPolyline config p width color]
                    billboard }
                  (notices ++ [.leaderAttached e.id])

end Symbology.Styling
