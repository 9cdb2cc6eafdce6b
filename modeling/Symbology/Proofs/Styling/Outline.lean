import Symbology.Proofs.Styling.Slot

namespace Symbology

open Portrayal (Polyline Stroke lineStroke outlineStroke? fillPolygon)
open Style (isColor)

namespace Portrayal

variable (config : Config)

def outlineLine (s : Style.Fill) : Style.Line where
  color := s.outlineColor
  opacity := s.outlineOpacity
  width := s.outlineWidth
  dashes := s.outlineDashes
  classification := s.classification
  clampToGround := s.clampToGround

def Stroke.settled (s : Stroke) : Stroke :=
  { s with clampToGround := some (s.clampToGround.getD false) }

theorem Stroke.polyline_settled (s : Stroke) (positions : List Position) :
    s.settled.polyline config positions = s.polyline config positions := rfl

theorem Stroke.notices_settled (s : Stroke) : s.settled.notices = s.notices := rfl

theorem outlineStroke?_of_given {s : Style.Fill}
    (h : (s.outlineColor.isSome || s.outlineWidth.isSome) = true) :
    outlineStroke? s = some (lineStroke (outlineLine s)).settled :=
  if_pos h

theorem linePositions_of_isPolygon {g : Geometry} (h : g.isPolygon = true) :
    g.linePositions = g.polygonRings.headD [] := by
  cases g with
  | polygon rings => rfl
  | multiPolygon polygons => rfl
  | _ => cases h

def exteriorLine (s : Style.Fill) (g : Geometry) (color : Color) : Polyline where
  positions := g.polygonRings.headD []
  width := s.outlineWidth.getD 1
  material := .ofDash color ((lineStroke (outlineLine s)).dash config)
  clampToGround := s.clampToGround.getD false
  classification := classificationOr config s.classification

theorem polyline_outlineLine (s : Style.Fill) {g : Geometry} (h : g.isPolygon = true) :
    (lineStroke (outlineLine s)).polyline config g.linePositions =
      (Color.ofHex (s.outlineColor.getD "#000000") (s.outlineOpacity.getD 1)).map
        (exteriorLine config s g) := by
  simp only [Stroke.polyline, lineStroke, outlineLine, linePositions_of_isPolygon h]
  cases Color.ofHex (s.outlineColor.getD "#000000") (s.outlineOpacity.getD 1) <;> rfl

end Portrayal

namespace Styling

open Portrayal (outlineLine exteriorLine)

variable (config : Config) {s : Style.Fill} {e : Entity}

theorem applyLine_of_isPolygon (l : Style.Line) (hpolygon : e.geometry.isPolygon = true) :
    applyLine config l e =
      match (lineStroke l).polyline config e.geometry.linePositions with
      | .error err => .failed err e
      | .ok line => .styled { e with polyline := some line } (lineStroke l).notices := by
  rw [applyLine, hpolygon, Bool.or_true]
  rfl

theorem applyOutline_eq (hpolygon : e.geometry.isPolygon = true)
    (houtline : (s.outlineColor.isSome || s.outlineWidth.isSome) = true) :
    applyOutline config s e = applyLine config (outlineLine s) e := by
  cases hline : (lineStroke (outlineLine s)).polyline config e.geometry.linePositions <;>
    simp only [applyOutline, Portrayal.outlineStroke?_of_given houtline, Stroke.polyline_settled,
      Stroke.notices_settled, applyLine_of_isPolygon config _ hpolygon, hline]

theorem applyLine_polygon (l : Style.Line) (e : Entity) (polygon : Option Portrayal.Polygon) :
    applyLine config l { e with polygon } =
      (applyLine config l e).mapState fun e => { e with polygon } := by
  rw [applyLine, applyLine]
  dsimp only
  split
  · rfl
  · cases (lineStroke l).polyline config e.geometry.linePositions <;> rfl

def areaAfter (config : Config) (s : Style.Fill) (e : Entity) : Option Portrayal.Polygon :=
  (Portrayal.polygonBy config e.geometry (.fill s)).or e.polygon

theorem applyFill_eq_applyOutline (hpolygon : e.geometry.isPolygon = true)
    (hcolor : ∀ hex, s.color = some hex → isColor hex = true) :
    applyFill config s e = applyOutline config s { e with polygon := areaAfter config s e } := by
  rw [applyFill, hpolygon, areaAfter, Portrayal.polygonBy]
  cases hgiven : s.color with
  | none => rfl
  | some hex =>
      obtain ⟨color, hread⟩ := Color.ofHex_of_isColor (hcolor hex hgiven) (s.fillOpacity.getD 1)
      obtain ⟨polygon, hok⟩ : ∃ polygon, fillPolygon config e.geometry s hex = .ok polygon :=
        ⟨_, by rw [fillPolygon, hread]; rfl⟩
      simp only [Option.bind_some, hok]
      rfl

theorem applyFill_eq_applyLine (hpolygon : e.geometry.isPolygon = true)
    (houtline : (s.outlineColor.isSome || s.outlineWidth.isSome) = true)
    (hcolor : ∀ hex, s.color = some hex → isColor hex = true) :
    applyFill config s e =
      (applyLine config (outlineLine s) e).mapState fun e' =>
        { e' with polygon := areaAfter config s e } := by
  have hstroked := applyOutline_eq config
    (e := { e with polygon := areaAfter config s e }) hpolygon houtline
  rw [applyFill_eq_applyOutline config hpolygon hcolor, hstroked, applyLine_polygon]

inductive StrokedAlike (config : Config) (s : Style.Fill) (e : Entity)
    (fill line : Applied Entity) : Prop
  | drawn (color : Color)
      (read : Color.ofHex (s.outlineColor.getD "#000000") (s.outlineOpacity.getD 1) = .ok color)
      (outcomes : fill.outcome = .ok true ∧ line.outcome = .ok true)
      (polylines : fill.state.polyline = some (exteriorLine config s e.geometry color) ∧
        line.state.polyline = some (exteriorLine config s e.geometry color))
  | failed (err : StyleError)
      (unread : Color.ofHex (s.outlineColor.getD "#000000") (s.outlineOpacity.getD 1) = .error err)
      (outcomes : fill.outcome = .error err ∧ line.outcome = .error err)
      (polylines : fill.state.polyline = e.polyline ∧ line.state.polyline = e.polyline)

structure OutlineAsLine (config : Config) (s : Style.Fill) (e : Entity) : Prop where
  alike : StrokedAlike config s e (applyFill config s e) (applyLine config (outlineLine s) e)
  but_area : applyFill config s e =
    (applyLine config (outlineLine s) e).mapState fun e' =>
      { e' with polygon := areaAfter config s e }

theorem outline_as_line (config : Config) (s : Style.Fill) (e : Entity)
    (hpolygon : e.geometry.isPolygon = true)
    (houtline : (s.outlineColor.isSome || s.outlineWidth.isSome) = true)
    (hcolor : ∀ hex, s.color = some hex → isColor hex = true) : OutlineAsLine config s e := by
  have hfill := applyFill_eq_applyLine config hpolygon houtline hcolor
  refine ⟨?_, hfill⟩
  have hline := applyLine_of_isPolygon config (outlineLine s) hpolygon
  rw [Portrayal.polyline_outlineLine config s hpolygon] at hline
  cases hread : Color.ofHex (s.outlineColor.getD "#000000") (s.outlineOpacity.getD 1) with
  | ok color =>
      rw [hread] at hline
      rw [hfill, hline]
      exact .drawn color hread ⟨rfl, rfl⟩ ⟨rfl, rfl⟩
  | error err =>
      rw [hread] at hline
      rw [hfill, hline]
      exact .failed err hread ⟨rfl, rfl⟩ ⟨rfl, rfl⟩

def lake : Entity :=
  .ofFeature (.ofNat 1) (.polygon [[⟨7, 41, 0⟩, ⟨14, 41, 0⟩, ⟨14, 46, 0⟩], [⟨8, 42, 0⟩]]) []

def shore : Style.Fill :=
  { color := some "#0000ff", outlineWidth := some 2, outlineDashes := some [4, 4] }

theorem outline_as_line_shore :
    (lake.geometry.isPolygon = true ∧
      (shore.outlineColor.isSome || shore.outlineWidth.isSome) = true ∧
      ∀ hex, shore.color = some hex → isColor hex = true) ∧
    OutlineAsLine {} shore lake := by
  have hcolor : ∀ hex, shore.color = some hex → isColor hex = true := by
    rintro hex ⟨⟩
    decide
  exact ⟨⟨rfl, rfl, hcolor⟩, outline_as_line {} shore lake rfl rfl hcolor⟩

end Styling
end Symbology
