import Symbology.Portrayal.Stroke
import Symbology.Portrayal.Symbol
import Symbology.Style.Document

namespace Symbology

open Style (isColor Symbolizer)

theorem Color.isSome_ofHex? (hex : String) (o o' : Float) :
    (Color.ofHex? hex o).isSome = (Color.ofHex? hex o').isSome := by
  rw [Color.ofHex?, Color.ofHex?]
  split
  · rw [Option.isSome_map, Option.isSome_map]
  · rfl

theorem Color.ofHex_of_isColor {hex : String} (h : isColor hex = true) (o : Float) :
    ∃ color, Color.ofHex hex o = .ok color := by
  have hsome : (Color.ofHex? hex o).isSome = true := by
    rw [Color.isSome_ofHex? hex o 1]
    exact h
  obtain ⟨color, hcolor⟩ := Option.isSome_iff_exists.1 hsome
  exact ⟨color, by rw [Color.ofHex, hcolor]⟩

theorem Color.ofHex_getD {given : Option String} {default : String} (hd : isColor default = true)
    (h : ∀ hex, given = some hex → isColor hex = true) (o : Float) :
    ∃ color, Color.ofHex (given.getD default) o = .ok color := by
  cases given with
  | none => exact Color.ofHex_of_isColor hd o
  | some hex => exact Color.ofHex_of_isColor (h hex rfl) o

theorem isColor_black : isColor "#000000" = true := by decide

theorem isColor_white : isColor "#ffffff" = true := by decide

namespace Style

theorem Symbolizer.defect?_eq_none_iff {s : Symbolizer} :
    s.defect? = none ↔ s.missingField? = none ∧ s.badRadius? = none ∧ s.badColor? = none := by
  rw [Symbolizer.defect?]
  split <;> simp_all

theorem Symbolizer.isColor_of_mem_colors {s : Symbolizer} (h : s.defect? = none) {hex : String}
    (hmem : hex ∈ s.colors) : isColor hex = true := by
  have hcolors := (defect?_eq_none_iff.1 h).2.2
  rw [badColor?, List.find?_eq_none] at hcolors
  simpa using hcolors hex hmem

theorem Rule.defect?_eq_none_iff {r : Rule} :
    r.defect? = none ↔ ∀ s ∈ r.symbolizers, s.defect? = none :=
  List.findSome?_eq_none_iff

theorem Document.defect?_eq_none_iff {d : Document} :
    d.defect? = none ↔ ∀ r ∈ d.rules, ∀ s ∈ r.symbolizers, s.defect? = none := by
  simp only [Document.defect?, List.findSome?_eq_none_iff, Option.map_eq_none_iff,
    Rule.defect?_eq_none_iff]

end Style

namespace Portrayal

variable (config : Config)

theorem fillPolygon_ok {s : Style.Fill} {color : String} (h : (Symbolizer.fill s).defect? = none)
    (hcolor : s.color = some color) (g : Geometry) :
    ∃ polygon, fillPolygon config g s color = .ok polygon := by
  have hread : isColor color = true :=
    Symbolizer.isColor_of_mem_colors h (by simp [Symbolizer.colors, hcolor])
  obtain ⟨read, hok⟩ := Color.ofHex_of_isColor hread (s.fillOpacity.getD 1)
  exact ⟨_, by rw [fillPolygon, hok]; rfl⟩

theorem Stroke.polyline_ok {s : Stroke} (h : ∀ hex, s.color = some hex → isColor hex = true)
    (positions : List Position) : ∃ line, s.polyline config positions = .ok line := by
  obtain ⟨read, hok⟩ := Color.ofHex_getD isColor_black h (s.opacity.getD 1)
  exact ⟨_, by rw [Stroke.polyline, hok]; rfl⟩

theorem polyline_lineStroke_ok {s : Style.Line} (h : (Symbolizer.line s).defect? = none)
    (positions : List Position) : ∃ line, (lineStroke s).polyline config positions = .ok line := by
  refine Stroke.polyline_ok config ?_ positions
  intro hex (hhex : s.color = some hex)
  exact Symbolizer.isColor_of_mem_colors h (by simp [Symbolizer.colors, hhex])

theorem color_of_outlineStroke? {s : Style.Fill} {stroke : Stroke}
    (hstroke : outlineStroke? s = some stroke) : stroke.color = s.outlineColor := by
  rw [outlineStroke?] at hstroke
  split at hstroke
  · cases hstroke
    rfl
  · cases hstroke

theorem polyline_outlineStroke_ok {s : Style.Fill} {stroke : Stroke}
    (h : (Symbolizer.fill s).defect? = none) (hstroke : outlineStroke? s = some stroke)
    (positions : List Position) : ∃ line, stroke.polyline config positions = .ok line := by
  refine Stroke.polyline_ok config ?_ positions
  intro hex hhex
  rw [color_of_outlineStroke? hstroke] at hhex
  exact Symbolizer.isColor_of_mem_colors h (by simp [Symbolizer.colors, hhex])

theorem iconBillboard_ok {s : Style.Icon} (h : (Symbolizer.icon s).defect? = none)
    (icon : Icon) : ∃ billboard, iconBillboard icon s = .ok billboard := by
  have hread : ∀ hex, s.color = some hex → isColor hex = true := by
    intro hex hhex
    exact Symbolizer.isColor_of_mem_colors h (by simp [Symbolizer.colors, hhex])
  obtain ⟨read, hok⟩ := Color.ofHex_getD isColor_white hread (s.opacity.getD 1)
  exact ⟨_, by rw [iconBillboard, hok]; rfl⟩

theorem modelOf_ok {s : Style.Model} (h : (Symbolizer.model s).defect? = none) :
    ∃ uri model, s.model = some uri ∧ modelOf uri s = .ok model := by
  have hmissing := (Symbolizer.defect?_eq_none_iff.1 h).1
  have hread : ∀ hex, s.color = some hex → isColor hex = true := by
    intro hex hhex
    exact Symbolizer.isColor_of_mem_colors h (by simp [Symbolizer.colors, hhex])
  obtain ⟨read, hok⟩ := Color.ofHex_getD isColor_white hread (s.opacity.getD 1)
  cases huri : s.model with
  | none => simp [Symbolizer.missingField?, Style.isMissing, huri] at hmissing
  | some uri => exact ⟨uri, _, rfl, by rw [modelOf, hok]; rfl⟩

theorem labelOf_ok {s : Style.Label} (h : (Symbolizer.text s).defect? = none)
    (ps : Properties) :
    ∃ template label, s.label = some template ∧ labelOf config ps template s = .ok label := by
  have hmissing := (Symbolizer.defect?_eq_none_iff.1 h).1
  have hread : ∀ hex, s.color = some hex → isColor hex = true := by
    intro hex hhex
    exact Symbolizer.isColor_of_mem_colors h (by simp [Symbolizer.colors, hhex])
  have hhalo : ∀ hex, s.haloColor = some hex → isColor hex = true := by
    intro hex hhex
    exact Symbolizer.isColor_of_mem_colors h (by simp [Symbolizer.colors, hhex])
  obtain ⟨read, hok⟩ := Color.ofHex_getD isColor_black hread (s.opacity.getD 1)
  obtain ⟨halo, hok'⟩ := Color.ofHex_getD isColor_white hhalo (s.haloOpacity.getD 1)
  cases htemplate : s.label with
  | none => simp [Symbolizer.missingField?, Style.isMissing, htemplate] at hmissing
  | some template => exact ⟨template, _, rfl, by rw [labelOf, hok, hok']; rfl⟩

end Portrayal
end Symbology
