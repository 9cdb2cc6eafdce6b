import Symbology.Proofs.Style.Checked
import Symbology.Proofs.Styling.Feature

namespace Symbology

open Style (Symbolizer)

inductive Slot where
  | polygon
  | polyline
  | billboard
  | label
  | model
  deriving DecidableEq, Repr

abbrev Slot.Graphic : Slot → Type
  | .polygon => Portrayal.Polygon
  | .polyline => Portrayal.Polyline
  | .billboard => Portrayal.Billboard
  | .label => Portrayal.Label
  | .model => Portrayal.Model

def Entity.graphic (e : Entity) : (k : Slot) → Option k.Graphic
  | .polygon => e.polygon
  | .polyline => e.polyline
  | .billboard => e.billboard
  | .label => e.label
  | .model => e.model

def Slot.isWrittenBy : Slot → Symbolizer → Bool
  | .polygon, .fill s => s.color.isSome
  | .polyline, .fill s => s.outlineColor.isSome || s.outlineWidth.isSome
  | .polyline, .line _ => true
  | .billboard, .mark _ => true
  | .billboard, .icon _ => true
  | .label, .text _ => true
  | .model, .model _ => true
  | _, _ => false

theorem Slot.exists_isWrittenBy {s : Symbolizer} (hs : s.isPointSymbol = true) :
    ∃ k : Slot, k.isWrittenBy s = true := by
  cases s with
  | fill s => cases hs
  | line s => cases hs
  | mark s => exact ⟨.billboard, rfl⟩
  | icon s => exact ⟨.billboard, rfl⟩
  | model s => exact ⟨.model, rfl⟩
  | text s => exact ⟨.label, rfl⟩
  | unknown => cases hs

namespace Portrayal

def polygonBy (config : Config) (g : Geometry) : Symbolizer → Option Polygon
  | .fill s => s.color.bind fun color => (fillPolygon config g s color).toOption
  | _ => none

def polylineBy (config : Config) (g : Geometry) : Symbolizer → Option Polyline
  | .fill s => (outlineStroke? s).bind fun t => (t.polyline config g.linePositions).toOption
  | .line s => ((lineStroke s).polyline config g.linePositions).toOption
  | _ => none

def billboardBy (icon : Option Icon) : Symbolizer → Option Billboard
  | .mark s => icon.map (markBillboard · s)
  | .icon s => icon.bind fun i => (iconBillboard i s).toOption
  | _ => none

def labelBy (config : Config) (ps : Properties) : Symbolizer → Option Label
  | .text s => s.label.bind fun template => (labelOf config ps template s).toOption
  | _ => none

def modelBy : Symbolizer → Option Model
  | .model s => s.model.bind fun uri => (modelOf uri s).toOption
  | _ => none

end Portrayal

def Slot.value (config : Config) (icon : Option Icon) (g : Geometry) (ps : Properties)
    (s : Symbolizer) : (k : Slot) → Option k.Graphic
  | .polygon => Portrayal.polygonBy config g s
  | .polyline => Portrayal.polylineBy config g s
  | .billboard => Portrayal.billboardBy icon s
  | .label => Portrayal.labelBy config ps s
  | .model => Portrayal.modelBy s

namespace Portrayal

variable (config : Config)

theorem isSome_polygonBy {s : Symbolizer} (h : s.defect? = none) (g : Geometry) :
    (polygonBy config g s).isSome = Slot.polygon.isWrittenBy s := by
  cases s with
  | fill s =>
      cases hcolor : s.color with
      | none => simp [polygonBy, Slot.isWrittenBy, hcolor]
      | some color =>
          obtain ⟨polygon, hok⟩ := fillPolygon_ok config h hcolor g
          simp [polygonBy, Slot.isWrittenBy, hcolor, hok, Except.toOption]
  | _ => rfl

theorem isSome_polylineBy {s : Symbolizer} (h : s.defect? = none) (g : Geometry) :
    (polylineBy config g s).isSome = Slot.polyline.isWrittenBy s := by
  cases s with
  | fill s =>
      have hgiven : (outlineStroke? s).isSome = Slot.polyline.isWrittenBy (.fill s) := by
        rw [outlineStroke?, Slot.isWrittenBy]
        split <;> simp_all
      rw [← hgiven, polylineBy]
      cases hstroke : outlineStroke? s with
      | none => rfl
      | some stroke =>
          obtain ⟨line, hok⟩ := polyline_outlineStroke_ok config h hstroke g.linePositions
          simp [hok, Except.toOption]
  | line s =>
      obtain ⟨line, hok⟩ := polyline_lineStroke_ok config h g.linePositions
      simp [polylineBy, Slot.isWrittenBy, hok, Except.toOption]
  | _ => rfl

theorem isSome_billboardBy {s : Symbolizer} {icon : Option Icon} (h : s.defect? = none)
    (hicon : s.needsIcon = true → icon.isSome = true) :
    (billboardBy icon s).isSome = Slot.billboard.isWrittenBy s := by
  cases s with
  | mark s =>
      obtain ⟨i, rfl⟩ := Option.isSome_iff_exists.1 (hicon rfl)
      rfl
  | icon s =>
      obtain ⟨i, rfl⟩ := Option.isSome_iff_exists.1 (hicon rfl)
      obtain ⟨billboard, hok⟩ := iconBillboard_ok h i
      simp [billboardBy, Slot.isWrittenBy, hok, Except.toOption]
  | _ => rfl

theorem isSome_labelBy {s : Symbolizer} (h : s.defect? = none) (ps : Properties) :
    (labelBy config ps s).isSome = Slot.label.isWrittenBy s := by
  cases s with
  | text s =>
      obtain ⟨template, label, htemplate, hok⟩ := labelOf_ok config h ps
      simp [labelBy, Slot.isWrittenBy, htemplate, hok, Except.toOption]
  | _ => rfl

theorem isSome_modelBy {s : Symbolizer} (h : s.defect? = none) :
    (modelBy s).isSome = Slot.model.isWrittenBy s := by
  cases s with
  | model s =>
      obtain ⟨uri, model, huri, hok⟩ := modelOf_ok h
      simp [modelBy, Slot.isWrittenBy, huri, hok, Except.toOption]
  | _ => rfl

end Portrayal

theorem Slot.isSome_value {s : Symbolizer} {icon : Option Icon} (config : Config) (g : Geometry)
    (ps : Properties) (k : Slot) (h : s.defect? = none)
    (hicon : s.needsIcon = true → icon.isSome = true) :
    (k.value config icon g ps s).isSome = k.isWrittenBy s := by
  cases k with
  | polygon => exact Portrayal.isSome_polygonBy config h g
  | polyline => exact Portrayal.isSome_polylineBy config h g
  | billboard => exact Portrayal.isSome_billboardBy h hicon
  | label => exact Portrayal.isSome_labelBy config h ps
  | model => exact Portrayal.isSome_modelBy h

def Geometry.carries (g : Geometry) : Symbolizer → Bool
  | .fill _ => g.isPolygon
  | .line _ => g.isLine || g.isPolygon
  | .mark _ | .icon _ | .model _ | .text _ => g.isPoint
  | .unknown => false

namespace Styling

variable (config : Config) (icon : Option Icon)

def drawn (config : Config) (icon : Option Icon) (s : Symbolizer) (e : Entity) : Entity :=
  { e with
    polygon := (Portrayal.polygonBy config e.geometry s).or e.polygon
    polyline := (Portrayal.polylineBy config e.geometry s).or e.polyline
    billboard := (Portrayal.billboardBy icon s).or e.billboard
    label := (Portrayal.labelBy config e.properties s).or e.label
    model := (Portrayal.modelBy s).or e.model }

theorem graphic_drawn (k : Slot) (s : Symbolizer) (e : Entity) :
    (drawn config icon s e).graphic k =
      (k.value config icon e.geometry e.properties s).or (e.graphic k) := by
  cases k <;> rfl

theorem drawn_eq_self {s : Symbolizer} {e : Entity}
    (h : ∀ k : Slot, k.value config icon e.geometry e.properties s = none) :
    drawn config icon s e = e := by
  have hpolygon : Portrayal.polygonBy config e.geometry s = none := h .polygon
  have hpolyline : Portrayal.polylineBy config e.geometry s = none := h .polyline
  have hbillboard : Portrayal.billboardBy icon s = none := h .billboard
  have hlabel : Portrayal.labelBy config e.properties s = none := h .label
  have hmodel : Portrayal.modelBy s = none := h .model
  simp only [drawn, hpolygon, hpolyline, hbillboard, hlabel, hmodel, Option.none_or]

theorem drawn_fill (s : Style.Fill) (e : Entity) :
    drawn config icon (.fill s) e =
      { e with
        polygon := (Portrayal.polygonBy config e.geometry (.fill s)).or e.polygon
        polyline := (Portrayal.polylineBy config e.geometry (.fill s)).or e.polyline } := rfl

theorem drawn_line (s : Style.Line) (e : Entity) :
    drawn config icon (.line s) e =
      { e with polyline := (Portrayal.polylineBy config e.geometry (.line s)).or e.polyline } := rfl

theorem drawn_mark (s : Style.Mark) (e : Entity) :
    drawn config icon (.mark s) e =
      { e with billboard := (Portrayal.billboardBy icon (.mark s)).or e.billboard } := rfl

theorem drawn_icon (s : Style.Icon) (e : Entity) :
    drawn config icon (.icon s) e =
      { e with billboard := (Portrayal.billboardBy icon (.icon s)).or e.billboard } := rfl

theorem drawn_model (s : Style.Model) (e : Entity) :
    drawn config icon (.model s) e =
      { e with model := (Portrayal.modelBy (.model s)).or e.model } := rfl

theorem drawn_text (s : Style.Label) (e : Entity) :
    drawn config icon (.text s) e =
      { e with label := (Portrayal.labelBy config e.properties (.text s)).or e.label } := rfl

theorem applyOutline_of_checked {s : Style.Fill} (h : (Symbolizer.fill s).defect? = none)
    (e : Entity) :
    (applyOutline config s e).outcome = .ok true ∧
      (applyOutline config s e).state =
        { e with
          polyline := (Portrayal.polylineBy config e.geometry (.fill s)).or e.polyline } := by
  rw [applyOutline]
  cases hstroke : Portrayal.outlineStroke? s with
  | none =>
      have hline : Portrayal.polylineBy config e.geometry (.fill s) = none := by
        simp [Portrayal.polylineBy, hstroke]
      rw [hline]
      exact ⟨rfl, rfl⟩
  | some stroke =>
      obtain ⟨line, hok⟩ :=
        Portrayal.polyline_outlineStroke_ok config h hstroke e.geometry.linePositions
      have hline : Portrayal.polylineBy config e.geometry (.fill s) = some line := by
        simp [Portrayal.polylineBy, hstroke, hok, Except.toOption]
      simp only [hok, hline, Option.some_or]
      exact ⟨rfl, rfl⟩

theorem applyFill_of_checked {s : Style.Fill} {e : Entity}
    (h : (Symbolizer.fill s).defect? = none) (hg : e.geometry.isPolygon = true) :
    (applyFill config s e).outcome = .ok true ∧
      (applyFill config s e).state = drawn config icon (.fill s) e := by
  rw [drawn_fill, applyFill]
  simp only [hg, Bool.not_true, Bool.false_eq_true, if_false]
  cases hcolor : s.color with
  | none =>
      have hpolygon : Portrayal.polygonBy config e.geometry (.fill s) = none := by
        simp [Portrayal.polygonBy, hcolor]
      rw [hpolygon]
      exact applyOutline_of_checked config h e
  | some color =>
      obtain ⟨polygon, hok⟩ := Portrayal.fillPolygon_ok config h hcolor e.geometry
      have hpolygon : Portrayal.polygonBy config e.geometry (.fill s) = some polygon := by
        simp [Portrayal.polygonBy, hcolor, hok, Except.toOption]
      simp only [hok, hpolygon, Option.some_or]
      exact applyOutline_of_checked config h { e with polygon := some polygon }

theorem applyLine_of_checked {s : Style.Line} {e : Entity}
    (h : (Symbolizer.line s).defect? = none)
    (hg : (e.geometry.isLine || e.geometry.isPolygon) = true) :
    (applyLine config s e).outcome = .ok true ∧
      (applyLine config s e).state = drawn config icon (.line s) e := by
  obtain ⟨line, hok⟩ := Portrayal.polyline_lineStroke_ok config h e.geometry.linePositions
  have hline : Portrayal.polylineBy config e.geometry (.line s) = some line := by
    simp [Portrayal.polylineBy, hok, Except.toOption]
  rw [drawn_line, hline, applyLine]
  simp only [hg, hok, Bool.not_true, Bool.false_eq_true, if_false]
  exact ⟨rfl, rfl⟩

theorem applyMark_of_isPoint {s : Style.Mark} {e : Entity} (i : Icon)
    (hg : e.geometry.isPoint = true) :
    (applyMark i s e).outcome = .ok true ∧
      (applyMark i s e).state = drawn config (some i) (.mark s) e := by
  rw [drawn_mark, applyMark]
  simp only [hg, Bool.not_true, Bool.false_eq_true, if_false]
  exact ⟨rfl, rfl⟩

theorem applyIcon_of_checked {s : Style.Icon} {e : Entity} (i : Icon)
    (h : (Symbolizer.icon s).defect? = none) (hg : e.geometry.isPoint = true) :
    (applyIcon i s e).outcome = .ok true ∧
      (applyIcon i s e).state = drawn config (some i) (.icon s) e := by
  obtain ⟨billboard, hok⟩ := Portrayal.iconBillboard_ok h i
  have hbillboard : Portrayal.billboardBy (some i) (.icon s) = some billboard := by
    simp [Portrayal.billboardBy, hok, Except.toOption]
  rw [drawn_icon, hbillboard, applyIcon]
  simp only [hg, hok, Bool.not_true, Bool.false_eq_true, if_false]
  exact ⟨rfl, rfl⟩

theorem applyModel_of_checked {s : Style.Model} {e : Entity}
    (h : (Symbolizer.model s).defect? = none) (hg : e.geometry.isPoint = true) :
    (applyModel s e).outcome = .ok true ∧
      (applyModel s e).state = drawn config icon (.model s) e := by
  obtain ⟨uri, model, huri, hok⟩ := Portrayal.modelOf_ok h
  have hmodel : Portrayal.modelBy (.model s) = some model := by
    simp [Portrayal.modelBy, huri, hok, Except.toOption]
  rw [drawn_model, hmodel, applyModel]
  simp only [hg, huri, hok, Bool.not_true, Bool.false_eq_true, if_false]
  exact ⟨rfl, rfl⟩

theorem applyLabel_of_checked {s : Style.Label} {e : Entity}
    (h : (Symbolizer.text s).defect? = none) (hg : e.geometry.isPoint = true) :
    (applyLabel config s e).outcome = .ok true ∧
      (applyLabel config s e).state = drawn config icon (.text s) e := by
  obtain ⟨template, label, htemplate, hok⟩ := Portrayal.labelOf_ok config h e.properties
  have hlabel : Portrayal.labelBy config e.properties (.text s) = some label := by
    simp [Portrayal.labelBy, htemplate, hok, Except.toOption]
  rw [drawn_text, hlabel, applyLabel]
  simp only [hg, htemplate, hok, Bool.not_true, Bool.false_eq_true, if_false]
  exact ⟨rfl, rfl⟩

end Styling
end Symbology
