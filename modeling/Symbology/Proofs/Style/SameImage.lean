import Symbology.Proofs.Icon.Batch
import Symbology.Proofs.Json.Unique
import Symbology.Proofs.Style.RoundTrip
import Symbology.Style.ImageId

namespace Symbology.Style

/-- What changes a mark's image is the same; doubles are compared bit for bit. -/
structure Mark.Alike (a b : Mark) : Prop where
  wellKnownName : a.wellKnownName = b.wellKnownName
  color : a.color = b.color
  fillOpacity : a.fillOpacity.map Float.toBits = b.fillOpacity.map Float.toBits
  strokeColor : a.strokeColor = b.strokeColor
  strokeOpacity : a.strokeOpacity.map Float.toBits = b.strokeOpacity.map Float.toBits
  strokeWidth : a.strokeWidth.map Float.toBits = b.strokeWidth.map Float.toBits
  radius : a.radius.map Float.toBits = b.radius.map Float.toBits

inductive SameImage : Symbolizer → Symbolizer → Prop where
  | mark {a b : Mark} (alike : a.Alike b) : SameImage (.mark a) (.mark b)
  | icon {a b : Icon} {image : String} (left : a.image = some image) (right : b.image = some image) :
      SameImage (.icon a) (.icon b)

theorem orNull_inj {α : Type} {f : α → Json} (hf : Function.Injective f) (hnull : ∀ a, f a ≠ .null)
    {x y : Option α} : orNull f x = orNull f y ↔ x = y := by
  refine ⟨fun h => ?_, fun h => h ▸ rfl⟩
  cases x with
  | none =>
      cases y with
      | none => rfl
      | some y => exact absurd h.symm (hnull y)
  | some x =>
      cases y with
      | none => exact absurd h (hnull x)
      | some y => rw [hf h]

theorem orNull_text_inj {x y : Option String} : orNull .str x = orNull .str y ↔ x = y :=
  orNull_inj (fun _ _ => Json.str.inj) nofun

theorem orNull_double_inj {x y : Option Float} :
    orNull ofDouble x = orNull ofDouble y ↔ x.map Float.toBits = y.map Float.toBits := by
  have hbits : Function.Injective Float.toBits := fun _ _ => Double.eq_of_toBits_eq
  rw [(Option.map_injective hbits).eq_iff, orNull_inj (fun a b h => ?_) nofun]
  cases h
  rfl

variable {a b : Mark}

theorem Mark.appearance_eq_iff : a.appearance = b.appearance ↔ a.Alike b := by
  simp only [appearance, Json.obj.injEq, List.cons.injEq, Prod.mk.injEq, true_and, and_true,
    orNull_text_inj, orNull_double_inj]
  constructor
  · rintro ⟨color, fillOpacity, radius, strokeColor, strokeOpacity, strokeWidth, wellKnownName⟩
    exact { wellKnownName, color, fillOpacity, strokeColor, strokeOpacity, strokeWidth, radius }
  · intro h
    exact ⟨h.color, h.fillOpacity, h.radius, h.strokeColor, h.strokeOpacity, h.strokeWidth,
      h.wellKnownName⟩

theorem Mark.isFinite_appearance (h : (Symbolizer.mark a).json.IsFinite) :
    a.appearance.IsFinite := by
  intro x hx
  obtain ⟨m, hm, hx⟩ := Json.mem_memberDoubles.mp hx
  have hmember : m ∈ (Symbolizer.mark a).members := by
    simp only [List.mem_cons, List.not_mem_nil, or_false] at hm
    rcases hm with rfl | rfl | rfl | rfl | rfl | rfl | rfl <;> simp [Symbolizer.members, Mark.members]
  exact h x (Symbolizer.mem_doubles hmember hx)

theorem Document.isFinite_ofText {text : String} {d : Document} (h : Document.ofText text = .ok d) :
    ∀ r ∈ d.rules, ∀ s ∈ r.symbolizers, s.json.IsFinite := by
  intro r hr s hs x hx
  obtain ⟨m, hm, hx⟩ := Json.mem_memberDoubles.mp hx
  rcases List.mem_cons.mp hm with rfl | hm
  · cases hx
  · exact ((readable_ofText h r hr).symbolizers s hs m hm).finite_doubles x hx

theorem mark_id_ne_icon_id (t u : String) : "mark:" ++ t ≠ "icon:" ++ u := by
  intro h
  have hchars := congrArg String.toList h
  simp at hchars

theorem imageId?_mark_iff (ha : (Symbolizer.mark a).json.IsFinite)
    (hb : (Symbolizer.mark b).json.IsFinite) :
    (Symbolizer.mark a).imageId? = (Symbolizer.mark b).imageId? ↔ a.Alike b := by
  rw [Symbolizer.imageId?, Symbolizer.imageId?, Option.some_inj, String.append_right_inj,
    ← Mark.appearance_eq_iff]
  refine ⟨fun h => ?_, fun h => h ▸ rfl⟩
  exact Json.text_injective (Mark.isFinite_appearance ha) (Mark.isFinite_appearance hb) h

theorem imageId?_icon_iff {a : Icon} {id : String} :
    (Symbolizer.icon a).imageId? = some id ↔ ∃ image, a.image = some image ∧ "icon:" ++ image = id := by
  rw [Symbolizer.imageId?, Option.map_eq_some_iff]

variable {s t : Symbolizer}

theorem sameImage_of_id {id : String} (hs : s.json.IsFinite) (ht : t.json.IsFinite)
    (hids : s.imageId? = some id) (hidt : t.imageId? = some id) : SameImage s t := by
  cases s with
  | mark a =>
      cases t with
      | mark b => exact .mark ((imageId?_mark_iff hs ht).mp (hids.trans hidt.symm))
      | icon b =>
          obtain ⟨image, -, hid⟩ := imageId?_icon_iff.mp hidt
          exact absurd ((Option.some.inj hids).trans hid.symm) (mark_id_ne_icon_id _ image)
      | _ => cases hidt
  | icon a =>
      obtain ⟨image, ha, hid⟩ := imageId?_icon_iff.mp hids
      cases t with
      | mark b => exact absurd ((Option.some.inj hidt).trans hid.symm) (mark_id_ne_icon_id _ image)
      | icon b =>
          obtain ⟨image', hb, hid'⟩ := imageId?_icon_iff.mp hidt
          obtain rfl := (String.append_right_inj _).mp (hid.trans hid'.symm)
          exact .icon ha hb
      | _ => cases hidt
  | _ => cases hids

theorem SameImage.exists_id (h : SameImage s t) :
    ∃ id, s.imageId? = some id ∧ t.imageId? = some id := by
  cases h with
  | mark alike =>
      refine ⟨_, rfl, ?_⟩
      rw [Symbolizer.imageId?, Mark.appearance_eq_iff.mpr alike]
  | icon left right =>
      exact ⟨_, imageId?_icon_iff.mpr ⟨_, left, rfl⟩, imageId?_icon_iff.mpr ⟨_, right, rfl⟩⟩

theorem neededId?_eq (s : Symbolizer) : Icon.neededId? Symbolizer.imageId? s = s.imageId? := by
  cases s <;> rfl

structure DrawnOnce (cache : Icon.Cache) (ss : List Symbolizer) (batch : List Icon.Request) :
    Prop where
  apart : batch.Pairwise fun q r => ¬ SameImage q.symbolizer r.symbolizer
  served : ∀ s ∈ ss, ∀ id, s.imageId? = some id →
    cache.contains id = true ∨ ∃ q ∈ batch, q.id = id ∧ SameImage s q.symbolizer

section

variable {drawer : Icon.Drawer} {cache : Icon.Cache} {ss : List Symbolizer} {q : Icon.Request}

theorem request_of_mem_needs (h : q ∈ Icon.needs Symbolizer.imageId? [] ss) :
    q.symbolizer ∈ ss ∧ q.symbolizer.imageId? = some q.id := by
  have hfind := Icon.find?_of_mem_needs h
  have hid := List.find?_some hfind
  rw [decide_eq_true_eq, neededId?_eq] at hid
  exact ⟨List.mem_of_find?_eq_some hfind, hid⟩

theorem drawnOnce_resolve (h : ∀ s ∈ ss, s.json.IsFinite) :
    DrawnOnce cache ss (Icon.resolve drawer Symbolizer.imageId? cache ss).batch := by
  have hids : ((Icon.needs Symbolizer.imageId? [] ss).map Icon.Request.id).Nodup :=
    Icon.nodup_ids_needs [] ss
  rw [Icon.batch_resolve]
  refine ⟨?_, fun s hs id hid => ?_⟩
  · rw [List.nodup_iff_pairwise_ne, List.pairwise_map] at hids
    refine (hids.sublist List.filter_sublist).imp_of_mem fun {q r} hq hr hne hsame => hne ?_
    obtain ⟨-, hqid⟩ := request_of_mem_needs (List.mem_of_mem_filter hq)
    obtain ⟨-, hrid⟩ := request_of_mem_needs (List.mem_of_mem_filter hr)
    obtain ⟨id, hq', hr'⟩ := hsame.exists_id
    exact Option.some.inj ((hqid.symm.trans hq').trans (hr'.symm.trans hrid))
  · have hneeded : id ∈ Icon.neededIds Symbolizer.imageId? ss :=
      List.mem_filterMap.mpr ⟨s, hs, (neededId?_eq s).trans hid⟩
    obtain ⟨q, hq, rfl⟩ := List.mem_map.mp (Icon.mem_ids_needs.mpr hneeded)
    obtain ⟨hmem, hqid⟩ := request_of_mem_needs hq
    cases hcache : cache.contains q.id with
    | true => exact .inl rfl
    | false =>
        refine .inr ⟨q, List.mem_filter.mpr ⟨hq, by rw [hcache]; rfl⟩, rfl, ?_⟩
        exact sameImage_of_id (h s hs) (h _ hmem) hid hqid

end

theorem image_per_look :
    (∀ s t : Symbolizer, s.json.IsFinite → t.json.IsFinite →
      ((∃ id, s.imageId? = some id ∧ t.imageId? = some id) ↔ SameImage s t)) ∧
    (∀ (text : String) (d : Document), Document.ofText text = .ok d →
      ∀ r ∈ d.rules, ∀ s ∈ r.symbolizers, s.json.IsFinite) ∧
    ∀ (drawer : Icon.Drawer) (cache : Icon.Cache) (ss : List Symbolizer),
      (∀ s ∈ ss, s.json.IsFinite) →
      DrawnOnce cache ss (Icon.resolve drawer Symbolizer.imageId? cache ss).batch := by
  refine ⟨fun s t hs ht => ⟨?_, SameImage.exists_id⟩, fun _ _ => Document.isFinite_ofText,
    fun _ _ _ => drawnOnce_resolve⟩
  rintro ⟨id, hids, hidt⟩
  exact sameImage_of_id hs ht hids hidt

def buoy : Mark where
  wellKnownName := some "Circle"
  color := some "#ff0000"
  radius := some 16.0

def turnedBuoy : Mark :=
  { buoy with rotate := some 90.0, bringToFront := some true }

/-- Its color reads like the members that follow it. -/
def forgedBuoy : Mark :=
  { buoy with color := some "#ff0000\",\"fillOpacity\":0.5" }

theorem image_per_look_buoys :
    (∃ id, (Symbolizer.mark buoy).imageId? = some id ∧
      (Symbolizer.mark turnedBuoy).imageId? = some id) ∧
    (¬ ∃ id, (Symbolizer.mark buoy).imageId? = some id ∧
      (Symbolizer.mark forgedBuoy).imageId? = some id) ∧
    DrawnOnce .empty [.mark buoy, .mark turnedBuoy, .mark forgedBuoy]
      (Icon.resolve .idle Symbolizer.imageId? .empty
        [.mark buoy, .mark turnedBuoy, .mark forgedBuoy]).batch := by
  have hfinite : ∀ s ∈ [Symbolizer.mark buoy, .mark turnedBuoy, .mark forgedBuoy],
      s.json.IsFinite := by
    unfold Json.IsFinite
    decide +kernel
  obtain ⟨hiff, -, hdrawn⟩ := image_per_look
  refine ⟨?_, ?_, hdrawn .idle .empty _ hfinite⟩
  · exact (hiff _ _ (hfinite _ (by simp)) (hfinite _ (by simp))).mpr
      (.mark ⟨rfl, rfl, rfl, rfl, rfl, rfl, rfl⟩)
  · rw [hiff _ _ (hfinite _ (by simp)) (hfinite _ (by simp))]
    rintro ⟨alike⟩
    exact absurd alike.color (by decide)

end Symbology.Style
