import Symbology.Proofs.Double.Worth
import Symbology.Proofs.Dash.Widths

namespace Symbology.Dash

open Double

variable {runs : List Float} {k : Nat}

theorem total_nil : total [] = 0 := rfl

theorem isFinite_total_nil : (total []).isFinite = true := by
  rw [total_nil]
  exact isWorth_zero.isFinite

theorem total_append_singleton (runs : List Float) (x : Float) :
    total (runs ++ [x]) = total runs + x := by
  rw [total, List.foldl_append]
  rfl

theorem isWorth_of_isRun {x : Float} (h : isRun x = true) : ∃ v, 0 < v ∧ IsWorth x v := by
  rw [isRun, Bool.and_eq_true, decide_eq_true_eq] at h
  exact isWorth_of_pos h.1 h.2

theorem infinite_foldl {x : Float} (hx : x.toModel.unpack = .infinity .positive)
    (h : ∀ r ∈ runs, isRun r = true) :
    (runs.foldl (· + ·) x).toModel.unpack = .infinity .positive := by
  induction runs generalizing x with
  | nil => exact hx
  | cons r rest ih =>
      obtain ⟨v, -, hr⟩ := isWorth_of_isRun (h r List.mem_cons_self)
      exact ih (infinite_add hx hr) fun r hr => h r (List.mem_cons_of_mem _ hr)

theorem worth_or_infinite (h : ∀ r ∈ runs, isRun r = true) :
    (∃ v, IsWorth (total runs) v) ∨ (total runs).toModel.unpack = .infinity .positive := by
  induction runs using List.reverseRecOn with
  | nil => exact .inl ⟨0, isWorth_zero⟩
  | append_singleton runs x ih =>
      obtain ⟨w, -, hx⟩ := isWorth_of_isRun (h x (by simp))
      rw [total_append_singleton]
      rcases ih fun r hr => h r (List.mem_append_left _ hr) with ⟨v, hv⟩ | hinfinite
      · exact (finite_or_infinite_add hv hx).imp (fun hfinite => ⟨_, hv.add hx hfinite⟩) id
      · exact .inr (infinite_add hinfinite hx)

structure Measured (runs : List Float) : Prop where
  isRun : ∀ r ∈ runs, isRun r = true
  finite : (total runs).isFinite = true

theorem Measured.isWorth (h : Measured runs) : ∃ v, IsWorth (total runs) v := by
  refine (worth_or_infinite h.isRun).resolve_right fun hinfinite => ?_
  have hfinite : (total runs).toModel.unpack.isFinite = true := h.finite
  rw [hinfinite] at hfinite
  cases hfinite

theorem Measured.take (h : Measured runs) (k : Nat) : Measured (runs.take k) := by
  have hruns : ∀ r ∈ runs.take k, Dash.isRun r = true := fun r hr => h.isRun r (List.mem_of_mem_take hr)
  rcases worth_or_infinite hruns with ⟨v, hv⟩ | hinfinite
  · exact ⟨hruns, hv.isFinite⟩
  · have hrest : (total runs).toModel.unpack = .infinity .positive := by
      rw [← List.take_append_drop k runs, total, List.foldl_append]
      exact infinite_foldl hinfinite fun r hr => h.isRun r (List.mem_of_mem_drop hr)
    have hfinite : (total runs).toModel.unpack.isFinite = true := h.finite
    rw [hrest] at hfinite
    cases hfinite

variable {v w : ℚ}

theorem Measured.le_take_succ (h : Measured runs) (hv : IsWorth (total (runs.take k)) v)
    (hw : IsWorth (total (runs.take (k + 1))) w) : v ≤ w := by
  by_cases hk : k < runs.length
  · obtain ⟨r, -, hr⟩ := isWorth_of_isRun (h.isRun _ (List.getElem_mem hk))
    have hsum : total (runs.take (k + 1)) = total (runs.take k) + runs[k] := by
      rw [List.take_add_one, List.getElem?_eq_getElem hk, Option.toList_some, total_append_singleton]
    have hfinite := hw.isFinite
    rw [hsum] at hw hfinite
    rw [hw.unique (hv.add hr hfinite)]
    exact (hv.le_add hr).1
  · rw [List.take_of_length_le (by omega)] at hv hw
    exact (hv.unique hw).le

theorem Measured.le_take (h : Measured runs) {l : Nat} (hkl : k ≤ l)
    (hv : IsWorth (total (runs.take k)) v) (hw : IsWorth (total (runs.take l)) w) : v ≤ w := by
  induction l, hkl using Nat.le_induction generalizing w with
  | base => exact (hv.unique hw).le
  | succ l hkl ih =>
      obtain ⟨u, hu⟩ := (h.take l).isWorth
      exact (ih hu).trans (h.le_take_succ hu hw)

theorem Measured.pos (h : Measured runs) (hne : runs ≠ []) (hv : IsWorth (total runs) v) :
    0 < v := by
  obtain ⟨first, x, rfl⟩ := (List.eq_nil_or_concat' runs).resolve_left hne
  obtain ⟨u, hu⟩ := (h.take first.length).isWorth
  rw [List.take_left] at hu
  obtain ⟨w, hw, hx⟩ := isWorth_of_isRun (h.isRun x (by simp))
  have hfinite := hv.isFinite
  rw [total_append_singleton] at hv hfinite
  rw [hv.unique (hu.add hx hfinite)]
  exact hw.trans_le (hu.le_add hx).2

def boundary (runs : List Float) (k : Nat) : Nat :=
  nearestNat bitCount (total (runs.take k) / total runs * 16)

theorem ends_total (t : Float) (before runs : List Float) :
    ends t (total before) runs = (List.range runs.length).map fun k =>
      nearestNat bitCount (total (before ++ runs.take (k + 1)) / t * 16) := by
  induction runs generalizing before with
  | nil => rfl
  | cons r rest ih =>
      have hrest := ih (before ++ [r])
      rw [total_append_singleton] at hrest
      rw [ends, hrest, List.length_cons, List.range_succ_eq_map, List.map_cons, List.map_map]
      simp only [Function.comp_def, Nat.succ_eq_add_one, List.take_succ_cons, List.take_zero,
        List.append_assoc, List.singleton_append, total_append_singleton]

theorem ends_eq (runs : List Float) :
    ends (total runs) 0 runs = (List.range runs.length).map fun k => boundary runs (k + 1) := by
  exact ends_total (total runs) [] runs

theorem Measured.boundary_eq (h : Measured runs) (hne : runs ≠ []) (hv : IsWorth (total (runs.take k)) v)
    (hw : IsWorth (total runs) w) : boundary runs k = min bitCount ⌊sixteenths v w + 1 / 2⌋₊ := by
  have hle : v ≤ w := by
    rcases Nat.le_total k runs.length with hk | hk
    · refine h.le_take hk hv ?_
      rwa [List.take_length]
    · rw [List.take_of_length_le hk] at hv
      exact (hv.unique hw).le
  rw [boundary, nearestNat_eq (isWorth_sixteenths hv hw (h.pos hne hw) hle)]

theorem Measured.boundary_zero (h : Measured runs) (hne : runs ≠ []) : boundary runs 0 = 0 := by
  obtain ⟨w, hw⟩ := h.isWorth
  have hnone : IsWorth (total (runs.take 0)) 0 := by
    rw [List.take_zero, total_nil]
    exact isWorth_zero
  rw [h.boundary_eq hne hnone hw, sixteenths_zero, zero_add]
  have hhalf : ⌊(1 : ℚ) / 2⌋₊ = 0 := Nat.floor_eq_zero.mpr (by norm_num)
  rw [hhalf, Nat.min_zero]

theorem Measured.boundary_mono (h : Measured runs) (hne : runs ≠ []) {l : Nat} (hkl : k ≤ l) :
    boundary runs k ≤ boundary runs l := by
  obtain ⟨w, hw⟩ := h.isWorth
  obtain ⟨u, hu⟩ := (h.take k).isWorth
  obtain ⟨v, hv⟩ := (h.take l).isWorth
  have hsixteenths : sixteenths u w ≤ sixteenths v w :=
    sixteenths_mono (Amounts.nonneg hu) (h.pos hne hw) (h.le_take hkl hu hv)
  rw [h.boundary_eq hne hu hw, h.boundary_eq hne hv hw]
  exact min_le_min_left _ (Nat.floor_mono (by linarith))

theorem Measured.boundary_length (h : Measured runs) (hne : runs ≠ []) :
    boundary runs runs.length = bitCount := by
  obtain ⟨w, hw⟩ := h.isWorth
  have hall : IsWorth (total (runs.take runs.length)) w := by rwa [List.take_length]
  have hfloor : ⌊(16 : ℚ) + 1 / 2⌋₊ = 16 := (Nat.floor_eq_iff (by norm_num)).mpr (by norm_num)
  rw [h.boundary_eq hne hall hw, sixteenths_self (h.pos hne hw), hfloor]
  rfl

theorem Measured.cons_ends (h : Measured runs) (hne : runs ≠ []) :
    0 :: ends (total runs) 0 runs = (List.range (runs.length + 1)).map (boundary runs) := by
  rw [ends_eq, List.range_succ_eq_map, List.map_cons, h.boundary_zero hne, List.map_map]
  rfl

theorem Measured.isChain_ends (h : Measured runs) (hne : runs ≠ []) :
    (0 :: ends (total runs) 0 runs).IsChain (· ≤ ·) := by
  rw [h.cons_ends hne]
  exact (List.pairwise_map.mpr
    (List.pairwise_le_range.imp fun hkl => h.boundary_mono hne hkl)).isChain

def firstWidths (runs : List Float) : List Nat :=
  differences 0 (ends (total runs) 0 runs)

theorem length_ends (runs : List Float) : (ends (total runs) 0 runs).length = runs.length := by
  rw [ends_eq, List.length_map, List.length_range]

theorem length_firstWidths (runs : List Float) : (firstWidths runs).length = runs.length := by
  rw [firstWidths, length_differences, length_ends]

theorem Measured.sum_firstWidths (h : Measured runs) (hne : runs ≠ []) :
    (firstWidths runs).sum = bitCount := by
  have hpos : 0 < runs.length := List.length_pos_iff.mpr hne
  have hlast : (ends (total runs) 0 runs).getLast? = some bitCount := by
    rw [ends_eq, List.getLast?_map, List.getLast?_range, if_neg hpos.ne', Option.map_some,
      Nat.sub_add_cancel hpos, h.boundary_length hne]
  have hsum := sum_differences (h.isChain_ends hne) hlast
  rw [firstWidths]
  omega

structure Encoded (runs : List Float) (d : Dash) : Prop where
  length : d.length = total runs
  boundaries : ends (total runs) 0 runs =
    (List.range runs.length).map fun k => boundary runs (k + 1)
  ascending : (0 :: ends (total runs) 0 runs).IsChain (· ≤ ·)
  widths : widths 0 (ends (total runs) 0 runs) = .ok (firstWidths runs)
  settles : ∀ n, settle n (firstWidths runs) =
    if (firstWidths runs).count 0 ≤ n then .ok ((strokes d.pattern).map List.length)
    else .error .endless
  settled : runWidths runs = .ok ((strokes d.pattern).map List.length)
  sum : ((strokes d.pattern).map List.length).sum = bitCount
  count : (strokes d.pattern).length = runs.length
  pos : ∀ s ∈ strokes d.pattern, 0 < s.length
  top : d.pattern.toNat.testBit 15 = true
  bottom : d.pattern.toNat.testBit 0 = false
  unborrowed : 0 ∉ firstWidths runs → ∀ k < runs.length,
    ((strokes d.pattern).take (k + 1)).flatten.length = boundary runs (k + 1)

theorem Measured.runWidths_eq (h : Measured runs) (hne : runs ≠ []) (hle : runs.length ≤ bitCount)
    {ws : List Nat} (hws : Settled (firstWidths runs) ws) : runWidths runs = .ok ws := by
  have hcount : (firstWidths runs).count 0 ≤ bitCount :=
    List.count_le_length.trans ((length_firstWidths runs).le.trans hle)
  rw [runWidths, widths_eq (h.isChain_ends hne)]
  exact (hws.settles bitCount).trans (if_pos hcount)

theorem Measured.encoded (h : Measured runs) (hne : runs ≠ []) (hle : runs.length ≤ bitCount)
    (heven : runs.length % 2 = 0) :
    ∃ ws, runWidths runs = .ok ws ∧ ∀ d : Dash, d.length = total runs →
      d.pattern = UInt16.ofNat (mask bitCount (bits true ws)) → Encoded runs d := by
  have hsum := h.sum_firstWidths hne
  have hlength := length_firstWidths runs
  have hroom : (firstWidths runs).length ≤ (firstWidths runs).sum := by omega
  obtain ⟨ws, hws⟩ := exists_settled hroom
  have hruns := h.runWidths_eq hne hle hws
  have hne' : ws ≠ [] := by
    rw [← List.length_pos_iff, hws.length, hlength]
    exact List.length_pos_iff.mpr hne
  refine ⟨ws, hruns, fun d hd hpattern => ?_⟩
  have hdrawn : drawn d.pattern = bits true ws := by
    rw [hpattern]
    exact drawn_mask (by rw [length_bits, hws.sum, hsum])
  have hmap : (strokes d.pattern).map List.length = ws := by
    rw [strokes, hdrawn, splitBy_bits hws.pos, map_length_runsOf]
  exact
    { length := hd
      boundaries := ends_eq runs
      ascending := h.isChain_ends hne
      widths := widths_eq (h.isChain_ends hne)
      settles := by rw [hmap]; exact hws.settles
      settled := by rw [hmap]; exact hruns
      sum := by rw [hmap, hws.sum, hsum]
      count := by rw [← List.length_map, hmap, hws.length, hlength]
      pos := fun s hs => hws.pos _ (hmap ▸ List.mem_map_of_mem hs)
      top := testBit_top (by rw [hdrawn, head?_bits hws.pos true hne'])
      bottom := testBit_bottom (by
        rw [hdrawn, getLast?_bits hws.pos true hne', hws.length, hlength, if_pos heven]
        rfl)
      unborrowed := fun hzero k hk => by
        have hk' : k < (ends (total runs) 0 runs).length := by rwa [length_ends]
        have hsame : ws = firstWidths runs := by
          have hsettle := hws.settles 0
          rw [settle_of_not_mem hzero, List.count_eq_zero.mpr hzero, if_pos (Nat.le_refl 0),
            Except.ok.injEq] at hsettle
          exact hsettle.symm
        have hend := sum_take_differences (h.isChain_ends hne) hk'
        rw [List.length_flatten, List.map_take, hmap, hsame, firstWidths]
        rw [zero_add] at hend
        rw [hend]
        simp only [ends_eq, List.getElem_map, List.getElem_range] }

theorem mem_cycle {a : List Float} {x : Float} : x ∈ cycle a ↔ x ∈ a := by
  rw [cycle]
  split
  · rfl
  · rw [List.mem_append, or_self]

theorem cycle_nil : cycle [] = [] := rfl

theorem cycle_ne_nil {a : List Float} (h : a ≠ []) : cycle a ≠ [] := by
  rw [cycle]
  split
  · exact h
  · exact List.append_ne_nil_of_left_ne_nil h a

theorem length_cycle_even (a : List Float) : (cycle a).length % 2 = 0 := by
  rw [cycle]
  split
  · assumption
  · rw [List.length_append]
    omega

theorem unusable_iff (a : List Float) :
    (a.isEmpty || a.any (!isRun ·)) = true ↔
      a = [] ∨ ∃ x ∈ a, x.isFinite = false ∨ ¬ 0 < x := by
  have hrun (x : Float) : (!isRun x) = true ↔ x.isFinite = false ∨ ¬ 0 < x := by
    rw [isRun, Bool.not_eq_true', Bool.and_eq_false_iff, decide_eq_false_iff_not]
  rw [Bool.or_eq_true, List.isEmpty_iff, List.any_eq_true]
  simp only [hrun]

theorem isRun_of_usable {a : List Float} (h : ¬ (a.isEmpty || a.any (!isRun ·)) = true) :
    a ≠ [] ∧ ∀ x ∈ a, isRun x = true := by
  rw [Bool.or_eq_true, not_or, List.isEmpty_iff, Bool.not_eq_true, List.any_eq_false] at h
  exact ⟨h.1, fun x hx => by simpa using h.2 x hx⟩

structure IsOverlong (a : List Float) : Prop where
  isRun : ∀ x ∈ a, isRun x = true
  few : (cycle a).length ≤ bitCount
  infinite : (total (cycle a)).isFinite = false

theorem runWidths_of_infinite (h : ∀ r ∈ runs, isRun r = true)
    (hinfinite : (total runs).isFinite = false) : runWidths runs = .error .underflow := by
  have hwhole : (total runs).toModel.unpack = .infinity .positive :=
    (worth_or_infinite h).resolve_left fun ⟨v, hv⟩ => by
      rw [hv.isFinite] at hinfinite
      cases hinfinite
  -- every share of an infinite whole is zero or not a number, so no run gets a bit
  have hboundary (k : Nat) : boundary runs k = 0 := by
    rw [boundary]
    exact nearestNat_share_infinite (worth_or_infinite fun r hr => h r (List.mem_of_mem_take hr))
      hwhole bitCount
  have hends : ends (total runs) 0 runs = List.replicate runs.length 0 := by
    rw [ends_eq, List.eq_replicate_iff]
    simp [hboundary]
  have hsettle : runWidths runs = settle bitCount (List.replicate runs.length 0) := by
    rw [runWidths, hends, widths_replicate_zero]
    rfl
  rw [hsettle]
  cases runs with
  | nil =>
      rw [isFinite_total_nil] at hinfinite
      cases hinfinite
  | cons r rest => exact settle_replicate_zero 15 rest.length

theorem IsOverlong.usable {a : List Float} (h : IsOverlong a) :
    ¬ (a.isEmpty || a.any (!Dash.isRun ·)) = true := by
  rw [unusable_iff]
  rintro (rfl | ⟨x, hx, hnone⟩)
  · have hinfinite := h.infinite
    rw [cycle_nil, isFinite_total_nil] at hinfinite
    cases hinfinite
  · have hrun := h.isRun x hx
    rw [Dash.isRun, Bool.and_eq_true, decide_eq_true_eq] at hrun
    rcases hnone with hnone | hnone
    · rw [hrun.1] at hnone
      cases hnone
    · exact hnone hrun.2

theorem ofRuns?_of_isOverlong {a : List Float} (h : IsOverlong a) :
    ofRuns? a = .error .underflow := by
  have hcycle : ∀ x ∈ cycle a, Dash.isRun x = true := fun x hx => h.isRun x (mem_cycle.mp hx)
  rw [ofRuns?, if_neg h.usable]
  simp only
  rw [if_neg (Nat.not_lt.mpr h.few), runWidths_of_infinite hcycle h.infinite]
  rfl

theorem exists_ofRuns? {a : List Float} (h : ¬ IsOverlong a) : ∃ o, ofRuns? a = .ok o := by
  rw [ofRuns?]
  split
  · exact ⟨none, rfl⟩
  · next hgood =>
      obtain ⟨hne, hruns⟩ := isRun_of_usable hgood
      simp only
      split
      · exact ⟨none, rfl⟩
      · next hfew =>
          have hle := Nat.le_of_not_lt hfew
          have hfinite : (total (cycle a)).isFinite = true := by
            by_contra hinfinite
            exact h ⟨hruns, hle, Bool.not_eq_true _ ▸ hinfinite⟩
          obtain ⟨ws, hws, -⟩ := Measured.encoded
            ⟨fun x hx => hruns x (mem_cycle.mp hx), hfinite⟩ (cycle_ne_nil hne) hle
            (length_cycle_even a)
          exact ⟨_, by rw [hws]; rfl⟩

/-- Encoding comes to a stop at its first loan, and only for want of a finite sum. -/
theorem ofRuns?_eq_error_iff {a : List Float} {cause : Stop} :
    ofRuns? a = .error cause ↔ IsOverlong a ∧ cause = .underflow := by
  constructor
  · intro h
    have hlong : IsOverlong a := by
      by_contra hshort
      obtain ⟨o, ho⟩ := exists_ofRuns? hshort
      rw [ho] at h
      cases h
    rw [ofRuns?_of_isOverlong hlong] at h
    cases h
    exact ⟨hlong, rfl⟩
  · rintro ⟨hlong, rfl⟩
    exact ofRuns?_of_isOverlong hlong

theorem encoding (a : List Float)
    (h : (∀ x ∈ a, isRun x = true) → (total (cycle a)).isFinite = true) :
    (∃ o, ofRuns? a = .ok o) ∧
    (ofRuns? a = .ok none ↔
      a = [] ∨ (∃ x ∈ a, x.isFinite = false ∨ ¬ 0 < x) ∨ bitCount < (cycle a).length) ∧
    ∀ d, ofRuns? a = .ok (some d) → Encoded (cycle a) d := by
  refine ⟨exists_ofRuns? fun hlong => ?_, ?_⟩
  · rw [hlong.infinite] at h
    cases h hlong.isRun
  rw [ofRuns?, ← or_assoc, ← unusable_iff]
  split
  · next hbad => exact ⟨by simp [hbad], fun d hd => by cases hd⟩
  · next hgood =>
      obtain ⟨hne, hruns⟩ := isRun_of_usable hgood
      simp only
      split
      · next hmany => exact ⟨by simp [hmany], fun d hd => by cases hd⟩
      · next hfew =>
          have hmeasured : Measured (cycle a) := ⟨fun x hx => hruns x (mem_cycle.mp hx), h hruns⟩
          obtain ⟨ws, hws, hencoded⟩ := hmeasured.encoded (cycle_ne_nil hne)
            (Nat.le_of_not_lt hfew) (length_cycle_even a)
          rw [hws]
          refine ⟨iff_of_false (fun hnone => by cases hnone) (not_or.mpr ⟨hgood, hfew⟩),
            fun d hd => ?_⟩
          cases hd
          exact hencoded _ rfl rfl

theorem encoding_short_run :
    ((∀ x ∈ [1, 100], isRun x = true) → (total (cycle [1, 100])).isFinite = true) ∧
      (∃ o, ofRuns? [1, 100] = .ok o) ∧
      (ofRuns? [1, 100] = .ok none ↔
        ([1, 100] : List Float) = [] ∨ (∃ x ∈ ([1, 100] : List Float), x.isFinite = false ∨ ¬ 0 < x) ∨
          bitCount < (cycle [1, 100]).length) ∧
      ∀ d, ofRuns? [1, 100] = .ok (some d) → Encoded (cycle [1, 100]) d :=
  have hfinite : (∀ x ∈ [1, 100], isRun x = true) → (total (cycle [1, 100])).isFinite = true :=
    fun _ => by decide +kernel
  ⟨hfinite, encoding [1, 100] hfinite⟩

end Symbology.Dash
