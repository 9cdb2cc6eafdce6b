import Mathlib
import Symbology.Color

namespace Symbology

namespace Text

def lowerDigits : List Char :=
  ['0', '1', '2', '3', '4', '5', '6', '7', '8', '9', 'a', 'b', 'c', 'd', 'e', 'f']

def upperDigits : List Char :=
  ['0', '1', '2', '3', '4', '5', '6', '7', '8', '9', 'A', 'B', 'C', 'D', 'E', 'F']

def IsDigit (c : Char) (n : Nat) : Prop :=
  lowerDigits[n]? = some c ∨ upperDigits[n]? = some c

instance (c : Char) (n : Nat) : Decidable (IsDigit c n) :=
  inferInstanceAs (Decidable (_ ∨ _))

variable {c : Char} {n : Nat}

theorem IsDigit.lt (h : IsDigit c n) : n < 16 := by
  rcases h with h | h
  · exact (List.getElem?_eq_some_iff.mp h).1
  · exact (List.getElem?_eq_some_iff.mp h).1

theorem toNat_lt_of_hexValue? (h : hexValue? c = some n) : c.toNat < 128 := by
  have hle {high : Char} (hc : c ≤ high) (hhigh : high.toNat < 128) : c.toNat < 128 :=
    Nat.lt_of_le_of_lt (UInt32.le_iff_toNat_le.mp (Char.le_def.mp hc)) hhigh
  unfold hexValue? at h
  split at h
  · next hrange => exact hle hrange.2 (by decide)
  · split at h
    · next hrange => exact hle hrange.2 (by decide)
    · split at h
      · next hrange => exact hle hrange.2 (by decide)
      · cases h

theorem hexValue?_eq_some_iff : hexValue? c = some n ↔ IsDigit c n := by
  constructor
  · intro h
    have hascii : ∀ k < 128, ∀ m ∈ hexValue? (Char.ofNat k), IsDigit (Char.ofNat k) m := by decide
    have hdigit := hascii c.toNat (toNat_lt_of_hexValue? h) n
    rw [Char.ofNat_toNat] at hdigit
    exact hdigit h
  · intro h
    have hn := h.lt
    rcases h with h | h
    · interval_cases n <;> cases h <;> rfl
    · interval_cases n <;> cases h <;> rfl

theorem not_isDigit_plus (n : Nat) : ¬ IsDigit '+' n := by
  rw [← hexValue?_eq_some_iff]
  rintro ⟨⟩

end Text

namespace Color

open Text (hexValue? IsDigit hexValue?_eq_some_iff not_isDigit_plus)

/-- A byte in two characters. A single digit may have a plus sign in front. -/
inductive IsByte : Char → Char → Nat → Prop where
  | digits {c d : Char} {m n : Nat} (hc : IsDigit c m) (hd : IsDigit d n) :
      IsByte c d (16 * m + n)
  | signed {d : Char} {n : Nat} (hd : IsDigit d n) : IsByte '+' d n

variable {c d : Char} {m n : Nat}

theorem byte?_eq_some_iff : byte? c d = some n ↔ IsByte c d n := by
  rw [byte?]
  constructor
  · intro h
    split at h
    · next hplus =>
        subst hplus
        exact .signed (hexValue?_eq_some_iff.mp h)
    · simp only [Option.bind_eq_bind, Option.bind_eq_some_iff, Option.some.injEq] at h
      obtain ⟨m, hm, k, hk, rfl⟩ := h
      exact .digits (hexValue?_eq_some_iff.mp hm) (hexValue?_eq_some_iff.mp hk)
  · intro h
    cases h with
    | @digits _ _ m n hc hd =>
        have hplus : c ≠ '+' := by
          rintro rfl
          exact not_isDigit_plus _ hc
        rw [if_neg hplus, hexValue?_eq_some_iff.mpr hc, hexValue?_eq_some_iff.mpr hd]
        rfl
    | signed hd => exact hexValue?_eq_some_iff.mpr hd

theorem isByte_double : IsByte c c n ↔ ∃ m, IsDigit c m ∧ n = 17 * m := by
  constructor
  · intro h
    cases h with
    | @digits _ _ m k hc hd =>
        have hsame : m = k := Option.some.inj
          ((hexValue?_eq_some_iff.mpr hc).symm.trans (hexValue?_eq_some_iff.mpr hd))
        exact ⟨m, hc, by omega⟩
    | signed hd => exact absurd hd (not_isDigit_plus _)
  · rintro ⟨m, hm, rfl⟩
    rw [show 17 * m = 16 * m + m by omega]
    exact .digits hm hm

inductive Denotes : List Char → Nat → Nat → Nat → Nat → Prop where
  | short {c d e : Char} {r g b : Nat} (hr : IsDigit c r) (hg : IsDigit d g) (hb : IsDigit e b) :
      Denotes ['#', c, d, e] (17 * r) (17 * g) (17 * b) 255
  | long {c c' d d' e e' : Char} {r g b : Nat} (hr : IsByte c c' r) (hg : IsByte d d' g)
      (hb : IsByte e e' b) : Denotes ['#', c, c', d, d', e, e'] r g b 255
  | full {c c' d d' e e' f f' : Char} {r g b a : Nat} (hr : IsByte c c' r) (hg : IsByte d d' g)
      (hb : IsByte e e' b) (ha : IsByte f f' a) : Denotes ['#', c, c', d, d', e, e', f, f'] r g b a

variable {r g b a : Nat} {opacity : Float} {color : Color}

theorem denotes_of_bytes? {ds : List Char} (h : bytes? ds = some (r, g, b, a)) :
    Denotes ('#' :: ds) r g b a := by
  unfold bytes? at h
  split at h
  · simp only [Option.bind_eq_bind, Option.bind_eq_some_iff, Option.some.injEq, Prod.mk.injEq,
      byte?_eq_some_iff, isByte_double] at h
    obtain ⟨_, ⟨r, hr, rfl⟩, _, ⟨g, hg, rfl⟩, _, ⟨b, hb, rfl⟩, rfl, rfl, rfl, rfl⟩ := h
    exact .short hr hg hb
  · simp only [Option.bind_eq_bind, Option.bind_eq_some_iff, Option.some.injEq, Prod.mk.injEq,
      byte?_eq_some_iff] at h
    obtain ⟨r, hr, g, hg, b, hb, rfl, rfl, rfl, rfl⟩ := h
    exact .long hr hg hb
  · simp only [Option.bind_eq_bind, Option.bind_eq_some_iff, Option.some.injEq, Prod.mk.injEq,
      byte?_eq_some_iff] at h
    obtain ⟨r, hr, g, hg, b, hb, a, ha, rfl, rfl, rfl, rfl⟩ := h
    exact .full hr hg hb ha
  · cases h

theorem bytes?_of_denotes {ds : List Char} (h : Denotes ('#' :: ds) r g b a) :
    bytes? ds = some (r, g, b, a) := by
  cases h with
  | short hr hg hb =>
      have hdouble {c : Char} {n : Nat} (hc : IsDigit c n) : byte? c c = some (17 * n) :=
        byte?_eq_some_iff.mpr (isByte_double.mpr ⟨n, hc, rfl⟩)
      rw [bytes?, hdouble hr, hdouble hg, hdouble hb]
      rfl
  | long hr hg hb =>
      rw [bytes?, byte?_eq_some_iff.mpr hr, byte?_eq_some_iff.mpr hg, byte?_eq_some_iff.mpr hb]
      rfl
  | full hr hg hb ha =>
      rw [bytes?, byte?_eq_some_iff.mpr hr, byte?_eq_some_iff.mpr hg, byte?_eq_some_iff.mpr hb,
        byte?_eq_some_iff.mpr ha]
      rfl

theorem Denotes.sign {cs : List Char} (h : Denotes cs r g b a) : ∃ ds, cs = '#' :: ds := by
  cases h <;> exact ⟨_, rfl⟩

theorem ofHex?_eq_some_iff {hex : String} : ofHex? hex opacity = some color ↔
    ∃ r g b a, Denotes hex.toList r g b a ∧ color = withOpacity r g b a opacity := by
  rw [ofHex?]
  constructor
  · intro h
    split at h
    · next ds hds =>
        simp only [Option.map_eq_some_iff] at h
        obtain ⟨⟨r, g, b, a⟩, hbytes, rfl⟩ := h
        exact ⟨r, g, b, a, hds ▸ denotes_of_bytes? hbytes, rfl⟩
    · cases h
  · rintro ⟨r, g, b, a, hdenotes, rfl⟩
    obtain ⟨ds, hds⟩ := hdenotes.sign
    rw [hds] at hdenotes ⊢
    simp only [bytes?_of_denotes hdenotes, Option.map_some]

theorem ofHex_eq_ok_iff {hex : String} : ofHex hex opacity = .ok color ↔
    ∃ r g b a, Denotes hex.toList r g b a ∧ color = withOpacity r g b a opacity := by
  rw [← ofHex?_eq_some_iff, ofHex]
  split
  · next read hread => simp [hread]
  · next hread => simp [hread]

theorem ofHex_eq_error_iff {hex : String} {e : StyleError} : ofHex hex opacity = .error e ↔
    e = .invalidColor hex ∧ ¬ ∃ r g b a, Denotes hex.toList r g b a := by
  have hnone : ofHex? hex opacity = none ↔ ¬ ∃ r g b a, Denotes hex.toList r g b a := by
    rw [Option.eq_none_iff_forall_ne_some]
    simp only [ne_eq, ofHex?_eq_some_iff]
    exact ⟨fun h ⟨r, g, b, a, hd⟩ => h _ ⟨r, g, b, a, hd, rfl⟩,
      fun h _ ⟨r, g, b, a, hd, _⟩ => h ⟨r, g, b, a, hd⟩⟩
  rw [← hnone, ofHex]
  split
  · next read hread => simp [hread]
  · next hread => simp [hread, eq_comm]

theorem denotes_doubled {c d e : Char} :
    Denotes ['#', c, c, d, d, e, e] r g b a ↔ Denotes ['#', c, d, e] r g b a := by
  constructor
  · rintro (_ | ⟨hr, hg, hb⟩ | _)
    obtain ⟨_, hc, rfl⟩ := isByte_double.mp hr
    obtain ⟨_, hd, rfl⟩ := isByte_double.mp hg
    obtain ⟨_, he, rfl⟩ := isByte_double.mp hb
    exact .short hc hd he
  · rintro (⟨hr, hg, hb⟩ | _ | _)
    exact .long (isByte_double.mpr ⟨_, hr, rfl⟩) (isByte_double.mpr ⟨_, hg, rfl⟩)
      (isByte_double.mpr ⟨_, hb, rfl⟩)

theorem isByte_ff : IsByte 'f' 'f' n ↔ n = 255 := by
  rw [← byte?_eq_some_iff, eq_comm, show byte? 'f' 'f' = some 255 from rfl, Option.some.injEq]

theorem denotes_opaque {c c' d d' e e' : Char} :
    Denotes ['#', c, c', d, d', e, e', 'f', 'f'] r g b a ↔
      Denotes ['#', c, c', d, d', e, e'] r g b a := by
  constructor
  · rintro (_ | _ | ⟨hr, hg, hb, ha⟩)
    obtain rfl := isByte_ff.mp ha
    exact .long hr hg hb
  · rintro (_ | ⟨hr, hg, hb⟩ | _)
    exact .full hr hg hb (isByte_ff.mpr rfl)

def Hexadecimal (cs : List Char) : Prop :=
  ∃ ds, cs = '#' :: ds ∧ (ds.length = 3 ∨ ds.length = 6 ∨ ds.length = 8) ∧
    ∀ d ∈ ds, ∃ n, IsDigit d n

theorem isByte_of_ne_plus (h : c ≠ '+') (hbyte : IsByte c d n) :
    (∃ n, IsDigit c n) ∧ ∃ n, IsDigit d n := by
  cases hbyte with
  | digits hc hd => exact ⟨⟨_, hc⟩, _, hd⟩
  | signed => exact absurd rfl h

theorem Denotes.hexadecimal {cs : List Char} (h : Denotes cs r g b a) (hplus : '+' ∉ cs) :
    Hexadecimal cs := by
  have hne {c : Char} (hc : c ∈ cs) : c ≠ '+' := fun heq => hplus (heq ▸ hc)
  cases h with
  | short hr hg hb => exact ⟨_, rfl, by simp, by simpa using ⟨⟨_, hr⟩, ⟨_, hg⟩, _, hb⟩⟩
  | long hr hg hb =>
      have hr := isByte_of_ne_plus (hne (by simp)) hr
      have hg := isByte_of_ne_plus (hne (by simp)) hg
      have hb := isByte_of_ne_plus (hne (by simp)) hb
      exact ⟨_, rfl, by simp, by simpa using ⟨hr.1, hr.2, hg.1, hg.2, hb⟩⟩
  | full hr hg hb ha =>
      have hr := isByte_of_ne_plus (hne (by simp)) hr
      have hg := isByte_of_ne_plus (hne (by simp)) hg
      have hb := isByte_of_ne_plus (hne (by simp)) hb
      have ha := isByte_of_ne_plus (hne (by simp)) ha
      exact ⟨_, rfl, by simp, by simpa using ⟨hr.1, hr.2, hg.1, hg.2, hb.1, hb.2, ha⟩⟩

theorem Hexadecimal.denotes {cs : List Char} (h : Hexadecimal cs) :
    ∃ r g b a, Denotes cs r g b a := by
  obtain ⟨ds, rfl, hlength, hdigits⟩ := h
  have hbyte {c d : Char} (hc : c ∈ ds) (hd : d ∈ ds) : ∃ n, IsByte c d n := by
    obtain ⟨m, hm⟩ := hdigits c hc
    obtain ⟨n, hn⟩ := hdigits d hd
    exact ⟨_, .digits hm hn⟩
  rcases hlength with hthree | hsix | height
  · obtain ⟨c, d, e, rfl⟩ := List.length_eq_three.mp hthree
    obtain ⟨r, hr⟩ := hdigits c (by simp)
    obtain ⟨g, hg⟩ := hdigits d (by simp)
    obtain ⟨b, hb⟩ := hdigits e (by simp)
    exact ⟨_, _, _, _, .short hr hg hb⟩
  · match ds with
    | [c, c', d, d', e, e'] =>
        obtain ⟨r, hr⟩ := hbyte (c := c) (d := c') (by simp) (by simp)
        obtain ⟨g, hg⟩ := hbyte (c := d) (d := d') (by simp) (by simp)
        obtain ⟨b, hb⟩ := hbyte (c := e) (d := e') (by simp) (by simp)
        exact ⟨r, g, b, 255, .long hr hg hb⟩
  · match ds with
    | [c, c', d, d', e, e', f, f'] =>
        obtain ⟨r, hr⟩ := hbyte (c := c) (d := c') (by simp) (by simp)
        obtain ⟨g, hg⟩ := hbyte (c := d) (d := d') (by simp) (by simp)
        obtain ⟨b, hb⟩ := hbyte (c := e) (d := e') (by simp) (by simp)
        obtain ⟨a, ha⟩ := hbyte (c := f) (d := f') (by simp) (by simp)
        exact ⟨r, g, b, a, .full hr hg hb ha⟩

theorem Hexadecimal.plusless {cs : List Char} (h : Hexadecimal cs) : '+' ∉ cs := by
  obtain ⟨ds, rfl, -, hdigits⟩ := h
  intro hplus
  rcases List.mem_cons.mp hplus with hsign | hplus
  · cases hsign
  · obtain ⟨n, hn⟩ := hdigits '+' hplus
    exact not_isDigit_plus n hn

theorem hexadecimal_iff {cs : List Char} :
    Hexadecimal cs ↔ '+' ∉ cs ∧ ∃ r g b a, Denotes cs r g b a :=
  ⟨fun h => ⟨h.plusless, h.denotes⟩, fun ⟨hplus, _, _, _, _, h⟩ => h.hexadecimal hplus⟩

theorem ofHex_by_notation (opacity : Float) :
    (∀ hex color, ofHex hex opacity = .ok color ↔
      ∃ r g b a, Denotes hex.toList r g b a ∧
        color =
          { red := Float.ofNat r / 255
            green := Float.ofNat g / 255
            blue := Float.ofNat b / 255
            alpha := if a = 255 then clampOpacity opacity
              else Float.ofNat a / 255 * clampOpacity opacity }) ∧
    (∀ hex e, ofHex hex opacity = .error e ↔
      e = .invalidColor hex ∧ ¬ ∃ r g b a, Denotes hex.toList r g b a) ∧
    (∀ cs, Hexadecimal cs ↔ '+' ∉ cs ∧ ∃ r g b a, Denotes cs r g b a) ∧
    (∀ c d e color,
      ofHex (String.ofList ['#', c, d, e]) opacity = .ok color ↔
        ofHex (String.ofList ['#', c, c, d, d, e, e]) opacity = .ok color) ∧
    ∀ c c' d d' e e' color,
      ofHex (String.ofList ['#', c, c', d, d', e, e']) opacity = .ok color ↔
        ofHex (String.ofList ['#', c, c', d, d', e, e', 'f', 'f']) opacity = .ok color := by
  refine ⟨fun hex color => ofHex_eq_ok_iff, fun hex e => ofHex_eq_error_iff,
    fun cs => hexadecimal_iff, fun c d e color => ?_, fun c c' d d' e e' color => ?_⟩
  · simp only [ofHex_eq_ok_iff, String.toList_ofList, denotes_doubled]
  · simp only [ofHex_eq_ok_iff, String.toList_ofList, denotes_opaque]

theorem signed_digits_accepted :
    ¬ ∀ (hex : String) (opacity : Float),
      (∃ color, ofHex hex opacity = .ok color) ↔ Hexadecimal hex.toList := by
  intro h
  have hf : IsByte '+' 'f' 15 := .signed (by decide)
  have hread : ∃ color, ofHex "#+f+f+f" 1 = .ok color :=
    ⟨_, ofHex_eq_ok_iff.mpr ⟨15, 15, 15, 255, .long hf hf hf, rfl⟩⟩
  exact ((h "#+f+f+f" 1).mp hread).plusless (by decide)

end Color
end Symbology
