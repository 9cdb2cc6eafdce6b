import Mathlib
import Symbology.Template

namespace Symbology.Template

variable {c : Char} {cs before after : List Char}

structure Clear (c : Char) (cs : List Char) : Prop where
  pairless : ¬ [c, c] <:+: cs
  last : cs.getLast? ≠ some c

theorem clear_nil : Clear c [] where
  pairless := by simp
  last := by simp

theorem pair_infix_cons {a : Char} :
    [c, c] <:+: a :: cs ↔ (a = c ∧ cs.head? = some c) ∨ [c, c] <:+: cs := by
  rw [List.infix_cons_iff]
  cases cs with
  | nil => simp
  | cons b cs => simp [List.cons_prefix_cons, eq_comm]

theorem clear_cons {a : Char} :
    Clear c (a :: cs) ↔ (a = c → cs ≠ [] ∧ cs.head? ≠ some c) ∧ Clear c cs := by
  constructor
  · rintro ⟨hpair, hlast⟩
    rw [pair_infix_cons] at hpair
    refine ⟨fun ha => ⟨?_, fun hhead => hpair (.inl ⟨ha, hhead⟩)⟩, fun h => hpair (.inr h), ?_⟩
    · rintro rfl
      exact hlast (by simp [ha])
    · cases cs with
      | nil => simp
      | cons b cs => simpa [List.getLast?_cons] using hlast
  · rintro ⟨hstart, hpair, hlast⟩
    refine ⟨?_, ?_⟩
    · rw [pair_infix_cons]
      rintro (⟨ha, hhead⟩ | h)
      · exact (hstart ha).2 hhead
      · exact hpair h
    · cases cs with
      | nil =>
          intro ha
          exact (hstart (by simpa using ha)).1 rfl
      | cons b cs => simpa [List.getLast?_cons] using hlast

theorem Clear.append (h : Clear c cs) : ¬ [c, c] <:+: cs ++ [c] := by
  induction cs with
  | nil => simp [pair_infix_cons]
  | cons a cs ih =>
      obtain ⟨hstart, hcs⟩ := clear_cons.mp h
      rw [List.cons_append, pair_infix_cons]
      rintro (⟨ha, hhead⟩ | hpair)
      · obtain ⟨hne, hc⟩ := hstart ha
        rw [List.head?_append_of_ne_nil _ hne] at hhead
        exact hc hhead
      · exact ih hcs hpair

theorem clear_of_splitPair? (h : splitPair? c cs = some (before, after)) : Clear c before := by
  induction cs generalizing before with
  | nil => simp [splitPair?] at h
  | cons a cs ih =>
      cases cs with
      | nil => simp [splitPair?] at h
      | cons b cs =>
          unfold splitPair? at h
          split at h
          · cases h
            exact clear_nil
          · next hab =>
              simp only [Option.map_eq_some_iff, Prod.mk.injEq] at h
              obtain ⟨⟨rest, tail⟩, hrest, rfl, rfl⟩ := h
              have hsplit := eq_of_splitPair? hrest
              refine clear_cons.mpr ⟨fun ha => ?_, ih hrest⟩
              have hb : b ≠ c := fun hb => hab ⟨ha, hb⟩
              cases rest with
              | nil =>
                  simp only [List.nil_append, List.cons.injEq] at hsplit
                  exact absurd hsplit.1 hb
              | cons d rest =>
                  simp only [List.cons_append, List.cons.injEq] at hsplit
                  simp [← hsplit.1, hb]

theorem splitPair?_append (h : Clear c before) (after : List Char) :
    splitPair? c (before ++ c :: c :: after) = some (before, after) := by
  induction before with
  | nil => simp [splitPair?]
  | cons a before ih =>
      obtain ⟨hstart, hbefore⟩ := clear_cons.mp h
      cases before with
      | nil =>
          have ha : a ≠ c := fun ha => (hstart ha).1 rfl
          simp [splitPair?, ha]
      | cons b before =>
          have hab : ¬ (a = c ∧ b = c) := by
            rintro ⟨ha, rfl⟩
            exact (hstart ha).2 rfl
          have hrest := ih hbefore
          simp only [List.cons_append] at hrest ⊢
          simp [splitPair?, hab, hrest]

theorem splitPair?_eq_some_iff :
    splitPair? c cs = some (before, after) ↔ Clear c before ∧ cs = before ++ c :: c :: after := by
  constructor
  · intro h
    exact ⟨clear_of_splitPair? h, eq_of_splitPair? h⟩
  · rintro ⟨hclear, rfl⟩
    exact splitPair?_append hclear after

theorem splitPair?_eq_none_iff : splitPair? c cs = none ↔ ¬ [c, c] <:+: cs := by
  induction cs with
  | nil => simp [splitPair?]
  | cons a cs ih =>
      cases cs with
      | nil => simp [splitPair?, pair_infix_cons]
      | cons b cs =>
          rw [pair_infix_cons]
          by_cases hab : a = c ∧ b = c
          · simp [splitPair?, hab]
          · simp [splitPair?, hab, ih]

def Tokenless (cs : List Char) : Prop :=
  ∀ between, ¬ '{' :: '{' :: between ++ ['}', '}'] <:+: cs

def Part.chars (p : Part) : List Char :=
  p.literal ++ '{' :: '{' :: p.name ++ ['}', '}']

def chars (t : Template) : List Char :=
  t.parts.flatMap Part.chars ++ t.rest

structure Proper (t : Template) : Prop where
  literals : ∀ p ∈ t.parts, Clear '{' p.literal
  names : ∀ p ∈ t.parts, Clear '}' p.name
  rest : Tokenless t.rest

theorem tokenless_of_open_none (h : splitPair? '{' cs = none) : Tokenless cs := by
  intro between hinfix
  have hpair : ['{', '{'] <:+: '{' :: '{' :: between ++ ['}', '}'] :=
    (List.prefix_append ['{', '{'] (between ++ ['}', '}'])).isInfix
  exact splitPair?_eq_none_iff.mp h (hpair.trans hinfix)

theorem tokenless_of_close_none {literal tail : List Char}
    (hopen : splitPair? '{' cs = some (literal, tail)) (hclose : splitPair? '}' tail = none) :
    Tokenless cs := by
  rintro between ⟨before, after, hcs⟩
  obtain ⟨hclear, hsplit⟩ := splitPair?_eq_some_iff.mp hopen
  have hpair : before ++ ['{', '{'] <+: cs :=
    ⟨between ++ '}' :: '}' :: after, by simp [← hcs]⟩
  have hliteral : literal ++ ['{'] <+: cs := ⟨'{' :: tail, by simp [hsplit]⟩
  have hlater : between ++ '}' :: '}' :: after <:+ cs :=
    ⟨before ++ ['{', '{'], by simp [← hcs]⟩
  have htail : tail <:+ cs := ⟨literal ++ ['{', '{'], by simp [hsplit]⟩
  -- the first opening is the one after the literal, so what follows another one follows it too
  have hfirst : literal.length ≤ before.length := by
    by_contra hlt
    have hinside := List.prefix_of_prefix_length_le hpair hliteral (by simp; omega)
    exact hclear.append (((List.suffix_append before _).isInfix).trans hinside.isInfix)
  have hlength : (between ++ '}' :: '}' :: after).length ≤ tail.length := by
    have hsame := congrArg List.length (hcs.trans hsplit)
    simp only [List.length_append, List.length_cons, List.length_nil] at hsame ⊢
    omega
  have hclosing : ['}', '}'] <:+: between ++ '}' :: '}' :: after := ⟨between, after, by simp⟩
  have hinside := List.suffix_of_suffix_length_le hlater htail hlength
  exact splitPair?_eq_none_iff.mp hclose (hclosing.trans hinside.isInfix)

theorem parse_of_tokenless (h : Tokenless cs) : parse cs = { parts := [], rest := cs } := by
  rw [parse]
  split
  · rfl
  · next literal tail hopen =>
      split
      · rfl
      · next name rest hclose =>
          refine absurd ?_ (h name)
          rw [eq_of_splitPair? hopen, eq_of_splitPair? hclose]
          exact ⟨literal, rest, by simp⟩

theorem parse_of_token {literal tail name rest : List Char}
    (hopen : splitPair? '{' cs = some (literal, tail))
    (hclose : splitPair? '}' tail = some (name, rest)) :
    parse cs = { parse rest with parts := { literal, name } :: (parse rest).parts } := by
  rw [parse]
  split
  · next h =>
      rw [hopen] at h
      cases h
  · next h =>
      rw [hopen] at h
      cases h
      split
      · next h =>
          rw [hclose] at h
          cases h
      · next h =>
          rw [hclose] at h
          cases h
          rfl

theorem chars_parse (cs : List Char) : (parse cs).chars = cs := by
  induction cs using parse.induct with
  | case1 cs hopen => rw [parse_of_tokenless (tokenless_of_open_none hopen)]; rfl
  | case2 cs literal tail hopen hclose =>
      rw [parse_of_tokenless (tokenless_of_close_none hopen hclose)]; rfl
  | case3 cs literal tail hopen name rest hclose ih =>
      rw [parse_of_token hopen hclose, eq_of_splitPair? hopen, eq_of_splitPair? hclose]
      simp only [chars] at ih
      simp [chars, Part.chars, ih]

theorem proper_parse (cs : List Char) : (parse cs).Proper := by
  induction cs using parse.induct with
  | case1 cs hopen =>
      have h := tokenless_of_open_none hopen
      rw [parse_of_tokenless h]
      exact ⟨by simp, by simp, h⟩
  | case2 cs literal tail hopen hclose =>
      have h := tokenless_of_close_none hopen hclose
      rw [parse_of_tokenless h]
      exact ⟨by simp, by simp, h⟩
  | case3 cs literal tail hopen name rest hclose ih =>
      rw [parse_of_token hopen hclose]
      obtain ⟨hliterals, hnames, hrest⟩ := ih
      refine ⟨?_, ?_, hrest⟩
      · simpa using ⟨clear_of_splitPair? hopen, hliterals⟩
      · simpa using ⟨clear_of_splitPair? hclose, hnames⟩

theorem parse_chars {t : Template} (h : t.Proper) : parse t.chars = t := by
  obtain ⟨parts, rest⟩ := t
  induction parts with
  | nil => exact parse_of_tokenless h.rest
  | cons p parts ih =>
      have hparts : Proper { parts, rest } :=
        ⟨fun q hq => h.literals q (List.mem_cons_of_mem p hq),
          fun q hq => h.names q (List.mem_cons_of_mem p hq), h.rest⟩
      have hchars : chars { parts := p :: parts, rest } =
          p.literal ++ '{' :: '{' :: (p.name ++ '}' :: '}' :: chars { parts, rest }) := by
        simp [chars, Part.chars]
      have hopen := splitPair?_append (h.literals p List.mem_cons_self)
        (p.name ++ '}' :: '}' :: chars { parts, rest })
      have hclose := splitPair?_append (h.names p List.mem_cons_self) (chars { parts, rest })
      rw [hchars, parse_of_token hopen hclose, ih hparts]

/-- Of three braces the last one that opens belongs to the name, and the last one that closes to
the text. -/
example : parse ['{', '{', '{', 'x', '}', '}', '}'] =
    { parts := [{ literal := [], name := ['{', 'x'] }], rest := ['}'] } := by
  cbv

structure Trimmed (cs core : List Char) : Prop where
  around : ∃ before after, cs = before ++ core ++ after ∧
    ∀ c ∈ before ++ after, Text.isBlank c = true
  first : ∀ c ∈ core.head?, Text.isBlank c = false
  last : ∀ c ∈ core.getLast?, Text.isBlank c = false

theorem trimmed_trim (cs : List Char) : Trimmed cs (Text.trim cs) := by
  let tail := cs.dropWhile Text.isBlank
  have htrim : Text.trim cs = tail.rdropWhile Text.isBlank := rfl
  have hleft : cs.takeWhile Text.isBlank ++ tail = cs := List.takeWhile_append_dropWhile
  have hright : Text.trim cs ++ tail.rtakeWhile Text.isBlank = tail :=
    List.rdropWhile_append_rtakeWhile
  refine ⟨⟨cs.takeWhile Text.isBlank, tail.rtakeWhile Text.isBlank, ?_, ?_⟩, ?_, ?_⟩
  · rw [List.append_assoc, hright, hleft]
  · intro c hc
    rcases List.mem_append.mp hc with h | h
    · exact List.mem_takeWhile_imp h
    · exact List.mem_rtakeWhile_imp h
  · intro c hc
    have hhead : tail.head? = some c := by rw [← hright, List.head?_append, hc, Option.some_or]
    have hblank := List.head?_dropWhile_not Text.isBlank cs
    rw [show cs.dropWhile Text.isBlank = tail from rfl, hhead] at hblank
    simpa using hblank
  · intro c hc
    have hblank := List.head?_dropWhile_not Text.isBlank tail.reverse
    rw [htrim, List.rdropWhile, List.getLast?_reverse] at hc
    rw [hc] at hblank
    simpa using hblank

def Part.shown (p : Part) (ps : Properties) : List Char :=
  match ps.lookup p.attributeName with
  | none => []
  | some .null => []
  | some (.str s) => s.toList
  | some v => v.chars

theorem valueText_value (p : Part) (ps : Properties) :
    valueText (ps.value p.attributeName) = p.shown ps := by
  rw [Part.shown, Properties.value]
  cases ps.lookup p.attributeName with
  | none => rfl
  | some v => cases v <;> rfl

structure Split (text : String) (t : Template) : Prop where
  chars : t.chars = text.toList
  proper : t.Proper

structure Rendered (text : String) (t : Template) : Prop where
  split : ∀ u, Split text u ↔ u = t
  names : ∀ p ∈ t.parts, Trimmed p.name p.attributeName.toList
  output : ∀ ps, render text ps =
    String.ofList (t.parts.flatMap (fun p => p.literal ++ p.shown ps) ++ t.rest)

theorem render_by_split (text : String) : ∃ t, Rendered text t := by
  refine ⟨parse text.toList, fun u => ⟨?_, ?_⟩, fun p _ => ?_, fun ps => ?_⟩
  · rintro ⟨hchars, hproper⟩
    rw [← hchars, parse_chars hproper]
  · rintro rfl
    exact ⟨chars_parse _, proper_parse _⟩
  · rw [Part.attributeName, String.toList_ofList]
    exact trimmed_trim p.name
  · simp only [render, fill, valueText_value]

end Symbology.Template
