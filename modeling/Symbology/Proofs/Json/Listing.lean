import Symbology.Proofs.Json.Canonical

namespace Symbology.Json

variable {σ τ : Type} {key : Reader String} {member : σ → String → Reader σ}
  {member' : τ → String → Reader τ} {φ : σ → τ} {P : σ → Prop}

/-- Wherever the first reader comes to a state with the property, the second one comes to its image
over the same text, and the state before had the property too. -/
def Follows (φ : σ → τ) (P : σ → Prop) (member : σ → String → Reader σ)
    (member' : τ → String → Reader τ) : Prop :=
  ∀ s k cs t rest, member s k cs = .ok (t, rest) → P t →
    P s ∧ member' (φ s) k cs = .ok (φ t, rest)

theorem members_of_follows (h : Follows φ P member member') (n : Nat) {s t : σ}
    {cs rest : List Char} (hread : members key member n s cs = .ok (t, rest)) (ht : P t) :
    P s ∧ members key member' n (φ s) cs = .ok (φ t, rest) := by
  induction n generalizing s cs with
  | zero => cases hread
  | succ n ih =>
      unfold members at hread ⊢
      split at hread
      · cases hread
      · split at hread
        · next hquote =>
            simp only [bind_eq_ok] at hread
            obtain ⟨⟨k, cs₁⟩, hkey, ⟨u, cs₂⟩, hmember, hread⟩ := hread
            rw [if_pos hquote, hkey, ok_bind]
            dsimp only at hmember hread ⊢
            split at hread
            · cases hread
            · next c cs₃ hspace =>
                split at hread
                · next hend =>
                    cases hread
                    obtain ⟨hs, hfollow⟩ := h _ _ _ _ _ hmember ht
                    refine ⟨hs, ?_⟩
                    simp only [hfollow, ok_bind, hspace, if_pos hend]
                · next hend =>
                    split at hread
                    · next hcomma =>
                        obtain ⟨hu, hrest⟩ := ih hread
                        obtain ⟨hs, hfollow⟩ := h _ _ _ _ _ hmember hu
                        refine ⟨hs, ?_⟩
                        simp only [hfollow, ok_bind, hspace, if_neg hend, if_pos hcomma, hrest]
                    · cases hread
        · cases hread

theorem objectBody_of_follows (h : Follows φ P member member') {s t : σ} {cs rest : List Char}
    (hread : objectBody key member s cs = .ok (t, rest)) (ht : P t) :
    objectBody key member' (φ s) cs = .ok (φ t, rest) := by
  unfold objectBody at hread ⊢
  split at hread
  · cases hread
    rfl
  · exact (members_of_follows h _ hread ht).2

def listMember (value : Reader Json) (ms : List (String × Json)) (key : String) :
    Reader (List (String × Json)) := fun cs => do
  let (_, cs) ← colon cs
  let (v, cs) ← value cs
  .ok (ms ++ [(key, v)], cs)

def listing (value : Reader Json) : Reader (List (String × Json)) := fun cs =>
  match skipSpace cs with
  | '{' :: cs => objectBody stringBody (listMember value) [] cs
  | cs => wrongType cs

theorem listMember_eq_ok {value : Reader Json} {ms ns : List (String × Json)} {k : String}
    {cs rest : List Char} :
    listMember value ms k cs = .ok (ns, rest) ↔
      ∃ cs₁, colon cs = .ok ((), cs₁) ∧
        ∃ v, value cs₁ = .ok (v, rest) ∧ ns = ms ++ [(k, v)] := by
  simp only [listMember, bind_eq_ok]
  constructor
  · rintro ⟨⟨_, cs₁⟩, hcolon, ⟨v, cs₂⟩, hv, h⟩
    cases h
    exact ⟨cs₁, hcolon, v, hv, rfl⟩
  · rintro ⟨cs₁, hcolon, v, hv, rfl⟩
    exact ⟨((), cs₁), hcolon, (v, rest), hv, rfl⟩

theorem listing_eq_ok {value : Reader Json} {cs rest : List Char} {ms : List (String × Json)}
    (h : listing value cs = .ok (ms, rest)) :
    ∃ cs', skipSpace cs = '{' :: cs' ∧
      objectBody stringBody (listMember value) [] cs' = .ok (ms, rest) := by
  unfold listing at h
  split at h
  · next cs' hspace => exact ⟨cs', hspace, h⟩
  · exact absurd h wrongType_ne_ok

end Symbology.Json
