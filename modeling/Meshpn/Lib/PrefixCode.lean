import Mathlib.Data.List.Infix

/-!
Codes no word of which begins another. A text that begins with words of such a
code begins with them in one way only.
-/

namespace Meshpn.Lib

variable {α β : Type}

/-- The valid values have words, and none of them begins the word of another one. -/
structure PrefixCode (valid : β → Prop) (code : β → List α) : Prop where
  nonempty : ∀ u, valid u → code u ≠ []
  unique : ∀ u v, valid u → valid v → code u <+: code v → u = v

namespace PrefixCode

variable {valid : β → Prop} {code : β → List α}

theorem eq_of_append (h : PrefixCode valid code) {u v : β} (hu : valid u) (hv : valid v)
    {x y : List α} (heq : code u ++ x = code v ++ y) : u = v ∧ x = y := by
  have hsame : u = v := by
    have hleft : code u <+: code v ++ y := ⟨x, heq⟩
    rcases List.prefix_or_prefix_of_prefix hleft (List.prefix_append _ _) with huv | hvu
    · exact h.unique u v hu hv huv
    · exact (h.unique v u hv hu hvu).symm
  subst hsame
  exact ⟨rfl, List.append_cancel_left heq⟩

theorem compare (h : PrefixCode valid code) {us vs : List β} (hus : ∀ u ∈ us, valid u)
    (hvs : ∀ v ∈ vs, valid v) {x y : List α}
    (heq : us.flatMap code ++ x = vs.flatMap code ++ y) : us <+: vs ∨ vs <+: us := by
  induction us generalizing vs with
  | nil => exact Or.inl List.nil_prefix
  | cons u us ih =>
    rcases vs with _ | ⟨v, vs⟩
    · exact Or.inr List.nil_prefix
    simp only [List.flatMap_cons, List.append_assoc] at heq
    obtain ⟨rfl, hrest⟩ :=
      h.eq_of_append (hus u List.mem_cons_self) (hvs v List.mem_cons_self) heq
    rcases ih (fun w hw => hus w (List.mem_cons_of_mem _ hw))
      (fun w hw => hvs w (List.mem_cons_of_mem _ hw)) hrest with hless | hmore
    · exact Or.inl (List.cons_prefix_cons.mpr ⟨rfl, hless⟩)
    · exact Or.inr (List.cons_prefix_cons.mpr ⟨rfl, hmore⟩)

theorem begins_of_flatMap (h : PrefixCode valid code) {us vs : List β} (hus : ∀ u ∈ us, valid u)
    (hvs : ∀ v ∈ vs, valid v) (hbegins : us.flatMap code <+: vs.flatMap code) : us <+: vs := by
  obtain ⟨x, hx⟩ := hbegins
  rcases h.compare hus hvs (hx.trans (List.append_nil _).symm) with hless | ⟨ws, rfl⟩
  · exact hless
  rcases ws with _ | ⟨w, ws⟩
  · rw [List.append_nil]
  -- a further word would make the text longer than it is
  have hlength := congrArg List.length hx
  simp only [List.flatMap_append, List.flatMap_cons, List.length_append] at hlength
  have hword : (code w).length ≠ 0 := fun hzero =>
    h.nonempty w (hus w (by simp)) (List.length_eq_zero_iff.mp hzero)
  omega

end PrefixCode

end Meshpn.Lib
