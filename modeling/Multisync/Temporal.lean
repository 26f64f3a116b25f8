import Mathlib.Tactic

/-!
# Histories

A history lists what happened, the newest entry first.  `Since` says that something
happened and that something else has held from then on; `Always` says of every entry
what it says of the history at its time.
-/

namespace Temporal

variable {α : Type*} {P Q : α → Prop} {R S : α → List α → Prop} {past : List α}

/-- Some entry is one that `happened`, and every later one is one that `persists`. -/
inductive Since (persists happened : α → Prop) : List α → Prop
  | now {entry : α} {earlier : List α} (hentry : happened entry) :
      Since persists happened (entry :: earlier)
  | earlier {entry : α} {earlier : List α} (hentry : persists entry)
      (hearlier : Since persists happened earlier) :
      Since persists happened (entry :: earlier)

theorem since_cons {entry : α} :
    Since P Q (entry :: past) ↔ Q entry ∨ P entry ∧ Since P Q past := by
  constructor
  · intro hsince
    cases hsince with
    | now hentry => exact Or.inl hentry
    | earlier hentry hearlier => exact Or.inr ⟨hentry, hearlier⟩
  · rintro (hentry | ⟨hentry, hearlier⟩)
    · exact .now hentry
    · exact .earlier hentry hearlier

theorem Since.exists_append (hsince : Since P Q past) :
    ∃ later entry earlier, past = later ++ entry :: earlier ∧ Q entry ∧
      ∀ other ∈ later, P other := by
  induction hsince with
  | @now entry earlier hentry =>
      exact ⟨[], entry, earlier, rfl, hentry, fun _ hmem => absurd hmem List.not_mem_nil⟩
  | @earlier entry earlier hentry _ ih =>
      obtain ⟨later, found, rest, rfl, hfound, hlater⟩ := ih
      exact ⟨entry :: later, found, rest, rfl, hfound,
        List.forall_mem_cons.mpr ⟨hentry, hlater⟩⟩

theorem Since.exists_mem (hsince : Since P Q past) : ∃ entry ∈ past, Q entry := by
  obtain ⟨later, entry, earlier, rfl, hentry, _⟩ := hsince.exists_append
  exact ⟨entry, List.mem_append_right _ List.mem_cons_self, hentry⟩

/-- At the time of every entry the relation holds between it and what came before. -/
def Always (R : α → List α → Prop) (past : List α) : Prop :=
  ∀ entry earlier, entry :: earlier <:+ past → R entry earlier

theorem always_nil : Always R [] := by
  intro entry earlier hsuffix
  exact absurd (List.suffix_nil.mp hsuffix) (List.cons_ne_nil _ _)

theorem always_cons {entry : α} :
    Always R (entry :: past) ↔ R entry past ∧ Always R past := by
  constructor
  · intro halways
    exact ⟨halways entry past (List.suffix_refl _), fun other earlier hsuffix =>
      halways other earlier (hsuffix.trans (List.suffix_cons _ _))⟩
  · rintro ⟨hentry, halways⟩ other earlier hsuffix
    rcases List.suffix_cons_iff.mp hsuffix with heq | hrest
    · cases heq
      exact hentry
    · exact halways other earlier hrest

/-- What happened is also the other thing, where each entry stands to what came before
it as it always does. -/
theorem Since.of_always {Q' : α → Prop} (hsince : Since P Q past) (halways : Always R past)
    (himp : ∀ entry earlier, R entry earlier → Q entry → Q' entry) : Since P Q' past := by
  induction hsince with
  | now hentry => exact .now (himp _ _ (always_cons.mp halways).1 hentry)
  | earlier hentry _ ih => exact .earlier hentry (ih (always_cons.mp halways).2)

end Temporal
