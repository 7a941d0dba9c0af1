/-!
# Splitting text at the first occurrence of a mark

`splitAtFirst mark text` looks for the leftmost place where `mark` begins and returns what stands
before and after it.  Main statement: `splitAtFirst_eq_some_iff`, the two parts with the mark
between them are the text, and the mark begins nowhere earlier.
-/

namespace ContentRules.Text

/-- What follows `mark`, if the text begins with it. -/
def dropMark? : List Char → List Char → Option (List Char)
  | [], text => some text
  | _ :: _, [] => none
  | m :: mark, c :: text => if m = c then dropMark? mark text else none

/-- The parts before and after the leftmost occurrence of `mark`. -/
def splitAtFirst (mark : List Char) : List Char → Option (List Char × List Char)
  | [] => (dropMark? mark []).map ([], ·)
  | c :: text =>
    match dropMark? mark (c :: text) with
    | some after => some ([], after)
    | none => (splitAtFirst mark text).map fun (before, after) => (c :: before, after)

theorem dropMark?_eq_some_iff {mark text after : List Char} :
    dropMark? mark text = some after ↔ text = mark ++ after := by
  induction mark generalizing text with
  | nil => simp [dropMark?, eq_comm]
  | cons m mark ih =>
    cases text with
    | nil => simp [dropMark?]
    | cons c text =>
      by_cases hmc : m = c
      · simp [dropMark?, hmc, ih]
      · simp [dropMark?, hmc, Ne.symm hmc]

/-- The mark begins at no place of `before ++ rest` that lies inside `before`. -/
def NotBefore (mark before rest : List Char) : Prop :=
  ∀ early late, before = early ++ late → late ≠ [] → ∀ after, late ++ rest ≠ mark ++ after

theorem splitAtFirst_eq_some_iff {mark text before after : List Char} :
    splitAtFirst mark text = some (before, after) ↔
      text = before ++ (mark ++ after) ∧ NotBefore mark before (mark ++ after) := by
  induction text generalizing before with
  | nil =>
    simp only [splitAtFirst, Option.map_eq_some_iff, dropMark?_eq_some_iff, Prod.mk.injEq]
    constructor
    · rintro ⟨_, hmark, rfl, rfl⟩
      refine ⟨by simpa using hmark, ?_⟩
      intro early late hsplit hlate
      exact absurd (List.append_eq_nil_iff.mp hsplit.symm).2 hlate
    · rintro ⟨htext, _⟩
      obtain ⟨hbefore, hrest⟩ := List.append_eq_nil_iff.mp htext.symm
      exact ⟨after, hrest.symm, hbefore.symm, rfl⟩
  | cons c text ih =>
    cases hdrop : dropMark? mark (c :: text) with
    | some found =>
      simp only [splitAtFirst, hdrop, Option.some.injEq, Prod.mk.injEq]
      rw [dropMark?_eq_some_iff] at hdrop
      constructor
      · rintro ⟨rfl, rfl⟩
        refine ⟨by simpa using hdrop, ?_⟩
        intro early late hsplit hlate
        exact absurd (List.append_eq_nil_iff.mp hsplit.symm).2 hlate
      · rintro ⟨htext, hfirst⟩
        cases before with
        | nil =>
          refine ⟨rfl, ?_⟩
          rw [hdrop] at htext
          simpa using htext
        | cons b before =>
          exact absurd (htext.symm.trans hdrop) (hfirst [] (b :: before) rfl (by simp) found)
    | none =>
      simp only [splitAtFirst, hdrop, Option.map_eq_some_iff]
      have hnone : ∀ rest, c :: text ≠ mark ++ rest := by
        intro rest hrest
        rw [dropMark?_eq_some_iff.mpr hrest] at hdrop
        cases hdrop
      constructor
      · rintro ⟨⟨front, back⟩, hsplit, heq⟩
        obtain ⟨rfl, rfl⟩ := Prod.mk.inj heq
        obtain ⟨htext, hfirst⟩ := ih.mp hsplit
        refine ⟨by simp [htext], ?_⟩
        intro early late happend hlate rest
        cases early with
        | nil =>
          obtain rfl : late = c :: front := happend.symm
          rw [List.cons_append, ← htext]
          exact hnone rest
        | cons e early =>
          simp only [List.cons_append, List.cons.injEq] at happend
          exact hfirst early late happend.2 hlate rest
      · rintro ⟨htext, hfirst⟩
        cases before with
        | nil => exact absurd htext (hnone after)
        | cons b before =>
          simp only [List.cons_append, List.cons.injEq] at htext
          obtain ⟨rfl, htext⟩ := htext
          refine ⟨(before, after), ih.mpr ⟨htext, ?_⟩, rfl⟩
          intro early late happend hlate
          exact hfirst (c :: early) late (by simp [happend]) hlate

end ContentRules.Text
