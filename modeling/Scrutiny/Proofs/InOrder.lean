import Mathlib.Data.List.Forall2

/-!
# Results in order

Lists of results, one for each member of another list, as a computation gives them that may fail.
-/

namespace Scrutiny

variable {β γ δ : Type}

theorem mapM_range_getElem? (list : List β) (f : β → Option γ) :
  (List.range list.length).mapM (fun i => (list[i]?).bind f) = list.mapM f
  := by
  induction list with
  | nil => rfl
  | cons a rest ih =>
      rw [List.length_cons, List.range_succ_eq_map, List.mapM_cons, List.mapM_cons, List.mapM_map, ← ih]
      rfl

theorem mapM_eq_some_iff {list : List β} {f : β → Option γ} {results : List γ} :
  list.mapM f = some results ↔ List.Forall₂ (fun b c => f b = some c) list results
  := by
  induction list generalizing results with
  | nil =>
      rw [List.forall₂_nil_left_iff, List.mapM_nil]
      exact ⟨fun h => (Option.some.inj h).symm, fun h => congrArg some h.symm⟩
  | cons b rest ih =>
      rw [List.mapM_cons]
      constructor
      · intro h
        obtain ⟨c, hc, h⟩ := Option.bind_eq_some_iff.mp h
        obtain ⟨others, hothers, h⟩ := Option.bind_eq_some_iff.mp h
        obtain rfl := Option.some.inj h
        exact .cons hc (ih.mp hothers)
      · intro h
        obtain ⟨c, others, hc, hothers, rfl⟩ := List.forall₂_cons_left_iff.mp h
        rw [hc, ih.mpr hothers]
        rfl

theorem forall₂_filterMap {R : β → γ → Prop} {S : β → δ → Prop} {f : γ → Option δ}
    {list : List β} {results : List γ} (hf : ∀ b c, R b c → ∃ d, f c = some d ∧ S b d)
    (h : List.Forall₂ R list results) :
  List.Forall₂ S list (results.filterMap f)
  := by
  induction h with
  | nil => exact .nil
  | cons hbc _ ih =>
      obtain ⟨d, hd, hbd⟩ := hf _ _ hbc
      rw [List.filterMap_cons_some hd]
      exact .cons hbd ih

theorem exists_of_mapM_eq_none {list : List β} {f : β → Option γ} (h : list.mapM f = none) :
  ∃ b ∈ list, f b = none
  := by
  induction list with
  | nil => cases h
  | cons b rest ih =>
      rw [List.mapM_cons] at h
      cases hb : f b with
      | none => exact ⟨b, List.mem_cons_self, hb⟩
      | some c =>
          rw [hb] at h
          cases hrest : rest.mapM f with
          | none =>
              obtain ⟨b', hmem, hb'⟩ := ih hrest
              exact ⟨b', List.mem_cons_of_mem b hmem, hb'⟩
          | some others =>
              rw [hrest] at h
              cases h

theorem exists_of_mem_left {R : β → γ → Prop} {list : List β} {results : List γ}
    (h : List.Forall₂ R list results) {b : β} (hb : b ∈ list) :
  ∃ c ∈ results, R b c
  := by
  induction h with
  | nil => cases hb
  | cons hbc _ ih =>
      rcases List.mem_cons.mp hb with rfl | hb
      · exact ⟨_, List.mem_cons_self, hbc⟩
      · obtain ⟨c, hc, hbc⟩ := ih hb
        exact ⟨c, List.mem_cons_of_mem _ hc, hbc⟩

theorem exists_of_mem_right {R : β → γ → Prop} {list : List β} {results : List γ}
    (h : List.Forall₂ R list results) {c : γ} (hc : c ∈ results) :
  ∃ b ∈ list, R b c
  := by
  obtain ⟨b, hb, hbc⟩ := exists_of_mem_left h.flip hc
  exact ⟨b, hb, hbc⟩

theorem exists_getElem?_of_forall₂ {R : β → γ → Prop} {list : List β} {results : List γ}
    (h : List.Forall₂ R list results) {i : Nat} {b : β} (hb : list[i]? = some b) :
  ∃ c, results[i]? = some c ∧ R b c
  := by
  induction h generalizing i with
  | nil => cases hb
  | @cons _ c _ _ hbc _ ih =>
      cases i with
      | zero =>
          obtain rfl := Option.some.inj hb
          exact ⟨c, rfl, hbc⟩
      | succ i => apply ih hb

theorem forall₂_of_mem_right {R S : β → γ → Prop} {list : List β} {results : List γ}
    (h : List.Forall₂ R list results) (himp : ∀ b, ∀ c ∈ results, R b c → S b c) :
  List.Forall₂ S list results
  := by
  induction h with
  | nil => exact .nil
  | cons hbc _ ih =>
      apply List.Forall₂.cons (himp _ _ List.mem_cons_self hbc)
      apply ih
      intro b c hc
      apply himp b c (List.mem_cons_of_mem _ hc)

theorem forall₂_trans {R : β → γ → Prop} {S : γ → δ → Prop} {list : List β} {middle : List γ}
    {results : List δ} (h : List.Forall₂ R list middle) (h' : List.Forall₂ S middle results) :
  List.Forall₂ (fun b d => ∃ c, R b c ∧ S c d) list results
  := by
  induction h generalizing results with
  | nil =>
      cases h'
      exact .nil
  | cons hbc _ ih =>
      obtain ⟨d, others, hcd, hothers, rfl⟩ := List.forall₂_cons_left_iff.mp h'
      exact .cons ⟨_, hbc, hcd⟩ (ih hothers)

end Scrutiny
