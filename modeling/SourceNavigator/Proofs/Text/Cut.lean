import Mathlib.Tactic
import SourceNavigator.Text.Lines

set_option autoImplicit false

/-! # Cutting and gluing

`cut sep` and `glue [sep]` undo each other on pieces without `sep`. Paths are cut at slashes and
source files at newlines, so the lemmas on pieces are stated for any separator.
-/

namespace SourceNavigator.Text

variable {α : Type} [DecidableEq α]

/-! ## Cutting -/

theorem cut_ne_nil (sep : α) (cs : List α) : cut sep cs ≠ [] := by
  cases cs with
  | nil => simp [cut]
  | cons c cs =>
      simp only [cut]
      split
      · simp
      · split <;> simp

theorem cut_sep_cons (sep : α) (cs : List α) : cut sep (sep :: cs) = [] :: cut sep cs := by
  rw [cut, if_pos rfl]

theorem cut_cons_of_ne {sep c : α} (h : c ≠ sep) (cs : List α) :
    ∃ piece pieces, cut sep cs = piece :: pieces ∧
      cut sep (c :: cs) = (c :: piece) :: pieces := by
  cases hcs : cut sep cs with
  | nil => exact absurd hcs (cut_ne_nil sep cs)
  | cons piece pieces => exact ⟨piece, pieces, rfl, by rw [cut, if_neg h, hcs]⟩

example : cut '/' ['a', '/', '/', 'b', '/'] = [['a'], [], ['b'], []] := by cbv

/-- A separator between two texts separates their pieces. -/
theorem cut_append_sep (sep : α) (a b : List α) :
    cut sep (a ++ sep :: b) = cut sep a ++ cut sep b := by
  induction a with
  | nil => simp [cut]
  | cons c a ih =>
      by_cases h : c = sep
      · subst h
        rw [List.cons_append, cut_sep_cons, ih, cut_sep_cons, List.cons_append]
      · obtain ⟨piece, pieces, ha, hca⟩ := cut_cons_of_ne h a
        obtain ⟨piece', pieces', hb, hcb⟩ := cut_cons_of_ne h (a ++ sep :: b)
        rw [ih, ha, List.cons_append] at hb
        obtain ⟨rfl, rfl⟩ := List.cons.inj hb
        rw [List.cons_append, hcb, hca, List.cons_append]

theorem cut_of_not_mem {sep : α} {cs : List α} (h : sep ∉ cs) : cut sep cs = [cs] := by
  induction cs with
  | nil => rfl
  | cons c cs ih =>
      rw [List.mem_cons, not_or] at h
      rw [cut, if_neg (Ne.symm h.1), ih h.2]

theorem not_mem_of_mem_cut {sep : α} {cs piece : List α} (h : piece ∈ cut sep cs) :
    sep ∉ piece := by
  induction cs generalizing piece with
  | nil =>
      have : piece = [] := by simpa [cut] using h
      simp [this]
  | cons c cs ih =>
      by_cases hc : c = sep
      · rw [hc, cut_sep_cons, List.mem_cons] at h
        rcases h with rfl | h
        · simp
        · exact ih h
      · obtain ⟨first, pieces, hcs, hccs⟩ := cut_cons_of_ne hc cs
        rw [hccs, List.mem_cons] at h
        rw [hcs] at ih
        rcases h with rfl | h
        · rw [List.mem_cons, not_or]
          exact ⟨Ne.symm hc, ih List.mem_cons_self⟩
        · exact ih (List.mem_cons_of_mem _ h)

theorem mem_of_mem_cut {sep c : α} {cs piece : List α} (h : piece ∈ cut sep cs) (hc : c ∈ piece) :
    c ∈ cs := by
  induction cs generalizing piece with
  | nil =>
      obtain rfl : piece = [] := by simpa [cut] using h
      exact hc
  | cons d cs ih =>
      by_cases hd : d = sep
      · rw [hd, cut_sep_cons, List.mem_cons] at h
        rcases h with rfl | h
        · exact absurd hc List.not_mem_nil
        · exact List.mem_cons_of_mem d (ih h hc)
      · obtain ⟨first, pieces, hcs, hdcs⟩ := cut_cons_of_ne hd cs
        rw [hdcs, List.mem_cons] at h
        rw [hcs] at ih
        rcases h with rfl | h
        · rcases List.mem_cons.mp hc with rfl | hc
          · exact List.mem_cons_self
          · exact List.mem_cons_of_mem d (ih List.mem_cons_self hc)
        · exact List.mem_cons_of_mem d (ih (List.mem_cons_of_mem _ h) hc)

/-- What stands before the first separator is taken off, until there is none. -/
@[elab_as_elim]
theorem cut_induction (sep : α) {P : List α → Prop} (last : ∀ piece, sep ∉ piece → P piece)
    (more : ∀ piece rest, sep ∉ piece → P rest → P (piece ++ sep :: rest)) (cs : List α) : P cs := by
  induction hlength : cs.length using Nat.strong_induction_on generalizing cs with
  | _ n ih =>
      by_cases hmem : sep ∈ cs
      · obtain ⟨piece, rest, rfl, hpiece⟩ := List.eq_append_cons_of_mem hmem
        rw [List.length_append, List.length_cons] at hlength
        exact more piece rest hpiece (ih rest.length (by omega) rest rfl)
      · exact last cs hmem

/-! ## Gluing -/

theorem mem_glue {sep : List Char} {pieces : List (List Char)} {piece : List Char}
    (h : piece ∈ pieces) {c : Char} (hc : c ∈ piece) : c ∈ glue sep pieces := by
  induction pieces with
  | nil => exact absurd h List.not_mem_nil
  | cons first rest ih =>
      cases rest with
      | nil =>
          obtain rfl := List.mem_singleton.mp h
          exact hc
      | cons next others =>
          show c ∈ first ++ sep ++ glue sep (next :: others)
          rcases List.mem_cons.mp h with rfl | h
          · exact List.mem_append_left _ (List.mem_append_left _ hc)
          · exact List.mem_append_right _ (ih h)

theorem mem_of_mem_glue {sep : List Char} {pieces : List (List Char)} {c : Char}
    (h : c ∈ glue sep pieces) : c ∈ sep ∨ ∃ piece ∈ pieces, c ∈ piece := by
  induction pieces with
  | nil => exact absurd h List.not_mem_nil
  | cons piece rest ih =>
      cases rest with
      | nil => exact Or.inr ⟨piece, List.mem_cons_self, h⟩
      | cons next others =>
          have h : c ∈ piece ++ sep ++ glue sep (next :: others) := h
          rcases List.mem_append.mp h with h | h
          · rcases List.mem_append.mp h with h | h
            · exact Or.inr ⟨piece, List.mem_cons_self, h⟩
            · exact Or.inl h
          · rcases ih h with h | ⟨p, hp, h⟩
            · exact Or.inl h
            · exact Or.inr ⟨p, List.mem_cons_of_mem _ hp, h⟩

/-- What is glued together by a character is cut apart again, if no piece holds it. -/
theorem cut_glue {sep : Char} {pieces : List (List Char)} (hne : pieces ≠ [])
    (h : ∀ piece ∈ pieces, sep ∉ piece) : cut sep (glue [sep] pieces) = pieces := by
  induction pieces with
  | nil => exact absurd rfl hne
  | cons piece rest ih =>
      obtain ⟨hpiece, hrest⟩ := List.forall_mem_cons.mp h
      cases rest with
      | nil => exact cut_of_not_mem hpiece
      | cons next others =>
          show cut sep (piece ++ [sep] ++ glue [sep] (next :: others)) = _
          rw [List.append_assoc, List.singleton_append, cut_append_sep, cut_of_not_mem hpiece,
            ih (List.cons_ne_nil _ _) hrest, List.singleton_append]

/-- Lines that are put into one text are found in it again. -/
theorem cutString_glueStrings_newline {texts : List String} (hne : texts ≠ [])
    (h : ∀ text ∈ texts, '\n' ∉ text.toList) : cutString '\n' (glueStrings "\n" texts) = texts := by
  have hglue : (glueStrings "\n" texts).toList = glue ['\n'] (texts.map String.toList) :=
    String.toList_ofList
  have hpieces : texts.map String.toList ≠ [] := by simpa using hne
  have hlines : ∀ piece ∈ texts.map String.toList, '\n' ∉ piece := by
    intro piece hpiece
    obtain ⟨text, htext, rfl⟩ := List.mem_map.mp hpiece
    exact h text htext
  calc cutString '\n' (glueStrings "\n" texts)
      = (texts.map String.toList).map String.ofList := by
        rw [cutString, hglue, cut_glue hpieces hlines]
    _ = texts.map id := by
        rw [List.map_map]
        exact List.map_congr_left fun text _ => String.ofList_toList
    _ = texts := List.map_id _

end SourceNavigator.Text
