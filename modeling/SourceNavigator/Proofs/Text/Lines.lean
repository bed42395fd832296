import Mathlib.Tactic
import SourceNavigator.Text.Lines

set_option autoImplicit false

/-! # Lines of a text

A text without carriage returns is not changed by `unify` (`unify_of_not_mem`), and `splitLines`
takes the text before its first line boundary as the first line (`splitLines_append`).
-/

namespace SourceNavigator.Text

theorem unify_cons_of_ne {c : Char} (h : c ≠ '\r') (cs : List Char) :
    unify (c :: cs) = c :: unify cs := by
  rw [unify]
  · exact fun _ hc _ => h hc
  · exact h

theorem unify_of_not_mem {cs : List Char} (h : '\r' ∉ cs) : unify cs = cs := by
  induction cs with
  | nil => rfl
  | cons c cs ih =>
      rw [List.mem_cons, not_or] at h
      rw [unify_cons_of_ne (Ne.symm h.1), ih h.2]

theorem splitLinesFrom_cons {c : Char} (h : c ≠ '\r') (line cs : List Char) :
    splitLinesFrom line (c :: cs)
      = if isLineBreak c then line.reverse :: splitLinesFrom [] cs
        else splitLinesFrom (c :: line) cs := by
  rw [splitLinesFrom]
  exact fun _ hc _ => h hc

theorem isLineBreak_return : isLineBreak '\r' = true := by decide

theorem splitLinesFrom_append {piece : List Char} (hpiece : ∀ c ∈ piece, isLineBreak c = false)
    {c : Char} (hbreak : isLineBreak c = true) (hc : c ≠ '\r') (line rest : List Char) :
    splitLinesFrom line (piece ++ c :: rest)
      = (line.reverse ++ piece) :: splitLinesFrom [] rest := by
  induction piece generalizing line with
  | nil => rw [List.nil_append, splitLinesFrom_cons hc, if_pos hbreak, List.append_nil]
  | cons d piece ih =>
      have hd := hpiece d List.mem_cons_self
      have hreturn : d ≠ '\r' := by
        rintro rfl
        rw [isLineBreak_return] at hd
        cases hd
      rw [List.cons_append, splitLinesFrom_cons hreturn, if_neg (by rw [hd]; decide),
        ih (fun e he => hpiece e (List.mem_cons_of_mem _ he)), List.reverse_cons, List.append_assoc,
        List.singleton_append]

theorem splitLines_append {piece : List Char} (hpiece : ∀ c ∈ piece, isLineBreak c = false)
    {c : Char} (hbreak : isLineBreak c = true) (hc : c ≠ '\r') (rest : List Char) :
    splitLines (piece ++ c :: rest) = piece :: splitLines rest :=
  splitLinesFrom_append hpiece hbreak hc [] rest

end SourceNavigator.Text
