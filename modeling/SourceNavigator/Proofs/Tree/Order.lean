import Mathlib.Tactic
import SourceNavigator.Tree

set_option autoImplicit false

/-! # The order of entries

Names are ordered by their folded text and then by the text itself, which leaves no two of them equal
(`nameBefore_trichotomy`). Entries are ordered by their kind first, directories before files
(`Entry.Before`). What a directory shows is in that order (`pairwise_shownEntries`).
-/

namespace SourceNavigator.Tree

open World (Node)

/-! ## Names -/

/-- One name is before another by its folded text, or by the text itself if these are the same. -/
def NameBefore (a b : String) : Prop :=
  sortKey a < sortKey b ∨ sortKey a = sortKey b ∧ a.toList < b.toList

theorem nameBefore_irrefl (a : String) : ¬ NameBefore a a := by
  rintro (h | ⟨-, h⟩)
  · exact List.lt_irrefl _ h
  · exact List.lt_irrefl _ h

theorem NameBefore.trans {a b c : String} (hab : NameBefore a b) (hbc : NameBefore b c) :
    NameBefore a c := by
  rcases hab with hab | ⟨hab, htext⟩
  · rcases hbc with hbc | ⟨hbc, -⟩
    · exact Or.inl (List.lt_trans hab hbc)
    · exact Or.inl (hbc ▸ hab)
  · rcases hbc with hbc | ⟨hbc, htext'⟩
    · exact Or.inl (hab ▸ hbc)
    · exact Or.inr ⟨hab.trans hbc, List.lt_trans htext htext'⟩

/-- Of two texts one is before the other, or they are the same. -/
theorem lt_trichotomy (a b : List Char) : a < b ∨ a = b ∨ b < a := by
  by_cases hab : a < b
  · exact Or.inl hab
  · by_cases hba : b < a
    · exact Or.inr (Or.inr hba)
    · exact Or.inr (Or.inl (List.le_antisymm (List.not_lt.mp hba) (List.not_lt.mp hab)))

theorem nameBefore_trichotomy (a b : String) : NameBefore a b ∨ a = b ∨ NameBefore b a := by
  rcases lt_trichotomy (sortKey a) (sortKey b) with hkey | hkey | hkey
  · exact Or.inl (Or.inl hkey)
  · rcases lt_trichotomy a.toList b.toList with htext | htext | htext
    · exact Or.inl (Or.inr ⟨hkey, htext⟩)
    · exact Or.inr (Or.inl (String.toList_inj.mp htext))
    · exact Or.inr (Or.inr (Or.inr ⟨hkey.symm, htext⟩))
  · exact Or.inr (Or.inr (Or.inl hkey))

theorem comesBefore_iff {a b : String} : comesBefore a b = true ↔ NameBefore a b ∨ a = b := by
  unfold comesBefore NameBefore
  simp only
  -- names with the same key are told apart by their characters
  by_cases hkey : sortKey a = sortKey b
  · rw [if_pos hkey, Bool.not_eq_true', decide_eq_false_iff_not, hkey]
    constructor
    · intro hnot
      rcases lt_trichotomy a.toList b.toList with h | h | h
      · exact Or.inl (Or.inr ⟨rfl, h⟩)
      · exact Or.inr (String.toList_inj.mp h)
      · exact absurd h hnot
    · rintro ((h | ⟨-, h⟩) | rfl)
      · exact absurd h (List.lt_irrefl _)
      · exact fun hgt => List.lt_irrefl _ (List.lt_trans h hgt)
      · exact List.lt_irrefl _
  · rw [if_neg hkey, decide_eq_true_iff]
    constructor
    · exact fun h => Or.inl (Or.inl h)
    · rintro ((h | ⟨h, -⟩) | rfl)
      · exact h
      · exact absurd h hkey
      · exact absurd rfl hkey

theorem comesBefore_trans {a b c : String} (hab : comesBefore a b = true)
    (hbc : comesBefore b c = true) : comesBefore a c = true := by
  rw [comesBefore_iff] at hab hbc ⊢
  rcases hab with hab | rfl
  · rcases hbc with hbc | rfl
    · exact Or.inl (hab.trans hbc)
    · exact Or.inl hab
  · exact hbc

theorem comesBefore_total (a b : String) : (comesBefore a b || comesBefore b a) = true := by
  rw [Bool.or_eq_true, comesBefore_iff, comesBefore_iff]
  rcases nameBefore_trichotomy a b with h | h | h
  · exact Or.inl (Or.inl h)
  · exact Or.inl (Or.inr h)
  · exact Or.inr (Or.inl h)

/-! ## Entries -/

/-- Directories are before files, and among each of the two names decide. -/
def Entry.Before (a b : Entry) : Prop :=
  (a.isDirectory = true ∧ b.isDirectory = false) ∨
    a.isDirectory = b.isDirectory ∧ NameBefore a.name b.name

theorem Entry.before_irrefl (a : Entry) : ¬ a.Before a := by
  rintro (⟨h, h'⟩ | ⟨-, h⟩)
  · rw [h] at h'
    cases h'
  · exact nameBefore_irrefl _ h

theorem Entry.Before.trans {a b c : Entry} (hab : a.Before b) (hbc : b.Before c) : a.Before c := by
  rcases hab with ⟨ha, hb⟩ | ⟨hab, hname⟩
  · rcases hbc with ⟨hb', -⟩ | ⟨hbc, -⟩
    · rw [hb] at hb'
      cases hb'
    · exact Or.inl ⟨ha, hbc ▸ hb⟩
  · rcases hbc with ⟨hb, hc⟩ | ⟨hbc, hname'⟩
    · exact Or.inl ⟨hab.trans hb, hc⟩
    · exact Or.inr ⟨hab.trans hbc, hname.trans hname'⟩

theorem Entry.Before.asymm {a b : Entry} (hab : a.Before b) : ¬ b.Before a :=
  fun hba => a.before_irrefl (hab.trans hba)

theorem nodup_of_pairwise {es : List Entry} (h : es.Pairwise Entry.Before) : es.Nodup := by
  refine h.imp fun {a b} hab hsame => ?_
  rw [hsame] at hab
  exact b.before_irrefl hab

/-! ## The entries of a directory -/

/-- The order that entries of one kind are sorted by. -/
def entryOrder (a b : Entry) : Bool := comesBefore a.name b.name

/-- The entries that a list of nodes shows, in the order of the list. -/
def foundEntries (ending : String) (nodes : List (String × Node)) : List Entry :=
  nodes.filterMap fun (name, node) => entryFor? ending name node

theorem shownEntries_eq (ending : String) (nodes : List (String × Node)) :
    shownEntries ending nodes
      = ((foundEntries ending nodes).filter (·.isDirectory)).mergeSort entryOrder ++
          ((foundEntries ending nodes).filter (!·.isDirectory)).mergeSort entryOrder := rfl

theorem mem_shownEntries {ending : String} {nodes : List (String × Node)} {e : Entry} :
    e ∈ shownEntries ending nodes ↔
      ∃ name node, (name, node) ∈ nodes ∧ entryFor? ending name node = some e := by
  have hfound : e ∈ shownEntries ending nodes ↔ e ∈ foundEntries ending nodes := by
    rw [shownEntries_eq, List.mem_append, List.mem_mergeSort, List.mem_mergeSort, List.mem_filter,
      List.mem_filter, ← and_or_left]
    cases e.isDirectory <;> simp
  rw [hfound, foundEntries, List.mem_filterMap]
  constructor
  · rintro ⟨⟨name, node⟩, hmem, hentry⟩
    exact ⟨name, node, hmem, hentry⟩
  · rintro ⟨name, node, hmem, hentry⟩
    exact ⟨(name, node), hmem, hentry⟩

/-- An entry has the name of its node, and is shown by it. -/
theorem entryFor?_eq_some {ending name : String} {node : Node} {e : Entry} :
    entryFor? ending name node = some e ↔
      e = ⟨name, node.isDir⟩ ∧ isExcluded name = false ∧
        (node.isDir = true ∨ hasEnding ending name = true) := by
  unfold entryFor?
  cases isExcluded name with
  | true =>
      rw [if_pos rfl]
      exact ⟨fun h => (by cases h), fun h => (by cases h.2.1)⟩
  | false =>
      rw [if_neg (by decide)]
      cases node.isDir with
      | true =>
          rw [if_pos rfl, Option.some_inj]
          exact ⟨fun h => ⟨h.symm, rfl, Or.inl rfl⟩, fun h => h.1.symm⟩
      | false =>
          rw [if_neg (by decide)]
          cases hasEnding ending name with
          | true =>
              rw [if_pos rfl, Option.some_inj]
              exact ⟨fun h => ⟨h.symm, rfl, Or.inr rfl⟩, fun h => h.1.symm⟩
          | false =>
              rw [if_neg (by decide)]
              refine ⟨fun h => (by cases h), fun h => ?_⟩
              rcases h.2.2 with hkind | hkind
              · cases hkind
              · cases hkind

theorem entryOrder_trans (a b c : Entry) (hab : entryOrder a b = true)
    (hbc : entryOrder b c = true) : entryOrder a c = true :=
  comesBefore_trans hab hbc

theorem entryOrder_total (a b : Entry) : (entryOrder a b || entryOrder b a) = true :=
  comesBefore_total a.name b.name

theorem pairwise_mergeSort (es : List Entry) :
    (es.mergeSort entryOrder).Pairwise fun a b => entryOrder a b = true :=
  List.pairwise_mergeSort entryOrder_trans entryOrder_total es

theorem foundEntries_cons (ending name : String) (node : Node) (rest : List (String × Node)) :
    foundEntries ending ((name, node) :: rest)
      = (entryFor? ending name node).toList ++ foundEntries ending rest := by
  rw [foundEntries, List.filterMap_cons]
  cases hentry : entryFor? ending name node with
  | none =>
      simp only [hentry]
      rfl
  | some e =>
      simp only [hentry]
      rfl

/-- Entries have the names of nodes, in the same order. -/
theorem names_foundEntries (ending : String) (nodes : List (String × Node)) :
    ((foundEntries ending nodes).map (·.name)).Sublist (nodes.map (·.1)) := by
  induction nodes with
  | nil => exact List.Sublist.refl _
  | cons entry rest ih =>
      obtain ⟨name, node⟩ := entry
      rw [foundEntries_cons]
      cases hentry : entryFor? ending name node with
      | none => exact ih.cons name
      | some e =>
          obtain ⟨rfl, -, -⟩ := entryFor?_eq_some.mp hentry
          exact ih.cons_cons name

/-- Entries of one kind with names of their own are strictly in order once they are sorted. -/
theorem pairwise_before {es : List Entry} (h : (es.map (·.name)).Nodup) (isDirectory : Bool)
    (hkind : ∀ e ∈ es, e.isDirectory = isDirectory) :
    (es.mergeSort entryOrder).Pairwise Entry.Before := by
  have hnodup : (es.mergeSort entryOrder).Pairwise fun a b => a.name ≠ b.name := by
    have hperm := (List.mergeSort_perm es entryOrder).map (·.name)
    exact List.pairwise_map.mp (hperm.nodup_iff.mpr h)
  refine ((pairwise_mergeSort es).and hnodup).imp_of_mem fun {a b} ha hb hab => ?_
  have hkinds : a.isDirectory = b.isDirectory :=
    (hkind a (List.mem_mergeSort.mp ha)).trans (hkind b (List.mem_mergeSort.mp hb)).symm
  rcases comesBefore_iff.mp hab.1 with hbefore | hsame
  · exact Or.inr ⟨hkinds, hbefore⟩
  · exact absurd hsame hab.2

/-- **What a directory shows is in order**, if its names are its own. -/
theorem pairwise_shownEntries {nodes : List (String × Node)} (h : (nodes.map (·.1)).Nodup)
    (ending : String) : (shownEntries ending nodes).Pairwise Entry.Before := by
  have hnodup := h.sublist (names_foundEntries ending nodes)
  have hsub (p : Entry → Bool) :
      (((foundEntries ending nodes).filter p).map (·.name)).Nodup :=
    hnodup.sublist (List.filter_sublist.map _)
  -- each kind is sorted by itself, and all directories are put before all files
  have hfile : ∀ e ∈ (foundEntries ending nodes).filter (!·.isDirectory), e.isDirectory = false := by
    intro e he
    simpa using (List.mem_filter.mp he).2
  have hdirectory : ∀ e ∈ (foundEntries ending nodes).filter (·.isDirectory), e.isDirectory = true :=
    fun e he => (List.mem_filter.mp he).2
  rw [shownEntries_eq, List.pairwise_append]
  refine ⟨pairwise_before (hsub _) true hdirectory, pairwise_before (hsub _) false hfile, ?_⟩
  intro a ha b hb
  exact Or.inl ⟨hdirectory a (List.mem_mergeSort.mp ha), hfile b (List.mem_mergeSort.mp hb)⟩

end SourceNavigator.Tree
