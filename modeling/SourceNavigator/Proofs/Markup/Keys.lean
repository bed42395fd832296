import SourceNavigator.Markup.Document
import SourceNavigator.Proofs.Data.Entries
import SourceNavigator.Proofs.Results

set_option autoImplicit false

/-! # Keys of maps that are read

The entries of a map are put one after the other, so that a key that is met again keeps its place. So no
two entries of a map that is read have the same key (`keysDiffer_of_read`). The values that are known of a
document satisfy this at every step of reading it (`AreProper`).
-/

namespace SourceNavigator.Markup

open Data (Datum KeysDiffer)
open Text (Points)

/-! ## Scalars -/

theorem isMap_ofPoints (ps : Points) : ∀ es, Datum.ofPoints ps ≠ .map es := by
  intro es
  unfold Datum.ofPoints
  split
  · exact Datum.noConfusion
  · exact Datum.noConfusion

theorem timestampValue_ne_map {text : Points} {d : Datum} (h : timestampValue text = .ok d) :
    ∀ es, d ≠ .map es := by
  intro es
  unfold timestampValue at h
  split at h
  · cases h
  · split at h
    · cases h
    · split at h
      · cases h
        exact Datum.noConfusion
      · cases h
        exact Datum.noConfusion

/-- The value of a scalar is no map. -/
theorem scalarValue_ne_map {kind : Kind} {text : Points} {d : Datum}
    (h : scalarValue kind text = .ok d) : ∀ es, d ≠ .map es := by
  intro es
  unfold scalarValue at h
  split at h
  · cases h
    exact Datum.noConfusion
  · obtain ⟨b, -, rfl⟩ := exists_of_map_eq_ok h
    exact Datum.noConfusion
  · obtain ⟨n, -, rfl⟩ := exists_of_map_eq_ok h
    exact Datum.noConfusion
  · obtain ⟨x, -, rfl⟩ := exists_of_map_eq_ok h
    exact Datum.noConfusion
  · obtain ⟨octets, -, rfl⟩ := exists_of_map_eq_ok h
    exact Datum.noConfusion
  · exact timestampValue_ne_map h es
  · cases h
    exact isMap_ofPoints text es
  · cases h

theorem scalarOf_ne_map {g : Graph} {i : Nat} {d : Datum} (h : Building.scalarOf g i = .ok d) :
    ∀ es, d ≠ .map es := by
  unfold Building.scalarOf at h
  simp only at h
  split at h
  · cases h
  · split at h
    · cases h
    · split at h
      · cases h
      · exact scalarValue_ne_map h

/-! ## Values -/

/-- The keys of a map differ, and a scalar is no map. -/
def Value.IsProper : Value → Prop
  | .scalar d => ∀ es, d ≠ .map es
  | .map es => KeysDiffer es
  | _ => True

namespace Building

/-- Every value that is known is proper. -/
def AreProper (b : Building) : Prop := ∀ i v, b.value? i = some v → v.IsProper

variable {b b' : Building}

theorem AreProper.put (h : b.AreProper) (i : Nat) {v : Value} (hv : v.IsProper) :
    (b.put i v).AreProper := by
  intro j u hu
  unfold value? Building.put at hu
  rw [Array.getElem?_setIfInBounds] at hu
  split at hu
  · split at hu
    · cases hu
      exact hv
    · cases hu
  · exact h j u hu

theorem isProper_start {kind : Kind} {v : Value} (h : Value.start? kind = some v) : v.IsProper := by
  unfold Value.start? at h
  split at h
  · cases h
    trivial
  · cases h
    trivial
  · cases h
    trivial
  · cases h
    trivial
  · cases h
    exact List.Pairwise.nil
  · cases h

theorem AreProper.visit (h : b.AreProper) {i : Nat} (hvisit : b.visit i = .ok b') : b'.AreProper := by
  unfold Building.visit at hvisit
  split at hvisit
  · cases hvisit
    exact h
  · split at hvisit
    · rename_i v hstart
      cases hvisit
      exact h.put i (isProper_start hstart)
    · obtain ⟨d, hd, rfl⟩ := exists_of_map_eq_ok hvisit
      exact h.put i (v := .scalar d) (scalarOf_ne_map hd)

theorem AreProper.visitAll {is : List Nat} (h : b.AreProper) (hvisit : b.visitAll is = .ok b') :
    b'.AreProper := by
  induction is generalizing b with
  | nil =>
      cases hvisit
      exact h
  | cons i rest ih =>
      rw [Building.visitAll] at hvisit
      split at hvisit
      · cases hvisit
      · rename_i next hnext
        exact ih (h.visit hnext) hvisit

/-- Entries that are visited one after the other have different keys. -/
theorem AreProper.visitEntries {es : List (Nat × Nat)} {found entries : List (Datum × Nat)}
    (h : b.AreProper) (hfound : KeysDiffer found)
    (hvisit : Building.visitEntries found b es = .ok (b', entries)) :
    b'.AreProper ∧ KeysDiffer entries := by
  induction es generalizing b found with
  | nil =>
      cases hvisit
      exact ⟨h, hfound⟩
  | cons e rest ih =>
      obtain ⟨k, v⟩ := e
      rw [Building.visitEntries] at hvisit
      split at hvisit
      · cases hvisit
      · rename_i atKey hkey
        split at hvisit
        · cases hvisit
        · rename_i key hkeyValue
          split at hvisit
          · cases hvisit
          · rename_i atValue hvalue
            exact ih ((h.visit hkey).visit hvalue) (hfound.putEntry key v) hvisit

theorem AreProper.visitPairs {is : List Nat} {found pairs : List (Nat × Nat)} (h : b.AreProper)
    (hvisit : Building.visitPairs found b is = .ok (b', pairs)) : b'.AreProper := by
  induction is generalizing b found with
  | nil =>
      cases hvisit
      exact h
  | cons i rest ih =>
      rw [Building.visitPairs] at hvisit
      split at hvisit
      · split at hvisit
        · cases hvisit
        · rename_i next hnext
          exact ih (h.visitAll hnext) hvisit
      · cases hvisit

theorem AreProper.fillMap {i : Nat} {entries : List (Datum × Nat)} (h : b.AreProper)
    (hfill : b.fillMap i = .ok (b', entries)) : b'.AreProper ∧ KeysDiffer entries := by
  unfold Building.fillMap at hfill
  split at hfill
  · cases hfill
  · split at hfill
    · cases hfill
    · rename_i g hg
      -- flattening changes the graph, not the values
      have hg : AreProper { b with graph := g } := h
      exact hg.visitEntries List.Pairwise.nil hfill

theorem AreProper.fill {i : Nat} (h : b.AreProper) (hfill : b.fill i = .ok b') : b'.AreProper := by
  unfold Building.fill at hfill
  split at hfill
  · obtain ⟨next, hnext, rfl⟩ := exists_of_map_eq_ok hfill
    exact (h.visitAll hnext).put i (v := .list _) trivial
  · obtain ⟨⟨next, pairs⟩, hnext, rfl⟩ := exists_of_map_eq_ok hfill
    exact (h.visitPairs hnext).put i (v := .pairs pairs) trivial
  · obtain ⟨⟨next, pairs⟩, hnext, rfl⟩ := exists_of_map_eq_ok hfill
    exact (h.visitPairs hnext).put i (v := .pairs pairs) trivial
  · obtain ⟨⟨next, entries⟩, hnext, rfl⟩ := exists_of_map_eq_ok hfill
    exact (h.fillMap hnext).1.put i (v := .set _) trivial
  · obtain ⟨⟨next, entries⟩, hnext, rfl⟩ := exists_of_map_eq_ok hfill
    obtain ⟨hproper, hdiffer⟩ := h.fillMap hnext
    exact hproper.put i (v := .map entries) hdiffer
  · cases hfill

theorem AreProper.fillAll {is : List Nat} (h : b.AreProper) (hfill : b.fillAll is = .ok b') :
    b'.AreProper := by
  induction is generalizing b with
  | nil =>
      cases hfill
      exact h
  | cons i rest ih =>
      rw [Building.fillAll] at hfill
      split at hfill
      · cases hfill
      · rename_i next hnext
        exact ih (h.fill hnext) hfill

theorem AreProper.fillLayers {fuel : Nat} (h : b.AreProper) (hfill : b.fillLayers fuel = .ok b') :
    b'.AreProper := by
  induction fuel generalizing b with
  | zero =>
      cases hfill
      exact h
  | succ fuel ih =>
      rw [Building.fillLayers] at hfill
      split at hfill
      · cases hfill
        exact h
      · split at hfill
        · cases hfill
        · rename_i next hnext
          have hidle : AreProper { b with pending := [] } := h
          exact ih (hidle.fillAll hnext) hfill

theorem areProper_ofGraph {g : Graph} {i : Nat} (h : ofGraph g i = .ok b) : b.AreProper := by
  have hnew : AreProper ⟨g, Array.replicate g.size none, []⟩ := by
    intro j v hv
    rw [value?, Array.getElem?_replicate] at hv
    split at hv
    · cases hv
    · cases hv
  unfold ofGraph at h
  split at h
  · cases h
  · rename_i next hnext
    exact (hnew.visit hnext).fillLayers h

theorem keysDiffer_of_datum (h : b.AreProper) {depth i : Nat} {es : List (Datum × Datum)}
    (hd : b.datum depth i = .map es) : KeysDiffer es := by
  unfold datum at hd
  split at hd
  · cases hd
  · rename_i d hvalue
    exact absurd hd (h i _ hvalue es)
  · cases hd
  · split at hd
    · cases hd
    · cases hd
  · split at hd
    · cases hd
    · cases hd
  · -- the entries of a map keep their keys, or are left out where the graph is too deep
    rename_i entries hvalue
    split at hd
    · cases hd
      exact List.Pairwise.nil
    · cases hd
      exact List.pairwise_map.mpr (h i _ hvalue)

end Building

/-- **No two entries of a map that is read have the same key.** -/
theorem keysDiffer_of_read {depth : Nat} {text : List Char} {es : List (Datum × Datum)}
    (h : read depth text = .ok (.map es)) : KeysDiffer es := by
  unfold read at h
  split at h
  · cases h
  · cases h
  · obtain ⟨b, hb, hd⟩ := exists_of_map_eq_ok h
    exact Building.keysDiffer_of_datum (Building.areProper_ofGraph hb) hd

end SourceNavigator.Markup
