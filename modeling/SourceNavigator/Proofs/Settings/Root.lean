import SourceNavigator.Proofs.Data.Validation
import SourceNavigator.Proofs.Results
import SourceNavigator.Proofs.World.Plain
import SourceNavigator.Settings.Model

set_option autoImplicit false

/-! # The root of checked settings

Settings that pass their check have a root that was resolved in the world of the check
(`exists_resolve_of_check`), so it is written as an absolute path (`isAbsolute_root_of_check`)
without a NUL character (`hasNul_root_of_check`).
-/

namespace SourceNavigator

open SourceNavigator.Path (Route)

namespace Settings

open Data (Datum Validated)

theorem exists_resolve_of_rootRule {w : World} {d : Datum} {root : String}
    (h : rootRule w d = .ok (.valid root)) : ∃ r p, w.resolve r = .ok p ∧ root = p.text := by
  unfold rootRule at h
  split at h
  · cases h
  · split at h
    · cases h
    · split at h
      · rename_i hcanonical
        cases h
        unfold canonicalRoot at hcanonical
        split at hcanonical
        · cases hcanonical
        · split at hcanonical
          · cases hcanonical
            exact ⟨_, _, ‹_›, rfl⟩
          · cases hcanonical
          · cases hcanonical
          · cases hcanonical
      · cases h
      · cases h

theorem exists_resolve_of_rootField {w : World} {entries : List (Datum × Datum)} {root : String}
    (h : rootField w entries = .ok (.valid root)) : ∃ r p, w.resolve r = .ok p ∧ root = p.text := by
  unfold rootField at h
  split at h
  · rename_i d _
    cases hrule : rootRule w d with
    | error e =>
        rw [hrule] at h
        cases h
    | ok checked =>
        rw [hrule] at h
        cases checked with
        | valid root' =>
            cases h
            exact exists_resolve_of_rootRule hrule
        | invalid _ => cases h
  · cases h

/-- Valid settings have the root that they are given. -/
theorem ofRoot_eq_valid {root : Validated String} {entries : List (Datum × Datum)} {s : Settings}
    (h : ofRoot root entries = .valid s) : root = .valid s.root := by
  -- the root stands innermost in the chain of fields
  unfold ofRoot at h
  obtain ⟨_, _, h, -, hs⟩ := Validated.seq_eq_valid h
  obtain ⟨_, _, h, -, h₁⟩ := Validated.seq_eq_valid h
  obtain ⟨_, _, h, -, h₂⟩ := Validated.seq_eq_valid h
  obtain ⟨_, _, h, -, h₃⟩ := Validated.seq_eq_valid h
  obtain ⟨_, _, h, -, h₄⟩ := Validated.seq_eq_valid h
  obtain ⟨text, hroot, h₅⟩ := Validated.map_eq_valid h
  subst h₅ h₄ h₃ h₂ h₁ hs
  exact hroot

/-- **The root of checked settings is a resolved path.** -/
theorem exists_resolve_of_check {w : World} {d : Datum} {s : Settings}
    (h : check w d = .ok (.valid s)) : ∃ r p, w.resolve r = .ok p ∧ s.root = p.text := by
  cases d with
  | map entries =>
      have h : (rootField w entries).map (fun root => ofRoot root entries) = .ok (.valid s) := h
      obtain ⟨root, hfield, hvalid⟩ := exists_of_map_eq_ok h
      rw [ofRoot_eq_valid hvalid] at hfield
      exact exists_resolve_of_rootField hfield
  | _ => cases h

theorem isAbsolute_root_of_check {w : World} {d : Datum} {s : Settings}
    (h : check w d = .ok (.valid s)) : Path.isAbsolute s.root = true := by
  obtain ⟨r, p, hp, hroot⟩ := exists_resolve_of_check h
  rw [hroot]
  exact Path.isAbsolute_text_of_isAnchored (World.isAnchored_resolve hp)

theorem hasNul_root_of_check {w : World} {d : Datum} {s : Settings}
    (h : check w d = .ok (.valid s)) : World.hasNul s.root = false := by
  obtain ⟨r, p, hp, hroot⟩ := exists_resolve_of_check h
  rw [hroot, World.hasNul_text_of_resolve hp]

end Settings

end SourceNavigator
