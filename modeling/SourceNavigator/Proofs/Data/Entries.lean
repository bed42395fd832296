import Mathlib.Tactic
import SourceNavigator.Data.Datum

set_option autoImplicit false

/-! # Entries by name

A text is the same key as itself alone, whatever other keys a map has (`sameKey_text_iff`). So putting an
entry changes what is looked up under its key, if that is a name, and nothing else (`lookup_putEntry`).
Entries that are put one after the other have different keys (`KeysDiffer.putEntry`). Entries with
different keys, laid over others, count before these (`lookup_foldl_putEntry`).
-/

namespace SourceNavigator.Data

/-- Whether a key is a name. -/
def isNamed (name : String) : Datum → Bool
  | .text s => s == name
  | _ => false

theorem isNamed_iff {name : String} {key : Datum} : isNamed name key = true ↔ key = .text name := by
  constructor
  · intro h
    cases key with
    | text s => exact congrArg Datum.text (beq_iff_eq.mp h)
    | _ => cases h
  · rintro rfl
    exact beq_self_eq_true name

theorem lookup_cons (name : String) (key value : Datum) (rest : List (Datum × Datum)) :
    Datum.lookup name ((key, value) :: rest)
      = if isNamed name key then some value else Datum.lookup name rest := by
  cases key with
  | text s =>
      rw [Datum.lookup, isNamed]
      by_cases hs : s = name
      · rw [if_pos hs, if_pos (beq_iff_eq.mpr hs)]
      · rw [if_neg hs, if_neg (fun h => hs (beq_iff_eq.mp h))]
  | _ => rfl

/-- A name is the same key as itself alone. -/
theorem sameKey_text_left {name : String} {key : Datum} :
    Datum.sameKey (.text name) key = true ↔ .text name = key := by
  cases key with
  | float x =>
      -- a number that is whole is a key of another sort
      unfold Datum.sameKey
      cases (Datum.float x).toWhole? with
      | some n => simp [Datum.toWhole?]
      | none => simp [Datum.toWhole?, Datum.sameOther]
  | _ => simp [Datum.sameKey, Datum.toWhole?, Datum.sameOther]

theorem sameKey_text_right {name : String} {key : Datum} :
    Datum.sameKey key (.text name) = true ↔ key = .text name := by
  cases key with
  | float x =>
      unfold Datum.sameKey
      cases (Datum.float x).toWhole? with
      | some n => simp [Datum.toWhole?]
      | none => simp [Datum.toWhole?, Datum.sameOther]
  | _ => simp [Datum.sameKey, Datum.toWhole?, Datum.sameOther]

/-- The same keys have the same name. -/
theorem isNamed_eq_of_sameKey {a b : Datum} (h : Datum.sameKey a b = true) (name : String) :
    isNamed name a = isNamed name b := by
  rw [Bool.eq_iff_iff, isNamed_iff, isNamed_iff]
  constructor
  · rintro rfl
    exact (sameKey_text_left.mp h).symm
  · rintro rfl
    exact sameKey_text_right.mp h

/-- Putting an entry changes what is found under its key alone. -/
theorem lookup_putEntry (name : String) (key value : Datum) (entries : List (Datum × Datum)) :
    Datum.lookup name (Datum.putEntry key value entries)
      = if isNamed name key then some value else Datum.lookup name entries := by
  induction entries with
  | nil => rw [Datum.putEntry, lookup_cons]
  | cons entry rest ih =>
      obtain ⟨held, old⟩ := entry
      by_cases hsame : Datum.sameKey held key = true
      · rw [Datum.putEntry, if_pos hsame, lookup_cons, lookup_cons, isNamed_eq_of_sameKey hsame]
        split
        · rfl
        · rfl
      · rw [Datum.putEntry, if_neg hsame, lookup_cons, lookup_cons, ih]
        -- the two keys cannot both be the name
        by_cases hheld : isNamed name held = true
        · have hother : isNamed name key = false := by
            rw [← Bool.not_eq_true]
            intro hkey
            obtain rfl := isNamed_iff.mp hkey
            exact hsame (sameKey_text_right.mpr (isNamed_iff.mp hheld))
          rw [hheld, hother]
          rfl
        · rw [if_neg hheld, if_neg hheld]

/-- An entry is looked up under its name. -/
theorem lookup_putEntry_self (name : String) (value : Datum) (entries : List (Datum × Datum)) :
    Datum.lookup name (Datum.putEntry (.text name) value entries) = some value := by
  rw [lookup_putEntry, if_pos (isNamed_iff.mpr rfl)]

/-! ## Different keys -/

/-- No two entries have the same key. -/
def KeysDiffer {α : Type} (entries : List (Datum × α)) : Prop :=
  entries.Pairwise fun e e' => Datum.sameKey e.1 e'.1 = false

/-- The key of an entry that is there after another one was put is that of the other one, or was there
before. -/
theorem key_of_mem_putEntry {α : Type} {key : Datum} {value : α} {entries : List (Datum × α)}
    {e : Datum × α} (h : e ∈ Datum.putEntry key value entries) :
    e.1 = key ∨ ∃ e' ∈ entries, e.1 = e'.1 := by
  induction entries with
  | nil => exact Or.inl (congrArg Prod.fst (List.mem_singleton.mp h))
  | cons entry rest ih =>
      obtain ⟨held, old⟩ := entry
      rw [Datum.putEntry] at h
      split at h
      · rcases List.mem_cons.mp h with rfl | h
        · exact Or.inr ⟨_, List.mem_cons_self, rfl⟩
        · exact Or.inr ⟨e, List.mem_cons_of_mem _ h, rfl⟩
      · rcases List.mem_cons.mp h with rfl | h
        · exact Or.inr ⟨_, List.mem_cons_self, rfl⟩
        · rcases ih h with h | ⟨e', he', h⟩
          · exact Or.inl h
          · exact Or.inr ⟨e', List.mem_cons_of_mem _ he', h⟩

theorem KeysDiffer.putEntry {α : Type} {entries : List (Datum × α)} (h : KeysDiffer entries)
    (key : Datum) (value : α) : KeysDiffer (Datum.putEntry key value entries) := by
  induction entries with
  | nil => exact List.pairwise_singleton _ _
  | cons entry rest ih =>
      obtain ⟨held, old⟩ := entry
      obtain ⟨hheld, hrest⟩ := List.pairwise_cons.mp h
      rw [Datum.putEntry]
      split
      · exact List.pairwise_cons.mpr ⟨hheld, hrest⟩
      · rename_i hother
        refine List.pairwise_cons.mpr ⟨fun e he => ?_, ih hrest⟩
        rcases key_of_mem_putEntry he with hkey | ⟨e', he', hkey⟩
        · rw [hkey]
          exact Bool.not_eq_true _ ▸ hother
        · rw [hkey]
          exact hheld e' he'

/-- A name that is no key is not found. -/
theorem lookup_eq_none {name : String} {entries : List (Datum × Datum)}
    (h : ∀ e ∈ entries, isNamed name e.1 = false) : Datum.lookup name entries = none := by
  induction entries with
  | nil => rfl
  | cons entry rest ih =>
      obtain ⟨hentry, hrest⟩ := List.forall_mem_cons.mp h
      rw [lookup_cons, hentry, if_neg Bool.false_ne_true, ih hrest]

/-- A name is not found behind an entry that has it as its key. -/
theorem KeysDiffer.lookup_eq_none {entry : Datum × Datum} {rest : List (Datum × Datum)}
    (h : KeysDiffer (entry :: rest)) {name : String} (hname : isNamed name entry.1 = true) :
    Datum.lookup name rest = none := by
  refine Data.lookup_eq_none fun e he => ?_
  have hdiffers := (List.pairwise_cons.mp h).1 e he
  rw [← Bool.not_eq_true]
  intro hnamed
  rw [isNamed_iff.mp hname, isNamed_iff.mp hnamed, sameKey_text_left.mpr rfl] at hdiffers
  cases hdiffers

/-- Entries with different keys that are laid over others count before these. -/
theorem lookup_foldl_putEntry (name : String) {upper : List (Datum × Datum)} (h : KeysDiffer upper)
    (lower : List (Datum × Datum)) :
    Datum.lookup name (upper.foldl (fun acc e => Datum.putEntry e.1 e.2 acc) lower)
      = (Datum.lookup name upper).or (Datum.lookup name lower) := by
  induction upper generalizing lower with
  | nil => rfl
  | cons entry rest ih =>
      rw [List.foldl_cons, ih (List.pairwise_cons.mp h).2, lookup_putEntry, lookup_cons]
      by_cases hnamed : isNamed name entry.1 = true
      · rw [h.lookup_eq_none hnamed, if_pos hnamed, if_pos hnamed]
        rfl
      · rw [if_neg hnamed, if_neg hnamed]

end SourceNavigator.Data
