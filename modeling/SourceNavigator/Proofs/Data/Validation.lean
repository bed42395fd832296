import SourceNavigator.Data.Check

set_option autoImplicit false

/-! # Valid values

What a valid value was made from: a function and its argument are both valid
(`Validated.seq_eq_valid`), the value of a field is its default or satisfies its rule
(`Rule.field_induction`), and a bounded number keeps its bound. A rule is stable if it lets through what
it made once, as it stands (`Rule.IsStable`).
-/

namespace SourceNavigator.Data

namespace Validated

theorem map_eq_valid {α β : Type} {f : α → β} {v : Validated α} {b : β} (h : f <$> v = .valid b) :
    ∃ a, v = .valid a ∧ b = f a := by
  cases v with
  | valid a =>
      injection h with h
      exact ⟨a, rfl, h.symm⟩
  | invalid _ => cases h

theorem seq_eq_valid {α β : Type} {f : Validated (α → β)} {a : Validated α} {b : β}
    (h : f <*> a = .valid b) : ∃ g c, f = .valid g ∧ a = .valid c ∧ b = g c := by
  cases f with
  | valid g =>
      cases a with
      | valid c =>
          injection h with h
          exact ⟨g, c, rfl, rfl, h.symm⟩
      | invalid _ => cases h
  | invalid _ =>
      cases a with
      | valid _ => cases h
      | invalid _ => cases h

theorem map_eq_valid_iff {α β : Type} {f : α → β} {v : Validated α} {b : β} :
    f <$> v = .valid b ↔ ∃ a, v = .valid a ∧ b = f a := by
  refine ⟨map_eq_valid, ?_⟩
  rintro ⟨a, rfl, rfl⟩
  rfl

theorem seq_eq_valid_iff {α β : Type} {f : Validated (α → β)} {a : Validated α} {b : β} :
    f <*> a = .valid b ↔ ∃ g c, f = .valid g ∧ a = .valid c ∧ b = g c := by
  refine ⟨seq_eq_valid, ?_⟩
  rintro ⟨g, c, rfl, rfl, rfl⟩
  rfl

theorem under_eq_valid {α : Type} {step : Step} {v : Validated α} {a : α}
    (h : v.under step = .valid a) : v = .valid a := by
  cases v with
  | valid _ => exact h
  | invalid _ => cases h

theorem all_eq_valid_iff {α : Type} {vs : List (Validated α)} {xs : List α} :
    all vs = .valid xs ↔ vs = xs.map .valid := by
  induction vs generalizing xs with
  | nil =>
      constructor
      · intro h
        cases h
        rfl
      · intro h
        rw [List.map_eq_nil_iff.mp h.symm]
        rfl
  | cons v vs ih =>
      -- one problem anywhere makes the whole invalid
      have hstep : all (v :: vs) = .valid xs ↔
          ∃ x rest, v = .valid x ∧ all vs = .valid rest ∧ xs = x :: rest := by
        show seq (map List.cons v) (all vs) = .valid xs ↔ _
        cases v with
        | valid x =>
            cases all vs with
            | valid rest => simp [map, seq, eq_comm]
            | invalid _ => simp [map, seq]
        | invalid _ =>
            cases all vs with
            | valid _ => simp [map, seq]
            | invalid _ => simp [map, seq]
      rw [hstep]
      constructor
      · rintro ⟨x, rest, rfl, hrest, rfl⟩
        rw [ih.mp hrest, List.map_cons]
      · intro h
        cases xs with
        | nil => cases h
        | cons x rest =>
            obtain ⟨rfl, hrest⟩ := List.cons.inj h
            exact ⟨x, rest, rfl, ih.mpr hrest, rfl⟩

end Validated

namespace Rule

/-- The value of a field is what its rule makes of the datum that is given, else its default. -/
theorem field_eq_valid_iff {α : Type} {name : String} {default : Option α} {r : Rule α}
    {entries : List (Datum × Datum)} {a : α} :
    field name default r entries = .valid a ↔
      match Datum.lookup name entries with
      | some d => r d = .valid a
      | none => default = some a := by
  unfold field
  cases Datum.lookup name entries with
  | some d =>
      constructor
      · exact Validated.under_eq_valid
      · intro (h : r d = .valid a)
        show (r d).under (.field name) = .valid a
        rw [h]
        rfl
  | none =>
      cases default with
      | some b => simp
      | none => simp

/-- What holds of the default of a field and of every value that its rule lets through holds of the
value of the field. -/
theorem field_induction {α : Type} {P : α → Prop} {name : String} {default : Option α}
    {r : Rule α} {entries : List (Datum × Datum)} {a : α}
    (h : field name default r entries = .valid a) (hdefault : ∀ a, default = some a → P a)
    (hrule : ∀ d a, r d = .valid a → P a) : P a := by
  unfold field at h
  split at h
  · exact hrule _ a (Validated.under_eq_valid h)
  · split at h
    · rename_i b hb
      cases h
      exact hdefault a rfl
    · cases h

theorem thenCheck_eq_valid {α β : Type} {r : Rule α} {f : α → Validated β} {d : Datum} {b : β}
    (h : r.thenCheck f d = .valid b) : ∃ a, r d = .valid a ∧ f a = .valid b := by
  unfold thenCheck Validated.andThen at h
  split at h
  · exact ⟨_, ‹_›, h⟩
  · cases h

theorem le_of_integerFrom {bound n : Int} {d : Datum} (h : integerFrom bound d = .valid n) :
    bound ≤ n := by
  obtain ⟨m, -, hm⟩ := thenCheck_eq_valid h
  by_cases hbound : bound ≤ m
  · rw [if_pos hbound] at hm
    cases hm
    exact hbound
  · rw [if_neg hbound] at hm
    cases hm

theorem lt_of_integerAbove {bound n : Int} {d : Datum} (h : integerAbove bound d = .valid n) :
    bound < n := by
  obtain ⟨m, -, hm⟩ := thenCheck_eq_valid h
  by_cases hbound : bound < m
  · rw [if_pos hbound] at hm
    cases hm
    exact hbound
  · rw [if_neg hbound] at hm
    cases hm

/-- A field that is to be at least `bound` is, if its default is. -/
theorem le_of_field {name : String} {bound default n : Int} {entries : List (Datum × Datum)}
    (h : field name (some default) (integerFrom bound) entries = .valid n)
    (hdefault : bound ≤ default) : bound ≤ n := by
  apply field_induction (P := fun n => bound ≤ n) h
  · intro m hm
    cases hm
    exact hdefault
  · exact fun _ _ => le_of_integerFrom

/-- A field that is to be above `bound` is, if its default is. -/
theorem lt_of_field {name : String} {bound default n : Int} {entries : List (Datum × Datum)}
    (h : field name (some default) (integerAbove bound) entries = .valid n)
    (hdefault : bound < default) : bound < n := by
  apply field_induction (P := fun n => bound < n) h
  · intro m hm
    cases hm
    exact hdefault
  · exact fun _ _ => lt_of_integerAbove

/-! ## Rules that are applied again -/

/-- What the rule has made it makes again of the same value, written as a datum. -/
def IsStable {α : Type} (r : Rule α) (write : α → Datum) : Prop :=
  ∀ d a, r d = .valid a → r (write a) = .valid a

theorem isStable_text : IsStable text .text := fun _ _ _ => rfl

theorem isStable_truth : IsStable truth .bool := fun _ _ _ => rfl

theorem someText_eq_valid {d : Datum} {s : String} (h : someText d = .valid s) :
    text d = .valid s ∧ s ≠ "" := by
  have hcheck : text.thenCheck (fun s => if s.isEmpty then .complain .tooShort else .valid s) d
      = .valid s := by
    cases d with
    | illFormed _ => cases h
    | _ => exact h
  obtain ⟨t, htext, ht⟩ := thenCheck_eq_valid hcheck
  by_cases hempty : t = ""
  · subst hempty
    cases ht
  · rw [if_neg (by simpa using hempty)] at ht
    cases ht
    exact ⟨htext, hempty⟩

theorem someText_of_ne_empty {s : String} (h : s ≠ "") : someText (.text s) = .valid s :=
  if_neg (by simpa using h)

theorem isStable_someText : IsStable someText .text :=
  fun _ _ h => someText_of_ne_empty (someText_eq_valid h).2

theorem isStable_integerAbove (bound : Int) : IsStable (integerAbove bound) .int :=
  fun _ _ h => if_pos (lt_of_integerAbove h)

theorem isStable_integerFrom (bound : Int) : IsStable (integerFrom bound) .int :=
  fun _ _ h => if_pos (le_of_integerFrom h)

theorem itemsFrom_map {α : Type} {r : Rule α} {write : α → Datum} {xs : List α}
    (h : ∀ x ∈ xs, r (write x) = .valid x) (i : Nat) :
    itemsFrom r i (xs.map write) = xs.map .valid := by
  induction xs generalizing i with
  | nil => rfl
  | cons x xs ih =>
      obtain ⟨hx, hxs⟩ := List.forall_mem_cons.mp h
      rw [List.map_cons, itemsFrom, hx, ih hxs, List.map_cons]
      rfl

theorem list_map {α : Type} {r : Rule α} {write : α → Datum} {xs : List α}
    (h : ∀ x ∈ xs, r (write x) = .valid x) : list r (.list (xs.map write)) = .valid xs :=
  Validated.all_eq_valid_iff.mpr (itemsFrom_map h 0)

theorem exists_of_mem_itemsFrom {α : Type} {r : Rule α} {i : Nat} {ds : List Datum} {a : α}
    (h : .valid a ∈ itemsFrom r i ds) : ∃ d, r d = .valid a := by
  induction ds generalizing i with
  | nil => cases h
  | cons d ds ih =>
      rcases List.mem_cons.mp h with h | h
      · exact ⟨d, Validated.under_eq_valid h.symm⟩
      · exact ih h

theorem isStable_list {α : Type} {r : Rule α} {write : α → Datum} (h : IsStable r write) :
    IsStable (list r) fun xs => .list (xs.map write) := by
  have hall (items : List Datum) (xs : List α)
      (hvalid : Validated.all (itemsFrom r 0 items) = .valid xs) :
      list r (.list (xs.map write)) = .valid xs := by
    have hitems := Validated.all_eq_valid_iff.mp hvalid
    refine list_map fun x hx => ?_
    have hmem : .valid x ∈ itemsFrom r 0 items := hitems ▸ List.mem_map_of_mem hx
    obtain ⟨d, hd⟩ := exists_of_mem_itemsFrom hmem
    exact h d x hd
  intro d xs hd
  cases d with
  | list items => exact hall items xs hd
  | tuple items => exact hall items xs hd
  | set items => exact hall items xs hd
  | _ => cases hd

/-- A field has its value again if the value is given, written as a datum. -/
theorem IsStable.field {α : Type} {r : Rule α} {write : α → Datum} {default a : α} {name : String}
    {entries again : List (Datum × Datum)} (h : IsStable r write)
    (hdefault : r (write default) = .valid default)
    (hvalue : Rule.field name (some default) r entries = .valid a)
    (hlookup : Datum.lookup name again = some (write a)) :
    Rule.field name (some default) r again = .valid a := by
  rw [field_eq_valid_iff, hlookup]
  refine field_induction (P := fun a => r (write a) = .valid a) hvalue (fun b hb => ?_) h
  rw [← Option.some.inj hb]
  exact hdefault

end Rule

end SourceNavigator.Data
