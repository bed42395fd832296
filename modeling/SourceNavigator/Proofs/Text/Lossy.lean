import SourceNavigator.Proofs.Text.Utf8

set_option autoImplicit false

/-! # Decoding any octets

Octets that are no encoded text are shown all the same: where no character stands, the longest start of
the encoding of one that is found there is shown as one U+FFFD, or a single octet if there is none
(`IsDefect`, `Shows`). Every octet string is shown as one text in this way, and `decode` gives it
(`decode_eq_iff`); the strict reader accepts exactly the encodings (`decodeStrict?_eq_ok_iff`).

The machine that reads octets keeps what it has read of a character in a `Partial`. The states that it
reaches (`After`) are those from which a character can be completed (`After.complete`), and the octets
that it accepts next are those that go on with the encoding of one (`After.inRange_iff`).
-/

namespace SourceNavigator.Text.Utf8

/-! ## Characters and defects -/

/-- Octets that the encoding of some character starts with. -/
def IsStart (run : List UInt8) : Prop := ∃ c, run <+: String.utf8EncodeChar c

theorem IsStart.of_isPrefix {a b : List UInt8} (hb : IsStart b) (h : a <+: b) : IsStart a := by
  obtain ⟨c, hc⟩ := hb
  exact ⟨c, h.trans hc⟩

/-- The octets `run` before `rest` are one defect: no character stands there, and they are the longest
start of the encoding of one, or a single octet. -/
structure IsDefect (run rest : List UInt8) : Prop where
  noChar : ∀ c, ¬ String.utf8EncodeChar c <+: run ++ rest
  isRun : run.length = 1 ∨ run ≠ [] ∧ IsStart run
  longest : ∀ longer, longer <+: run ++ rest → run.length < longer.length → ¬ IsStart longer

/-- Octets are shown as a text: encoded characters as themselves, and every defect as one U+FFFD. -/
inductive Shows : List UInt8 → List Char → Prop where
  | nil : Shows [] []
  | char {bs : List UInt8} {cs : List Char} (c : Char) (h : Shows bs cs) :
      Shows (String.utf8EncodeChar c ++ bs) (c :: cs)
  | defect {run bs : List UInt8} {cs : List Char} (hrun : IsDefect run bs) (h : Shows bs cs) :
      Shows (run ++ bs) (replacement :: cs)

theorem IsDefect.ne_nil {run rest : List UInt8} (h : IsDefect run rest) : run ≠ [] := by
  rcases h.isRun with hone | ⟨hne, -⟩
  · rintro rfl
    cases hone
  · exact hne

theorem utf8EncodeChar_ne_nil (c : Char) : String.utf8EncodeChar c ≠ [] := by
  rcases encodeChar_cases c with ⟨-, hc⟩ | ⟨-, -, hc⟩ | ⟨-, -, hc⟩ | ⟨-, hc⟩
  · simp [hc]
  · simp [hc]
  · simp [hc]
  · simp [hc]

/-- Octets start with a character or with a defect. -/
theorem start_cases {bs : List UInt8} (h : bs ≠ []) :
    (∃ c rest, bs = String.utf8EncodeChar c ++ rest) ∨ ∃ run rest, bs = run ++ rest ∧ IsDefect run rest := by
  classical
  by_cases hchar : ∃ c, String.utf8EncodeChar c <+: bs
  · obtain ⟨c, rest, hrest⟩ := hchar
    exact Or.inl ⟨c, rest, hrest.symm⟩
  · -- the run is as long as the longest start of an encoding, but not empty
    let longest := Nat.findGreatest (fun n => IsStart (bs.take n)) bs.length
    have hpos : 0 < bs.length := List.length_pos_iff.mpr h
    have hle : longest ≤ bs.length := Nat.findGreatest_le _
    have hstart : IsStart (bs.take longest) :=
      Nat.findGreatest_spec (P := fun n => IsStart (bs.take n)) (Nat.zero_le _)
        ⟨'a', List.nil_prefix⟩
    have hlength : (bs.take (max longest 1)).length = max longest 1 := by
      rw [List.length_take]
      omega
    have hsplit : bs.take (max longest 1) ++ bs.drop (max longest 1) = bs := List.take_append_drop ..
    refine Or.inr ⟨bs.take (max longest 1), bs.drop (max longest 1), hsplit.symm, ?_, ?_, ?_⟩
    · rw [hsplit]
      exact fun c hc => hchar ⟨c, hc⟩
    · by_cases hone : longest ≤ 1
      · left
        rw [hlength]
        omega
      · right
        rw [Nat.max_eq_left (by omega)]
        refine ⟨?_, hstart⟩
        rw [← List.length_pos_iff, List.length_take]
        omega
    · rw [hsplit, hlength]
      intro longer hlonger hmore hlongerStart
      have htake : longer = bs.take longer.length := List.prefix_iff_eq_take.mp hlonger
      rw [htake] at hlongerStart
      exact Nat.findGreatest_is_greatest (P := fun n => IsStart (bs.take n)) (k := longer.length)
        (show longest < longer.length by omega) hlonger.length_le hlongerStart

/-! ## States of the machine -/

/-- The bounds of octets behind the second one. -/
def IsTail (b : UInt8) : Prop := 0x80 ≤ b.toNat ∧ b.toNat ≤ 0xBF

/-- An octet that the machine accepts next. -/
def Partial.InRange (p : Partial) (b : UInt8) : Prop := p.low ≤ b.toNat ∧ b.toNat ≤ p.high

/-- The state after one more octet that does not complete the character. -/
def Partial.next (p : Partial) (b : UInt8) : Partial :=
  ⟨p.start, p.taken + 1, p.need - 1, 0x80, 0xBF, p.push b⟩

/-- The state of the machine after the octets of a character that has begun at `pos`. -/
inductive After (pos : Nat) : List UInt8 → Partial → Prop where
  | lead {b : UInt8} {p : Partial} (h : lead pos b = .sequence p) : After pos [b] p
  | next {run : List UInt8} {p : Partial} {b : UInt8} (h : After pos run p) (hneed : 1 < p.need)
      (hrange : p.InRange b) : After pos (run ++ [b]) (p.next b)

/-- Octets that complete the character of a state. -/
structure Completes (p : Partial) (more : List UInt8) : Prop where
  length_eq : more.length = p.need
  head : ∀ b ∈ more.head?, p.InRange b
  tail : ∀ b ∈ more.tail, IsTail b

theorem tail_eq {b : UInt8} (h : IsTail b) {n : Nat} (hn : n % 0x40 = b.toNat - 0x80) : tail n = b := by
  obtain ⟨hlow, hhigh⟩ := h
  rw [← UInt8.toNat_inj, toNat_tail]
  omega

theorem exists_char {n : Nat} (h : n < 0xD800 ∨ 0xDFFF < n ∧ n < 0x110000) :
    ∃ c : Char, c.toNat = n := by
  have hvalid : n.isValidChar := h
  exact ⟨Char.ofNat n, by rw [Char.ofNat, dif_pos hvalid]; rfl⟩

/-- What a first octet says of the ones that follow it. -/
theorem lead_cases {pos : Nat} {b : UInt8} {p : Partial} (h : lead pos b = .sequence p) :
    (0xC2 ≤ b.toNat ∧ b.toNat < 0xE0 ∧ p = ⟨pos, 1, 1, 0x80, 0xBF, b.toNat - 0xC0⟩) ∨
      (0xE0 ≤ b.toNat ∧ b.toNat < 0xF0 ∧ p = ⟨pos, 1, 2, if b.toNat = 0xE0 then 0xA0 else 0x80,
        if b.toNat = 0xED then 0x9F else 0xBF, b.toNat - 0xE0⟩) ∨
      (0xF0 ≤ b.toNat ∧ b.toNat < 0xF5 ∧ p = ⟨pos, 1, 3, if b.toNat = 0xF0 then 0x90 else 0x80,
        if b.toNat = 0xF4 then 0x8F else 0xBF, b.toNat - 0xF0⟩) := by
  simp only [lead] at h
  split at h
  · cases h
  · split at h
    · cases h
    · split at h
      · cases h
        exact Or.inl ⟨by omega, by omega, rfl⟩
      · split at h
        · cases h
          exact Or.inr (Or.inl ⟨by omega, by omega, rfl⟩)
        · split at h
          · cases h
            exact Or.inr (Or.inr ⟨by omega, by omega, rfl⟩)
          · cases h

theorem exists_char_two {b b₂ : UInt8} (hlow : 0xC2 ≤ b.toNat) (hhigh : b.toNat < 0xE0)
    (h₂ : IsTail b₂) : ∃ c, [b, b₂] = String.utf8EncodeChar c := by
  have ⟨hlow₂, hhigh₂⟩ := h₂
  obtain ⟨c, hc⟩ := exists_char (n := (b.toNat - 0xC0) * 64 + (b₂.toNat - 0x80)) (by omega)
  refine ⟨c, ?_⟩
  rcases encodeChar_cases c with ⟨hsize, hb⟩ | ⟨-, hsize, hb⟩ | ⟨hsize, -, hb⟩ | ⟨hsize, hb⟩
  · omega
  · rw [hb, octet_eq b (by omega), tail_eq h₂ (by omega)]
  · omega
  · omega

/-- Overlong forms and halves of pairs are left out by the bounds on the second octet. -/
theorem exists_char_three {b b₂ b₃ : UInt8} (hlow : 0xE0 ≤ b.toNat) (hhigh : b.toNat < 0xF0)
    (h₂ : IsTail b₂) (h₃ : IsTail b₃) (hfirst : b.toNat = 0xE0 → 0xA0 ≤ b₂.toNat)
    (hhalf : b.toNat = 0xED → b₂.toNat ≤ 0x9F) : ∃ c, [b, b₂, b₃] = String.utf8EncodeChar c := by
  have ⟨hlow₂, hhigh₂⟩ := h₂
  have ⟨hlow₃, hhigh₃⟩ := h₃
  obtain ⟨c, hc⟩ := exists_char
    (n := ((b.toNat - 0xE0) * 64 + (b₂.toNat - 0x80)) * 64 + (b₃.toNat - 0x80)) (by omega)
  refine ⟨c, ?_⟩
  rcases encodeChar_cases c with ⟨hsize, hb⟩ | ⟨-, hsize, hb⟩ | ⟨hsize, -, hb⟩ | ⟨hsize, hb⟩
  · omega
  · omega
  · rw [hb, octet_eq b (by omega), tail_eq h₂ (by omega), tail_eq h₃ (by omega)]
  · omega

/-- Overlong forms and numbers that are too large are left out by the bounds on the second octet. -/
theorem exists_char_four {b b₂ b₃ b₄ : UInt8} (hlow : 0xF0 ≤ b.toNat) (hhigh : b.toNat < 0xF5)
    (h₂ : IsTail b₂) (h₃ : IsTail b₃) (h₄ : IsTail b₄) (hfirst : b.toNat = 0xF0 → 0x90 ≤ b₂.toNat)
    (hlast : b.toNat = 0xF4 → b₂.toNat ≤ 0x8F) :
    ∃ c, [b, b₂, b₃, b₄] = String.utf8EncodeChar c := by
  have ⟨hlow₂, hhigh₂⟩ := h₂
  have ⟨hlow₃, hhigh₃⟩ := h₃
  have ⟨hlow₄, hhigh₄⟩ := h₄
  obtain ⟨c, hc⟩ := exists_char (n := (((b.toNat - 0xF0) * 64 + (b₂.toNat - 0x80)) * 64
    + (b₃.toNat - 0x80)) * 64 + (b₄.toNat - 0x80)) (by omega)
  refine ⟨c, ?_⟩
  rcases encodeChar_cases c with ⟨hsize, hb⟩ | ⟨-, hsize, hb⟩ | ⟨-, hsize, hb⟩ | ⟨hsize, hb⟩
  · omega
  · omega
  · omega
  · rw [hb, octet_eq b (by omega), tail_eq h₂ (by omega), tail_eq h₃ (by omega),
      tail_eq h₄ (by omega)]

/-- A first octet with octets in its bounds behind it is a character. -/
theorem exists_char_of_lead {pos : Nat} {b : UInt8} {p : Partial} (h : lead pos b = .sequence p)
    {more : List UInt8} (hmore : Completes p more) : ∃ c, b :: more = String.utf8EncodeChar c := by
  obtain ⟨hlength, hhead, htail⟩ := hmore
  rcases lead_cases h with ⟨hlow, hhigh, rfl⟩ | ⟨hlow, hhigh, rfl⟩ | ⟨hlow, hhigh, rfl⟩
  · obtain ⟨b₂, rfl⟩ := List.length_eq_one_iff.mp hlength
    exact exists_char_two hlow hhigh (hhead b₂ rfl)
  · obtain ⟨b₂, b₃, rfl⟩ := List.length_eq_two.mp hlength
    obtain ⟨hlow₂, hhigh₂⟩ := hhead b₂ rfl
    simp only at hlow₂ hhigh₂
    refine exists_char_three hlow hhigh ⟨?_, ?_⟩ (htail b₃ List.mem_cons_self) ?_ ?_
    all_goals split at hlow₂ <;> split at hhigh₂ <;> omega
  · obtain ⟨b₂, b₃, b₄, rfl⟩ := List.length_eq_three.mp hlength
    obtain ⟨hlow₂, hhigh₂⟩ := hhead b₂ rfl
    simp only at hlow₂ hhigh₂
    refine exists_char_four hlow hhigh ⟨?_, ?_⟩ (htail b₃ List.mem_cons_self)
      (htail b₄ (List.mem_cons_of_mem _ List.mem_cons_self)) ?_ ?_
    all_goals split at hlow₂ <;> split at hhigh₂ <;> omega

/-! ## What follows a state -/

variable {pos : Nat} {run : List UInt8} {p : Partial} {b : UInt8}

theorem After.need_pos (h : After pos run p) : 1 ≤ p.need := by
  induction h with
  | lead h =>
      rcases lead_cases h with ⟨-, -, rfl⟩ | ⟨-, -, rfl⟩ | ⟨-, -, rfl⟩
      · exact Nat.le_refl 1
      · exact Nat.le_add_left 1 1
      · exact Nat.le_add_left 1 2
  | next h hneed hrange ih =>
      show 1 ≤ _ - 1
      omega

theorem After.ne_nil (h : After pos run p) : run ≠ [] := by
  cases h with
  | lead h => exact List.cons_ne_nil _ _
  | next h hneed hrange => simp

/-- A state can be completed to a character by any octets within its bounds. -/
theorem After.complete (h : After pos run p) {more : List UInt8} (hmore : Completes p more) :
    ∃ c, run ++ more = String.utf8EncodeChar c := by
  induction h generalizing more with
  | lead h => exact exists_char_of_lead h hmore
  | @next run p b h hneed hrange ih =>
      obtain ⟨hlength, hhead, htail⟩ := hmore
      rw [List.append_assoc]
      -- the octet that was accepted completes the state before it, with those that are to come
      refine ih ⟨?_, fun d hd => ?_, fun d hd => ?_⟩
      · rw [List.length_append, List.length_singleton, hlength]
        show 1 + (p.need - 1) = p.need
        omega
      · cases hd
        exact hrange
      · cases more with
        | nil => cases hd
        | cons first more =>
            rcases List.mem_cons.mp hd with rfl | hd
            · exact hhead _ rfl
            · exact htail _ hd

/-- An octet within the bounds goes on with the encoding of a character. -/
theorem After.isStart (h : After pos run p) (hrange : p.InRange b) : IsStart (run ++ [b]) := by
  have hneed := h.need_pos
  -- the octets that are still missing after this one may be 0x80 in any state
  have hmore : Completes p (b :: List.replicate (p.need - 1) 0x80) := by
    refine ⟨?_, fun d hd => ?_, fun d hd => ?_⟩
    · rw [List.length_cons, List.length_replicate]
      omega
    · cases hd
      exact hrange
    · rw [List.eq_of_mem_replicate hd]
      exact ⟨by decide, by decide⟩
  obtain ⟨c, hc⟩ := h.complete hmore
  refine ⟨c, List.replicate (p.need - 1) 0x80, ?_⟩
  rw [← hc, List.append_assoc]
  rfl

/-- The last octet that a state waits for completes a character. -/
theorem After.exists_char (h : After pos run p) (hneed : p.need ≤ 1) (hrange : p.InRange b) :
    ∃ c, run ++ [b] = String.utf8EncodeChar c := by
  refine h.complete ⟨?_, fun d hd => by cases hd; exact hrange, fun d hd => by cases hd⟩
  have := h.need_pos
  rw [List.length_singleton]
  omega

theorem isTail_tail (n : Nat) : IsTail (tail n) := by
  rw [IsTail, toNat_tail]
  omega

theorem isTail_of_mem_tail {c : Char} (h : b ∈ (String.utf8EncodeChar c).tail) : IsTail b := by
  rcases encodeChar_cases c with ⟨-, hb⟩ | ⟨-, -, hb⟩ | ⟨-, -, hb⟩ | ⟨-, hb⟩
  all_goals
    rw [hb] at h
    simp only [List.tail_cons, List.mem_cons, List.not_mem_nil, or_false] at h
  · rw [h]
    exact isTail_tail _
  · rcases h with rfl | rfl
    · exact isTail_tail _
    · exact isTail_tail _
  · rcases h with rfl | rfl | rfl
    · exact isTail_tail _
    · exact isTail_tail _
    · exact isTail_tail _

/-- Octets behind the first one of a character are within the bounds of all of them. -/
theorem isTail_of_isStart (hrun : run ≠ []) (h : IsStart (run ++ [b])) : IsTail b := by
  obtain ⟨c, rest, hrest⟩ := h
  obtain ⟨first, more, rfl⟩ := List.exists_cons_of_ne_nil hrun
  refine isTail_of_mem_tail (c := c) ?_
  rw [← hrest]
  simp

/-- The second octet of a character is within the bounds that the first one sets. -/
theorem inRange_of_isStart_lead (hlead : lead pos b = .sequence p) {b₂ : UInt8}
    (h : IsStart [b, b₂]) : p.InRange b₂ := by
  obtain ⟨c, hc⟩ := h
  have hvalid := toNat_valid c
  rcases encodeChar_cases c with ⟨-, hb⟩ | ⟨hlow, hhigh, hb⟩ | ⟨hlow, hhigh, hb⟩ | ⟨hlow, hb⟩
  · rw [hb] at hc
    exact absurd hc.length_le (by simp)
  · rw [hb, List.cons_prefix_cons, List.cons_prefix_cons] at hc
    obtain ⟨rfl, rfl, -⟩ := hc
    rw [lead_two pos (by omega) (by omega)] at hlead
    cases hlead
    exact isTail_tail _
  · rw [hb, List.cons_prefix_cons, List.cons_prefix_cons] at hc
    obtain ⟨rfl, rfl, -⟩ := hc
    rw [lead_three pos (by omega)] at hlead
    cases hlead
    rw [Partial.InRange, toNat_tail]
    simp only
    constructor
    · split <;> omega
    · split <;> omega
  · rw [hb, List.cons_prefix_cons, List.cons_prefix_cons] at hc
    obtain ⟨rfl, rfl, -⟩ := hc
    rw [lead_four pos (by omega)] at hlead
    cases hlead
    rw [Partial.InRange, toNat_tail]
    simp only
    constructor
    · split <;> omega
    · split <;> omega

/-- **The machine accepts an octet exactly if some character's encoding goes on with it.** -/
theorem After.inRange_iff (h : After pos run p) : p.InRange b ↔ IsStart (run ++ [b]) := by
  refine ⟨h.isStart, fun hstart => ?_⟩
  cases h with
  | lead hlead => exact inRange_of_isStart_lead hlead hstart
  | next h hneed hrange => exact isTail_of_isStart (by simp) hstart

/-- The first octet of a character is no invalid one. -/
theorem lead_ne_invalid (h : IsStart [b]) : lead pos b ≠ .invalid := by
  obtain ⟨c, hc⟩ := h
  have hvalid := toNat_valid c
  intro hlead
  rcases encodeChar_cases c with ⟨hsize, hb⟩ | ⟨hlow, hhigh, hb⟩ | ⟨hlow, hhigh, hb⟩ | ⟨hlow, hb⟩
  all_goals
    rw [hb, List.cons_prefix_cons] at hc
    obtain ⟨rfl, -⟩ := hc
  · rw [lead_ascii pos hsize] at hlead
    cases hlead
  · rw [lead_two pos (by omega) (by omega)] at hlead
    cases hlead
  · rw [lead_three pos (by omega)] at hlead
    cases hlead
  · rw [lead_four pos (by omega)] at hlead
    cases hlead

theorem exists_char_of_ascii (h : lead pos b = .ascii) : ∃ c, [b] = String.utf8EncodeChar c := by
  -- every other kind of octet leads to something else
  have hsmall : b.toNat < 0x80 := by
    by_contra hnot
    rw [lead] at h
    simp only [if_neg hnot] at h
    split at h
    · cases h
    · split at h
      · cases h
      · split at h
        · cases h
        · split at h
          · cases h
          · cases h
  obtain ⟨c, hc⟩ := Utf8.exists_char (n := b.toNat) (by omega)
  refine ⟨c, ?_⟩
  rcases encodeChar_cases c with ⟨-, hb⟩ | ⟨hlow, -, -⟩ | ⟨hlow, -, -⟩ | ⟨hlow, -⟩
  · rw [hb, octet_eq b hc]
  · omega
  · omega
  · omega

/-! ## The machine on a defect -/

/-- The machine gives one piece for a defect and is then at its start. -/
def GivesDefect (pieces' : List Piece) (rest : List UInt8) : Prop :=
  ∃ start length reason next, pieces' = .defect start length reason :: pieces next none rest

theorem pieces_refused (h : ¬ p.InRange b) (pos : Nat) (rest : List UInt8) :
    pieces pos (some p) (b :: rest)
      = .defect p.start p.taken .invalidContinuation :: pieces pos none (b :: rest) := by
  unfold Partial.InRange at h
  conv_lhs => rw [pieces, if_neg h]
  rfl

theorem pieces_accepted (h : p.InRange b) (hneed : 1 < p.need) (pos : Nat) (rest : List UInt8) :
    pieces pos (some p) (b :: rest) = pieces (pos + 1) (some (p.next b)) rest := by
  unfold Partial.InRange at h
  rw [pieces, if_pos h, if_neg (Nat.not_le.mpr hneed)]
  rfl

/-- From a state on, what is left of a defect is passed over. -/
theorem After.givesDefect (h : After pos run p) (more rest : List UInt8)
    (hdefect : IsDefect (run ++ more) rest) (at' : Nat) :
    GivesDefect (pieces at' (some p) (more ++ rest)) rest := by
  -- on the octets that are left of the defect, with the state after those before them
  induction more generalizing run p at' with
  | nil =>
      rw [List.append_nil] at hdefect
      cases rest with
      | nil => exact ⟨_, _, _, 0, rfl⟩
      | cons b rest =>
          -- no longer start is there, so the machine refuses the octet behind the defect
          have hrange : ¬ p.InRange b := by
            rw [h.inRange_iff]
            refine hdefect.longest (run ++ [b]) ⟨rest, by rw [List.append_assoc]; rfl⟩ ?_
            rw [List.length_append, List.length_singleton]
            omega
          exact ⟨_, _, _, _, pieces_refused hrange at' rest⟩
  | cons b more ih =>
      have hbegin : run ++ [b] <+: run ++ b :: more := ⟨more, by rw [List.append_assoc]; rfl⟩
      have hstart : IsStart (run ++ b :: more) := by
        rcases hdefect.isRun with hone | ⟨-, hstart⟩
        · have hpos := List.length_pos_iff.mpr h.ne_nil
          rw [List.length_append, List.length_cons] at hone
          omega
        · exact hstart
      have hrange : p.InRange b := h.inRange_iff.mpr (hstart.of_isPrefix hbegin)
      have hneed : 1 < p.need := by
        -- else a character would stand where the defect is
        by_contra hlast
        obtain ⟨c, hc⟩ := h.exists_char (Nat.not_lt.mp hlast) hrange
        exact hdefect.noChar c (hc ▸ hbegin.trans (List.prefix_append _ _))
      rw [List.cons_append, pieces_accepted hrange hneed]
      refine ih (h.next hneed hrange) ?_ (at' + 1)
      rw [List.append_assoc]
      exact hdefect

theorem givesDefect_of_isDefect {rest : List UInt8} (h : IsDefect run rest) (pos : Nat) :
    GivesDefect (pieces pos none (run ++ rest)) rest := by
  obtain ⟨b, more, rfl⟩ := List.exists_cons_of_ne_nil h.ne_nil
  rw [List.cons_append, pieces]
  cases hlead : lead pos b with
  | ascii =>
      obtain ⟨c, hc⟩ := exists_char_of_ascii hlead
      exact absurd (hc ▸ ⟨more ++ rest, rfl⟩) (h.noChar c)
  | invalid =>
      have hmore : more = [] := by
        rcases h.isRun with hone | ⟨-, hstart⟩
        · exact List.length_eq_zero_iff.mp (by simpa using hone)
        · exact absurd hlead (lead_ne_invalid (hstart.of_isPrefix ⟨more, rfl⟩))
      subst hmore
      exact ⟨_, _, _, _, rfl⟩
  | sequence p => exact (After.lead hlead).givesDefect more rest h (pos + 1)

/-! ## Decoding -/

theorem map_shown_pieces {bs : List UInt8} {cs : List Char} (h : Shows bs cs) (pos : Nat) :
    (pieces pos none bs).map Piece.shown = cs := by
  induction h generalizing pos with
  | nil => rfl
  | char c h ih =>
      obtain ⟨next, hnext⟩ := pieces_encodeChar pos c _
      rw [hnext, List.map_cons, ih]
      rfl
  | defect hrun h ih =>
      obtain ⟨start, length, reason, next, hnext⟩ := givesDefect_of_isDefect hrun pos
      rw [hnext, List.map_cons, ih]
      rfl

/-- All octets are shown as some text. -/
theorem exists_shows (bs : List UInt8) : ∃ cs, Shows bs cs := by
  induction hlength : bs.length using Nat.strong_induction_on generalizing bs with
  | _ n ih =>
      by_cases hbs : bs = []
      · subst hbs
        exact ⟨[], .nil⟩
      · rcases start_cases hbs with ⟨c, rest, rfl⟩ | ⟨run, rest, rfl, hrun⟩
        · have hpos := List.length_pos_iff.mpr (utf8EncodeChar_ne_nil c)
          rw [List.length_append] at hlength
          obtain ⟨cs, hcs⟩ := ih rest.length (by omega) rest rfl
          exact ⟨_, hcs.char c⟩
        · have hpos := List.length_pos_iff.mpr hrun.ne_nil
          rw [List.length_append] at hlength
          obtain ⟨cs, hcs⟩ := ih rest.length (by omega) rest rfl
          exact ⟨_, hcs.defect hrun⟩

/-- **Decoding shows every octet string as the text that it is shown as.** -/
theorem decode_eq_iff {bs : List UInt8} {cs : List Char} : decode bs = cs ↔ Shows bs cs := by
  constructor
  · rintro rfl
    obtain ⟨cs, hcs⟩ := exists_shows bs
    rw [decode, map_shown_pieces hcs]
    exact hcs
  · intro h
    exact map_shown_pieces h 0

/-! ## Strict reading -/

/-- Only the encoding of a text is read without a defect. -/
theorem eq_encode_of_pieces {bs : List UInt8} {cs : List Char} {pos : Nat}
    (h : pieces pos none bs = cs.map Piece.char) : bs = encode cs := by
  induction cs generalizing bs pos with
  | nil =>
      by_contra hbs
      rcases start_cases hbs with ⟨c, rest, rfl⟩ | ⟨run, rest, rfl, hrun⟩
      · obtain ⟨next, hnext⟩ := pieces_encodeChar pos c rest
        rw [hnext] at h
        cases h
      · obtain ⟨start, length, reason, next, hnext⟩ := givesDefect_of_isDefect hrun pos
        rw [hnext] at h
        cases h
  | cons c cs ih =>
      have hbs : bs ≠ [] := by
        rintro rfl
        cases h
      rcases start_cases hbs with ⟨d, rest, rfl⟩ | ⟨run, rest, rfl, hrun⟩
      · obtain ⟨next, hnext⟩ := pieces_encodeChar pos d rest
        rw [hnext, List.map_cons] at h
        obtain ⟨hhead, htail⟩ := List.cons.inj h
        cases hhead
        rw [ih htail]
        rfl
      · obtain ⟨start, length, reason, next, hnext⟩ := givesDefect_of_isDefect hrun pos
        rw [hnext] at h
        cases h

theorem strictPieces_eq_ok_iff {bs : List UInt8} {ps : List Piece} {cs : List Char} :
    strictPieces bs ps = .ok cs ↔ ps = cs.map Piece.char := by
  induction ps generalizing cs with
  | nil =>
      cases cs with
      | nil => exact ⟨fun _ => rfl, fun _ => rfl⟩
      | cons c cs => exact ⟨fun h => (by cases h), fun h => (by cases h)⟩
  | cons piece ps ih =>
      cases piece with
      | defect start length reason =>
          -- a defect fails, and is no character
          refine ⟨fun h => (by cases h), fun h => ?_⟩
          cases cs with
          | nil => cases h
          | cons c cs => cases h
      | char c =>
          rw [strictPieces]
          constructor
          · intro h
            cases hrest : strictPieces bs ps with
            | error failure =>
                rw [hrest] at h
                cases h
            | ok rest =>
                rw [hrest] at h
                cases h
                rw [ih.mp hrest, List.map_cons]
          · intro h
            cases cs with
            | nil => cases h
            | cons d cs =>
                obtain ⟨hhead, htail⟩ := List.cons.inj h
                cases hhead
                rw [ih.mpr htail]
                rfl

/-- **The strict reader accepts exactly the encodings of texts.** -/
theorem decodeStrict?_eq_ok_iff {bs : List UInt8} {cs : List Char} :
    decodeStrict? bs = .ok cs ↔ bs = encode cs := by
  rw [decodeStrict?, strictPieces_eq_ok_iff]
  refine ⟨eq_encode_of_pieces, ?_⟩
  rintro rfl
  exact pieces_encode 0 cs

end SourceNavigator.Text.Utf8
