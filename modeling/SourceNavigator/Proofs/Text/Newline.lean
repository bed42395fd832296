import SourceNavigator.Proofs.Text.Lossy

set_option autoImplicit false

/-! # Octets that are characters

Some characters are encoded by a single octet, the newline and the carriage return among them. No
character's encoding goes on with such an octet, so it ends whatever has begun before it. Octets on both
sides of it are therefore shown as they would be if each side were alone (`decode_append_single`), and a
newline is shown only where its octet is (`not_mem_decode`).
-/

namespace SourceNavigator.Text.Utf8

/-- The octet of a newline. -/
def newline : UInt8 := 10

theorem utf8EncodeChar_newline : String.utf8EncodeChar '\n' = [newline] := by decide

theorem shows_decode (bs : List UInt8) : Shows bs (decode bs) := decode_eq_iff.mp rfl

section Single

variable {c : Char} {b : UInt8} (hsingle : String.utf8EncodeChar c = [b])
include hsingle

theorem not_isTail_of_single : ¬ IsTail b := by
  rintro ⟨hlow, -⟩
  rcases encodeChar_cases c with ⟨hsize, hc⟩ | ⟨-, -, hc⟩ | ⟨-, -, hc⟩ | ⟨-, hc⟩
  · obtain rfl : UInt8.ofNat c.toNat = b := List.singleton_inj.mp (hc.symm.trans hsingle)
    rw [toNat_octet (by omega)] at hlow
    omega
  · cases hc.symm.trans hsingle
  · cases hc.symm.trans hsingle
  · cases hc.symm.trans hsingle

/-- A character that has begun in front of a single octet has no octet behind it. -/
theorem isPrefix_of_isStart {run octets rest : List UInt8} (h : IsStart run)
    (hrun : run <+: octets ++ b :: rest) (hne : octets ≠ []) : run <+: octets := by
  -- the run ends before the single octet, or it holds all of the octets and some more
  rcases List.prefix_or_prefix_of_prefix hrun (List.prefix_append octets _) with hinside | ⟨more, rfl⟩
  · exact hinside
  · cases more with
    | nil => simp
    | cons d more =>
        -- the run would go on with the single octet
        obtain ⟨rfl, -⟩ := List.cons_prefix_cons.mp ((List.prefix_append_right_inj octets).mp hrun)
        exact absurd (isTail_of_isStart hne (h.of_isPrefix ⟨more, by simp⟩))
          (not_isTail_of_single hsingle)

/-- A defect of octets that end there is one as well if a single octet follows them. -/
theorem IsDefect.append_single {run rest : List UInt8} (h : IsDefect run rest) (more : List UInt8) :
    IsDefect run (rest ++ b :: more) := by
  have hne : run ++ rest ≠ [] := by simp [h.ne_nil]
  -- so no start is found that could not be found without the single octet
  have hinside {octets : List UInt8} (hstart : IsStart octets)
      (hoctets : octets <+: run ++ (rest ++ b :: more)) : octets <+: run ++ rest := by
    rw [← List.append_assoc] at hoctets
    exact isPrefix_of_isStart hsingle hstart hoctets hne
  refine ⟨fun d hd => h.noChar d (hinside ⟨d, List.prefix_rfl⟩ hd), h.isRun, ?_⟩
  intro longer hlonger hlength hstart
  exact h.longest longer (hinside hstart hlonger) hlength hstart

theorem Shows.append_single {x y : List UInt8} {cs ds : List Char} (hx : Shows x cs) (hy : Shows y ds) :
    Shows (x ++ b :: y) (cs ++ c :: ds) := by
  -- on what stands before the single octet; only its defects depend on what follows them
  induction hx with
  | nil =>
      have hchar := hy.char c
      rw [hsingle] at hchar
      exact hchar
  | char d h ih =>
      rw [List.append_assoc]
      exact ih.char d
  | defect hrun h ih =>
      rw [List.append_assoc]
      exact ih.defect (hrun.append_single hsingle y)

/-- **Octets can be cut at a single octet before they are shown.** -/
theorem decode_append_single (x y : List UInt8) : decode (x ++ b :: y) = decode x ++ c :: decode y :=
  decode_eq_iff.mpr ((shows_decode x).append_single hsingle (shows_decode y))

end Single

theorem decode_append_newline (x y : List UInt8) :
    decode (x ++ newline :: y) = decode x ++ '\n' :: decode y :=
  decode_append_single utf8EncodeChar_newline x y

theorem not_mem_of_shows {bs : List UInt8} {cs : List Char} (h : Shows bs cs) (hbs : newline ∉ bs) :
    '\n' ∉ cs := by
  induction h with
  | nil => exact List.not_mem_nil
  | char c h ih =>
      rw [List.mem_append, not_or] at hbs
      rw [List.mem_cons, not_or]
      refine ⟨?_, ih hbs.2⟩
      rintro rfl
      rw [utf8EncodeChar_newline] at hbs
      exact hbs.1 List.mem_cons_self
  | defect hrun h ih =>
      rw [List.mem_append, not_or] at hbs
      rw [List.mem_cons, not_or]
      exact ⟨by decide, ih hbs.2⟩

/-- No newline is shown where there is none. -/
theorem not_mem_decode {bs : List UInt8} (h : newline ∉ bs) : '\n' ∉ decode bs :=
  not_mem_of_shows (shows_decode bs) h

theorem decode_ne_nil {bs : List UInt8} (h : bs ≠ []) : decode bs ≠ [] := by
  have hshows := shows_decode bs
  intro hnil
  rw [hnil] at hshows
  cases hshows
  exact h rfl

end SourceNavigator.Text.Utf8
