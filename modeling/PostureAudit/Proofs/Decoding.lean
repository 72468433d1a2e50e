import PostureAudit.Text.Utf8
import Mathlib.Algebra.Group.Nat.Defs

set_option autoImplicit false

/-! # Decoding and ASCII

No byte of a character of several bytes is an ASCII byte, and no such character is an ASCII
character: whatever bytes can still follow, the code point that the machine is putting together
stays in a range of larger ones (`State.OffAscii`). So each step of the machine delivers an ASCII
character exactly if it reads one (`ascii_step`), and decoding, which makes up nothing but U+FFFD,
neither adds an ASCII character nor loses one (`ascii_decodeLossy`). -/

namespace PostureAudit.Utf8

def isAscii (c : Char) : Bool := c.toNat < 0x80

/-- The ASCII characters among some units. -/
def asciiUnits (units : List (Option Char)) : Text := (units.filterMap id).filter isAscii

/-- The ASCII character that a byte stands for by itself, if it does. -/
def asciiByte (b : Nat) : Text := if b < 0x80 then [Char.ofNat b] else []

/-- Every character that the machine can complete from here has a code point that is none of
    ASCII, and no surrogate either. The bounds are the code points with the bits read so far, the
    next byte at its lowest and at its highest, and any bytes after it. -/
def State.OffAscii : State → Prop
  | .start => True
  | .inside more low high bits =>
    0x80 ≤ low ∧
      (0x80 ≤ (bits * 64 + (low - 0x80)) * 64 ^ more ∧
          (bits * 64 + (high - 0x80) + 1) * 64 ^ more ≤ 0xD800 ∨
        0xE000 ≤ (bits * 64 + (low - 0x80)) * 64 ^ more ∧
          (bits * 64 + (high - 0x80) + 1) * 64 ^ more ≤ 0x110000)

theorem toNat_ofNat_of_isValidChar {n : Nat} (h : n.isValidChar) : (Char.ofNat n).toNat = n := by
  rw [Char.ofNat, dif_pos h]
  rfl

theorem isAscii_ofNat {n : Nat} (h : n.isValidChar) :
    isAscii (Char.ofNat n) = decide (n < 0x80) := by
  rw [isAscii, toNat_ofNat_of_isValidChar h]

@[simp] theorem asciiUnits_append (us vs : List (Option Char)) :
    asciiUnits (us ++ vs) = asciiUnits us ++ asciiUnits vs := by
  simp [asciiUnits]

theorem offAscii_of_lead? {b : Nat} {s : State} (h : lead? b = some s) :
    0x80 ≤ b ∧ s.OffAscii := by
  unfold lead? at h
  simp only [Bool.and_eq_true, decide_eq_true_eq, beq_iff_eq] at h
  -- one range of first bytes after the other
  repeat' split at h
  all_goals cases h
  all_goals
    simp only [State.OffAscii]
    omega

theorem ascii_first (b : Nat) : asciiUnits (first b).1 = asciiByte b ∧ (first b).2.OffAscii := by
  unfold first asciiByte
  split
  next hsmall =>
    have hvalid : b.isValidChar := Or.inl (by omega)
    simp [asciiUnits, isAscii_ofNat hvalid, hsmall, State.OffAscii]
  next hlarge =>
    cases hlead : lead? b with
    | none => simp [asciiUnits, State.OffAscii]
    | some s => exact ⟨rfl, (offAscii_of_lead? hlead).2⟩

/-- A byte of ASCII is a character by itself, whatever comes before it, and no other byte
    completes an ASCII character. -/
theorem ascii_step {s : State} (h : s.OffAscii) (b : Nat) :
    asciiUnits (step s b).1 = asciiByte b ∧ (step s b).2.OffAscii := by
  cases s with
  | start => exact ascii_first b
  | inside more low high bits =>
    obtain ⟨hlow, hrange⟩ := h
    unfold step
    simp only [Bool.and_eq_true, decide_eq_true_eq]
    split
    next hnext =>
      have hnone : asciiByte b = [] := if_neg (by omega)
      cases more with
      | zero =>
        have hvalid : (bits * 64 + (b - 0x80)).isValidChar := by
          simp only [Nat.pow_zero, Nat.mul_one] at hrange
          unfold Nat.isValidChar
          omega
        have hoff : isAscii (Char.ofNat (bits * 64 + (b - 0x80))) = false := by
          rw [isAscii_ofNat hvalid]
          simp only [Nat.pow_zero, Nat.mul_one] at hrange
          exact decide_eq_false (by omega)
        simp [asciiUnits, hoff, hnone, State.OffAscii]
      | succ more =>
        -- the next byte is followed by one byte less, in a range that is as much larger
        have hlowest : (bits * 64 + (low - 0x80)) * 64 ^ (more + 1) ≤
            ((bits * 64 + (b - 0x80)) * 64 + (0x80 - 0x80)) * 64 ^ more := by
          rw [Nat.pow_succ', ← Nat.mul_assoc]
          exact Nat.mul_le_mul_right _ (by omega)
        have hhighest : ((bits * 64 + (b - 0x80)) * 64 + (0xBF - 0x80) + 1) * 64 ^ more ≤
            (bits * 64 + (high - 0x80) + 1) * 64 ^ (more + 1) := by
          rw [Nat.pow_succ', ← Nat.mul_assoc]
          exact Nat.mul_le_mul_right _ (by omega)
        refine ⟨hnone.symm, Nat.le_refl _, ?_⟩
        exact hrange.imp (fun h => ⟨Nat.le_trans h.1 hlowest, Nat.le_trans hhighest h.2⟩)
          fun h => ⟨Nat.le_trans h.1 hlowest, Nat.le_trans hhighest h.2⟩
    next hend =>
      obtain ⟨hunits, hstate⟩ := ascii_first b
      refine ⟨?_, hstate⟩
      rw [← hunits]
      rfl

theorem unitsFrom_cons (s : State) (b : UInt8) (bytes : Bytes) :
    unitsFrom s (b :: bytes) = (step s b.toNat).1 ++ unitsFrom (step s b.toNat).2 bytes := by
  cases s <;> rfl

theorem ascii_unitsFrom {s : State} (h : s.OffAscii) (bytes : Bytes) :
    asciiUnits (unitsFrom s bytes) = bytes.flatMap fun b => asciiByte b.toNat := by
  induction bytes generalizing s with
  | nil => cases s <;> rfl
  | cons b bytes ih =>
    obtain ⟨hunits, hstate⟩ := ascii_step h b.toNat
    rw [unitsFrom_cons, asciiUnits_append, hunits, ih hstate, List.flatMap_cons]

/-- The ASCII characters of a decoded text are the ASCII bytes, in order. -/
theorem ascii_decodeLossy (bytes : Bytes) :
    (decodeLossy bytes).filter isAscii = bytes.flatMap fun b => asciiByte b.toNat := by
  have hreplaced (units : List (Option Char)) :
      (units.map (·.getD '\uFFFD')).filter isAscii = asciiUnits units := by
    induction units with
    | nil => rfl
    | cons u units ih =>
      have hcons := asciiUnits_append [u] units
      rw [List.singleton_append] at hcons
      rw [List.map_cons, List.filter_cons, ih, hcons]
      cases u with
      | none => rfl
      | some c => cases hc : isAscii c <;> simp [asciiUnits, hc]
  have hstart : State.start.OffAscii := trivial
  rw [decodeLossy, hreplaced, units, ascii_unitsFrom hstart]

/-- An ASCII character is in a decoded text exactly if its byte is in the byte string. -/
theorem mem_decodeLossy_iff {c : Char} (hc : isAscii c = true) {bytes : Bytes} :
    c ∈ decodeLossy bytes ↔ ∃ b ∈ bytes, b.toNat = c.toNat := by
  have hbyte (b : UInt8) : c ∈ asciiByte b.toNat ↔ b.toNat = c.toNat := by
    have hsmall : c.toNat < 0x80 := of_decide_eq_true hc
    unfold asciiByte
    split
    next hb =>
      rw [List.mem_singleton]
      constructor
      · rintro rfl
        exact (toNat_ofNat_of_isValidChar (Or.inl (by omega))).symm
      · intro h
        rw [h, Char.ofNat_toNat]
    next hb => exact iff_of_false List.not_mem_nil (by omega)
  have hfilter : c ∈ decodeLossy bytes ↔ c ∈ (decodeLossy bytes).filter isAscii := by
    rw [List.mem_filter, and_iff_left hc]
  rw [hfilter, ascii_decodeLossy, List.mem_flatMap]
  exact exists_congr fun b => and_congr_right fun _ => hbyte b

end PostureAudit.Utf8
