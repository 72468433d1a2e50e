import PostureAudit.Text.Utf8
import Mathlib.Tactic.SplitIfs

set_option autoImplicit false

/-! # The order of encoded texts

UTF-8 keeps order: a text that is less by its code points is less by its bytes, one by one
(`encode_lt_encode`). -/

namespace PostureAudit.Utf8

/-- The bytes of a smaller character come first, whatever follows them. -/
theorem utf8EncodeChar_append_lt {c d : Char} (h : c < d) (x y : Bytes) :
    String.utf8EncodeChar c ++ x < String.utf8EncodeChar d ++ y := by
  have hlt : c.val.toNat < d.val.toNat := UInt32.lt_iff_toNat_lt.mp h
  have hvalid : d.val.toNat < 0x110000 := by
    have := d.valid
    unfold UInt32.isValidChar Nat.isValidChar at this
    omega
  have htwo (n : Nat) : n / 4096 = n / 64 / 64 := (Nat.div_div_eq_div_mul n 64 64).symm
  have hthree (n : Nat) : n / 262144 = n / 64 / 64 / 64 := by
    rw [← htwo, Nat.div_div_eq_div_mul]
  unfold String.utf8EncodeChar
  dsimp only
  -- one case for each two numbers of bytes
  split_ifs
  all_goals
    simp only [List.cons_append, List.nil_append, List.cons_lt_cons_iff, UInt8.lt_iff_toNat_lt,
      ← UInt8.toNat_inj, UInt8.toNat_ofNat', htwo, hthree]
    omega

theorem encode_lt_encode {s t : Text} (h : s < t) : encode s < encode t := by
  induction h with
  | @nil c t =>
    have hne : encode (c :: t) ≠ [] := by
      rw [← List.length_pos_iff, length_encode, Text.utf8Length_cons]
      exact Nat.add_pos_left c.utf8Size_pos _
    obtain ⟨b, bytes, hbytes⟩ := List.exists_cons_of_ne_nil hne
    rw [hbytes]
    exact List.nil_lt_cons b bytes
  | rel hlt => exact utf8EncodeChar_append_lt hlt _ _
  | cons _ ih => exact List.append_left_lt ih

end PostureAudit.Utf8
