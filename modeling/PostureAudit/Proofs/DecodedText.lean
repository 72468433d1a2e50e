import PostureAudit.Proofs.Decoding
import Mathlib.Tactic.SplitIfs

set_option autoImplicit false

/-! # What decoding keeps

A character is encoded as one byte, or as a first byte that no other character goes on with and
the bytes that this one lets follow (`utf8EncodeChar_cases`), so the machine reads it back
(`unitsFrom_utf8EncodeChar`). Whatever the machine has begun is broken off by the first byte of a
character (`State.Interrupted`): text that is valid is kept wherever it stands
(`decodeLossy_append_encode`). For an ASCII character the other direction holds too: where a
decoded text has one, the bytes have its byte (`exists_byte_of_decodeLossy`). -/

namespace PostureAudit.Utf8

/-! ## The bytes of a character -/

theorem step_of_within {more low high bits b : Nat} (hlow : low ≤ b) (hhigh : b ≤ high) :
    step (.inside more low high bits) b =
      match more with
      | 0 => ([some (Char.ofNat (bits * 64 + (b - 0x80)))], .start)
      | more + 1 => ([], .inside more 0x80 0xBF (bits * 64 + (b - 0x80))) := by
  have hwithin : (decide (low ≤ b) && decide (b ≤ high)) = true := by simp [hlow, hhigh]
  exact if_pos hwithin

theorem step_of_outside {more low high bits b : Nat} (h : ¬ (low ≤ b ∧ b ≤ high)) :
    step (.inside more low high bits) b = (none :: (first b).1, (first b).2) := by
  rw [step, if_neg (by simpa using h)]

theorem toNat_byte {n : Nat} (h : n < 0x100) : (UInt8.ofNat n).toNat = n :=
  UInt8.toNat_ofNat_of_lt' h

/-- The last `n` bytes of a character of several bytes, of which the code point is given. -/
def continuation (v : Nat) : Nat → Bytes
  | 0 => []
  | n + 1 => UInt8.ofNat (v / 64 ^ n % 64 + 0x80) :: continuation v n

theorem lead?_of_two : ∀ m < 32, 2 ≤ m → lead? (m + 0xC0) = some (.inside 0 0x80 0xBF m) := by
  decide

theorem lead?_of_three : ∀ m < 16, lead? (m + 0xE0) =
    some (.inside 1 (if m = 0 then 0xA0 else 0x80) (if m = 13 then 0x9F else 0xBF) m) := by
  decide

theorem lead?_of_four : ∀ m < 5, lead? (m + 0xF0) =
    some (.inside 2 (if m = 0 then 0x90 else 0x80) (if m = 4 then 0x8F else 0xBF) m) := by
  decide

/-- How a character is encoded: as one byte of ASCII, or as a byte that no other one goes on with,
    which says what the next byte may be, and more bytes after it. -/
theorem utf8EncodeChar_cases (c : Char) :
    (c.toNat < 0x80 ∧ String.utf8EncodeChar c = [UInt8.ofNat c.toNat]) ∨
    ∃ b n low high, String.utf8EncodeChar c = b :: continuation c.toNat (n + 1) ∧
      0xC2 ≤ b.toNat ∧ lead? b.toNat = some (.inside n low high (c.toNat / 64 ^ (n + 1))) ∧
      low ≤ c.toNat / 64 ^ n % 64 + 0x80 ∧ c.toNat / 64 ^ n % 64 + 0x80 ≤ high := by
  have hvalid : c.toNat < 0xD800 ∨ 0xDFFF < c.toNat ∧ c.toNat < 0x110000 := c.valid
  have hval : c.val.toNat = c.toNat := rfl
  unfold String.utf8EncodeChar
  dsimp only
  rw [hval]
  generalize c.toNat = v at hvalid
  split_ifs with hone htwo hthree
  · exact Or.inl ⟨by omega, rfl⟩
  · have hlead : (UInt8.ofNat (v / 64 % 32 + 192)).toNat = v / 64 + 0xC0 := by
      rw [toNat_byte (by omega)]
      omega
    refine Or.inr ⟨UInt8.ofNat (v / 64 % 32 + 192), 0, _, _, by simp [continuation], by omega,
      hlead ▸ lead?_of_two (v / 64) (by omega) (by omega), by omega, by omega⟩
  · have hlead : (UInt8.ofNat (v / 4096 % 16 + 224)).toNat = v / 4096 + 0xE0 := by
      rw [toNat_byte (by omega)]
      omega
    refine Or.inr ⟨UInt8.ofNat (v / 4096 % 16 + 224), 1, _, _, by simp [continuation], by omega,
      hlead ▸ lead?_of_three (v / 4096) (by omega), ?_, ?_⟩
    · simp only [Nat.pow_one]
      split <;> omega
    · simp only [Nat.pow_one]
      split <;> omega
  · have hlead : (UInt8.ofNat (v / 262144 % 8 + 240)).toNat = v / 262144 + 0xF0 := by
      rw [toNat_byte (by omega)]
      omega
    refine Or.inr ⟨UInt8.ofNat (v / 262144 % 8 + 240), 2, _, _, by simp [continuation], by omega,
      hlead ▸ lead?_of_four (v / 262144) (by omega), ?_, ?_⟩
    · simp only [Nat.reducePow]
      split <;> omega
    · simp only [Nat.reducePow]
      split <;> omega

/-- After the right bytes so far, the last bytes complete a character. -/
theorem unitsFrom_continuation (v n : Nat) {low high : Nat}
    (hlow : low ≤ v / 64 ^ n % 64 + 0x80) (hhigh : v / 64 ^ n % 64 + 0x80 ≤ high) (rest : Bytes) :
    unitsFrom (.inside n low high (v / 64 ^ (n + 1))) (continuation v (n + 1) ++ rest) =
      some (Char.ofNat v) :: unitsFrom .start rest := by
  have hbyte (q : Nat) : (UInt8.ofNat (q % 64 + 0x80)).toNat = q % 64 + 0x80 :=
    toNat_byte (by omega)
  have hbits (n : Nat) : v / 64 ^ (n + 1) * 64 + (v / 64 ^ n % 64 + 0x80 - 0x80) = v / 64 ^ n := by
    rw [Nat.pow_succ, ← Nat.div_div_eq_div_mul]
    omega
  induction n generalizing low high with
  | zero =>
    rw [continuation, List.cons_append, unitsFrom_cons, hbyte, step_of_within hlow hhigh, hbits,
      Nat.pow_zero, Nat.div_one]
    rfl
  | succ n ih =>
    rw [continuation, List.cons_append, unitsFrom_cons, hbyte, step_of_within hlow hhigh, hbits]
    exact ih (by omega) (by omega)

/-- A character is read from its bytes. -/
theorem unitsFrom_utf8EncodeChar (c : Char) (rest : Bytes) :
    unitsFrom .start (String.utf8EncodeChar c ++ rest) = some c :: unitsFrom .start rest := by
  rcases utf8EncodeChar_cases c with
    ⟨hone, hbytes⟩ | ⟨b, n, low, high, hbytes, hb, hlead, hlow, hhigh⟩
  · rw [hbytes, List.singleton_append, unitsFrom_cons, toNat_byte (by omega), step, first,
      if_pos hone, Char.ofNat_toNat]
    rfl
  · have hfirst : step .start b.toNat = ([], .inside n low high (c.toNat / 64 ^ (n + 1))) := by
      rw [step, first, if_neg (by omega), hlead]
    rw [hbytes, List.cons_append, unitsFrom_cons, hfirst, List.nil_append,
      unitsFrom_continuation c.toNat n hlow hhigh, Char.ofNat_toNat]

theorem unitsFrom_encode (t : Text) (rest : Bytes) :
    unitsFrom .start (encode t ++ rest) = t.map some ++ unitsFrom .start rest := by
  induction t with
  | nil => rfl
  | cons c t ih =>
    have hcons : encode (c :: t) = String.utf8EncodeChar c ++ encode t := List.flatMap_cons
    rw [hcons, List.append_assoc, unitsFrom_utf8EncodeChar, ih, List.map_cons, List.cons_append]

/-! ## Text between other bytes -/

/-- A byte that begins a character is not one that goes on with the character at hand. -/
def State.Interrupted : State → Prop
  | .start => True
  | .inside _ low high _ => 0x80 ≤ low ∧ high ≤ 0xBF

theorem interrupted_of_lead? {b : Nat} {s : State} (h : lead? b = some s) : s.Interrupted := by
  unfold lead? at h
  -- one range of first bytes after the other
  repeat' split at h
  all_goals cases h
  all_goals
    simp only [State.Interrupted]
    omega

theorem interrupted_first (b : Nat) : (first b).2.Interrupted := by
  unfold first
  split
  next => trivial
  next =>
    cases hlead : lead? b with
    | none => trivial
    | some s => exact interrupted_of_lead? hlead

theorem interrupted_step (s : State) (b : Nat) : (step s b).2.Interrupted := by
  cases s with
  | start => exact interrupted_first b
  | inside more low high bits =>
    by_cases h : low ≤ b ∧ b ≤ high
    · rw [step_of_within h.1 h.2]
      cases more with
      | zero => trivial
      | succ more => exact ⟨Nat.le_refl _, Nat.le_refl _⟩
    · rw [step_of_outside h]
      exact interrupted_first b

/-- A character that is cut off by the beginning of another one is an invalid part, as at the end
    of all bytes. -/
theorem unitsFrom_interrupted {s : State} (h : s.Interrupted) (c : Char) (rest : Bytes) :
    unitsFrom s (String.utf8EncodeChar c ++ rest) =
      unitsFrom s [] ++ unitsFrom .start (String.utf8EncodeChar c ++ rest) := by
  cases s with
  | start => rfl
  | inside more low high bits =>
    obtain ⟨hlow, hhigh⟩ := h
    obtain ⟨b, bytes, hbytes, hb⟩ : ∃ b bytes, String.utf8EncodeChar c = b :: bytes ∧
        ¬ (low ≤ b.toNat ∧ b.toNat ≤ high) := by
      rcases utf8EncodeChar_cases c with ⟨hone, hbytes⟩ | ⟨b, n, _, _, hbytes, hb, -⟩
      · refine ⟨_, _, hbytes, ?_⟩
        rw [toNat_byte (by omega)]
        omega
      · exact ⟨b, _, hbytes, by omega⟩
    rw [hbytes, List.cons_append, unitsFrom_cons, step_of_outside hb, unitsFrom_cons]
    rfl

/-- Text that is valid is read as it is, whatever is before and after it. -/
theorem unitsFrom_append_encode {s : State} (h : s.Interrupted) (before after : Bytes) (c : Char)
    (t : Text) :
    unitsFrom s (before ++ (encode (c :: t) ++ after)) =
      unitsFrom s before ++ ((c :: t).map some ++ unitsFrom .start after) := by
  induction before generalizing s with
  | nil =>
    have hcons : encode (c :: t) ++ after =
        String.utf8EncodeChar c ++ (encode t ++ after) := by
      rw [encode, List.flatMap_cons, List.append_assoc]
      rfl
    rw [List.nil_append, ← unitsFrom_encode, hcons]
    exact unitsFrom_interrupted h c _
  | cons b before ih =>
    rw [List.cons_append, unitsFrom_cons, ih (interrupted_step s b.toNat), unitsFrom_cons,
      List.append_assoc]

/-- Decoding keeps text that is valid, wherever it stands. -/
theorem decodeLossy_append_encode {t : Text} (ht : t ≠ []) (before after : Bytes) :
    decodeLossy (before ++ encode t ++ after) = decodeLossy before ++ t ++ decodeLossy after := by
  obtain ⟨c, t, rfl⟩ := List.exists_cons_of_ne_nil ht
  have hstart : State.start.Interrupted := trivial
  have hkept (t : Text) : (t.map some).map (·.getD '\uFFFD') = t := by
    rw [List.map_map]
    exact List.map_id t
  rw [decodeLossy, units, List.append_assoc, unitsFrom_append_encode hstart, List.map_append,
    List.map_append, hkept, List.append_assoc]
  rfl

theorem decodeLossy_encode (t : Text) : decodeLossy (encode t) = t := by
  cases t with
  | nil => rfl
  | cons c t =>
    have h := decodeLossy_append_encode (List.cons_ne_nil c t) [] []
    simpa [decodeLossy, units, unitsFrom] using h

/-! ## ASCII characters and their bytes -/

theorem decodeLossy_append_ascii {b : UInt8} (hb : b.toNat < 0x80) (before after : Bytes) :
    decodeLossy (before ++ b :: after) =
      decodeLossy before ++ Char.ofNat b.toNat :: decodeLossy after := by
  have hvalid : b.toNat.isValidChar := Or.inl (by omega)
  have hbyte : encode [Char.ofNat b.toNat] = [b] := by
    have hval : (Char.ofNat b.toNat).val.toNat = b.toNat := toNat_ofNat_of_isValidChar hvalid
    simp only [encode, List.flatMap_singleton, String.utf8EncodeChar, hval]
    rw [if_pos (by omega), UInt8.ofNat_toNat]
  have h := decodeLossy_append_encode (List.cons_ne_nil (Char.ofNat b.toNat) []) before after
  rwa [hbyte, List.append_assoc, List.append_assoc] at h

theorem exists_first_ascii {bytes : Bytes} (h : ∃ b ∈ bytes, b.toNat < 0x80) :
    ∃ before b after, bytes = before ++ b :: after ∧ b.toNat < 0x80 ∧
      ∀ a ∈ before, ¬ a.toNat < 0x80 := by
  cases hfind : bytes.find? (·.toNat < 0x80) with
  | none =>
    obtain ⟨b, hb, hsmall⟩ := h
    exact absurd hsmall (by simpa using List.find?_eq_none.mp hfind b hb)
  | some b =>
    obtain ⟨hb, before, after, hbytes, hbefore⟩ := List.find?_eq_some_iff_append.mp hfind
    exact ⟨before, b, after, hbytes, by simpa using hb, fun a ha => by simpa using hbefore a ha⟩

/-- Where a decoded text has an ASCII character, the bytes have its byte, and what is before and
    after the one is decoded to what is before and after the other. -/
theorem exists_byte_of_decodeLossy {bytes : Bytes} {front back : Text} {c : Char}
    (hc : isAscii c = true) (h : decodeLossy bytes = front ++ c :: back) :
    ∃ before b after, bytes = before ++ b :: after ∧ b.toNat = c.toNat ∧
      decodeLossy before = front ∧ decodeLossy after = back := by
  induction hlength : bytes.length using Nat.strongRecOn generalizing bytes front with
  | ind n ih =>
    have hmem : c ∈ decodeLossy bytes := h ▸ List.mem_append_right front (List.mem_cons_self ..)
    obtain ⟨b, hb, hbyte⟩ := (mem_decodeLossy_iff hc).mp hmem
    obtain ⟨before, b, after, rfl, hsmall, hbefore⟩ :=
      exists_first_ascii ⟨b, hb, hbyte ▸ of_decide_eq_true hc⟩
    have hvalid : b.toNat.isValidChar := Or.inl (by omega)
    have hcode : (Char.ofNat b.toNat).toNat = b.toNat := toNat_ofNat_of_isValidChar hvalid
    have hnotMem : c ∉ decodeLossy before := fun hin => by
      obtain ⟨a, ha, hbyte⟩ := (mem_decodeLossy_iff hc).mp hin
      exact hbefore a ha (hbyte ▸ of_decide_eq_true hc)
    rw [decodeLossy_append_ascii hsmall] at h
    rcases List.append_eq_append_iff.mp h with ⟨mid, rfl, htail⟩ | ⟨mid, hdecoded, htail⟩
    · cases mid with
      | nil =>
        obtain ⟨rfl, hback⟩ := List.cons.inj htail
        exact ⟨before, b, after, rfl, hcode.symm, (List.append_nil _).symm, hback⟩
      | cons d mid =>
        obtain ⟨rfl, hafter⟩ := List.cons.inj htail
        have hless : after.length < n := by
          rw [← hlength, List.length_append, List.length_cons]
          omega
        obtain ⟨before', b', after', rfl, hb', rfl, hback⟩ := ih _ hless hafter rfl
        refine ⟨before ++ b :: before', b', after', by simp, hb', ?_, hback⟩
        exact decodeLossy_append_ascii hsmall before before'
    · cases mid with
      | nil =>
        obtain ⟨rfl, hback⟩ := List.cons.inj htail
        exact ⟨before, b, after, rfl, hcode.symm, hdecoded.trans (List.append_nil _), hback.symm⟩
      | cons d mid =>
        obtain ⟨rfl, -⟩ := List.cons.inj htail
        exact absurd (hdecoded ▸ List.mem_append_right front (List.mem_cons_self ..)) hnotMem

/-- The byte behind `before` is that of the ASCII character at a byte offset of the decoded text:
    there are as many ASCII bytes before the one as ASCII characters before the other. -/
def Marks (bytes before : Bytes) (offset : Nat) : Prop :=
  ∃ b after front c back, bytes = before ++ b :: after ∧ decodeLossy bytes = front ++ c :: back ∧
    Text.utf8Length front = offset ∧ isAscii c = true ∧ b.toNat = c.toNat ∧
    before.countP (·.toNat < 0x80) = front.countP isAscii

theorem flatMap_asciiByte (bytes : Bytes) :
    (bytes.flatMap fun b => asciiByte b.toNat) =
      (bytes.filter (·.toNat < 0x80)).map fun b => Char.ofNat b.toNat := by
  induction bytes with
  | nil => rfl
  | cons b bytes ih =>
    rw [List.flatMap_cons, ih, asciiByte, List.filter_cons]
    by_cases h : b.toNat < 0x80 <;> simp [h]

/-- The ASCII characters of a decoded text are the ASCII bytes, in order. -/
theorem filter_isAscii_decodeLossy (bytes : Bytes) :
    (decodeLossy bytes).filter isAscii =
      (bytes.filter (·.toNat < 0x80)).map fun b => Char.ofNat b.toNat := by
  rw [ascii_decodeLossy, flatMap_asciiByte]

theorem countP_isAscii_decodeLossy (bytes : Bytes) :
    (decodeLossy bytes).countP isAscii = bytes.countP (·.toNat < 0x80) := by
  rw [List.countP_eq_length_filter, filter_isAscii_decodeLossy, List.length_map,
    List.countP_eq_length_filter]

/-- Every ASCII character of a decoded text has a byte. -/
theorem exists_marks {bytes : Bytes} {front back : Text} {c : Char} (hc : isAscii c = true)
    (h : decodeLossy bytes = front ++ c :: back) :
    ∃ before, Marks bytes before (Text.utf8Length front) := by
  obtain ⟨before, b, after, hbytes, hb, hfront, -⟩ := exists_byte_of_decodeLossy hc h
  refine ⟨before, b, after, front, c, back, hbytes, h, rfl, hc, hb, ?_⟩
  rw [← hfront, countP_isAscii_decodeLossy]

end PostureAudit.Utf8
