import Mathlib.Data.List.Basic
import JavaRender.Text.Utf8

/-!
Decoding what was encoded. The bytes of a character announce its length and stay within the bounds
of the decoder; main statement: a text that does not begin with a mark is decoded from its bytes,
also behind a mark.
-/
namespace JavaRender.Utf8

section Bytes

variable {offset : Nat} {b : UInt8} {p : Pending} {rest : List UInt8}

theorem toNat_byte {n : Nat} (h : n < 256) : (UInt8.ofNat n).toNat = n := by
  rw [UInt8.toNat_ofNat']
  exact Nat.mod_eq_of_lt h

theorem below {k : UInt8} (h : b.toNat < k.toNat) : b < k := UInt8.lt_iff_toNat_lt.mpr h

theorem not_below {k : UInt8} (h : k.toNat ≤ b.toNat) : ¬ b < k := by
  rw [UInt8.lt_iff_toNat_lt]
  exact Nat.not_lt.mpr h

theorem decodeFrom_lead (hb : 128 ≤ b.toNat) (hlead : lead? offset b = some p) :
    decodeFrom offset (b :: rest) = resume (offset + 1) p rest := by
  rw [decodeFrom, if_neg (not_below (k := 0x80) hb), hlead]

theorem in_bounds {low high : UInt8} (hlow : low.toNat ≤ b.toNat) (hhigh : b.toNat ≤ high.toNat) :
    (decide (low ≤ b) && decide (b ≤ high)) = true := by
  rw [Bool.and_eq_true, decide_eq_true_iff, decide_eq_true_iff, UInt8.le_iff_toNat_le,
    UInt8.le_iff_toNat_le]
  exact ⟨hlow, hhigh⟩

theorem resume_more (hlow : p.low.toNat ≤ b.toNat) (hhigh : b.toNat ≤ p.high.toNat)
    (hmore : 1 < p.more) :
    resume offset p (b :: rest) = resume (offset + 1)
      ⟨p.more - 1, 64 * p.bits + (b.toNat - 0x80), 0x80, 0xBF, p.start, p.first⟩ rest := by
  rw [resume, if_pos (in_bounds hlow hhigh), if_neg (Nat.not_le.mpr hmore)]

theorem resume_last (hlow : p.low.toNat ≤ b.toNat) (hhigh : b.toNat ≤ p.high.toNat)
    (hlast : p.more ≤ 1) :
    resume offset p (b :: rest) =
      (Char.ofNat (64 * p.bits + (b.toNat - 0x80)) :: ·) <$> decodeFrom (offset + 1) rest := by
  rw [resume, if_pos (in_bounds hlow hhigh), if_pos hlast]

theorem lead_two (hlow : 0xC2 ≤ b.toNat) (hhigh : b.toNat < 0xE0) :
    lead? offset b = some ⟨1, b.toNat - 0xC0, 0x80, 0xBF, offset, b⟩ := by
  rw [lead?, if_neg (not_below (k := 0xC2) hlow), if_pos (below (k := 0xE0) hhigh)]

theorem lead_three (hlow : 0xE0 ≤ b.toNat) (hhigh : b.toNat < 0xF0) :
    lead? offset b = some ⟨2, b.toNat - 0xE0, if b = 0xE0 then 0xA0 else 0x80,
      if b = 0xED then 0x9F else 0xBF, offset, b⟩ := by
  have htwo : 0xC2 ≤ b.toNat := by omega
  rw [lead?, if_neg (not_below (k := 0xC2) htwo), if_neg (not_below (k := 0xE0) hlow),
    if_pos (below (k := 0xF0) hhigh)]

theorem lead_four (hlow : 0xF0 ≤ b.toNat) (hhigh : b.toNat < 0xF5) :
    lead? offset b = some ⟨3, b.toNat - 0xF0, if b = 0xF0 then 0x90 else 0x80,
      if b = 0xF4 then 0x8F else 0xBF, offset, b⟩ := by
  have htwo : 0xC2 ≤ b.toNat := by omega
  have hthree : 0xE0 ≤ b.toNat := by omega
  rw [lead?, if_neg (not_below (k := 0xC2) htwo), if_neg (not_below (k := 0xE0) hthree),
    if_neg (not_below (k := 0xF0) hlow), if_pos (below (k := 0xF5) hhigh)]

/-- A bound of the second byte that depends on the first one. -/
theorem toNat_bound (special low usual : UInt8) :
    (if b = special then low else usual).toNat =
      if b.toNat = special.toNat then low.toNat else usual.toNat := by
  by_cases h : b = special
  · rw [if_pos h, if_pos (congrArg UInt8.toNat h)]
  · rw [if_neg h, if_neg fun heq => h (UInt8.toNat_inj.mp heq)]

end Bytes

section Characters

variable {v : Nat} (offset : Nat) (rest : List UInt8)

theorem decodeFrom_one (hv : v ≤ 0x7F) :
    decodeFrom offset (UInt8.ofNat v :: rest) =
      (Char.ofNat v :: ·) <$> decodeFrom (offset + 1) rest := by
  have hbyte : (UInt8.ofNat v).toNat = v := toNat_byte (by omega)
  have hshort : (UInt8.ofNat v).toNat < 0x80 := by omega
  rw [decodeFrom, if_pos (below (k := 0x80) hshort), hbyte]

theorem decodeFrom_two (hlow : 0x80 ≤ v) (hhigh : v ≤ 0x7FF) :
    decodeFrom offset
        (UInt8.ofNat (v / 64 % 32 + 192) :: UInt8.ofNat (v % 64 + 128) :: rest) =
      (Char.ofNat v :: ·) <$> decodeFrom (offset + 2) rest := by
  have hfirst : (UInt8.ofNat (v / 64 % 32 + 192)).toNat = v / 64 + 192 := by
    rw [toNat_byte (by omega)]
    omega
  have hsecond : (UInt8.ofNat (v % 64 + 128)).toNat = v % 64 + 128 := toNat_byte (by omega)
  have hbits : 64 * (v / 64 + 192 - 0xC0) + (v % 64 + 128 - 0x80) = v := by omega
  rw [decodeFrom_lead (by omega) (lead_two (by omega) (by omega)), resume_last, hfirst, hsecond,
    hbits]
  · change (128 : Nat) ≤ _
    omega
  · change _ ≤ (191 : Nat)
    omega
  · exact Nat.le_refl 1

theorem decodeFrom_three (hlow : 0x800 ≤ v) (hhigh : v ≤ 0xFFFF)
    (hpair : v < 0xD800 ∨ 0xDFFF < v) :
    decodeFrom offset (UInt8.ofNat (v / 4096 % 16 + 224) :: UInt8.ofNat (v / 64 % 64 + 128) ::
        UInt8.ofNat (v % 64 + 128) :: rest) =
      (Char.ofNat v :: ·) <$> decodeFrom (offset + 3) rest := by
  have hfirst : (UInt8.ofNat (v / 4096 % 16 + 224)).toNat = v / 4096 + 224 := by
    rw [toNat_byte (by omega)]
    omega
  have hsecond : (UInt8.ofNat (v / 64 % 64 + 128)).toNat = v / 64 % 64 + 128 :=
    toNat_byte (by omega)
  have hthird : (UInt8.ofNat (v % 64 + 128)).toNat = v % 64 + 128 := toNat_byte (by omega)
  have hbits : 64 * (64 * (v / 4096 + 224 - 0xE0) + (v / 64 % 64 + 128 - 0x80)) +
      (v % 64 + 128 - 0x80) = v := by omega
  rw [decodeFrom_lead (by omega) (lead_three (by omega) (by omega)), resume_more, resume_last,
    hfirst, hsecond, hthird, hbits]
  · change (128 : Nat) ≤ _
    omega
  · change _ ≤ (191 : Nat)
    omega
  · exact Nat.le_refl 1
  · rw [toNat_bound, hfirst, hsecond]
    change (if v / 4096 + 224 = 224 then 160 else 128) ≤ _
    split <;> omega
  · rw [toNat_bound, hfirst, hsecond]
    change _ ≤ if v / 4096 + 224 = 237 then 159 else 191
    split <;> omega
  · exact Nat.lt_succ_self 1

theorem decodeFrom_four (hlow : 0x10000 ≤ v) (hhigh : v ≤ 0x10FFFF) :
    decodeFrom offset (UInt8.ofNat (v / 262144 % 8 + 240) :: UInt8.ofNat (v / 4096 % 64 + 128) ::
        UInt8.ofNat (v / 64 % 64 + 128) :: UInt8.ofNat (v % 64 + 128) :: rest) =
      (Char.ofNat v :: ·) <$> decodeFrom (offset + 4) rest := by
  have hfirst : (UInt8.ofNat (v / 262144 % 8 + 240)).toNat = v / 262144 + 240 := by
    rw [toNat_byte (by omega)]
    omega
  have hsecond : (UInt8.ofNat (v / 4096 % 64 + 128)).toNat = v / 4096 % 64 + 128 :=
    toNat_byte (by omega)
  have hthird : (UInt8.ofNat (v / 64 % 64 + 128)).toNat = v / 64 % 64 + 128 :=
    toNat_byte (by omega)
  have hfourth : (UInt8.ofNat (v % 64 + 128)).toNat = v % 64 + 128 := toNat_byte (by omega)
  have hbits : 64 * (64 * (64 * (v / 262144 + 240 - 0xF0) + (v / 4096 % 64 + 128 - 0x80)) +
      (v / 64 % 64 + 128 - 0x80)) + (v % 64 + 128 - 0x80) = v := by omega
  rw [decodeFrom_lead (by omega) (lead_four (by omega) (by omega)), resume_more, resume_more,
    resume_last, hfirst, hsecond, hthird, hfourth, hbits]
  · change (128 : Nat) ≤ _
    omega
  · change _ ≤ (191 : Nat)
    omega
  · exact Nat.le_refl 1
  · change (128 : Nat) ≤ _
    omega
  · change _ ≤ (191 : Nat)
    omega
  · exact Nat.lt_succ_self 1
  · rw [toNat_bound, hfirst, hsecond]
    change (if v / 262144 + 240 = 240 then 144 else 128) ≤ _
    split <;> omega
  · rw [toNat_bound, hfirst, hsecond]
    change _ ≤ if v / 262144 + 240 = 244 then 143 else 191
    split <;> omega
  · exact Nat.lt_succ_of_lt (Nat.lt_succ_self 1)

/-- The bytes of a character are decoded to the character. -/
theorem decodeFrom_character (c : Char) :
    decodeFrom offset (String.utf8EncodeChar c ++ rest) =
      (c :: ·) <$> decodeFrom (offset + (String.utf8EncodeChar c).length) rest := by
  have hchar : Char.ofNat c.val.toNat = c := Char.ofNat_toNat c
  have hvalid : c.val.toNat < 0xD800 ∨ 0xDFFF < c.val.toNat ∧ c.val.toNat < 0x110000 := c.valid
  unfold String.utf8EncodeChar
  dsimp only
  by_cases hone : c.val.toNat ≤ 0x7F
  · rw [if_pos hone]
    have hread := decodeFrom_one offset rest hone
    rw [hchar] at hread
    exact hread
  rw [if_neg hone]
  by_cases htwo : c.val.toNat ≤ 0x7FF
  · rw [if_pos htwo]
    have hread := decodeFrom_two offset rest (by omega) htwo
    rw [hchar] at hread
    exact hread
  rw [if_neg htwo]
  by_cases hthree : c.val.toNat ≤ 0xFFFF
  · rw [if_pos hthree]
    have hread := decodeFrom_three offset rest (by omega) hthree (by omega)
    rw [hchar] at hread
    exact hread
  · rw [if_neg hthree]
    have hread := decodeFrom_four (v := c.val.toNat) offset rest (by omega) (by omega)
    rw [hchar] at hread
    exact hread

end Characters

theorem decodeFrom_encode (cs : List Char) (offset : Nat) :
    decodeFrom offset (encode cs) = .ok cs := by
  induction cs generalizing offset with
  | nil => rfl
  | cons c rest ih =>
    have hcons : encode (c :: rest) = String.utf8EncodeChar c ++ encode rest :=
      List.flatMap_cons
    rw [hcons, decodeFrom_character, ih]
    rfl

/-- Encoding loses nothing. -/
theorem decode_encode (cs : List Char) : decode (encode cs) = .ok cs := decodeFrom_encode cs 0

/-- A mark in front of the bytes of a text is the bytes of one more character. -/
theorem head_of_mark {cs : List Char} (h : mark.isPrefixOf (encode cs) = true) :
    cs.head? = some '\ufeff' := by
  obtain ⟨rest, hrest⟩ := List.isPrefixOf_iff_prefix.mp h
  have hdecode : decode (mark ++ rest) = .ok cs := by rw [hrest, decode_encode]
  have hmark : decode (mark ++ rest) = ('\ufeff' :: ·) <$> decodeFrom 3 rest := rfl
  rw [hmark] at hdecode
  cases hafter : decodeFrom 3 rest with
  | error e =>
    rw [hafter] at hdecode
    cases hdecode
  | ok others =>
    rw [hafter] at hdecode
    cases hdecode
    rfl

/-- Fewer bytes than a mark has are a text only if there are none. -/
theorem nil_of_short {cs : List Char} (hlength : (encode cs).length < 3)
    (h : (encode cs).isPrefixOf mark = true) : cs = [] := by
  have hdecode := decode_encode cs
  obtain ⟨rest, hrest⟩ := List.isPrefixOf_iff_prefix.mp h
  rcases hbytes : encode cs with _ | ⟨b, _ | ⟨b', _ | ⟨b'', others⟩⟩⟩
  · rw [hbytes] at hdecode
    cases hdecode
    rfl
  · rw [hbytes] at hrest hdecode
    cases hrest
    cases hdecode
  · rw [hbytes] at hrest hdecode
    cases hrest
    cases hdecode
  · rw [hbytes] at hlength
    simp at hlength
    omega

/-- A file with the bytes of a text holds the text, whether or not a mark stands in front of it. -/
theorem decodeMarked_encode {cs : List Char} (h : cs.head? ≠ some '\ufeff') (marked : Bool) :
    decodeMarked ((if marked then mark else []) ++ encode cs) = .ok cs := by
  cases marked with
  | true => exact decode_encode cs
  | false =>
    rw [if_neg Bool.false_ne_true, List.nil_append, decodeMarked]
    by_cases hshort : ((encode cs).length < 3 && (encode cs).isPrefixOf mark) = true
    · rw [if_pos hshort]
      obtain ⟨hlength, hprefix⟩ := Bool.and_eq_true_iff.mp hshort
      rw [nil_of_short (of_decide_eq_true hlength) hprefix]
    · rw [if_neg hshort, if_neg fun hmark => h (head_of_mark hmark), decode_encode]

end JavaRender.Utf8
