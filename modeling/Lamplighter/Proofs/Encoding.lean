import Lamplighter.Proofs.BrokenOff

/-! # Texts as bytes

Every text has bytes from which it is read again. The first byte of a character carries its highest bits
and says how many bytes follow, each with six bits more. The reader narrows the range of the second byte
behind some first bytes; what it rules out there are the overlong forms, the surrogates and the numbers
past the last code point, and no character is any of these.
-/

namespace Lamplighter.Text.Utf8

def encode (text : Text) : List UInt8 := text.flatMap String.utf8EncodeChar

private theorem toNat_ofNat {n : Nat} (small : n < 256) : (UInt8.ofNat n).toNat = n :=
  UInt8.toNat_ofNat_of_lt' small

section Bytes

variable {pos : Nat} {done : Text} {rest : List UInt8} {begun : Begun}

theorem decodeFrom_lead {lead : Nat} (high : 0x80 ≤ lead) (small : lead < 256)
    (opened : Begun.ofLead? (UInt8.ofNat lead) pos = some begun) :
    decodeFrom pos done none (UInt8.ofNat lead :: rest) = decodeFrom (pos + 1) done (some begun) rest := by
  rw [decodeFrom, toNat_ofNat small, if_neg (by omega), opened]

theorem decodeFrom_last {bits : Nat} (owed : begun.owed = 1) (six : bits < 64)
    (within : begun.low ≤ bits + 128 ∧ bits + 128 ≤ begun.high) :
    decodeFrom pos done (some begun) (UInt8.ofNat (bits + 128) :: rest) =
      decodeFrom (pos + 1) (Char.ofNat (begun.bits * 64 + bits) :: done) none rest := by
  rw [decodeFrom, toNat_ofNat (by omega), if_pos within, Nat.add_sub_cancel]
  exact if_pos owed

theorem decodeFrom_more {bits : Nat} (owed : begun.owed ≠ 1) (six : bits < 64)
    (within : begun.low ≤ bits + 128 ∧ bits + 128 ≤ begun.high) :
    decodeFrom pos done (some begun) (UInt8.ofNat (bits + 128) :: rest) =
      decodeFrom (pos + 1) done (some { begun with
        bits := begun.bits * 64 + bits, owed := begun.owed - 1, low := 0x80, high := 0xbf }) rest := by
  rw [decodeFrom, toNat_ofNat (by omega), if_pos within, Nat.add_sub_cancel]
  exact if_neg owed

theorem ofLead?_two {bits : Nat} (least : 2 ≤ bits) (most : bits < 32) :
    Begun.ofLead? (UInt8.ofNat (bits + 192)) pos =
      some ⟨UInt8.ofNat (bits + 192), pos, bits, 1, 0x80, 0xbf⟩ := by
  simp only [Begun.ofLead?, toNat_ofNat (show bits + 192 < 256 by omega), Nat.add_sub_cancel]
  exact if_pos (by omega)

theorem ofLead?_three {bits : Nat} (most : bits < 16) :
    Begun.ofLead? (UInt8.ofNat (bits + 224)) pos = some ⟨UInt8.ofNat (bits + 224), pos, bits, 2,
      if bits = 0 then 0xa0 else 0x80, if bits = 0xd then 0x9f else 0xbf⟩ := by
  simp only [Begun.ofLead?, toNat_ofNat (show bits + 224 < 256 by omega), Nat.add_sub_cancel]
  rw [if_neg (by omega)]
  split_ifs <;> simp_all <;> omega

theorem ofLead?_four {bits : Nat} (most : bits ≤ 4) :
    Begun.ofLead? (UInt8.ofNat (bits + 240)) pos = some ⟨UInt8.ofNat (bits + 240), pos, bits, 3,
      if bits = 0 then 0x90 else 0x80, if bits = 4 then 0x8f else 0xbf⟩ := by
  simp only [Begun.ofLead?, toNat_ofNat (show bits + 240 < 256 by omega), Nat.add_sub_cancel]
  rw [if_neg (by omega), if_neg (by omega), if_neg (by omega), if_neg (by omega)]
  split_ifs
  all_goals simp_all
  omega

theorem decodeFrom_two {first second : Nat} (least : 2 ≤ first) (most : first < 32) (six : second < 64) :
    decodeFrom pos done none (UInt8.ofNat (first + 192) :: UInt8.ofNat (second + 128) :: rest) =
      decodeFrom (pos + 2) (Char.ofNat (first * 64 + second) :: done) none rest := by
  rw [decodeFrom_lead (by omega) (by omega) (ofLead?_two least most),
    decodeFrom_last rfl six ⟨by simp, by simp only; omega⟩]

theorem decodeFrom_three {first second third : Nat} (most : first < 16) (six : second < 64)
    (last : third < 64) (long : first = 0 → 0x20 ≤ second) (unpaired : first = 0xd → second < 0x20) :
    decodeFrom pos done none
        (UInt8.ofNat (first + 224) :: UInt8.ofNat (second + 128) :: UInt8.ofNat (third + 128) :: rest) =
      decodeFrom (pos + 3) (Char.ofNat ((first * 64 + second) * 64 + third) :: done) none rest := by
  rw [decodeFrom_lead (by omega) (by omega) (ofLead?_three most), decodeFrom_more (by simp) six,
    decodeFrom_last rfl last]
  · simp only
    omega
  · simp only
    split_ifs <;> omega

theorem decodeFrom_four {first second third fourth : Nat} (most : first ≤ 4) (six : second < 64)
    (middle : third < 64) (last : fourth < 64) (long : first = 0 → 0x10 ≤ second)
    (coded : first = 4 → second < 0x10) :
    decodeFrom pos done none (UInt8.ofNat (first + 240) :: UInt8.ofNat (second + 128) ::
        UInt8.ofNat (third + 128) :: UInt8.ofNat (fourth + 128) :: rest) =
      decodeFrom (pos + 4) (Char.ofNat (((first * 64 + second) * 64 + third) * 64 + fourth) :: done) none
        rest := by
  rw [decodeFrom_lead (by omega) (by omega) (ofLead?_four most), decodeFrom_more (by simp) six,
    decodeFrom_more (by simp) middle, decodeFrom_last rfl last]
  · simp only
    omega
  · simp only
    omega
  · simp only
    split_ifs <;> omega

end Bytes

/-- The bytes of one character are read as that character. -/
theorem decodeFrom_char (pos : Nat) (done : Text) (c : Char) (rest : List UInt8) :
    ∃ next, decodeFrom pos done none (String.utf8EncodeChar c ++ rest) =
      decodeFrom next (c :: done) none rest := by
  have valid : c.toNat < 0xd800 ∨ 0xdfff < c.toNat ∧ c.toNat < 0x110000 := c.valid
  have back : Char.ofNat c.toNat = c := Char.ofNat_toNat c
  rw [String.utf8EncodeChar, show c.val.toNat = c.toNat from rfl]
  generalize c.toNat = point at valid back
  subst back
  -- The cases are those of the writer, by the number of bytes; the code point is put together again.
  split_ifs with one two three <;> simp only [List.cons_append, List.nil_append]
  · refine ⟨pos + 1, ?_⟩
    rw [decodeFrom, toNat_ofNat (by omega), if_pos (by omega)]
  · refine ⟨pos + 2, ?_⟩
    rw [decodeFrom_two (by omega) (by omega) (by omega),
      show point / 64 % 32 * 64 + point % 64 = point by omega]
  · refine ⟨pos + 3, ?_⟩
    rw [decodeFrom_three (by omega) (by omega) (by omega) (by omega) (by omega),
      show (point / 4096 % 16 * 64 + point / 64 % 64) * 64 + point % 64 = point by omega]
  · refine ⟨pos + 4, ?_⟩
    rw [decodeFrom_four (by omega) (by omega) (by omega) (by omega) (by omega) (by omega),
      show ((point / 262144 % 8 * 64 + point / 4096 % 64) * 64 + point / 64 % 64) * 64 + point % 64 =
        point by omega]

theorem decodeFrom_encode (pos : Nat) (done text : Text) :
    decodeFrom pos done none (encode text) = .ok (done.reverse ++ text) := by
  induction text generalizing pos done with
  | nil => simp [encode, decodeFrom]
  | cons c rest ih =>
    obtain ⟨next, read⟩ := decodeFrom_char pos done c (encode rest)
    rw [encode, List.flatMap_cons, ← encode, read, ih, List.reverse_cons, List.append_assoc,
      List.singleton_append]

/-- A text is read from its bytes. -/
theorem decode_encode (text : Text) : decode (encode text) = .ok text := decodeFrom_encode 0 [] text

end Lamplighter.Text.Utf8

namespace Lamplighter.CommandLine

/-- A file with the bytes of a text. -/
def Stores (files : Files) (path : Path) (text : Text) : Prop := files path = .ok (Text.Utf8.encode text)

theorem Stores.holds {files : Files} {path : Path} {text : Text} (stored : Stores files path text) :
    Holds files path (Text.unifyNewlines text) :=
  ⟨_, text, stored, Text.Utf8.decode_encode text, rfl⟩

end Lamplighter.CommandLine
