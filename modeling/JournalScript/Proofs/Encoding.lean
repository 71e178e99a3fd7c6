import JournalScript.Host

/-!
# JournalScript.Proofs.Encoding

Every encoding reads back what it writes.

* `Utf8.next_encodeChar`: the bytes of one character, with anything behind them, are read as that
  character.
* `Utf8.encodeChar_of_next`: a character is read from its own bytes and from no others.
* `Utf8.decode_eq_ok_iff`: so bytes in UTF-8 are those of the text that is read from them.
* `Encoding.decode_encode`: a text that can be encoded is decoded from its bytes; the same holds of
  the codec of the encoding (`Encoding.decode_encode_codec`).
-/

namespace JournalScript

theorem mapError_eq_ok_iff {ε ε' α : Type} {f : ε → ε'} {x : Except ε α} {a : α} :
    x.mapError f = .ok a ↔ x = .ok a := by
  cases x with
  | error e => exact ⟨nofun, nofun⟩
  | ok b =>
    constructor
    · intro h
      cases h
      rfl
    · intro h
      cases h
      rfl

namespace Utf8

/-! ## One character -/

theorem toNat_byte {n : Nat} (h : n < 256) : (UInt8.ofNat n).toNat = n := by
  simp [UInt8.toNat_ofNat', Nat.mod_eq_of_lt h]

theorem isContinuation_tail (n : Nat) : isContinuation (UInt8.ofNat (n % 64 + 128)) = true := by
  simp [isContinuation, UInt8.le_iff_toNat_le]
  omega

theorem bits_tail (n : Nat) : bits (UInt8.ofNat (n % 64 + 128)) = n % 64 := by
  rw [bits, toNat_byte (by omega)]
  omega

/-- A second byte is admitted unless one of the four special first bytes rules it out. -/
theorem isSecond_tail {a n : Nat} (ha : a < 256) (hoverlong : a = 0xE0 → 32 ≤ n % 64)
    (hsurrogate : a = 0xED → n % 64 < 32) (hoverlong' : a = 0xF0 → 16 ≤ n % 64)
    (hbeyond : a = 0xF4 → n % 64 < 16) :
    isSecond (UInt8.ofNat a) (UInt8.ofNat (n % 64 + 128)) = true := by
  simp only [isSecond, isContinuation_tail, Bool.true_and, ← UInt8.toNat_inj, toNat_byte ha]
  split
  · rename_i h
    have := hoverlong h
    simp [UInt8.le_iff_toNat_le]; omega
  split
  · rename_i h
    have := hsurrogate h
    simp [UInt8.le_iff_toNat_le]; omega
  split
  · rename_i h
    have := hoverlong' h
    simp [UInt8.le_iff_toNat_le]; omega
  split
  · rename_i h
    have := hbeyond h
    simp [UInt8.le_iff_toNat_le]; omega
  · rfl

section Forms

variable {v : Nat} (rest : Bytes)

theorem next_one (h : v < 0x80) : next (UInt8.ofNat v) rest = .ok (Char.ofNat v, 0) := by
  have h80 : UInt8.ofNat v < 0x80 := by simp [UInt8.lt_iff_toNat_lt]; omega
  rw [next.eq_def, if_pos h80, toNat_byte (by omega)]

theorem next_two (h : 0x80 ≤ v) (h' : v < 0x800) :
    next (UInt8.ofNat (v / 64 % 32 + 192)) (UInt8.ofNat (v % 64 + 128) :: rest) =
      .ok (Char.ofNat v, 1) := by
  have h80 : ¬ UInt8.ofNat (v / 64 % 32 + 192) < 0x80 := by
    simp [UInt8.lt_iff_toNat_lt]; omega
  have hC2 : ¬ UInt8.ofNat (v / 64 % 32 + 192) < 0xC2 := by
    simp [UInt8.lt_iff_toNat_lt]; omega
  have hE0 : UInt8.ofNat (v / 64 % 32 + 192) < 0xE0 := by
    simp [UInt8.lt_iff_toNat_lt]; omega
  have hvalue : (v / 64 % 32 + 192) % 32 * 64 + v % 64 = v := by omega
  rw [next.eq_def, if_neg h80, if_neg hC2, if_pos hE0, toNat_byte (by omega)]
  simp only [isContinuation_tail, bits_tail, hvalue, if_true]

theorem next_three (h : 0x800 ≤ v) (h' : v < 0x10000) (hs : v < 0xD800 ∨ 0xDFFF < v) :
    next (UInt8.ofNat (v / 4096 % 16 + 224))
        (UInt8.ofNat (v / 64 % 64 + 128) :: UInt8.ofNat (v % 64 + 128) :: rest) =
      .ok (Char.ofNat v, 2) := by
  have h80 : ¬ UInt8.ofNat (v / 4096 % 16 + 224) < 0x80 := by
    simp [UInt8.lt_iff_toNat_lt]; omega
  have hC2 : ¬ UInt8.ofNat (v / 4096 % 16 + 224) < 0xC2 := by
    simp [UInt8.lt_iff_toNat_lt]; omega
  have hE0 : ¬ UInt8.ofNat (v / 4096 % 16 + 224) < 0xE0 := by
    simp [UInt8.lt_iff_toNat_lt]; omega
  have hF0 : UInt8.ofNat (v / 4096 % 16 + 224) < 0xF0 := by
    simp [UInt8.lt_iff_toNat_lt]; omega
  have hsecond : isSecond (UInt8.ofNat (v / 4096 % 16 + 224)) (UInt8.ofNat (v / 64 % 64 + 128)) =
      true := isSecond_tail (by omega) (by omega) (by omega) (by omega) (by omega)
  have hvalue : ((v / 4096 % 16 + 224) % 16 * 64 + v / 64 % 64) * 64 + v % 64 = v := by omega
  rw [next.eq_def, if_neg h80, if_neg hC2, if_neg hE0, if_pos hF0, toNat_byte (by omega)]
  simp only [hsecond, isContinuation_tail, bits_tail, hvalue, if_true]

theorem next_four (h : 0x10000 ≤ v) (h' : v < 0x110000) :
    next (UInt8.ofNat (v / 262144 % 8 + 240))
        (UInt8.ofNat (v / 4096 % 64 + 128) :: UInt8.ofNat (v / 64 % 64 + 128) ::
          UInt8.ofNat (v % 64 + 128) :: rest) =
      .ok (Char.ofNat v, 3) := by
  have h80 : ¬ UInt8.ofNat (v / 262144 % 8 + 240) < 0x80 := by
    simp [UInt8.lt_iff_toNat_lt]; omega
  have hC2 : ¬ UInt8.ofNat (v / 262144 % 8 + 240) < 0xC2 := by
    simp [UInt8.lt_iff_toNat_lt]; omega
  have hE0 : ¬ UInt8.ofNat (v / 262144 % 8 + 240) < 0xE0 := by
    simp [UInt8.lt_iff_toNat_lt]; omega
  have hF0 : ¬ UInt8.ofNat (v / 262144 % 8 + 240) < 0xF0 := by
    simp [UInt8.lt_iff_toNat_lt]; omega
  have hF5 : UInt8.ofNat (v / 262144 % 8 + 240) < 0xF5 := by
    simp [UInt8.lt_iff_toNat_lt]; omega
  have hsecond : isSecond (UInt8.ofNat (v / 262144 % 8 + 240))
      (UInt8.ofNat (v / 4096 % 64 + 128)) = true :=
    isSecond_tail (by omega) (by omega) (by omega) (by omega) (by omega)
  have hvalue : (((v / 262144 % 8 + 240) % 8 * 64 + v / 4096 % 64) * 64 + v / 64 % 64) * 64 +
      v % 64 = v := by omega
  rw [next.eq_def, if_neg h80, if_neg hC2, if_neg hE0, if_neg hF0, if_pos hF5, toNat_byte (by omega)]
  simp only [hsecond, isContinuation_tail, bits_tail, hvalue, if_true]

end Forms

theorem toNat_valid (c : Char) :
    c.toNat < 0xD800 ∨ (0xDFFF < c.toNat ∧ c.toNat < 0x110000) := c.valid

theorem encodeChar_eq (c : Char) : String.utf8EncodeChar c =
    if c.toNat ≤ 127 then [UInt8.ofNat c.toNat]
    else if c.toNat ≤ 2047 then
      [UInt8.ofNat (c.toNat / 64 % 32 + 192), UInt8.ofNat (c.toNat % 64 + 128)]
    else if c.toNat ≤ 65535 then
      [UInt8.ofNat (c.toNat / 4096 % 16 + 224), UInt8.ofNat (c.toNat / 64 % 64 + 128),
        UInt8.ofNat (c.toNat % 64 + 128)]
    else
      [UInt8.ofNat (c.toNat / 262144 % 8 + 240), UInt8.ofNat (c.toNat / 4096 % 64 + 128),
        UInt8.ofNat (c.toNat / 64 % 64 + 128), UInt8.ofNat (c.toNat % 64 + 128)] := rfl

theorem next_encodeChar (c : Char) :
    ∃ b tail, String.utf8EncodeChar c = b :: tail ∧
      ∀ rest, next b (tail ++ rest) = .ok (c, tail.length) := by
  have hc : Char.ofNat c.toNat = c := Char.ofNat_toNat c
  have hvalid := toNat_valid c
  rw [encodeChar_eq]
  split
  · refine ⟨_, [], rfl, fun rest => ?_⟩
    rw [List.nil_append, next_one rest (by omega), hc]; rfl
  split
  · refine ⟨_, [_], rfl, fun rest => ?_⟩
    rw [List.cons_append, List.nil_append, next_two rest (by omega) (by omega), hc]; rfl
  split
  · refine ⟨_, [_, _], rfl, fun rest => ?_⟩
    rw [List.cons_append, List.cons_append, List.nil_append,
      next_three rest (by omega) (by omega) (by omega), hc]; rfl
  · refine ⟨_, [_, _, _], rfl, fun rest => ?_⟩
    rw [List.cons_append, List.cons_append, List.cons_append, List.nil_append,
      next_four rest (by omega) (by omega), hc]; rfl

/-! ## The bytes of a character that was read -/

theorem ofNat_eq {b : UInt8} {n : Nat} (h : n = b.toNat) : UInt8.ofNat n = b := by
  rw [h, UInt8.ofNat_toNat]

theorem toNat_char {v : Nat} (h : v < 0xD800 ∨ (0xDFFF < v ∧ v < 0x110000)) :
    (Char.ofNat v).toNat = v := by
  have hv : v.isValidChar := h
  rw [Char.ofNat, dif_pos hv]
  exact UInt32.toNat_ofNatLT

theorem range_of_isContinuation {b : UInt8} (h : isContinuation b = true) :
    0x80 ≤ b.toNat ∧ b.toNat < 0xC0 := by
  simp [isContinuation, UInt8.le_iff_toNat_le] at h
  omega

/-- What a second byte is restricted to by the first one. -/
theorem range_of_isSecond {a b : UInt8} (h : isSecond a b = true) :
    (0x80 ≤ b.toNat ∧ b.toNat < 0xC0) ∧ (a.toNat = 0xE0 → 0xA0 ≤ b.toNat) ∧
      (a.toNat = 0xED → b.toNat < 0xA0) ∧ (a.toNat = 0xF0 → 0x90 ≤ b.toNat) ∧
      (a.toNat = 0xF4 → b.toNat < 0x90) := by
  simp only [isSecond, Bool.and_eq_true] at h
  obtain ⟨hcont, hspecial⟩ := h
  refine ⟨range_of_isContinuation hcont, ?_⟩
  have hE0 : a = 0xE0 ↔ a.toNat = 0xE0 := UInt8.toNat_inj.symm
  have hED : a = 0xED ↔ a.toNat = 0xED := UInt8.toNat_inj.symm
  have hF0 : a = 0xF0 ↔ a.toNat = 0xF0 := UInt8.toNat_inj.symm
  have hF4 : a = 0xF4 ↔ a.toNat = 0xF4 := UInt8.toNat_inj.symm
  simp only [hE0, hED, hF0, hF4] at hspecial
  split at hspecial
  · simp [UInt8.le_iff_toNat_le] at hspecial; omega
  split at hspecial
  · simp [UInt8.le_iff_toNat_le] at hspecial; omega
  split at hspecial
  · simp [UInt8.le_iff_toNat_le] at hspecial; omega
  split at hspecial
  · simp [UInt8.le_iff_toNat_le] at hspecial; omega
  · omega

section Read

variable {a b c d : UInt8}

theorem encodeChar_one (ha : a.toNat < 0x80) :
    String.utf8EncodeChar (Char.ofNat a.toNat) = [a] := by
  rw [encodeChar_eq, toNat_char (by omega), if_pos (by omega), UInt8.ofNat_toNat]

theorem encodeChar_two (ha : 0xC2 ≤ a.toNat) (ha' : a.toNat < 0xE0)
    (hb : isContinuation b = true) :
    String.utf8EncodeChar (Char.ofNat (a.toNat % 32 * 64 + bits b)) = [a, b] := by
  have hb := range_of_isContinuation hb
  rw [bits, encodeChar_eq, toNat_char (by omega), if_neg (by omega), if_pos (by omega)]
  rw [ofNat_eq (b := a) (by omega), ofNat_eq (b := b) (by omega)]

theorem encodeChar_three (ha : 0xE0 ≤ a.toNat) (ha' : a.toNat < 0xF0)
    (hb : isSecond a b = true) (hc : isContinuation c = true) :
    String.utf8EncodeChar (Char.ofNat ((a.toNat % 16 * 64 + bits b) * 64 + bits c)) =
      [a, b, c] := by
  have hb := range_of_isSecond hb
  have hc := range_of_isContinuation hc
  rw [bits, bits, encodeChar_eq, toNat_char (by omega), if_neg (by omega), if_neg (by omega),
    if_pos (by omega)]
  rw [ofNat_eq (b := a) (by omega), ofNat_eq (b := b) (by omega), ofNat_eq (b := c) (by omega)]

theorem encodeChar_four (ha : 0xF0 ≤ a.toNat) (ha' : a.toNat < 0xF5)
    (hb : isSecond a b = true) (hc : isContinuation c = true) (hd : isContinuation d = true) :
    String.utf8EncodeChar
      (Char.ofNat (((a.toNat % 8 * 64 + bits b) * 64 + bits c) * 64 + bits d)) = [a, b, c, d] := by
  have hb := range_of_isSecond hb
  have hc := range_of_isContinuation hc
  have hd := range_of_isContinuation hd
  rw [bits, bits, bits, encodeChar_eq, toNat_char (by omega), if_neg (by omega),
    if_neg (by omega), if_neg (by omega)]
  rw [ofNat_eq (b := a) (by omega), ofNat_eq (b := b) (by omega), ofNat_eq (b := c) (by omega),
    ofNat_eq (b := d) (by omega)]

end Read

theorem encodeChar_of_next {b : UInt8} {rest : Bytes} {c : Char} {more : Nat}
    (h : next b rest = .ok (c, more)) : String.utf8EncodeChar c = b :: rest.take more := by
  unfold next at h
  simp only [UInt8.lt_iff_toNat_lt] at h
  split at h
  · rename_i h1
    cases h
    exact encodeChar_one h1
  split at h
  · cases h
  rename_i hC2
  split at h
  · rename_i hE0
    split at h
    · cases h
    split at h
    · rename_i hcont
      cases h
      exact encodeChar_two (Nat.le_of_not_lt hC2) hE0 hcont
    · cases h
  rename_i hE0
  split at h
  · rename_i hF0
    split at h
    · cases h
    split at h
    · rename_i hsecond
      split at h
      · cases h
      split at h
      · rename_i hcont
        cases h
        exact encodeChar_three (Nat.le_of_not_lt hE0) hF0 hsecond hcont
      · cases h
    · cases h
  rename_i hF0
  split at h
  · rename_i hF5
    split at h
    · cases h
    split at h
    · rename_i hsecond
      split at h
      · cases h
      split at h
      · rename_i hthird
        split at h
        · cases h
        split at h
        · rename_i hfourth
          cases h
          exact encodeChar_four (Nat.le_of_not_lt hF0) hF5 hsecond hthird hfourth
        · cases h
      · cases h
    · cases h
  · cases h

/-! ## Texts -/

theorem decodeFrom_skip (done : Text) (tail rest : Bytes) :
    ∀ pos, decodeFrom pos tail.length done (tail ++ rest) =
      decodeFrom (pos + tail.length) 0 done rest := by
  induction tail with
  | nil => intro pos; rfl
  | cons b tail ih =>
    intro pos
    rw [List.length_cons, List.cons_append, decodeFrom, ih (pos + 1), Nat.add_assoc,
      Nat.add_comm 1]

theorem decodeFrom_encode (t : Text) : ∀ (pos : Nat) (done : Text),
    decodeFrom pos 0 done (encode t) = .ok (done.reverse ++ t) := by
  induction t with
  | nil => intro pos done; simp [encode, decodeFrom]
  | cons c t ih =>
    intro pos done
    obtain ⟨b, tail, hbytes, hnext⟩ := next_encodeChar c
    have hsplit : encode (c :: t) = b :: (tail ++ encode t) := by
      rw [encode, List.flatMap_cons, hbytes]; rfl
    rw [hsplit, decodeFrom, hnext]
    simp only
    rw [decodeFrom_skip, ih, List.reverse_cons, List.append_assoc]
    rfl

theorem decode_encode (t : Text) : decode (encode t) = .ok t := decodeFrom_encode t 0 []

/-- By induction on the bytes: of the last character some are still to be passed, and the text that
is read behind them is encoded as what is left. -/
theorem encode_of_decodeFrom {text : Text} (bs : Bytes) : ∀ {pos skip : Nat} {done : Text},
    decodeFrom pos skip done bs = .ok text →
      ∃ new, text = done.reverse ++ new ∧ encode new = bs.drop skip := by
  induction bs with
  | nil =>
    intro pos skip done h
    rw [decodeFrom] at h
    cases h
    exact ⟨[], by simp, by simp [encode]⟩
  | cons b rest ih =>
    intro pos skip done h
    cases skip with
    | succ skip =>
      rw [decodeFrom] at h
      simpa using ih h
    | zero =>
      rw [decodeFrom] at h
      split at h
      · rename_i c more hnext
        obtain ⟨new, rfl, hnew⟩ := ih h
        refine ⟨c :: new, by simp, ?_⟩
        calc encode (c :: new) = String.utf8EncodeChar c ++ encode new := List.flatMap_cons
          _ = b :: (rest.take more ++ rest.drop more) := by
            rw [encodeChar_of_next hnext, hnew, List.cons_append]
          _ = b :: rest := by rw [List.take_append_drop]
      · cases h

/-- Bytes are decoded to the one text that is encoded as them. -/
theorem decode_eq_ok_iff {bs : Bytes} {text : Text} : decode bs = .ok text ↔ encode text = bs := by
  constructor
  · intro h
    obtain ⟨new, rfl, hnew⟩ := encode_of_decodeFrom bs h
    simpa using hnew
  · rintro rfl
    exact decode_encode text

theorem decodeMarked_encode (t : Text) : decodeMarked (mark ++ encode t) = .ok t := by
  have hmark : mark.isPrefixOf (mark ++ encode t) = true := by simp
  rw [decodeMarked, if_pos hmark]
  exact decode_encode t

end Utf8

namespace SingleByte

/-- What is encoded behind `done` is decoded behind it, provided that every number below the limit
fits in a byte. -/
theorem decodeFrom_of_encodeFrom {limit : Nat} (hlimit : limit ≤ 256) (t : Text) :
    ∀ (pos pos' : Nat) (done : Bytes) (read : Text) (bs : Bytes),
      encodeFrom limit pos done t = .ok bs →
      ∃ new, bs = done.reverse ++ new ∧ decodeFrom limit pos' read new = .ok (read.reverse ++ t) := by
  induction t with
  | nil =>
    intro pos pos' done read bs h
    simp only [encodeFrom, Except.ok.injEq] at h
    exact ⟨[], by simp [h], by simp [decodeFrom]⟩
  | cons c t ih =>
    intro pos pos' done read bs h
    rw [encodeFrom] at h
    split at h
    · rename_i hc
      obtain ⟨new, rfl, hnew⟩ := ih (pos + 1) (pos' + 1) _ (c :: read) bs h
      refine ⟨UInt8.ofNat c.toNat :: new, by simp, ?_⟩
      rw [decodeFrom, Utf8.toNat_byte (by omega), if_pos hc, Char.ofNat_toNat, hnew]
      simp
    · cases h

theorem decode_of_encode {limit : Nat} (hlimit : limit ≤ 256) {t : Text} {bs : Bytes}
    (h : encodeFrom limit 0 [] t = .ok bs) : decodeFrom limit 0 [] bs = .ok t := by
  obtain ⟨new, rfl, hnew⟩ := decodeFrom_of_encodeFrom hlimit t 0 0 [] [] bs h
  exact hnew

end SingleByte

namespace Encoding

/-- Decoding inverts encoding; the byte-order mark is put in front and taken off again. -/
theorem decode_encode {codec : Encoding} {t : Text} {bs : Bytes} (h : codec.encode t = .ok bs) :
    codec.decode bs = .ok t := by
  cases codec with
  | utf8 => cases h; exact Utf8.decode_encode t
  | utf8Marked => cases h; exact Utf8.decodeMarked_encode t
  | latin1 => exact SingleByte.decode_of_encode (by decide) h
  | ascii => exact SingleByte.decode_of_encode (by decide) h

variable {own : Encoding} {t : Text} {bs : Bytes}

theorem encode_codec_eq_ok_iff : own.codec.encode t = .ok bs ↔ own.encode t = .ok bs :=
  mapError_eq_ok_iff

theorem decode_codec_eq_ok_iff : own.codec.decode bs = .ok t ↔ own.decode bs = .ok t :=
  mapError_eq_ok_iff

theorem encode_utf8_codec (t : Text) : utf8.codec.encode t = .ok (Utf8.encode t) := rfl

theorem decode_encode_codec (h : own.codec.encode t = .ok bs) : own.codec.decode bs = .ok t :=
  decode_codec_eq_ok_iff.mpr (decode_encode (encode_codec_eq_ok_iff.mp h))

end Encoding
end JournalScript
