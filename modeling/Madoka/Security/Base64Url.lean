import Madoka.Core.Config

/-!
# Base64 URL

The unpadded base64url text of `security/invite.cpp`: both loops keep a
32-bit shift register and the number of its low bits not yet written. The
round trip goes three bytes (four characters) at a time, because the bit
count is zero again after each such group; what the register holds above
the pending bits is never read.
-/

namespace Madoka

open Octets

def base64Alphabet : Bytes :=
  ascii "ABCDEFGHIJKLMNOPQRSTUVWXYZabcdefghijklmnopqrstuvwxyz0123456789-_"

/-- `alphabet[v & 63]` -/
def base64Char (v : Nat) : UInt8 :=
  base64Alphabet.getD (v % 64) 0

/-- The inner loop of the encoder: one character for every six bits. -/
def encodeBits (buffer : Nat) : Nat → Bytes × Nat
  | bits + 6 =>
      let rest := encodeBits buffer bits
      (base64Char (buffer / 2 ^ bits) :: rest.1, rest.2)
  | bits => ([], bits)

def encodeLoop (buffer bits : Nat) : Bytes → Bytes
  | [] => if bits ≠ 0 then [base64Char (buffer * 2 ^ (6 - bits))] else []
  | byte :: rest =>
      let buffer := (buffer * 256 + byte.toNat) % 2 ^ 32
      let written := encodeBits buffer (bits + 8)
      written.1 ++ encodeLoop buffer written.2 rest

def base64urlEncode (input : Bytes) : Bytes :=
  encodeLoop 0 0 input

def base64Value (character : UInt8) : Option Nat :=
  if 'A'.toUInt8 ≤ character ∧ character ≤ 'Z'.toUInt8 then
    some (character.toNat - 'A'.toNat)
  else if 'a'.toUInt8 ≤ character ∧ character ≤ 'z'.toUInt8 then
    some (character.toNat - 'a'.toNat + 26)
  else if '0'.toUInt8 ≤ character ∧ character ≤ '9'.toUInt8 then
    some (character.toNat - '0'.toNat + 52)
  else if character = '-'.toUInt8 then some 62
  else if character = '_'.toUInt8 then some 63
  else none

/-- The decoder's loop; it ends with the register, the pending bit count and
the bytes, or at a character outside the alphabet. -/
def decodeLoop (buffer bits : Nat) (decoded : Bytes) : Bytes → Option (Nat × Nat × Bytes)
  | [] => some (buffer, bits, decoded)
  | character :: rest =>
      match base64Value character with
      | none => none
      | some value =>
          let buffer := (buffer * 64 + value) % 2 ^ 32
          let bits := bits + 6
          if 8 ≤ bits then
            decodeLoop buffer (bits - 8) (decoded ++ [(buffer / 2 ^ (bits - 8)).toUInt8]) rest
          else decodeLoop buffer bits decoded rest

def base64urlDecode (input : Bytes) : Except String Bytes :=
  if input = [] ∨ input.length % 4 = 1 then .error "Invalid invitation encoding"
  else
    match decodeLoop 0 0 [] input with
    | none => .error "Invalid invitation encoding"
    | some (buffer, bits, decoded) =>
        if (bits ≠ 0 ∧ buffer % 2 ^ bits ≠ 0) ∨ base64urlEncode decoded ≠ input then
          .error "Non-canonical invitation encoding"
        else .ok decoded

/-! ## One step of each loop -/

@[simp] theorem base64Value_char (v : Nat) : base64Value (base64Char v) = some (v % 64) := by
  have key : ∀ i : Fin 64, base64Value (base64Char i) = some i := by decide +kernel
  have h := key ⟨v % 64, Nat.mod_lt _ (by omega)⟩
  simpa [base64Char] using h

theorem base64Char_congr {v w : Nat} (h : v % 64 = w % 64) : base64Char v = base64Char w := by
  simp [base64Char, h]

/-- A byte met with no bit pending. -/
theorem encodeLoop_first (e : Nat) (a : UInt8) (rest : Bytes) :
    ∃ e', encodeLoop e 0 (a :: rest) = base64Char (a.toNat / 4) :: encodeLoop e' 2 rest
      ∧ e' % 4 = a.toNat % 4 := by
  have ha := a.toNat_lt
  refine ⟨(e * 256 + a.toNat) % 2 ^ 32, ?_, by omega⟩
  show base64Char ((e * 256 + a.toNat) % 2 ^ 32 / 2 ^ 2) :: _ = _
  rw [base64Char_congr (w := a.toNat / 4) (by omega)]
  rfl

/-- A byte met with two bits pending. -/
theorem encodeLoop_second (e : Nat) (b : UInt8) (rest : Bytes) :
    ∃ e', encodeLoop e 2 (b :: rest)
        = base64Char (e % 4 * 16 + b.toNat / 16) :: encodeLoop e' 4 rest
      ∧ e' % 16 = b.toNat % 16 := by
  have hb := b.toNat_lt
  refine ⟨(e * 256 + b.toNat) % 2 ^ 32, ?_, by omega⟩
  show base64Char ((e * 256 + b.toNat) % 2 ^ 32 / 2 ^ 4) :: _ = _
  rw [base64Char_congr (w := e % 4 * 16 + b.toNat / 16) (by omega)]
  rfl

/-- A byte met with four bits pending: it closes the group. -/
theorem encodeLoop_third (e : Nat) (c : UInt8) (rest : Bytes) :
    ∃ e', encodeLoop e 4 (c :: rest)
        = base64Char (e % 16 * 4 + c.toNat / 64) :: base64Char c.toNat :: encodeLoop e' 0 rest := by
  have hc := c.toNat_lt
  refine ⟨(e * 256 + c.toNat) % 2 ^ 32, ?_⟩
  show base64Char ((e * 256 + c.toNat) % 2 ^ 32 / 2 ^ 6)
    :: base64Char ((e * 256 + c.toNat) % 2 ^ 32 / 2 ^ 0) :: _ = _
  rw [base64Char_congr (w := e % 16 * 4 + c.toNat / 64) (by omega),
    base64Char_congr (v := (e * 256 + c.toNat) % 2 ^ 32 / 2 ^ 0) (w := c.toNat) (by omega)]
  rfl

/-- A character whose six bits leave fewer than eight pending. -/
theorem decodeLoop_keep (d : Nat) (decoded rest : Bytes) (v : Nat) (hv : v < 64) :
    ∃ d', decodeLoop d 0 decoded (base64Char v :: rest) = decodeLoop d' 6 decoded rest
      ∧ d' % 64 = v := by
  refine ⟨(d * 64 + v) % 2 ^ 32, ?_, by omega⟩
  simp [decodeLoop, Nat.mod_eq_of_lt hv]

/-- A character that completes a byte. -/
theorem decodeLoop_byte {d n : Nat} (decoded rest : Bytes) {v : Nat} {a : UInt8} (hv : v < 64)
    (hn : n + 2 ≤ 6) (ha : (d * 64 + v) % 2 ^ 32 / 2 ^ n % 256 = a.toNat) :
    decodeLoop d (n + 2) decoded (base64Char v :: rest)
      = decodeLoop ((d * 64 + v) % 2 ^ 32) n (decoded ++ [a]) rest := by
  have hbyte : ((d * 64 + v) % 2 ^ 32 / 2 ^ n).toUInt8 = a := by
    apply UInt8.toNat_inj.mp
    simpa [Nat.toUInt8] using ha
  have h8 : 8 ≤ n + 2 + 6 := by omega
  have hs : n + 2 + 6 - 8 = n := by omega
  simp only [decodeLoop, base64Value_char, Nat.mod_eq_of_lt hv, if_pos h8, hs, hbyte]

/-! ## The round trip -/

/-- Decoding an encoding gives the bytes back and leaves only zero bits
pending, whatever the two registers held before. -/
theorem decodeLoop_encodeLoop : ∀ (input decoded : Bytes) (e d : Nat),
    ∃ buffer bits, decodeLoop d 0 decoded (encodeLoop e 0 input)
        = some (buffer, bits, decoded ++ input) ∧ buffer % 2 ^ bits = 0
  | [], decoded, e, d => ⟨d, 0, by simp [encodeLoop, decodeLoop], Nat.mod_one d⟩
  | [a], decoded, e, d => by
      have ha := a.toNat_lt
      obtain ⟨e1, he1, hp1⟩ := encodeLoop_first e a []
      obtain ⟨d1, hd1, hq1⟩ := decodeLoop_keep d decoded
        [base64Char (a.toNat % 4 * 16)] (a.toNat / 4) (by omega)
      have hlast : encodeLoop e1 2 [] = [base64Char (a.toNat % 4 * 16)] := by
        simp only [encodeLoop, ne_eq, OfNat.ofNat_ne_zero, not_false_eq_true, if_true]
        rw [base64Char_congr (w := a.toNat % 4 * 16) (by omega)]
      rw [he1, hlast, hd1, decodeLoop_byte (n := 4) (a := a) _ _ (by omega) (by omega) (by omega)]
      exact ⟨_, 4, rfl, by omega⟩
  | [a, b], decoded, e, d => by
      have ha := a.toNat_lt
      have hb := b.toNat_lt
      obtain ⟨e1, he1, hp1⟩ := encodeLoop_first e a [b]
      obtain ⟨e2, he2, hp2⟩ := encodeLoop_second e1 b []
      rw [he1, he2, hp1]
      have hlast : encodeLoop e2 4 [] = [base64Char (b.toNat % 16 * 4)] := by
        simp only [encodeLoop, ne_eq, OfNat.ofNat_ne_zero, not_false_eq_true, if_true]
        rw [base64Char_congr (w := b.toNat % 16 * 4) (by omega)]
      obtain ⟨d1, hd1, hq1⟩ := decodeLoop_keep d decoded
        (base64Char (a.toNat % 4 * 16 + b.toNat / 16) :: encodeLoop e2 4 []) (a.toNat / 4) (by omega)
      rw [hd1, hlast,
        decodeLoop_byte (n := 4) (a := a) _ _ (by omega) (by omega) (by omega),
        decodeLoop_byte (n := 2) (a := b) _ _ (by omega) (by omega) (by omega),
        List.append_assoc, List.singleton_append]
      exact ⟨_, 2, rfl, by omega⟩
  | a :: b :: c :: input, decoded, e, d => by
      have ha := a.toNat_lt
      have hb := b.toNat_lt
      have hc := c.toNat_lt
      obtain ⟨e1, he1, hp1⟩ := encodeLoop_first e a (b :: c :: input)
      obtain ⟨e2, he2, hp2⟩ := encodeLoop_second e1 b (c :: input)
      obtain ⟨e3, he3⟩ := encodeLoop_third e2 c input
      rw [he1, he2, he3, hp1, hp2, base64Char_congr (v := c.toNat) (w := c.toNat % 64) (by omega)]
      obtain ⟨d1, hd1, hq1⟩ := decodeLoop_keep d decoded
        (base64Char (a.toNat % 4 * 16 + b.toNat / 16)
          :: base64Char (b.toNat % 16 * 4 + c.toNat / 64)
          :: base64Char (c.toNat % 64) :: encodeLoop e3 0 input) (a.toNat / 4) (by omega)
      rw [hd1,
        decodeLoop_byte (n := 4) (a := a) _ _ (by omega) (by omega) (by omega),
        decodeLoop_byte (n := 2) (a := b) _ _ (by omega) (by omega) (by omega),
        decodeLoop_byte (n := 0) (a := c) _ _ (by omega) (by omega) (by omega)]
      obtain ⟨buffer, bits, hloop, hzero⟩ :=
        decodeLoop_encodeLoop input (decoded ++ [a] ++ [b] ++ [c]) e3 _
      exact ⟨buffer, bits, by simpa using hloop, hzero⟩

/-- Four characters for every three bytes, two or three for a rest of one or
two; so never one more than a multiple of four. -/
theorem encodeLoop_length : ∀ (e : Nat) (input : Bytes),
    (encodeLoop e 0 input).length = (input.length * 4 + 2) / 3
  | e, [] => by simp [encodeLoop]
  | e, [a] => by simp [encodeLoop, encodeBits]
  | e, [a, b] => by simp [encodeLoop, encodeBits]
  | e, a :: b :: c :: input => by
      simp only [encodeLoop, encodeBits, List.cons_append, List.nil_append,
        List.length_cons, encodeLoop_length _ input]
      omega

theorem base64urlEncode_length (input : Bytes) :
    (base64urlEncode input).length = (input.length * 4 + 2) / 3 :=
  encodeLoop_length 0 input

theorem base64urlDecode_encode {input : Bytes} (h : input ≠ []) :
    base64urlDecode (base64urlEncode input) = .ok input := by
  have hlen := base64urlEncode_length input
  have hpos : 0 < input.length := List.length_pos_of_ne_nil h
  have hne : ¬ (base64urlEncode input = [] ∨ (base64urlEncode input).length % 4 = 1) := by
    rintro (hnil | hmod)
    · rw [hnil, List.length_nil] at hlen
      omega
    · omega
  obtain ⟨buffer, bits, hloop, hzero⟩ := decodeLoop_encodeLoop input [] 0 0
  rw [base64urlDecode, if_neg hne]
  simp only [base64urlEncode] at hloop ⊢
  simp [hloop, hzero]

/-- The decoder compares with its own encoding, so a text it accepts is the
only text of its bytes. -/
theorem base64urlEncode_decode {input decoded : Bytes}
    (h : base64urlDecode input = .ok decoded) : base64urlEncode decoded = input := by
  rw [base64urlDecode] at h
  split at h
  · cases h
  · split at h
    · cases h
    · split at h
      · cases h
      · rename_i hcond
        cases h
        simpa using (not_or.mp hcond).2

end Madoka
