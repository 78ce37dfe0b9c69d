import Mathlib

/-!
# Octets

Byte strings and fixed-size byte arrays: the order of `UInt8`, the
big-endian reading and writing of an integer, and `Octets n`, a byte list
whose length is carried as a proof. Arrays compare lexicographically, as
`std::array` does.
-/

namespace Octets

/-- A byte string of any length. -/
abbrev Bytes := List UInt8

instance linearOrderUInt8 : LinearOrder UInt8 where
  le_refl := UInt8.le_refl
  le_trans _ _ _ := UInt8.le_trans
  lt_iff_le_not_ge a b := by simp [UInt8.lt_iff_toNat_lt, UInt8.le_iff_toNat_le]; omega
  le_antisymm _ _ := UInt8.le_antisymm
  le_total := UInt8.le_total
  toDecidableLE := inferInstance
  toDecidableEq := inferInstance
  toDecidableLT := inferInstance

instance decidableMem (b : UInt8) (bs : Bytes) : Decidable (b ∈ bs) := inferInstance

/-- The bytes of a text literal. -/
def ascii (s : String) : Bytes :=
  s.toList.map fun c => c.toNat.toUInt8

/-! ## Big-endian integers -/

/-- The low `n` bytes of `v`, most significant first. -/
def beBytes : Nat → Nat → Bytes
  | 0, _ => []
  | n + 1, v => (v / 256 ^ n).toUInt8 :: beBytes n v

/-- The value of a byte string read most significant byte first. -/
def ofBe (bs : Bytes) : Nat :=
  bs.foldl (fun v b => v * 256 + b.toNat) 0

@[simp] theorem beBytes_length (n v : Nat) : (beBytes n v).length = n := by
  induction n with
  | zero => rfl
  | succ n ih => simp [beBytes, ih]

private theorem foldl_be (bs : Bytes) (acc : Nat) :
    bs.foldl (fun v b => v * 256 + b.toNat) acc
      = acc * 256 ^ bs.length + ofBe bs := by
  induction bs generalizing acc with
  | nil => simp [ofBe]
  | cons b bs ih =>
      simp only [List.foldl_cons, List.length_cons, ofBe]
      rw [ih, ih (0 * 256 + b.toNat), pow_succ]
      ring

@[simp] theorem ofBe_nil : ofBe [] = 0 := rfl

theorem ofBe_cons (b : UInt8) (bs : Bytes) :
    ofBe (b :: bs) = b.toNat * 256 ^ bs.length + ofBe bs := by
  have h := foldl_be bs (0 * 256 + b.toNat)
  simpa [ofBe] using h

theorem ofBe_lt (bs : Bytes) : ofBe bs < 256 ^ bs.length := by
  induction bs with
  | nil => simp
  | cons b bs ih =>
      have hb : b.toNat ≤ 255 := Nat.le_of_lt_succ b.toNat_lt
      rw [ofBe_cons, List.length_cons, pow_succ]
      calc b.toNat * 256 ^ bs.length + ofBe bs
          < b.toNat * 256 ^ bs.length + 256 ^ bs.length := by omega
        _ = (b.toNat + 1) * 256 ^ bs.length := by ring
        _ ≤ 256 * 256 ^ bs.length := Nat.mul_le_mul_right _ (by omega)
        _ = 256 ^ bs.length * 256 := by ring

/-- Of two big-endian numbers of one length the first byte that differs
decides. -/
theorem ofBe_cons_lt_iff {a b : UInt8} {as bs : Bytes} (h : as.length = bs.length) :
    ofBe (a :: as) < ofBe (b :: bs) ↔ a < b ∨ a = b ∧ ofBe as < ofBe bs := by
  have hlow := ofBe_lt as
  have hhigh := ofBe_lt bs
  rw [ofBe_cons, ofBe_cons, h] at *
  rw [UInt8.lt_iff_toNat_lt, ← UInt8.toNat_inj]
  generalize 256 ^ bs.length = w at *
  rcases Nat.lt_trichotomy a.toNat b.toNat with hlt | heq | hgt
  · have hstep : a.toNat * w + w ≤ b.toNat * w := by
      rw [← Nat.succ_mul]
      exact Nat.mul_le_mul_right w hlt
    omega
  · rw [heq]
    omega
  · have hstep : b.toNat * w + w ≤ a.toNat * w := by
      rw [← Nat.succ_mul]
      exact Nat.mul_le_mul_right w hgt
    omega

theorem ofBe_lt_ofBe_iff {as bs : Bytes} (h : as.length = bs.length) :
    ofBe as < ofBe bs ↔ as < bs := by
  induction as generalizing bs with
  | nil =>
      rw [List.length_nil, eq_comm, List.length_eq_zero_iff] at h
      simp [h]
  | cons a as ih =>
      cases bs with
      | nil => cases h
      | cons b bs =>
          have htail : as.length = bs.length := by simpa using h
          rw [ofBe_cons_lt_iff htail, List.cons_lt_cons_iff, ih htail]

private theorem toUInt8_toNat (v : Nat) : v.toUInt8.toNat = v % 256 := by
  simp [Nat.toUInt8]

/-- Writing depends on the value modulo the width only. -/
theorem ofBe_beBytes_mod (n v : Nat) : ofBe (beBytes n v) = v % 256 ^ n := by
  induction n with
  | zero => simp [beBytes, Nat.mod_one]
  | succ n ih =>
      rw [beBytes, ofBe_cons, beBytes_length, ih, toUInt8_toNat, pow_succ,
        Nat.mod_mul]
      ring

theorem ofBe_beBytes {n v : Nat} (h : v < 256 ^ n) : ofBe (beBytes n v) = v := by
  rw [ofBe_beBytes_mod, Nat.mod_eq_of_lt h]

/-- Adding a multiple of the width changes nothing that is written. -/
theorem beBytes_add_mul (n k v : Nat) : beBytes n (k * 256 ^ n + v) = beBytes n v := by
  induction n generalizing k with
  | zero => rfl
  | succ n ih =>
      have hd : (k * 256 ^ (n + 1) + v) / 256 ^ n = k * 256 + v / 256 ^ n := by
        rw [show k * 256 ^ (n + 1) + v = v + (k * 256) * 256 ^ n by ring,
          Nat.add_mul_div_right _ _ (Nat.pow_pos (by omega)), Nat.add_comm]
      have hb : (k * 256 + v / 256 ^ n).toUInt8 = (v / 256 ^ n).toUInt8 := by
        apply UInt8.toNat_inj.mp
        rw [toUInt8_toNat, toUInt8_toNat]
        omega
      rw [beBytes, beBytes, hd, hb,
        show k * 256 ^ (n + 1) + v = k * 256 * 256 ^ n + v by ring, ih]

theorem beBytes_ofBe {n : Nat} {bs : Bytes} (h : bs.length = n) :
    beBytes n (ofBe bs) = bs := by
  subst h
  induction bs with
  | nil => rfl
  | cons b bs ih =>
      have hd : (b.toNat * 256 ^ bs.length + ofBe bs) / 256 ^ bs.length = b.toNat := by
        rw [Nat.add_comm, Nat.add_mul_div_right _ _ (Nat.pow_pos (by omega)),
          Nat.div_eq_of_lt (ofBe_lt bs), Nat.zero_add]
      rw [ofBe_cons, List.length_cons, beBytes, hd, beBytes_add_mul, ih]
      simp [Nat.toUInt8]

/-- Eight bytes fit the 64-bit integer they are read into. -/
theorem toNat_ofBe_eight {bs : Bytes} (h : bs.length ≤ 8) :
    (UInt64.ofNat (ofBe bs)).toNat = ofBe bs := by
  have hle : 256 ^ bs.length ≤ 256 ^ 8 := Nat.pow_le_pow_right (by omega) h
  rw [UInt64.toNat_ofNat']
  exact Nat.mod_eq_of_lt (lt_of_lt_of_le (ofBe_lt bs) hle)

/-- Four bytes fit the 32-bit integer they are read into. -/
theorem toNat_ofBe_four {bs : Bytes} (h : bs.length ≤ 4) :
    (UInt32.ofNat (ofBe bs)).toNat = ofBe bs := by
  have hle : 256 ^ bs.length ≤ 256 ^ 4 := Nat.pow_le_pow_right (by omega) h
  rw [UInt32.toNat_ofNat']
  exact Nat.mod_eq_of_lt (lt_of_lt_of_le (ofBe_lt bs) hle)

/-! ## Fixed-size arrays -/

/-- A byte array of exactly `n` elements. -/
abbrev ByteArr (n : Nat) := {bs : Bytes // bs.length = n}

/-- The value-initialised array. -/
def zero (n : Nat) : ByteArr n := ⟨List.replicate n 0, by simp⟩

/-- The array whose bytes are all equal. -/
def repeated (n : Nat) (b : UInt8) : ByteArr n := ⟨List.replicate n b, by simp⟩

/-- The array that is zero but for its first byte. -/
def leading (b : UInt8) (n : Nat) : ByteArr (n + 1) := ⟨b :: List.replicate n 0, by simp⟩

instance decidableMemArr {n : Nat} (a : ByteArr n) (as : List (ByteArr n)) : Decidable (a ∈ as) :=
  inferInstance

/-- The `n` bytes a buffer starts with; missing bytes read as zero. -/
def front (n : Nat) (bs : Bytes) : ByteArr n :=
  ⟨bs.take n ++ List.replicate (n - bs.length) 0, by simp; omega⟩

theorem front_val {n : Nat} {bs : Bytes} (h : n ≤ bs.length) :
    (front n bs).val = bs.take n := by
  simp [front, Nat.sub_eq_zero_of_le h]

@[simp] theorem front_append {n : Nat} (a : ByteArr n) (bs : Bytes) :
    front n (a.val ++ bs) = a := by
  apply Subtype.ext
  rw [front_val (by simp [a.property])]
  simp [List.take_left' a.property]

/-! ## Cutting a buffer into fields -/

theorem front_append_drop {n k : Nat} {bs : Bytes} (h : k + n ≤ bs.length) :
    (front n (bs.drop k)).val ++ bs.drop (k + n) = bs.drop k := by
  rw [front_val (by rw [List.length_drop]; omega), ← List.drop_drop, List.take_append_drop]

theorem beBytes_append_drop {n k : Nat} {bs : Bytes} (h : k + n ≤ bs.length) :
    beBytes n (ofBe ((bs.drop k).take n)) ++ bs.drop (k + n) = bs.drop k := by
  rw [beBytes_ofBe (by rw [List.length_take, List.length_drop]; omega), ← List.drop_drop,
    List.take_append_drop]

theorem take_append_drop_add {n k : Nat} (bs : Bytes) :
    (bs.drop k).take n ++ bs.drop (k + n) = bs.drop k := by
  rw [← List.drop_drop, List.take_append_drop]

end Octets
