import Madoka.Lib.Octets

/-!
# Text

Text files as byte strings: white space, separators, and decimal numbers.
-/

namespace Octets

/-! ## White space -/

/-- Space, tab, carriage return and line feed. -/
def isSpace (c : UInt8) : Bool :=
  c = 32 ∨ c = 9 ∨ c = 13 ∨ c = 10

def trimEnd (text : Bytes) : Bytes :=
  text.rdropWhile isSpace

def trim (text : Bytes) : Bytes :=
  trimEnd (text.dropWhile isSpace)

theorem trimEnd_concat (text : Bytes) (c : UInt8) :
    trimEnd (text ++ [c]) = if isSpace c then trimEnd text else text ++ [c] :=
  List.rdropWhile_concat isSpace text c

theorem trimEnd_append {text : Bytes} {c : UInt8} (h : isSpace c = false) (rest : Bytes) :
    trimEnd (text ++ c :: rest) = text ++ c :: trimEnd rest := by
  induction rest using List.reverseRecOn with
  | nil => exact (trimEnd_concat text c).trans (if_neg (by simp [h]))
  | append_singleton rest last ih =>
      rw [← List.cons_append, ← List.append_assoc, trimEnd_concat, trimEnd_concat]
      split_ifs
      · exact ih
      · simp

theorem trim_cons {c : UInt8} (h : isSpace c = false) (rest : Bytes) :
    trim (c :: rest) = trimEnd (c :: rest) := by
  rw [trim, List.dropWhile_cons_of_neg (by simp [h])]

/-- Text without white space is as it is. -/
theorem trim_eq_self {text : Bytes} (h : ∀ c ∈ text, isSpace c = false) : trim text = text := by
  cases text with
  | nil => rfl
  | cons c rest =>
      rw [trim_cons (h c List.mem_cons_self)]
      have hend : ∀ d ∈ (c :: rest).getLast?, isSpace d = false := fun d hd =>
        h d (List.mem_of_getLast? hd)
      cases hsplit : (c :: rest).reverse with
      | nil => simp at hsplit
      | cons last front =>
          have htext : c :: rest = front.reverse ++ [last] := by
            rw [← List.reverse_reverse (c :: rest), hsplit, List.reverse_cons]
          rw [htext, trimEnd_concat, if_neg]
          have hmem : last ∈ c :: rest := by
            rw [htext]
            simp
          simp [h last hmem]

theorem trim_concat_space {text : Bytes} {c : UInt8} (h : isSpace c = true) :
    trim (text ++ [c]) = trim text := by
  unfold trim
  rw [List.dropWhile_append]
  split_ifs with hempty
  · rw [List.isEmpty_iff.mp hempty]
    simp [h]
  · rw [trimEnd_concat, if_pos h]

theorem trim_trimEnd (text : Bytes) : trim (trimEnd text) = trim text := by
  induction text using List.reverseRecOn with
  | nil => rfl
  | append_singleton text c ih =>
      rw [trimEnd_concat]
      split_ifs with hspace
      · rw [ih, trim_concat_space hspace]
      · rfl

theorem mem_of_mem_trim {text : Bytes} {c : UInt8} (h : c ∈ trim text) : c ∈ text := by
  have hend : c ∈ text.dropWhile isSpace := (List.rdropWhile_prefix isSpace _).subset h
  exact (List.dropWhile_suffix isSpace).subset hend

/-! ## Separators -/

/-- The pieces between the separators, one more than there are separators. -/
def split (separator : UInt8) : Bytes → List Bytes
  | [] => [[]]
  | c :: text =>
      if c = separator then [] :: split separator text
      else
        match split separator text with
        | [] => [[c]]
        | piece :: pieces => (c :: piece) :: pieces

theorem split_append_cons {separator : UInt8} {piece : Bytes} (h : separator ∉ piece)
    (rest : Bytes) : split separator (piece ++ separator :: rest) = piece :: split separator rest := by
  induction piece with
  | nil => simp [split]
  | cons c piece ih =>
      obtain ⟨hne, hrest⟩ := not_or.mp (mt List.mem_cons.mpr h)
      rw [List.cons_append, split, if_neg (Ne.symm hne), ih hrest]

theorem split_of_not_mem {separator : UInt8} {piece : Bytes} (h : separator ∉ piece) :
    split separator piece = [piece] := by
  induction piece with
  | nil => rfl
  | cons c piece ih =>
      obtain ⟨hne, hrest⟩ := not_or.mp (mt List.mem_cons.mpr h)
      rw [split, if_neg (Ne.symm hne), ih hrest]

theorem not_mem_of_mem_split {separator : UInt8} {text piece : Bytes}
    (h : piece ∈ split separator text) : separator ∉ piece ∧ ∀ c ∈ piece, c ∈ text := by
  induction text generalizing piece with
  | nil =>
      rw [List.mem_singleton.mp h]
      simp
  | cons c text ih =>
      rw [split] at h
      split_ifs at h with hc
      · rcases List.mem_cons.mp h with rfl | h
        · simp
        · exact ⟨(ih h).1, fun d hd => List.mem_cons_of_mem _ ((ih h).2 d hd)⟩
      · cases hsplit : split separator text with
        | nil =>
            rw [hsplit] at h
            rw [List.mem_singleton.mp h]
            simp [Ne.symm hc]
        | cons first pieces =>
            rw [hsplit] at h ih
            rcases List.mem_cons.mp h with rfl | h
            · obtain ⟨hno, hsub⟩ := ih List.mem_cons_self
              refine ⟨?_, fun d hd => ?_⟩
              · simp [Ne.symm hc, hno]
              · rcases List.mem_cons.mp hd with rfl | hd
                · exact List.mem_cons_self
                · exact List.mem_cons_of_mem _ (hsub d hd)
            · obtain ⟨hno, hsub⟩ := ih (List.mem_cons_of_mem _ h)
              exact ⟨hno, fun d hd => List.mem_cons_of_mem _ (hsub d hd)⟩

/-- Pieces that each end in the separator, the empty piece after the last. -/
theorem split_flatMap {separator : UInt8} {pieces : List Bytes}
    (h : ∀ piece ∈ pieces, separator ∉ piece) :
    split separator (pieces.flatMap fun piece => piece ++ [separator]) = pieces ++ [[]] := by
  induction pieces with
  | nil => rfl
  | cons piece rest ih =>
      rw [List.flatMap_cons, List.append_assoc, List.singleton_append,
        split_append_cons (h piece List.mem_cons_self),
        ih fun q hq => h q (List.mem_cons_of_mem _ hq), List.cons_append]

/-- The first separator is where the text before it ends. -/
theorem idxOf?_append_cons {text : Bytes} {separator : UInt8} (rest : Bytes)
    (h : separator ∉ text) : (text ++ separator :: rest).idxOf? separator = some text.length := by
  induction text with
  | nil => simp [List.idxOf?_cons]
  | cons c text ih =>
      obtain ⟨hne, hrest⟩ := not_or.mp (mt List.mem_cons.mpr h)
      rw [List.cons_append, List.idxOf?_cons, ih hrest, if_neg (by simpa using Ne.symm hne)]
      rfl

/-! ## Decimal numbers -/

/-- The digits of a number, without leading zeros. -/
def toDecimal (n : Nat) : Bytes :=
  (Nat.toDigits 10 n).map fun c => c.toNat.toUInt8

/-- The value of a byte string read as digits, one after the other. -/
def ofDecimal (digits : Bytes) : Nat :=
  digits.foldl (fun v c => v * 10 + (c.toNat - 48)) 0

theorem toDecimal_ne_nil (n : Nat) : toDecimal n ≠ [] := by
  intro h
  exact Nat.toDigits_ne_nil (List.map_eq_nil_iff.mp h)

/-- A digit character is one byte. -/
theorem isDigit_toNat {c : Char} (h : c.isDigit = true) :
    (c.toNat.toUInt8).toNat = c.toNat ∧ 48 ≤ c.toNat ∧ c.toNat ≤ 57 := by
  have hlow : 48 ≤ c.toNat ∧ c.toNat ≤ 57 := by
    simpa [Char.isDigit, UInt32.le_iff_toNat_le] using h
  refine ⟨?_, hlow⟩
  simp [Nat.toUInt8]
  omega

theorem toDecimal_digits {n : Nat} {c : UInt8} (h : c ∈ toDecimal n) : 48 ≤ c ∧ c ≤ 57 := by
  obtain ⟨digit, hdigit, rfl⟩ := List.mem_map.mp h
  obtain ⟨heq, hlow, hhigh⟩ := isDigit_toNat (Nat.isDigit_of_mem_toDigits (by omega) (by omega) hdigit)
  simp only [UInt8.le_iff_toNat_le, heq]
  exact ⟨hlow, hhigh⟩

theorem ofDecimal_toDecimal (n : Nat) : ofDecimal (toDecimal n) = n := by
  have hfold : ∀ (cs : List Char) (acc : Nat), (∀ c ∈ cs, c.isDigit = true) →
      (cs.map fun c => c.toNat.toUInt8).foldl (fun v c => v * 10 + (c.toNat - 48)) acc
        = Nat.ofDigitChars 10 cs acc := by
    intro cs
    induction cs with
    | nil => intro acc _; rfl
    | cons c rest ih =>
        intro acc hcs
        obtain ⟨heq, -, -⟩ := isDigit_toNat (hcs c List.mem_cons_self)
        rw [Nat.ofDigitChars_cons, List.map_cons, List.foldl_cons,
          ih _ fun d hd => hcs d (List.mem_cons_of_mem _ hd), heq, Nat.mul_comm acc 10]
        rfl
  unfold ofDecimal toDecimal
  rw [hfold _ _ fun c hc => Nat.isDigit_of_mem_toDigits (by omega) (by omega) hc,
    Nat.ofDigitChars_ten_toDigits]

end Octets
