import Madoka.Core.Config
import Madoka.Lib.Text

/-!
# Port List

Shared ports as text (`parse_port_list` of `core/config.cpp`): `all`, `none`,
or ports and ranges between commas. What is accepted is sorted and has no
port twice, so that writing the ports one by one gives the same list back.
-/

namespace Madoka

open Octets

/-- One port, or the ports from the one before the dash to the one behind it. -/
def parsePortToken (token : Bytes) : Option (List UInt16) :=
  match token.idxOf? '-'.toUInt8 with
  | some dash =>
      if dash = 0 ∨ dash = token.length - 1 then none
      else
        match parsePort (token.take dash), parsePort (token.drop (dash + 1)) with
        | some low, some high =>
            if low = 0 ∨ high = 0 ∨ high < low then none
            else some ((List.range' low.toNat (high.toNat + 1 - low.toNat)).map Nat.toUInt16)
        | _, _ => none
  | none =>
      match parsePort token with
      | some port => if port = 0 then none else some [port]
      | none => none

def parsePortTokens : List Bytes → Option (List UInt16)
  | [] => some []
  | piece :: rest =>
      let token := trim piece
      if token = [] then none
      else
        match parsePortToken token with
        | none => none
        | some ports => (parsePortTokens rest).map (ports ++ ·)

/-- The ports, and whether all of them are shared. -/
def parsePortList (value : Bytes) : Option (List UInt16 × Bool) :=
  let trimmed := trim value
  if trimmed = [] then none
  else if trimmed = ascii "all" ∨ trimmed = ascii "*" then some ([], true)
  else if trimmed = ascii "none" then some ([], false)
  else
    match parsePortTokens (split ','.toUInt8 trimmed) with
    | none => none
    | some parsedPorts =>
        if parsedPorts = [] then none
        else some ((parsedPorts.insertionSort (· ≤ ·)).destutter (· ≠ ·), false)

/-- How `save_config` writes the ports that are shared one by one. -/
def portsText : List UInt16 → Bytes
  | [] => []
  | [port] => toDecimal port.toNat
  | port :: rest => toDecimal port.toNat ++ (','.toUInt8 :: portsText rest)

def sharedPortsText (sharedPorts : List UInt16) (shareAllPorts : Bool) : Bytes :=
  if shareAllPorts then ascii "all"
  else if sharedPorts = [] then ascii "none"
  else portsText sharedPorts

/-- What `parse_port_list` leaves behind. -/
structure PortsValid (sharedPorts : List UInt16) (shareAllPorts : Bool) : Prop where
  sorted : sharedPorts.Pairwise (· < ·)
  nonzero : ∀ port ∈ sharedPorts, port ≠ 0
  all : shareAllPorts = true → sharedPorts = []

/-! ## What is accepted -/

theorem parsePortToken_ne_zero {token : Bytes} {ports : List UInt16}
    (h : parsePortToken token = some ports) : ∀ port ∈ ports, port ≠ 0 := by
  unfold parsePortToken at h
  cases hdash : token.idxOf? '-'.toUInt8 with
  | none =>
      rw [hdash] at h
      cases hport : parsePort token with
      | none =>
          rw [hport] at h
          cases h
      | some port =>
          rw [hport] at h
          dsimp only at h
          split_ifs at h with hzero
          cases h
          simpa using hzero
  | some dash =>
      rw [hdash] at h
      dsimp only at h
      split_ifs at h
      cases hlow : parsePort (token.take dash) with
      | none =>
          rw [hlow] at h
          cases h
      | some low =>
          cases hhigh : parsePort (token.drop (dash + 1)) with
          | none =>
              rw [hlow, hhigh] at h
              cases h
          | some high =>
              rw [hlow, hhigh] at h
              dsimp only at h
              split_ifs at h with hbounds
              cases h
              intro port hport hzero
              obtain ⟨n, hn, rfl⟩ := List.mem_map.mp hport
              rw [List.mem_range'_1] at hn
              have hsmall : n < 65536 := by
                have := high.toNat_lt
                omega
              have hn0 : n = 0 := by
                have := congrArg UInt16.toNat hzero
                simp [Nat.toUInt16] at this
                omega
              apply hbounds
              refine .inl (UInt16.toNat_inj.mp ?_)
              show low.toNat = 0
              omega

theorem parsePortTokens_ne_zero {pieces : List Bytes} {ports : List UInt16}
    (h : parsePortTokens pieces = some ports) : ∀ port ∈ ports, port ≠ 0 := by
  induction pieces generalizing ports with
  | nil =>
      cases h
      simp
  | cons piece rest ih =>
      unfold parsePortTokens at h
      dsimp only at h
      split_ifs at h
      cases htoken : parsePortToken (trim piece) with
      | none =>
          rw [htoken] at h
          cases h
      | some first =>
          rw [htoken] at h
          obtain ⟨others, hothers, rfl⟩ := Option.map_eq_some_iff.mp h
          intro port hport
          rcases List.mem_append.mp hport with hfirst | hrest
          · exact parsePortToken_ne_zero htoken port hfirst
          · exact ih hothers port hrest

/-- Sorted and without neighbours that are equal is strictly sorted. -/
theorem sorted_destutter (ports : List UInt16) :
    ((ports.insertionSort (· ≤ ·)).destutter (· ≠ ·)).Pairwise (· < ·) := by
  have hsorted : ((ports.insertionSort (· ≤ ·)).destutter (· ≠ ·)).Pairwise (· ≤ ·) :=
    (List.pairwise_insertionSort (· ≤ ·) ports).sublist (List.destutter_sublist _ _)
  have hchain := List.isChain_destutter (· ≠ ·) (ports.insertionSort (· ≤ ·))
  rw [← List.isChain_iff_pairwise] at hsorted ⊢
  rw [List.isChain_iff_getElem] at hsorted hchain ⊢
  intro i hi
  exact UInt16.lt_of_le_of_ne (hsorted i hi) (hchain i hi)

theorem parsePortList_valid {value : Bytes} {sharedPorts : List UInt16} {shareAllPorts : Bool}
    (h : parsePortList value = some (sharedPorts, shareAllPorts)) :
    PortsValid sharedPorts shareAllPorts := by
  unfold parsePortList at h
  dsimp only at h
  split_ifs at h with hempty hall hnone
  · cases h
    exact ⟨.nil, by simp, fun _ => rfl⟩
  · cases h
    exact ⟨.nil, by simp, fun _ => rfl⟩
  · cases htokens : parsePortTokens (split ','.toUInt8 (trim value)) with
    | none =>
        rw [htokens] at h
        cases h
    | some ports =>
        rw [htokens] at h
        dsimp only at h
        split_ifs at h
        cases h
        refine ⟨sorted_destutter ports, fun port hport => ?_, fun h => by cases h⟩
        have hmem := (List.destutter_sublist _ _).subset hport
        exact parsePortTokens_ne_zero htokens port ((List.mem_insertionSort _).mp hmem)

/-! ## Plain text -/

/-- Neither white space nor a zero byte. -/
def Plain (text : Bytes) : Prop :=
  ∀ c ∈ text, isSpace c = false ∧ c ≠ 0

theorem plain_of_all {text : Bytes} (h : text.all (fun c => !isSpace c && c != 0) = true) :
    Plain text := by
  intro c hc
  simpa using List.all_eq_true.mp h c hc

theorem Plain.append {s t : Bytes} (hs : Plain s) (ht : Plain t) : Plain (s ++ t) := by
  intro c hc
  rcases List.mem_append.mp hc with hc | hc
  · exact hs c hc
  · exact ht c hc

theorem Plain.of_subset {s t : Bytes} (ht : Plain t) (h : ∀ c ∈ s, c ∈ t) : Plain s :=
  fun c hc => ht c (h c hc)

theorem trim_plain {text : Bytes} (h : Plain text) : trim text = text :=
  trim_eq_self fun c hc => (h c hc).1

theorem plain_toDecimal (n : Nat) : Plain (toDecimal n) := by
  intro c hc
  have hbounds := toDecimal_digits hc
  rw [UInt8.le_iff_toNat_le, UInt8.le_iff_toNat_le] at hbounds
  have hlow : 48 ≤ c.toNat := hbounds.1
  simp only [isSpace, decide_eq_false_iff_not, ne_eq, ← UInt8.toNat_inj]
  simp
  omega

/-! ## What is written is read back -/

theorem parsePort_toDecimal (port : UInt16) : parsePort (toDecimal port.toNat) = some port := by
  have hall : (toDecimal port.toNat).all isDigit = true := by
    rw [List.all_eq_true]
    intro c hc
    exact isDigit_of_mem_toDecimal hc
  have hvalue : decimal (toDecimal port.toNat) = port.toNat := ofDecimal_toDecimal port.toNat
  unfold parsePort
  rw [hvalue, if_pos ⟨toDecimal_ne_nil _, hall, Nat.le_of_lt_succ port.toNat_lt⟩]
  simp [Nat.toUInt16]

/-- A sorted list is left as it is. -/
theorem sort_sorted {ports : List UInt16} (h : ports.Pairwise (· < ·)) :
    (ports.insertionSort (· ≤ ·)).destutter (· ≠ ·) = ports := by
  have hle : ports.insertionSort (· ≤ ·) = ports :=
    List.Pairwise.insertionSort_eq (h.imp UInt16.le_of_lt)
  rw [hle]
  exact List.destutter_of_isChain _ _ (h.imp UInt16.ne_of_lt).isChain

theorem parsePortToken_toDecimal {port : UInt16} (h : port ≠ 0) :
    parsePortToken (toDecimal port.toNat) = some [port] := by
  have hdash : (toDecimal port.toNat).idxOf? '-'.toUInt8 = none := by
    rw [List.idxOf?_eq_none_iff]
    intro hmem
    exact absurd (isDigit_of_mem_toDecimal hmem) (by decide)
  unfold parsePortToken
  rw [hdash, parsePort_toDecimal]
  simp [h]

theorem parsePortTokens_toDecimal {ports : List UInt16} (h : ∀ port ∈ ports, port ≠ 0) :
    parsePortTokens (ports.map fun port => toDecimal port.toNat) = some ports := by
  induction ports with
  | nil => rfl
  | cons port rest ih =>
      rw [List.map_cons, parsePortTokens, trim_plain (plain_toDecimal _), if_neg (toDecimal_ne_nil _),
        parsePortToken_toDecimal (h port List.mem_cons_self),
        ih fun p hp => h p (List.mem_cons_of_mem _ hp)]
      rfl

theorem plain_portsText (ports : List UInt16) : Plain (portsText ports) := by
  have hcomma : Plain [','.toUInt8] := plain_of_all (by decide)
  induction ports with
  | nil => exact plain_of_all rfl
  | cons port rest ih =>
      cases rest with
      | nil => exact plain_toDecimal _
      | cons next rest => exact (plain_toDecimal _).append (hcomma.append ih)

theorem split_portsText {ports : List UInt16} (h : ports ≠ []) :
    split ','.toUInt8 (portsText ports) = ports.map fun port => toDecimal port.toNat := by
  have hcomma : ∀ n, ','.toUInt8 ∉ toDecimal n := fun n hmem =>
    absurd (isDigit_of_mem_toDecimal hmem) (by decide)
  induction ports with
  | nil => exact absurd rfl h
  | cons port rest ih =>
      cases rest with
      | nil => exact split_of_not_mem (hcomma _)
      | cons next rest =>
          show split ','.toUInt8 (toDecimal port.toNat ++ ','.toUInt8 :: portsText (next :: rest)) = _
          rw [split_append_cons (hcomma _), ih (by simp)]
          rfl

/-- The text of the ports stands in a line of the file as it is. -/
theorem plain_sharedPortsText (ports : List UInt16) (all : Bool) :
    Plain (sharedPortsText ports all) := by
  unfold sharedPortsText
  split_ifs
  · exact plain_of_all (by decide)
  · exact plain_of_all (by decide)
  · exact plain_portsText ports

theorem toDecimal_head (n : Nat) : ∃ c rest, toDecimal n = c :: rest ∧ isDigit c = true := by
  obtain ⟨c, rest, hcons⟩ := List.exists_cons_of_ne_nil (toDecimal_ne_nil n)
  exact ⟨c, rest, hcons, isDigit_of_mem_toDecimal (by rw [hcons]; exact List.mem_cons_self)⟩

theorem portsText_head {ports : List UInt16} (h : ports ≠ []) :
    ∃ c rest, portsText ports = c :: rest ∧ isDigit c = true := by
  cases ports with
  | nil => exact absurd rfl h
  | cons port rest =>
      obtain ⟨c, digits, hcons, hdigit⟩ := toDecimal_head port.toNat
      cases rest with
      | nil => exact ⟨c, digits, hcons, hdigit⟩
      | cons next rest =>
          refine ⟨c, digits ++ ','.toUInt8 :: portsText (next :: rest), ?_, hdigit⟩
          show toDecimal port.toNat ++ _ = _
          rw [hcons]
          rfl

/-- A text that starts with a digit is none of the words, and is read as
tokens. -/
theorem parsePortList_digits {text rest : Bytes} {c : UInt8} (hplain : Plain text)
    (hcons : text = c :: rest) (hdigit : isDigit c = true) :
    parsePortList text =
      match parsePortTokens (split ','.toUInt8 text) with
      | none => none
      | some parsedPorts =>
          if parsedPorts = [] then none
          else some ((parsedPorts.insertionSort (· ≤ ·)).destutter (· ≠ ·), false) := by
  have hword : ∀ word, (∀ d ∈ word.head?, isDigit d = false) → text ≠ word := by
    intro word hhead heq
    rw [← heq, hcons] at hhead
    rw [hhead c rfl] at hdigit
    cases hdigit
  unfold parsePortList
  dsimp only
  rw [trim_plain hplain, if_neg (by rw [hcons]; simp), if_neg, if_neg (hword _ (by decide +kernel))]
  rintro (heq | heq)
  · exact hword _ (by decide +kernel) heq
  · exact hword _ (by decide +kernel) heq

/-- Reading back what is written gives the same ports. -/
theorem parsePortList_sharedPortsText {ports : List UInt16} {all : Bool}
    (h : PortsValid ports all) : parsePortList (sharedPortsText ports all) = some (ports, all) := by
  unfold sharedPortsText
  cases all with
  | true =>
      rw [h.all rfl]
      decide
  | false =>
      by_cases hnil : ports = []
      · rw [hnil]
        decide
      · obtain ⟨c, rest, hcons, hdigit⟩ := portsText_head hnil
        simp only [Bool.false_eq_true, if_false, hnil]
        rw [parsePortList_digits (plain_portsText ports) hcons hdigit, split_portsText hnil,
          parsePortTokens_toDecimal h.nonzero]
        dsimp only
        rw [if_neg hnil, sort_sorted h.sorted]

/-- A range stands for all its ports. -/
theorem parsePortList_range {low high : UInt16} (hlow : low ≠ 0) (hle : low ≤ high) :
    parsePortList (toDecimal low.toNat ++ '-'.toUInt8 :: toDecimal high.toNat)
      = some ((List.range' low.toNat (high.toNat + 1 - low.toNat)).map Nat.toUInt16, false) := by
  have hbound := high.toNat_lt
  have hle' : low.toNat ≤ high.toNat := UInt16.le_iff_toNat_le.mp hle
  have hpositive : low.toNat ≠ 0 := fun h => hlow (UInt16.toNat_inj.mp h)
  have hhigh : high ≠ 0 := by
    rintro rfl
    exact hpositive (Nat.le_zero.mp hle')
  have hminus : Plain ['-'.toUInt8] := plain_of_all (by decide)
  have hplain : Plain (toDecimal low.toNat ++ '-'.toUInt8 :: toDecimal high.toNat) :=
    (plain_toDecimal _).append (hminus.append (plain_toDecimal _))
  have hforeign : ∀ c n, isDigit c = false → c ∉ toDecimal n := by
    intro c n hc hmem
    rw [isDigit_of_mem_toDecimal hmem] at hc
    cases hc
  have hdash := idxOf?_append_cons (toDecimal high.toNat)
    (hforeign '-'.toUInt8 low.toNat (by decide))
  obtain ⟨c, rest, hcons, hdigit⟩ := toDecimal_head low.toNat
  have hcomma : ','.toUInt8 ∉ toDecimal low.toNat ++ '-'.toUInt8 :: toDecimal high.toNat := by
    rw [List.mem_append, List.mem_cons]
    rintro (hmem | heq | hmem)
    · exact hforeign _ _ (by decide) hmem
    · exact absurd heq (by decide)
    · exact hforeign _ _ (by decide) hmem
  have hsorted : ((List.range' low.toNat (high.toNat + 1 - low.toNat)).map Nat.toUInt16).Pairwise
      (· < ·) := by
    rw [List.pairwise_map]
    refine List.Pairwise.imp_of_mem (R := (· < ·)) ?_ List.pairwise_lt_range'
    intro m n hm hn hlt
    rw [List.mem_range'_1] at hm hn
    rw [UInt16.lt_iff_toNat_lt]
    simp [Nat.toUInt16]
    omega
  have htoken : parsePortToken (toDecimal low.toNat ++ '-'.toUInt8 :: toDecimal high.toNat)
      = some ((List.range' low.toNat (high.toNat + 1 - low.toNat)).map Nat.toUInt16) := by
    have hlowLength := List.length_pos_of_ne_nil (toDecimal_ne_nil low.toNat)
    have hhighLength := List.length_pos_of_ne_nil (toDecimal_ne_nil high.toNat)
    unfold parsePortToken
    rw [hdash]
    dsimp only
    rw [if_neg (by simp only [List.length_append, List.length_cons]; omega), List.take_left,
      ← List.drop_drop, List.drop_left]
    show (match parsePort (toDecimal low.toNat), parsePort (toDecimal high.toNat) with
      | some low, some high =>
          if low = 0 ∨ high = 0 ∨ high < low then none
          else some ((List.range' low.toNat (high.toNat + 1 - low.toNat)).map Nat.toUInt16)
      | _, _ => none) = _
    rw [parsePort_toDecimal, parsePort_toDecimal]
    dsimp only
    rw [if_neg (by simp [hlow, hhigh, hle])]
  have htext : toDecimal low.toNat ++ '-'.toUInt8 :: toDecimal high.toNat
      = c :: (rest ++ '-'.toUInt8 :: toDecimal high.toNat) := by
    rw [hcons]
    rfl
  rw [parsePortList_digits hplain htext hdigit, split_of_not_mem hcomma]
  unfold parsePortTokens
  dsimp only
  rw [trim_plain hplain, if_neg (by simp), htoken]
  dsimp only
  rw [parsePortTokens, Option.map_some, List.append_nil]
  dsimp only
  rw [sort_sorted hsorted, if_neg]
  simp only [List.map_eq_nil_iff, List.range'_eq_nil_iff]
  omega

/-! ## The size of the text -/

/-- How many digits a number below 100000 has. -/
def decimalSize (n : Nat) : Nat :=
  if n < 10 then 1 else if n < 100 then 2 else if n < 1000 then 3 else if n < 10000 then 4 else 5

/-- How long the written list is: a comma less than there are ports. -/
def sharedPortsSize (sharedPorts : List UInt16) (shareAllPorts : Bool) : Nat :=
  if shareAllPorts then 3
  else if sharedPorts = [] then 4
  else (sharedPorts.map fun port => decimalSize port.toNat).sum + (sharedPorts.length - 1)

theorem toDecimal_length {n : Nat} (h : n < 100000) : (toDecimal n).length = decimalSize n := by
  have hle : ∀ k, 0 < k → ((toDecimal n).length ≤ k ↔ n < 10 ^ k) := by
    intro k hk
    unfold toDecimal
    rw [List.length_map]
    exact Nat.length_toDigits_le_iff (by omega) hk
  have h1 := hle 1 (by omega)
  have h2 := hle 2 (by omega)
  have h3 := hle 3 (by omega)
  have h4 := hle 4 (by omega)
  have h5 := hle 5 (by omega)
  have hpositive := List.length_pos_of_ne_nil (toDecimal_ne_nil n)
  unfold decimalSize
  split_ifs <;> omega

theorem toDecimal_port_length (port : UInt16) :
    (toDecimal port.toNat).length = decimalSize port.toNat := by
  apply toDecimal_length
  have := port.toNat_lt
  omega

theorem portsText_length {ports : List UInt16} (h : ports ≠ []) :
    (portsText ports).length
      = (ports.map fun port => decimalSize port.toNat).sum + (ports.length - 1) := by
  induction ports with
  | nil => exact absurd rfl h
  | cons port rest ih =>
      cases rest with
      | nil =>
          show (toDecimal port.toNat).length = _
          rw [toDecimal_port_length]
          simp
      | cons next rest =>
          show (toDecimal port.toNat ++ (','.toUInt8 :: portsText (next :: rest))).length = _
          rw [List.length_append, List.length_cons, ih (by simp), toDecimal_port_length]
          simp only [List.map_cons, List.sum_cons, List.length_cons]
          omega

theorem sharedPortsText_length (ports : List UInt16) (all : Bool) :
    (sharedPortsText ports all).length = sharedPortsSize ports all := by
  unfold sharedPortsText sharedPortsSize
  split_ifs with hall hnil
  · rfl
  · rfl
  · exact portsText_length hnil

/-- Every port takes a digit, and all but the last a comma. -/
theorem length_le_sharedPortsSize (ports : List UInt16) :
    2 * ports.length ≤ sharedPortsSize ports false + 1 := by
  have hone : ∀ n, 1 ≤ decimalSize n := by
    intro n
    unfold decimalSize
    split_ifs <;> omega
  have hsum : ports.length ≤ (ports.map fun port => decimalSize port.toNat).sum := by
    induction ports with
    | nil => simp
    | cons port rest ih =>
        have := hone port.toNat
        simp only [List.map_cons, List.sum_cons, List.length_cons]
        omega
  unfold sharedPortsSize
  by_cases hnil : ports = []
  · rw [hnil]
    simp
  · rw [if_neg (by simp), if_neg hnil]
    omega

end Madoka
