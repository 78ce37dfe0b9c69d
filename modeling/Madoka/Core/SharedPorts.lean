import Madoka.Core.ConfigFile
import Madoka.Lib.Bisect

/-!
# Shared Ports

Which ports a list of shared ports opens (`parse_port_list` and
`is_port_shared` of `core/config.cpp`): those its tokens name, and no others.
-/

namespace Madoka

open Octets

/-- `parse_port_list` with its two outputs, as they were and as it leaves
them. -/
def parsePortListInto (value : Bytes) (outPorts : List UInt16) (outShareAll : Bool) :
    Bool × List UInt16 × Bool :=
  let trimmed := trim value
  if trimmed = [] then (false, outPorts, outShareAll)
  else if trimmed = ascii "all" ∨ trimmed = ascii "*" then (true, [], true)
  else if trimmed = ascii "none" then (true, [], false)
  else
    match parsePortTokens (split ','.toUInt8 trimmed) with
    | none => (false, outPorts, outShareAll)
    | some parsedPorts =>
        if parsedPorts = [] then (false, outPorts, outShareAll)
        else (true, (parsedPorts.insertionSort (· ≤ ·)).destutter (· ≠ ·), false)

def Config.isPortShared (config : Config) (port : UInt16) : Bool :=
  if config.shareAllPorts then true
  else Bisect.binarySearch UInt16.toNat port.toNat config.sharedPorts

theorem parsePortListInto_eq (value : Bytes) (outPorts : List UInt16) (outShareAll : Bool) :
    parsePortListInto value outPorts outShareAll =
      match parsePortList value with
      | none => (false, outPorts, outShareAll)
      | some parsed => (true, parsed) := by
  unfold parsePortListInto parsePortList
  dsimp only
  split_ifs
  · rfl
  · rfl
  · rfl
  · cases parsePortTokens (split ','.toUInt8 (trim value)) with
    | none => rfl
    | some ports =>
        dsimp only
        split_ifs
        · rfl
        · rfl

/-- The search in a sorted list finds exactly its ports. -/
theorem binarySearch_port {ports : List UInt16} (h : ports.Pairwise (· < ·)) (port : UInt16) :
    Bisect.binarySearch UInt16.toNat port.toNat ports = true ↔ port ∈ ports := by
  have hsorted : LowerBound.Sorted UInt16.toNat ports :=
    h.imp fun hlt => UInt16.lt_iff_toNat_lt.mp hlt
  rw [Bisect.binarySearch_iff hsorted]
  constructor
  · rintro ⟨other, hmem, heq⟩
    rwa [← UInt16.toNat_inj.mp heq]
  · exact fun hmem => ⟨port, hmem, rfl⟩

/-! ## What a token names -/

/-- A number written in decimal digits. -/
def Spells (text : Bytes) (n : Nat) : Prop :=
  text ≠ [] ∧ (∀ c ∈ text, isDigit c = true) ∧ decimal text = n

/-- A token is a port, or two with a dash between them for all from the one to
the other. -/
def TokenNames (token : Bytes) (port : Nat) : Prop :=
  Spells token port
    ∨ ∃ lowText highText low high, token = lowText ++ '-'.toUInt8 :: highText
      ∧ Spells lowText low ∧ Spells highText high ∧ low ≤ port ∧ port ≤ high

/-- One of the tokens between the commas names the port. -/
def PortNamed (value : Bytes) (port : UInt16) : Prop :=
  ∃ piece ∈ split ','.toUInt8 (trim value), TokenNames (trim piece) port.toNat

theorem Spells.unique {text : Bytes} {m n : Nat} (h : Spells text m) (h' : Spells text n) : m = n :=
  h.2.2.symm.trans h'.2.2

theorem Spells.dash_notMem {text : Bytes} {n : Nat} (h : Spells text n) : '-'.toUInt8 ∉ text := by
  intro hmem
  exact absurd (h.2.1 _ hmem) (by decide)

theorem parsePort_spells {text : Bytes} {port : UInt16} (h : parsePort text = some port) :
    Spells text port.toNat := by
  unfold parsePort at h
  split_ifs at h with haccepted
  obtain ⟨hne, hdigits, hbound⟩ := haccepted
  cases h
  refine ⟨hne, List.all_eq_true.mp hdigits, ?_⟩
  simp [Nat.toUInt16]
  omega

theorem split_at_idxOf {text : Bytes} {c : UInt8} {i : Nat} (h : text.idxOf? c = some i) :
    text = text.take i ++ c :: text.drop (i + 1) := by
  obtain ⟨hlt, heq, -⟩ := List.findIdx?_eq_some_iff_getElem.mp h
  rw [beq_iff_eq] at heq
  rw [← heq, List.getElem_cons_drop, List.take_append_drop]

theorem mem_portRange {low high port : UInt16} :
    port ∈ (List.range' low.toNat (high.toNat + 1 - low.toNat)).map Nat.toUInt16
      ↔ low.toNat ≤ port.toNat ∧ port.toNat ≤ high.toNat := by
  have hhigh := high.toNat_lt
  rw [List.mem_map]
  constructor
  · rintro ⟨n, hn, rfl⟩
    rw [List.mem_range'_1] at hn
    simp [Nat.toUInt16]
    omega
  · intro h
    refine ⟨port.toNat, List.mem_range'_1.mpr (by omega), ?_⟩
    simp [Nat.toUInt16]

/-- What an accepted token stands for are the ports it names. -/
theorem mem_parsePortToken {token : Bytes} {ports : List UInt16}
    (h : parsePortToken token = some ports) (port : UInt16) :
    port ∈ ports ↔ TokenNames token port.toNat := by
  unfold parsePortToken at h
  cases hdash : token.idxOf? '-'.toUInt8 with
  | none =>
      have hnotMem : '-'.toUInt8 ∉ token := List.idxOf?_eq_none_iff.mp hdash
      rw [hdash] at h
      cases hport : parsePort token with
      | none =>
          rw [hport] at h
          cases h
      | some single =>
          have hspells := parsePort_spells hport
          rw [hport] at h
          dsimp only at h
          split_ifs at h
          cases h
          rw [List.mem_singleton]
          constructor
          · rintro rfl
            exact .inl hspells
          · rintro (hnames | ⟨lowText, highText, low, high, rfl, -⟩)
            · exact UInt16.toNat_inj.mp (hnames.unique hspells)
            · exact absurd (by simp) hnotMem
  | some dash =>
      rw [hdash] at h
      dsimp only at h
      split_ifs at h
      cases hlow : parsePort (token.take dash) with
      | none =>
          rw [hlow] at h
          cases h
      | some low =>
          cases hhigh : parsePort (token.drop (dash + 1)) with
          | none =>
              rw [hlow, hhigh] at h
              cases h
          | some high =>
              rw [hlow, hhigh] at h
              dsimp only at h
              split_ifs at h
              cases h
              have htoken := split_at_idxOf hdash
              have hlowSpells := parsePort_spells hlow
              have hhighSpells := parsePort_spells hhigh
              rw [mem_portRange]
              constructor
              · rintro ⟨hfrom, hto⟩
                exact .inr ⟨_, _, _, _, htoken, hlowSpells, hhighSpells, hfrom, hto⟩
              · rintro (hnames | ⟨lowText, highText, m, n, rfl, hm, hn, hfrom, hto⟩)
                · exact absurd (by rw [htoken]; simp) hnames.dash_notMem
                · -- the first dash is the one between the two numbers
                  rw [idxOf?_append_cons highText hm.dash_notMem, Option.some_inj] at hdash
                  subst hdash
                  rw [List.take_left] at hlowSpells
                  rw [← List.drop_drop, List.drop_left] at hhighSpells
                  rw [hlowSpells.unique hm, hhighSpells.unique hn]
                  exact ⟨hfrom, hto⟩

theorem mem_parsePortTokens {pieces : List Bytes} {ports : List UInt16}
    (h : parsePortTokens pieces = some ports) (port : UInt16) :
    port ∈ ports ↔ ∃ piece ∈ pieces, TokenNames (trim piece) port.toNat := by
  induction pieces generalizing ports with
  | nil =>
      cases h
      simp
  | cons piece rest ih =>
      rw [parsePortTokens] at h
      split_ifs at h
      cases htoken : parsePortToken (trim piece) with
      | none =>
          rw [htoken] at h
          cases h
      | some first =>
          rw [htoken] at h
          obtain ⟨others, hothers, rfl⟩ := Option.map_eq_some_iff.mp h
          rw [List.mem_append, mem_parsePortToken htoken, ih hothers]
          simp

/-! ## The list as a whole -/

theorem mem_destutter' (ports : List UInt16) (first port : UInt16) :
    port ∈ ports.destutter' (· ≠ ·) first ↔ port ∈ first :: ports := by
  induction ports generalizing first with
  | nil => rfl
  | cons next rest ih =>
      by_cases heq : first = next
      · subst heq
        rw [List.destutter'_cons_neg _ (not_not.mpr rfl), ih]
        simp
      · rw [List.destutter'_cons_pos _ heq, List.mem_cons, ih, List.mem_cons (b := first)]

/-- Sorting and dropping neighbours that are equal loses no port. -/
theorem mem_destutter_sorted (ports : List UInt16) (port : UInt16) :
    port ∈ (ports.insertionSort (· ≤ ·)).destutter (· ≠ ·) ↔ port ∈ ports := by
  rw [← List.mem_insertionSort (· ≤ ·) (l := ports)]
  cases ports.insertionSort (· ≤ ·) with
  | nil => rfl
  | cons first rest => exact mem_destutter' rest first port

/-- An accepted list holds the ports it names. -/
theorem mem_parsePortList {value : Bytes} {ports : List UInt16} {all : Bool}
    (h : parsePortList value = some (ports, all))
    (hlist : trim value ≠ ascii "all" ∧ trim value ≠ ascii "*" ∧ trim value ≠ ascii "none") :
    all = false ∧ ∀ port, port ∈ ports ↔ PortNamed value port := by
  obtain ⟨hall, hstar, hnone⟩ := hlist
  rw [parsePortList] at h
  rw [if_neg (show ¬ (trim value = ascii "all" ∨ trim value = ascii "*") from
    fun hword => hword.elim hall hstar), if_neg hnone] at h
  split_ifs at h
  cases htokens : parsePortTokens (split ','.toUInt8 (trim value)) with
  | none =>
      rw [htokens] at h
      cases h
  | some parsedPorts =>
      rw [htokens] at h
      dsimp only at h
      split_ifs at h
      cases h
      refine ⟨rfl, fun port => ?_⟩
      rw [mem_destutter_sorted, mem_parsePortTokens htokens]
      rfl

/-- A refused text leaves the outputs alone; an accepted list becomes its
ports in order, and the ports that are shared are those; and what is written
of any result is read back as it. -/
theorem parsePortListInto_spec (value : Bytes) (outPorts : List UInt16) (outShareAll : Bool) :
    let result := parsePortListInto value outPorts outShareAll
    let ports := result.2.1
    let shareAll := result.2.2
    (result.1 = false → ports = outPorts ∧ shareAll = outShareAll)
      ∧ (result.1 = true →
        trim value ≠ ascii "all" ∧ trim value ≠ ascii "*" ∧ trim value ≠ ascii "none" →
        shareAll = false ∧ ports.Pairwise (· < ·)
          ∧ (∀ port ∈ ports, 1 ≤ port.toNat ∧ port.toNat ≤ 65535)
          ∧ (∀ port, port ∈ ports ↔ PortNamed value port)
          ∧ ∀ config : Config, config.sharedPorts = ports → config.shareAllPorts = shareAll →
            ∀ port, config.isPortShared port = true ↔ PortNamed value port)
      ∧ (result.1 = true → ∀ outPorts' outShareAll',
        parsePortListInto (sharedPortsText ports shareAll) outPorts' outShareAll'
          = (true, ports, shareAll)) := by
  dsimp only
  rw [parsePortListInto_eq]
  cases hparse : parsePortList value with
  | none => exact ⟨fun _ => ⟨rfl, rfl⟩, nofun, nofun⟩
  | some parsed =>
      obtain ⟨ports, shareAll⟩ := parsed
      have hvalid := parsePortList_valid hparse
      refine ⟨nofun, fun _ hlist => ?_, fun _ outPorts' outShareAll' => ?_⟩
      · obtain ⟨rfl, hmem⟩ := mem_parsePortList hparse hlist
        refine ⟨rfl, hvalid.sorted, fun port hport => ⟨?_, Nat.le_of_lt_succ port.toNat_lt⟩, hmem,
          fun config hports hall port => ?_⟩
        · have hne := hvalid.nonzero port hport
          rw [Nat.one_le_iff_ne_zero]
          exact fun hzero => hne (UInt16.toNat_inj.mp hzero)
        · rw [Config.isPortShared, hall, hports, if_neg Bool.false_ne_true]
          exact (binarySearch_port hvalid.sorted port).trans (hmem port)
      · rw [parsePortListInto_eq, parsePortList_sharedPortsText hvalid]

end Madoka
