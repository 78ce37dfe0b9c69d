import Madoka.Core.SharedPorts
import Madoka.Daemon.DataPlane

/-!
# Header Chain

How `parse_ipv6_transport` finds the ports of a packet: every index it reads
is inside the packet, and the ports it reports are those of the header that
RFC 8200 leads to, unless it has walked over a header RFC 8200 stops at.
-/

namespace Madoka

open Octets

/-! ## Every read is inside the packet -/

/-- Two bytes of the packet as one port, when both are there. -/
def readPort (packet : Bytes) (offset : Nat) : Option UInt16 := do
  let high ← packet[offset]?
  let low ← packet[offset + 1]?
  return high.toUInt16 <<< 8 ||| low.toUInt16

/-- The loop with every index checked: none when one is outside the packet, or
when the loop is not over in time. -/
def walkHeadersChecked (packet : Bytes) : Nat → UInt8 → Nat → Option IPv6TransportInfo
  | 0, _, _ => none
  | fuel + 1, nextHeader, offset =>
      if packet.length ≤ offset then some (.ofProtocol nextHeader)
      else if nextHeader = 6 ∨ nextHeader = 17 then
        if offset + 4 ≤ packet.length then do
          let srcPort ← readPort packet offset
          let dstPort ← readPort packet (offset + 2)
          return { protocol := nextHeader, srcPort, dstPort, validPorts := true }
        else some (.ofProtocol nextHeader)
      else if nextHeader = 58 then some (.ofProtocol 58)
      else if nextHeader = 0 ∨ nextHeader = 43 ∨ nextHeader = 60 then
        if offset + 2 > packet.length then some (.ofProtocol nextHeader)
        else do
          let next ← packet[offset]?
          let length ← packet[offset + 1]?
          walkHeadersChecked packet fuel next (offset + (length.toNat + 1) * 8)
      else if nextHeader = 44 then
        if offset + 8 > packet.length then some (.ofProtocol nextHeader)
        else do
          let next ← packet[offset]?
          walkHeadersChecked packet fuel next (offset + 8)
      else if nextHeader = 51 then
        if offset + 2 > packet.length then some (.ofProtocol nextHeader)
        else do
          let next ← packet[offset]?
          let length ← packet[offset + 1]?
          walkHeadersChecked packet fuel next (offset + (length.toNat + 2) * 4)
      else some (.ofProtocol nextHeader)

def parseIpv6TransportChecked (packet : Bytes) : Option IPv6TransportInfo :=
  if packet.length < 40 then some (.ofProtocol 0)
  else do
    let version : UInt8 ← packet[0]?
    if version >>> 4 ≠ 6 then return .ofProtocol 0
    let nextHeader ← packet[6]?
    walkHeadersChecked packet (packet.length + 1) nextHeader 40

theorem getElem?_inside {packet : Bytes} {i : Nat} (h : i < packet.length) :
    packet[i]? = some (packet.getD i 0) := by
  rw [List.getD_eq_getElem?_getD, List.getElem?_eq_getElem h, Option.getD_some]

theorem port_eq_ofBe (high low : UInt8) :
    high.toUInt16 <<< 8 ||| low.toUInt16 = (ofBe [high, low]).toUInt16 := by
  have hhigh := high.toNat_lt
  have hlow := low.toNat_lt
  have hor : high.toNat <<< 8 ||| low.toNat = high.toNat * 256 + low.toNat := by
    rw [← Nat.shiftLeft_add_eq_or_of_lt hlow, Nat.shiftLeft_eq]
  have hshift : high.toNat <<< 8 % 65536 = high.toNat <<< 8 := by
    rw [Nat.shiftLeft_eq]
    exact Nat.mod_eq_of_lt (by omega)
  have hvalue : ofBe [high, low] = high.toNat * 256 + low.toNat := by simp [ofBe]
  apply UInt16.toNat_inj.mp
  rw [hvalue, UInt16.toNat_or, UInt16.toNat_shiftLeft]
  simp only [UInt8.toNat_toUInt16, Nat.toUInt16, UInt16.toNat_ofNat']
  show high.toNat <<< 8 % 65536 ||| low.toNat = _
  rw [hshift, hor]
  exact (Nat.mod_eq_of_lt (by omega)).symm

theorem readBe_two {packet : Bytes} {offset : Nat} (h : offset + 2 ≤ packet.length) :
    readBe 2 offset packet = ofBe [packet.getD offset 0, packet.getD (offset + 1) 0] := by
  have hfirst : packet.drop offset = packet[offset] :: packet.drop (offset + 1) :=
    List.drop_eq_getElem_cons (by omega)
  have hsecond : packet.drop (offset + 1) = packet[offset + 1] :: packet.drop (offset + 2) :=
    List.drop_eq_getElem_cons (by omega)
  rw [readBe, hfirst, hsecond, List.getD_eq_getElem packet 0 (by omega),
    List.getD_eq_getElem packet 0 (by omega)]
  rfl

theorem readPort_inside {packet : Bytes} {offset : Nat} (h : offset + 2 ≤ packet.length) :
    readPort packet offset = some (readBe 2 offset packet).toUInt16 := by
  rw [readPort, getElem?_inside (by omega), getElem?_inside (by omega), readBe_two h,
    ← port_eq_ofBe]
  rfl

/-- With time for every header, the checked loop ends as the loop does: no
index was outside the packet. -/
theorem walkHeadersChecked_eq {packet : Bytes} {fuel offset : Nat} (nextHeader : UInt8)
    (h : packet.length ≤ offset + 8 * fuel) :
    walkHeadersChecked packet (fuel + 1) nextHeader offset
      = some (walkHeaders packet (fuel + 1) nextHeader offset) := by
  induction fuel generalizing offset nextHeader with
  | zero => rw [walkHeadersChecked, walkHeaders, if_pos (by omega), if_pos (by omega)]
  | succ fuel ih =>
      rw [walkHeadersChecked, walkHeaders]
      split_ifs with hend hports hread hicmp hoptions hshort hfragment hshort hauth hshort
      · rfl
      · rw [readPort_inside (by omega), readPort_inside (by omega)]
        rfl
      · rfl
      · rfl
      · rfl
      · rw [getElem?_inside (by omega), getElem?_inside (by omega)]
        exact ih _ (by omega)
      · rfl
      · rw [getElem?_inside (by omega)]
        exact ih _ (by omega)
      · rfl
      · rw [getElem?_inside (by omega), getElem?_inside (by omega)]
        exact ih _ (by omega)
      · rfl

theorem parseIpv6TransportChecked_eq (packet : Bytes) :
    parseIpv6TransportChecked packet = some (parseIpv6Transport packet) := by
  rw [parseIpv6TransportChecked, parseIpv6Transport]
  by_cases hshort : packet.length < 40
  · rw [if_pos hshort, if_pos (.inl hshort)]
  · have hwalk : walkHeadersChecked packet (packet.length + 1) (packet.getD 6 0) 40
        = some (walkHeaders packet (packet.length + 1) (packet.getD 6 0) 40) :=
      walkHeadersChecked_eq _ (by omega)
    rw [walkHeaders_more 1 _ (by omega)] at hwalk
    rw [if_neg hshort, getElem?_inside (by omega), getElem?_inside (by omega)]
    generalize packet.getD 0 0 = version
    generalize packet.getD 6 0 = nextHeader at hwalk ⊢
    by_cases hversion : version >>> 4 = 6
    · rw [if_neg (by simp [hshort, hversion])]
      simpa [hversion] using hwalk
    · rw [if_pos (.inr hversion)]
      simp [hversion]

/-! ## The chain of headers by their lengths -/

/-- The bytes a header takes up, when another header follows it. -/
def extensionLength (packet : Bytes) (nextHeader : UInt8) (offset : Nat) : Option Nat :=
  if nextHeader = 0 ∨ nextHeader = 43 ∨ nextHeader = 60 then
    some (((packet.getD (offset + 1) 0).toNat + 1) * 8)
  else if nextHeader = 44 then some 8
  else if nextHeader = 51 then some (((packet.getD (offset + 1) 0).toNat + 2) * 4)
  else none

/-- The headers between two places of the chain, each taken with its own
length and all of it in the packet. -/
inductive LeadsTo (packet : Bytes) : UInt8 → Nat → List (UInt8 × Nat) → UInt8 → Nat → Prop where
  | here (nextHeader : UInt8) (offset : Nat) : LeadsTo packet nextHeader offset [] nextHeader offset
  | pass {nextHeader last : UInt8} {offset length finish : Nat} {passed : List (UInt8 × Nat)}
      (hlength : extensionLength packet nextHeader offset = some length)
      (hfits : offset + length ≤ packet.length)
      (hrest : LeadsTo packet (packet.getD offset 0) (offset + length) passed last finish) :
      LeadsTo packet nextHeader offset ((nextHeader, offset) :: passed) last finish

/-- A TCP or UDP header with its ports in the packet. -/
def PortsAt (packet : Bytes) (nextHeader : UInt8) (offset : Nat) : Prop :=
  (nextHeader = 6 ∨ nextHeader = 17) ∧ offset + 4 ≤ packet.length

/-- What is reported of such a header. -/
def portsInfo (packet : Bytes) (nextHeader : UInt8) (offset : Nat) : IPv6TransportInfo where
  protocol := nextHeader
  srcPort := (readBe 2 offset packet).toUInt16
  dstPort := (readBe 2 (offset + 2) packet).toUInt16
  validPorts := true

theorem extensionLength_ge {packet : Bytes} {nextHeader : UInt8} {offset length : Nat}
    (h : extensionLength packet nextHeader offset = some length) : 8 ≤ length := by
  unfold extensionLength at h
  split_ifs at h
  all_goals cases h
  all_goals omega

theorem extensionLength_of_ports {packet : Bytes} {nextHeader : UInt8} {offset : Nat}
    (h : nextHeader = 6 ∨ nextHeader = 17) : extensionLength packet nextHeader offset = none := by
  rcases h with rfl | rfl
  · rfl
  · rfl

/-- Only one TCP or UDP header lies on a chain. -/
theorem LeadsTo.unique {packet : Bytes} {nextHeader last last' : UInt8} {offset finish finish' : Nat}
    {passed passed' : List (UInt8 × Nat)} (h : LeadsTo packet nextHeader offset passed last finish)
    (h' : LeadsTo packet nextHeader offset passed' last' finish')
    (hports : PortsAt packet last finish) (hports' : PortsAt packet last' finish') :
    passed = passed' := by
  induction h generalizing passed' with
  | here nextHeader offset =>
      cases h' with
      | here => rfl
      | pass hlength _ _ =>
          rw [extensionLength_of_ports hports.1] at hlength
          cases hlength
  | pass hlength _ hrest ih =>
      cases h' with
      | here =>
          rw [extensionLength_of_ports hports'.1] at hlength
          cases hlength
      | pass hlength' _ hrest' =>
          rw [hlength] at hlength'
          cases hlength'
          rw [ih hrest' hports]

theorem LeadsTo.snoc {packet : Bytes} {nextHeader last : UInt8} {offset finish length : Nat}
    {passed : List (UInt8 × Nat)} (h : LeadsTo packet nextHeader offset passed last finish)
    (hlength : extensionLength packet last finish = some length)
    (hfits : finish + length ≤ packet.length) :
    LeadsTo packet nextHeader offset (passed ++ [(last, finish)]) (packet.getD finish 0)
      (finish + length) := by
  induction h with
  | here nextHeader offset => exact .pass hlength hfits (.here _ _)
  | pass hlength' hfits' _ ih => exact .pass hlength' hfits' (ih hlength hfits)

/-! ## The loop follows the chain -/

theorem walkHeaders_over {packet : Bytes} {fuel offset : Nat} (nextHeader : UInt8)
    (h : packet.length ≤ offset) :
    walkHeaders packet fuel nextHeader offset = .ofProtocol nextHeader := by
  cases fuel with
  | zero => rfl
  | succ fuel => rw [walkHeaders, if_pos h]

/-- A turn at an extension header goes on behind it. -/
theorem walkHeaders_pass {packet : Bytes} {fuel offset length : Nat} {nextHeader : UInt8}
    (hlength : extensionLength packet nextHeader offset = some length)
    (hfits : offset + length ≤ packet.length) :
    walkHeaders packet (fuel + 1) nextHeader offset
      = walkHeaders packet fuel (packet.getD offset 0) (offset + length) := by
  have hmin := extensionLength_ge hlength
  have hports : ¬ (nextHeader = 6 ∨ nextHeader = 17) := by
    intro hports
    rw [extensionLength_of_ports hports] at hlength
    cases hlength
  have hicmp : nextHeader ≠ 58 := by
    rintro rfl
    cases hlength
  rw [walkHeaders, if_neg (by omega), if_neg hports, if_neg hicmp]
  unfold extensionLength at hlength
  split_ifs at hlength with hoptions hfragment hauth
  · cases hlength
    rw [if_pos hoptions, if_neg (by omega)]
  · cases hlength
    rw [if_neg hoptions, if_pos hfragment, if_neg (by omega)]
  · cases hlength
    rw [if_neg hoptions, if_neg hfragment, if_pos hauth, if_neg (by omega)]

/-- No ports are reported of a header that reaches past the packet. -/
theorem walkHeaders_past {packet : Bytes} {fuel offset length : Nat} {nextHeader : UInt8}
    (hlength : extensionLength packet nextHeader offset = some length)
    (hpast : packet.length < offset + length) :
    (walkHeaders packet (fuel + 1) nextHeader offset).validPorts = false := by
  have hports : ¬ (nextHeader = 6 ∨ nextHeader = 17) := by
    intro hports
    rw [extensionLength_of_ports hports] at hlength
    cases hlength
  rw [walkHeaders, if_neg hports]
  unfold extensionLength at hlength
  split_ifs at hlength with hoptions hfragment hauth
  · cases hlength
    rw [if_pos hoptions, walkHeaders_over _ hpast.le]
    split_ifs
    all_goals rfl
  · cases hlength
    rw [if_neg hoptions, if_pos hfragment, walkHeaders_over _ hpast.le]
    split_ifs
    all_goals rfl
  · cases hlength
    rw [if_neg hoptions, if_neg hfragment, if_pos hauth, walkHeaders_over _ hpast.le]
    split_ifs
    all_goals rfl

/-- At the end of the chain ports are reported of a TCP or UDP header only. -/
theorem walkHeaders_end {packet : Bytes} {fuel offset : Nat} {nextHeader : UInt8}
    (hlength : extensionLength packet nextHeader offset = none)
    (hvalid : (walkHeaders packet (fuel + 1) nextHeader offset).validPorts = true) :
    PortsAt packet nextHeader offset := by
  have hpassed : ¬ (nextHeader = 0 ∨ nextHeader = 43 ∨ nextHeader = 60) ∧ nextHeader ≠ 44
      ∧ nextHeader ≠ 51 := by
    unfold extensionLength at hlength
    split_ifs at hlength with hoptions hfragment hauth
    exact ⟨hoptions, hfragment, hauth⟩
  rw [walkHeaders, if_neg hpassed.1, if_neg hpassed.2.1, if_neg hpassed.2.2] at hvalid
  split_ifs at hvalid with hend hports hfits hicmp
  · cases hvalid
  · exact ⟨hports, hfits⟩
  · cases hvalid
  · cases hvalid
  · cases hvalid

theorem walkHeaders_ports {packet : Bytes} {fuel offset : Nat} {nextHeader : UInt8}
    (h : PortsAt packet nextHeader offset) :
    walkHeaders packet (fuel + 1) nextHeader offset = portsInfo packet nextHeader offset := by
  have hfits := h.2
  rw [walkHeaders, if_neg (by omega), if_pos h.1, if_pos hfits]
  rfl

/-- Ports that are reported are those at the end of a chain. -/
theorem walkHeaders_leadsTo {packet : Bytes} {fuel offset : Nat} {nextHeader : UInt8}
    (h : (walkHeaders packet fuel nextHeader offset).validPorts = true) :
    ∃ passed last finish, LeadsTo packet nextHeader offset passed last finish
      ∧ PortsAt packet last finish := by
  induction fuel generalizing nextHeader offset with
  | zero => cases h
  | succ fuel ih =>
      cases hlength : extensionLength packet nextHeader offset with
      | none => exact ⟨[], nextHeader, offset, .here _ _, walkHeaders_end hlength h⟩
      | some length =>
          by_cases hfits : offset + length ≤ packet.length
          · rw [walkHeaders_pass hlength hfits] at h
            obtain ⟨passed, last, finish, hrest, hports⟩ := ih h
            exact ⟨_, last, finish, .pass hlength hfits hrest, hports⟩
          · rw [walkHeaders_past hlength (not_le.mp hfits)] at h
            cases h

/-- And whatever the chain ends in is reported. -/
theorem walkHeaders_of_leadsTo {packet : Bytes} {fuel offset finish : Nat} {nextHeader last : UInt8}
    {passed : List (UInt8 × Nat)} (h : LeadsTo packet nextHeader offset passed last finish)
    (hports : PortsAt packet last finish) (hfuel : packet.length ≤ offset + 8 * fuel) :
    walkHeaders packet fuel nextHeader offset = portsInfo packet last finish := by
  induction h generalizing fuel with
  | here nextHeader offset =>
      obtain ⟨turns, rfl⟩ : ∃ turns, fuel = turns + 1 :=
        Nat.exists_eq_succ_of_ne_zero fun hzero => by
          have hfits := hports.2
          omega
      exact walkHeaders_ports hports
  | pass hlength hfits _ ih =>
      have hmin := extensionLength_ge hlength
      obtain ⟨turns, rfl⟩ : ∃ turns, fuel = turns + 1 :=
        Nat.exists_eq_succ_of_ne_zero fun hzero => by omega
      rw [walkHeaders_pass hlength hfits]
      exact ih hports (by omega)

/-- The chain of a whole packet. -/
def Reaches (packet : Bytes) (passed : List (UInt8 × Nat)) (nextHeader : UInt8) (offset : Nat) :
    Prop :=
  40 ≤ packet.length ∧ packet.getD 0 0 >>> 4 = 6
    ∧ LeadsTo packet (packet.getD 6 0) 40 passed nextHeader offset

theorem parseIpv6Transport_reaches {packet : Bytes}
    (h : (parseIpv6Transport packet).validPorts = true) :
    ∃ passed nextHeader offset, Reaches packet passed nextHeader offset
      ∧ PortsAt packet nextHeader offset := by
  rw [parseIpv6Transport] at h
  split_ifs at h with hrefused
  · cases h
  · rw [not_or, not_lt, not_not] at hrefused
    obtain ⟨passed, last, finish, hleads, hports⟩ := walkHeaders_leadsTo h
    exact ⟨passed, last, finish, ⟨hrefused.1, hrefused.2, hleads⟩, hports⟩

theorem parseIpv6Transport_of_reaches {packet : Bytes} {passed : List (UInt8 × Nat)}
    {nextHeader : UInt8} {offset : Nat} (h : Reaches packet passed nextHeader offset)
    (hports : PortsAt packet nextHeader offset) :
    parseIpv6Transport packet = portsInfo packet nextHeader offset := by
  obtain ⟨hlong, hversion, hleads⟩ := h
  rw [parseIpv6Transport, if_neg (not_or.mpr ⟨not_lt.mpr hlong, not_not.mpr hversion⟩)]
  exact walkHeaders_of_leadsTo hleads hports (by omega)

theorem LeadsTo.offset_le {packet : Bytes} {nextHeader last : UInt8} {offset finish : Nat}
    {passed : List (UInt8 × Nat)} (h : LeadsTo packet nextHeader offset passed last finish) :
    offset ≤ finish := by
  induction h with
  | here => exact le_rfl
  | pass hlength _ _ ih => omega

/-- The walk over any bytes is over in time, reads nothing outside the packet,
and reports ports only of a TCP or UDP header whose ports are in the packet. -/
theorem parseIpv6Transport_safe (packet : Bytes) :
    parseIpv6TransportChecked packet = some (parseIpv6Transport packet)
      ∧ ((parseIpv6Transport packet).validPorts = true →
        ((parseIpv6Transport packet).protocol = 6 ∨ (parseIpv6Transport packet).protocol = 17)
          ∧ ∃ offset, 40 ≤ offset ∧ offset + 4 ≤ packet.length
            ∧ (parseIpv6Transport packet).srcPort = (readBe 2 offset packet).toUInt16
            ∧ (parseIpv6Transport packet).dstPort = (readBe 2 (offset + 2) packet).toUInt16) := by
  refine ⟨parseIpv6TransportChecked_eq packet, fun hvalid => ?_⟩
  obtain ⟨passed, nextHeader, offset, hreaches, hports⟩ := parseIpv6Transport_reaches hvalid
  rw [parseIpv6Transport_of_reaches hreaches hports]
  exact ⟨hports.1, offset, hreaches.2.2.offset_le, hports.2, rfl, rfl⟩

/-! ## The chain as RFC 8200 walks it -/

/-- The thirteen bits of a Fragment header that say where its payload belongs. -/
def fragmentOffset (packet : Bytes) (offset : Nat) : Nat :=
  readBe 2 (offset + 2) packet / 8

/-- The headers RFC 8200 leads to. Hop-by-Hop Options come directly after the
IPv6 header or not at all, and behind a Fragment header of another offset than
zero there are no further headers, only a piece of the payload. -/
inductive Rfc8200 (packet : Bytes) : UInt8 → Nat → Prop where
  | first (hlong : 40 ≤ packet.length) (hversion : packet.getD 0 0 >>> 4 = 6) :
      Rfc8200 packet (packet.getD 6 0) 40
  | hopByHop (h : Rfc8200 packet 0 40)
      (hfits : 40 + ((packet.getD 41 0).toNat + 1) * 8 ≤ packet.length) :
      Rfc8200 packet (packet.getD 40 0) (40 + ((packet.getD 41 0).toNat + 1) * 8)
  | options {nextHeader : UInt8} {offset : Nat} (h : Rfc8200 packet nextHeader offset)
      (hkind : nextHeader = 43 ∨ nextHeader = 60)
      (hfits : offset + ((packet.getD (offset + 1) 0).toNat + 1) * 8 ≤ packet.length) :
      Rfc8200 packet (packet.getD offset 0)
        (offset + ((packet.getD (offset + 1) 0).toNat + 1) * 8)
  | fragment {offset : Nat} (h : Rfc8200 packet 44 offset) (hfits : offset + 8 ≤ packet.length)
      (hfirst : fragmentOffset packet offset = 0) :
      Rfc8200 packet (packet.getD offset 0) (offset + 8)
  | authentication {offset : Nat} (h : Rfc8200 packet 51 offset)
      (hfits : offset + ((packet.getD (offset + 1) 0).toNat + 2) * 4 ≤ packet.length) :
      Rfc8200 packet (packet.getD offset 0)
        (offset + ((packet.getD (offset + 1) 0).toNat + 2) * 4)

/-- The headers that may be walked over. -/
def MayPass (packet : Bytes) (header : UInt8 × Nat) : Prop :=
  (header.1 = 0 → header.2 = 40) ∧ (header.1 = 44 → fragmentOffset packet header.2 = 0)

theorem Rfc8200.reaches {packet : Bytes} {nextHeader : UInt8} {offset : Nat}
    (h : Rfc8200 packet nextHeader offset) :
    ∃ passed, Reaches packet passed nextHeader offset ∧ ∀ header ∈ passed, MayPass packet header := by
  have step : ∀ {nextHeader offset length},
      (∃ passed, Reaches packet passed nextHeader offset ∧ ∀ header ∈ passed, MayPass packet header)
      → extensionLength packet nextHeader offset = some length → offset + length ≤ packet.length
      → MayPass packet (nextHeader, offset)
      → ∃ passed, Reaches packet passed (packet.getD offset 0) (offset + length)
        ∧ ∀ header ∈ passed, MayPass packet header := by
    rintro nextHeader offset length ⟨passed, ⟨hlong, hversion, hleads⟩, hpassed⟩ hlength hfits hmay
    refine ⟨_, ⟨hlong, hversion, hleads.snoc hlength hfits⟩, fun header hheader => ?_⟩
    rcases List.mem_append.mp hheader with hold | hnew
    · exact hpassed header hold
    · rw [List.mem_singleton.mp hnew]
      exact hmay
  induction h with
  | first hlong hversion =>
      exact ⟨[], ⟨hlong, hversion, .here _ _⟩, fun _ hheader => absurd hheader List.not_mem_nil⟩
  | hopByHop _ hfits ih => exact step ih rfl hfits ⟨fun _ => rfl, nofun⟩
  | options _ hkind hfits ih =>
      rcases hkind with rfl | rfl
      · exact step ih rfl hfits ⟨nofun, nofun⟩
      · exact step ih rfl hfits ⟨nofun, nofun⟩
  | fragment _ hfits hfirst ih => exact step ih rfl hfits ⟨nofun, fun _ => hfirst⟩
  | authentication _ hfits ih => exact step ih rfl hfits ⟨nofun, nofun⟩

theorem Rfc8200.pass {packet : Bytes} {nextHeader : UInt8} {offset length : Nat}
    (h : Rfc8200 packet nextHeader offset)
    (hlength : extensionLength packet nextHeader offset = some length)
    (hfits : offset + length ≤ packet.length) (hmay : MayPass packet (nextHeader, offset)) :
    Rfc8200 packet (packet.getD offset 0) (offset + length) := by
  unfold extensionLength at hlength
  split_ifs at hlength with hoptions hfragment hauth
  · cases hlength
    rcases hoptions with rfl | hkind
    · obtain rfl : offset = 40 := hmay.1 rfl
      exact .hopByHop h hfits
    · exact .options h hkind hfits
  · cases hlength
    subst hfragment
    exact .fragment h hfits (hmay.2 rfl)
  · cases hlength
    subst hauth
    exact .authentication h hfits

theorem Rfc8200.leadsTo {packet : Bytes} {nextHeader last : UInt8} {offset finish : Nat}
    {passed : List (UInt8 × Nat)} (h : Rfc8200 packet nextHeader offset)
    (hleads : LeadsTo packet nextHeader offset passed last finish)
    (hpassed : ∀ header ∈ passed, MayPass packet header) : Rfc8200 packet last finish := by
  induction hleads with
  | here => exact h
  | pass hlength hfits _ ih =>
      exact ih (h.pass hlength hfits (hpassed _ List.mem_cons_self))
        fun header hheader => hpassed header (List.mem_cons_of_mem _ hheader)

/-- The ports reported are those of a TCP or UDP header RFC 8200 leads to. -/
def PortsReal (packet : Bytes) : Prop :=
  ∃ nextHeader offset, Rfc8200 packet nextHeader offset ∧ PortsAt packet nextHeader offset
    ∧ parseIpv6Transport packet = portsInfo packet nextHeader offset

/-- Reported ports are real exactly when no header before them is a later
fragment's or a Hop-by-Hop header out of its place. -/
theorem portsReal_iff (packet : Bytes) :
    ((parseIpv6Transport packet).validPorts = true → PortsReal packet)
      ↔ ∀ passed nextHeader offset, Reaches packet passed nextHeader offset →
        PortsAt packet nextHeader offset → ∀ header ∈ passed, MayPass packet header := by
  constructor
  · intro h passed nextHeader offset hreaches hports
    have hvalid : (parseIpv6Transport packet).validPorts = true := by
      rw [parseIpv6Transport_of_reaches hreaches hports]
      rfl
    obtain ⟨nextHeader', offset', hrfc, hports', -⟩ := h hvalid
    obtain ⟨passed', hreaches', hpassed'⟩ := hrfc.reaches
    rw [hreaches.2.2.unique hreaches'.2.2 hports hports']
    exact hpassed'
  · intro h hvalid
    obtain ⟨passed, nextHeader, offset, hreaches, hports⟩ := parseIpv6Transport_reaches hvalid
    have hpassed := h passed nextHeader offset hreaches hports
    obtain ⟨hlong, hversion, hleads⟩ := hreaches
    exact ⟨nextHeader, offset, (Rfc8200.first hlong hversion).leadsTo hleads hpassed, hports,
      parseIpv6Transport_of_reaches ⟨hlong, hversion, hleads⟩ hports⟩

/-! ## A piece of a payload taken for ports -/

/-- The port check asks the sorted list by halving. -/
theorem isPortShared_eq_search {node : DataNode} (h : node.sharedPorts.Pairwise (· < ·))
    (port : UInt16) : isPortShared node port
      = (node.shareAllPorts
        || Bisect.binarySearch UInt16.toNat port.toNat node.sharedPorts) := by
  have hsearch := binarySearch_port h port
  have hmem : node.sharedPorts.contains port = true ↔ port ∈ node.sharedPorts :=
    List.contains_iff_mem
  rw [isPortShared, Bool.eq_iff_iff.mpr (hmem.trans hsearch.symm)]

/-- A fragment that is not the first: behind its Fragment header comes payload
that spells the destination port 80. -/
def laterFragment : Bytes :=
  [0x60, 0, 0, 0, 0, 12, 44, 64] ++ List.replicate 32 0
    ++ [17, 0, 0, 8, 0, 0, 0, 1] ++ [0x12, 0x34, 0, 80]

def webOnlyNode : DataNode where
  id := zero 32
  network := zero 16
  mtu := 1500
  shareAllPorts := false
  sharedPorts := [80]
  topology := []
  contacts := kademliaInit (zero 32)
  table := []
  sessions := []
  activeOutboundPorts := ∅
  nextPacketId := 0
  counters := fun _ => 0

theorem laterFragment_ports :
    ¬ (∀ packet, (parseIpv6Transport packet).validPorts = true → PortsReal packet)
      ∧ (admitPorts webOnlyNode 0 laterFragment).1 = true := by
  constructor
  · intro hall
    have hreaches : Reaches laterFragment [(44, 40)] 17 48 :=
      ⟨by decide, by decide, @LeadsTo.pass _ 44 17 40 8 48 [] rfl (by decide) (.here 17 48)⟩
    have hpassed := (portsReal_iff laterFragment).mp (hall laterFragment) _ _ _ hreaches
      ⟨.inr rfl, by decide⟩ (44, 40) (by decide)
    exact absurd (hpassed.2 rfl) (by decide)
  · decide

end Madoka
