import Madoka.Core.ConfigFile

/-!
# Saved Config

What `load_config` makes of a file that `save_config` wrote, for every
configuration that was itself read or built from checked values.
-/

namespace Madoka

open Octets

variable (x : External) (p : Paths)

/-! ## A written file -/

/-- What every configuration satisfies that was read or built, whatever its
listen address. -/
structure SettingsValid (config : Config) : Prop where
  network : config.network.val.head? = some 0xfd ∧ (config.network.val.drop 8).all (· = 0) = true
  identity_ne_nil : config.identityFile ≠ []
  identity_name : ∀ c ∈ p.filename config.identityFile, c ≠ 0 ∧ c ≠ 10
  interfaceName : validInterface config.interfaceName = true
  mtu : 1280 ≤ config.mtu.toNat ∧ config.mtu.toNat ≤ 65535
  ports : PortsValid config.sharedPorts config.shareAllPorts

structure ConfigValid (config : Config) : Prop extends SettingsValid p config where
  listen : ListenText x config.listenAddress

theorem plain_networkText (network : IPv6) : Plain (formatIpv6 network ++ ascii "/64") :=
  Plain.append
    (.of_subset (t := ascii "0123456789abcdef:") (plain_of_all (by decide))
      fun _ hc => mem_formatGroups hc)
    (plain_of_all (by decide))

theorem plain_interface {name : Bytes} (h : validInterface name = true) : Plain name := by
  have hchars : name.all isInterfaceChar = true := (of_decide_eq_true h).2.2
  rw [List.all_eq_true] at hchars
  refine Plain.of_subset (t := ascii
    "abcdefghijklmnopqrstuvwxyzABCDEFGHIJKLMNOPQRSTUVWXYZ0123456789_")
    (plain_of_all (by decide)) ?_
  exact fun c hc => List.contains_iff_mem.mp (hchars c hc)

variable {x}

theorem plain_endpoint (hx : x.Lawful) {address : Bytes} (h : ListenText x address)
    (port : UInt16) : Plain (formatEndpoint address port) := by
  have haddress : Plain address :=
    .of_subset (t := ascii "0123456789abcdefABCDEF:.") (plain_of_all (by decide))
      (h.chars hx).2
  have hport := plain_toDecimal port.toNat
  have hcolon : Plain [':'.toUInt8] := plain_of_all (by decide)
  have hopen : Plain ['['.toUInt8] := plain_of_all (by decide)
  have hclose : Plain [']'.toUInt8] := plain_of_all (by decide)
  unfold formatEndpoint
  by_cases hmem : ':'.toUInt8 ∈ address
  · rw [if_neg (not_not.mpr hmem)]
    exact hopen.append (haddress.append (hclose.append (hcolon.append hport)))
  · rw [if_pos hmem]
    exact haddress.append (hcolon.append hport)

variable {p} {config : Config}

theorem configLines_eq (hc : ConfigValid x p config) :
    configLines p config =
      [configEntry "network" (formatIpv6 config.network ++ ascii "/64"),
        configEntry "identity" (p.filename config.identityFile),
        configEntry "interface" config.interfaceName,
        configEntry "mtu" (toDecimal config.mtu.toNat),
        configEntry "listen" (formatEndpoint config.listenAddress config.listenPort),
        configEntry "shared_ports" (sharedPortsText config.sharedPorts config.shareAllPorts)] := by
  unfold configLines
  rw [if_pos hc.identity_ne_nil]
  rfl

/-- No line of the file has an end of line or a zero byte inside. -/
theorem mem_configLines (hx : x.Lawful) (hc : ConfigValid x p config) :
    ∀ line ∈ configLines p config, ∀ c ∈ line, c ≠ 0 ∧ c ≠ 10 := by
  have hplain : ∀ {text : Bytes}, Plain text → ∀ c ∈ text, c ≠ 0 ∧ c ≠ 10 := by
    intro text htext c hmem
    obtain ⟨hspace, hzero⟩ := htext c hmem
    refine ⟨hzero, ?_⟩
    rintro rfl
    cases hspace
  have hentry : ∀ {name : String} {value : Bytes}, Plain (ascii name) →
      (∀ c ∈ value, c ≠ 0 ∧ c ≠ 10) → ∀ c ∈ configEntry name value, c ≠ 0 ∧ c ≠ 10 := by
    intro name value hname hvalue c hmem
    rcases List.mem_append.mp hmem with hmem | hmem
    · exact hplain hname c hmem
    · rcases List.mem_cons.mp hmem with rfl | hmem
      · decide
      · exact hvalue c hmem
  intro line hline
  rw [configLines_eq hc] at hline
  simp only [List.mem_cons, List.not_mem_nil, or_false] at hline
  rcases hline with rfl | rfl | rfl | rfl | rfl | rfl
  · exact hentry (plain_of_all (by decide)) (hplain (plain_networkText config.network))
  · exact hentry (plain_of_all (by decide)) hc.identity_name
  · exact hentry (plain_of_all (by decide)) (hplain (plain_interface hc.interfaceName))
  · exact hentry (plain_of_all (by decide)) (hplain (plain_toDecimal _))
  · exact hentry (plain_of_all (by decide)) (hplain (plain_endpoint hx hc.listen _))
  · exact hentry (plain_of_all (by decide)) (hplain (plain_sharedPortsText _ _))

theorem parseNetwork_formatIpv6 (hx : x.Lawful) (hc : ConfigValid x p config) :
    parseNetwork x (formatIpv6 config.network ++ ascii "/64") = .ok config.network := by
  have hlength : (formatIpv6 config.network ++ ascii "/64").length - 3
      = (formatIpv6 config.network).length := by
    rw [List.length_append]
    show _ + 3 - 3 = _
    omega
  have hsuffix : (ascii "/64").isSuffixOf (formatIpv6 config.network ++ ascii "/64") = true :=
    List.isSuffixOf_iff_suffix.mpr (List.suffix_append _ _)
  have hzero : (0 : UInt8) ∉ formatIpv6 config.network := fun hmem =>
    absurd (mem_formatGroups hmem) (by decide)
  unfold parseNetwork
  rw [if_neg (by rw [hsuffix]; decide), hlength, List.take_left, cStr_eq_self hzero,
    hx.inetPton6_formatIpv6]
  dsimp only
  rw [if_neg (by rw [hc.network.1, hc.network.2]; decide)]

theorem parseMtu_toDecimal (hc : ConfigValid x p config) :
    parseMtu (toDecimal config.mtu.toNat) = some config.mtu := by
  have hall : (toDecimal config.mtu.toNat).all isDigit = true := by
    rw [List.all_eq_true]
    intro c hmem
    exact isDigit_of_mem_toDecimal hmem
  unfold parseMtu
  rw [ofDecimal_toDecimal, if_pos ⟨toDecimal_ne_nil _, hall, hc.mtu.1, hc.mtu.2⟩]
  simp [Nat.toUInt32]

/-- The fields that the reader finds in a written file: all but `wintun_dll`. -/
def writtenFields (path : Bytes) (config : Config) : ConfigFields where
  network := some config.network
  identityFile := some (p.within path (trim (p.filename config.identityFile)))
  interfaceName := some config.interfaceName
  mtu := some config.mtu
  wintunDll := none
  listen := some (config.listenAddress, config.listenPort)
  sharedPorts := some (config.sharedPorts, config.shareAllPorts)

theorem configFields_cons {path : Bytes} {fields fields' : ConfigFields} {line : Bytes}
    {rest : List Bytes} (h : configLine x p path fields line = .ok fields') :
    configFields x p path fields (line :: rest) = configFields x p path fields' rest := by
  rw [configFields, h]

/-- A line whose value is read as it stands. -/
theorem configLine_plain {path : Bytes} {fields fields' : ConfigFields} {name : String}
    {value : Bytes} (hname : KeyText (ascii name)) (hvalue : Plain value) (hne : value ≠ [])
    (h : configField x p path fields (ascii name) value = .ok fields') :
    configLine x p path fields (configEntry name value) = .ok fields' := by
  rw [configLine_entry x p path fields value hname, trim_plain hvalue, if_neg hne, h]

theorem sharedPortsText_ne_nil (ports : List UInt16) (all : Bool) :
    sharedPortsText ports all ≠ [] := by
  unfold sharedPortsText
  split_ifs with hall hnil
  · decide
  · decide
  · obtain ⟨c, rest, hcons, -⟩ := portsText_head hnil
    rw [hcons]
    simp

theorem configFields_configLines (hx : x.Lawful) (path : Bytes) (hc : ConfigValid x p config) :
    configFields x p path .initial (configLines p config ++ [[]])
      = if trim (p.filename config.identityFile) = [] then
          .error "Configuration values cannot be empty"
        else .ok (writtenFields (p := p) path config) := by
  rw [configLines_eq hc]
  simp only [List.cons_append, List.nil_append]
  rw [configFields_cons (configLine_plain (by decide) (plain_networkText _) (by simp [ascii])
    (configField_network x p path rfl (parseNetwork_formatIpv6 hx hc)))]
  by_cases hempty : trim (p.filename config.identityFile) = []
  · rw [if_pos hempty, configFields, configLine_entry x p path _ _ (by decide), if_pos hempty]
  · rw [if_neg hempty, configFields_cons ((configLine_entry x p path _ _
      (by decide)).trans ((if_neg hempty).trans (configField_identity x p path rfl)))]
    have hinterface : config.interfaceName ≠ [] := (of_decide_eq_true hc.interfaceName).1
    have hlisten : formatEndpoint config.listenAddress config.listenPort ≠ [] := by
      unfold formatEndpoint
      split_ifs <;> simp
    rw [configFields_cons (configLine_plain (by decide) (plain_interface hc.interfaceName)
        hinterface (configField_interface x p path rfl hc.interfaceName)),
      configFields_cons (configLine_plain (by decide) (plain_toDecimal _)
        (toDecimal_ne_nil _) (configField_mtu x p path rfl (parseMtu_toDecimal hc))),
      configFields_cons (configLine_plain (by decide) (plain_endpoint hx hc.listen _)
        hlisten (configField_listen x p path rfl (parseEndpoint_formatEndpoint hx hc.listen _))),
      configFields_cons (configLine_plain (by decide) (plain_sharedPortsText _ _)
        (sharedPortsText_ne_nil _ _)
        (configField_sharedPorts x p path rfl (parsePortList_sharedPortsText hc.ports))),
      configFields_cons (configLine_blank x p path _)]
    rfl

/-- The size of the written file. -/
def configSize (p : Paths) (config : Config) : Nat :=
  let endpointSize := config.listenAddress.length + (if ':'.toUInt8 ∈ config.listenAddress then 3 else 1)
    + decimalSize config.listenPort.toNat
  let sizes := [39 + 3, (p.filename config.identityFile).length, config.interfaceName.length,
    decimalSize config.mtu.toNat, endpointSize, sharedPortsSize config.sharedPorts config.shareAllPorts]
  -- the six names with their equals signs, and six line ends
  (8 + 9 + 10 + 4 + 7 + 13) + 6 + sizes.sum

theorem sharedPortsSize_lt_configSize (p : Paths) (config : Config) :
    sharedPortsSize config.sharedPorts config.shareAllPorts < configSize p config := by
  unfold configSize
  simp only [List.sum_cons]
  omega

theorem configText_length (hc : ConfigValid x p config) :
    (configText p config).length = configSize p config := by
  have hmtu : (toDecimal config.mtu.toNat).length = decimalSize config.mtu.toNat := by
    apply toDecimal_length
    have := hc.mtu.2
    omega
  have hendpoint : (formatEndpoint config.listenAddress config.listenPort).length
      = config.listenAddress.length + (if ':'.toUInt8 ∈ config.listenAddress then 3 else 1)
        + decimalSize config.listenPort.toNat := by
    unfold formatEndpoint
    by_cases hcolon : ':'.toUInt8 ∈ config.listenAddress
    · rw [if_neg (not_not.mpr hcolon), if_pos hcolon]
      simp only [List.length_cons, List.length_append, toDecimal_port_length]
      omega
    · rw [if_pos hcolon, if_neg hcolon]
      simp only [List.length_cons, List.length_append, toDecimal_port_length]
      omega
  have hentry : ∀ (name : String) (value : Bytes),
      (configEntry name value ++ [10]).length = name.toList.length + 2 + value.length := by
    intro name value
    simp only [configEntry, ascii, List.length_append, List.length_map, List.length_cons,
      List.length_nil]
    omega
  have hnetwork : (formatIpv6 config.network ++ ascii "/64").length = 42 := by
    rw [List.length_append, formatIpv6_length]
    rfl
  unfold configText configSize
  rw [configLines_eq hc]
  simp only [List.flatMap_cons, List.flatMap_nil, List.length_append, List.append_nil] at hentry ⊢
  simp only [hentry, hmtu, hendpoint, hnetwork, sharedPortsText_length, List.sum_cons, List.sum_nil]
  have hnames : "network".toList.length = 7 ∧ "identity".toList.length = 8
      ∧ "interface".toList.length = 9 ∧ "mtu".toList.length = 3 ∧ "listen".toList.length = 6
      ∧ "shared_ports".toList.length = 12 := by decide
  omega

/-- Reading a written file: the identity file is looked for under its name
next to the configuration file, and there is no `wintun_dll`. -/
theorem loadConfig_configText (hx : x.Lawful) (path : Bytes) (hc : ConfigValid x p config) :
    loadConfig x p path (some (configText p config))
      = if 65536 < configSize p config then
          .error "Invalid configuration file or size exceeds 64 KiB"
        else if trim (p.filename config.identityFile) = [] then
          .error "Configuration values cannot be empty"
        else if p.canonical (p.within path (trim (p.filename config.identityFile)))
            = p.canonical path then
          .error "Identity and configuration must use different files"
        else .ok { config with
          identityFile := p.within path (trim (p.filename config.identityFile))
          wintunDll := [] } := by
  have hlines := mem_configLines hx hc
  have hzero : (0 : UInt8) ∉ configText p config := by
    intro hmem
    obtain ⟨line, hline, hmem⟩ := List.mem_flatMap.mp hmem
    rcases List.mem_append.mp hmem with hmem | hmem
    · exact (hlines line hline 0 hmem).1 rfl
    · cases List.mem_singleton.mp hmem
  have hsplit : split 10 (configText p config) = configLines p config ++ [[]] :=
    split_flatMap fun line hline hmem => (hlines line hline 10 hmem).2 rfl
  unfold loadConfig
  dsimp only
  rw [configText_length hc, hsplit, configFields_configLines hx path hc]
  by_cases hsize : 65536 < configSize p config
  · rw [if_pos (.inl hsize), if_pos hsize]
  rw [if_neg (not_or.mpr ⟨hsize, hzero⟩), if_neg hsize]
  by_cases hempty : trim (p.filename config.identityFile) = []
  · rw [if_pos hempty, if_pos hempty]
  · rw [if_neg hempty, if_neg hempty]
    rfl

/-! ## What is read is valid -/

/-- The fields hold only values that were checked. -/
structure FieldsValid (x : External) (p : Paths) (fields : ConfigFields) : Prop where
  network : ∀ network ∈ fields.network,
    network.val.head? = some 0xfd ∧ (network.val.drop 8).all (· = 0) = true
  identityFile : ∀ file ∈ fields.identityFile, file ≠ [] ∧ ∀ c ∈ p.filename file, c ≠ 0 ∧ c ≠ 10
  interfaceName : ∀ name ∈ fields.interfaceName, validInterface name = true
  mtu : ∀ mtu ∈ fields.mtu, 1280 ≤ mtu.toNat ∧ mtu.toNat ≤ 65535
  listen : ∀ listen ∈ fields.listen, ListenText x listen.1
  sharedPorts : ∀ shared ∈ fields.sharedPorts, PortsValid shared.1 shared.2

theorem fieldsValid_initial : FieldsValid x p .initial := by
  constructor <;> intro _ h <;> cases h

theorem parseNetwork_ok {value : Bytes} {network : IPv6} (h : parseNetwork x value = .ok network) :
    network.val.head? = some 0xfd ∧ (network.val.drop 8).all (· = 0) = true := by
  unfold parseNetwork at h
  split_ifs at h
  cases hpton : x.inetPton6 (cStr (value.take (value.length - 3))) with
  | none =>
      rw [hpton] at h
      cases h
  | some parsed =>
      rw [hpton] at h
      dsimp only at h
      split_ifs at h with hula
      cases h
      obtain ⟨hfirst, hrest⟩ := not_or.mp hula
      exact ⟨not_not.mp hfirst, by simpa using hrest⟩

theorem parseMtu_some {value : Bytes} {mtu : UInt32} (h : parseMtu value = some mtu) :
    1280 ≤ mtu.toNat ∧ mtu.toNat ≤ 65535 := by
  unfold parseMtu at h
  split_ifs at h with hvalue
  cases h
  obtain ⟨-, -, hlow, hhigh⟩ := hvalue
  have hmod : (ofDecimal value).toUInt32.toNat = ofDecimal value := by
    simp [Nat.toUInt32]
    omega
  rw [hmod]
  exact ⟨hlow, hhigh⟩

/-- A field is taken over only after its check. -/
theorem configField_valid (hp : p.Lawful) {path name value : Bytes} {fields fields' : ConfigFields}
    (hvalue : ∀ c ∈ value, c ≠ 0 ∧ c ≠ 10) (hfields : FieldsValid x p fields)
    (h : configField x p path fields name value = .ok fields') : FieldsValid x p fields' := by
  have hwithin : p.within path value ≠ [] ∧ ∀ c ∈ p.filename (p.within path value), c ≠ 0 ∧ c ≠ 10 :=
    ⟨hp.within_ne_nil _ _, fun c hc => hvalue c (hp.filename_within _ _ c hc)⟩
  unfold configField at h
  split_ifs at h with hname hname hname hinterface hname hname hname hname
  · cases hnetwork : parseNetwork x value with
    | error error =>
        rw [hnetwork] at h
        cases h
    | ok network =>
        rw [hnetwork] at h
        cases h
        refine { hfields with network := fun n hn => ?_ }
        cases hn
        exact parseNetwork_ok hnetwork
  · cases h
    refine { hfields with identityFile := fun file hfile => ?_ }
    cases hfile
    exact hwithin
  · cases h
    refine { hfields with interfaceName := fun name hname => ?_ }
    cases hname
    simpa using hinterface
  · cases hmtu : parseMtu value with
    | none =>
        rw [hmtu] at h
        cases h
    | some mtu =>
        rw [hmtu] at h
        cases h
        refine { hfields with mtu := fun m hm => ?_ }
        cases hm
        exact parseMtu_some hmtu
  · cases h
    exact { hfields with }
  · cases hlisten : parseEndpoint x value with
    | none =>
        rw [hlisten] at h
        cases h
    | some listen =>
        rw [hlisten] at h
        cases h
        refine { hfields with listen := fun l hl => ?_ }
        cases hl
        exact parseEndpoint_listenText (fun hzero => (hvalue 0 hzero).1 rfl) hlisten
  · cases hshared : parsePortList value with
    | none =>
        rw [hshared] at h
        cases h
    | some shared =>
        rw [hshared] at h
        cases h
        refine { hfields with sharedPorts := fun s hs => ?_ }
        cases hs
        exact parsePortList_valid hshared

theorem configLine_valid (hp : p.Lawful) {path line : Bytes} {fields fields' : ConfigFields}
    (hline : ∀ c ∈ line, c ≠ 0 ∧ c ≠ 10) (hfields : FieldsValid x p fields)
    (h : configLine x p path fields line = .ok fields') : FieldsValid x p fields' := by
  unfold configLine at h
  dsimp only at h
  split_ifs at h
  · cases h
    exact hfields
  · cases hseparator : (trim line).idxOf? '='.toUInt8 with
    | none =>
        rw [hseparator] at h
        cases h
    | some separator =>
        rw [hseparator] at h
        dsimp only at h
        split_ifs at h
        refine configField_valid hp (fun c hc => hline c ?_) hfields h
        exact mem_of_mem_trim (List.mem_of_mem_drop (mem_of_mem_trim hc))

theorem configFields_valid (hp : p.Lawful) {path : Bytes} {lines : List Bytes}
    {fields fields' : ConfigFields} (hlines : ∀ line ∈ lines, ∀ c ∈ line, c ≠ 0 ∧ c ≠ 10)
    (hfields : FieldsValid x p fields) (h : configFields x p path fields lines = .ok fields') :
    FieldsValid x p fields' := by
  induction lines generalizing fields with
  | nil =>
      cases h
      exact hfields
  | cons line rest ih =>
      rw [configFields] at h
      cases hline : configLine x p path fields line with
      | error error =>
          rw [hline] at h
          cases h
      | ok next =>
          rw [hline] at h
          exact ih (fun l hl => hlines l (List.mem_cons_of_mem _ hl))
            (configLine_valid hp (hlines line List.mem_cons_self) hfields hline) h

/-- What is loaded is valid, and so is its listen address where the file names
a port to listen on. -/
theorem loadConfig_valid (hp : p.Lawful) {path : Bytes} {file : Option Bytes}
    (h : loadConfig x p path file = .ok config) :
    SettingsValid p config ∧ (config.listenPort ≠ 0 → ListenText x config.listenAddress) := by
  unfold loadConfig at h
  cases file with
  | none => cases h
  | some contents =>
  dsimp only at h
  split_ifs at h with hsize
  cases hread : configFields x p path .initial (split 10 contents) with
  | error error =>
      rw [hread] at h
      cases h
  | ok fields =>
  rw [hread] at h
  have hlines : ∀ line ∈ split 10 contents, ∀ c ∈ line, c ≠ 0 ∧ c ≠ 10 := by
    intro line hline c hc
    obtain ⟨hnewline, hmem⟩ := not_mem_of_mem_split hline
    refine ⟨?_, ?_⟩
    · rintro rfl
      exact hsize (.inr (hmem 0 hc))
    · rintro rfl
      exact hnewline hc
  have hfields := configFields_valid hp hlines fieldsValid_initial hread
  dsimp only at h
  unfold assembleConfig at h
  cases hnetwork : fields.network with
  | none =>
      rw [hnetwork] at h
      cases h
  | some network =>
  rw [hnetwork] at h
  dsimp only at h
  split_ifs at h with hsame
  cases h
  refine ⟨⟨hfields.network _ hnetwork, ?_, ?_, ?_, ?_, ?_⟩, ?_⟩
  · cases hidentity : fields.identityFile with
    | none => exact hp.within_ne_nil _ _
    | some file => exact (hfields.identityFile _ hidentity).1
  · cases hidentity : fields.identityFile with
    | none =>
        have hplain : (ascii "identity.pem").all (fun c => c != 0 && c != 10) = true := by
          decide
        intro c hc
        simpa using List.all_eq_true.mp hplain c (hp.filename_within _ _ c hc)
    | some file => exact (hfields.identityFile _ hidentity).2
  · cases hinterface : fields.interfaceName with
    | none =>
        have hinitial : validInterface Config.initial.interfaceName = true := by decide
        exact hinitial
    | some name => exact hfields.interfaceName _ hinterface
  · cases hmtu : fields.mtu with
    | none =>
        have hinitial : 1280 ≤ Config.initial.mtu.toNat ∧ Config.initial.mtu.toNat ≤ 65535 := by
          decide
        exact hinitial
    | some mtu => exact hfields.mtu _ hmtu
  · cases hshared : fields.sharedPorts with
    | none => exact ⟨.nil, by simp [Config.initial], fun _ => rfl⟩
    | some shared => exact hfields.sharedPorts _ hshared
  · cases hlisten : fields.listen with
    | none => exact fun hport => absurd rfl hport
    | some listen => exact fun _ => hfields.listen _ hlisten

end Madoka
