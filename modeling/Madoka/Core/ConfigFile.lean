import Madoka.Core.PortList
import Madoka.Platform.PrivateStorage

/-!
# Config File

The configuration file: `load_config` (`core/config.cpp`) and `save_config`
(`core/app.cpp`). The reader takes eight fields one line each, the writer
leaves `wintun_dll` out and keeps of the identity file only its name.
-/

namespace Madoka

open Octets

/-- What the sources use of `std::filesystem::path`. The empty byte string is
the empty path. -/
structure Paths where
  /-- `path.parent_path() / name`. -/
  beside : Bytes → Bytes → Bytes
  /-- `(absolute(path).parent_path() / value).lexically_normal()`. -/
  within : Bytes → Bytes → Bytes
  /-- `path.filename().string()`. -/
  filename : Bytes → Bytes
  /-- `weakly_canonical`. -/
  canonical : Bytes → Bytes

/-- What is relied on of paths: a name that was put behind a directory is the
file name again, and a normal form has no characters of its own. -/
structure Paths.Lawful (p : Paths) : Prop where
  beside_ne_nil : ∀ path name, name ≠ [] → p.beside path name ≠ []
  within_ne_nil : ∀ path value, p.within path value ≠ []
  filename_beside : ∀ path, p.filename (p.beside path (ascii "identity.pem")) = ascii "identity.pem"
  filename_within : ∀ path value, ∀ c ∈ p.filename (p.within path value), c ∈ value

structure Config where
  network : IPv6
  identityFile : Bytes
  interfaceName : Bytes
  mtu : UInt32
  wintunDll : Bytes
  listenAddress : Bytes
  listenPort : UInt16
  sharedPorts : List UInt16
  shareAllPorts : Bool

/-- The member initialisers of `Config`. -/
def Config.initial : Config where
  network := zero 16
  identityFile := []
  interfaceName := ascii "madoka0"
  mtu := 1280
  wintunDll := []
  listenAddress := ascii "::1"
  listenPort := 0
  sharedPorts := []
  shareAllPorts := true

/-! ## The texts of addresses -/

/-- Two bytes as four hexadecimal digits. -/
def formatGroup (high low : UInt8) : Bytes :=
  let value := high.toNat * 256 + low.toNat
  [hexDigit (value / 4096), hexDigit (value / 256 % 16), hexDigit (value / 16 % 16),
    hexDigit (value % 16)]

def formatGroups : Bytes → Bytes
  | high :: low :: rest =>
      if rest = [] then formatGroup high low
      else formatGroup high low ++ (':'.toUInt8 :: formatGroups rest)
  | _ => []

def formatIpv6 (address : IPv6) : Bytes :=
  formatGroups address.val

def formatEndpoint (address : Bytes) (port : UInt16) : Bytes :=
  if ':'.toUInt8 ∉ address then address ++ (':'.toUInt8 :: toDecimal port.toNat)
  else '['.toUInt8 :: (address ++ (']'.toUInt8 :: ':'.toUInt8 :: toDecimal port.toNat))

/-! ## Writing -/

variable (x : External) (p : Paths)

/-- A line of the file without its end. -/
def configEntry (name : String) (value : Bytes) : Bytes :=
  ascii name ++ ('='.toUInt8 :: value)

def configLines (config : Config) : List Bytes :=
  configEntry "network" (formatIpv6 config.network ++ ascii "/64")
    :: (if config.identityFile ≠ [] then
          [configEntry "identity" (p.filename config.identityFile)]
        else [])
    ++ [configEntry "interface" config.interfaceName,
      configEntry "mtu" (toDecimal config.mtu.toNat),
      configEntry "listen" (formatEndpoint config.listenAddress config.listenPort),
      configEntry "shared_ports" (sharedPortsText config.sharedPorts config.shareAllPorts)]

def configText (config : Config) : Bytes :=
  (configLines p config).flatMap fun line => line ++ [10]

/-- The error of the write goes to a string that nobody reads. -/
def saveConfig (d : Directory) (path : Bytes) (config : Config) (answers : WriteAnswers) :
    Directory :=
  (privateWriteAtomically d path (configText p config) answers).2

/-! ## Reading -/

/-- The fields that were seen so far; `none` is a `has_` flag that is not set. -/
structure ConfigFields where
  network : Option IPv6
  identityFile : Option Bytes
  interfaceName : Option Bytes
  mtu : Option UInt32
  wintunDll : Option Bytes
  listen : Option (Bytes × UInt16)
  sharedPorts : Option (List UInt16 × Bool)

def ConfigFields.initial : ConfigFields :=
  ⟨none, none, none, none, none, none, none⟩

/-- Text in a message. -/
def quote (text : Bytes) : String :=
  String.ofList (text.map fun c => Char.ofNat c.toNat)

def parseNetwork (value : Bytes) : Except String IPv6 :=
  if !(ascii "/64").isSuffixOf value then .error "network must specify /64"
  else
    match x.inetPton6 (cStr (value.take (value.length - 3))) with
    | none => .error "network must be a locally assigned ULA /64 with zero host bits"
    | some network =>
        if network.val.head? ≠ some 0xfd ∨ !(network.val.drop 8).all (· = 0) then
          .error "network must be a locally assigned ULA /64 with zero host bits"
        else .ok network

def isInterfaceChar (c : UInt8) : Bool :=
  (ascii "abcdefghijklmnopqrstuvwxyzABCDEFGHIJKLMNOPQRSTUVWXYZ0123456789_").contains c

def validInterface (value : Bytes) : Bool :=
  value ≠ [] ∧ value.length ≤ 15 ∧ value.all isInterfaceChar

/-- `std::from_chars` into an `unsigned int` that has to use up the text. -/
def parseMtu (value : Bytes) : Option UInt32 :=
  if value ≠ [] ∧ value.all isDigit ∧ 1280 ≤ ofDecimal value ∧ ofDecimal value ≤ 65535 then
    some (ofDecimal value).toUInt32
  else none

def configField (path : Bytes) (fields : ConfigFields) (name value : Bytes) :
    Except String ConfigFields :=
  if name = ascii "network" ∧ fields.network.isNone then
    match parseNetwork x value with
    | .error error => .error error
    | .ok network => .ok { fields with network := some network }
  else if name = ascii "identity" ∧ fields.identityFile.isNone then
    .ok { fields with identityFile := some (p.within path value) }
  else if name = ascii "interface" ∧ fields.interfaceName.isNone then
    if !validInterface value then
      .error "Invalid interface name; must be 1-15 alphanumeric or underscore characters"
    else .ok { fields with interfaceName := some value }
  else if name = ascii "mtu" ∧ fields.mtu.isNone then
    match parseMtu value with
    | none => .error "Invalid MTU; must be an integer between 1280 and 65535"
    | some mtu => .ok { fields with mtu := some mtu }
  else if name = ascii "wintun_dll" ∧ fields.wintunDll.isNone then
    .ok { fields with wintunDll := some (p.within path value) }
  else if name = ascii "listen" ∧ fields.listen.isNone then
    match parseEndpoint x value with
    | none => .error "Invalid listen endpoint; expected [IPv6]:port or IPv4:port"
    | some listen => .ok { fields with listen := some listen }
  else if name = ascii "shared_ports" ∧ fields.sharedPorts.isNone then
    match parsePortList value with
    | none => .error ("Invalid shared_ports configuration: " ++ quote value)
    | some sharedPorts => .ok { fields with sharedPorts := some sharedPorts }
  else .error ("Unknown or duplicate configuration field: " ++ quote name)

def configLine (path : Bytes) (fields : ConfigFields) (text : Bytes) :
    Except String ConfigFields :=
  let line := trim text
  if line = [] ∨ line.head? = some '#'.toUInt8 then .ok fields
  else
    match line.idxOf? '='.toUInt8 with
    | none => .error "Expected key=value in configuration"
    | some separator =>
        let name := trim (line.take separator)
        let value := trim (line.drop (separator + 1))
        if value = [] then .error "Configuration values cannot be empty"
        else configField x p path fields name value

/-- The lines one after the other, up to the first that is refused. -/
def configFields (path : Bytes) (fields : ConfigFields) : List Bytes → Except String ConfigFields
  | [] => .ok fields
  | line :: rest =>
      match configLine x p path fields line with
      | .error error => .error error
      | .ok fields => configFields path fields rest

/-- The configuration the fields describe; what is missing keeps its initial
value. -/
def assembleConfig (path : Bytes) (fields : ConfigFields) : Except String Config :=
  match fields.network with
  | none => .error "Configuration requires network"
  | some network =>
      let identityFile := fields.identityFile.getD (p.within path (ascii "identity.pem"))
      if p.canonical identityFile = p.canonical path then
        .error "Identity and configuration must use different files"
      else
        let listen := fields.listen.getD (Config.initial.listenAddress, Config.initial.listenPort)
        let shared :=
          fields.sharedPorts.getD (Config.initial.sharedPorts, Config.initial.shareAllPorts)
        .ok
          { network
            identityFile
            interfaceName := fields.interfaceName.getD Config.initial.interfaceName
            mtu := fields.mtu.getD Config.initial.mtu
            wintunDll := fields.wintunDll.getD Config.initial.wintunDll
            listenAddress := listen.1
            listenPort := listen.2
            sharedPorts := shared.1
            shareAllPorts := shared.2 }

/-- `file` is what opening the path gives, `none` when it cannot be opened. -/
def loadConfig (path : Bytes) (file : Option Bytes) : Except String Config :=
  match file with
  | none => .error "Cannot open configuration file"
  | some contents =>
      if contents.length > 65536 ∨ (0 : UInt8) ∈ contents then
        .error "Invalid configuration file or size exceeds 64 KiB"
      else
        match configFields x p path .initial (split 10 contents) with
        | .error error => .error error
        | .ok fields => assembleConfig p path fields

/-! ## The texts of addresses, read back -/

/-- What is relied on of `inet_pton`: it reads the full form of an address, and
takes nothing but digits, colons and dots. -/
structure External.Lawful (x : External) : Prop where
  inetPton6_formatIpv6 : ∀ address, x.inetPton6 (formatIpv6 address) = some address
  inetPton6_text : ∀ s, (x.inetPton6 s).isSome = true →
    ':'.toUInt8 ∈ s ∧ ∀ c ∈ s, c ∈ ascii "0123456789abcdefABCDEF:."
  inetPton4_text : ∀ s, x.inetPton4 s = true →
    s ≠ [] ∧ ∀ c ∈ s, c ∈ ascii "0123456789."

theorem formatGroups_length {bytes : Bytes} {n : Nat} (h : bytes.length = 2 * (n + 1)) :
    (formatGroups bytes).length = 5 * n + 4 := by
  induction n generalizing bytes with
  | zero =>
      match bytes, h with
      | [high, low], _ => rfl
  | succ n ih =>
      match bytes, h with
      | high :: low :: next :: rest, h =>
          have hrest := @ih (next :: rest) (by simp only [List.length_cons] at h ⊢; omega)
          rw [formatGroups, if_neg (by simp), List.length_append, List.length_cons, hrest]
          show 4 + _ = _
          omega

theorem formatIpv6_length (address : IPv6) : (formatIpv6 address).length = 39 :=
  formatGroups_length (n := 7) address.property

theorem mem_formatGroups {bytes : Bytes} {c : UInt8} (h : c ∈ formatGroups bytes) :
    c ∈ ascii "0123456789abcdef:" := by
  have hgroup : ∀ high low : UInt8, ∀ c ∈ formatGroup high low, c ∈ ascii "0123456789abcdef:" := by
    intro high low c hc
    have hdigit : ∀ n, n < 16 → hexDigit n ∈ ascii "0123456789abcdef:" := by
      have key : ∀ i : Fin 16, hexDigit i ∈ ascii "0123456789abcdef:" := by decide
      exact fun n hn => key ⟨n, hn⟩
    have := high.toNat_lt
    have := low.toNat_lt
    simp only [formatGroup, List.mem_cons, List.not_mem_nil, or_false] at hc
    rcases hc with rfl | rfl | rfl | rfl <;> exact hdigit _ (by omega)
  induction bytes using formatGroups.induct with
  | case1 high low =>
      rw [formatGroups, if_pos rfl] at h
      exact hgroup high low c h
  | case2 high low rest hrest ih =>
      rw [formatGroups, if_neg hrest] at h
      rcases List.mem_append.mp h with h | h
      · exact hgroup high low c h
      · rcases List.mem_cons.mp h with rfl | h
        · decide
        · exact ih h
  | case3 bytes hbytes =>
      rw [formatGroups] at h
      · cases h
      · exact hbytes

/-- An address that `inet_pton` takes, in one of the two families. -/
def ListenText (address : Bytes) : Prop :=
  (x.inetPton6 address).isSome = true ∨ x.inetPton4 address = true

theorem cStr_eq_self {s : Bytes} (h : (0 : UInt8) ∉ s) : cStr s = s := by
  unfold cStr
  rw [List.takeWhile_eq_self_iff]
  intro c hc
  apply decide_eq_true
  rintro rfl
  exact h hc

theorem rfind_append_cons {c : UInt8} {rest : Bytes} (text : Bytes) (h : c ∉ rest) :
    rfind c (text ++ c :: rest) = some text.length := by
  have hnone : rfind c rest = none := by
    induction rest with
    | nil => rfl
    | cons d rest ih =>
        obtain ⟨hne, hrest⟩ := not_or.mp (mt List.mem_cons.mpr h)
        rw [rfind, ih hrest]
        exact if_neg (Ne.symm hne)
  induction text with
  | nil =>
      show rfind c (c :: rest) = some 0
      rw [rfind, hnone]
      exact if_pos rfl
  | cons d text ih =>
      rw [List.cons_append, rfind, ih]
      rfl

variable {x}

theorem ListenText.chars (hx : x.Lawful) {address : Bytes} (h : ListenText x address) :
    address ≠ [] ∧ ∀ c ∈ address, c ∈ ascii "0123456789abcdefABCDEF:." := by
  rcases h with h | h
  · obtain ⟨hcolon, hchars⟩ := hx.inetPton6_text address h
    exact ⟨List.ne_nil_of_mem hcolon, hchars⟩
  · obtain ⟨hne, hchars⟩ := hx.inetPton4_text address h
    have key : ∀ c ∈ ascii "0123456789.", c ∈ ascii "0123456789abcdefABCDEF:." := by decide +kernel
    exact ⟨hne, fun c hc => key c (hchars c hc)⟩

theorem parseEndpoint_listenText {value address : Bytes} {port : UInt16}
    (hvalue : (0 : UInt8) ∉ value) (h : parseEndpoint x value = some (address, port)) :
    ListenText x address := by
  unfold parseEndpoint at h
  split_ifs at h with hempty hbracket
  · cases hclose : value.idxOf? ']'.toUInt8 with
    | none =>
        rw [hclose] at h
        cases h
    | some closeBracket =>
        rw [hclose] at h
        dsimp only at h
        split_ifs at h with hshort hcolon hpton
        obtain ⟨port', -, heq⟩ := Option.map_eq_some_iff.mp h
        cases heq
        rw [cStr_eq_self] at hpton
        · left
          simpa [Option.isSome_iff_ne_none] using hpton
        · intro hmem
          exact hvalue (List.mem_of_mem_take (List.mem_of_mem_drop hmem))
  · cases hcolon : rfind ':'.toUInt8 value with
    | none =>
        rw [hcolon] at h
        cases h
    | some lastColon =>
        rw [hcolon] at h
        dsimp only at h
        split_ifs at h with hfirst hpton
        obtain ⟨port', -, heq⟩ := Option.map_eq_some_iff.mp h
        cases heq
        rw [cStr_eq_self] at hpton
        · right
          simpa using hpton
        · intro hmem
          exact hvalue (List.mem_of_mem_take hmem)

/-- An endpoint that was accepted once is accepted as it is written. -/
theorem parseEndpoint_formatEndpoint (hx : x.Lawful) {address : Bytes} (h : ListenText x address)
    (port : UInt16) : parseEndpoint x (formatEndpoint address port) = some (address, port) := by
  obtain ⟨hne, hchars⟩ := h.chars hx
  have hforeign : ∀ c, c ∉ ascii "0123456789abcdefABCDEF:." → c ∉ address := fun c hc hmem =>
    hc (hchars c hmem)
  have hcstr : cStr address = address := cStr_eq_self (hforeign 0 (by decide))
  unfold formatEndpoint
  by_cases hcolon : ':'.toUInt8 ∈ address
  · rw [if_neg (not_not.mpr hcolon)]
    have hpton : (x.inetPton6 address).isSome = true := by
      rcases h with h | h
      · exact h
      · have hdigits := (hx.inetPton4_text address h).2 _ hcolon
        exact absurd hdigits (by decide)
    have hclose : ']'.toUInt8 ∉ '['.toUInt8 :: address := by
      rw [List.mem_cons, not_or]
      exact ⟨by decide, hforeign _ (by decide)⟩
    have hindex := idxOf?_append_cons (':'.toUInt8 :: toDecimal port.toNat) hclose
    rw [List.cons_append] at hindex
    have hlength : 0 < address.length := List.length_pos_of_ne_nil hne
    unfold parseEndpoint
    rw [if_neg (by simp), if_pos List.head?_cons, hindex]
    dsimp only
    rw [if_neg (by simp only [List.length_cons]; omega), if_neg (by simp), if_neg (by simpa [hcstr, Option.isSome_iff_ne_none] using hpton)]
    simp [parsePort_toDecimal]
  · rw [if_pos hcolon]
    have hpton : x.inetPton4 address = true := by
      rcases h with h | h
      · exact absurd (hx.inetPton6_text address h).1 hcolon
      · exact h
    have hlast : ':'.toUInt8 ∉ toDecimal port.toNat := fun hmem =>
      absurd (isDigit_of_mem_toDecimal hmem) (by decide)
    have hbracket : (address ++ ':'.toUInt8 :: toDecimal port.toNat).head? ≠ some '['.toUInt8 := by
      rw [List.head?_append_of_ne_nil _ hne]
      intro hhead
      exact hforeign _ (by decide) (List.mem_of_mem_head? hhead)
    unfold parseEndpoint
    rw [if_neg (by simp), if_neg hbracket, rfind_append_cons address hlast]
    dsimp only
    rw [if_neg (by simpa using hne), List.take_left, if_neg (by simp [hcstr, hpton])]
    simp [parsePort_toDecimal]

/-! ## One line -/

/-- Names that stand at the head of a line as they are. -/
def KeyText (name : Bytes) : Prop :=
  name ≠ [] ∧ name.head? ≠ some '#'.toUInt8 ∧ name.all (fun c => !isSpace c && c != 61) = true

instance (name : Bytes) : Decidable (KeyText name) :=
  inferInstanceAs (Decidable (_ ∧ _ ∧ _))

variable (x)

theorem configLine_entry (path : Bytes) (fields : ConfigFields) {name : String} (value : Bytes)
    (h : KeyText (ascii name)) :
    configLine x p path fields (configEntry name value)
      = if trim value = [] then .error "Configuration values cannot be empty"
        else configField x p path fields (ascii name) (trim value) := by
  obtain ⟨hne, hhash, hall⟩ := h
  have hchars : ∀ c ∈ ascii name, isSpace c = false ∧ c ≠ 61 := by
    intro c hc
    simpa using List.all_eq_true.mp hall c hc
  have hequals : '='.toUInt8 ∉ ascii name := fun hmem => (hchars _ hmem).2 rfl
  have htrim : trim (configEntry name value) = ascii name ++ '='.toUInt8 :: trimEnd value := by
    obtain ⟨c, rest, hcons⟩ := List.exists_cons_of_ne_nil hne
    have hc := (hchars c (by rw [hcons]; exact List.mem_cons_self)).1
    unfold configEntry
    rw [hcons, List.cons_append, trim_cons hc, ← List.cons_append]
    exact trimEnd_append (by decide) value
  have hhead : (ascii name ++ '='.toUInt8 :: trimEnd value).head? = (ascii name).head? :=
    List.head?_append_of_ne_nil _ hne
  have hname : trim (ascii name) = ascii name := trim_eq_self fun c hc => (hchars c hc).1
  unfold configLine
  dsimp only
  rw [htrim, hhead, if_neg (by simp [hhash]), idxOf?_append_cons _ hequals]
  dsimp only
  rw [List.take_left, hname, ← List.drop_drop, List.drop_left]
  show (if trim (trimEnd value) = [] then Except.error "Configuration values cannot be empty"
    else configField x p path fields (ascii name) (trim (trimEnd value))) = _
  rw [trim_trimEnd]

theorem configLine_blank (path : Bytes) (fields : ConfigFields) :
    configLine x p path fields [] = .ok fields := rfl

/-! ## One field -/

section Field

variable (path : Bytes) {fields : ConfigFields} {value : Bytes}

theorem configField_network {network : IPv6} (h : fields.network = none)
    (hvalue : parseNetwork x value = .ok network) :
    configField x p path fields (ascii "network") value
      = .ok { fields with network := some network } := by
  unfold configField
  rw [if_pos ⟨rfl, by rw [h]; rfl⟩, hvalue]

theorem configField_identity (h : fields.identityFile = none) :
    configField x p path fields (ascii "identity") value
      = .ok { fields with identityFile := some (p.within path value) } := by
  unfold configField
  rw [if_neg fun hname => absurd hname.1 (by decide), if_pos ⟨rfl, by rw [h]; rfl⟩]

theorem configField_interface (h : fields.interfaceName = none)
    (hvalue : validInterface value = true) :
    configField x p path fields (ascii "interface") value
      = .ok { fields with interfaceName := some value } := by
  unfold configField
  rw [if_neg fun hname => absurd hname.1 (by decide),
    if_neg fun hname => absurd hname.1 (by decide), if_pos ⟨rfl, by rw [h]; rfl⟩,
    if_neg (by simp [hvalue])]

theorem configField_mtu {mtu : UInt32} (h : fields.mtu = none)
    (hvalue : parseMtu value = some mtu) :
    configField x p path fields (ascii "mtu") value = .ok { fields with mtu := some mtu } := by
  unfold configField
  rw [if_neg fun hname => absurd hname.1 (by decide),
    if_neg fun hname => absurd hname.1 (by decide),
    if_neg fun hname => absurd hname.1 (by decide), if_pos ⟨rfl, by rw [h]; rfl⟩, hvalue]

theorem configField_listen {listen : Bytes × UInt16} (h : fields.listen = none)
    (hvalue : parseEndpoint x value = some listen) :
    configField x p path fields (ascii "listen") value
      = .ok { fields with listen := some listen } := by
  unfold configField
  rw [if_neg fun hname => absurd hname.1 (by decide),
    if_neg fun hname => absurd hname.1 (by decide),
    if_neg fun hname => absurd hname.1 (by decide),
    if_neg fun hname => absurd hname.1 (by decide),
    if_neg fun hname => absurd hname.1 (by decide), if_pos ⟨rfl, by rw [h]; rfl⟩, hvalue]

theorem configField_sharedPorts {sharedPorts : List UInt16 × Bool} (h : fields.sharedPorts = none)
    (hvalue : parsePortList value = some sharedPorts) :
    configField x p path fields (ascii "shared_ports") value
      = .ok { fields with sharedPorts := some sharedPorts } := by
  unfold configField
  rw [if_neg fun hname => absurd hname.1 (by decide),
    if_neg fun hname => absurd hname.1 (by decide),
    if_neg fun hname => absurd hname.1 (by decide),
    if_neg fun hname => absurd hname.1 (by decide),
    if_neg fun hname => absurd hname.1 (by decide),
    if_neg fun hname => absurd hname.1 (by decide), if_pos ⟨rfl, by rw [h]; rfl⟩, hvalue]

end Field

end Madoka
