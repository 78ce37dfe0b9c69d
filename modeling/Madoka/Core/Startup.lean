import Madoka.Core.SavedConfig
import Madoka.Crypto.Sha256
import Madoka.Security.Invite

/-!
# Startup

The configurations that `app_init` (`core/app.cpp`) comes to before the file is
written: on the first start, and for a node that joins by an invitation. What
a restart makes of the written file is the same configuration exactly when
`Restorable` says so.
-/

namespace Madoka

open Octets

/-! ## The configuration of a run -/

variable (x : External) (p : Paths)

/-- `random` is what the system's generator writes behind the first byte. -/
def generateUlaPrefix (random : ByteArr 7) : IPv6 :=
  ⟨0xfd :: (random.val ++ List.replicate 8 0), by simp [random.property]⟩

/-- What `socket_detect_local_ip` and `socket_is_port_available` answer. -/
structure LocalAddress where
  detected : Bytes
  available : Bool

/-- The file of a node that was given no configuration. -/
def builtConfig (path : Bytes) (network : IPv6) : Config :=
  { Config.initial with
    network
    identityFile := p.beside path (ascii "identity.pem")
    interfaceName := ascii "madoka0"
    mtu := 1280
    shareAllPorts := true }

/-- `--listen`; without it the address of the machine, where it is asked for. -/
def applyListen (listenArg : Bytes) (detect : Bool) (address : LocalAddress) (config : Config) :
    Except String Config :=
  if listenArg ≠ [] then
    match parseEndpoint x listenArg with
    | none => .error ("Invalid --listen endpoint: " ++ quote listenArg)
    | some (listenAddress, listenPort) => .ok { config with listenAddress, listenPort }
  else if detect then
    .ok { config with
      listenAddress := address.detected
      listenPort := if address.available then 9001 else 0 }
  else .ok config

/-- `--share-ports`. -/
def applySharePorts (sharePortsArg : Bytes) (config : Config) : Except String Config :=
  if sharePortsArg ≠ [] then
    match parsePortList sharePortsArg with
    | none => .error ("Invalid --share-ports parameter: " ++ quote sharePortsArg)
    | some (sharedPorts, shareAllPorts) => .ok { config with sharedPorts, shareAllPorts }
  else .ok config

/-- The arguments, as both ways to a configuration use them. -/
def applyArguments (listenArg sharePortsArg : Bytes) (detect : Bool) (address : LocalAddress)
    (config : Config) : Except String Config :=
  match applyListen x listenArg detect address config with
  | .error error => .error error
  | .ok config => applySharePorts sharePortsArg config

def firstStartConfig (path listenArg sharePortsArg : Bytes) (random : ByteArr 7)
    (address : LocalAddress) : Except String Config :=
  applyArguments x listenArg sharePortsArg true address
    (builtConfig p path (generateUlaPrefix random))

/-- `custom` is whether `--config` was given, `file` what is at the path:
`none` for no file, `some none` for one that cannot be opened. -/
def joinConfig (path : Bytes) (custom : Bool) (file : Option (Option Bytes)) (network : IPv6)
    (listenArg sharePortsArg : Bytes) (address : LocalAddress) : Except String Config :=
  let base : Except String Config :=
    match file with
    | none => .ok (builtConfig p path (zero 16))
    | some contents =>
        if custom then loadConfig x p path contents
        else
          .error ("Node already has state at " ++ quote path
            ++ "; remove existing state before joining another network")
  match base with
  | .error error => .error error
  | .ok config =>
      let config := if network ≠ zero 16 then { config with network } else config
      applyArguments x listenArg sharePortsArg (config.listenPort = 0) address config

/-- The configurations the program can hold when it writes its file at `path`.
Arguments are C strings, and the detected address is one that `inet_ntop`
wrote. -/
inductive Held (path : Bytes) : Config → Prop
  | firstStart {listenArg sharePortsArg : Bytes} {random : ByteArr 7} {address : LocalAddress}
      {config : Config} (argument : (0 : UInt8) ∉ listenArg)
      (detected : x.inetPton4 address.detected = true)
      (started : firstStartConfig x p path listenArg sharePortsArg random address = .ok config) :
      Held path config
  | join {token : Bytes} {ticket : InviteTicket} {custom : Bool} {file : Option (Option Bytes)}
      {listenArg sharePortsArg : Bytes} {address : LocalAddress} {config : Config}
      (invitation : inviteDecode x token = .ok ticket)
      (argument : (0 : UInt8) ∉ listenArg)
      (detected : x.inetPton4 address.detected = true)
      (started : joinConfig x p path custom file ticket.network listenArg sharePortsArg address
        = .ok config) :
      Held path config

/-! ## They are valid -/

variable {x p}

/-- The arguments replace the listen address, or leave one that was read. -/
theorem applyListen_valid {listenArg : Bytes} {detect : Bool} {address : LocalAddress}
    {config config' : Config} (hargument : (0 : UInt8) ∉ listenArg)
    (hdetected : x.inetPton4 address.detected = true) (hsettings : SettingsValid p config)
    (hlisten : detect = false → ListenText x config.listenAddress)
    (h : applyListen x listenArg detect address config = .ok config') :
    ConfigValid x p config' := by
  unfold applyListen at h
  by_cases hempty : listenArg = []
  · rw [if_neg (not_not.mpr hempty)] at h
    cases detect with
    | true =>
        cases h
        exact { hsettings with listen := .inr hdetected }
    | false =>
        cases h
        exact { hsettings with listen := hlisten rfl }
  · rw [if_pos hempty] at h
    cases hparse : parseEndpoint x listenArg with
    | none =>
        rw [hparse] at h
        cases h
    | some endpoint =>
        rw [hparse] at h
        cases h
        exact { hsettings with listen := parseEndpoint_listenText hargument hparse }

theorem applySharePorts_valid {sharePortsArg : Bytes} {config config' : Config}
    (hconfig : ConfigValid x p config) (h : applySharePorts sharePortsArg config = .ok config') :
    ConfigValid x p config' := by
  unfold applySharePorts at h
  by_cases hempty : sharePortsArg = []
  · rw [if_neg (not_not.mpr hempty)] at h
    cases h
    exact hconfig
  · rw [if_pos hempty] at h
    cases hparse : parsePortList sharePortsArg with
    | none =>
        rw [hparse] at h
        cases h
    | some ports =>
        rw [hparse] at h
        cases h
        exact { hconfig with ports := parsePortList_valid hparse }

theorem applyArguments_valid {listenArg sharePortsArg : Bytes} {detect : Bool}
    {address : LocalAddress} {config config' : Config} (hargument : (0 : UInt8) ∉ listenArg)
    (hdetected : x.inetPton4 address.detected = true) (hsettings : SettingsValid p config)
    (hlisten : detect = false → ListenText x config.listenAddress)
    (h : applyArguments x listenArg sharePortsArg detect address config = .ok config') :
    ConfigValid x p config' := by
  unfold applyArguments at h
  cases happly : applyListen x listenArg detect address config with
  | error error =>
      rw [happly] at h
      cases h
  | ok next =>
      rw [happly] at h
      exact applySharePorts_valid
        (applyListen_valid hargument hdetected hsettings hlisten happly) h

theorem builtConfig_valid (hp : p.Lawful) (path : Bytes) {network : IPv6}
    (hnetwork : network.val.head? = some 0xfd ∧ (network.val.drop 8).all (· = 0) = true) :
    SettingsValid p (builtConfig p path network) where
  network := hnetwork
  identity_ne_nil := hp.beside_ne_nil _ _ (by decide)
  identity_name := by
    have hplain : (ascii "identity.pem").all (fun c => c != 0 && c != 10) = true := by
      decide
    intro c hc
    have hname : c ∈ ascii "identity.pem" := (hp.filename_beside path) ▸ hc
    simpa using List.all_eq_true.mp hplain c hname
  interfaceName := by
    have hinterface : validInterface (ascii "madoka0") = true := by decide
    exact hinterface
  mtu := by
    have hmtu : 1280 ≤ (1280 : UInt32).toNat ∧ (1280 : UInt32).toNat ≤ 65535 := by decide
    exact hmtu
  ports := ⟨.nil, by simp [builtConfig, Config.initial], fun _ => rfl⟩

theorem generateUlaPrefix_valid (random : ByteArr 7) :
    (generateUlaPrefix random).val.head? = some 0xfd
      ∧ ((generateUlaPrefix random).val.drop 8).all (· = 0) = true := by
  have hdrop : (generateUlaPrefix random).val.drop 8 = List.replicate 8 0 := by
    show (random.val ++ List.replicate 8 0).drop 7 = _
    exact List.drop_left' random.property
  rw [hdrop]
  exact ⟨rfl, rfl⟩

theorem Held.valid (hp : p.Lawful) {path : Bytes} {config : Config} (h : Held x p path config) :
    ConfigValid x p config := by
  cases h with
  | firstStart hargument hdetected h =>
      exact applyArguments_valid hargument hdetected
        (builtConfig_valid hp path (generateUlaPrefix_valid _)) (fun hdetect => by cases hdetect) h
  | @join token ticket custom file listenArg sharePortsArg address config hinvitation hargument
      hdetected h =>
      have hula : ticket.network.val.head? = some 0xfd
          ∧ (ticket.network.val.drop 8).all (· = 0) = true :=
        of_decide_eq_true (inviteDecode_ok hinvitation).1
      have hnonzero : ticket.network ≠ zero 16 := by
        intro hzero
        rw [hzero] at hula
        exact absurd hula.1 (by decide)
      unfold joinConfig at h
      dsimp only at h
      cases file with
      | none =>
          dsimp only at h
          rw [if_pos hnonzero] at h
          refine applyArguments_valid hargument hdetected (builtConfig_valid hp path hula) ?_ h
          intro hdetect
          exact absurd rfl (of_decide_eq_false hdetect)
      | some contents =>
          dsimp only at h
          cases custom with
          | false => cases h
          | true =>
              rw [if_pos rfl] at h
              cases hload : loadConfig x p path contents with
              | error error =>
                  rw [hload] at h
                  cases h
              | ok config =>
                  rw [hload] at h
                  dsimp only at h
                  rw [if_pos hnonzero] at h
                  obtain ⟨hsettings, hlisten⟩ := loadConfig_valid hp hload
                  have hnew : SettingsValid p { config with network := ticket.network } :=
                    { hsettings with network := hula }
                  refine applyArguments_valid hargument hdetected hnew ?_ h
                  intro hdetect
                  exact hlisten (of_decide_eq_false hdetect)

/-! ## What a restart finds -/

/-- Two names of one file; only no file is the same as no file. -/
def SameFile (p : Paths) (f g : Bytes) : Prop :=
  (f = [] ↔ g = []) ∧ p.canonical f = p.canonical g

structure SameSettings (p : Paths) (restored config : Config) : Prop where
  network : restored.network = config.network
  identityFile : SameFile p restored.identityFile config.identityFile
  interfaceName : restored.interfaceName = config.interfaceName
  mtu : restored.mtu = config.mtu
  wintunDll : SameFile p restored.wintunDll config.wintunDll
  listenAddress : restored.listenAddress = config.listenAddress
  listenPort : restored.listenPort = config.listenPort
  sharedPorts : restored.sharedPorts = config.sharedPorts
  shareAllPorts : restored.shareAllPorts = config.shareAllPorts

/-- What the writer leaves out or the reader refuses is not there: no
`wintun_dll`; an identity file that lies next to the configuration file, under
a name that survives trimming, and is another file; and not more than 64 KiB. -/
structure Restorable (p : Paths) (path : Bytes) (config : Config) : Prop where
  wintunDll : config.wintunDll = []
  name : trim (p.filename config.identityFile) ≠ []
  beside : p.canonical (p.within path (trim (p.filename config.identityFile)))
    = p.canonical config.identityFile
  apart : p.canonical config.identityFile ≠ p.canonical path
  size : configSize p config ≤ 65536

/-- A configuration that was written is the one a restart loads, exactly when
it is restorable. -/
theorem settings_restored_iff (hx : x.Lawful) (hp : p.Lawful) {path : Bytes} {config : Config}
    (hheld : Held x p path config) {d : Directory} {answers : WriteAnswers}
    (hwrite : (privateWriteAtomically d path (configText p config) answers).1 = .ok ()) :
    (∃ restored, loadConfig x p path ((saveConfig p d path config answers).lookup path)
        = .ok restored ∧ SameSettings p restored config)
      ↔ Restorable p path config := by
  have hvalid := hheld.valid hp
  have hfile : (saveConfig p d path config answers).lookup path = some (configText p config) :=
    (privateWriteAtomically_ok hwrite path).trans (if_pos rfl)
  rw [hfile, loadConfig_configText hx path hvalid]
  constructor
  · rintro ⟨restored, hload, hsame⟩
    split_ifs at hload with hsize hname hapart
    cases hload
    refine ⟨?_, hname, hsame.identityFile.2, ?_, Nat.le_of_not_lt hsize⟩
    · exact hsame.wintunDll.1.mp rfl
    · rw [← hsame.identityFile.2]
      exact hapart
  · intro h
    have hapart : ¬ p.canonical (p.within path (trim (p.filename config.identityFile)))
        = p.canonical path := by
      rw [h.beside]
      exact h.apart
    rw [if_neg (Nat.not_lt.mpr h.size), if_neg h.name, if_neg hapart]
    refine ⟨_, rfl, rfl, ?_, rfl, rfl, ?_, rfl, rfl, rfl, rfl⟩
    · -- neither of the two is the empty path
      refine ⟨?_, h.beside⟩
      exact ⟨fun hnil => absurd hnil (hp.within_ne_nil _ _),
        fun hnil => absurd hnil hvalid.identity_ne_nil⟩
    · show SameFile p [] config.wintunDll
      rw [h.wintunDll]
      exact ⟨Iff.rfl, rfl⟩

/-! ## A concrete system -/

/-- `inet_pton(AF_INET6, ...)` of texts in full form, eight groups of four
digits; no other IPv6 text occurs in the concrete runs. -/
def fullForm (s : Bytes) : Option IPv6 :=
  let address := front 16 (hexPairs (s.filter (· ≠ ':'.toUInt8)))
  if formatIpv6 address = s then some address else none

def system : External :=
  { posix with
    inetPton4 := fun s => s.all (fun c => (ascii "0123456789.").contains c) && dottedQuad s
    inetPton6 := fullForm }

/-- Paths whose parts are normal already. -/
def plainPaths : Paths where
  beside path name := path.rdropWhile (· ≠ '/'.toUInt8) ++ name
  within path value := ('/'.toUInt8 :: path.drop 1).rdropWhile (· ≠ '/'.toUInt8) ++ value
  filename path := path.rtakeWhile (· ≠ '/'.toUInt8)
  canonical path := path

theorem filter_formatGroups {bytes : Bytes} {n : Nat} (h : bytes.length = 2 * (n + 1)) :
    (formatGroups bytes).filter (· ≠ ':'.toUInt8) = hex bytes := by
  have hgroup : ∀ high low : UInt8, (formatGroup high low).filter (· ≠ ':'.toUInt8)
      = hex [high, low] := by
    intro high low
    have hhigh := high.toNat_lt
    have hlow := low.toNat_lt
    have hdigit : ∀ n, n < 16 → hexDigit n ≠ ':'.toUInt8 := by
      have key : ∀ i : Fin 16, hexDigit i ≠ ':'.toUInt8 := by decide
      exact fun n hn => key ⟨n, hn⟩
    have hsame : formatGroup high low = hex [high, low] := by
      show [hexDigit ((high.toNat * 256 + low.toNat) / 4096),
          hexDigit ((high.toNat * 256 + low.toNat) / 256 % 16),
          hexDigit ((high.toNat * 256 + low.toNat) / 16 % 16),
          hexDigit ((high.toNat * 256 + low.toNat) % 16)]
        = [hexDigit (high.toNat / 16), hexDigit (high.toNat % 16), hexDigit (low.toNat / 16),
          hexDigit (low.toNat % 16)]
      have h1 : (high.toNat * 256 + low.toNat) / 4096 = high.toNat / 16 := by omega
      have h2 : (high.toNat * 256 + low.toNat) / 256 % 16 = high.toNat % 16 := by omega
      have h3 : (high.toNat * 256 + low.toNat) / 16 % 16 = low.toNat / 16 := by omega
      have h4 : (high.toNat * 256 + low.toNat) % 16 = low.toNat % 16 := by omega
      rw [h1, h2, h3, h4]
    rw [List.filter_eq_self.mpr, hsame]
    intro c hc
    rw [hsame] at hc
    obtain ⟨b, -, hc⟩ := List.mem_flatMap.mp hc
    have hb := b.toNat_lt
    simp only [List.mem_cons, List.not_mem_nil, or_false] at hc
    apply decide_eq_true
    rcases hc with rfl | rfl
    · exact hdigit _ (by omega)
    · exact hdigit _ (by omega)
  induction n generalizing bytes with
  | zero =>
      match bytes, h with
      | [high, low], _ => exact hgroup high low
  | succ n ih =>
      match bytes, h with
      | high :: low :: next :: rest, h =>
          have hrest := @ih (next :: rest) (by simp only [List.length_cons] at h ⊢; omega)
          rw [formatGroups, if_neg (by simp), List.filter_append, hgroup,
            List.filter_cons_of_neg (by simp), hrest]
          rfl

theorem system_lawful : system.Lawful where
  inetPton6_formatIpv6 := by
    intro address
    have hdigits : (formatIpv6 address).filter (· ≠ ':'.toUInt8) = hex address.val :=
      filter_formatGroups (n := 7) address.property
    have hvalue : front 16 address.val = address := by
      have happend := front_append address []
      rwa [List.append_nil] at happend
    show fullForm (formatIpv6 address) = some address
    unfold fullForm
    dsimp only
    rw [hdigits, hexPairs_hex, hvalue, if_pos rfl]
  inetPton6_text := by
    intro s h
    change (fullForm s).isSome = true at h
    unfold fullForm at h
    dsimp only at h
    split_ifs at h with hs
    · rw [← hs]
      refine ⟨?_, fun c hc => ?_⟩
      · generalize front 16 (hexPairs (s.filter (· ≠ ':'.toUInt8))) = address
        obtain ⟨bytes, hbytes⟩ := address
        match bytes, hbytes with
        | high :: low :: next :: rest, _ =>
            show ':'.toUInt8 ∈ formatGroups (high :: low :: next :: rest)
            rw [formatGroups, if_neg (by simp)]
            simp
      · have key : ∀ c ∈ ascii "0123456789abcdef:", c ∈ ascii "0123456789abcdefABCDEF:." := by
          decide +kernel
        exact key c (mem_formatGroups hc)
    · cases h
  inetPton4_text := by
    intro s h
    obtain ⟨hall, hquad⟩ := Bool.and_eq_true_iff.mp h
    refine ⟨?_, fun c hc => List.contains_iff_mem.mp (List.all_eq_true.mp hall c hc)⟩
    rintro rfl
    exact absurd hquad (by decide)

/-- Behind a separator the file name starts anew. -/
theorem rtakeWhile_append_of_nil {q : UInt8 → Bool} {s : Bytes} (h : s.rtakeWhile q = [])
    (t : Bytes) : (s ++ t).rtakeWhile q = t.rtakeWhile q := by
  induction t using List.reverseRecOn with
  | nil => rw [List.append_nil, h, List.rtakeWhile_nil]
  | append_singleton t c ih =>
      rw [← List.append_assoc, List.rtakeWhile_concat, List.rtakeWhile_concat, ih]

theorem rtakeWhile_rdropWhile (q : UInt8 → Bool) (s : Bytes) :
    (s.rdropWhile q).rtakeWhile q = [] := by
  rw [List.rtakeWhile_eq_nil_iff]
  exact fun h => List.rdropWhile_last_not q s h

theorem plainPaths_lawful : plainPaths.Lawful where
  beside_ne_nil := by
    intro path name hname
    show _ ++ name ≠ []
    simp [hname]
  within_ne_nil := by
    intro path value h
    obtain ⟨hparent, -⟩ := List.append_eq_nil_iff.mp h
    rw [List.rdropWhile_eq_nil_iff] at hparent
    exact absurd (hparent _ List.mem_cons_self) (by decide)
  filename_beside := by
    intro path
    show List.rtakeWhile _ (_ ++ _) = _
    rw [rtakeWhile_append_of_nil (rtakeWhile_rdropWhile _ _)]
    decide
  filename_within := by
    intro path value c hc
    change c ∈ List.rtakeWhile _ (_ ++ value) at hc
    rw [rtakeWhile_append_of_nil (rtakeWhile_rdropWhile _ _)] at hc
    exact (List.rtakeWhile_suffix _ value).subset hc

def statePath : Bytes := ascii "/var/lib/madoka/madoka.conf"

def homeAddress : LocalAddress := ⟨ascii "192.168.0.2", true⟩

/-- The first start with `--share-ports 1-65535`. -/
def everyPort : Config :=
  { builtConfig plainPaths statePath (generateUlaPrefix (zero 7)) with
    listenAddress := ascii "192.168.0.2"
    listenPort := 9001
    sharedPorts := (List.range' 1 65535).map Nat.toUInt16
    shareAllPorts := false }

theorem everyPort_length : everyPort.sharedPorts.length = 65535 := by
  unfold everyPort
  rw [List.length_map, List.length_range']

theorem firstStart_everyPort :
    firstStartConfig system plainPaths statePath [] (ascii "1-65535") (zero 7) homeAddress
      = .ok everyPort := by
  have hargument : ascii "1-65535"
      = toDecimal (1 : UInt16).toNat ++ '-'.toUInt8 :: toDecimal (65535 : UInt16).toNat := by
    decide
  have hlow : (1 : UInt16) ≠ 0 := by decide
  have hle : (1 : UInt16) ≤ 65535 := by decide
  have hports := parsePortList_range hlow hle
  have hcount : (65535 : UInt16).toNat + 1 - (1 : UInt16).toNat = 65535 := by decide
  rw [← hargument, hcount] at hports
  unfold firstStartConfig applyArguments applyListen
  rw [if_neg (by simp)]
  unfold applySharePorts
  rw [if_pos rfl]
  dsimp only
  rw [if_pos (by decide), hports]
  rfl

/-- Writing into an empty directory, no step of which fails. -/
theorem privateWriteAtomically_empty (name bytes : Bytes) (random : ByteArr 16) :
    (privateWriteAtomically ∅ name bytes (.success random)).1 = .ok () := by
  simp [privateWriteAtomically, WriteAnswers.success, reserveTemporary]

theorem everyPort_not_restored :
    Held system plainPaths statePath everyPort
      ∧ (privateWriteAtomically ∅ statePath (configText plainPaths everyPort)
          (.success (zero 16))).1 = .ok ()
      ∧ loadConfig system plainPaths statePath
          ((saveConfig plainPaths ∅ statePath everyPort (.success (zero 16))).lookup statePath)
        = .error "Invalid configuration file or size exceeds 64 KiB" := by
  have hheld : Held system plainPaths statePath everyPort :=
    .firstStart (by simp) (by decide) firstStart_everyPort
  have hwrite := privateWriteAtomically_empty statePath (configText plainPaths everyPort) (zero 16)
  refine ⟨hheld, hwrite, ?_⟩
  have hfile : (saveConfig plainPaths ∅ statePath everyPort (.success (zero 16))).lookup statePath
      = some (configText plainPaths everyPort) :=
    (privateWriteAtomically_ok hwrite statePath).trans (if_pos rfl)
  rw [hfile, loadConfig_configText system_lawful statePath (hheld.valid plainPaths_lawful), if_pos]
  have hports := length_le_sharedPortsSize everyPort.sharedPorts
  rw [everyPort_length] at hports
  calc 65536 < sharedPortsSize everyPort.sharedPorts false := by omega
    _ ≤ configSize plainPaths everyPort :=
        (sharedPortsSize_lt_configSize plainPaths everyPort).le

/-- The first start without arguments. -/
def defaultStart : Config :=
  { builtConfig plainPaths statePath (generateUlaPrefix (zero 7)) with
    listenAddress := ascii "192.168.0.2"
    listenPort := 9001 }

theorem firstStart_default :
    firstStartConfig system plainPaths statePath [] [] (zero 7) homeAddress = .ok defaultStart :=
  rfl

theorem settings_restored_iff_default :
    ∃ restored, loadConfig system plainPaths statePath
        ((saveConfig plainPaths ∅ statePath defaultStart (.success (zero 16))).lookup statePath)
        = .ok restored ∧ SameSettings plainPaths restored defaultStart :=
  (settings_restored_iff system_lawful plainPaths_lawful
    (.firstStart (by simp) (by decide) firstStart_default)
    (privateWriteAtomically_empty _ _ _)).mpr
    ⟨rfl, by decide, by decide, by decide, by decide⟩

end Madoka
