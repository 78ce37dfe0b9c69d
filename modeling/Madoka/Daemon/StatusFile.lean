import Madoka.Core.Startup
import Madoka.Daemon.ReconnectStep

/-!
# Status File

What a running node writes about itself beside its configuration
(`update_status_file` of `core/daemon.cpp`), and what the other commands read
there: `read_live_identity`, which `madoka invite` takes its ticket's inviter
from, and the status report (`core/app.cpp`).
-/

namespace Madoka

open Octets

/-! ## Writing -/

/-- What is read while the file is written: the clock, and copies of the
topology and of the routing table, each under a lock of its own. -/
structure StatusSeen where
  updated : UInt64
  peers : List Peer
  routes : RouteTable

def statusPeer (peer : Peer) : Bytes :=
  hex peer.id.val ++ ascii " connected Trusted"

def statusRoute (route : Route) : Bytes :=
  hex route.destinationNode.val ++ (ascii " via " ++ (hex route.nextHop.val
    ++ (ascii " metric " ++ toDecimal route.metric)))

-- what a stream prints of a share in percent with one decimal
variable (percent : Nat → Nat → Bytes)

def statusPackets (counters : Counter → Nat) : Nat :=
  (counters .tunPacketsRead + counters .tunPacketsWritten) % 2 ^ 64

def statusLoss (counters : Counter → Nat) : Bytes :=
  let totalPackets := statusPackets counters
  let dropped := (counters .dropNoRoute + counters .dropTtlExpired
    + counters .dropTransportError) % 2 ^ 64
  let total := (totalPackets + dropped) % 2 ^ 64
  (if total > 0 then percent dropped total else ascii "0.0") ++ ascii "%"

def statusLines (app : AppState) (seen : StatusSeen) : List Bytes :=
  [configEntry "NODE_ID" (hex app.id.val), configEntry "UPDATED" (toDecimal seen.updated.toNat),
    configEntry "NETWORK" (formatIpv6 app.network ++ ascii "/64"),
    configEntry "LISTEN" app.localContact.endpoint,
    configEntry "TRUSTED" (toDecimal app.trust.peers.length)]
  ++ ((seen.peers.filter fun peer => peer.state = .connected).map fun peer =>
      configEntry "PEER" (statusPeer peer))
  ++ ((seen.routes.filter fun route => route.destinationNode ≠ zero 32).map fun route =>
      configEntry "ROUTE" (statusRoute route))
  ++ [configEntry "PACKETS" (toDecimal (statusPackets app.counters)),
    configEntry "LOSS" (statusLoss percent app.counters),
    configEntry "SHARED_PORTS" (sharedPortsText app.sharedPorts app.shareAllPorts)]

def statusText (app : AppState) (seen : StatusSeen) : Bytes :=
  (statusLines percent app seen).flatMap fun line => line ++ [10]

def statusPath (configPath : Bytes) : Bytes :=
  configPath ++ ascii ".status"

/-- One call, with what the system answers to its write. The error goes to a
string that nobody reads. -/
structure StatusUpdate where
  app : AppState
  seen : StatusSeen
  answers : WriteAnswers

def updateStatusFile (configPath : Bytes) (d : Directory) (update : StatusUpdate) : Directory :=
  if configPath = [] then d
  else
    (privateWriteAtomically d (statusPath configPath)
      (statusText percent update.app update.seen) update.answers).2

/-- The directory after some calls. -/
def statusAfter (configPath : Bytes) (d : Directory) (updates : List StatusUpdate) : Directory :=
  updates.foldl (updateStatusFile percent configPath) d

/-! ## Reading -/

/-- The lines that `std::getline` reads one after the other. -/
def getlines (text : Bytes) : List Bytes :=
  let pieces := split 10 text
  if pieces.getLast? = some [] then pieces.dropLast else pieces

/-- What follows the name and the equals sign, if the line starts so. -/
def fieldOf (name : String) (line : Bytes) : Option Bytes :=
  if (configEntry name []).isPrefixOf line then some (line.drop (configEntry name []).length)
  else none

/-- `std::from_chars` into a `uint64_t` that has to use up the text. -/
def parseMilliseconds (value : Bytes) : Option UInt64 :=
  if value ≠ [] ∧ value.all isDigit ∧ ofDecimal value < 2 ^ 64 then
    some (ofDecimal value).toUInt64
  else none

structure LiveFields where
  node : Bytes
  endpoint : Bytes
  updated : Bytes
  network : Bytes

def liveField (fields : LiveFields) (line : Bytes) : LiveFields :=
  match fieldOf "NODE_ID" line with
  | some value => { fields with node := value }
  | none =>
  match fieldOf "LISTEN" line with
  | some value => { fields with endpoint := value }
  | none =>
  match fieldOf "UPDATED" line with
  | some value => { fields with updated := value }
  | none =>
  match fieldOf "NETWORK" line with
  | some value => { fields with network := value }
  | none => fields

structure LiveIdentity where
  nodeId : NodeId
  endpoint : Bytes
  network : IPv6
deriving DecidableEq

variable (x : External)

/-- Whether the status was written in the last five seconds. -/
def statusFresh (updated : Option UInt64) (current : UInt64) : Bool :=
  updated.any fun updated => updated ≤ current ∧ current - updated ≤ 5000

/-- The network with the prefix length cut off; without one there is no
network. -/
def liveNetwork (text : Bytes) : Option IPv6 :=
  if text = [] then some (zero 16)
  else
    x.inetPton6 (cStr (if (ascii "/64").isSuffixOf text then text.take (text.length - 3) else text))

/-- `contents` is what reading the file gives. -/
def readLiveIdentity (contents : Except String Bytes) (current : UInt64) :
    Except String LiveIdentity :=
  match contents with
  | .error _ => .error "The node is not running; start madoka before creating an invitation"
  | .ok contents =>
  let fields := (getlines contents).foldl liveField ⟨[], [], [], []⟩
  if !statusFresh (parseMilliseconds fields.updated) current then
    .error "The node status is stale; start madoka before creating an invitation"
  else
  match parseNodeId fields.node with
  | none => .error "The running node status has an invalid Node ID"
  | some nodeId =>
  if !usableEndpoint x fields.endpoint then
    .error "The running node has no usable listen endpoint"
  else
  match liveNetwork x fields.network with
  | none => .error "The running node status has an invalid network prefix"
  | some network => .ok { nodeId, endpoint := fields.endpoint, network }

/-- `random` is what the system's generator writes into the secret. -/
def inviteGenerate (live : LiveIdentity) (nowSeconds lifetimeSeconds : UInt64)
    (random : Except String (ByteArr 16)) : Except String InviteTicket :=
  if live.nodeId = zero 32 ∨ !validEndpoint x live.endpoint ∨ nowSeconds = 0
      ∨ lifetimeSeconds = 0 ∨ lifetimeSeconds > maxInviteLifetimeSeconds
      ∨ nowSeconds > UInt64.ofNat (2 ^ 64 - 1) - lifetimeSeconds then
    .error "Invalid invitation parameters"
  else if !ulaPrefix live.network then .error "Network must be a locally assigned ULA /64"
  else
    match random with
    | .error error => .error error
    | .ok secret =>
        .ok
          { network := live.network
            secret
            inviterId := live.nodeId
            inviterEndpoint := live.endpoint
            createdAt := nowSeconds
            expiresAt := nowSeconds + lifetimeSeconds
            consumed := false }

/-- What the clock and the system answer to `madoka invite`. -/
structure InviteAnswers where
  current : UInt64
  nowSeconds : UInt64
  random : Except String (ByteArr 16)
  store : StoreAnswers

/-- `app_run` in invite mode: the token that is printed. The process has loaded
no peers. -/
def inviteCommand (stateDirectory : Bytes) (store : Directory) (contents : Except String Bytes)
    (lifetimeSeconds : UInt64) (answers : InviteAnswers) : Except String Bytes × Directory :=
  match readLiveIdentity x contents answers.current with
  | .error error => (.error error, store)
  | .ok live =>
  match inviteGenerate x live answers.nowSeconds lifetimeSeconds answers.random with
  | .error error => (.error ("Cannot create invitation: " ++ error), store)
  | .ok ticket =>
  match inviteStore x { directory := stateDirectory, peers := [] } store ticket answers.store with
  | (.error error, store) => (.error ("Cannot create invitation: " ++ error), store)
  | (.ok (), store) => (.ok (inviteEncode x ticket), store)

/-! ## Lines -/

theorem getlines_flatMap {lines : List Bytes} (h : ∀ line ∈ lines, (10 : UInt8) ∉ line) :
    getlines (lines.flatMap fun line => line ++ [10]) = lines := by
  unfold getlines
  rw [split_flatMap h]
  simp

/-- Where both names have no separator, one line starts as the other only if
the names agree. -/
theorem prefix_separated {separator : UInt8} {s t : Bytes} (hs : separator ∉ s) (ht : separator ∉ t)
    (rest : Bytes) : s ++ [separator] <+: t ++ separator :: rest ↔ s = t := by
  induction s generalizing t with
  | nil =>
      cases t with
      | nil => simp
      | cons c t =>
          have hne : separator ≠ c := fun h => ht (h ▸ List.mem_cons_self)
          simp [hne]
  | cons c s ih =>
      obtain ⟨hne, hs⟩ := not_or.mp (mt List.mem_cons.mpr hs)
      cases t with
      | nil => simp [Ne.symm hne]
      | cons d t =>
          have ht : separator ∉ t := fun h => ht (List.mem_cons_of_mem _ h)
          simp [List.cons_prefix_cons, ih hs ht]

theorem fieldOf_entry {name key : String} (hname : '='.toUInt8 ∉ ascii name)
    (hkey : '='.toUInt8 ∉ ascii key) (value : Bytes) :
    fieldOf name (configEntry key value) = if ascii name = ascii key then some value else none := by
  have hstart : (configEntry name []).isPrefixOf (configEntry key value) = true
      ↔ ascii name = ascii key := by
    rw [List.isPrefixOf_iff_prefix]
    exact prefix_separated hname hkey value
  unfold fieldOf
  by_cases h : ascii name = ascii key
  · have hsplit : configEntry key value = configEntry key [] ++ value := by simp [configEntry]
    have hsame : configEntry name [] = configEntry key [] := by rw [configEntry, h, configEntry]
    rw [if_pos (hstart.mpr h), if_pos h, hsame, hsplit, List.drop_left]
  · rw [if_neg (mt hstart.mp h), if_neg h]

/-- The names of the fields. -/
def statusNames : List String :=
  ["NODE_ID", "UPDATED", "NETWORK", "LISTEN", "TRUSTED", "PEER", "ROUTE", "PACKETS", "LOSS",
    "SHARED_PORTS"]

theorem fieldOf_status {name key : String} (hname : name ∈ statusNames) (hkey : key ∈ statusNames)
    (value : Bytes) :
    fieldOf name (configEntry key value) = if name = key then some value else none := by
  have hplain : ∀ name ∈ statusNames, '='.toUInt8 ∉ ascii name := by decide
  have hsame : ∀ name ∈ statusNames, ∀ key ∈ statusNames, ascii name = ascii key ↔ name = key := by
    decide
  rw [fieldOf_entry (hplain name hname) (hplain key hkey)]
  simp only [hsame name hname key hkey]

/-! ## What is read of a text that was written -/

section
variable {percent : Nat → Nat → Bytes} {app : AppState} {seen : StatusSeen}

theorem liveField_entry (fields : LiveFields) {key : String} (hkey : key ∈ statusNames)
    (value : Bytes) :
    liveField fields (configEntry key value)
      = if key = "NODE_ID" then { fields with node := value }
        else if key = "LISTEN" then { fields with endpoint := value }
        else if key = "UPDATED" then { fields with updated := value }
        else if key = "NETWORK" then { fields with network := value }
        else fields := by
  unfold liveField
  rw [fieldOf_status (by decide) hkey, fieldOf_status (by decide) hkey,
    fieldOf_status (by decide) hkey, fieldOf_status (by decide) hkey]
  simp only [eq_comm (b := key)]
  split_ifs <;> rfl

/-- Lines of a field that the reader leaves alone. -/
theorem foldl_liveField_other (fields : LiveFields) {α : Type} {key : String} (value : α → Bytes)
    (entries : List α) (hkey : key = "PEER" ∨ key = "ROUTE") :
    (entries.map fun a => configEntry key (value a)).foldl liveField fields = fields := by
  induction entries with
  | nil => rfl
  | cons a rest ih =>
      have hmem : key ∈ statusNames := by rcases hkey with rfl | rfl <;> decide
      have hother : liveField fields (configEntry key (value a)) = fields := by
        rw [liveField_entry _ hmem]
        rcases hkey with rfl | rfl <;> rfl
      rw [List.map_cons, List.foldl_cons, hother, ih]

theorem foldl_liveField_statusLines :
    (statusLines percent app seen).foldl liveField ⟨[], [], [], []⟩
      = { node := hex app.id.val
          endpoint := app.localContact.endpoint
          updated := toDecimal seen.updated.toNat
          network := formatIpv6 app.network ++ ascii "/64" } := by
  unfold statusLines
  rw [List.foldl_append, List.foldl_append, List.foldl_append,
    foldl_liveField_other _ statusRoute _ (.inr rfl), foldl_liveField_other _ statusPeer _ (.inl rfl)]
  simp (disch := decide) [liveField_entry]

/-- A text that stands in one line. -/
def OneLine (text : Bytes) : Prop := (10 : UInt8) ∉ text

instance (text : Bytes) : Decidable (OneLine text) :=
  inferInstanceAs (Decidable (_ ∉ _))

theorem Plain.oneLine {text : Bytes} (h : Plain text) : OneLine text := by
  intro hmem
  exact absurd (h 10 hmem).1 (by decide)

theorem OneLine.append {s t : Bytes} (hs : OneLine s) (ht : OneLine t) : OneLine (s ++ t) := by
  intro hmem
  rcases List.mem_append.mp hmem with h | h
  · exact hs h
  · exact ht h

theorem oneLine_hex (bytes : Bytes) : OneLine (hex bytes) := by
  intro hmem
  exact absurd (mem_hex hmem) (by decide)

theorem oneLine_entry {key : String} (hkey : key ∈ statusNames) {value : Bytes} (h : OneLine value) :
    OneLine (configEntry key value) := by
  have hnames : ∀ key ∈ statusNames, (10 : UInt8) ∉ ascii key ++ ['='.toUInt8] := by decide
  have hsplit : configEntry key value = ascii key ++ ['='.toUInt8] ++ value := by simp [configEntry]
  rw [hsplit]
  exact OneLine.append (hnames key hkey) h

theorem oneLine_statusLines (hpercent : ∀ dropped total, OneLine (percent dropped total))
    (hendpoint : OneLine app.localContact.endpoint) :
    ∀ line ∈ statusLines percent app seen, OneLine line := by
  have hdecimal : ∀ n, OneLine (toDecimal n) := fun n => (plain_toDecimal n).oneLine
  have hloss : OneLine (statusLoss percent app.counters) := by
    unfold statusLoss
    dsimp only
    refine OneLine.append ?_ (by decide)
    split_ifs
    · exact hpercent _ _
    · decide
  have hpeer : ∀ peer, OneLine (statusPeer peer) := fun peer =>
    (oneLine_hex _).append (by decide)
  have hroute : ∀ route, OneLine (statusRoute route) := fun route =>
    (oneLine_hex _).append (OneLine.append (by decide)
      ((oneLine_hex _).append (OneLine.append (by decide) (hdecimal _))))
  intro line hline
  simp only [statusLines, List.mem_append, List.mem_cons, List.not_mem_nil, or_false, List.mem_map]
    at hline
  rcases hline with (((rfl | rfl | rfl | rfl | rfl) | ⟨peer, -, rfl⟩) | ⟨route, -, rfl⟩)
    | rfl | rfl | rfl
  · exact oneLine_entry (by decide) (oneLine_hex _)
  · exact oneLine_entry (by decide) (hdecimal _)
  · exact oneLine_entry (by decide) (plain_networkText _).oneLine
  · exact oneLine_entry (by decide) hendpoint
  · exact oneLine_entry (by decide) (hdecimal _)
  · exact oneLine_entry (by decide) (hpeer _)
  · exact oneLine_entry (by decide) (hroute _)
  · exact oneLine_entry (by decide) (hdecimal _)
  · exact oneLine_entry (by decide) hloss
  · exact oneLine_entry (by decide) (plain_sharedPortsText _ _).oneLine

theorem parseMilliseconds_toDecimal (updated : UInt64) :
    parseMilliseconds (toDecimal updated.toNat) = some updated := by
  have hdigits : (toDecimal updated.toNat).all isDigit = true := by
    rw [List.all_eq_true]
    intro c hc
    exact isDigit_of_mem_toDecimal hc
  unfold parseMilliseconds
  rw [ofDecimal_toDecimal, if_pos ⟨toDecimal_ne_nil _, hdigits, updated.toNat_lt⟩]
  simp [Nat.toUInt64]

theorem liveNetwork_networkText (hx : x.Lawful) (network : IPv6) :
    liveNetwork x (formatIpv6 network ++ ascii "/64") = some network := by
  have hne : formatIpv6 network ++ ascii "/64" ≠ [] := by
    apply List.ne_nil_of_length_pos
    rw [List.length_append, formatIpv6_length]
    omega
  have hzero : (0 : UInt8) ∉ formatIpv6 network := by
    intro hmem
    exact absurd (mem_formatGroups hmem) (by decide)
  have hcut : (formatIpv6 network ++ ascii "/64").take
      ((formatIpv6 network ++ ascii "/64").length - 3) = formatIpv6 network := by
    rw [List.length_append]
    exact List.take_left
  have hsuffix : (ascii "/64").isSuffixOf (formatIpv6 network ++ ascii "/64") = true := by
    rw [List.isSuffixOf_iff_suffix]
    exact List.suffix_append _ _
  unfold liveNetwork
  rw [if_neg hne, if_pos hsuffix, hcut, cStr_eq_self hzero, hx.inetPton6_formatIpv6]

/-- A text that was written names the node as long as it is fresh. -/
theorem readLiveIdentity_statusText (hx : x.Lawful)
    (hpercent : ∀ dropped total, OneLine (percent dropped total))
    (hendpoint : OneLine app.localContact.endpoint)
    (husable : usableEndpoint x app.localContact.endpoint = true) (current : UInt64) :
    readLiveIdentity x (.ok (statusText percent app seen)) current
      = if seen.updated ≤ current ∧ current - seen.updated ≤ 5000 then
          .ok { nodeId := app.id, endpoint := app.localContact.endpoint, network := app.network }
        else
          .error "The node status is stale; start madoka before creating an invitation" := by
  have hlines : getlines (statusText percent app seen) = statusLines percent app seen :=
    getlines_flatMap (oneLine_statusLines hpercent hendpoint)
  unfold readLiveIdentity
  simp only [hlines, foldl_liveField_statusLines, parseMilliseconds_toDecimal, statusFresh,
    Option.any_some, parseNodeId_hex, husable, liveNetwork_networkText x hx]
  by_cases hfresh : seen.updated ≤ current ∧ current - seen.updated ≤ 5000
  · simp [hfresh]
  · simp only [decide_eq_false hfresh, if_neg hfresh]
    rfl

end

/-! ## Over a run -/

section
variable {percent : Nat → Nat → Bytes} {configPath : Bytes} {d : Directory}
  {updates : List StatusUpdate}

/-- A node that runs with this identity, at a place where it can be called. -/
structure Shows (live : LiveIdentity) (app : AppState) : Prop where
  nodeId : app.id = live.nodeId
  endpoint : app.localContact.endpoint = live.endpoint
  network : app.network = live.network

/-- The endpoint that `start_runtime` gives a node: the address it listens at
and the port it was given. -/
def ListensAt (x : External) (endpoint : Bytes) : Prop :=
  ∃ address port, endpoint = formatEndpoint address port ∧ ListenText x address ∧ port ≠ 0

/-- The calls are those of a node with this identity, which was started again
any number of times. -/
structure Publishes (x : External) (percent : Nat → Nat → Bytes) (configPath : Bytes) (d : Directory)
    (updates : List StatusUpdate) (live : LiveIdentity) : Prop where
  listens : ListensAt x live.endpoint
  each : ∀ u ∈ updates, Shows live u.app
  percent : ∀ dropped total, OneLine (percent dropped total)
  configured : configPath ≠ []
  first : statusPath configPath ∉ d

theorem ListensAt.usable {x : External} (hx : x.Lawful) {endpoint : Bytes} (h : ListensAt x endpoint) :
    OneLine endpoint ∧ usableEndpoint x endpoint = true := by
  obtain ⟨address, port, rfl, hlisten, hport⟩ := h
  refine ⟨(plain_endpoint hx hlisten port).oneLine, ?_⟩
  unfold usableEndpoint
  rw [parseEndpoint_formatEndpoint hx hlisten]
  simp [hport]

theorem notTemporary_statusPath (configPath : Bytes) : NotTemporary (statusPath configPath) := by
  have hlast : (statusPath configPath).getLast? = some 's'.toUInt8 := by
    simp only [statusPath, List.getLast?_append]
    rfl
  exact notTemporary_of_getLast hlast (by decide)

theorem statusAfter_concat (hpath : configPath ≠ []) (before : List StatusUpdate) (u : StatusUpdate) :
    statusAfter percent configPath d (before ++ [u])
      = (privateWriteAtomically (statusAfter percent configPath d before) (statusPath configPath)
          (statusText percent u.app u.seen) u.answers).2 := by
  unfold statusAfter
  rw [List.foldl_append, List.foldl_cons, List.foldl_nil, updateStatusFile, if_neg hpath]

/-- The file holds a text that one of the calls wrote, whichever of them
failed. -/
theorem statusAfter_lookup (hpath : configPath ≠ []) (hfirst : statusPath configPath ∉ d) :
    (statusAfter percent configPath d updates).lookup (statusPath configPath) = none
      ∨ ∃ u ∈ updates, (statusAfter percent configPath d updates).lookup (statusPath configPath)
        = some (statusText percent u.app u.seen) := by
  induction updates using List.reverseRecOn with
  | nil => exact .inl (AList.lookup_eq_none.mpr hfirst)
  | append_singleton before u ih =>
      rw [statusAfter_concat hpath]
      rcases privateWriteAtomically_lookup_self (statusAfter percent configPath d before)
        (statusText percent u.app u.seen) u.answers (notTemporary_statusPath configPath)
        with hold | hnew
      · rw [hold]
        exact ih.imp_right fun ⟨v, hv, hlookup⟩ => ⟨v, by simp [hv], hlookup⟩
      · exact .inr ⟨u, by simp, hnew⟩

theorem statusAfter_read (hpath : configPath ≠ []) (hfirst : statusPath configPath ∉ d)
    {limit : Nat} {read : SystemResult} {contents : Bytes}
    (h : privateReadFile (statusAfter percent configPath d updates) (statusPath configPath) limit read
      = .ok contents) :
    ∃ u ∈ updates, contents = statusText percent u.app u.seen := by
  have hlookup := privateReadFile_ok h
  rcases @statusAfter_lookup percent configPath d updates hpath hfirst with hnone | ⟨u, hu, hsome⟩
  · rw [hnone] at hlookup
    cases hlookup
  · rw [hsome] at hlookup
    exact ⟨u, hu, (Option.some.inj hlookup).symm⟩

/-- What `madoka invite` reads at the time. -/
def liveIdentity (x : External) (configPath : Bytes) (d : Directory) (read : SystemResult)
    (current : UInt64) : Except String LiveIdentity :=
  readLiveIdentity x (privateReadFile d (statusPath configPath) 65536 read) current

section
variable {x : External} {live : LiveIdentity}

/-- Each text that was written names the node as long as it is fresh. -/
theorem Publishes.reads (h : Publishes x percent configPath d updates live) (hx : x.Lawful)
    {u : StatusUpdate} (hu : u ∈ updates) (current : UInt64) :
    readLiveIdentity x (.ok (statusText percent u.app u.seen)) current
      = if u.seen.updated ≤ current ∧ current - u.seen.updated ≤ 5000 then .ok live
        else .error "The node status is stale; start madoka before creating an invitation" := by
  obtain ⟨hline, husable⟩ := h.listens.usable hx
  obtain ⟨hid, hendpoint, hnetwork⟩ := h.each u hu
  rw [readLiveIdentity_statusText x hx h.percent (hendpoint ▸ hline) (hendpoint ▸ husable), hid,
    hendpoint, hnetwork]

/-- What is read names the node, and was written a moment ago. -/
theorem Publishes.named (h : Publishes x percent configPath d updates live) (hx : x.Lawful)
    {read : SystemResult} {current : UInt64} {identity : LiveIdentity}
    (hread : liveIdentity x configPath (statusAfter percent configPath d updates) read current
      = .ok identity) :
    identity = live ∧ ∃ u ∈ updates, u.seen.updated ≤ current ∧ current - u.seen.updated ≤ 5000 := by
  unfold liveIdentity at hread
  cases hcontents : privateReadFile (statusAfter percent configPath d updates)
      (statusPath configPath) 65536 read with
  | error e =>
      rw [hcontents] at hread
      cases hread
  | ok contents =>
      obtain ⟨u, hu, rfl⟩ := statusAfter_read h.configured h.first hcontents
      rw [hcontents, h.reads hx hu] at hread
      split_ifs at hread with hfresh
      cases hread
      exact ⟨rfl, u, hu, hfresh⟩

end

end

/-! ## What an invitation says -/

section
variable {x : External}

/-- A ticket that was stored is on disk as its token. -/
theorem inviteStore_stored {trust : TrustState} {d d' : Directory} {ticket : InviteTicket}
    {answers : StoreAnswers} (h : inviteStore x trust d ticket answers = (.ok (), d')) :
    inviteEncode x ticket ≠ []
      ∧ d'.lookup (invitePath ticket.secret) = some (inviteEncode x ticket ++ [newline]) := by
  unfold inviteStore at h
  split at h
  · cases h
  rename_i hvalid
  refine ⟨fun hempty => hvalid (.inl hempty), ?_⟩
  split at h
  · cases h
  split at h
  · cases h
  unfold storeLocked at h
  split at h
  · cases h
  split at h
  · cases h
  split at h
  · cases h
  split at h
  · cases h
  split at h
  · cases h
  -- every check is passed, and what is left is the write
  have hfile := privateWriteAtomically_ok (congrArg Prod.fst h) (invitePath ticket.secret)
  rw [h, if_pos rfl] at hfile
  exact hfile

/-- The ticket names the node whose status was read. -/
structure Issues (live : LiveIdentity) (nowSeconds lifetimeSeconds : UInt64) (ticket : InviteTicket) :
    Prop where
  inviterId : ticket.inviterId = live.nodeId
  endpoint : ticket.inviterEndpoint = live.endpoint
  network : ticket.network = live.network
  created : ticket.createdAt = nowSeconds
  expires : ticket.expiresAt = nowSeconds + lifetimeSeconds
  fresh : ticket.consumed = false

theorem inviteGenerate_issues {live : LiveIdentity} {nowSeconds lifetimeSeconds : UInt64}
    {random : Except String (ByteArr 16)} {ticket : InviteTicket}
    (h : inviteGenerate x live nowSeconds lifetimeSeconds random = .ok ticket) :
    Issues live nowSeconds lifetimeSeconds ticket := by
  unfold inviteGenerate at h
  split at h
  · cases h
  · split at h
    · cases h
    · split at h
      · cases h
      · cases h
        exact ⟨rfl, rfl, rfl, rfl, rfl, rfl⟩

/-- A token is printed only of a ticket that is stored. -/
theorem inviteCommand_prints {stateDirectory : Bytes} {store store' : Directory}
    {contents : Except String Bytes} {lifetimeSeconds : UInt64} {answers : InviteAnswers}
    {token : Bytes}
    (h : inviteCommand x stateDirectory store contents lifetimeSeconds answers = (.ok token, store')) :
    ∃ live ticket, readLiveIdentity x contents answers.current = .ok live
      ∧ Issues live answers.nowSeconds lifetimeSeconds ticket
      ∧ token = inviteEncode x ticket ∧ inviteEncode x ticket ≠ []
      ∧ store'.lookup (invitePath ticket.secret) = some (inviteEncode x ticket ++ [newline]) := by
  unfold inviteCommand at h
  cases hlive : readLiveIdentity x contents answers.current with
  | error e =>
      rw [hlive] at h
      cases h
  | ok live =>
  rw [hlive] at h
  dsimp only at h
  cases hticket : inviteGenerate x live answers.nowSeconds lifetimeSeconds answers.random with
  | error e =>
      rw [hticket] at h
      cases h
  | ok ticket =>
  rw [hticket] at h
  dsimp only at h
  cases hstored : inviteStore x { directory := stateDirectory, peers := [] } store ticket
      answers.store with
  | mk result d' =>
  rw [hstored] at h
  cases result with
  | error e => cases h
  | ok u =>
      cases h
      obtain ⟨hvalid, hfile⟩ := inviteStore_stored hstored
      exact ⟨live, ticket, rfl, inviteGenerate_issues hticket, rfl, hvalid, hfile⟩

end

/-! ## A first status -/

/-- A node that has just started writes its status. -/
def firstStatus : StatusUpdate where
  app := firstNode
  seen := { updated := 1000, peers := [], routes := [] }
  answers := .success (zero 16)

def firstIdentity : LiveIdentity where
  nodeId := firstNode.id
  endpoint := firstNode.localContact.endpoint
  network := firstNode.network

theorem firstIdentity_listens : ListensAt system firstIdentity.endpoint :=
  ⟨ascii "127.0.0.1", 9001, by decide, .inr (by decide), by decide⟩

theorem firstStatus_shows : ∀ u ∈ [firstStatus], Shows firstIdentity u.app := by
  intro u hu
  rw [List.mem_singleton.mp hu]
  exact ⟨rfl, rfl, rfl⟩

theorem firstStatus_publishes : Publishes system (fun _ _ => ascii "0.0") statePath ∅ [firstStatus]
    firstIdentity :=
  ⟨firstIdentity_listens, firstStatus_shows, fun _ _ => by decide, by decide,
    AList.notMem_empty _⟩

end Madoka
