import Madoka.Daemon.JoinStorage
import Madoka.Security.Canonical

/-!
# Join Atomicity

A join leaves nothing on disk or the three files of a node that starts again,
exactly when no step between the identity's file and the trust record fails.
-/

namespace Madoka

open Octets

section
variable {Key : Type} {x : External} {keys : KeyStore Key} {p : Paths} {disk : Disk}
  {node : JoinNode Key} {answers : JoinRunAnswers}

/-! ## What a start makes of it -/

theorem loadConfig_empty (path : Bytes) :
    loadConfig x p path (some []) = .error "Configuration requires network" := rfl

/-- An identity file is no configuration: its first line has no equals sign. -/
theorem loadConfig_identityText (path : Bytes) (id : NodeId) (generation : UInt64) (pem : Bytes) :
    ∃ e, loadConfig x p path (some (identityText id generation pem)) = .error e := by
  have htext : ∃ rest, identityText id generation pem = ascii "Madoka-Identity: 1" ++ 10 :: rest := by
    refine ⟨ascii "Node-ID: " ++ (hex id.val ++ (10 ::
      (generationHeader ++ (toDecimal generation.toNat ++ (10 :: pem))))), ?_⟩
    simp [identityText, identityHeader]
  obtain ⟨rest, htext⟩ := htext
  have hplain : (10 : UInt8) ∉ ascii "Madoka-Identity: 1" := by decide
  have htrim : trim (ascii "Madoka-Identity: 1") = ascii "Madoka-Identity: 1" := by decide
  have hseparator : (ascii "Madoka-Identity: 1").idxOf? '='.toUInt8 = none := by decide
  have hcomment : ¬ (ascii "Madoka-Identity: 1" = []
      ∨ (ascii "Madoka-Identity: 1").head? = some '#'.toUInt8) := by decide
  have hline : configLine x p path .initial (ascii "Madoka-Identity: 1")
      = .error "Expected key=value in configuration" := by
    unfold configLine
    dsimp only
    rw [htrim, if_neg hcomment, hseparator]
  unfold loadConfig
  dsimp only
  split_ifs with hsize
  · exact ⟨_, rfl⟩
  · rw [htext, split_append_cons hplain, configFields, hline]
    exact ⟨_, rfl⟩

theorem identityLoad_valid {d : Directory} {f : Bytes} {answers : IdentityAnswers Key}
    {identity : Identity Key} (h : (identityLoad x keys d f answers).1 = .ok identity) :
    validateIdentityAddress identity.id = .ok () := by
  unfold identityLoad at h
  split at h
  · cases h
  · split at h
    · cases h
    · split at h
      · cases h
      · dsimp only at h
        split at h
        · cases h
        · split at h
          · cases h
          · rename_i hvalid
            cases h
            exact hvalid

/-- With its lock and a good text in place the identity is loaded. -/
theorem identityLoad_stored {d : Directory} {f text : Bytes} {keygen : Option Key}
    {random : ByteArr 16} {key : Key} {id : NodeId} {generation : UInt64} (hf : f ≠ [])
    (hlock : lockPath f ∈ d) (htext : d.lookup f = some text) (hsize : text.length ≤ 4096)
    (hdecode : decodeIdentity x keys text = .ok (key, id, generation))
    (hvalid : validateIdentityAddress id = .ok ()) :
    (identityLoad x keys d f (restartAnswers keygen random)).1
      = .ok { key, id, generation, storagePath := f, locked := true } := by
  have hmem : f ∈ d := by
    rw [← AList.lookup_isSome, htext]
    rfl
  have hacquire : fileLockAcquire d (lockPath f) (.success random) = (.ok (), d) := by
    unfold fileLockAcquire LockAnswers.success
    dsimp only
    rw [if_pos hlock]
  have hread : privateReadFile d f 4096 none = .ok text := by
    unfold privateReadFile
    rw [htext]
    exact if_neg (Nat.not_lt.mpr hsize)
  unfold identityLoad restartAnswers
  rw [if_neg hf]
  dsimp only
  rw [hacquire]
  dsimp only
  rw [if_pos hmem]
  unfold storedIdentity
  rw [hread]
  dsimp only
  rw [hdecode]
  dsimp only
  rw [hvalid]

theorem decodeIdentity_empty : ∃ e, decodeIdentity x keys [] = .error e := by
  refine ⟨"Invalid identity file; refusing to regenerate it", ?_⟩
  unfold decodeIdentity
  dsimp only
  rw [if_pos (.inl (by decide))]

/-! ## A join that reached ACTIVE -/

section Joined

variable {peer : TlsPeer} {pem : Bytes} {files store : Directory}

/-- The identity, its lock and what was there before. -/
def IdentityStored (p : Paths) (disk : Disk) (node : JoinNode Key) (pem : Bytes) (files : Directory) :
    Prop :=
  ∀ n, files.lookup n
    = if n = node.identityName p then some (identityText node.identity.id 2 pem)
      else if n = lockPath (node.identityName p) ∧ lockPath (node.identityName p) ∉ disk.files
        then some [] else disk.files.lookup n

theorem IdentityStored.sameNames (h : IdentityStored p disk node pem files) (name : Bytes) :
    SameNames files (withIdentity p disk node) name := by
  have hmem : ∀ n, n ∈ files ↔ n ∈ withIdentity p disk node := by
    intro n
    unfold withIdentity
    rw [AList.mem_insert, AList.mem_insert, ← AList.lookup_isSome, h]
    by_cases hidentity : n = node.identityName p
    · simp [hidentity]
    · by_cases hlock : n = lockPath (node.identityName p)
      · rw [if_neg hidentity]
        subst hlock
        by_cases hold : lockPath (node.identityName p) ∈ disk.files
        · simp [hold, AList.lookup_isSome]
        · simp [hold]
      · simp [hidentity, hlock, AList.lookup_isSome]
  exact ⟨hmem name, fun random => hmem _⟩

/-- A configuration that did not get into its place is none a start loads. -/
theorem loadConfig_unwritten (hfresh : FreshNode x keys p disk node)
    (hfiles : IdentityStored p disk node pem files)
    (hno : ¬ Renames (withIdentity p disk node) (node.configName p) answers.config) (path : Bytes) :
    ∃ e, loadConfig x p path ((saveConfig p files (node.configName p) node.config
      answers.config).lookup (node.configName p)) = .error e := by
  have hsame : (saveConfig p files (node.configName p) node.config answers.config).lookup
      (node.configName p) = files.lookup (node.configName p) := by
    unfold saveConfig
    have houtcome := privateWriteAtomically_outcome files (node.configName p)
      (configText p node.config) answers.config
    generalize privateWriteAtomically files (node.configName p) (configText p node.config)
      answers.config = result at houtcome ⊢
    cases houtcome with
    | kept e d' hrenames hstrays hsame => exact hsame _
    | strayed e random stray hrenames hstrays htakes hnew =>
        exact AList.lookup_insert_ne (temporaryName_ne random).symm
    | renamed result d' hrenames hstrays hresult hok hreplaced =>
        exact absurd ((renames_congr (hfiles.sameNames _)).mp hrenames) hno
  rw [hsame, hfiles]
  split_ifs with hidentity hlock
  · exact loadConfig_identityText path _ _ _
  · exact ⟨_, loadConfig_empty path⟩
  · rw [AList.lookup_eq_none.mpr hfresh.configFile]
    exact ⟨_, rfl⟩

theorem saveConfig_written (hfiles : IdentityStored p disk node pem files)
    (hrenames : Renames (withIdentity p disk node) (node.configName p) answers.config) (n : Bytes) :
    (saveConfig p files (node.configName p) node.config answers.config).lookup n
      = if n = node.configName p then some (configText p node.config) else files.lookup n := by
  have hwrites := (renames_congr (hfiles.sameNames _)).mpr hrenames
  unfold saveConfig
  have houtcome := privateWriteAtomically_outcome files (node.configName p)
    (configText p node.config) answers.config
  generalize privateWriteAtomically files (node.configName p) (configText p node.config)
    answers.config = result at houtcome ⊢
  cases houtcome with
  | kept e d' hno hstrays hsame => exact absurd hwrites hno
  | strayed e random stray hno hstrays htakes hnew => exact absurd hwrites hno
  | renamed result d' hrenames hstrays hresult hok hreplaced => exact hreplaced n

/-- The trust directory loads as the table that holds the bootstrap. -/
theorem trustLoad_bootstrap (hfresh : FreshNode x keys p disk node)
    (hfacts : FreshFacts x keys p node) (hfile : node.identityName p ≠ [])
    (hbinding : validIdentityBinding x (node.bootstrap peer) = true)
    (hstore : ∀ n, store.lookup n
      = if n = peerPath node.ticket.inviterId then some (encodePeer (node.bootstrap peer))
        else (node.store p disk).lookup n) :
    trustLoad x store (node.identityName p) .success
      = .ok { directory := trustDirectory (node.identityName p), peers := [node.bootstrap peer] } := by
  have hnone : ∀ name contents, (node.store p disk).lookup name = some contents →
      isPeerFile name = false := by
    intro name contents hlookup
    apply hfresh.records
    rw [← AList.lookup_isSome, hlookup]
    rfl
  have hgood : RecordsGood x (node.store p disk) := by
    intro name contents hlookup hfile
    rw [hnone name contents hlookup] at hfile
    cases hfile
  have hempty : ∀ q, q ∈ ([] : List TrustedPeer) ↔ q ∈ records x (node.store p disk) := by
    intro q
    constructor
    · intro h
      cases h
    · intro h
      obtain ⟨contents, hcontents, -, -⟩ := mem_records.mp h
      have hpeerFile := hnone _ contents hcontents
      rw [isPeerFile_peerPath] at hpeerFile
      cases hpeerFile
  have hsorted : LowerBound.Sorted TrustedPeer.id [] := List.Pairwise.nil
  obtain ⟨hgood', hrecords⟩ := records_written hfacts.endpoint hbinding hsorted hstore hgood hempty
  rw [LowerBound.put_nil] at hrecords
  have hone : LowerBound.Sorted TrustedPeer.id [node.bootstrap peer] :=
    List.pairwise_singleton _ _
  exact trustLoad_of_records hfile rfl hgood' hone hrecords (by simp [maxTrustedPeers])

/-- The file names the identity as the start will look for it. -/
theorem FreshFacts.trim_filename (hp : p.Lawful) (h : FreshFacts x keys p node) :
    trim (p.filename node.config.identityFile) = ascii "identity.pem" := by
  rw [h.identityFile, hp.filename_beside]
  decide

/-- Without a key to generate, a start finds no identity but the stored one. -/
theorem identityLoad_found {d : Directory} {f : Bytes} {random : ByteArr 16} {identity : Identity Key}
    (h : (identityLoad x keys d f (restartAnswers none random)).1 = .ok identity) :
    ∃ text, d.lookup f = some text
      ∧ decodeIdentity x keys text = .ok (identity.key, identity.id, identity.generation) := by
  rcases identityLoad_cases x keys d f (restartAnswers none random) with
    ⟨-, ⟨e, he⟩ | ⟨found, text, hfound, -, hlookup, hdecode⟩⟩ | ⟨-, key, pem, hkeygen, -⟩
  · rw [h] at he
    cases he
  · rw [h] at hfound
    cases hfound
    exact ⟨text, hlookup, hdecode⟩
  · cases hkeygen

theorem restorable_of_restart (hx : x.Lawful) (hp : p.Lawful) (hfresh : FreshNode x keys p disk node)
    (hfacts : FreshFacts x keys p node) (hfiles : IdentityStored p disk node pem files)
    {d : Disk} (hfinal : ∀ n, d.files.lookup n
      = if n = node.configName p then some (configText p node.config) else files.lookup n)
    {random : ByteArr 16} {config : Config} {identity : Identity Key} {trust : TrustState}
    (hrestart : restart x keys p d node.path (restartAnswers none random)
      = .ok (config, identity, trust)) :
    Restorable p node.path node.config ∧ validateIdentityAddress identity.id = .ok () := by
  have hname := hfacts.trim_filename hp
  have hload := loadConfig_configText hx node.path (hfacts.held.valid hp)
  have hlookup : d.files.lookup (p.canonical node.path) = some (configText p node.config) :=
    (hfinal _).trans (if_pos rfl)
  unfold restart at hrestart
  rw [hlookup, hload] at hrestart
  by_cases hsize : 65536 < configSize p node.config
  · rw [if_pos hsize] at hrestart
    cases hrestart
  by_cases hempty : trim (p.filename node.config.identityFile) = []
  · rw [if_neg hsize, if_pos hempty] at hrestart
    cases hrestart
  by_cases hsame : p.canonical (p.within node.path (trim (p.filename node.config.identityFile)))
      = p.canonical node.path
  · rw [if_neg hsize, if_neg hempty, if_pos hsame] at hrestart
    cases hrestart
  rw [if_neg hsize, if_neg hempty, if_neg hsame] at hrestart
  dsimp only at hrestart
  cases hidentity : (identityLoad x keys d.files
      (p.canonical (p.within node.path (trim (p.filename node.config.identityFile))))
      (restartAnswers none random)).1 with
  | error e =>
      rw [hidentity] at hrestart
      cases hrestart
  | ok found =>
  rw [hidentity] at hrestart
  have hfound : found = identity := by
    dsimp only at hrestart
    split at hrestart
    · cases hrestart
    · cases hrestart
      rfl
  subst hfound
  obtain ⟨text, htext, hdecode⟩ := identityLoad_found hidentity
  -- the file it was read from is neither the configuration nor the lock
  have hconfig : ¬ p.canonical (p.within node.path (trim (p.filename node.config.identityFile)))
      = node.configName p := hsame
  rw [hfinal, if_neg hconfig, hfiles] at htext
  have hbeside : p.canonical (p.within node.path (trim (p.filename node.config.identityFile)))
      = node.identityName p := by
    by_contra hother
    rw [if_neg hother] at htext
    split_ifs at htext with hlock
    · cases htext
      obtain ⟨e, he⟩ := @decodeIdentity_empty _ x keys
      rw [he] at hdecode
      cases hdecode
    · rw [hname, AList.lookup_eq_none.mpr hfresh.loadedFile] at htext
      cases htext
  refine ⟨⟨hfacts.wintunDll, hempty, hbeside, ?_, Nat.le_of_not_lt hsize⟩,
    identityLoad_valid hidentity⟩
  rw [hbeside] at hsame
  exact hsame

theorem restart_of_restorable (hx : x.Lawful) (hp : p.Lawful) (hkeys : keys.Lawful)
    (hfacts : FreshFacts x keys p node) (hnamed : node.identityName p ≠ [])
    (hpem : keys.pemWrite node.identity.key = some pem)
    (hfiles : IdentityStored p disk node pem files) {d : Disk}
    (hfinal : ∀ n, d.files.lookup n
      = if n = node.configName p then some (configText p node.config) else files.lookup n)
    {trust : TrustState} (htrust : trustLoad x (node.store p d) (node.identityName p) .success = .ok trust)
    (hrestorable : Restorable p node.path node.config)
    (hvalid : validateIdentityAddress node.identity.id = .ok ()) (keygen : Option Key)
    (random : ByteArr 16) :
    ∃ config identity, restart x keys p d node.path (restartAnswers keygen random)
        = .ok (config, identity, trust)
      ∧ config.network = node.config.network ∧ identity.id = node.identity.id := by
  have hload := loadConfig_configText hx node.path (hfacts.held.valid hp)
  have hlookup : d.files.lookup (p.canonical node.path) = some (configText p node.config) :=
    (hfinal _).trans (if_pos rfl)
  have hbeside : p.canonical (p.within node.path (trim (p.filename node.config.identityFile)))
      = node.identityName p := hrestorable.beside
  have hapart : node.identityName p ≠ node.configName p := hrestorable.apart
  have hsame : ¬ p.canonical (p.within node.path (trim (p.filename node.config.identityFile)))
      = p.canonical node.path := by
    rw [hbeside]
    exact hapart
  have htext : d.files.lookup (node.identityName p)
      = some (identityText node.identity.id 2 pem) := by
    rw [hfinal, if_neg hapart, hfiles, if_pos rfl]
  have hlock : lockPath (node.identityName p) ∈ d.files := by
    rw [← AList.lookup_isSome, hfinal, hfiles]
    by_cases hold : lockPath (node.identityName p) ∈ disk.files
    · have hsome := AList.lookup_isSome.mpr hold
      split_ifs <;> simp_all
    · split_ifs <;> simp_all
  have hdecode := @decodeIdentity_written _ x keys hkeys node.identity.key pem 2 hpem (by decide)
  rw [← hfacts.derived] at hdecode
  have hidentity := @identityLoad_stored _ x keys d.files (node.identityName p) _ keygen random
    _ _ _ hnamed hlock htext (identityText_length hkeys _ _ hpem) hdecode hvalid
  have htrust' : trustLoad x (d.stores (trustDirectory (node.identityName p))) (node.identityName p)
      .success = .ok trust := htrust
  unfold restart
  rw [hlookup, hload, if_neg (Nat.not_lt.mpr hrestorable.size), if_neg hrestorable.name, if_neg hsame]
  dsimp only
  rw [hbeside, hidentity]
  dsimp only
  rw [htrust']
  exact ⟨_, _, rfl, rfl, rfl⟩

/-- After the three writes the files are those of a node that starts again
exactly when the configuration got into its place and a start accepts it. -/
theorem allStored_iff (hx : x.Lawful) (hp : p.Lawful) (hkeys : keys.Lawful)
    (hfresh : FreshNode x keys p disk node) (hfacts : FreshFacts x keys p node)
    (hnamed : node.identityName p ≠ [])
    (hbinding : validIdentityBinding x (node.bootstrap peer) = true)
    (hpem : keys.pemWrite node.identity.key = some pem)
    (hfiles : IdentityStored p disk node pem files)
    (hstore : ∀ n, store.lookup n
      = if n = peerPath node.ticket.inviterId then some (encodePeer (node.bootstrap peer))
        else (node.store p disk).lookup n) :
    AllStored x keys p
        { files := saveConfig p files (node.configName p) node.config answers.config
          stores := Function.update disk.stores (trustDirectory (node.identityName p)) store }
        node peer
      ↔ Renames (withIdentity p disk node) (node.configName p) answers.config
        ∧ Restorable p node.path node.config ∧ validateIdentityAddress node.identity.id = .ok () := by
  constructor
  · intro h
    obtain ⟨config, identity, trust, hrestart, -, hid, -⟩ := h.restarts none (zero 16)
    have hrenames : Renames (withIdentity p disk node) (node.configName p) answers.config := by
      by_contra hno
      obtain ⟨e, he⟩ := loadConfig_unwritten hfresh hfiles hno node.path
      unfold restart at hrestart
      have hload : loadConfig x p node.path
          ((saveConfig p files (node.configName p) node.config answers.config).lookup
            (p.canonical node.path)) = .error e := he
      rw [hload] at hrestart
      cases hrestart
    obtain ⟨hrestorable, hvalid⟩ := restorable_of_restart hx hp hfresh hfacts hfiles
      (saveConfig_written hfiles hrenames) hrestart
    exact ⟨hrenames, hrestorable, hid ▸ hvalid⟩
  · intro h
    obtain ⟨hrenames, hrestorable, hvalid⟩ := h
    have hfinal := saveConfig_written hfiles hrenames
    have hupdated : ∀ d : Directory, Function.update disk.stores
        (trustDirectory (node.identityName p)) d (trustDirectory (node.identityName p)) = d :=
      fun d => Function.update_self _ _ _
    have htrust := trustLoad_bootstrap hfresh hfacts hnamed hbinding hstore
    constructor
    · rw [← AList.lookup_isSome, hfinal]
      split_ifs
      · rfl
      · rw [hfiles, if_pos rfl]
        rfl
    · rw [← AList.lookup_isSome, hfinal, if_pos rfl]
      rfl
    · unfold JoinNode.store
      dsimp only
      rw [hupdated, ← AList.lookup_isSome, hstore, if_pos rfl]
      rfl
    · intro keygen random
      rw [← hupdated store] at htrust
      obtain ⟨config, identity, hrestart, hnetwork, hid⟩ :=
        @restart_of_restorable _ x keys p disk node pem files hx hp hkeys hfacts hnamed hpem hfiles
          ⟨_, _⟩ hfinal _ htrust hrestorable hvalid keygen random
      refine ⟨config, identity, _, hrestart, hnetwork, hid, ?_⟩
      unfold trustFind
      rw [LowerBound.find?_cons]
      simp [JoinNode.bootstrap]

end Joined

/-! ## The whole run -/

/-- A join is all or nothing exactly when it does not reach the storage, when
the identity cannot be stored and leaves no file under its name or the
configuration's, or when everything after the identity gets into its place and
a start accepts it. -/
theorem join_allOrNothing_iff (hx : x.Lawful) (hp : p.Lawful) (hkeys : keys.Lawful)
    (hfresh : FreshNode x keys p disk node) (answers : JoinRunAnswers) :
    JoinAllOrNothing x keys p disk node answers
      ↔ (ReachesStorage x p node answers → StoresAllOrNothing keys p disk node answers) := by
  have hfacts := hfresh.facts
  by_cases hreaches : ReachesStorage x p node answers
  swap
  · obtain ⟨e, hrun⟩ := @runJoin_refused _ x keys p disk node answers hfacts hreaches
    refine iff_of_true ⟨fun e' _ => ?_, fun state h => ?_⟩ fun h => absurd h hreaches
    · rw [hrun]
      exact hfresh.nothingLeft
    · rw [hrun] at h
      cases h
  have hrun : ∀ result, runJoin x keys p disk node answers = result →
      (JoinAllOrNothing x keys p disk node answers
        ↔ (∀ e, result.1 = .error e → NothingLeft p result.2 node)
          ∧ ∀ state, result.1 = .ok state → state = .active ∧ ∃ peer, answers.peer = .ok peer
            ∧ AllStored x keys p result.2 node peer) := by
    rintro result rfl
    exact ⟨fun h => ⟨h.failed, h.active⟩, fun h => ⟨h.1, h.2⟩⟩
  have hend := @runJoin_end _ x keys p disk node answers hfacts hreaches
  generalize hresult : runJoin x keys p disk node answers = result at hend
  rw [hrun result hresult]
  simp only [hreaches, true_imp_iff]
  unfold StoresAllOrNothing
  cases hend with
  | unsaved e files hsaves hfiles =>
      have hidentity := hfiles _ hfresh.identityFile
      have hconfig := hfiles _ hfresh.configFile
      simp only [hsaves, false_and, false_or, not_false_eq_true, true_and, ← hidentity, ← hconfig]
      constructor
      · intro h
        have hnothing := h.1 e rfl
        exact ⟨hnothing.identity, hnothing.config⟩
      · intro h
        refine ⟨fun e' _ => ⟨h.1, h.2, hfresh.nothingLeft.record⟩, fun state hstate => ?_⟩
        cases hstate
  | untrusted e disk' hsaves hrecord hleft =>
      -- the identity is on disk whatever became of the configuration
      refine iff_of_false (fun h => (h.1 e rfl).identity hleft) fun h => ?_
      rcases h with ⟨-, hrest⟩ | ⟨hno, -⟩
      · exact hrecord hrest.record
      · exact hno hsaves
  | joined peer pem files store hsaves hrecord hpeer hbinding hpem hfiles hstore =>
      have hiff := @allStored_iff _ x keys p disk node answers peer pem files store hx hp hkeys hfresh
        hfacts hsaves.named hbinding hpem hfiles hstore
      constructor
      · intro h
        obtain ⟨-, peer', hpeer', hstored⟩ := h.2 .active rfl
        rw [hpeer] at hpeer'
        cases hpeer'
        obtain ⟨hconfig, hrestorable, hvalid⟩ := hiff.mp hstored
        exact .inl ⟨hsaves, hconfig, hrecord, hrestorable, hvalid⟩
      · intro h
        have hrest := (h.resolve_right fun h => h.1 hsaves).2
        refine ⟨fun e he => ?_, fun state hstate => ?_⟩
        · cases he
        · cases hstate
          exact ⟨rfl, peer, hpeer, hiff.mpr ⟨hrest.config, hrest.restorable, hrest.address⟩⟩

end

/-! ## A first join over loopback -/

theorem onlyKey_lawful : onlyKey.Lawful where
  framed := by
    intro key pem h
    cases h
    exact ⟨List.prefix_append _ _, List.suffix_append _ _⟩
  short := by
    intro key pem h
    cases h
    decide
  read := by
    intro key pem h
    cases h
    show (if pemBegin ++ pemEnd = pemBegin ++ pemEnd then some () else none) = some key
    exact if_pos rfl

def emptyDisk : Disk where
  files := ∅
  stores := fun _ => ∅

def loopbackNode : JoinNode Unit where
  path := statePath
  config :=
    { builtConfig plainPaths statePath loopbackTicket.network with
      listenAddress := ascii "192.168.0.2"
      listenPort := 9001 }
  identity :=
    { key := ()
      id := identityDeriveId system onlyKey ()
      generation := 1
      storagePath := []
      locked := false }
  ticket := loopbackTicket

def loopbackPeer : TlsPeer where
  nodeId := loopbackTicket.inviterId
  pubkey := (numberedPeer 0).publicKey

def loopbackContact : NodeContact :=
  { trustedContact loopbackTicket.network (numberedPeer 0) with
    endpoint := loopbackTicket.inviterEndpoint }

/-- The bootstrap admits the node and every step of the storage works, but for
what is asked of the trust record's write. -/
def loopbackAnswers (write : WriteAnswers) : JoinRunAnswers where
  publicKey := true
  runtime := runtimeAnswers
  peer := .ok loopbackPeer
  sent := none
  reply := .ok (controlMessageCreate .joinResponse 1 loopbackTicket.inviterId
    (serializeJoinResponse
      { accepted := true
        bootstrapContact := loopbackContact
        bootstrapId := loopbackTicket.inviterId
        peers := [] }))
  stateDirectory := none
  trustDirectory := none
  save := { lock := .success (zero 16), write := .success (zero 16) }
  config := .success (zero 16)
  trust := { ensureDirectory := none, write }
  steadyNow := 0

theorem loopbackNode_fresh : FreshNode system onlyKey plainPaths emptyDisk loopbackNode where
  invitation := by
    have hvalid : inviteEncode system loopbackTicket ≠ [] := by decide
    exact ⟨_, inviteDecode_encode hvalid⟩
  config := ⟨false, [], [], homeAddress, by simp, by decide, rfl⟩
  identity := ⟨some (), rfl⟩
  configFile := AList.notMem_empty _
  identityFile := AList.notMem_empty _
  loadedFile := AList.notMem_empty _
  records := fun name h => absurd h (AList.notMem_empty _)

theorem join_allOrNothing_iff_loopback :
    JoinAllOrNothing system onlyKey plainPaths emptyDisk loopbackNode
      (loopbackAnswers (.success (zero 16))) := by
  have hwrites : ∀ (d : Directory) (name : Bytes),
      (privateWriteAtomically d name [] (.success (zero 16))).1 = .ok () →
      Renames d name (.success (zero 16)) := by
    intro d name h
    exact (privateWriteAtomically_ok_iff.mp h).1
  refine (join_allOrNothing_iff system_lawful plainPaths_lawful onlyKey_lawful loopbackNode_fresh
    _).mpr fun _ => .inl ⟨⟨by decide, ?_, ?_, hwrites _ _ (by decide), rfl⟩, ?_⟩
  · exact fileLockAcquire_ok_iff.mp (by decide)
  · exact ⟨_, rfl, by decide⟩
  · refine ⟨hwrites _ _ (by decide), ⟨rfl, hwrites _ _ (by decide), rfl⟩, ?_,
      by decide⟩
    exact ⟨rfl, by decide, by decide, by decide, by decide⟩

/-- The trust record cannot be renamed into its place. -/
def refusedRename : WriteAnswers :=
  { WriteAnswers.success (zero 16) with replace := some "Cannot replace private file" }

/-- The join fails, the identity and the configuration stay, and joining once
more is refused for the configuration that is there. -/
theorem join_leaves_state :
    (¬ ∀ (x : External) (keys : KeyStore Unit) (p : Paths) (disk : Disk) (node : JoinNode Unit)
        (answers : JoinRunAnswers), x.Lawful → p.Lawful → keys.Lawful →
        FreshNode x keys p disk node → JoinAllOrNothing x keys p disk node answers)
      ∧ (runJoin system onlyKey plainPaths emptyDisk loopbackNode (loopbackAnswers refusedRename)).1
        = .error "Cannot persist bootstrap trust: Cannot replace private file"
      ∧ loopbackNode.identityName plainPaths ∈ (runJoin system onlyKey plainPaths emptyDisk
          loopbackNode (loopbackAnswers refusedRename)).2.files
      ∧ loopbackNode.configName plainPaths ∈ (runJoin system onlyKey plainPaths emptyDisk
          loopbackNode (loopbackAnswers refusedRename)).2.files
      ∧ joinConfig system plainPaths statePath false
          (some ((runJoin system onlyKey plainPaths emptyDisk loopbackNode
            (loopbackAnswers refusedRename)).2.files.lookup (loopbackNode.configName plainPaths)))
          loopbackTicket.network [] [] homeAddress
        = .error ("Node already has state at " ++ quote statePath
          ++ "; remove existing state before joining another network") := by
  have herror : (runJoin system onlyKey plainPaths emptyDisk loopbackNode
      (loopbackAnswers refusedRename)).1
        = .error "Cannot persist bootstrap trust: Cannot replace private file" := by
    decide
  have hidentity : loopbackNode.identityName plainPaths ∈ (runJoin system onlyKey plainPaths
      emptyDisk loopbackNode (loopbackAnswers refusedRename)).2.files := by
    decide
  refine ⟨fun h => ?_, herror, hidentity, by decide, rfl⟩
  have hall := h system onlyKey plainPaths emptyDisk loopbackNode (loopbackAnswers refusedRename)
    system_lawful plainPaths_lawful onlyKey_lawful loopbackNode_fresh
  exact (hall.failed _ herror).identity hidentity

end Madoka
