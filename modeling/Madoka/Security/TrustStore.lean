import Madoka.Crypto.Sha256
import Madoka.Lib.Run
import Madoka.Security.Trust

/-!
# Trust Store

The trust table over a whole run: what a loaded directory contains, and how
memory and disk stay in step while `trust_add` is called again and again.
-/

namespace Madoka

open Octets

variable (x : External)

/-! ## The records of a directory -/

/-- The peer an entry of the directory is a good record of. -/
def recordOf (entry : Sigma fun _ : Bytes => Bytes) : Option TrustedPeer :=
  if isPeerFile entry.1 ∧ entry.2.length ≤ 1024 then
    match decodePeer x entry.2 with
    | .ok peer => if entry.1 = peerPath peer.id then some peer else none
    | .error _ => none
  else none

def records (d : Directory) : List TrustedPeer :=
  d.entries.filterMap (recordOf x)

/-- Every file that is taken for a record is a good one. -/
def RecordsGood (d : Directory) : Prop :=
  ∀ name contents, d.lookup name = some contents → isPeerFile name = true →
    (recordOf x ⟨name, contents⟩).isSome

variable {x}

theorem recordOf_eq_some {name contents : Bytes} {peer : TrustedPeer} :
    recordOf x ⟨name, contents⟩ = some peer ↔
      name = peerPath peer.id ∧ contents.length ≤ 1024 ∧ decodePeer x contents = .ok peer := by
  unfold recordOf
  constructor
  · intro h
    split at h
    · rename_i hfile
      split at h
      · rename_i decoded hdecode
        split at h
        · rename_i hname
          cases h
          exact ⟨hname, hfile.2, hdecode⟩
        · cases h
      · cases h
    · cases h
  · intro h
    obtain ⟨hname, hsize, hdecode⟩ := h
    subst hname
    simp [isPeerFile_peerPath, hsize, hdecode]

theorem mem_records {d : Directory} {peer : TrustedPeer} :
    peer ∈ records x d ↔ ∃ contents, d.lookup (peerPath peer.id) = some contents
      ∧ contents.length ≤ 1024 ∧ decodePeer x contents = .ok peer := by
  simp only [records, List.mem_filterMap]
  constructor
  · intro h
    obtain ⟨⟨name, contents⟩, hmem, hrecord⟩ := h
    obtain ⟨hname, hgood⟩ := recordOf_eq_some.mp hrecord
    rw [hname] at hmem
    exact ⟨contents, AList.mem_lookup_iff.mpr hmem, hgood⟩
  · intro h
    obtain ⟨contents, hlookup, hgood⟩ := h
    exact ⟨⟨_, contents⟩, AList.mem_lookup_iff.mp hlookup, recordOf_eq_some.mpr ⟨rfl, hgood⟩⟩

/-- File names are distinct, so the identifiers of the records are. -/
theorem records_ids_nodup (d : Directory) :
    ((records x d).map TrustedPeer.id).Nodup := by
  rw [List.Nodup, List.pairwise_map, records, List.pairwise_filterMap]
  have hkeys : d.entries.Pairwise fun e e' => e.1 ≠ e'.1 := by
    have h := d.nodupKeys
    rwa [List.NodupKeys, List.Nodup, List.keys, List.pairwise_map] at h
  refine hkeys.imp fun {e e'} hne peer hpeer peer' hpeer' hid => hne ?_
  rw [(recordOf_eq_some.mp hpeer).1, (recordOf_eq_some.mp hpeer').1, hid]

/-! ## The loading loop -/

/-- One turn keeps the list, appends the record, or fails. -/
theorem trustLoadEntry_ok {answers : LoadAnswers} {loaded result : List TrustedPeer}
    {entry : Sigma fun _ : Bytes => Bytes}
    (h : trustLoadEntry x answers loaded entry = .ok result) :
    result = loaded ++ (recordOf x entry).toList
      ∧ (isPeerFile entry.1 = true → (recordOf x entry).isSome)
      ∧ (loaded.length ≤ maxTrustedPeers → result.length ≤ maxTrustedPeers) := by
  unfold trustLoadEntry at h
  split at h
  · rename_i hfile
    cases h
    have hno : isPeerFile entry.1 = false := by simpa using hfile
    simp [recordOf, hno]
  · split at h
    · cases h
    · split at h
      · cases h
      · rename_i hsize
        split at h
        · cases h
        · rename_i peer hdecode
          split at h
          · cases h
          · rename_i hname
            split at h
            · cases h
            · rename_i hroom
              cases h
              have hrecord : recordOf x entry = some peer :=
                recordOf_eq_some.mpr ⟨not_not.mp hname, by omega, hdecode⟩
              refine ⟨by simp [hrecord], by simp [hrecord], fun hle => ?_⟩
              simp only [not_or] at hroom
              simp only [List.length_append, List.length_singleton]
              omega

/-- A good record with a new identifier is appended while there is room. -/
theorem trustLoadEntry_of_record {loaded : List TrustedPeer}
    {entry : Sigma fun _ : Bytes => Bytes}
    (hgood : isPeerFile entry.1 = true → (recordOf x entry).isSome)
    (hroom : ∀ peer ∈ recordOf x entry, loaded.length < maxTrustedPeers
      ∧ ∀ existing ∈ loaded, existing.id ≠ peer.id) :
    trustLoadEntry x .success loaded entry = .ok (loaded ++ (recordOf x entry).toList) := by
  cases hfile : isPeerFile entry.1 with
  | false => simp [trustLoadEntry, recordOf, hfile]
  | true =>
      obtain ⟨peer, hpeer⟩ := Option.isSome_iff_exists.mp (hgood hfile)
      obtain ⟨hname, hsize, hdecode⟩ := recordOf_eq_some.mp hpeer
      obtain ⟨hlen, hnew⟩ := hroom peer hpeer
      have hnone : (loaded.any fun existing => decide (existing.id = peer.id)) = false := by
        simpa using hnew
      have hlen' : loaded.length ≠ maxTrustedPeers := by omega
      have hsize' : ¬ entry.2.length > 1024 := by omega
      unfold trustLoadEntry
      rw [hfile, hpeer]
      simp [LoadAnswers.success, hsize', hdecode, hname, hnone, hlen']

theorem loadLoop_ok {answers : LoadAnswers} {entries : List (Sigma fun _ : Bytes => Bytes)}
    {loaded result : List TrustedPeer}
    (h : entries.foldlM (trustLoadEntry x answers) loaded = .ok result) :
    result = loaded ++ entries.filterMap (recordOf x)
      ∧ (∀ entry ∈ entries, isPeerFile entry.1 = true → (recordOf x entry).isSome)
      ∧ (loaded.length ≤ maxTrustedPeers → result.length ≤ maxTrustedPeers) := by
  induction entries generalizing loaded with
  | nil =>
      cases h
      simp
  | cons entry rest ih =>
      cases hentry : trustLoadEntry x answers loaded entry with
      | error e =>
          rw [List.foldlM_cons, hentry] at h
          cases h
      | ok loaded' =>
          rw [List.foldlM_cons, hentry] at h
          obtain ⟨hloaded, hgood, hlen⟩ := trustLoadEntry_ok hentry
          obtain ⟨hresult, hgoods, hlens⟩ := ih h
          refine ⟨?_, ?_, fun hle => hlens (hlen hle)⟩
          · rw [hresult, hloaded, List.append_assoc]
            cases hrecord : recordOf x entry <;> simp [hrecord]
          · intro e he
            rcases List.mem_cons.mp he with rfl | he
            · exact hgood
            · exact hgoods e he

theorem loadLoop_of_records {entries : List (Sigma fun _ : Bytes => Bytes)}
    {loaded : List TrustedPeer}
    (hgood : ∀ entry ∈ entries, isPeerFile entry.1 = true → (recordOf x entry).isSome)
    (hids : ((loaded ++ entries.filterMap (recordOf x)).map TrustedPeer.id).Nodup)
    (hlen : (loaded ++ entries.filterMap (recordOf x)).length ≤ maxTrustedPeers) :
    entries.foldlM (trustLoadEntry x .success) loaded
      = .ok (loaded ++ entries.filterMap (recordOf x)) := by
  induction entries generalizing loaded with
  | nil => simp [pure, Except.pure]
  | cons entry rest ih =>
      have hsplit : loaded ++ (entry :: rest).filterMap (recordOf x)
          = loaded ++ (recordOf x entry).toList ++ rest.filterMap (recordOf x) := by
        cases hrecord : recordOf x entry <;> simp [hrecord]
      rw [hsplit] at hids hlen ⊢
      have hentry : trustLoadEntry x .success loaded entry
          = .ok (loaded ++ (recordOf x entry).toList) := by
        refine trustLoadEntry_of_record (hgood entry (List.mem_cons_self ..)) fun peer hpeer => ?_
        rw [Option.mem_def] at hpeer
        rw [hpeer, Option.toList_some] at hids hlen
        constructor
        · simp only [List.length_append, List.length_singleton] at hlen
          omega
        · intro existing hexisting
          rw [List.append_assoc, List.map_append, List.nodup_append] at hids
          exact hids.2.2 _ (List.mem_map_of_mem hexisting) _ (by simp)
      rw [List.foldlM_cons, hentry]
      exact ih (fun e he => hgood e (List.mem_cons_of_mem _ he)) hids hlen

/-! ## Loading -/

theorem trustLoad_ok {d : Directory} {identityFile : Bytes} {answers : LoadAnswers}
    {state : TrustState} (h : trustLoad x d identityFile answers = .ok state) :
    identityFile ≠ [] ∧ state.directory = trustDirectory identityFile ∧ RecordsGood x d
      ∧ LowerBound.Sorted TrustedPeer.id state.peers
      ∧ (∀ peer, peer ∈ state.peers ↔ peer ∈ records x d)
      ∧ state.peers.length ≤ maxTrustedPeers := by
  unfold trustLoad at h
  split at h
  · cases h
  · rename_i hfile
    split at h
    · cases h
    · split at h
      · cases h
      · rename_i loaded hloop
        split at h
        · cases h
        · cases h
          obtain ⟨hloaded, hgood, hlen⟩ := loadLoop_ok hloop
          rw [List.nil_append] at hloaded
          have hperm := List.perm_insertionSort
            (fun left right : TrustedPeer => left.id ≤ right.id) loaded
          refine ⟨hfile, rfl, ?_, ?_, ?_, ?_⟩
          · intro name contents hlookup
            exact hgood ⟨name, contents⟩ (AList.mem_lookup_iff.mp hlookup)
          · exact LowerBound.sorted_insertionSort (hloaded ▸ records_ids_nodup d)
          · intro peer
            rw [hperm.mem_iff, hloaded]
            rfl
          · rw [hperm.length_eq]
            exact hlen (by simp)

theorem trustLoad_of_records {d : Directory} {identityFile : Bytes} {state : TrustState}
    (hfile : identityFile ≠ []) (hdir : state.directory = trustDirectory identityFile)
    (hgood : RecordsGood x d) (hsorted : LowerBound.Sorted TrustedPeer.id state.peers)
    (hmem : ∀ peer, peer ∈ state.peers ↔ peer ∈ records x d)
    (hlen : state.peers.length ≤ maxTrustedPeers) :
    trustLoad x d identityFile .success = .ok state := by
  have hperm : state.peers.Perm (records x d) :=
    (List.perm_ext_iff_of_nodup hsorted.nodup (records_ids_nodup d).of_map).mpr hmem
  have hloop : d.entries.foldlM (trustLoadEntry x .success) [] = .ok (records x d) := by
    have hlen' : ([] ++ records x d).length ≤ maxTrustedPeers := hperm.length_eq ▸ hlen
    exact loadLoop_of_records
      (fun entry hentry => hgood entry.1 entry.2 (AList.mem_lookup_iff.mpr hentry))
      (records_ids_nodup d) hlen'
  have hsort : (records x d).insertionSort (fun left right => left.id ≤ right.id)
      = state.peers := by
    have hp := List.perm_insertionSort
      (fun left right : TrustedPeer => left.id ≤ right.id) (records x d)
    exact (LowerBound.sorted_insertionSort (records_ids_nodup d)).eq_of_perm hsorted
      (hp.trans hperm.symm)
  unfold trustLoad
  rw [if_neg hfile]
  simp only [LoadAnswers.success]
  rw [show d.entries.foldlM (trustLoadEntry x
    { ensureDirectory := none, read := fun _ => none, iterate := none }) [] = _ from hloop]
  simp only [hsort, ← hdir]

/-! ## Runs of `trust_add` -/

/-- One call of `trust_add`, with what the system answers to it. -/
structure TrustCall where
  peer : TrustedPeer
  answers : TrustAddAnswers

variable (x)

/-- Memory and disk after one call, whatever it returned. -/
def trustStep (s : TrustState × Directory) (call : TrustCall) : TrustState × Directory :=
  (trustAdd x s.1 s.2 call.peer call.answers).2

/-- The storage steps of the call work. -/
def WriteSucceeds (s : TrustState × Directory) (call : TrustCall) : Prop :=
  call.answers.ensureDirectory = none
    ∧ (privateWriteAtomically s.2 (peerPath call.peer.id) (encodePeer call.peer)
        call.answers.write).1 = .ok ()

instance (s : TrustState × Directory) (call : TrustCall) : Decidable (WriteSucceeds s call) :=
  inferInstanceAs (Decidable (_ ∧ _))

/-- What the table promises between two calls. The directory may be iterated
in any order when it is loaded again. -/
structure StoreSound (identityFile : Bytes) (s : TrustState × Directory) : Prop where
  sorted : LowerBound.Sorted TrustedPeer.id s.1.peers
  bounded : s.1.peers.length ≤ maxTrustedPeers
  bound : ∀ peer ∈ s.1.peers, x.sha256 peer.publicKey = peer.id
  reloads : ∀ d : Directory, d.entries.Perm s.2.entries →
    trustLoad x d identityFile .success = .ok s.1

/-- A full table refuses an identifier it does not hold. -/
def RefusedWhenFull (s : TrustState × Directory) (call : TrustCall) : Prop :=
  s.1.peers.length = maxTrustedPeers → trustContains s.1 call.peer.id = false →
    ∃ e, (trustAdd x s.1 s.2 call.peer call.answers).1 = .error e

/-- The table keeps its promise in every state of the run. -/
def StoreRunCorrect (identityFile : Bytes) (s : TrustState × Directory)
    (calls : List TrustCall) : Prop :=
  Run.Throughout (trustStep x) (StoreSound x identityFile) s calls
    ∧ Run.Along (trustStep x) (RefusedWhenFull x) s calls

/-- The call that slips past the capacity check: an acceptable peer the full
table does not hold, below one that it holds. -/
def Overflows (s : TrustState × Directory) (call : TrustCall) : Prop :=
  s.1.peers.length = maxTrustedPeers
    ∧ validEndpoint x call.peer.endpoint = true ∧ validIdentityBinding x call.peer = true
    ∧ trustContains s.1 call.peer.id = false
    ∧ ∃ existing ∈ s.1.peers, call.peer.id < existing.id

variable {x}

theorem recordsGood_congr {d d' : Directory} (h : ∀ name, d'.lookup name = d.lookup name)
    (hgood : RecordsGood x d) : RecordsGood x d' := by
  intro name contents hlookup
  rw [h] at hlookup
  exact hgood name contents hlookup

theorem mem_records_congr {d d' : Directory} (h : ∀ name, d'.lookup name = d.lookup name)
    (peer : TrustedPeer) : peer ∈ records x d' ↔ peer ∈ records x d := by
  simp only [mem_records, h]

/-- Loading succeeds again from any iteration order, so the promise is just
that the directory loads as the table in memory. -/
theorem storeSound_iff {identityFile : Bytes} {s : TrustState × Directory} :
    StoreSound x identityFile s ↔ trustLoad x s.2 identityFile .success = .ok s.1 := by
  refine ⟨fun h => h.reloads s.2 (List.Perm.refl _), fun h => ?_⟩
  obtain ⟨hfile, hdir, hgood, hsorted, hmem, hlen⟩ := trustLoad_ok h
  refine ⟨hsorted, hlen, ?_, ?_⟩
  · intro peer hpeer
    obtain ⟨contents, -, -, hdecode⟩ := mem_records.mp ((hmem peer).mp hpeer)
    have hbinding := (decodePeer_ok hdecode).2.1
    simp only [validIdentityBinding, decide_eq_true_eq] at hbinding
    exact hbinding.2
  · intro d hperm
    have hlookup : ∀ name, d.lookup name = s.2.lookup name := fun name =>
      AList.perm_lookup hperm
    refine trustLoad_of_records hfile hdir (recordsGood_congr hlookup hgood) hsorted ?_ hlen
    intro peer
    rw [hmem, mem_records_congr hlookup]

/-- Writing an acceptable peer's record and putting the peer in the table
keeps the two in step. -/
theorem records_written {d d' : Directory} {peers : List TrustedPeer} {peer : TrustedPeer}
    (he : validEndpoint x peer.endpoint = true) (hb : validIdentityBinding x peer = true)
    (hsorted : LowerBound.Sorted TrustedPeer.id peers)
    (hwrite : ∀ n, d'.lookup n = if n = peerPath peer.id then some (encodePeer peer)
      else d.lookup n)
    (hgood : RecordsGood x d) (hmem : ∀ p, p ∈ peers ↔ p ∈ records x d) :
    RecordsGood x d' ∧ ∀ p, p ∈ LowerBound.put TrustedPeer.id peer peers ↔ p ∈ records x d' := by
  have hsize := encodePeer_length (validEndpoint_iff.mp he).2.1
  have hround := decodePeer_encodePeer he hb
  constructor
  · intro name contents hlookup hfile
    rw [hwrite] at hlookup
    split at hlookup
    · rename_i hname
      cases hlookup
      exact Option.isSome_iff_exists.mpr ⟨peer, recordOf_eq_some.mpr ⟨hname, hsize, hround⟩⟩
    · exact hgood name contents hlookup hfile
  · intro p
    rw [LowerBound.mem_put hsorted, mem_records, hmem, mem_records, hwrite]
    by_cases hid : p.id = peer.id
    · rw [if_pos (congrArg peerPath hid)]
      constructor
      · intro h
        rcases h with rfl | ⟨-, hne⟩
        · exact ⟨_, rfl, hsize, hround⟩
        · exact absurd hid hne
      · intro h
        obtain ⟨contents, hcontents, -, hdecode⟩ := h
        cases hcontents
        rw [hround] at hdecode
        cases hdecode
        exact .inl rfl
    · have hpath : peerPath p.id ≠ peerPath peer.id := fun h => hid (peerPath_injective h)
      rw [if_neg hpath]
      constructor
      · intro h
        rcases h with rfl | ⟨hp, -⟩
        · exact absurd rfl hid
        · exact hp
      · intro h
        exact .inr ⟨h, hid⟩

/-- One call from a sound store: the promise survives, and a full table
refuses, exactly when the call does not overflow. -/
theorem trustStep_sound {identityFile : Bytes} {s : TrustState × Directory} {call : TrustCall}
    (hs : StoreSound x identityFile s) (hw : WriteSucceeds s call) :
    RefusedWhenFull x s call ∧ StoreSound x identityFile (trustStep x s call)
      ↔ ¬ Overflows x s call := by
  obtain ⟨hfile, hdir, hgood, hsorted, hmem, hlen⟩ := trustLoad_ok (storeSound_iff.mp hs)
  have habsent : trustContains s.1 call.peer.id = false ↔
      LowerBound.find? TrustedPeer.id call.peer.id s.1.peers = none := by
    simp [trustContains, trustFind]
  rcases trustAdd_cases x s.1 s.2 call.peer call.answers with
    ⟨e, herror, hstate, hcase⟩ | ⟨he, hb, hroom, hwrite, hadd⟩
  · -- refused: nothing moved, and none of the reasons is the overflow
    rcases hcase with ⟨hdisk, hreason⟩ | ⟨hfail, -⟩
    · have hstep : trustStep x s call = s := Prod.ext hstate hdisk
      rw [hstep]
      refine ⟨fun _ hover => ?_, fun _ => ⟨fun _ _ => ⟨e, herror⟩, hs⟩⟩
      obtain ⟨-, he, hb, -, existing, hexisting, hlt⟩ := hover
      rcases hreason with h | h | h | h | ⟨h, -⟩
      · simp [hdir, trustDirectory, ascii] at h
      · simp [h] at he
      · simp [h] at hb
      · simp [hw.1] at h
      · exact lt_asymm hlt (LowerBound.index_eq_length_iff.mp h existing hexisting)
    · rw [hw.2] at hfail
      cases hfail
  · -- stored: the table grew past its bound exactly when the call overflows
    have hstep : trustStep x s call = ({ s.1 with
        peers := LowerBound.put TrustedPeer.id call.peer s.1.peers },
        (privateWriteAtomically s.2 (peerPath call.peer.id) (encodePeer call.peer)
          call.answers.write).2) := by
      rw [trustStep, hadd]
    have hok : ¬ ∃ e, (trustAdd x s.1 s.2 call.peer call.answers).1 = .error e := by
      simp [hadd]
    obtain ⟨hgood', hmem'⟩ := records_written he hb hsorted
      (privateWriteAtomically_ok hw.2) hgood hmem
    constructor
    · intro h hover
      exact hok (h.1 hover.1 hover.2.2.2.1)
    · intro hno
      -- at a full table the identifier is already held
      have hheld : s.1.peers.length = maxTrustedPeers → trustContains s.1 call.peer.id = true := by
        intro hfull
        by_contra habs
        have hidx : ¬ ∀ existing ∈ s.1.peers, existing.id < call.peer.id := fun h =>
          hroom ⟨LowerBound.index_eq_length_iff.mpr h, hfull⟩
        push Not at hidx
        obtain ⟨existing, hexisting, hle⟩ := hidx
        have hne := (LowerBound.find?_eq_none hsorted).mp
          (habsent.mp (by simpa using habs)) existing hexisting
        exact hno ⟨hfull, he, hb, by simpa using habs, existing, hexisting,
          lt_of_le_of_ne hle (Ne.symm hne)⟩
      refine ⟨fun hfull habs => ?_, ?_⟩
      · rw [hheld hfull] at habs
        cases habs
      · rw [hstep, storeSound_iff]
        refine trustLoad_of_records hfile hdir hgood' (LowerBound.put_sorted hsorted _) hmem' ?_
        have hput := @LowerBound.length_put _ _ _ TrustedPeer.id call.peer s.1.peers
        by_cases hfull : s.1.peers.length = maxTrustedPeers
        · have hsome := hheld hfull
          simp only [trustContains, trustFind] at hsome
          rw [hsome, if_pos rfl] at hput
          exact hput ▸ hlen
        · have hup : (LowerBound.put TrustedPeer.id call.peer s.1.peers).length
              ≤ s.1.peers.length + 1 := by
            rw [hput]
            split <;> omega
          dsimp only
          omega

/-- From a loaded trust store, while storage works: the promise holds in
every state of a run exactly when no call of it overflows. -/
theorem trust_store_runs {d : Directory} {identityFile : Bytes} {answers : LoadAnswers}
    {state : TrustState} (hload : trustLoad x d identityFile answers = .ok state)
    {calls : List TrustCall} (hwrites : Run.Along (trustStep x) WriteSucceeds (state, d) calls) :
    StoreRunCorrect x identityFile (state, d) calls ↔
      Run.Along (trustStep x) (fun s call => ¬ Overflows x s call) (state, d) calls := by
  obtain ⟨hfile, hdir, hgood, hsorted, hmem, hlen⟩ := trustLoad_ok hload
  have hsound : StoreSound x identityFile (state, d) :=
    storeSound_iff.mpr (trustLoad_of_records hfile hdir hgood hsorted hmem hlen)
  have hrun : Run.Along (trustStep x) (fun s call => RefusedWhenFull x s call
      ∧ StoreSound x identityFile (trustStep x s call)) (state, d) calls
      ↔ Run.Along (trustStep x) (fun s call => ¬ Overflows x s call) (state, d) calls := by
    refine Run.along_iff (fun _ _ _ _ h => h.2) ?_ hsound hwrites
    exact fun s call hs hw => trustStep_sound hs hw
  rw [← hrun, Run.along_and]
  exact ⟨fun h => ⟨h.2, h.1.2⟩, fun h => ⟨⟨hsound, h.2⟩, h.1⟩⟩

instance (s : TrustState × Directory) (call : TrustCall) : Decidable (Overflows x s call) :=
  inferInstanceAs (Decidable (_ ∧ _))

/-- The peer whose key is zero but for its last byte, reachable on loopback. -/
def numberedPeer (n : UInt8) : TrustedPeer :=
  let key : PublicKey := ⟨List.replicate 31 0 ++ [n], rfl⟩
  { id := posix.sha256 key
    publicKey := key
    endpoint := ascii "127.0.0.1:9001" }

def numberedCall (n : UInt8) : TrustCall where
  peer := numberedPeer n
  answers := { ensureDirectory := none, write := .success (zero 16) }

def emptyTrust : TrustState where
  directory := trustDirectory (ascii "identity")
  peers := []

theorem trust_store_runs_two_peers :
    StoreRunCorrect posix (ascii "identity") (emptyTrust, ∅)
      [numberedCall 0, numberedCall 1] := by
  have hload : trustLoad posix ∅ (ascii "identity") .success = .ok emptyTrust := by
    decide
  exact (trust_store_runs hload (by decide +kernel)).mpr (by decide +kernel)

/-- Sixteen peers, the last not the largest: every call succeeds and the
table holds one peer more than it may. -/
theorem trust_store_overflows :
    trustLoad posix ∅ (ascii "identity") .success = .ok emptyTrust
      ∧ Run.Along (trustStep posix) WriteSucceeds (emptyTrust, ∅)
          ((List.range 16).map fun n => numberedCall n.toUInt8)
      ∧ ¬ StoreRunCorrect posix (ascii "identity") (emptyTrust, ∅)
          ((List.range 16).map fun n => numberedCall n.toUInt8) := by
  refine ⟨by decide +kernel, by decide +kernel, fun h => ?_⟩
  have hlen : (Run.final (trustStep posix) (emptyTrust, ∅)
      ((List.range 16).map fun n => numberedCall n.toUInt8)).1.peers.length = 16 := by
    decide +kernel
  have hbounded := h.1.final.bounded
  rw [hlen] at hbounded
  exact absurd hbounded (by decide)

end Madoka
