import Madoka.Crypto.Identity
import Madoka.Network.DataSerialization
import Madoka.Network.Freshness
import Madoka.Protocol.Codec

/-!
# Restart

The advertisements a node sends over any number of starts and crashes
(`start_runtime`, `run_join`, `routing_loop` of `core/daemon.cpp`, `app_init`
of `core/app.cpp`), and what a receiver makes of them in any order.
-/

namespace Madoka

open Octets

variable {Key : Type}

/-! ## The sender -/

/-- What the system answers to `start_runtime`: the steps before the
generation is advanced, that step, and the ones after it. -/
structure RuntimeAnswers where
  server : SystemResult
  bump : WriteAnswers
  interface : SystemResult

def startRuntime (keys : KeyStore Key) (d : Directory) (identity : Identity Key) (mtu : Nat)
    (answers : RuntimeAnswers) : Except String (Identity Key) × Directory :=
  if mtu > maxPayloadSize - dataPacketHeaderSize then
    (.error "MTU is too large for a framed Data message", d)
  else
    match answers.server with
    | some error => (.error error, d)
    | none =>
        match identityBumpGeneration keys d identity answers.bump with
        | (.error error, d) => (.error error, d)
        | (.ok identity, d) =>
            match answers.interface with
            | some error => (.error error, d)
            | none => (.ok identity, d)

theorem startRuntime_cases (keys : KeyStore Key) (d : Directory) (identity : Identity Key) (mtu : Nat)
    (answers : RuntimeAnswers) {f : Bytes}
    (hf : identity.storagePath = [] ∨ identity.storagePath = f) :
    ((∃ error, (startRuntime keys d identity mtu answers).1 = .error error)
        ∧ (startRuntime keys d identity mtu answers).2.lookup f = d.lookup f)
      ∨ identity.generation ≠ UInt64.ofNat (2 ^ 64 - 1)
        ∧ (identity.storagePath = [] ∧ (startRuntime keys d identity mtu answers).2 = d
          ∨ identity.storagePath ≠ [] ∧ ∃ pem,
              (startRuntime keys d identity mtu answers).2.lookup f
                = some (identityText identity.id (identity.generation + 1) pem))
        ∧ ∀ started, (startRuntime keys d identity mtu answers).1 = .ok started →
            started = { identity with generation := identity.generation + 1 } := by
  unfold startRuntime
  split_ifs with hmtu
  · exact .inl ⟨⟨_, rfl⟩, rfl⟩
  cases answers.server with
  | some error => exact .inl ⟨⟨_, rfl⟩, rfl⟩
  | none =>
      dsimp only
      have hbump := identityBumpGeneration_cases keys d identity answers.bump hf
      generalize identityBumpGeneration keys d identity answers.bump = bumped at hbump ⊢
      obtain ⟨result, d'⟩ := bumped
      cases result with
      | error error =>
          refine hbump.imp (fun h => ⟨⟨_, rfl⟩, h.2⟩) fun h => ⟨h.1, h.2.1, fun started hs => ?_⟩
          cases hs
      | ok bumped =>
          rcases hbump with ⟨⟨error, herror⟩, -⟩ | ⟨hlast, hfile, hok⟩
          · cases herror
          · refine .inr ?_
            cases answers.interface with
            | some error =>
                refine ⟨hlast, hfile, fun started hs => ?_⟩
                cases hs
            | none => exact ⟨hlast, hfile, hok⟩

/-- A running program. It advertises once `start_runtime` has succeeded and
its identity is on disk. -/
structure Process (Key : Type) where
  identity : Identity Key
  started : Bool
  nextRouteSequence : UInt64

/-- An advertisement and the neighbour it went to. -/
structure SentAdvertisement where
  neighbor : NodeId
  advertisement : RouteAdvertisement

/-- The state directory, the identity file as the last write that reported
success has left it, the program if it runs, and what has been sent so far. -/
structure SenderState (Key : Type) where
  disk : Directory
  durable : Option Bytes
  process : Option (Process Key)
  sent : List SentAdvertisement

inductive SenderAction (Key : Type) where
  /-- `app_init` with `identity_load`. -/
  | load (answers : IdentityAnswers Key)
  /-- `app_init` of a join, with `identity_generate`. -/
  | generate (keygen : Option Key)
  | start (mtu : Nat) (answers : RuntimeAnswers)
  /-- `run_join` stores an identity that has no file. -/
  | save (answers : SaveAnswers)
  /-- One advertisement of `routing_loop`. -/
  | advertise (neighbor : NodeId) (table : RouteTable) (sends : Bool)
  /-- The program ends; a loss of power also undoes the writes that did not
  report success. -/
  | crash (powerLoss : Bool)

/-- `app_init` starts the sequence numbers at one. -/
def Process.launched (identity : Identity Key) : Process Key where
  identity := identity
  started := false
  nextRouteSequence := 1

def Process.advertises (process : Process Key) : Bool :=
  process.started ∧ process.identity.storagePath ≠ []

def Process.advertisement (process : Process Key) (neighbor : NodeId) (table : RouteTable) :
    RouteAdvertisement :=
  routeCreateAdvertisement process.identity.id table process.nextRouteSequence (some neighbor)
    .poisonReverse process.identity.generation

def setFile (d : Directory) (f : Bytes) : Option Bytes → Directory
  | none => d.erase f
  | some contents => d.insert f contents

section
variable (x : External) (keys : KeyStore Key) (f : Bytes)

def senderStep (s : SenderState Key) : SenderAction Key → SenderState Key
  | .load answers =>
      if s.process.isSome then s
      else
        match identityLoad x keys s.disk f answers with
        | (.error _, d) => { s with disk := d }
        | (.ok identity, d) =>
            { s with
              disk := d
              durable := if s.disk.lookup f = none then d.lookup f else s.durable
              process := some (.launched identity) }
  | .generate keygen =>
      if s.process.isSome then s
      else
        match identityGenerate x keys keygen with
        | .error _ => s
        | .ok identity => { s with process := some (.launched identity) }
  | .start mtu answers =>
      match s.process with
      | none => s
      | some process =>
          if process.started then s
          else
            match startRuntime keys s.disk process.identity mtu answers with
            | (.error _, d) => { s with disk := d, process := none }
            | (.ok identity, d) =>
                { s with
                  disk := d
                  durable := if identity.storagePath = [] then s.durable else d.lookup f
                  process := some { process with identity, started := true } }
  | .save answers =>
      match s.process with
      | none => s
      | some process =>
          if !process.started ∨ process.identity.storagePath ≠ [] then s
          else
            match identitySave keys s.disk process.identity f answers with
            | (.error _, d) => { s with disk := d, process := none }
            | (.ok identity, d) =>
                { s with
                  disk := d
                  durable := d.lookup f
                  process := some { process with identity } }
  | .advertise neighbor table sends =>
      match s.process with
      | none => s
      | some process =>
          if !process.advertises then s
          else
            { s with
              process := some
                { process with nextRouteSequence := process.nextRouteSequence + 1 }
              sent :=
                if sends then
                  s.sent ++ [{ neighbor, advertisement := process.advertisement neighbor table }]
                else s.sent }
  | .crash powerLoss =>
      { s with
        disk := if powerLoss then setFile s.disk f s.durable else s.disk
        process := none }

/-- A node that has not run yet. -/
def senderStart (d : Directory) : SenderState Key where
  disk := d
  durable := d.lookup f
  process := none
  sent := []

/-- A key that OpenSSL generates is new: nothing was sent under its
identifier. -/
def NewKeys (s : SenderState Key) (action : SenderAction Key) : Prop :=
  ∀ key, (action = .generate (some key)
      ∨ ∃ answers, action = .load answers ∧ answers.keygen = some key) →
    ∀ e ∈ s.sent, e.advertisement.sender ≠ identityDeriveId x keys key

/-- The counter of sequence numbers, which starts at one, has not come round
to zero: this start has sent less than `2 ^ 64` advertisements. -/
def CounterLeft (s : SenderState Key) : SenderAction Key → Prop
  | .advertise _ _ _ => (s.process.all fun process => process.nextRouteSequence ≠ 0) = true
  | _ => True

instance decidableCounterLeft (s : SenderState Key) : ∀ action, Decidable (CounterLeft s action)
  | .advertise _ _ _ => inferInstanceAs (Decidable (_ = true))
  | .load _ | .generate _ | .start _ _ | .save _ | .crash _ => isTrue trivial

/-- What went to one neighbour under one identifier, in the order of sending. -/
def SenderState.sentTo (s : SenderState Key) (id neighbor : NodeId) : List RouteAdvertisement :=
  (s.sent.filter fun e => e.neighbor = neighbor ∧ e.advertisement.sender = id).map
    SentAdvertisement.advertisement

/-! ## What is on disk is not behind what was sent -/

/-- An identity file of this node has at least this generation. -/
def AtLeast (contents : Option Bytes) (id : NodeId) (generation : UInt64) : Prop :=
  ∀ text key g, contents = some text → decodeIdentity x keys text = .ok (key, id, g) →
    generation ≤ g

theorem atLeast_text {id id' : NodeId} {generation generation' : UInt64} {pem : Bytes}
    (h : id' = id → generation' ≤ generation) :
    AtLeast x keys (some (identityText id generation pem)) id' generation' := by
  intro text key g htext hdecode
  cases htext
  obtain ⟨hid, rfl⟩ := decodeIdentity_text_ok x keys hdecode
  exact h hid

/-- What was sent is not above the running program's generation, nor, in the
program's own generation, above its counter. -/
structure ProcessSound (s : SenderState Key) (process : Process Key) : Prop where
  path : process.identity.storagePath = [] ∨ process.identity.storagePath = f
  generation : ∀ e ∈ s.sent, e.advertisement.sender = process.identity.id →
    e.advertisement.generation ≤ process.identity.generation
  sequence : ∀ e ∈ s.sent, e.advertisement.sender = process.identity.id → process.started = true →
    e.advertisement.generation = process.identity.generation → process.nextRouteSequence ≠ 0 →
      e.advertisement.sequenceNumber < process.nextRouteSequence
  stored : process.started = true → process.identity.storagePath ≠ [] →
    AtLeast x keys (s.disk.lookup f) process.identity.id process.identity.generation
      ∧ AtLeast x keys s.durable process.identity.id process.identity.generation

structure SenderSound (s : SenderState Key) : Prop where
  file : ∀ e ∈ s.sent,
    AtLeast x keys (s.disk.lookup f) e.advertisement.sender e.advertisement.generation
      ∧ AtLeast x keys s.durable e.advertisement.sender e.advertisement.generation
  process : ∀ process, s.process = some process → ProcessSound x keys f s process
  ordered : s.sent.Pairwise fun older newer =>
    older.advertisement.sender = newer.advertisement.sender →
      older.advertisement.Before newer.advertisement

theorem lt_succ_of_ne_zero {n : UInt64} (h : n + 1 ≠ 0) : n < n + 1 := by
  have hlt := n.toNat_lt
  have hsucc : (n + 1).toNat = (n.toNat + 1) % 2 ^ 64 := UInt64.toNat_add n 1
  have hne : (n + 1).toNat ≠ 0 := by
    intro hzero
    exact h (UInt64.toNat_inj.mp hzero)
  rw [UInt64.lt_iff_toNat_lt]
  omega

theorem lt_next_generation {generation : UInt64} (h : generation ≠ UInt64.ofNat (2 ^ 64 - 1)) :
    generation < generation + 1 := by
  apply lt_succ_of_ne_zero
  intro hzero
  apply h
  have hlast : generation = 0 - 1 := by rw [← hzero, UInt64.add_sub_cancel]
  rw [hlast]
  rfl

variable {x keys f}

/-- A state whose program has ended, with the files no further behind. -/
theorem SenderSound.stopped {s : SenderState Key} (hs : SenderSound x keys f s) {d : Directory}
    (hfile : ∀ e ∈ s.sent,
      AtLeast x keys (d.lookup f) e.advertisement.sender e.advertisement.generation) :
    SenderSound x keys f { s with disk := d, process := none } where
  file := fun e he => ⟨hfile e he, (hs.file e he).2⟩
  process := by
    intro process hprocess
    cases hprocess
  ordered := hs.ordered

theorem SenderSound.load {s : SenderState Key} (hs : SenderSound x keys f s)
    {answers : IdentityAnswers Key} (hnew : NewKeys x keys s (.load answers)) :
    SenderSound x keys f (senderStep x keys f s (.load answers)) := by
  unfold senderStep
  cases hidle : s.process with
  | some process => exact hs
  | none =>
      have hcases := identityLoad_cases x keys s.disk f answers
      simp only [Option.isSome_none, Bool.false_eq_true, if_false]
      generalize identityLoad x keys s.disk f answers = loaded at hcases ⊢
      obtain ⟨result, d⟩ := loaded
      dsimp only at hcases
      rcases hcases with ⟨hsame, hresult⟩ | ⟨hnone, key, pem, hkey, hwritten, hidentity⟩
      · have hfile : ∀ e ∈ s.sent,
            AtLeast x keys (d.lookup f) e.advertisement.sender e.advertisement.generation := by
          intro e he
          rw [hsame]
          exact (hs.file e he).1
        rcases hresult with ⟨error, rfl⟩ | ⟨identity, text, rfl, hpath, htext, hdecode⟩
        · exact hs.stopped hfile
        · dsimp only
          rw [if_neg (by simp [htext])]
          refine ⟨fun e he => ⟨hfile e he, (hs.file e he).2⟩, ?_, hs.ordered⟩
          intro process hprocess
          cases hprocess
          refine ⟨.inr hpath, ?_, ?_, ?_⟩
          · -- the stored generation is not below what was sent
            intro e he hsender
            have hstored := (hs.file e he).1
            rw [hsender] at hstored
            exact hstored text _ _ htext hdecode
          · intro e he hsender hstarted
            cases hstarted
          · intro hstarted
            cases hstarted
      · have hother := hnew key (.inr ⟨answers, rfl, hkey⟩)
        have hfile : ∀ e ∈ s.sent,
            AtLeast x keys (d.lookup f) e.advertisement.sender e.advertisement.generation := by
          intro e he
          rw [hwritten]
          exact atLeast_text x keys fun hsender => absurd hsender (hother e he)
        cases result with
        | error error => exact hs.stopped hfile
        | ok identity =>
            obtain ⟨hpath, hid, -⟩ := hidentity identity rfl
            dsimp only
            rw [if_pos hnone]
            refine ⟨fun e he => ⟨hfile e he, hfile e he⟩, ?_, hs.ordered⟩
            intro process hprocess
            cases hprocess
            refine ⟨.inr hpath, ?_, ?_, ?_⟩
            · intro e he hsender
              exact absurd (hsender.trans hid) (hother e he)
            · intro e he hsender hstarted
              cases hstarted
            · intro hstarted
              cases hstarted

theorem SenderSound.generate {s : SenderState Key} (hs : SenderSound x keys f s)
    {keygen : Option Key} (hnew : NewKeys x keys s (.generate keygen)) :
    SenderSound x keys f (senderStep x keys f s (.generate keygen)) := by
  unfold senderStep
  cases hidle : s.process with
  | some process => exact hs
  | none =>
      simp only [Option.isSome_none, Bool.false_eq_true, if_false]
      cases keygen with
      | none => exact hs
      | some key =>
          have hother := hnew key (.inl rfl)
          refine ⟨hs.file, ?_, hs.ordered⟩
          intro process hprocess
          cases hprocess
          refine ⟨.inl rfl, ?_, ?_, ?_⟩
          · intro e he hsender
            exact absurd hsender (hother e he)
          · intro e he hsender hstarted
            cases hstarted
          · intro hstarted
            cases hstarted

theorem SenderSound.start {s : SenderState Key} (hs : SenderSound x keys f s) (mtu : Nat)
    (answers : RuntimeAnswers) :
    SenderSound x keys f (senderStep x keys f s (.start mtu answers)) := by
  unfold senderStep
  cases hrunning : s.process with
  | none => exact hs
  | some process =>
      have hprocess := hs.process process hrunning
      dsimp only
      split_ifs with hstarted
      · exact hs
      have hcases := startRuntime_cases keys s.disk process.identity mtu answers hprocess.path
      generalize startRuntime keys s.disk process.identity mtu answers = started at hcases ⊢
      obtain ⟨result, d⟩ := started
      dsimp only at hcases
      rcases hcases with ⟨⟨error, rfl⟩, hsame⟩ | ⟨hlast, hwritten, hok⟩
      · apply hs.stopped
        intro e he
        rw [hsame]
        exact (hs.file e he).1
      · have hnext := lt_next_generation hlast
        -- the file is as before, or holds the next generation
        have hfile : ∀ e ∈ s.sent,
            AtLeast x keys (d.lookup f) e.advertisement.sender e.advertisement.generation := by
          intro e he
          rcases hwritten with ⟨-, rfl⟩ | ⟨-, pem, hpem⟩
          · exact (hs.file e he).1
          · rw [hpem]
            apply atLeast_text
            intro hsender
            exact UInt64.le_of_lt (UInt64.lt_of_le_of_lt (hprocess.generation e he hsender) hnext)
        cases result with
        | error error => exact hs.stopped hfile
        | ok identity =>
            obtain rfl := hok identity rfl
            dsimp only
            refine ⟨?_, ?_, hs.ordered⟩
            · intro e he
              refine ⟨hfile e he, ?_⟩
              split_ifs
              · exact (hs.file e he).2
              · exact hfile e he
            · intro process' hprocess'
              cases hprocess'
              refine ⟨hprocess.path, ?_, ?_, ?_⟩
              · intro e he hsender
                exact UInt64.le_of_lt (UInt64.lt_of_le_of_lt (hprocess.generation e he hsender) hnext)
              · -- nothing was sent in the new generation yet
                intro e he hsender _ hsame _
                have hle := hprocess.generation e he hsender
                rw [hsame] at hle
                exact absurd hnext (UInt64.not_lt.mpr hle)
              · intro _ hpath
                rcases hwritten with ⟨hempty, -⟩ | ⟨-, pem, hpem⟩
                · exact absurd hempty hpath
                · rw [if_neg hpath, hpem]
                  have hle : AtLeast x keys (some (identityText process.identity.id
                      (process.identity.generation + 1) pem)) process.identity.id
                      (process.identity.generation + 1) :=
                    atLeast_text x keys fun _ => UInt64.le_refl _
                  exact ⟨hle, hle⟩

theorem SenderSound.save {s : SenderState Key} (hs : SenderSound x keys f s)
    (answers : SaveAnswers) : SenderSound x keys f (senderStep x keys f s (.save answers)) := by
  unfold senderStep
  cases hrunning : s.process with
  | none => exact hs
  | some process =>
      have hprocess := hs.process process hrunning
      dsimp only
      split_ifs with hskip
      · exact hs
      have hcases := identitySave_cases keys s.disk process.identity f answers
      generalize identitySave keys s.disk process.identity f answers = saved at hcases ⊢
      obtain ⟨result, d⟩ := saved
      dsimp only at hcases
      rcases hcases with ⟨⟨error, rfl⟩, hsame⟩ | ⟨⟨pem, hpem⟩, hok⟩
      · apply hs.stopped
        intro e he
        rw [hsame]
        exact (hs.file e he).1
      · have hfile : ∀ e ∈ s.sent,
            AtLeast x keys (d.lookup f) e.advertisement.sender e.advertisement.generation := by
          intro e he
          rw [hpem]
          exact atLeast_text x keys (hprocess.generation e he)
        cases result with
        | error error => exact hs.stopped hfile
        | ok identity =>
            obtain rfl := hok identity rfl
            refine ⟨fun e he => ⟨hfile e he, hfile e he⟩, ?_, hs.ordered⟩
            intro process' hprocess'
            cases hprocess'
            refine ⟨.inr rfl, hprocess.generation, hprocess.sequence, ?_⟩
            intro _ _
            dsimp only
            rw [hpem]
            have hle : AtLeast x keys (some (identityText process.identity.id
                process.identity.generation pem)) process.identity.id process.identity.generation :=
              atLeast_text x keys fun _ => UInt64.le_refl _
            exact ⟨hle, hle⟩

theorem SenderSound.crash {s : SenderState Key} (hs : SenderSound x keys f s) (powerLoss : Bool) :
    SenderSound x keys f (senderStep x keys f s (.crash powerLoss)) := by
  apply hs.stopped
  intro e he
  cases powerLoss with
  | false => exact (hs.file e he).1
  | true =>
      have hlookup : (setFile s.disk f s.durable).lookup f = s.durable := by
        cases s.durable with
        | none => exact AList.lookup_erase _ _
        | some contents => exact AList.lookup_insert _
      show AtLeast x keys ((setFile s.disk f s.durable).lookup f) _ _
      rw [hlookup]
      exact (hs.file e he).2

theorem SenderSound.advertise {s : SenderState Key} (hs : SenderSound x keys f s) {neighbor : NodeId}
    {table : RouteTable} {sends : Bool} (hleft : CounterLeft s (.advertise neighbor table sends)) :
    SenderSound x keys f (senderStep x keys f s (.advertise neighbor table sends)) := by
  unfold senderStep
  cases hrunning : s.process with
  | none => exact hs
  | some process =>
      have hprocess := hs.process process hrunning
      have hcounter : process.nextRouteSequence ≠ 0 := by
        simpa [CounterLeft, hrunning] using hleft
      dsimp only
      split_ifs with hquiet hsends
      · exact hs
      · have hadvertises : process.started = true ∧ process.identity.storagePath ≠ [] := by
          simpa [Process.advertises] using hquiet
        obtain ⟨hstarted, hpath⟩ := hadvertises
        refine ⟨?_, ?_, ?_⟩
        · intro e he
          rcases List.mem_append.mp he with he | he
          · exact hs.file e he
          · rw [List.mem_singleton.mp he]
            exact hprocess.stored hstarted hpath
        · intro process' hprocess'
          cases hprocess'
          refine ⟨hprocess.path, ?_, ?_, hprocess.stored⟩
          · intro e he hsender
            rcases List.mem_append.mp he with he | he
            · exact hprocess.generation e he hsender
            · rw [List.mem_singleton.mp he]
              exact UInt64.le_refl _
          · intro e he hsender _ hsame hnext
            have hgrows := lt_succ_of_ne_zero hnext
            rcases List.mem_append.mp he with he | he
            · exact UInt64.lt_trans (hprocess.sequence e he hsender hstarted hsame hcounter) hgrows
            · rw [List.mem_singleton.mp he]
              exact hgrows
        · refine List.pairwise_append.mpr ⟨hs.ordered, List.pairwise_singleton _ _, ?_⟩
          intro older holder newer hnewer hsender
          rw [List.mem_singleton.mp hnewer] at hsender ⊢
          -- an older one is of an earlier generation, or has a smaller number
          rcases UInt64.lt_or_eq_of_le (hprocess.generation older holder hsender) with hlt | heq
          · exact .inl hlt
          · exact .inr ⟨heq, hprocess.sequence older holder hsender hstarted heq hcounter⟩
      · refine ⟨hs.file, ?_, hs.ordered⟩
        intro process' hprocess'
        cases hprocess'
        refine ⟨hprocess.path, hprocess.generation, ?_, hprocess.stored⟩
        intro e he hsender hstarted hsame hnext
        exact UInt64.lt_trans (hprocess.sequence e he hsender hstarted hsame hcounter)
          (lt_succ_of_ne_zero hnext)

theorem senderStep_sound (s : SenderState Key) (action : SenderAction Key)
    (hs : SenderSound x keys f s) (h : NewKeys x keys s action ∧ CounterLeft s action) :
    SenderSound x keys f (senderStep x keys f s action) := by
  cases action with
  | load answers => exact hs.load h.1
  | generate keygen => exact hs.generate h.1
  | start mtu answers => exact hs.start mtu answers
  | save answers => exact hs.save answers
  | advertise neighbor table sends => exact hs.advertise h.2
  | crash powerLoss => exact hs.crash powerLoss

theorem senderStart_sound (d : Directory) : SenderSound x keys f (senderStart f d) where
  file := fun e he => absurd he List.not_mem_nil
  process := by
    intro process hprocess
    cases hprocess
  ordered := .nil

end

/-! ## Sender and receiver -/

section
variable (x : External) (keys : KeyStore Key) (f : Bytes)

theorem SenderSound.sentTo_ordered {x : External} {keys : KeyStore Key} {f : Bytes}
    {s : SenderState Key} (hs : SenderSound x keys f s) (id neighbor : NodeId) :
    (s.sentTo id neighbor).Pairwise RouteAdvertisement.Before := by
  unfold SenderState.sentTo
  rw [List.pairwise_map]
  refine (hs.ordered.filter _).imp_of_mem ?_
  intro older newer holder hnewer hbefore
  have hold : older.advertisement.sender = id := (of_decide_eq_true (List.mem_filter.mp holder).2).2
  have hnew : newer.advertisement.sender = id := (of_decide_eq_true (List.mem_filter.mp hnewer).2).2
  exact hbefore (hold.trans hnew.symm)

/-- However often a node is started, crashes and is started again, what it
sends to a neighbour under its identifier goes up in generation and sequence
number, as long as no start sends `2 ^ 64` advertisements. A receiver, in
whatever order it sees them, accepts exactly those above all it has accepted
from that sender and is left as it was by the others; so an advertisement is
accepted whenever only earlier ones have come before it, the first one after a
restart included. -/
theorem advertisements_stay_fresh (d : Directory) (actions : List (SenderAction Key))
    (hkeys : Run.Along (senderStep x keys f) (NewKeys x keys) (senderStart f d) actions)
    (hcounter : Run.Along (senderStep x keys f) CounterLeft (senderStart f d) actions)
    (id neighbor : NodeId) :
    ((Run.final (senderStep x keys f) (senderStart f d) actions).sentTo id neighbor).Pairwise
        RouteAdvertisement.Before
      ∧ (∀ table deliveries delivery,
          (((Receiver.afterAll table deliveries).update delivery).accepted = true
            ↔ ∀ a ∈ (Receiver.afterAll table deliveries).accepted,
                a.sender = delivery.advertisement.sender → a.Before delivery.advertisement)
          ∧ (((Receiver.afterAll table deliveries).update delivery).accepted = false →
              (Receiver.afterAll table deliveries).Unchanged
                ((Receiver.afterAll table deliveries).update delivery)))
      ∧ ∀ before a after,
          (Run.final (senderStep x keys f) (senderStart f d) actions).sentTo id neighbor
            = before ++ a :: after →
          ∀ table deliveries, (∀ earlier ∈ deliveries, earlier.advertisement.sender = id →
              earlier.advertisement ∈ before) →
          ∀ delivery : Delivery, delivery.advertisement = a →
            ((Receiver.afterAll table deliveries).update delivery).accepted = true := by
  have hrun := Run.throughout_of_along senderStep_sound (senderStart_sound d)
    (Run.along_and.mpr ⟨hkeys, hcounter⟩)
  have hordered := hrun.final.sentTo_ordered id neighbor
  refine ⟨hordered, ?_, ?_⟩
  · intro table deliveries delivery
    exact ⟨(Receiver.remembers_afterAll table deliveries).accepts_iff delivery,
      Receiver.update_refused⟩
  · intro before a after hsplit table deliveries hearlier delivery hdelivery
    have hsender : a.sender = id := by
      have hmem : a ∈ (Run.final (senderStep x keys f) (senderStart f d) actions).sentTo id neighbor := by
        rw [hsplit]
        exact List.mem_append_right _ List.mem_cons_self
      obtain ⟨e, he, rfl⟩ := List.mem_map.mp hmem
      exact (of_decide_eq_true (List.mem_filter.mp he).2).2
    rw [hsplit] at hordered
    have hbelow := (List.pairwise_append.mp hordered).2.2
    apply ((Receiver.remembers_afterAll table deliveries).accepts_iff delivery).mpr
    intro accepted haccepted hsame
    obtain ⟨earlier, hmem, rfl⟩ := Receiver.mem_accepted haccepted
    rw [hdelivery] at hsame ⊢
    exact hbelow _ (hearlier earlier hmem (hsame.trans hsender)) a List.mem_cons_self

end

/-! ## Two starts, and one that never ends -/

/-- One key, with its text between the two lines that OpenSSL writes. -/
def onlyKey : KeyStore Unit where
  publicKey := fun _ => front 32 [1]
  pemWrite := fun _ => some (pemBegin ++ pemEnd)
  pemRead := fun pem => if pem = pemBegin ++ pemEnd then some () else none

def onlyId : NodeId := front 32 [9]

def restartExternal : External where
  sha256 := fun _ => onlyId
  inetPton4 := fun _ => true
  inetPton6 := fun _ => none

def restartFile : Bytes := ascii "identity.pem"

def restartNeighbor : NodeId := front 32 [5]

def loadAnswers (keygen : Option Unit) : IdentityAnswers Unit where
  lock := .success (front 16 [])
  inspect := none
  read := none
  keygen := keygen
  write := .success (front 16 [1])

def runtimeAnswers : RuntimeAnswers where
  server := none
  bump := .success (front 16 [2])
  interface := none

def firstStart : List (SenderAction Unit) :=
  [.load (loadAnswers (some ())), .start 1280 runtimeAnswers]

/-- A start with one advertisement, a loss of power, and the same again. -/
def twoStarts : List (SenderAction Unit) :=
  firstStart ++ [.advertise restartNeighbor [] true, .crash true, .load (loadAnswers none),
    .start 1280 runtimeAnswers, .advertise restartNeighbor [] true]

theorem advertisements_stay_fresh_two_starts :
    let sent := (Run.final (senderStep restartExternal onlyKey restartFile)
      (senderStart restartFile ∅) twoStarts).sentTo onlyId restartNeighbor
    sent.map (fun a => (a.generation, a.sequenceNumber)) = [(2, 1), (3, 1)]
      ∧ sent.Pairwise RouteAdvertisement.Before := by
  have hkeys : Run.Along (senderStep restartExternal onlyKey restartFile)
      (NewKeys restartExternal onlyKey) (senderStart restartFile ∅) twoStarts := by
    refine ⟨?_, ?_, ?_, ?_, ?_, ?_, ?_, trivial⟩
    · intro key _ e he
      exact absurd he List.not_mem_nil
    all_goals
      rintro key (h | ⟨answers, h, hkeygen⟩)
      all_goals cases h
    cases hkeygen
  refine ⟨by decide +kernel, ?_⟩
  exact (advertisements_stay_fresh restartExternal onlyKey restartFile ∅ twoStarts hkeys
    (by decide +kernel) onlyId restartNeighbor).1

def Process.counted (process : Process Key) (n : Nat) : Process Key :=
  { process with nextRouteSequence := process.nextRouteSequence + UInt64.ofNat n }

/-- What `n` advertisements in a row leave. -/
theorem final_replicate_advertise {x : External} {keys : KeyStore Key} {f : Bytes}
    {s : SenderState Key} {process : Process Key} (hrunning : s.process = some process)
    (hadvertises : process.advertises = true) (neighbor : NodeId) (table : RouteTable) (n : Nat) :
    Run.final (senderStep x keys f) s (List.replicate n (.advertise neighbor table true))
      = { s with
          process := some (process.counted n)
          sent := s.sent ++ (List.range n).map fun i =>
            { neighbor, advertisement := (process.counted i).advertisement neighbor table } } := by
  induction n with
  | zero =>
      simp only [List.replicate_zero, List.range_zero, List.map_nil, List.append_nil]
      have hsame : process.counted 0 = process := by
        show { process with nextRouteSequence := process.nextRouteSequence + 0 } = process
        rw [UInt64.add_zero]
      rw [hsame, ← hrunning]
      rfl
  | succ n ih =>
      have hnext : (process.counted n).nextRouteSequence + 1
          = (process.counted (n + 1)).nextRouteSequence := by
        show process.nextRouteSequence + UInt64.ofNat n + 1
          = process.nextRouteSequence + UInt64.ofNat (n + 1)
        rw [UInt64.add_assoc, UInt64.ofNat_add]
        rfl
      have hkept : ¬ (!(process.counted n).advertises) = true := by
        show ¬ (!process.advertises) = true
        rw [hadvertises]
        decide
      rw [List.replicate_succ', Run.final_append, ih, List.range_succ, List.map_append,
        ← List.append_assoc, Run.final_singleton]
      unfold senderStep
      dsimp only
      rw [if_neg hkept, if_pos rfl, hnext]
      rfl

/-- Once the counter has come round, the newest advertisement is numbered
below the first. -/
theorem not_ordered_of_wrap {x : External} {keys : KeyStore Key} {f : Bytes}
    {s : SenderState Key} {process : Process Key} (hrunning : s.process = some process)
    (hadvertises : process.advertises = true) (hsent : s.sent = []) (neighbor : NodeId) {n : Nat}
    (hpositive : 0 < n) (hwrap : process.nextRouteSequence + UInt64.ofNat n = 0) :
    ¬ ((Run.final (senderStep x keys f) s (List.replicate (n + 1) (.advertise neighbor [] true))).sentTo
      process.identity.id neighbor).Pairwise RouteAdvertisement.Before := by
  intro hordered
  rw [final_replicate_advertise hrunning hadvertises, SenderState.sentTo, List.pairwise_map,
    hsent, List.nil_append, List.filter_eq_self.mpr, List.pairwise_map, List.range_succ,
    List.pairwise_append] at hordered
  · rcases hordered.2.2 0 (List.mem_range.mpr hpositive) n List.mem_cons_self with hlt | ⟨-, hlt⟩
    · exact UInt64.lt_irrefl _ hlt
    · have hzero : ∀ m : UInt64, ¬ m < 0 := fun m => UInt64.not_lt.mpr UInt64.zero_le
      apply hzero (process.nextRouteSequence + UInt64.ofNat 0)
      rw [← hwrap]
      exact hlt
  · intro e he
    obtain ⟨i, -, rfl⟩ := List.mem_map.mp he
    exact decide_eq_true ⟨rfl, rfl⟩

/-- A start that sends `2 ^ 64` advertisements. -/
theorem advertisements_wrap :
    ∃ actions, Run.Along (senderStep restartExternal onlyKey restartFile)
        (NewKeys restartExternal onlyKey) (senderStart restartFile ∅) actions
      ∧ ¬ ((Run.final (senderStep restartExternal onlyKey restartFile)
          (senderStart restartFile ∅) actions).sentTo onlyId restartNeighbor).Pairwise
          RouteAdvertisement.Before := by
  have hstate : ((Run.final (senderStep restartExternal onlyKey restartFile)
      (senderStart restartFile ∅) firstStart).process.any fun process =>
        process.advertises ∧ process.nextRouteSequence = 1 ∧ process.identity.id = onlyId) = true := by
    decide
  obtain ⟨process, hrunning, hprocess⟩ := (Option.any_eq_true _ _).mp hstate
  obtain ⟨hadvertises, hnext, hid⟩ := of_decide_eq_true hprocess
  refine ⟨firstStart ++ List.replicate ((2 ^ 64 - 1) + 1) (.advertise restartNeighbor [] true),
    ?_, ?_⟩
  · refine Run.along_append.mpr ⟨⟨?_, ?_, trivial⟩, Run.along_of_forall ?_ _⟩
    · intro key _ e he
      exact absurd he List.not_mem_nil
    · rintro key (h | ⟨answers, h, -⟩)
      all_goals cases h
    · intro action haction s key hkey
      rw [List.eq_of_mem_replicate haction] at hkey
      rcases hkey with h | ⟨answers, h, -⟩
      all_goals cases h
  · rw [Run.final_append, ← hid]
    apply not_ordered_of_wrap hrunning hadvertises rfl restartNeighbor (by decide)
    rw [hnext]
    decide

end Madoka
