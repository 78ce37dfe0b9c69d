import Madoka.Core.Config

/-!
# Private Storage

The owner-only state directory (`platform/private_storage.cpp`,
`platform/durability.cpp`, `platform/file_lock.cpp`). A `Directory` is the
visible content of one directory; what the operating system answers at each
step of an operation is an argument, so a result can quantify over every
point of failure.
-/

namespace Madoka

open Octets

/-- The regular files of one directory by name, in the order an iteration
would meet them. -/
abbrev Directory := AList fun _ : Bytes => Bytes

/-- A system call that may fail, with the error text it then produces. -/
abbrev SystemResult := Option String

/-- Reading a whole file of at most `maximumSize` bytes. `answer` is the
outcome of protecting and opening it. -/
def privateReadFile (d : Directory) (name : Bytes) (maximumSize : Nat)
    (answer : SystemResult) : Except String Bytes :=
  match answer, d.lookup name with
  | some error, _ => .error error
  | none, none => .error "Invalid private file: "
  | none, some contents =>
      if contents.length > maximumSize then
        .error "Private file exceeds its size limit"
      else .ok contents

/-- One of the sixteen attempts to reserve a temporary file. -/
inductive TemporaryAnswer where
  | noRandom (error : String)
  | refused (error : String)
  | inspectFailed
  | missing
  | exists
  /-- The new file could not be closed. -/
  | unclosed (random : ByteArr 16) (error : String)
  | created (random : ByteArr 16)

/-- What the system answers to the steps of one atomic write. -/
structure WriteAnswers where
  rejectParent : SystemResult
  inspectTarget : SystemResult
  protectTarget : SystemResult
  temporaries : List TemporaryAnswer
  /-- `some partial`: the stream failed with this much of the file written. -/
  write : Option Bytes
  protectTemporary : SystemResult
  syncFile : SystemResult
  replace : SystemResult
  syncDirectory : SystemResult
  /-- Whether the clean-up's `remove(temporary)` works. -/
  removeTemporary : Bool

/-- Every step succeeds at the first attempt. -/
def WriteAnswers.success (random : ByteArr 16) : WriteAnswers where
  rejectParent := none
  inspectTarget := none
  protectTarget := none
  temporaries := [.created random]
  write := none
  protectTemporary := none
  syncFile := none
  replace := none
  syncDirectory := none
  removeTemporary := true

def temporaryName (name : Bytes) (random : ByteArr 16) : Bytes :=
  name ++ ascii ".tmp." ++ hex random.val

/-- The attempt loop: the temporary name that could be created. A failure
comes with the name of a file that was created but could not be closed. -/
def reserveTemporary (d : Directory) (name : Bytes) :
    List TemporaryAnswer → Except (String × Option Bytes) Bytes
  | [] => .error ("Cannot reserve a private temporary file", none)
  | .noRandom error :: _ => .error (error, none)
  | .refused error :: _ => .error (error, none)
  | .inspectFailed :: _ => .error ("Cannot inspect private temporary file", none)
  | .missing :: _ => .error ("Cannot create private temporary file", none)
  | .exists :: rest => reserveTemporary d name rest
  -- O_EXCL: a name that is already taken is never opened
  | .unclosed random error :: rest =>
      if temporaryName name random ∈ d then reserveTemporary d name rest
      else .error (error, some (temporaryName name random))
  | .created random :: rest =>
      if temporaryName name random ∈ d then reserveTemporary d name rest
      else .ok (temporaryName name random)

/-- The clean-up after a step that failed. -/
def discardTemporary (d : Directory) (temporary : Bytes) (answers : WriteAnswers) : Directory :=
  if answers.removeTemporary then d.erase temporary else d

def privateWriteAtomically (d : Directory) (name bytes : Bytes) (answers : WriteAnswers) :
    Except String Unit × Directory :=
  match answers.rejectParent with
  | some error => (.error error, d)
  | none =>
  match answers.inspectTarget with
  | some error => (.error error, d)
  | none =>
  match (if name ∈ d then answers.protectTarget else none) with
  | some error => (.error error, d)
  | none =>
  match reserveTemporary d name (answers.temporaries.take 16) with
  | .error (error, none) => (.error error, d)
  | .error (error, some temporary) =>
      (.error error, discardTemporary (d.insert temporary []) temporary answers)
  | .ok temporary =>
  match answers.write with
  | some partialBytes =>
      (.error "Cannot write private file",
        discardTemporary (d.insert temporary partialBytes) temporary answers)
  | none =>
  let filled := d.insert temporary bytes
  match answers.protectTemporary.or (answers.syncFile.or answers.replace) with
  | some error => (.error error, discardTemporary filled temporary answers)
  | none =>
  let replaced := (filled.erase temporary).insert name bytes
  match answers.syncDirectory with
  -- the rename is done: removing the temporary finds nothing
  | some error => (.error error, replaced)
  | none => (.ok (), replaced)

/-- What the system answers to `file_lock_acquire` on `state.lock`. -/
structure LockAnswers where
  inspect : SystemResult
  protect : SystemResult
  create : WriteAnswers
  /-- `open` and the non-blocking `flock`. -/
  lock : SystemResult

def LockAnswers.success (random : ByteArr 16) : LockAnswers where
  inspect := none
  protect := none
  create := .success random
  lock := none

def fileLockAcquire (d : Directory) (name : Bytes) (answers : LockAnswers) :
    Except String Unit × Directory :=
  match answers.inspect with
  | some error => (.error error, d)
  | none =>
      let prepared : Except String Unit × Directory :=
        if name ∈ d then
          (match answers.protect with | some error => .error error | none => .ok (), d)
        else privateWriteAtomically d name [] answers.create
      match prepared with
      | (.error error, d) => (.error error, d)
      | (.ok (), d) =>
          match answers.lock with
          | some _ => (.error "State is already in use by another process", d)
          | none => (.ok (), d)

theorem privateReadFile_ok {d : Directory} {name contents : Bytes} {maximumSize : Nat}
    {answer : SystemResult} (h : privateReadFile d name maximumSize answer = .ok contents) :
    d.lookup name = some contents := by
  unfold privateReadFile at h
  split at h
  · cases h
  · cases h
  · rename_i stored hlookup
    split at h
    · cases h
    · cases h
      exact hlookup

/-! ## What an atomic write does to the directory -/

/-- A file that was created is new, whether it could be closed or not. -/
theorem reserveTemporary_new {d : Directory} {name temporary : Bytes}
    {answers : List TemporaryAnswer} (h : reserveTemporary d name answers = .ok temporary
      ∨ ∃ e, reserveTemporary d name answers = .error (e, some temporary)) :
    temporary ∉ d ∧ ∃ random, temporary = temporaryName name random := by
  induction answers with
  | nil => simp [reserveTemporary] at h
  | cons answer rest ih =>
      cases answer with
      | created random =>
          simp only [reserveTemporary] at h
          split at h
          · exact ih h
          · rename_i hnew
            have htemporary : temporaryName name random = temporary := by simpa using h
            exact htemporary ▸ ⟨hnew, random, rfl⟩
      | unclosed random error =>
          simp only [reserveTemporary] at h
          split at h
          · exact ih h
          · rename_i hnew
            have htemporary : temporaryName name random = temporary := by simpa using h
            exact htemporary ▸ ⟨hnew, random, rfl⟩
      | «exists» => exact ih h
      | _ => simp [reserveTemporary] at h

/-- The checks before the first temporary file pass. -/
structure Prepared (d : Directory) (name : Bytes) (answers : WriteAnswers) : Prop where
  parent : answers.rejectParent = none
  inspect : answers.inspectTarget = none
  protect : name ∈ d → answers.protectTarget = none

/-- A temporary file was created and could be closed. -/
def Reserves (d : Directory) (name : Bytes) (answers : WriteAnswers) : Prop :=
  ∃ temporary, reserveTemporary d name (answers.temporaries.take 16) = .ok temporary

/-- A temporary file was created and could not be closed. -/
def ReservesUnclosed (d : Directory) (name : Bytes) (answers : WriteAnswers) : Prop :=
  ∃ error temporary,
    reserveTemporary d name (answers.temporaries.take 16) = .error (error, some temporary)

/-- Every step up to the rename succeeds. -/
structure Renames (d : Directory) (name : Bytes) (answers : WriteAnswers) : Prop
    extends Prepared d name answers where
  reserves : Reserves d name answers
  written : answers.write = none
  guarded : answers.protectTemporary = none
  synced : answers.syncFile = none
  renamed : answers.replace = none

/-- All is done up to the rename, and the directory cannot be flushed. -/
structure Unsynced (d : Directory) (name : Bytes) (answers : WriteAnswers) : Prop
    extends Prepared d name answers where
  reserves : Reserves d name answers
  written : answers.write = none
  guarded : answers.protectTemporary = none
  synced : answers.syncFile = none
  renamed : answers.replace = none
  unsynced : answers.syncDirectory ≠ none

/-- A temporary file was created, a step before the rename fails, and so does
the removal of the temporary. -/
structure Strays (d : Directory) (name : Bytes) (answers : WriteAnswers) : Prop
    extends Prepared d name answers where
  kept : answers.removeTemporary = false
  fails : ReservesUnclosed d name answers ∨ Reserves d name answers
    ∧ (answers.write ≠ none ∨ answers.protectTemporary ≠ none ∨ answers.syncFile ≠ none
      ∨ answers.replace ≠ none)

/-- The directory after a write, by what the system answered to it. -/
inductive WriteEnd (d : Directory) (name bytes : Bytes) (answers : WriteAnswers) :
    Except String Unit × Directory → Prop where
  | refused (e : String) (d' : Directory) (hunsynced : ¬ Unsynced d name answers)
      (hstrays : ¬ Strays d name answers) (hsame : ∀ n, d'.lookup n = d.lookup n) :
      WriteEnd d name bytes answers (.error e, d')
  | strayed (e : String) (random : ByteArr 16) (stray : Bytes) (hstrays : Strays d name answers)
      (hunsynced : ¬ Unsynced d name answers) (hnew : temporaryName name random ∉ d) :
      WriteEnd d name bytes answers (.error e, d.insert (temporaryName name random) stray)
  | unsynced (e : String) (d' : Directory) (hunsynced : Unsynced d name answers)
      (hsync : answers.syncDirectory = some e) (hstrays : ¬ Strays d name answers)
      (hreplaced : ∀ n, d'.lookup n = if n = name then some bytes else d.lookup n) :
      WriteEnd d name bytes answers (.error e, d')
  | stored (d' : Directory) (hunsynced : ¬ Unsynced d name answers)
      (hstrays : ¬ Strays d name answers)
      (hreplaced : ∀ n, d'.lookup n = if n = name then some bytes else d.lookup n) :
      WriteEnd d name bytes answers (.ok (), d')

/-- The name the temporary file got, closed or not. -/
def Takes (d : Directory) (name : Bytes) (answers : WriteAnswers) (temporary : Bytes) : Prop :=
  reserveTemporary d name (answers.temporaries.take 16) = .ok temporary
    ∨ ∃ error,
      reserveTemporary d name (answers.temporaries.take 16) = .error (error, some temporary)

/-- The same directory with the stray temporary's name, and with the rename as
the point where the new content shows. -/
inductive RenameEnd (d : Directory) (name bytes : Bytes) (answers : WriteAnswers) :
    Except String Unit × Directory → Prop where
  | kept (e : String) (d' : Directory) (hrenames : ¬ Renames d name answers)
      (hstrays : ¬ Strays d name answers) (hsame : ∀ n, d'.lookup n = d.lookup n) :
      RenameEnd d name bytes answers (.error e, d')
  | strayed (e : String) (random : ByteArr 16) (stray : Bytes) (hrenames : ¬ Renames d name answers)
      (hstrays : Strays d name answers) (htakes : Takes d name answers (temporaryName name random))
      (hnew : temporaryName name random ∉ d) :
      RenameEnd d name bytes answers (.error e, d.insert (temporaryName name random) stray)
  | renamed (result : Except String Unit) (d' : Directory) (hrenames : Renames d name answers)
      (hstrays : ¬ Strays d name answers)
      (hresult : ∀ e, answers.syncDirectory = some e → result = .error e)
      (hok : answers.syncDirectory = none → result = .ok ())
      (hreplaced : ∀ n, d'.lookup n = if n = name then some bytes else d.lookup n) :
      RenameEnd d name bytes answers (result, d')

section
variable {d : Directory} {name bytes temporary : Bytes} {answers : WriteAnswers}

theorem discardTemporary_lookup (content : Bytes) (hnew : temporary ∉ d)
    (hremoved : answers.removeTemporary = true) (n : Bytes) :
    (discardTemporary (d.insert temporary content) temporary answers).lookup n = d.lookup n := by
  simp only [discardTemporary, hremoved, if_true]
  by_cases hn : n = temporary
  · subst hn
    rw [AList.lookup_erase, eq_comm, AList.lookup_eq_none]
    exact hnew
  · rw [AList.lookup_erase_ne hn, AList.lookup_insert_ne hn]

theorem unsynced_iff :
    Unsynced d name answers ↔ Renames d name answers ∧ answers.syncDirectory ≠ none := by
  constructor
  · intro h
    exact ⟨⟨h.toPrepared, h.reserves, h.written, h.guarded, h.synced, h.renamed⟩, h.unsynced⟩
  · intro h
    obtain ⟨h, hunsynced⟩ := h
    exact ⟨h.toPrepared, h.reserves, h.written, h.guarded, h.synced, h.renamed, hunsynced⟩

/-- A step after a temporary file was created and before the rename fails. -/
theorem renameEnd_discard (e : String) (content : Bytes) (hprepared : Prepared d name answers)
    (htakes : Takes d name answers temporary)
    (hfails : ReservesUnclosed d name answers ∨ Reserves d name answers
      ∧ (answers.write ≠ none ∨ answers.protectTemporary ≠ none ∨ answers.syncFile ≠ none
        ∨ answers.replace ≠ none))
    (hrenames : ¬ Renames d name answers) :
    RenameEnd d name bytes answers
      (.error e, discardTemporary (d.insert temporary content) temporary answers) := by
  obtain ⟨hnew, random, rfl⟩ := reserveTemporary_new htakes
  cases hremoved : answers.removeTemporary with
  | true =>
      have hsame := discardTemporary_lookup content hnew hremoved
      refine .kept e _ hrenames (fun hstrays => ?_) hsame
      rw [hstrays.kept] at hremoved
      cases hremoved
  | false =>
      have hkept : discardTemporary (d.insert (temporaryName name random) content)
          (temporaryName name random) answers
            = d.insert (temporaryName name random) content := by
        simp [discardTemporary, hremoved]
      rw [hkept]
      exact .strayed e random content hrenames ⟨hprepared, hremoved, hfails⟩ htakes hnew

theorem renameEnd_unprepared (e : String) (h : ¬ Prepared d name answers) :
    RenameEnd d name bytes answers (.error e, d) :=
  .kept e d (fun hrenames => h hrenames.toPrepared) (fun hstrays => h hstrays.toPrepared)
    fun _ => rfl

theorem privateWriteAtomically_outcome (d : Directory) (name bytes : Bytes)
    (answers : WriteAnswers) :
    RenameEnd d name bytes answers (privateWriteAtomically d name bytes answers) := by
  unfold privateWriteAtomically
  cases hparent : answers.rejectParent with
  | some e => exact renameEnd_unprepared e fun h => by simp [h.parent] at hparent
  | none =>
  cases hinspect : answers.inspectTarget with
  | some e => exact renameEnd_unprepared e fun h => by simp [h.inspect] at hinspect
  | none =>
  cases hprotect : (if name ∈ d then answers.protectTarget else none) with
  | some e =>
      refine renameEnd_unprepared e fun h => ?_
      split at hprotect
      next hmem => simp [h.protect hmem] at hprotect
      next => cases hprotect
  | none =>
  have hprepared : Prepared d name answers := by
    refine ⟨hparent, hinspect, fun hmem => ?_⟩
    rwa [if_pos hmem] at hprotect
  cases hreserve : reserveTemporary d name (answers.temporaries.take 16) with
  | error failure =>
      have hno : ¬ Reserves d name answers := by
        rintro ⟨temporary, h⟩
        rw [hreserve] at h
        cases h
      obtain ⟨e, temporary⟩ := failure
      cases temporary with
      | none =>
          have hclosed : ¬ ReservesUnclosed d name answers := by
            rintro ⟨e', temporary, h⟩
            rw [hreserve] at h
            cases h
          exact .kept e d (fun h => hno h.reserves)
            (fun h => h.fails.elim hclosed fun h => hno h.1) fun _ => rfl
      | some temporary =>
          exact renameEnd_discard e [] hprepared (.inr ⟨e, hreserve⟩)
            (.inl ⟨e, temporary, hreserve⟩) fun h => hno h.reserves
  | ok temporary =>
  have hnew : temporary ∉ d := (reserveTemporary_new (.inl hreserve)).1
  have hreserves : Reserves d name answers := ⟨temporary, hreserve⟩
  have hclosed : ¬ ReservesUnclosed d name answers := by
    rintro ⟨e', temporary', h⟩
    rw [hreserve] at h
    cases h
  cases hwrite : answers.write with
  | some partialBytes =>
      refine renameEnd_discard _ partialBytes hprepared (.inl hreserve)
        (.inr ⟨hreserves, .inl (by simp [hwrite])⟩) fun h => ?_
      simp [h.written] at hwrite
  | none =>
  cases hsteps : answers.protectTemporary.or (answers.syncFile.or answers.replace) with
  | some e =>
      have hfails : answers.protectTemporary ≠ none ∨ answers.syncFile ≠ none
          ∨ answers.replace ≠ none := by
        by_contra hno
        push Not at hno
        simp [hno.1, hno.2.1, hno.2.2] at hsteps
      refine renameEnd_discard e bytes hprepared (.inl hreserve)
        (.inr ⟨hreserves, .inr hfails⟩) fun h => ?_
      simp [h.guarded, h.synced, h.renamed] at hsteps
  | none =>
  obtain ⟨hprotected, hsynced, hrenamed⟩ : answers.protectTemporary = none
      ∧ answers.syncFile = none ∧ answers.replace = none := by
    simpa [Option.or_eq_none_iff] using hsteps
  have hstrays : ¬ Strays d name answers := by
    intro h
    rcases h.fails with h | ⟨-, h | h | h | h⟩
    · exact hclosed h
    · exact h hwrite
    · exact h hprotected
    · exact h hsynced
    · exact h hrenamed
  have hreplaced : ∀ n, (((d.insert temporary bytes).erase temporary).insert name bytes).lookup n
      = if n = name then some bytes else d.lookup n := by
    intro n
    by_cases hn : n = name
    · rw [hn, AList.lookup_insert, if_pos rfl]
    · rw [AList.lookup_insert_ne hn, if_neg hn]
      by_cases ht : n = temporary
      · subst ht
        rw [AList.lookup_erase, eq_comm, AList.lookup_eq_none]
        exact hnew
      · rw [AList.lookup_erase_ne ht, AList.lookup_insert_ne ht]
  have hrenames : Renames d name answers :=
    ⟨hprepared, hreserves, hwrite, hprotected, hsynced, hrenamed⟩
  cases hsync : answers.syncDirectory with
  | some e =>
      refine .renamed _ _ hrenames hstrays (fun e' he' => ?_) (fun hnone => ?_) hreplaced
      · rw [hsync] at he'
        cases he'
        rfl
      · rw [hsync] at hnone
        cases hnone
  | none =>
      refine .renamed _ _ hrenames hstrays (fun e' he' => ?_) (fun _ => rfl) hreplaced
      rw [hsync] at he'
      cases he'

theorem privateWriteAtomically_end (d : Directory) (name bytes : Bytes) (answers : WriteAnswers) :
    WriteEnd d name bytes answers (privateWriteAtomically d name bytes answers) := by
  have houtcome := privateWriteAtomically_outcome d name bytes answers
  generalize privateWriteAtomically d name bytes answers = result at houtcome ⊢
  cases houtcome with
  | kept e d' hrenames hstrays hsame =>
      exact .refused e d' (fun h => hrenames (unsynced_iff.mp h).1) hstrays hsame
  | strayed e random stray hrenames hstrays htakes hnew =>
      exact .strayed e random stray hstrays (fun h => hrenames (unsynced_iff.mp h).1) hnew
  | renamed result d' hrenames hstrays hresult hok hreplaced =>
      cases hsync : answers.syncDirectory with
      | some e =>
          rw [hresult e hsync]
          exact .unsynced e d' (unsynced_iff.mpr ⟨hrenames, by simp [hsync]⟩) hsync hstrays
            hreplaced
      | none =>
          rw [hok hsync]
          exact .stored d' (fun h => h.unsynced hsync) hstrays hreplaced

end

/-- What can be left in the directory: the old content, the old content and
a stray temporary, or the new content. Only the last goes with success. -/
theorem privateWriteAtomically_cases (d : Directory) (name bytes : Bytes)
    (answers : WriteAnswers) :
    (∃ e, (privateWriteAtomically d name bytes answers).1 = .error e
      ∧ ((∀ n, (privateWriteAtomically d name bytes answers).2.lookup n = d.lookup n)
        ∨ answers.removeTemporary = false ∧ ∃ random stray, temporaryName name random ∉ d ∧
          (privateWriteAtomically d name bytes answers).2
            = d.insert (temporaryName name random) stray))
    ∨ ((privateWriteAtomically d name bytes answers).1 = .ok ()
        ∨ ∃ e, answers.syncDirectory = some e
          ∧ (privateWriteAtomically d name bytes answers).1 = .error e)
      ∧ ∀ n, (privateWriteAtomically d name bytes answers).2.lookup n
        = if n = name then some bytes else d.lookup n := by
  have hend := privateWriteAtomically_end d name bytes answers
  generalize privateWriteAtomically d name bytes answers = result at hend ⊢
  cases hend with
  | refused e d' hunsynced hstrays hsame => exact .inl ⟨e, rfl, .inl hsame⟩
  | strayed e random stray hstrays hunsynced hnew =>
      exact .inl ⟨e, rfl, .inr ⟨hstrays.kept, random, stray, hnew, rfl⟩⟩
  | unsynced e d' hunsynced hsync hstrays hreplaced =>
      exact .inr ⟨.inr ⟨e, hsync, rfl⟩, hreplaced⟩
  | stored d' hunsynced hstrays hreplaced => exact .inr ⟨.inl rfl, hreplaced⟩

/-- A write that reports success replaced exactly the file it names. -/
theorem privateWriteAtomically_ok {d : Directory} {name bytes : Bytes} {answers : WriteAnswers}
    (h : (privateWriteAtomically d name bytes answers).1 = .ok ()) (n : Bytes) :
    (privateWriteAtomically d name bytes answers).2.lookup n
      = if n = name then some bytes else d.lookup n := by
  rcases privateWriteAtomically_cases d name bytes answers with ⟨e, he, _⟩ | ⟨_, hnew⟩
  · rw [h] at he
    cases he
  · exact hnew n

theorem privateWriteAtomically_ok_iff {d : Directory} {name bytes : Bytes} {answers : WriteAnswers} :
    (privateWriteAtomically d name bytes answers).1 = .ok ()
      ↔ Renames d name answers ∧ answers.syncDirectory = none := by
  have houtcome := privateWriteAtomically_outcome d name bytes answers
  generalize privateWriteAtomically d name bytes answers = result at houtcome ⊢
  cases houtcome with
  | kept e d' hrenames hstrays hsame => simp [hrenames]
  | strayed e random stray hrenames hstrays htakes hnew => simp [hrenames]
  | renamed result d' hrenames hstrays hresult hok hreplaced =>
      cases hsync : answers.syncDirectory with
      | some e => simp [hresult e hsync]
      | none => simp [hok hsync, hrenames]

/-! ## The names a write adds -/

theorem Takes.unique {d : Directory} {name : Bytes} {answers : WriteAnswers} {n m : Bytes}
    (hn : Takes d name answers n) (hm : Takes d name answers m) : n = m := by
  unfold Takes at hn hm
  rcases hn with hn | ⟨e, hn⟩
  · rw [hn] at hm
    simpa using hm
  · rw [hn] at hm
    simpa using hm

/-- The write leaves a file of this name: the one it is for, or a temporary. -/
def Adds (d : Directory) (name : Bytes) (answers : WriteAnswers) (n : Bytes) : Prop :=
  n = name ∧ Renames d name answers ∨ Strays d name answers ∧ Takes d name answers n

theorem mem_privateWriteAtomically {d : Directory} {name bytes n : Bytes} {answers : WriteAnswers}
    (hn : n ∉ d) :
    n ∈ (privateWriteAtomically d name bytes answers).2 ↔ Adds d name answers n := by
  have hlookup : d.lookup n = none := AList.lookup_eq_none.mpr hn
  have houtcome := privateWriteAtomically_outcome d name bytes answers
  unfold Adds
  generalize privateWriteAtomically d name bytes answers = result at houtcome ⊢
  cases houtcome with
  | kept e d' hrenames hstrays hsame =>
      have hmem : n ∉ d' := by rw [← AList.lookup_eq_none, hsame, hlookup]
      simp [hrenames, hstrays, hmem]
  | strayed e random stray hrenames hstrays htakes hnew =>
      have htaken : Takes d name answers n ↔ n = temporaryName name random := by
        constructor
        · intro h
          exact h.unique htakes
        · rintro rfl
          exact htakes
      simp [hrenames, hstrays, htaken, hn]
  | renamed result d' hrenames hstrays hresult hok hreplaced =>
      have hmem : n ∈ d' ↔ n = name := by
        rw [← AList.lookup_isSome, hreplaced]
        by_cases hname : n = name <;> simp [hname, hlookup]
      simp [hrenames, hstrays, hmem]

/-- No name that was there is gone. -/
theorem mem_privateWriteAtomically_of_mem {d : Directory} {name bytes n : Bytes}
    {answers : WriteAnswers} (hn : n ∈ d) : n ∈ (privateWriteAtomically d name bytes answers).2 := by
  have houtcome := privateWriteAtomically_outcome d name bytes answers
  generalize privateWriteAtomically d name bytes answers = result at houtcome ⊢
  rw [← AList.lookup_isSome] at hn ⊢
  cases houtcome with
  | kept e d' hrenames hstrays hsame =>
      rw [hsame]
      exact hn
  | strayed e random stray hrenames hstrays htakes hnew =>
      rw [AList.lookup_isSome] at hn ⊢
      exact AList.mem_insert _ |>.mpr (.inr hn)
  | renamed result d' hrenames hstrays hresult hok hreplaced =>
      rw [hreplaced]
      by_cases hname : n = name
      · simp [hname]
      · rw [if_neg hname]
        exact hn

/-- Two directories in which a write meets the same names. -/
structure SameNames (d d' : Directory) (name : Bytes) : Prop where
  target : name ∈ d ↔ name ∈ d'
  temporary : ∀ random, temporaryName name random ∈ d ↔ temporaryName name random ∈ d'

section
variable {d d' : Directory} {name : Bytes} {answers : WriteAnswers}

/-- Which names a write meets decides what it does, not what they hold. -/
theorem reserveTemporary_congr (h : SameNames d d' name) (answers : List TemporaryAnswer) :
    reserveTemporary d name answers = reserveTemporary d' name answers := by
  induction answers with
  | nil => rfl
  | cons answer rest ih => cases answer <;> simp only [reserveTemporary, h.temporary, ih]

theorem prepared_congr (h : SameNames d d' name) :
    Prepared d name answers ↔ Prepared d' name answers := by
  constructor
  · intro hd
    exact ⟨hd.parent, hd.inspect, fun hmem => hd.protect (h.target.mpr hmem)⟩
  · intro hd
    exact ⟨hd.parent, hd.inspect, fun hmem => hd.protect (h.target.mp hmem)⟩

theorem reserves_congr (h : SameNames d d' name) :
    Reserves d name answers ↔ Reserves d' name answers := by
  rw [Reserves, Reserves, reserveTemporary_congr h]

theorem renames_congr (h : SameNames d d' name) :
    Renames d name answers ↔ Renames d' name answers := by
  constructor
  · intro hd
    exact ⟨(prepared_congr h).mp hd.toPrepared, (reserves_congr h).mp hd.reserves, hd.written,
      hd.guarded, hd.synced, hd.renamed⟩
  · intro hd
    exact ⟨(prepared_congr h).mpr hd.toPrepared, (reserves_congr h).mpr hd.reserves, hd.written,
      hd.guarded, hd.synced, hd.renamed⟩

theorem strays_congr (h : SameNames d d' name) :
    Strays d name answers ↔ Strays d' name answers := by
  have hunclosed : ReservesUnclosed d name answers ↔ ReservesUnclosed d' name answers := by
    rw [ReservesUnclosed, ReservesUnclosed, reserveTemporary_congr h]
  constructor
  · intro hd
    have hfails := hd.fails
    rw [reserves_congr h, hunclosed] at hfails
    exact ⟨(prepared_congr h).mp hd.toPrepared, hd.kept, hfails⟩
  · intro hd
    have hfails := hd.fails
    rw [← reserves_congr h, ← hunclosed] at hfails
    exact ⟨(prepared_congr h).mpr hd.toPrepared, hd.kept, hfails⟩

theorem adds_congr (h : SameNames d d' name) (n : Bytes) :
    Adds d name answers n ↔ Adds d' name answers n := by
  rw [Adds, Adds, Takes, Takes, renames_congr h, strays_congr h, reserveTemporary_congr h]

end

/-! ## Names that no temporary file takes -/

/-- A temporary's name is longer than the name it stands for. -/
theorem temporaryName_ne {name : Bytes} (random : ByteArr 16) : temporaryName name random ≠ name := by
  intro h
  have hlength := congrArg List.length h
  simp only [temporaryName, List.length_append, ascii, List.length_map] at hlength
  have hdot : ".tmp.".toList.length = 5 := rfl
  omega

/-- The name is never one an atomic write reserves. -/
def NotTemporary (name : Bytes) : Prop :=
  ∀ target random, name ≠ temporaryName target random

/-- A temporary's name ends in a hexadecimal digit. -/
theorem notTemporary_of_getLast {name : Bytes} {c : UInt8} (hlast : name.getLast? = some c)
    (hc : ∀ i : Fin 16, hexDigit i ≠ c) : NotTemporary name := by
  intro target random heq
  have hne : random.val ≠ [] := List.ne_nil_of_length_pos (by rw [random.property]; decide)
  obtain ⟨init, byte, hsplit⟩ : ∃ init byte, random.val = init ++ [byte] :=
    ⟨_, _, (List.dropLast_append_getLast hne).symm⟩
  have hdigit : (temporaryName target random).getLast? = some (hexDigit (byte.toNat % 16)) := by
    simp [temporaryName, hsplit, hex, List.getLast?_append]
  rw [heq, hdigit] at hlast
  exact hc ⟨byte.toNat % 16, Nat.mod_lt _ (by omega)⟩ (Option.some.inj hlast)

theorem privateWriteAtomically_lookup_ne (d : Directory) {name n : Bytes} (bytes : Bytes)
    (answers : WriteAnswers) (hne : n ≠ name) (hn : ∀ random, n ≠ temporaryName name random) :
    (privateWriteAtomically d name bytes answers).2.lookup n = d.lookup n := by
  rcases privateWriteAtomically_cases d name bytes answers with
    ⟨-, -, hsame | ⟨-, random, stray, -, hstray⟩⟩ | ⟨-, hnew⟩
  · exact hsame n
  · rw [hstray, AList.lookup_insert_ne (hn random)]
  · rw [hnew, if_neg hne]

theorem privateWriteAtomically_lookup_other (d : Directory) {name n : Bytes} (bytes : Bytes)
    (answers : WriteAnswers) (hne : n ≠ name) (hn : NotTemporary n) :
    (privateWriteAtomically d name bytes answers).2.lookup n = d.lookup n :=
  privateWriteAtomically_lookup_ne d bytes answers hne (hn name)

theorem privateWriteAtomically_lookup_self (d : Directory) {name : Bytes} (bytes : Bytes)
    (answers : WriteAnswers) (hname : NotTemporary name) :
    (privateWriteAtomically d name bytes answers).2.lookup name = d.lookup name
      ∨ (privateWriteAtomically d name bytes answers).2.lookup name = some bytes := by
  rcases privateWriteAtomically_cases d name bytes answers with
    ⟨-, -, hsame | ⟨-, random, stray, -, hstray⟩⟩ | ⟨-, hnew⟩
  · exact .inl (hsame name)
  · rw [hstray, AList.lookup_insert_ne (hname name random)]
    exact .inl rfl
  · rw [hnew, if_pos rfl]
    exact .inr rfl

theorem fileLockAcquire_lookup_ne (d : Directory) {name n : Bytes} (answers : LockAnswers)
    (hne : n ≠ name) (hn : ∀ random, n ≠ temporaryName name random) :
    (fileLockAcquire d name answers).2.lookup n = d.lookup n := by
  unfold fileLockAcquire
  cases answers.inspect with
  | some error => rfl
  | none =>
      by_cases hmem : name ∈ d
      · simp only [hmem, if_true]
        cases answers.protect <;> cases answers.lock <;> rfl
      · have hwrite := privateWriteAtomically_lookup_ne d [] answers.create hne hn
        simp only [hmem, if_false]
        generalize privateWriteAtomically d name [] answers.create = result at hwrite ⊢
        obtain ⟨result, d'⟩ := result
        cases result with
        | error e => exact hwrite
        | ok u => cases answers.lock <;> exact hwrite

theorem fileLockAcquire_lookup (d : Directory) {name n : Bytes} (answers : LockAnswers)
    (hne : n ≠ name) (hn : NotTemporary n) :
    (fileLockAcquire d name answers).2.lookup n = d.lookup n :=
  fileLockAcquire_lookup_ne d answers hne (hn name)

/-- The lock file is there or can be created, and nobody holds it. -/
structure Locks (d : Directory) (name : Bytes) (answers : LockAnswers) : Prop where
  inspect : answers.inspect = none
  protect : name ∈ d → answers.protect = none
  create : name ∉ d → Renames d name answers.create ∧ answers.create.syncDirectory = none
  lock : answers.lock = none

/-- Taking the lock leaves a file of this name. -/
def LockAdds (d : Directory) (name : Bytes) (answers : LockAnswers) (n : Bytes) : Prop :=
  answers.inspect = none ∧ name ∉ d ∧ Adds d name answers.create n

theorem fileLockAcquire_ok_iff {d : Directory} {name : Bytes} {answers : LockAnswers} :
    (fileLockAcquire d name answers).1 = .ok () ↔ Locks d name answers := by
  have hlocks : Locks d name answers ↔ answers.inspect = none ∧ (name ∈ d → answers.protect = none)
      ∧ (name ∉ d → Renames d name answers.create ∧ answers.create.syncDirectory = none)
      ∧ answers.lock = none :=
    ⟨fun h => ⟨h.inspect, h.protect, h.create, h.lock⟩, fun h => ⟨h.1, h.2.1, h.2.2.1, h.2.2.2⟩⟩
  rw [hlocks]
  unfold fileLockAcquire
  cases answers.inspect with
  | some error => simp
  | none =>
      by_cases hmem : name ∈ d
      · cases hprotect : answers.protect <;> cases hlock : answers.lock <;> simp [hmem]
      · have hok := @privateWriteAtomically_ok_iff d name [] answers.create
        simp only [hmem, if_false]
        rw [← hok]
        generalize privateWriteAtomically d name [] answers.create = result
        obtain ⟨result, d'⟩ := result
        cases result with
        | error e => simp
        | ok u => cases hlock : answers.lock <;> simp

theorem mem_fileLockAcquire {d : Directory} {name n : Bytes} {answers : LockAnswers} (hn : n ∉ d) :
    n ∈ (fileLockAcquire d name answers).2 ↔ LockAdds d name answers n := by
  unfold fileLockAcquire LockAdds
  cases answers.inspect with
  | some error => simp [hn]
  | none =>
      by_cases hmem : name ∈ d
      · cases answers.protect <;> cases answers.lock <;> simp [hmem, hn]
      · have hadds := @mem_privateWriteAtomically d name [] n answers.create hn
        simp only [hmem, if_false, not_false_eq_true, true_and]
        rw [← hadds]
        generalize privateWriteAtomically d name [] answers.create = result
        obtain ⟨result, d'⟩ := result
        cases result with
        | error e => rfl
        | ok u => cases answers.lock <;> rfl

/-- A lock that was taken left its empty file and nothing else. -/
theorem fileLockAcquire_ok {d : Directory} {name : Bytes} {answers : LockAnswers}
    (h : (fileLockAcquire d name answers).1 = .ok ()) (n : Bytes) :
    (fileLockAcquire d name answers).2.lookup n
      = if n = name ∧ name ∉ d then some [] else d.lookup n := by
  unfold fileLockAcquire at h ⊢
  cases hinspect : answers.inspect with
  | some error =>
      rw [hinspect] at h
      cases h
  | none =>
      rw [hinspect] at h
      by_cases hmem : name ∈ d
      · simp only [hmem, if_true, not_true_eq_false, and_false, if_false]
        cases answers.protect <;> cases answers.lock <;> rfl
      · have hok := @privateWriteAtomically_ok d name [] answers.create
        simp only [hmem, if_false, not_false_eq_true, and_true] at h ⊢
        generalize privateWriteAtomically d name [] answers.create = result at h hok ⊢
        obtain ⟨result, d'⟩ := result
        cases result with
        | error e => cases h
        | ok u => cases hlock : answers.lock <;> exact hok rfl n

end Madoka
