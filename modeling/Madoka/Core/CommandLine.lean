import Madoka.Security.Invite

/-!
# Command Line

The arguments that `app_init` (`core/app.cpp`) accepts: an optional mode, then
its options in any order, each at most once and with a value where it takes
one.
-/

namespace Madoka

open Octets

variable (x : External)

/-! ## The loop over the arguments -/

def defaultInviteLifetimeSeconds : UInt64 := 3600

/-- What the first argument chooses: to run the node unless it is a mode. -/
inductive CommandMode where
  | node
  | status
  | invite
  | join (token : Bytes)
deriving DecidableEq

/-- What the loop fills in; a text is empty until its option is met. -/
structure CommandArguments where
  configPath : Bytes
  sharePortsArg : Bytes
  listenArg : Bytes
  check : Bool
  expiresSet : Bool
  inviteLifetimeSeconds : UInt64

def CommandArguments.initial : CommandArguments where
  configPath := []
  sharePortsArg := []
  listenArg := []
  check := false
  expiresSet := false
  inviteLifetimeSeconds := defaultInviteLifetimeSeconds

/-- The argument behind an option is a value: neither empty nor an option. -/
def isValue (argument : Bytes) : Bool :=
  argument ≠ [] && !(ascii "--").isPrefixOf argument

/-- The value behind an option, empty where there is none. -/
def valueBehind : Option Bytes → Bytes
  | some next => if isValue next then next else []
  | none => []

/-- `std::from_chars` into an `unsigned int` that has to use up the text, and
the bounds on it. -/
def parseMinutes (value : Bytes) : Option Nat :=
  if value ≠ [] ∧ value.all isDigit ∧ decimal value < 2 ^ 32 ∧ decimal value ≠ 0
      ∧ decimal value ≤ maxInviteLifetimeSeconds.toNat / 60 then
    some (decimal value)
  else none

def expiresError : String := "--expires must be between 1 and 1440 minutes"

/-- One turn of the loop: an option with the argument behind it, an option by
itself, the error of `--expires`, or the usage. -/
inductive OptionTurn where
  | withValue (arguments : CommandArguments)
  | alone (arguments : CommandArguments)
  | failed
  | usage

def optionTurn (mode : CommandMode) (s : CommandArguments) (argument : Bytes)
    (next : Option Bytes) : OptionTurn :=
  let value := valueBehind next
  if argument = ascii "--config" ∧ s.configPath = [] ∧ value ≠ [] then
    .withValue { s with configPath := value }
  else if argument = ascii "--listen" ∧ s.listenArg = [] ∧ value ≠ [] then
    .withValue { s with listenArg := value }
  else if argument = ascii "--share-ports" ∧ mode ≠ .status ∧ mode ≠ .invite
      ∧ s.sharePortsArg = [] ∧ value ≠ [] then
    .withValue { s with sharePortsArg := value }
  else if argument = ascii "--expires" ∧ mode = .invite ∧ s.expiresSet = false ∧ value ≠ [] then
    match parseMinutes value with
    | none => .failed
    | some minutes =>
        .withValue
          { s with expiresSet := true, inviteLifetimeSeconds := UInt64.ofNat minutes * 60 }
  else if argument = ascii "--check" ∧ s.check = false ∧ mode = .node then
    .alone { s with check := true }
  else .usage

/-- How the reading of the arguments ends: the program prints its help or its
usage and exits, reports an error, or goes on. -/
inductive CommandResult where
  | help
  | usage
  | failed (error : String)
  | parsed (mode : CommandMode) (arguments : CommandArguments)

def optionLoop (mode : CommandMode) (s : CommandArguments) : List Bytes → CommandResult
  | [] => .parsed mode s
  | [argument] =>
      match optionTurn mode s argument none with
      | .alone s => .parsed mode s
      | _ => .usage
  | argument :: next :: rest =>
      match optionTurn mode s argument (some next) with
      | .withValue s => optionLoop mode s rest
      | .alone s => optionLoop mode s (next :: rest)
      | .failed => .failed expiresError
      | .usage => .usage

/-- `arguments` are those behind the program's name. -/
def parseCommandLine (arguments : List Bytes) : CommandResult :=
  if arguments = [ascii "--help"] then .help
  else
    match arguments with
    | [] => optionLoop .node .initial []
    | word :: rest =>
        if word = ascii "status" then optionLoop .status .initial rest
        else if word = ascii "invite" then optionLoop .invite .initial rest
        else if word = ascii "join" then
          match rest with
          | [] => .usage
          | token :: rest =>
              if (ascii "--").isPrefixOf token then .usage
              else
                match inviteDecode x token with
                | .error error => .failed error
                | .ok _ => optionLoop (.join token) .initial rest
        else optionLoop .node .initial (word :: rest)

/-! ## Options -/

inductive OptionName where
  | config
  | listen
  | sharePorts
  | expires
  | check
deriving DecidableEq

/-- An option as it is written, with its value. -/
inductive CommandOption where
  | config (path : Bytes)
  | listen (endpoint : Bytes)
  | sharePorts (ports : Bytes)
  | expires (minutes : Bytes)
  | check

def CommandOption.name : CommandOption → OptionName
  | .config _ => .config
  | .listen _ => .listen
  | .sharePorts _ => .sharePorts
  | .expires _ => .expires
  | .check => .check

/-- The arguments that make up the option. -/
def CommandOption.words : CommandOption → List Bytes
  | .config path => [ascii "--config", path]
  | .listen endpoint => [ascii "--listen", endpoint]
  | .sharePorts ports => [ascii "--share-ports", ports]
  | .expires minutes => [ascii "--expires", minutes]
  | .check => [ascii "--check"]

/-- The mode takes the option, and its value is one. -/
def CommandMode.Takes (mode : CommandMode) : CommandOption → Prop
  | .config path => isValue path
  | .listen endpoint => isValue endpoint
  | .sharePorts ports => isValue ports ∧ mode ≠ .status ∧ mode ≠ .invite
  | .expires minutes => isValue minutes ∧ mode = .invite ∧ (parseMinutes minutes).isSome
  | .check => mode = .node

def CommandArguments.set (s : CommandArguments) : CommandOption → CommandArguments
  | .config path => { s with configPath := path }
  | .listen endpoint => { s with listenArg := endpoint }
  | .sharePorts ports => { s with sharePortsArg := ports }
  | .expires minutes =>
      { s with
          expiresSet := true
          inviteLifetimeSeconds := UInt64.ofNat ((parseMinutes minutes).getD 0) * 60 }
  | .check => { s with check := true }

/-- The option of that name has been met. -/
def CommandArguments.Has (s : CommandArguments) : OptionName → Prop
  | .config => s.configPath ≠ []
  | .listen => s.listenArg ≠ []
  | .sharePorts => s.sharePortsArg ≠ []
  | .expires => s.expiresSet = true
  | .check => s.check = true

/-- Options that a mode takes, none of a name twice nor of one met before. -/
structure CommandMode.Accepts (mode : CommandMode) (s : CommandArguments)
    (options : List CommandOption) : Prop where
  distinct : (options.map CommandOption.name).Nodup
  taken : ∀ option ∈ options, mode.Takes option
  unmet : ∀ option ∈ options, ¬ s.Has option.name

/-- The words in front of the options. -/
def CommandMode.words : CommandMode → List Bytes
  | .node => []
  | .status => [ascii "status"]
  | .invite => [ascii "invite"]
  | .join token => [ascii "join", token]

/-- A mode that can be chosen: the token of a join is an invitation. -/
def CommandMode.Valid : CommandMode → Prop
  | .join token =>
      ¬ (ascii "--").isPrefixOf token = true ∧ ∃ ticket, inviteDecode x token = .ok ticket
  | _ => True

/-! ## One turn -/

variable {x} {mode : CommandMode} {s s' : CommandArguments} {argument : Bytes}
  {next : Option Bytes}

theorem ne_nil_of_isValue {value : Bytes} (h : isValue value = true) : value ≠ [] := by
  rintro rfl
  simp [isValue] at h

theorem valueBehind_some {value : Bytes} (h : isValue value = true) :
    valueBehind (some value) = value :=
  if_pos h

theorem valueBehind_cases (next : Option Bytes) :
    valueBehind next = []
    ∨ ∃ value, next = some value ∧ isValue value = true ∧ valueBehind next = value := by
  cases next with
  | none => exact .inl rfl
  | some value =>
      by_cases hvalue : isValue value = true
      · exact .inr ⟨value, rfl, hvalue, valueBehind_some hvalue⟩
      · exact .inl (if_neg hvalue)

/-- What one turn can do: it sets an option that the mode takes and that was
not met, stops at a value of `--expires` out of bounds, or is refused. -/
theorem optionTurn_cases (mode : CommandMode) (s : CommandArguments) (argument : Bytes)
    (next : Option Bytes) :
    optionTurn mode s argument next = .usage
    ∨ (∃ value option, next = some value ∧ option.words = [argument, value] ∧ mode.Takes option
        ∧ ¬ s.Has option.name ∧ optionTurn mode s argument next = .withValue (s.set option))
    ∨ (CommandOption.check.words = [argument] ∧ mode.Takes .check ∧ ¬ s.Has .check
        ∧ optionTurn mode s argument next = .alone (s.set .check))
    ∨ argument = ascii "--expires" ∧ mode = .invite ∧ ¬ s.Has .expires
      ∧ (∃ value, next = some value ∧ isValue value = true ∧ parseMinutes value = none)
      ∧ optionTurn mode s argument next = .failed := by
  have hvalue : valueBehind next ≠ [] →
      next = some (valueBehind next) ∧ isValue (valueBehind next) = true := by
    intro hne
    rcases valueBehind_cases next with hnone | ⟨value, rfl, hvalue, hread⟩
    · exact absurd hnone hne
    · rw [hread]
      exact ⟨rfl, hvalue⟩
  unfold optionTurn
  dsimp only
  split
  · rename_i hconfig
    obtain ⟨hnext, htakes⟩ := hvalue hconfig.2.2
    exact .inr (.inl ⟨_, .config (valueBehind next), hnext, by rw [hconfig.1]; rfl, htakes,
      fun hmet => hmet hconfig.2.1, rfl⟩)
  · split
    · rename_i hlisten
      obtain ⟨hnext, htakes⟩ := hvalue hlisten.2.2
      exact .inr (.inl ⟨_, .listen (valueBehind next), hnext, by rw [hlisten.1]; rfl, htakes,
        fun hmet => hmet hlisten.2.1, rfl⟩)
    · split
      · rename_i hports
        obtain ⟨hnext, htakes⟩ := hvalue hports.2.2.2.2
        exact .inr (.inl ⟨_, .sharePorts (valueBehind next), hnext, by rw [hports.1]; rfl,
          ⟨htakes, hports.2.1, hports.2.2.1⟩, fun hmet => hmet hports.2.2.2.1, rfl⟩)
      · split
        · rename_i hexpires
          obtain ⟨hnext, htakes⟩ := hvalue hexpires.2.2.2
          have hunmet : ¬ s.Has .expires := by simp [CommandArguments.Has, hexpires.2.2.1]
          split
          · rename_i hminutes
            exact .inr (.inr (.inr ⟨hexpires.1, hexpires.2.1, hunmet, ⟨_, hnext, htakes, hminutes⟩,
              rfl⟩))
          · rename_i minutes hminutes
            refine .inr (.inl ⟨_, .expires (valueBehind next), hnext, by rw [hexpires.1]; rfl,
              ⟨htakes, hexpires.2.1, by rw [hminutes]; rfl⟩, hunmet, ?_⟩)
            simp [CommandArguments.set, hminutes]
        · split
          · rename_i hcheck
            refine .inr (.inr (.inl ⟨by rw [hcheck.1]; rfl, hcheck.2.2, ?_, rfl⟩))
            simp [CommandArguments.Has, hcheck.2.1]
          · exact .inl rfl

/-- Conversely, an option that the mode takes and that was not met is taken. -/
theorem optionTurn_of_takes {option : CommandOption} (htakes : mode.Takes option)
    (hunmet : ¬ s.Has option.name) :
    (∃ argument value, option.words = [argument, value]
        ∧ optionTurn mode s argument (some value) = .withValue (s.set option))
    ∨ ∃ argument, option.words = [argument]
        ∧ ∀ next, optionTurn mode s argument next = .alone (s.set option) := by
  cases option with
  | config path =>
      have hvalue : isValue path = true := htakes
      have hmet : s.configPath = [] := by
        simpa [CommandArguments.Has, CommandOption.name] using hunmet
      refine .inl ⟨_, path, rfl, ?_⟩
      unfold optionTurn
      dsimp only
      rw [valueBehind_some hvalue, if_pos ⟨rfl, hmet, ne_nil_of_isValue hvalue⟩]
      rfl
  | listen endpoint =>
      have hvalue : isValue endpoint = true := htakes
      have hmet : s.listenArg = [] := by
        simpa [CommandArguments.Has, CommandOption.name] using hunmet
      refine .inl ⟨_, endpoint, rfl, ?_⟩
      unfold optionTurn
      dsimp only
      -- each branch in front is for another word
      rw [valueBehind_some hvalue, if_neg fun h => absurd h.1 (by decide),
        if_pos ⟨rfl, hmet, ne_nil_of_isValue hvalue⟩]
      rfl
  | sharePorts ports =>
      obtain ⟨hvalue, hstatus, hinvite⟩ := htakes
      have hmet : s.sharePortsArg = [] := by
        simpa [CommandArguments.Has, CommandOption.name] using hunmet
      refine .inl ⟨_, ports, rfl, ?_⟩
      unfold optionTurn
      dsimp only
      rw [valueBehind_some hvalue, if_neg fun h => absurd h.1 (by decide),
        if_neg fun h => absurd h.1 (by decide),
        if_pos ⟨rfl, hstatus, hinvite, hmet, ne_nil_of_isValue hvalue⟩]
      rfl
  | expires minutes =>
      obtain ⟨hvalue, hinvite, hread⟩ := htakes
      obtain ⟨read, hread⟩ := Option.isSome_iff_exists.mp hread
      have hmet : s.expiresSet = false := by
        simpa [CommandArguments.Has, CommandOption.name] using hunmet
      refine .inl ⟨_, minutes, rfl, ?_⟩
      unfold optionTurn
      dsimp only
      rw [valueBehind_some hvalue, if_neg fun h => absurd h.1 (by decide),
        if_neg fun h => absurd h.1 (by decide), if_neg fun h => absurd h.1 (by decide),
        if_pos ⟨rfl, hinvite, hmet, ne_nil_of_isValue hvalue⟩, hread]
      simp [CommandArguments.set, hread]
  | check =>
      have hmet : s.check = false := by
        simpa [CommandArguments.Has, CommandOption.name] using hunmet
      refine .inr ⟨_, rfl, fun next => ?_⟩
      unfold optionTurn
      dsimp only
      rw [if_neg fun h => absurd h.1 (by decide), if_neg fun h => absurd h.1 (by decide),
        if_neg fun h => absurd h.1 (by decide), if_neg fun h => absurd h.1 (by decide),
        if_pos ⟨rfl, hmet, htakes⟩]
      rfl

/-! ## The whole loop -/

theorem has_set {option : CommandOption} (htakes : mode.Takes option) (name : OptionName) :
    (s.set option).Has name ↔ s.Has name ∨ name = option.name := by
  cases option with
  | config path =>
      have hne : path ≠ [] := ne_nil_of_isValue htakes
      cases name <;> simp [CommandArguments.Has, CommandArguments.set, CommandOption.name, hne]
  | listen endpoint =>
      have hne : endpoint ≠ [] := ne_nil_of_isValue htakes
      cases name <;> simp [CommandArguments.Has, CommandArguments.set, CommandOption.name, hne]
  | sharePorts ports =>
      have hne : ports ≠ [] := ne_nil_of_isValue htakes.1
      cases name <;> simp [CommandArguments.Has, CommandArguments.set, CommandOption.name, hne]
  | expires minutes =>
      cases name <;> simp [CommandArguments.Has, CommandArguments.set, CommandOption.name]
  | check =>
      cases name <;> simp [CommandArguments.Has, CommandArguments.set, CommandOption.name]

theorem accepts_nil (mode : CommandMode) (s : CommandArguments) : mode.Accepts s [] where
  distinct := List.nodup_nil
  taken := by simp
  unmet := by simp

/-- To be accepted is to be taken, and then the others on what that leaves. -/
theorem accepts_cons {option : CommandOption} {options : List CommandOption} :
    mode.Accepts s (option :: options) ↔
      mode.Takes option ∧ ¬ s.Has option.name ∧ mode.Accepts (s.set option) options := by
  constructor
  · intro h
    have htakes := h.taken option List.mem_cons_self
    obtain ⟨hfirst, hdistinct⟩ := List.nodup_cons.mp h.distinct
    refine ⟨htakes, h.unmet option List.mem_cons_self, hdistinct,
      fun o ho => h.taken o (List.mem_cons_of_mem _ ho), fun o ho hmet => ?_⟩
    rcases (has_set htakes o.name).mp hmet with hmet | hname
    · exact h.unmet o (List.mem_cons_of_mem _ ho) hmet
    · apply hfirst
      rw [← hname]
      exact List.mem_map_of_mem ho
  · intro h
    obtain ⟨htakes, hunmet, hrest⟩ := h
    have hother : ∀ o ∈ options, ¬ s.Has o.name ∧ o.name ≠ option.name := by
      intro o ho
      have hfree := hrest.unmet o ho
      rw [has_set htakes, not_or] at hfree
      exact hfree
    constructor
    · refine List.nodup_cons.mpr ⟨fun hmem => ?_, hrest.distinct⟩
      obtain ⟨o, ho, hname⟩ := List.mem_map.mp hmem
      exact (hother o ho).2 hname
    · intro o ho
      rcases List.mem_cons.mp ho with rfl | ho
      · exact htakes
      · exact hrest.taken o ho
    · intro o ho
      rcases List.mem_cons.mp ho with rfl | ho
      · exact hunmet
      · exact (hother o ho).1

/-- The loop takes an option and goes on. -/
theorem optionLoop_words {option : CommandOption} (htakes : mode.Takes option)
    (hunmet : ¬ s.Has option.name) (rest : List Bytes) :
    optionLoop mode s (option.words ++ rest) = optionLoop mode (s.set option) rest := by
  rcases optionTurn_of_takes htakes hunmet
    with ⟨argument, value, hwords, hturn⟩ | ⟨argument, hwords, hturn⟩
  · rw [hwords, List.cons_append, List.cons_append, List.nil_append, optionLoop, hturn]
  · rw [hwords, List.cons_append, List.nil_append]
    cases rest with
    | nil => simp only [optionLoop, hturn]
    | cons next rest => rw [optionLoop, hturn]

theorem optionLoop_options {options : List CommandOption} (h : mode.Accepts s options)
    (rest : List Bytes) :
    optionLoop mode s (options.flatMap CommandOption.words ++ rest)
      = optionLoop mode (options.foldl CommandArguments.set s) rest := by
  induction options generalizing s with
  | nil => rfl
  | cons option options ih =>
      obtain ⟨htakes, hunmet, hrest⟩ := accepts_cons.mp h
      rw [List.flatMap_cons, List.append_assoc, optionLoop_words htakes hunmet, ih hrest,
        List.foldl_cons]

/-- What is behind accepted options when the loop stops at an error. -/
structure CommandMode.Stops (mode : CommandMode) (s : CommandArguments) (rest : List Bytes) :
    Prop where
  mode : mode = .invite
  unmet : ¬ s.Has .expires
  value : ∃ value more, rest = ascii "--expires" :: value :: more
    ∧ isValue value = true ∧ parseMinutes value = none

theorem optionLoop_stops {rest : List Bytes} (h : mode.Stops s rest) :
    optionLoop mode s rest = .failed expiresError := by
  obtain ⟨hmode, hunmet, value, more, rfl, hvalue, hminutes⟩ := h
  have hmet : s.expiresSet = false := by simpa [CommandArguments.Has] using hunmet
  have hturn : optionTurn mode s (ascii "--expires") (some value) = .failed := by
    unfold optionTurn
    dsimp only
    rw [valueBehind_some hvalue, if_neg fun h => absurd h.1 (by decide),
      if_neg fun h => absurd h.1 (by decide), if_neg fun h => absurd h.1 (by decide),
      if_pos ⟨rfl, hmode, hmet, ne_nil_of_isValue hvalue⟩, hminutes]
  rw [optionLoop, hturn]

/-- Either accepted options are all there is, or the loop stops behind them at
the error of `--expires`, or it ends with the usage. -/
theorem optionLoop_cases (mode : CommandMode) (s : CommandArguments) (arguments : List Bytes) :
    optionLoop mode s arguments = .usage
    ∨ ∃ options rest, mode.Accepts s options
      ∧ arguments = options.flatMap CommandOption.words ++ rest
      ∧ (rest = [] ∨ mode.Stops (options.foldl CommandArguments.set s) rest) := by
  -- the options that a turn has taken, in front of those of the rest
  have hcons : ∀ {s : CommandArguments} {option : CommandOption} {rest : List Bytes},
      mode.Takes option → ¬ s.Has option.name →
      (∃ options more, mode.Accepts (s.set option) options
        ∧ rest = options.flatMap CommandOption.words ++ more
        ∧ (more = [] ∨ mode.Stops (options.foldl CommandArguments.set (s.set option)) more)) →
      ∃ options more, mode.Accepts s options
        ∧ option.words ++ rest = options.flatMap CommandOption.words ++ more
        ∧ (more = [] ∨ mode.Stops (options.foldl CommandArguments.set s) more) := by
    intro s option rest htakes hunmet hrest
    obtain ⟨options, more, haccepts, rfl, hend⟩ := hrest
    refine ⟨option :: options, more, accepts_cons.mpr ⟨htakes, hunmet, haccepts⟩, ?_, hend⟩
    rw [List.flatMap_cons, List.append_assoc]
  -- a turn takes one argument or two
  induction arguments using List.twoStepInduction generalizing s with
  | nil => exact .inr ⟨[], [], accepts_nil mode s, rfl, .inl rfl⟩
  | singleton argument =>
      rcases optionTurn_cases mode s argument none with hturn | ⟨_, _, hnext, _⟩
        | ⟨hwords, htakes, hunmet, hturn⟩ | ⟨_, _, _, ⟨_, hnext, _⟩, _⟩
      · exact .inl (by rw [optionLoop, hturn])
      · cases hnext
      · have hmore := hcons htakes hunmet ⟨[], [], accepts_nil mode _, rfl, .inl rfl⟩
        rw [hwords] at hmore
        exact .inr hmore
      · cases hnext
  | cons_cons argument next rest ih ih' =>
      rcases optionTurn_cases mode s argument (some next) with hturn
        | ⟨_, option, hnext, hwords, htakes, hunmet, hturn⟩ | ⟨hwords, htakes, hunmet, hturn⟩
        | ⟨rfl, hmode, hunmet, ⟨_, hnext, hvalue, hminutes⟩, hturn⟩
      · exact .inl (by rw [optionLoop, hturn])
      · cases hnext
        rcases ih (s.set option) with husage | hrest
        · left
          rw [optionLoop, hturn]
          exact husage
        · have hmore := hcons htakes hunmet hrest
          rw [hwords] at hmore
          exact .inr hmore
      · rcases ih' next (s.set .check) with husage | hrest
        · left
          rw [optionLoop, hturn]
          exact husage
        · have hmore := hcons htakes hunmet hrest
          rw [hwords] at hmore
          exact .inr hmore
      · cases hnext
        exact .inr ⟨[], _, accepts_nil mode s, rfl,
          .inr ⟨hmode, hunmet, _, _, rfl, hvalue, hminutes⟩⟩

/-! ## The whole command line -/

/-- Nothing that begins with an option, or is empty, is taken for a mode. -/
theorem options_words (options : List CommandOption) :
    options.flatMap CommandOption.words = [] ∨ ∃ word more,
      options.flatMap CommandOption.words = word :: more ∧ word ≠ ascii "--help"
        ∧ word ≠ ascii "status" ∧ word ≠ ascii "invite" ∧ word ≠ ascii "join" := by
  cases options with
  | nil => exact .inl rfl
  | cons option options =>
      right
      cases option with
      | config path => exact ⟨_, _, rfl, by decide⟩
      | listen endpoint => exact ⟨_, _, rfl, by decide⟩
      | sharePorts ports => exact ⟨_, _, rfl, by decide⟩
      | expires minutes => exact ⟨_, _, rfl, by decide⟩
      | check => exact ⟨_, _, rfl, by decide⟩

/-- A command line whose words in front make up a mode is left to the loop. -/
theorem parseCommandLine_mode (hvalid : mode.Valid x) {rest : List Bytes}
    (hrest : mode = .node → rest = [] ∨ ∃ word more, rest = word :: more ∧ word ≠ ascii "--help"
      ∧ word ≠ ascii "status" ∧ word ≠ ascii "invite" ∧ word ≠ ascii "join") :
    parseCommandLine x (mode.words ++ rest) = optionLoop mode .initial rest := by
  have hhelp : ∀ {word : Bytes} (more : List Bytes), word ≠ ascii "--help" →
      word :: more ≠ [ascii "--help"] := fun more hne heq => hne (List.cons.inj heq).1
  cases mode with
  | node =>
      rcases hrest rfl with rfl | ⟨word, more, rfl, hword, hstatus, hinvite, hjoin⟩
      · rfl
      · rw [CommandMode.words, List.nil_append]
        unfold parseCommandLine
        rw [if_neg (hhelp more hword)]
        dsimp only
        rw [if_neg hstatus, if_neg hinvite, if_neg hjoin]
  | status =>
      rw [CommandMode.words, List.singleton_append]
      unfold parseCommandLine
      rw [if_neg (hhelp rest (by decide))]
      exact if_pos rfl
  | invite =>
      rw [CommandMode.words, List.singleton_append]
      unfold parseCommandLine
      rw [if_neg (hhelp rest (by decide))]
      dsimp only
      rw [if_neg (by decide), if_pos rfl]
  | join token =>
      obtain ⟨htoken, ticket, hdecode⟩ := hvalid
      rw [CommandMode.words, List.cons_append, List.singleton_append]
      unfold parseCommandLine
      rw [if_neg (hhelp _ (by decide))]
      dsimp only
      rw [if_neg (by decide), if_neg (by decide), if_pos rfl, if_neg htoken, hdecode]

/-- Any command line is one of a mode, unless it ends with the help, the usage
or a token that is no invitation. -/
theorem parseCommandLine_cases (x : External) (arguments : List Bytes) :
    parseCommandLine x arguments = .help ∨ parseCommandLine x arguments = .usage
    ∨ (∃ token rest error, arguments = ascii "join" :: token :: rest
        ∧ ¬ (ascii "--").isPrefixOf token = true ∧ inviteDecode x token = .error error
        ∧ parseCommandLine x arguments = .failed error)
    ∨ ∃ mode rest, mode.Valid x ∧ arguments = mode.words ++ rest
      ∧ parseCommandLine x arguments = optionLoop mode .initial rest := by
  unfold parseCommandLine
  split
  · exact .inl rfl
  · right
    cases arguments with
    | nil => exact .inr (.inr ⟨.node, [], trivial, rfl, rfl⟩)
    | cons word rest =>
        dsimp only
        split
        · rename_i hword
          subst hword
          exact .inr (.inr ⟨.status, rest, trivial, rfl, rfl⟩)
        · split
          · rename_i hword
            subst hword
            exact .inr (.inr ⟨.invite, rest, trivial, rfl, rfl⟩)
          · split
            · rename_i hword
              subst hword
              cases rest with
              | nil => exact .inl rfl
              | cons token rest =>
                  dsimp only
                  split
                  · exact .inl rfl
                  · rename_i htoken
                    cases hdecode : inviteDecode x token with
                    | error error =>
                        exact .inr (.inl ⟨token, rest, error, rfl, htoken, hdecode, rfl⟩)
                    | ok ticket =>
                        exact .inr (.inr ⟨.join token, rest, ⟨htoken, ticket, hdecode⟩, rfl, rfl⟩)
            · exact .inr (.inr ⟨.node, word :: rest, trivial, rfl, rfl⟩)

theorem set_comm (s : CommandArguments) {first second : CommandOption}
    (h : first.name ≠ second.name) : (s.set first).set second = (s.set second).set first := by
  cases first <;> cases second <;> first | rfl | exact absurd rfl h

/-- In which order the options come does not matter. -/
theorem foldl_set_perm {options options' : List CommandOption} (hperm : options.Perm options')
    (hdistinct : (options.map CommandOption.name).Nodup) (s : CommandArguments) :
    options.foldl CommandArguments.set s = options'.foldl CommandArguments.set s := by
  refine hperm.foldl_eq' (fun first hfirst second hsecond z => ?_) s
  by_cases hname : first.name = second.name
  · rw [List.inj_on_of_nodup_map hdistinct hfirst hsecond hname]
  · exact set_comm z hname

theorem CommandMode.Accepts.perm {options options' : List CommandOption}
    (h : mode.Accepts s options) (hperm : options.Perm options') : mode.Accepts s options' where
  distinct := (hperm.map _).nodup_iff.mp h.distinct
  taken option hoption := h.taken option (hperm.mem_iff.mpr hoption)
  unmet option hoption := h.unmet option (hperm.mem_iff.mpr hoption)

theorem optionLoop_accepted {options : List CommandOption} (h : mode.Accepts s options) :
    optionLoop mode s (options.flatMap CommandOption.words)
      = .parsed mode (options.foldl CommandArguments.set s) := by
  have hall := optionLoop_options h []
  rw [List.append_nil] at hall
  rw [hall, optionLoop]

theorem parseCommandLine_accepted (hvalid : mode.Valid x) {options : List CommandOption}
    (h : mode.Accepts .initial options) :
    parseCommandLine x (mode.words ++ options.flatMap CommandOption.words)
      = .parsed mode (options.foldl CommandArguments.set .initial) := by
  rw [parseCommandLine_mode hvalid fun _ => options_words options, optionLoop_accepted h]

/-- A command line that is not refused is accepted, or stops at `--expires`. -/
theorem parseCommandLine_read (x : External) (arguments : List Bytes) :
    parseCommandLine x arguments = .help ∨ parseCommandLine x arguments = .usage
    ∨ (∃ token rest error, arguments = ascii "join" :: token :: rest
        ∧ ¬ (ascii "--").isPrefixOf token = true ∧ inviteDecode x token = .error error
        ∧ parseCommandLine x arguments = .failed error)
    ∨ ∃ mode options rest, mode.Valid x ∧ mode.Accepts .initial options
      ∧ arguments = mode.words ++ (options.flatMap CommandOption.words ++ rest)
      ∧ (rest = [] ∧ parseCommandLine x arguments
            = .parsed mode (options.foldl CommandArguments.set .initial)
        ∨ mode.Stops (options.foldl CommandArguments.set .initial) rest
          ∧ parseCommandLine x arguments = .failed expiresError) := by
  rcases parseCommandLine_cases x arguments with hend | hend | hend | ⟨mode, rest, hvalid, rfl, hend⟩
  · exact .inl hend
  · exact .inr (.inl hend)
  · exact .inr (.inr (.inl hend))
  · rw [hend]
    rcases optionLoop_cases mode .initial rest
      with husage | ⟨options, more, haccepts, rfl, hmore | hstops⟩
    · exact .inr (.inl husage)
    · refine .inr (.inr (.inr ⟨mode, options, more, hvalid, haccepts, rfl, .inl ⟨hmore, ?_⟩⟩))
      rw [hmore, List.append_nil, optionLoop_accepted haccepts]
    · refine .inr (.inr (.inr ⟨mode, options, more, hvalid, haccepts, rfl, .inr ⟨hstops, ?_⟩⟩))
      rw [optionLoop_options haccepts, optionLoop_stops hstops]

theorem parseCommandLine_parsed (x : External) (arguments : List Bytes) (mode : CommandMode)
    (s : CommandArguments) :
    parseCommandLine x arguments = .parsed mode s ↔
      mode.Valid x ∧ ∃ options, mode.Accepts .initial options
        ∧ arguments = mode.words ++ options.flatMap CommandOption.words
        ∧ s = options.foldl CommandArguments.set .initial := by
  constructor
  · intro h
    rcases parseCommandLine_read x arguments with hend | hend | ⟨_, _, _, _, _, _, hend⟩
      | ⟨mode', options, rest, hvalid, haccepts, harguments, ⟨rfl, hend⟩ | ⟨_, hend⟩⟩
    · cases h.symm.trans hend
    · cases h.symm.trans hend
    · cases h.symm.trans hend
    · cases h.symm.trans hend
      rw [List.append_nil] at harguments
      exact ⟨hvalid, options, haccepts, harguments, rfl⟩
    · cases h.symm.trans hend
  · rintro ⟨hvalid, options, haccepts, rfl, rfl⟩
    exact parseCommandLine_accepted hvalid haccepts

theorem parseCommandLine_failed (x : External) (arguments : List Bytes) (error : String) :
    parseCommandLine x arguments = .failed error ↔
      (∃ token rest, arguments = ascii "join" :: token :: rest
        ∧ ¬ (ascii "--").isPrefixOf token = true ∧ inviteDecode x token = .error error)
      ∨ error = expiresError ∧ ∃ options rest,
        arguments = ascii "invite" :: (options.flatMap CommandOption.words ++ rest)
        ∧ CommandMode.invite.Accepts .initial options
        ∧ CommandMode.invite.Stops (options.foldl CommandArguments.set .initial) rest := by
  constructor
  · intro h
    rcases parseCommandLine_read x arguments with hend | hend
      | ⟨token, rest, _, hjoin, htoken, hdecode, hend⟩
      | ⟨mode', options, rest, hvalid, haccepts, harguments, ⟨_, hend⟩ | ⟨hstops, hend⟩⟩
    · cases h.symm.trans hend
    · cases h.symm.trans hend
    · cases h.symm.trans hend
      exact .inl ⟨token, rest, hjoin, htoken, hdecode⟩
    · cases h.symm.trans hend
    · cases h.symm.trans hend
      have hmode := hstops.mode
      subst hmode
      exact .inr ⟨rfl, options, rest, harguments, haccepts, hstops⟩
  · rintro (⟨token, rest, rfl, htoken, hdecode⟩ | ⟨rfl, options, rest, rfl, haccepts, hstops⟩)
    · unfold parseCommandLine
      rw [if_neg (by simp)]
      dsimp only
      rw [if_neg (by decide), if_neg (by decide), if_pos rfl, if_neg htoken, hdecode]
    · have hinvite : CommandMode.invite.Valid x := trivial
      have hmode : parseCommandLine x
          (CommandMode.invite.words ++ (options.flatMap CommandOption.words ++ rest))
            = optionLoop .invite .initial (options.flatMap CommandOption.words ++ rest) :=
        parseCommandLine_mode hinvite fun h => by cases h
      rw [optionLoop_options haccepts, optionLoop_stops hstops] at hmode
      exact hmode

/-- A lifetime that `invite_generate` does not refuse. -/
def CommandArguments.LifetimeFits (s : CommandArguments) : Prop :=
  s.inviteLifetimeSeconds ≠ 0 ∧ s.inviteLifetimeSeconds ≤ maxInviteLifetimeSeconds

theorem lifetimeFits_set (h : s.LifetimeFits) {option : CommandOption} (htakes : mode.Takes option) :
    (s.set option).LifetimeFits := by
  cases option with
  | expires minutes =>
      obtain ⟨-, -, hread⟩ := htakes
      obtain ⟨n, hn⟩ := Option.isSome_iff_exists.mp hread
      have hbounds : n ≠ 0 ∧ n ≤ 1440 := by
        unfold parseMinutes at hn
        split at hn
        · rename_i hfits
          cases hn
          exact ⟨hfits.2.2.2.1, hfits.2.2.2.2⟩
        · cases hn
      have hseconds : (UInt64.ofNat n * 60).toNat = n * 60 := by
        rw [UInt64.toNat_mul, UInt64.toNat_ofNat']
        have hsixty : (60 : UInt64).toNat = 60 := rfl
        rw [hsixty]
        omega
      show (UInt64.ofNat ((parseMinutes minutes).getD 0) * 60) ≠ 0
        ∧ (UInt64.ofNat ((parseMinutes minutes).getD 0) * 60) ≤ maxInviteLifetimeSeconds
      rw [hn, Option.getD_some]
      constructor
      · intro hzero
        rw [hzero] at hseconds
        have hnone : (0 : UInt64).toNat = 0 := rfl
        omega
      · have hmax : maxInviteLifetimeSeconds.toNat = 86400 := rfl
        rw [UInt64.le_iff_toNat_le, hseconds, hmax]
        omega
  | _ => exact h

theorem lifetimeFits_foldl {options : List CommandOption} (hoptions : ∀ o ∈ options, mode.Takes o)
    (h : s.LifetimeFits) : (options.foldl CommandArguments.set s).LifetimeFits := by
  induction options generalizing s with
  | nil => exact h
  | cons option options ih =>
      exact ih (fun o ho => hoptions o (List.mem_cons_of_mem _ ho))
        (lifetimeFits_set h (hoptions option List.mem_cons_self))

/-- The command lines that are accepted are exactly the words of a mode and
then options that it takes, none twice; in whichever order these come, the
program goes on with what they say, and with a lifetime that an invitation can
have. An error is reported exactly for a token that is no invitation and, in
the mode that invites, for a value of `--expires` out of bounds behind options
that are accepted. -/
theorem commandLine_exact (x : External) :
    (∀ arguments mode s, parseCommandLine x arguments = .parsed mode s ↔
      mode.Valid x ∧ ∃ options, mode.Accepts .initial options
        ∧ arguments = mode.words ++ options.flatMap CommandOption.words
        ∧ s = options.foldl CommandArguments.set .initial)
    ∧ (∀ mode options options', mode.Valid x → mode.Accepts .initial options →
      options.Perm options' →
        parseCommandLine x (mode.words ++ options'.flatMap CommandOption.words)
          = .parsed mode (options.foldl CommandArguments.set .initial))
    ∧ (∀ arguments mode s, parseCommandLine x arguments = .parsed mode s → s.LifetimeFits)
    ∧ ∀ arguments error, parseCommandLine x arguments = .failed error ↔
      (∃ token rest, arguments = ascii "join" :: token :: rest
        ∧ ¬ (ascii "--").isPrefixOf token = true ∧ inviteDecode x token = .error error)
      ∨ error = expiresError ∧ ∃ options rest,
        arguments = ascii "invite" :: (options.flatMap CommandOption.words ++ rest)
        ∧ CommandMode.invite.Accepts .initial options
        ∧ CommandMode.invite.Stops (options.foldl CommandArguments.set .initial) rest := by
  refine ⟨parseCommandLine_parsed x, ?_, ?_, parseCommandLine_failed x⟩
  · intro mode options options' hvalid haccepts hperm
    rw [foldl_set_perm hperm haccepts.distinct,
      parseCommandLine_accepted hvalid (haccepts.perm hperm)]
  · intro arguments mode s h
    obtain ⟨-, options, haccepts, -, rfl⟩ := (parseCommandLine_parsed x arguments mode s).mp h
    exact lifetimeFits_foldl haccepts.taken ⟨by decide, by decide⟩

end Madoka
