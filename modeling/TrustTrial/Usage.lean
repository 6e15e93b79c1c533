import TrustTrial.Text.Numeral

/-!
# TrustTrial.Usage

The arguments of the command line. Settings take a value, given with the flag or as the next
argument; switches take none. Each may be given once, except that scenarios add up. Short flags may
be joined. Nothing else is accepted, and the first trouble from the left counts; a value that is
given apart from its flag is judged when the next known flag or the end is reached.
-/

namespace TrustTrial

/-- What the command line says. -/
structure Arguments where
  reponame : Option String
  server : Option String
  username : Option String
  config : Option String
  binary : Option String
  timeout : Option Nat
  scenarios : List String
  skipWait : Bool
  verbose : Bool
  logFile : Option String
  deriving DecidableEq, Repr

/-- Why the command line was not accepted. Asking for help or for the version is among the reasons,
since nothing is run then. -/
inductive Misuse where
  | unknownArgument
  | invalidValue
  | valueValidation
  | argumentConflict
  | tooManyValues
  | displayHelp
  | displayVersion
  deriving DecidableEq, Repr

namespace Usage

inductive Setting where
  | reponame
  | server
  | username
  | config
  | binary
  | timeout
  | scenario
  | logFile
  deriving DecidableEq, Repr

inductive Switch where
  | skipWait
  | verbose
  | help
  | version
  deriving DecidableEq, Repr

inductive Flag where
  | setting (s : Setting)
  | switch (s : Switch)
  deriving DecidableEq, Repr

def long? (name : String) : Option Flag :=
  match name with
  | "reponame" => some (.setting .reponame)
  | "server" => some (.setting .server)
  | "username" => some (.setting .username)
  | "config" => some (.setting .config)
  | "binary" => some (.setting .binary)
  | "timeout" => some (.setting .timeout)
  | "scenario" => some (.setting .scenario)
  | "log-file" => some (.setting .logFile)
  | "skip-wait" => some (.switch .skipWait)
  | "verbose" => some (.switch .verbose)
  | "help" => some (.switch .help)
  | "version" => some (.switch .version)
  | _ => none

def short? (c : Char) : Option Flag :=
  match c with
  | 'r' => some (.setting .reponame)
  | 's' => some (.setting .server)
  | 'u' => some (.setting .username)
  | 'c' => some (.setting .config)
  | 'v' => some (.switch .verbose)
  | 'h' => some (.switch .help)
  | 'V' => some (.switch .version)
  | _ => none

def blank : Arguments :=
  ⟨none, none, none, none, none, none, [], false, false, none⟩

/-! ## Values -/

def once {α : Type} (old : Option α) (new : Except Misuse α) : Except Misuse (Option α) :=
  match old with
  | some _ => .error .argumentConflict
  | none =>
    match new with
    | .error misuse => .error misuse
    | .ok a => .ok (some a)

def path (value : String) : Except Misuse String :=
  if value.isEmpty then .error .invalidValue else .ok value

def seconds (value : String) : Except Misuse Nat :=
  match Text.natUpTo? Text.maxWord value with
  | none => .error .valueValidation
  | some n => .ok n

/-- Gives a setting its value. -/
def put (a : Arguments) (value : String) : Setting → Except Misuse Arguments
  | .reponame => (once a.reponame (.ok value)).map (fun v => { a with reponame := v })
  | .server => (once a.server (.ok value)).map (fun v => { a with server := v })
  | .username => (once a.username (.ok value)).map (fun v => { a with username := v })
  | .config => (once a.config (path value)).map (fun v => { a with config := v })
  | .binary => (once a.binary (path value)).map (fun v => { a with binary := v })
  | .timeout => (once a.timeout (seconds value)).map (fun v => { a with timeout := v })
  | .scenario => .ok { a with scenarios := a.scenarios ++ [value] }
  | .logFile => (once a.logFile (path value)).map (fun v => { a with logFile := v })

def turnOn (a : Arguments) : Switch → Except Misuse Arguments
  | .skipWait => if a.skipWait then .error .argumentConflict else .ok { a with skipWait := true }
  | .verbose => if a.verbose then .error .argumentConflict else .ok { a with verbose := true }
  | .help => .error .displayHelp
  | .version => .error .displayVersion

/-! ## Reading -/

/-- The arguments so far, and a setting that has come without a value, with the value if that has
come since. -/
structure Progress where
  read : Arguments
  waiting : Option (Setting × Option String)

/-- Settles the setting that waits. -/
def Progress.settle (p : Progress) : Except Misuse Arguments :=
  match p.waiting with
  | none => .ok p.read
  | some (_, none) => .error .invalidValue
  | some (s, some value) => put p.read value s

def Progress.give (p : Progress) (s : Setting) (value : String) : Except Misuse Progress :=
  match p.settle with
  | .error misuse => .error misuse
  | .ok a =>
    match put a value s with
    | .error misuse => .error misuse
    | .ok a => .ok ⟨a, none⟩

def Progress.await (p : Progress) (s : Setting) : Except Misuse Progress :=
  match p.settle with
  | .error misuse => .error misuse
  | .ok a => .ok ⟨a, some (s, none)⟩

def Progress.turnOn (p : Progress) (s : Switch) : Except Misuse Progress :=
  match p.settle with
  | .error misuse => .error misuse
  | .ok a =>
    match Usage.turnOn a s with
    | .error misuse => .error misuse
    | .ok a => .ok ⟨a, none⟩

/-- A flag with two hyphens, after them. -/
def readLong (p : Progress) (s : List Char) : Except Misuse Progress :=
  let name := s.takeWhile (· ≠ '=')
  match long? (.ofList name), s.drop name.length with
  | none, _ => .error .unknownArgument
  | some (.setting s), [] => p.await s
  | some (.setting s), _ :: value => p.give s (.ofList value)
  | some (.switch s), [] => p.turnOn s
  | some (.switch _), _ :: _ => .error .tooManyValues

/-- Flags with one hyphen, after it. A setting takes all that follows as its value. -/
def readShorts (p : Progress) : List Char → Except Misuse Progress
  | [] => .ok p
  | c :: s =>
    match short? c with
    | none => .error .unknownArgument
    | some (.setting k) =>
      match s with
      | [] => p.await k
      | '=' :: value => p.give k (.ofList value)
      | value => p.give k (.ofList value)
    | some (.switch k) =>
      match p.turnOn k with
      | .error misuse => .error misuse
      | .ok p => readShorts p s

/-- An argument that is no flag. -/
def readValue (p : Progress) (value : String) : Except Misuse Progress :=
  match p.waiting with
  | some (s, none) => .ok { p with waiting := some (s, some value) }
  | _ => .error .unknownArgument

/-- What an argument adds. After two hyphens alone nothing may follow. -/
def readFrom (p : Progress) : List String → Except Misuse Arguments
  | [] => p.settle
  | word :: words =>
    let step : Option (Except Misuse Progress) := match word.toList with
      | ['-', '-'] => none
      | '-' :: '-' :: s => some (readLong p s)
      | ['-'] => some (readValue p word)
      | '-' :: s => some (readShorts p s)
      | _ => some (readValue p word)
    match step with
    | none => if words.isEmpty then p.settle else .error .unknownArgument
    | some (.error misuse) => .error misuse
    | some (.ok p) => readFrom p words

def read (words : List String) : Except Misuse Arguments := readFrom ⟨blank, none⟩ words

end Usage
end TrustTrial
