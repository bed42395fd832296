import SourceNavigator.Failure

/-!
# Sessions

What an operation does besides computing its result: it starts the search engine and writes log
records. A `Session` holds the runs that the engine will make, the calls made so far and the
records written so far. An `Action` goes from one session to the next and gives a value or a
failure; what was done before a failure stays done.
-/

namespace SourceNavigator

/-! ## Log records -/

/-- The severity of a log record, or of the records that are written. -/
abbrev Severity := Nat

def debugSeverity : Severity := 10
def infoSeverity : Severity := 20
def warningSeverity : Severity := 30
def errorSeverity : Severity := 40

def severityName (s : Severity) : String :=
  if s = debugSeverity then "DEBUG"
  else if s = infoSeverity then "INFO"
  else if s = warningSeverity then "WARNING"
  else if s = errorSeverity then "ERROR"
  else "CRITICAL"

def severityOfName? (name : String) : Option Severity :=
  ([("CRITICAL", 50), ("FATAL", 50), ("ERROR", 40), ("WARN", 30), ("WARNING", 30), ("INFO", 20),
    ("DEBUG", 10), ("NOTSET", 0)].find? (·.1 = name)).map (·.2)

/-- A log record: how severe it is, which part of the program writes it, and its text. -/
structure LogRecord where
  severity : Severity
  source : String
  text : String
  deriving DecidableEq, Repr

def LogRecord.line (r : LogRecord) : String :=
  "[codenav] " ++ severityName r.severity ++ " " ++ r.source ++ ": " ++ r.text

/-! ## Engine runs -/

/-- One run of the search engine: it ends with a status after writing to its two outputs, or it does
not start. -/
inductive Run where
  | ended (status : Int) (output errors : List UInt8)
  | notStarted (error : World.SystemError)
  deriving Repr

/-- A call of the engine: the words of the command and the directory it is started in. -/
structure Call where
  words : List String
  directory : Option String
  deriving DecidableEq, Repr

def Run.nothing : Run := .ended 1 [] []

/-! ## Actions -/

/-- The state of a session. `runs` are the runs to come; after the last of them the engine finds
nothing. `threshold` is the least severity that is written to the log. -/
structure Session where
  runs : List Run
  threshold : Severity
  calls : List Call
  records : List LogRecord
  deriving Repr

def Session.begin (runs : List Run) (threshold : Severity) : Session := ⟨runs, threshold, [], []⟩

/-- A computation in a session. -/
def Action (α : Type) : Type := Session → Except Failure α × Session

namespace Action

def done {α : Type} (a : α) : Action α := fun s => (.ok a, s)

def fail {α : Type} (f : Failure) : Action α := fun s => (.error f, s)

def andThen {α β : Type} (x : Action α) (f : α → Action β) : Action β := fun s =>
  match x s with
  | (.ok a, s) => f a s
  | (.error e, s) => (.error e, s)

instance : Monad Action where
  pure := done
  bind := andThen

/-- The result of a computation outside the session. -/
def lift {α : Type} (r : Except Failure α) : Action α := fun s => (r, s)

/-- An action that does not fail; its failure becomes a value. -/
def attempt {α : Type} (x : Action α) : Action (Except Failure α) := fun s =>
  match x s with
  | (r, s) => (.ok r, s)

/-- Writes a record to the log, if it is severe enough. -/
def log (severity : Severity) (source text : String) : Action Unit := fun s =>
  if s.threshold ≤ severity then
    (.ok (), { s with records := s.records ++ [⟨severity, source, text⟩] })
  else (.ok (), s)

/-- Changes the least severity that is written. -/
def setThreshold (severity : Severity) : Action Unit := fun s =>
  (.ok (), { s with threshold := severity })

def call (c : Call) : Action Run := fun s =>
  match s.runs with
  | [] => (.ok .nothing, { s with calls := s.calls ++ [c] })
  | run :: rest => (.ok run, { s with runs := rest, calls := s.calls ++ [c] })

end Action

end SourceNavigator
