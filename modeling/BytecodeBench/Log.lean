/-! Log entries: a level and a message. -/

namespace BytecodeBench

/-- How important an entry is. -/
inductive Level
  | debug
  | info
  | success
  | warning
  | error
  deriving DecidableEq, Repr

namespace Level

def name : Level → String
  | debug => "DEBUG"
  | info => "INFO"
  | success => "SUCCESS"
  | warning => "WARNING"
  | error => "ERROR"

/-- The place in the order of importance. -/
def rank : Level → Nat
  | debug => 0
  | info => 1
  | success => 2
  | warning => 3
  | error => 4

end Level

/-- A message with its level. -/
structure LogEntry where
  level : Level
  message : String
  deriving DecidableEq, Repr

abbrev Log := List LogEntry

namespace Log

def debug (message : String) : LogEntry := ⟨.debug, message⟩

def info (message : String) : LogEntry := ⟨.info, message⟩

def success (message : String) : LogEntry := ⟨.success, message⟩

def warning (message : String) : LogEntry := ⟨.warning, message⟩

def error (message : String) : LogEntry := ⟨.error, message⟩

/-- The entries of a level and above. -/
def atLeast (level : Level) (log : Log) : Log :=
  log.filter fun entry => level.rank ≤ entry.level.rank

/-- The log as lines that start with the level. -/
def text (log : Log) : String :=
  String.join (log.map fun entry => "[" ++ entry.level.name ++ "] " ++ entry.message ++ "\n")

end Log

end BytecodeBench
