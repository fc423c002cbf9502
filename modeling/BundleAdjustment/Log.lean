import BundleAdjustment.Fault

/-! # Logs

Computations that write records as they go. The records stay when the computation fails.
-/

namespace BundleAdjustment

inductive Log.Level where
  | debug
  | info
  | warning
  deriving DecidableEq

inductive Log.Source where
  | covariance
  | dispatch
  | conditioning
  | collection
  | problem
  | result
  deriving DecidableEq

/-- A record: how grave it is, which part of the library wrote it, and what it says. -/
structure Log where
  level : Log.Level
  source : Log.Source
  text : String

def Log.Level.name : Log.Level → String
  | debug => "DEBUG"
  | info => "INFO"
  | warning => "WARNING"

/-- A computation that may fail and writes records. -/
abbrev Logged := ExceptT Fault (StateM (List Log))

namespace Logged

variable {α : Type}

def lift (x : Except Fault α) : Logged α := liftExcept x

def record (l : Log) : Logged Unit := modify (· ++ [l])

end Logged

/-- A computation over a state that may fail and writes records. What it changed and recorded stays when it fails. -/
abbrev Stateful (σ : Type) := ExceptT Fault (StateT σ (StateM (List Log)))

namespace Stateful

variable {σ α : Type}

def lift (x : Except Fault α) : Stateful σ α := liftExcept x

def logged (x : Logged α) : Stateful σ α := ExceptT.mk (StateT.lift (ExceptT.run x))

def record (l : Log) : Stateful σ Unit := logged (Logged.record l)

end Stateful

end BundleAdjustment
