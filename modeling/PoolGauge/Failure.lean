import PoolGauge.Duration

/-!
# Failures

Why a question to the storage tools, a configuration or the server has no result.
-/
namespace PoolGauge

inductive Failure where
  /-- A tool ran and reported an error. -/
  | command (line reason : String)
  /-- A tool could not be started. -/
  | spawn (line reason : String)
  /-- An operation took too long. -/
  | timeout (operation : String) (limit : Duration)
  /-- The answer of a tool could not be understood. -/
  | parse (context reason : String)
  /-- Pools or datasets could not be listed at all. -/
  | unavailable (reason : String)
  /-- The configuration cannot be used. -/
  | config (reason : String)
  /-- The server could not do its work. -/
  | server (reason : String)
  /-- A file could not be read. -/
  | io (reason : String)
deriving DecidableEq, Repr

namespace Failure

def message : Failure → String
  | command line reason => "Command `" ++ line ++ "` failed: " ++ reason
  | spawn line reason => "Failed to run `" ++ line ++ "`: " ++ reason
  | timeout operation limit => operation ++ " timed out after " ++ limit.text
  | parse context reason => "Parse error in " ++ context ++ ": " ++ reason
  | unavailable reason => "ZFS unavailable: " ++ reason
  | config reason => "Configuration error: " ++ reason
  | server reason => "HTTP server error: " ++ reason
  | io reason => "IO error: " ++ reason

/-- Whether the query mechanism itself failed, which fails a whole collection and not only the
pool or dataset asked about. -/
def isTransient : Failure → Bool
  | timeout .. | spawn .. => true
  | _ => false

/-- Too long an operation and a tool that cannot be started are failures of the query mechanism, and
no other failure is. -/
theorem isTransient_iff {failure : Failure} : failure.isTransient = true ↔
    (∃ operation limit, failure = timeout operation limit) ∨
      ∃ line reason, failure = spawn line reason := by
  cases failure <;> simp [isTransient]

end Failure

end PoolGauge
