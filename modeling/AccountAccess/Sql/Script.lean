import AccountAccess.Service.Interface
import AccountAccess.Sql.Store

/-!
# A database server that follows a script

The script lists what queries are answered with, one after the other: a table, a
refusal, or nothing at all, and then the call times out.  When the script has come
to its end every query is refused.  The queries are noted.
-/

namespace AccountAccess
namespace Sql

/-- What a query is answered with. -/
inductive Scripted where
  | table (table : Table)
  | refusal
  | silence

/-- A scripted server: whether it can be reached, the answers to come, and the
queries so far, the last one first. -/
structure Script where
  isReachable : Bool := true
  answers : List Scripted
  queries : List Query := []

namespace Script

/-- Answers a query. -/
def answer : Handler interface Script := fun query script =>
  if script.isReachable then
    let script := { script with queries := query :: script.queries }
    match script.answers with
    | [] => (.finished (.error .server), script)
    | .table table :: rest => (.finished (.ok table), { script with answers := rest })
    | .refusal :: rest => (.finished (.error .server), { script with answers := rest })
    | .silence :: rest => (.finished (.error .timedOut), { script with answers := rest })
  else (.finished (.error .server), script)

/-- Answers the store calls of the service; there is nothing else around it. -/
def answerService : Handler serviceInterface Script
  | .store call, script => (carry call).run answer script
  | _, script => (.aborted, script)

end Script
end Sql
end AccountAccess
