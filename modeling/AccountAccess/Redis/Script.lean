import AccountAccess.Redis.Cache
import AccountAccess.Service.Interface

/-!
# A server that follows a script

The script lists the replies in order, one for each command or transaction.  A
reply may fail to come, and then the call times out.  When the script has come to
its end every command is answered with an error.  What was sent is noted.
-/

namespace AccountAccess
namespace Redis

/-- A scripted server: whether it can be reached, the replies to come, where none
stands for silence, and the commands so far, the last one first. -/
structure Script where
  isReachable : Bool := true
  replies : List (Option Reply)
  sent : List Command := []

namespace Script

/-- The next reply. -/
def reply (script : Script) (commands : List Command) : Except CacheError Reply × Script :=
  let script := { script with sent := commands.reverse ++ script.sent }
  match script.replies with
  | [] => (.ok (.error ""), script)
  | none :: rest => (.error .timedOut, { script with replies := rest })
  | some reply :: rest => (.ok reply, { script with replies := rest })

/-- Answers a request. -/
def answer : Handler interface Script
  | .connect, script =>
    (.finished (if script.isReachable then .ok () else .error .server), script)
  | .command command, script =>
    let (reply, script) := script.reply [command]
    (.finished reply, script)
  | .transaction commands, script =>
    let (reply, script) := script.reply (["MULTI"] :: commands ++ [["EXEC"]])
    (.finished reply, script)

/-- Answers the cache calls of the service; there is nothing else around it. -/
def answerService : Handler serviceInterface Script
  | .cache call, script => (carry call).run answer script
  | _, script => (.aborted, script)

end Script
end Redis
end AccountAccess
