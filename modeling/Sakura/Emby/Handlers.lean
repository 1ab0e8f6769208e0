/-
  What the steps of a handler meet.

  * `Answer`: how a statement or a call of a handler ends;
  * `instanceOf`: the instance of its task, with `Worker.client`.
-/
import Sakura.Emby.Worker
import Sakura.Queue.Workers

namespace Sakura.Queue

/-- The error of `Worker.client` after it has found the instance enabled, the end of a handler of another
type, and how the statement or the call ends. -/
structure Answer where
  client : Option Failure := none
  other : Option Failure := none
  reply : Reply := {}

/-- The statement or the call is carried out, and the handler knows it. -/
def Answer.ok (a : Answer) : Bool := a.reply.effect && a.reply.answer

def Answer.failure (a : Answer) : Failure := ⟨a.reply.text, false⟩

theorem Answer.not_ok {a : Answer} (h : a.reply.effect ≠ true) : a.ok = false := by
  simp [Answer.ok, h]

/-- The instance of the task and its client. -/
def instanceOf (a : Answer) (task : ClaimedTask) (db : Store) : Except Failure UUID :=
  match task.payload.instanceId with
  | none => .error (permanent "task has invalid instance id")
  | some id => match db.instances.find? (·.id = id) with
    | none => .error (permanent "not found")
    | some i =>
      if i.enabled then a.client.elim (.ok i.id) .error
      else .error (permanent "Emby instance is disabled")

end Sakura.Queue
