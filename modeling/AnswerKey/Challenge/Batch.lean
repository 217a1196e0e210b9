import AnswerKey.Challenge.Timetable
import AnswerKey.Challenge.Verification

namespace AnswerKey

def Snippet.evaluateWith (s : Snippet) (registry : Registry) (limits : Limits) :
    Traced (Except VerifyFailure (List Json)) :=
  match registry.adapter s.dialect with
  | .error failure => .pure (.error (.execution s.id failure))
  | .ok adapter => s.evaluate adapter limits []

/-- A snippet with a line that cannot be scanned takes its task down, and so does a run in which the program breaks
off. -/
def taskResult : Except VerifyFailure (List Json) → Option (Except VerifyFailure (List Json))
  | .error (.fault .unscannable) | .error .brokenOff => none
  | result => some result

def lostTask (s : Snippet) : VerifyFailure := .execution s.id (.system "task did not complete")

def Snippet.regenerated (s : Snippet) (registry : Registry) (limits : Limits) :
    Except VerifyFailure (List Json) :=
  (taskResult (s.evaluateWith registry limits).value).getD (.error (lostTask s))

def regenerate (registry : Registry) (limits : Limits) (snippets : List Snippet) :
    List (Except VerifyFailure (List Json)) :=
  snippets.map (·.regenerated registry limits)

/-- The time that a snippet's task takes, and the number of its events that come before. -/
def Snippet.workload (s : Snippet) (registry : Registry) (limits : Limits) : Nat × Nat :=
  match registry.adapter s.dialect, s.transform with
  | .ok adapter, .ok script =>
    match adapter.check limits script with
    | .ok () => (min limits.timeout (adapter.run script []).delay, s.transformWatched.events.length)
    | .error _ => (0, 0)
  | _, _ => (0, 0)

def taskWork (registry : Registry) (limits : Limits) (snippets : List Snippet) (i : Nat) :
    Option (Except VerifyFailure (List Json)) :=
  snippets[i]?.bind fun s ↦ taskResult (s.evaluateWith registry limits).value

def taskDelay (registry : Registry) (limits : Limits) (snippets : List Snippet) (i : Nat) : Nat :=
  (snippets[i]?.map fun s ↦ (s.workload registry limits).1).getD 0

/-- The results of the snippets in their order; those of lost tasks have to be made up. -/
def collected (snippets : List Snippet) (joined : List (Nat × Except VerifyFailure (List Json))) :
    List (Except VerifyFailure (List Json)) :=
  (snippets.zip (Pool.scatter snippets.length joined)).map fun (s, slot) ↦ slot.getD (.error (lostTask s))

def regenerateWithin (registry : Registry) (limits : Limits) (maxConcurrent : Nat) (snippets : List Snippet) :
    Option (List (Except VerifyFailure (List Json))) :=
  (Pool.create? maxConcurrent snippets.length).bind fun pool ↦
    (pool.moves? (taskWork registry limits snippets)
      (Timetable.moves maxConcurrent snippets.length (taskDelay registry limits snippets))).map fun pool ↦
        collected snippets pool.results

def regenerationEvents (registry : Registry) (limits : Limits) (maxConcurrent : Nat) (snippets : List Snippet) :
    List Logged :=
  let logged (s : Snippet) (part : Nat → List Event → List Event) : List Logged :=
    (part (s.workload registry limits).2 (s.evaluateWith registry limits).events).map fun event ↦
      ⟨event, some (s.id, s.dialect)⟩
  (Timetable.moves maxConcurrent snippets.length (taskDelay registry limits snippets)).flatMap fun
    | .start i => (snippets[i]?.map fun s ↦ logged s List.take).getD []
    | .finish i => (snippets[i]?.map fun s ↦ logged s List.drop).getD []

end AnswerKey
