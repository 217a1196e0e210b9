import AnswerKey.Challenge.Pool

namespace AnswerKey.Timetable

/-- Tasks that can go on, those that wait for a permit, and those that are busy until some time, each in the
order in which they came there. -/
structure Hall where
  free : Nat
  ready : List (Nat × Bool)
  queue : List Nat := []
  busy : List (Nat × Nat) := []
  now : Nat := 0

def Hall.release (hall : Hall) : Hall :=
  match hall.queue with
  | [] => { hall with free := hall.free + 1 }
  | i :: queue => { hall with queue, ready := hall.ready ++ [(i, true)] }

def Hall.begin (delay : Nat → Nat) (hall : Hall) (i : Nat) : Hall × List Move :=
  if delay i = 0 then (hall.release, [.start i, .finish i])
  else ({ hall with busy := hall.busy ++ [(i, hall.now + delay i)] }, [.start i])

def Hall.wake (hall : Hall) : Hall × List Move :=
  match (hall.busy.map Prod.snd).min? with
  | none => (hall, [])
  | some now =>
    let (done, busy) := hall.busy.partition fun task ↦ task.2 = now
    (done.foldl (fun hall _ ↦ hall.release) { hall with busy, now }, done.map fun task ↦ .finish task.1)

def Hall.advance (delay : Nat → Nat) (hall : Hall) : Hall × List Move :=
  match hall.ready with
  | (i, true) :: ready => { hall with ready }.begin delay i
  | (i, false) :: ready =>
    if hall.free = 0 then ({ hall with ready, queue := hall.queue ++ [i] }, [])
    else { hall with ready, free := hall.free - 1 }.begin delay i
  | [] => hall.wake

/-- Every task becomes ready twice at most and wakes once, so four times their number is time enough. -/
def movesFor (delay : Nat → Nat) : (fuel : Nat) → Hall → List Move
  | 0, _ => []
  | fuel + 1, hall =>
    let (hall, moves) := hall.advance delay
    moves ++ movesFor delay fuel hall

def moves (permits count : Nat) (delay : Nat → Nat) : List Move :=
  movesFor delay (4 * count) { free := max 1 permits, ready := (List.range count).map (·, false) }

end AnswerKey.Timetable
