namespace AnswerKey

inductive TaskState (α : Type) where
  | waiting
  | running
  | ended (result : Option α)

def TaskState.isRunning {α : Type} : TaskState α → Bool
  | running => true
  | waiting | ended _ => false

def TaskState.isEnded {α : Type} : TaskState α → Bool
  | ended _ => true
  | waiting | running => false

inductive Move where
  | start (task : Nat)
  | finish (task : Nat)
deriving DecidableEq

structure Pool (α : Type) where
  permits : Nat
  tasks : List (TaskState α)

namespace Pool

variable {α : Type}

def capacity : Nat := 1 <<< 61 - 1

def create (permits count : Nat) : Pool α := ⟨max 1 permits, List.replicate count .waiting⟩

def create? (permits count : Nat) : Option (Pool α) :=
  if max 1 permits ≤ capacity then some (create permits count) else none

def running (pool : Pool α) : Nat := pool.tasks.countP TaskState.isRunning

/-- A task starts when a permit is free, and only a running one finishes, with the result that is its own. -/
def move? (work : Nat → Option α) (pool : Pool α) : Move → Option (Pool α)
  | .start i =>
    match pool.tasks[i]? with
    | some .waiting =>
      if pool.running < pool.permits then some { pool with tasks := pool.tasks.set i .running } else none
    | _ => none
  | .finish i =>
    match pool.tasks[i]? with
    | some .running => some { pool with tasks := pool.tasks.set i (.ended (work i)) }
    | _ => none

def moves? (work : Nat → Option α) (pool : Pool α) : List Move → Option (Pool α)
  | [] => some pool
  | move :: moves =>
    match pool.move? work move with
    | some pool => pool.moves? work moves
    | none => none

def result? (pool : Pool α) (i : Nat) : Option α :=
  match pool.tasks[i]? with
  | some (.ended result) => result
  | _ => none

def isDone (pool : Pool α) : Bool := pool.tasks.all TaskState.isEnded

def results (pool : Pool α) : List (Nat × α) :=
  (List.range pool.tasks.length).filterMap fun i ↦ (pool.result? i).map (i, ·)

/-- A slot for every task, filled with the results in the order in which they are handed in. -/
def scatter (count : Nat) (joined : List (Nat × α)) : List (Option α) :=
  joined.foldl (fun slots (i, result) ↦ slots.set i (some result)) (List.replicate count none)

end Pool
end AnswerKey
