import AnswerKey.Challenge.Timetable
import AnswerKey.Proofs.Challenge.Pool
import Mathlib.Data.List.Perm.Basic

namespace AnswerKey

def TaskState.isWaiting {α : Type} : TaskState α → Bool
  | waiting => true
  | running | ended _ => false

namespace Pool

variable {α : Type} {work : Nat → Option α} {pool : Pool α} {permits count i : Nat} {waiting running : List Nat}

def select (p : TaskState α → Bool) (tasks : List (TaskState α)) : List Nat :=
  (tasks.zipIdx.filter fun task ↦ p task.1).map Prod.snd

theorem mem_select {p : TaskState α → Bool} {tasks : List (TaskState α)} :
    i ∈ select p tasks ↔ ∃ task, tasks[i]? = some task ∧ p task := by
  simp [select, List.mem_zipIdx_iff_getElem?]

theorem exists_select (p : TaskState α → Bool) (front back : List (TaskState α)) :
    ∃ rest, ∀ task, (select p (front ++ task :: back)).Perm (if p task then front.length :: rest else rest) := by
  refine ⟨select p front ++ ((back.zipIdx (front.length + 1)).filter fun task ↦ p task.1).map Prod.snd, fun task ↦ ?_⟩
  rw [select, List.zipIdx_append, List.zipIdx_cons, List.filter_append, List.filter_cons, List.map_append]
  split
  · simp [select]
  · simp [select]

structure Roster (pool : Pool α) (permits : Nat) (waiting running : List Nat) : Prop where
  permits_eq : pool.permits = permits
  waiting_perm : (select TaskState.isWaiting pool.tasks).Perm waiting
  running_perm : (select TaskState.isRunning pool.tasks).Perm running

theorem select_length (p : TaskState α → Bool) (tasks : List (TaskState α)) :
    (select p tasks).length = tasks.countP p := by
  rw [select, List.length_map, ← List.countP_eq_length_filter]
  exact List.countP_map.symm.trans (by rw [List.zipIdx_map_fst])

theorem Roster.start (work : Nat → Option α) (h : pool.Roster permits (i :: waiting) running)
    (hfree : running.length < permits) :
    ∃ pool', pool.move? work (.start i) = some pool' ∧ pool'.Roster permits waiting (i :: running) := by
  obtain ⟨_, tasks⟩ := pool
  obtain ⟨rfl, hwaiting, hrunning⟩ := h
  obtain ⟨task, htask, hp⟩ := mem_select.mp (hwaiting.mem_iff.mpr List.mem_cons_self)
  obtain ⟨front, back, rfl, rfl⟩ := exists_split htask
  cases task with
  | running => cases hp
  | ended => cases hp
  | waiting =>
    obtain ⟨ws, hws⟩ := exists_select TaskState.isWaiting front back
    obtain ⟨rs, hrs⟩ := exists_select TaskState.isRunning front back
    refine ⟨_, move?_eq_some_iff.mpr (.start ?_), rfl, ?_, ?_⟩
    · rw [Pool.running, ← select_length, hrunning.length_eq]
      exact hfree
    · exact (hws .running).trans ((hws .waiting).symm.trans hwaiting).cons_inv
    · exact (hrs .running).trans (((hrs .waiting).symm.trans hrunning).cons _)

theorem Roster.finish (work : Nat → Option α) (h : pool.Roster permits waiting (i :: running)) :
    ∃ pool', pool.move? work (.finish i) = some pool' ∧ pool'.Roster permits waiting running := by
  obtain ⟨_, tasks⟩ := pool
  obtain ⟨rfl, hwaiting, hrunning⟩ := h
  obtain ⟨task, htask, hp⟩ := mem_select.mp (hrunning.mem_iff.mpr List.mem_cons_self)
  obtain ⟨front, back, rfl, rfl⟩ := exists_split htask
  cases task with
  | waiting => cases hp
  | ended => cases hp
  | running =>
    obtain ⟨ws, hws⟩ := exists_select TaskState.isWaiting front back
    obtain ⟨rs, hrs⟩ := exists_select TaskState.isRunning front back
    refine ⟨_, move?_eq_some_iff.mpr .finish, rfl, ?_, ?_⟩
    · exact (hws _).trans ((hws .running).symm.trans hwaiting)
    · exact (hrs _).trans ((hrs .running).symm.trans hrunning).cons_inv

theorem Roster.isDone (h : pool.Roster permits [] []) : pool.isDone = true := by
  refine List.all_eq_true.mpr fun task htask ↦ ?_
  obtain ⟨i, hi⟩ := List.mem_iff_getElem?.mp htask
  cases task with
  | waiting => cases h.waiting_perm.mem_iff.mp (mem_select.mpr ⟨_, hi, rfl⟩)
  | running => cases h.running_perm.mem_iff.mp (mem_select.mpr ⟨_, hi, rfl⟩)
  | ended => rfl

theorem roster_create : (create permits count : Pool α).Roster (max 1 permits) (List.range count) [] := by
  refine ⟨rfl, List.Perm.of_eq ?_, List.Perm.of_eq ?_⟩
  · have hall : ∀ task ∈ (List.replicate count (.waiting : TaskState α)).zipIdx, task.1.isWaiting = true := by
      intro task htask
      rw [List.eq_of_mem_replicate (List.fst_mem_of_mem_zipIdx htask)]
      rfl
    rw [create, select, List.filter_eq_self.mpr hall, List.zipIdx_map_snd, List.length_replicate, List.range_eq_range']
  · rw [← List.length_eq_zero_iff, select_length]
    simp [create, List.countP_replicate, TaskState.isRunning]

end Pool

namespace Timetable

variable {α : Type} {work : Nat → Option α} {delay : Nat → Nat} {hall : Hall} {pool : Pool α} {permits i : Nat}
  {called awake : List Nat}

/-- The hall of a pool in which some tasks are called to begin and others are awake to be finished. -/
structure Hall.Tracks (hall : Hall) (permits : Nat) (called awake : List Nat) (pool : Pool α) : Prop where
  roster : pool.Roster permits (called ++ (hall.ready.map Prod.fst ++ hall.queue)) (awake ++ hall.busy.map Prod.fst)
  permits_eq : hall.free + hall.ready.countP Prod.snd + hall.busy.length + called.length + awake.length = permits
  free_eq : hall.queue ≠ [] → hall.free = 0

/-- The next moves of the hall can be made in the pool, and the hall follows them. -/
def Follows (work : Nat → Option α) (permits : Nat) (pool : Pool α) (next : Hall × List Move) : Prop :=
  ∃ pool', pool.moves? work next.2 = some pool' ∧ next.1.Tracks permits [] [] pool'

theorem Hall.Tracks.release (work : Nat → Option α) (h : hall.Tracks permits [] (i :: awake) pool) :
    ∃ pool', pool.move? work (.finish i) = some pool' ∧ hall.release.Tracks permits [] awake pool' := by
  obtain ⟨hroster, hpermits, hfree⟩ := h
  obtain ⟨pool', hmove, hroster⟩ := hroster.finish work
  refine ⟨pool', hmove, ?_⟩
  obtain ⟨free, ready, queue, busy, now⟩ := hall
  cases queue with
  | nil =>
    refine ⟨hroster, ?_, fun hne ↦ absurd rfl hne⟩
    simp only [Hall.release, List.length_cons] at hpermits ⊢
    omega
  | cons j queue =>
    refine ⟨by simpa [Hall.release] using hroster, ?_, fun _ ↦ hfree (List.cons_ne_nil _ _)⟩
    simp only [Hall.release, List.length_cons, List.countP_append, List.countP_singleton, if_true] at hpermits ⊢
    omega

theorem Hall.Tracks.release_all {done : List (Nat × Nat)} (h : hall.Tracks permits [] (done.map Prod.fst) pool) :
    Follows work permits pool
      (done.foldl (fun hall _ ↦ hall.release) hall, done.map fun task ↦ .finish task.1) := by
  induction done generalizing hall pool with
  | nil => exact ⟨pool, rfl, h⟩
  | cons task done ih =>
    obtain ⟨next, hmove, hnext⟩ := h.release work
    obtain ⟨pool', hmoves, hpool'⟩ := ih hnext
    exact ⟨pool', Pool.moves?_cons_eq_some.mpr ⟨next, hmove, hmoves⟩, hpool'⟩

theorem Hall.Tracks.begin (h : hall.Tracks permits [i] [] pool) :
    Follows work permits pool (hall.begin delay i) := by
  obtain ⟨hroster, hpermits, hfree⟩ := h
  simp only [List.length_cons, List.length_nil] at hpermits
  obtain ⟨started, hmove, hroster⟩ := hroster.start work (by simp; omega)
  have hstarted : hall.Tracks permits [] [i] started := ⟨hroster, by simpa using hpermits, hfree⟩
  unfold Hall.begin
  split
  · obtain ⟨pool', hfinish, hpool'⟩ := hstarted.release work
    exact ⟨pool', by simp [Pool.moves?, hmove, hfinish], hpool'⟩
  · refine ⟨started, by simp [Pool.moves?, hmove], ⟨hroster.1, hroster.2, hroster.3.trans ?_⟩, ?_, hfree⟩
    · simpa using (List.perm_append_singleton _ _).symm
    · simp only [List.length_append, List.length_cons, List.length_nil]
      omega

theorem Hall.Tracks.wake (h : hall.Tracks permits [] [] pool) : Follows work permits pool hall.wake := by
  unfold Hall.wake
  split
  · exact ⟨pool, rfl, h⟩
  · next now _ =>
    simp only [List.partition_eq_filter_filter, Function.comp_def]
    obtain ⟨hroster, hpermits, hfree⟩ := h
    have hperm := List.filter_append_perm (fun task : Nat × Nat ↦ decide (task.2 = now)) hall.busy
    refine Hall.Tracks.release_all ⟨⟨hroster.1, hroster.2, hroster.3.trans ?_⟩, ?_, hfree⟩
    · simpa using (hperm.map Prod.fst).symm
    · have hlength := hperm.length_eq
      simp at hlength hpermits ⊢
      omega

theorem Hall.Tracks.advance (work : Nat → Option α) (delay : Nat → Nat) (h : hall.Tracks permits [] [] pool) :
    Follows work permits pool (hall.advance delay) := by
  obtain ⟨free, ready, queue, busy, now⟩ := hall
  obtain ⟨hroster, hpermits, hfree⟩ := h
  cases ready with
  | nil => exact Hall.Tracks.wake ⟨hroster, hpermits, hfree⟩
  | cons task ready =>
    obtain ⟨i, permitted⟩ := task
    cases permitted with
    | true =>
      refine Hall.Tracks.begin ⟨hroster, ?_, hfree⟩
      simp at hpermits ⊢
      omega
    | false =>
      by_cases hfull : free = 0
      · simp only [Hall.advance, hfull, if_true]
        refine ⟨pool, rfl, ⟨hroster.1, hroster.2.trans ?_, hroster.3⟩, ?_, fun _ ↦ rfl⟩
        · simpa using (List.perm_append_singleton i (ready.map Prod.fst ++ queue)).symm
        · simpa [hfull] using hpermits
      · simp only [Hall.advance, hfull, if_false]
        refine Hall.Tracks.begin ⟨hroster, ?_, fun hne ↦ absurd (hfree hne) hfull⟩
        simp at hpermits ⊢
        omega

def Hall.steps (hall : Hall) : Nat :=
  (hall.ready.map fun task ↦ if task.2 then 2 else 3).sum + 2 * hall.queue.length + hall.busy.length

theorem Hall.release_steps : hall.release.steps = hall.steps := by
  obtain ⟨free, ready, queue, busy, now⟩ := hall
  cases queue with
  | nil => rfl
  | cons i queue =>
    simp only [Hall.release, Hall.steps, List.map_append, List.sum_append, List.map_cons, List.map_nil, List.sum_cons,
      List.sum_nil, if_true, List.length_cons]
    omega

theorem Hall.release_all_steps (done : List (Nat × Nat)) :
    (done.foldl (fun hall _ ↦ hall.release) hall).steps = hall.steps := by
  induction done generalizing hall with
  | nil => rfl
  | cons task done ih => exact ih.trans Hall.release_steps

theorem Hall.begin_steps : (hall.begin delay i).1.steps ≤ hall.steps + 1 := by
  unfold Hall.begin
  split
  · exact Nat.le_succ_of_le (Nat.le_of_eq Hall.release_steps)
  · simp [Hall.steps, Nat.add_assoc]

theorem Hall.wake_steps (h : hall.busy = [] → hall.steps = 0) : hall.wake.1.steps ≤ hall.steps - 1 := by
  cases hmin : (hall.busy.map Prod.snd).min? with
  | none =>
    have hidle : hall.busy = [] := by simpa using hmin
    simp [Hall.wake, hmin, h hidle]
  | some now =>
    obtain ⟨task, htask, rfl⟩ := List.mem_map.mp (List.min?_mem hmin)
    have hkept : (hall.busy.filter fun other ↦ !decide (other.2 = task.2)).length < hall.busy.length :=
      List.length_filter_lt_length_iff_exists.mpr ⟨task, htask, by simp⟩
    simp only [Hall.wake, hmin, List.partition_eq_filter_filter, Function.comp_def, Hall.release_all_steps]
    simp only [Hall.steps]
    omega

theorem Hall.Tracks.advance_steps (delay : Nat → Nat) (h : hall.Tracks permits [] [] pool) (hpermits : 0 < permits) :
    (hall.advance delay).1.steps ≤ hall.steps - 1 := by
  obtain ⟨free, ready, queue, busy, now⟩ := hall
  obtain ⟨-, hsum, hfree⟩ := h
  cases ready with
  | nil =>
    -- Nobody waits while nobody is busy, since then all permits are free.
    refine Hall.wake_steps fun hbusy ↦ ?_
    cases hbusy
    cases queue with
    | nil => rfl
    | cons i queue =>
      have hnone := hfree (List.cons_ne_nil _ _)
      simp at hsum hnone
      omega
  | cons task ready =>
    obtain ⟨i, permitted⟩ := task
    cases permitted with
    | true =>
      refine Nat.le_trans Hall.begin_steps ?_
      simp [Hall.steps]
      omega
    | false =>
      simp only [Hall.advance]
      split
      · simp [Hall.steps]
        omega
      · refine Nat.le_trans Hall.begin_steps ?_
        simp [Hall.steps]
        omega

theorem Hall.Tracks.isDone (h : hall.Tracks permits [] [] pool) (hsteps : hall.steps = 0) : pool.isDone = true := by
  obtain ⟨free, ready, queue, busy, now⟩ := hall
  have hsum : (ready.map fun task ↦ if task.2 then 2 else 3).sum = 0 ∧ queue.length = 0 ∧ busy.length = 0 := by
    simp only [Hall.steps] at hsteps
    omega
  obtain ⟨hready, hqueue, hbusy⟩ := hsum
  cases List.length_eq_zero_iff.mp hqueue
  cases List.length_eq_zero_iff.mp hbusy
  cases ready with
  | nil => exact h.roster.isDone
  | cons task ready =>
    rw [List.map_cons, List.sum_cons] at hready
    split at hready <;> omega

theorem Hall.Tracks.movesFor_complete {fuel : Nat} (h : hall.Tracks permits [] [] pool) (hpermits : 0 < permits)
    (hfuel : hall.steps ≤ fuel) :
    ∃ pool', pool.moves? work (movesFor delay fuel hall) = some pool' ∧ pool'.isDone = true := by
  induction fuel generalizing hall pool with
  | zero => exact ⟨pool, rfl, h.isDone (Nat.le_zero.mp hfuel)⟩
  | succ fuel ih =>
    obtain ⟨next, hmoves, hnext⟩ := h.advance work delay
    have hless := h.advance_steps delay hpermits
    obtain ⟨pool', hrest, hdone⟩ := ih hnext (by omega)
    refine ⟨pool', ?_, hdone⟩
    rw [movesFor, Pool.moves?_append, hmoves]
    exact hrest

/-- The timetable runs every task to its end. -/
theorem moves_complete (work : Nat → Option α) (delay : Nat → Nat) (permits count : Nat) :
    ∃ pool, (Pool.create permits count).moves? work (moves permits count delay) = some pool ∧ pool.isDone = true := by
  have hfree : (0 : Nat) < max 1 permits := by omega
  refine Hall.Tracks.movesFor_complete ⟨?_, ?_, fun h ↦ absurd rfl h⟩ hfree ?_
  · simpa [Function.comp_def] using Pool.roster_create
  · simp [List.countP_map, Function.comp_def]
  · simp [Hall.steps, Function.comp_def]
    omega

end Timetable
end AnswerKey
