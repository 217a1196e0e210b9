import AnswerKey.Challenge.Pool
import Mathlib.Algebra.Order.Ring.Nat
import Mathlib.Data.List.Basic

namespace AnswerKey

/-- Moves that a task still has before it. -/
def TaskState.remaining {α : Type} : TaskState α → Nat
  | waiting => 2
  | running => 1
  | ended _ => 0

namespace Pool

variable {α : Type} {work : Nat → Option α} {pool pool' : Pool α} {move : Move} {moves : List Move}
  {permits count : Nat}

def remaining (pool : Pool α) : Nat := (pool.tasks.map TaskState.remaining).sum

inductive Makes (work : Nat → Option α) : Pool α → Move → Pool α → Prop where
  | start {permits : Nat} {front back : List (TaskState α)}
      (hfree : running ⟨permits, front ++ .waiting :: back⟩ < permits) :
      Makes work ⟨permits, front ++ .waiting :: back⟩ (.start front.length) ⟨permits, front ++ .running :: back⟩
  | finish {permits : Nat} {front back : List (TaskState α)} :
      Makes work ⟨permits, front ++ .running :: back⟩ (.finish front.length)
        ⟨permits, front ++ .ended (work front.length) :: back⟩

theorem set_length {β : Type} (front back : List β) (a b : β) :
    (front ++ a :: back).set front.length b = front ++ b :: back := by
  simp

theorem exists_split {β : Type} {l : List β} {i : Nat} {a : β} (h : l[i]? = some a) :
    ∃ front back, l = front ++ a :: back ∧ front.length = i := by
  obtain ⟨hi, rfl⟩ := List.getElem?_eq_some_iff.mp h
  refine ⟨l.take i, l.drop (i + 1), ?_, List.length_take_of_le (Nat.le_of_lt hi)⟩
  rw [← List.drop_eq_getElem_cons hi, List.take_append_drop]

theorem getElem?_exchange {β : Type} {front back : List β} {b c : β} {i : Nat} (h : (front ++ b :: back)[i]? = some c)
    (a : β) : i = front.length ∧ c = b ∨ (front ++ a :: back)[i]? = some c := by
  rcases Nat.lt_trichotomy i front.length with hi | rfl | hi
  · right
    rw [List.getElem?_append_left hi] at h ⊢
    exact h
  · left
    simpa [eq_comm] using h
  · right
    obtain ⟨k, hk⟩ : ∃ k, i - front.length = k + 1 := ⟨i - front.length - 1, by omega⟩
    rw [List.getElem?_append_right (Nat.le_of_lt hi), hk, List.getElem?_cons_succ] at h ⊢
    exact h

theorem move?_eq_some_iff : pool.move? work move = some pool' ↔ Makes work pool move pool' := by
  obtain ⟨permits, tasks⟩ := pool
  constructor
  · intro h
    cases move with
    | start i =>
      simp only [move?] at h
      split at h
      · next hi =>
        split at h
        · next hfree =>
          obtain ⟨front, back, rfl, rfl⟩ := exists_split hi
          rw [set_length] at h
          cases h
          exact .start hfree
        · cases h
      · cases h
    | finish i =>
      simp only [move?] at h
      split at h
      · next hi =>
        obtain ⟨front, back, rfl, rfl⟩ := exists_split hi
        rw [set_length] at h
        cases h
        exact .finish
      · cases h
  · intro h
    cases h with
    | start hfree => simp [move?, hfree]
    | finish => simp [move?]

theorem moves?_cons_eq_some : pool.moves? work (move :: moves) = some pool' ↔
    ∃ next, pool.move? work move = some next ∧ next.moves? work moves = some pool' := by
  simp only [moves?]
  cases pool.move? work move <;> simp

theorem moves?_append (before after : List Move) :
    pool.moves? work (before ++ after) = (pool.moves? work before).bind (·.moves? work after) := by
  induction before generalizing pool with
  | nil => rfl
  | cons move before ih =>
    simp only [List.cons_append, moves?]
    cases pool.move? work move with
    | none => rfl
    | some next => exact ih

/-- What all moves keep, from the pool in which all tasks wait. -/
structure Sound (work : Nat → Option α) (permits count : Nat) (pool : Pool α) : Prop where
  permits_eq : pool.permits = max 1 permits
  length_eq : pool.tasks.length = count
  running_le : pool.running ≤ pool.permits
  ended_eq : ∀ i result, pool.tasks[i]? = some (.ended result) → result = work i

theorem sound_create : (create permits count : Pool α).Sound work permits count where
  permits_eq := rfl
  length_eq := List.length_replicate
  running_le := by simp [create, running, List.countP_replicate, TaskState.isRunning]
  ended_eq i result h := by simp [create, List.getElem?_replicate] at h

theorem Sound.of_move (h : pool.Sound work permits count) (hmove : pool.move? work move = some pool') :
    pool'.Sound work permits count := by
  obtain ⟨hpermits, hlength, hrunning, hended⟩ := h
  cases move?_eq_some_iff.mp hmove with
  | @start _ front back hfree =>
    refine ⟨hpermits, by simpa using hlength, ?_, fun i result hi ↦ ?_⟩
    · simp only [running, List.countP_append, List.countP_cons, TaskState.isRunning] at hfree ⊢
      simp at hfree ⊢
      omega
    · rcases getElem?_exchange hi .waiting with ⟨-, hrunning⟩ | hi
      · cases hrunning
      · exact hended i result hi
  | @finish _ front back =>
    refine ⟨hpermits, by simpa using hlength, ?_, fun i result hi ↦ ?_⟩
    · simp only [running, List.countP_append, List.countP_cons, TaskState.isRunning] at hrunning ⊢
      simp at hrunning ⊢
      omega
    · rcases getElem?_exchange hi .running with ⟨rfl, hresult⟩ | hi
      · cases hresult
        rfl
      · exact hended i result hi

theorem Sound.of_moves (h : pool.Sound work permits count) (hmoves : pool.moves? work moves = some pool') :
    pool'.Sound work permits count := by
  induction moves generalizing pool with
  | nil =>
    cases hmoves
    exact h
  | cons move moves ih =>
    obtain ⟨next, hmove, hrest⟩ := moves?_cons_eq_some.mp hmoves
    exact ih (h.of_move hmove) hrest

theorem remaining_move (h : pool.move? work move = some pool') : pool'.remaining + 1 = pool.remaining := by
  cases move?_eq_some_iff.mp h <;> simp [remaining, TaskState.remaining] <;> omega

/-- Every move brings the pool nearer to its end. -/
theorem remaining_moves (h : pool.moves? work moves = some pool') :
    pool'.remaining + moves.length = pool.remaining := by
  induction moves generalizing pool with
  | nil =>
    cases h
    rfl
  | cons move moves ih =>
    obtain ⟨next, hmove, hrest⟩ := moves?_cons_eq_some.mp h
    rw [← remaining_move hmove, ← ih hrest, List.length_cons, Nat.add_assoc]

theorem remaining_create : (create permits count : Pool α).remaining = 2 * count := by
  simp [create, remaining, TaskState.remaining, Nat.mul_comm]

/-- No pool gets stuck before it is done. -/
theorem exists_move (h : pool.Sound work permits count) (hdone : pool.isDone = false) :
    ∃ move pool', pool.move? work move = some pool' := by
  obtain ⟨permits, tasks⟩ := pool
  by_cases hrunning : TaskState.running ∈ tasks
  · obtain ⟨front, back, rfl⟩ := List.append_of_mem hrunning
    exact ⟨_, _, move?_eq_some_iff.mpr .finish⟩
  · have hidle : running ⟨permits, tasks⟩ = 0 := by
      refine List.countP_eq_zero.mpr fun t ht ↦ ?_
      cases t with
      | running => exact absurd ht hrunning
      | waiting => simp [TaskState.isRunning]
      | ended => simp [TaskState.isRunning]
    obtain ⟨t, ht, hwaiting⟩ := List.all_eq_false.mp hdone
    cases t with
    | running => exact absurd ht hrunning
    | ended => simp [TaskState.isEnded] at hwaiting
    | waiting =>
      obtain ⟨front, back, rfl⟩ := List.append_of_mem ht
      have hfree := h.permits_eq
      exact ⟨_, _, move?_eq_some_iff.mpr (.start (by simp at hfree; omega))⟩

theorem result?_of_done (h : pool.Sound work permits count) (hdone : pool.isDone = true) {i : Nat} (hi : i < count) :
    pool.result? i = work i := by
  have hlt : i < pool.tasks.length := h.length_eq ▸ hi
  have hended := List.all_eq_true.mp hdone _ (List.getElem_mem hlt)
  have hget := List.getElem?_eq_getElem hlt
  unfold result?
  cases ht : pool.tasks[i] with
  | waiting => simp [ht, TaskState.isEnded] at hended
  | running => simp [ht, TaskState.isEnded] at hended
  | ended result =>
    rw [ht] at hget
    simp only [hget]
    exact h.ended_eq i result hget

theorem mem_results (h : pool.Sound work permits count) (hdone : pool.isDone = true) {i : Nat} {result : α} :
    (i, result) ∈ pool.results ↔ i < count ∧ work i = some result := by
  simp only [results, List.mem_filterMap, List.mem_range, Option.map_eq_some_iff, Prod.mk.injEq, h.length_eq]
  constructor
  · rintro ⟨j, hj, r, hr, rfl, rfl⟩
    exact ⟨hj, (result?_of_done h hdone hj).symm.trans hr⟩
  · rintro ⟨hi, hwork⟩
    exact ⟨i, hi, result, (result?_of_done h hdone hi).trans hwork, rfl, rfl⟩

section

variable {joined : List (Nat × α)} {slots : List (Option α)} {i : Nat}

theorem fill_of_forall_not_mem (h : ∀ result, (i, result) ∉ joined) :
    (joined.foldl (fun slots (i, result) ↦ slots.set i (some result)) slots)[i]? = slots[i]? := by
  induction joined generalizing slots with
  | nil => rfl
  | cons p joined ih =>
    obtain ⟨j, r⟩ := p
    have hj : j ≠ i := by
      rintro rfl
      exact h r List.mem_cons_self
    rw [List.foldl_cons, ih fun result hmem ↦ h result (List.mem_cons_of_mem _ hmem), List.getElem?_set_ne hj]

theorem fill_of_mem {result : α} (hi : i < slots.length) (hmem : (i, result) ∈ joined)
    (hunique : ∀ r, (i, r) ∈ joined → r = result) :
    (joined.foldl (fun slots (i, result) ↦ slots.set i (some result)) slots)[i]? = some (some result) := by
  induction joined generalizing slots with
  | nil => cases hmem
  | cons p joined ih =>
    obtain ⟨j, r⟩ := p
    rw [List.foldl_cons]
    have hrest : ∀ r, (i, r) ∈ joined → r = result := fun r hr ↦ hunique r (List.mem_cons_of_mem _ hr)
    by_cases hlater : ∃ r, (i, r) ∈ joined
    · obtain ⟨r', hr'⟩ := hlater
      exact ih (by simpa using hi) (hrest r' hr' ▸ hr') hrest
    · rw [fill_of_forall_not_mem fun r hr ↦ hlater ⟨r, hr⟩]
      rcases List.mem_cons.mp hmem with heq | hmem
      · cases heq
        simp [hi]
      · exact absurd ⟨result, hmem⟩ hlater

end

/-- The slots of a pool that is done, in whatever order its results are handed in. -/
theorem scatter_of_done (h : pool.Sound work permits count) (hdone : pool.isDone = true) {joined : List (Nat × α)}
    (hjoined : joined.Perm pool.results) : scatter count joined = (List.range count).map work := by
  have hmem {i : Nat} {result : α} : (i, result) ∈ joined ↔ i < count ∧ work i = some result := by
    rw [hjoined.mem_iff, mem_results h hdone]
  refine List.ext_getElem? fun i ↦ ?_
  by_cases hi : i < count
  · rw [List.getElem?_map, List.getElem?_range hi, Option.map_some]
    cases hwork : work i with
    | none =>
      have habsent : ∀ result, (i, result) ∉ joined := fun result hr ↦ by simp [hmem, hwork] at hr
      rw [scatter, fill_of_forall_not_mem habsent, List.getElem?_replicate_of_lt hi]
    | some result =>
      refine fill_of_mem (by simpa using hi) (hmem.mpr ⟨hi, hwork⟩) fun r hr ↦ ?_
      exact Option.some.inj ((hmem.mp hr).2.symm.trans hwork)
  · have habsent : ∀ result, (i, result) ∉ joined := fun result hr ↦ hi (hmem.mp hr).1
    rw [scatter, fill_of_forall_not_mem habsent]
    simp [hi]

end Pool
end AnswerKey
