import AnswerKey.Challenge.Batch
import AnswerKey.Proofs.Challenge.Timetable

namespace AnswerKey

variable {registry : Registry} {limits : Limits} {snippets : List Snippet} {maxConcurrent : Nat}
  {work : Nat → Option (Except VerifyFailure (List Json))} {joined : List (Nat × Except VerifyFailure (List Json))}
  {pool : Pool (Except VerifyFailure (List Json))}

theorem collected_of_done (h : pool.Sound work maxConcurrent snippets.length) (hdone : pool.isDone = true)
    (hjoined : joined.Perm pool.results) :
    collected snippets joined = snippets.zipIdx.map fun (s, i) ↦ (work i).getD (.error (lostTask s)) := by
  rw [collected, Pool.scatter_of_done h hdone hjoined, List.zip_map_right, List.map_map, List.zipIdx_eq_zip_range',
    List.range_eq_range']
  rfl

/-- What the tasks do when some of them crash on top of those that are lost anyhow. -/
def taskWorkUnless (crashes : Nat → Bool) (registry : Registry) (limits : Limits) (snippets : List Snippet)
    (i : Nat) : Option (Except VerifyFailure (List Json)) :=
  if crashes i then none else taskWork registry limits snippets i

theorem collected_taskWorkUnless {crashes : Nat → Bool}
    (h : pool.Sound (taskWorkUnless crashes registry limits snippets) maxConcurrent snippets.length)
    (hdone : pool.isDone = true) (hjoined : joined.Perm pool.results) :
    collected snippets joined = snippets.zipIdx.map fun (s, i) ↦
      if crashes i then .error (lostTask s) else s.regenerated registry limits := by
  rw [collected_of_done h hdone hjoined]
  refine List.map_congr_left fun (s, i) hs ↦ ?_
  have hsnippet := List.mem_zipIdx_iff_getElem?.mp hs
  cases hcrash : crashes i with
  | true => simp [taskWorkUnless, hcrash]
  | false => simp [taskWorkUnless, hcrash, taskWork, hsnippet, Snippet.regenerated]

theorem regenerateWithin_eq (h : max 1 maxConcurrent ≤ Pool.capacity) :
    regenerateWithin registry limits maxConcurrent snippets = some (regenerate registry limits snippets) := by
  have hnone : taskWorkUnless (fun _ ↦ false) registry limits snippets = taskWork registry limits snippets := rfl
  obtain ⟨pool, hmoves, hdone⟩ := Timetable.moves_complete (taskWork registry limits snippets)
    (taskDelay registry limits snippets) maxConcurrent snippets.length
  have hsound := Pool.sound_create.of_moves hmoves
  have hcollected := collected_taskWorkUnless (hnone ▸ hsound) hdone (List.Perm.refl _)
  have halone : collected snippets pool.results = regenerate registry limits snippets := by
    rw [hcollected, regenerate, ← List.zipIdx_map_fst 0 snippets, List.map_map, List.zipIdx_map_fst]
    rfl
  simp only [regenerateWithin, Pool.create?, h, if_true, Option.bind_some, hmoves, Option.map_some, halone]

theorem regenerateWithin_eq_none (h : Pool.capacity < max 1 maxConcurrent) :
    regenerateWithin registry limits maxConcurrent snippets = none := by
  rw [regenerateWithin, Pool.create?, if_neg (Nat.not_le.mpr h)]
  rfl

/-- However the tasks are run, no more of them run at once than there are permits, they do not get stuck, and each
snippet gets what it gives by itself, unless its own task crashes. By the timetable they are run to the end. With more
permits than a pool can have nothing is run at all. -/
theorem regeneration_of_moves (registry : Registry) (limits : Limits) (snippets : List Snippet) (maxConcurrent : Nat)
    (crashes : Nat → Bool) :
    (max 1 maxConcurrent ≤ Pool.capacity →
      (∃ start, Pool.create? maxConcurrent snippets.length = some start ∧
        ∀ moves pool, start.moves? (taskWorkUnless crashes registry limits snippets) moves = some pool →
          pool.running ≤ max 1 maxConcurrent ∧ moves.length ≤ 2 * snippets.length ∧
          (pool.isDone = false → ∃ move next,
            pool.move? (taskWorkUnless crashes registry limits snippets) move = some next) ∧
          (pool.isDone = true → ∀ joined, joined.Perm pool.results →
            collected snippets joined = snippets.zipIdx.map fun (s, i) ↦
              if crashes i then .error (lostTask s) else s.regenerated registry limits)) ∧
      regenerateWithin registry limits maxConcurrent snippets = some (regenerate registry limits snippets)) ∧
    (Pool.capacity < max 1 maxConcurrent → regenerateWithin registry limits maxConcurrent snippets = none) := by
  refine ⟨fun h ↦ ⟨⟨Pool.create maxConcurrent snippets.length, if_pos h, fun moves pool hmoves ↦ ?_⟩,
    regenerateWithin_eq h⟩, regenerateWithin_eq_none⟩
  have hsound := Pool.sound_create.of_moves hmoves
  refine ⟨hsound.permits_eq ▸ hsound.running_le, ?_, Pool.exists_move hsound,
    fun hdone joined hjoined ↦ collected_taskWorkUnless hsound hdone hjoined⟩
  have hremaining := Pool.remaining_moves hmoves
  rw [Pool.remaining_create] at hremaining
  omega

theorem Snippet.regenerated_of_transform {s : Snippet} {script : Script} {adapter : Adapter} {values : List Json}
    (h : s.transform = .ok script) (hadapter : registry.adapter s.dialect = .ok adapter)
    (hallowed : adapter.check limits script = .ok ())
    (houtcome : limits.outcomeOf (adapter.run script []) = some (.ok values)) :
    s.regenerated registry limits = .ok values := by
  have hvalue : (s.evaluateWith registry limits).value = .ok values := by
    simp only [evaluateWith, hadapter, evaluate, Traced.bind, transformWatched, transformTraced, h, Adapter.execute,
      hallowed, houtcome, Traced.pure]
  rw [regenerated, hvalue]
  rfl

def printsOne : Snippet where
  id := "one"
  dialect := .javaScript
  lines := ["function main() \x7b".toList, "  console.log(1);".toList, "\x7d".toList]

/-- A snippet that gives a value, one for which nothing is registered, and the first one again, whose task crashes. -/
def trio : List Snippet := [printsOne, ⟨"one", .python, []⟩, printsOne]

def nullAdapter : Adapter := ⟨.javaScript, fun _ _ ↦ { outcome := some (.ok [.null]) }⟩

def trioRegistry : Registry := { javaScript := some nullAdapter }

def trioWork : Nat → Option (Except VerifyFailure (List Json)) := taskWorkUnless (· == 2) trioRegistry {} trio

def trioMoves : List Move := [.start 1, .start 0, .finish 0, .start 2, .finish 2, .finish 1]

def trioPool : Pool (Except VerifyFailure (List Json)) where
  permits := 2
  tasks := [.ended (trioWork 0), .ended (trioWork 1), .ended (trioWork 2)]

theorem printsOne_regenerated : printsOne.regenerated trioRegistry {} = .ok [.null] := by
  have hdialect : printsOne.transform.toOption.map (·.dialect) = some .javaScript := by decide +kernel
  cases h : printsOne.transform with
  | error fault => simp [h, Except.toOption] at hdialect
  | ok script =>
    have hscript : script.dialect = .javaScript := by simpa [h, Except.toOption] using hdialect
    have hallowed : nullAdapter.check {} script = .ok () := by
      simp only [Adapter.check, hscript]
      rfl
    exact Snippet.regenerated_of_transform h rfl hallowed rfl

theorem regeneration_of_moves_trio : max 1 2 ≤ Pool.capacity ∧
    (Pool.create 2 3).moves? trioWork trioMoves = some trioPool ∧ trioPool.isDone = true ∧
    collected trio trioPool.results.reverse = [.ok [.null], .error (.execution "one" (.noAdapter .python)),
      .error (.execution "one" (.system "task did not complete"))] := by
  have hcapacity : max 1 2 ≤ Pool.capacity := by decide
  have htrio : (Pool.create 2 3).moves? trioWork trioMoves = some trioPool := rfl
  obtain ⟨⟨start, hstart, hmoves⟩, -⟩ := (regeneration_of_moves trioRegistry {} trio 2 (· == 2)).1 hcapacity
  cases hstart
  refine ⟨hcapacity, htrio, rfl, ?_⟩
  rw [(hmoves trioMoves trioPool htrio).2.2.2 rfl _ (List.reverse_perm _)]
  exact congrArg (· :: _) printsOne_regenerated

/-- Beyond the capacity of a pool nothing is run, where each snippet by itself has its values. -/
theorem regenerateWithin_beyond_capacity : regenerateWithin trioRegistry {} (2 ^ 63 - 1) [printsOne] = none ∧
    regenerate trioRegistry {} [printsOne] = [.ok [.null]] :=
  ⟨regenerateWithin_eq_none (by decide), congrArg (fun result ↦ [result]) printsOne_regenerated⟩

end AnswerKey
