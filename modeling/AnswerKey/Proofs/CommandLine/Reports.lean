import AnswerKey.CommandLine.Commands
import AnswerKey.Proofs.Challenge.Regeneration
import AnswerKey.Proofs.Challenge.Stages
import AnswerKey.Proofs.Execution.Capture
import AnswerKey.Proofs.Json.Fields
import AnswerKey.Proofs.Settings.Configuration

namespace AnswerKey

theorem exists_mapM_eq_ok {α β ε : Type} {f : α → Except ε β} {R : α → β → Prop} {items : List α}
    (h : ∀ item ∈ items, ∃ result, f item = .ok result ∧ R item result) :
    ∃ results, items.mapM f = .ok results ∧ List.Forall₂ R items results := by
  induction items with
  | nil => exact ⟨[], rfl, .nil⟩
  | cons item items ih =>
    obtain ⟨⟨result, hitem, hresult⟩, hitems⟩ := List.forall_mem_cons.mp h
    obtain ⟨results, hmap, hresults⟩ := ih hitems
    refine ⟨result :: results, ?_, .cons hresult hresults⟩
    rw [List.mapM_cons, hitem, hmap]
    rfl

theorem mapM_eq_ok {α β ε : Type} {f : α → Except ε β} {g : α → β} {items : List α}
    (h : ∀ item ∈ items, f item = .ok (g item)) : items.mapM f = .ok (items.map g) := by
  obtain ⟨results, hmap, hresults⟩ := exists_mapM_eq_ok (R := fun item result ↦ g item = result)
    fun item hmem ↦ ⟨g item, h item hmem, rfl⟩
  rw [← List.forall₂_map_left_iff, List.forall₂_eq_eq_eq] at hresults
  rw [hmap, hresults]

theorem mapM_ne_ok {α β ε : Type} {f : α → Except ε β} {item : α} {items : List α} (hmem : item ∈ items)
    (h : ∀ result, f item ≠ .ok result) (results : List β) : items.mapM f ≠ .ok results := by
  induction items generalizing results with
  | nil => cases hmem
  | cons first items ih =>
    rw [List.mapM_cons]
    cases hfirst : f first with
    | error failure => exact nofun
    | ok result =>
      rcases List.mem_cons.mp hmem with rfl | hmem
      · exact absurd hfirst (h result)
      · cases hmap : items.mapM f with
        | error failure => exact nofun
        | ok others => exact absurd hmap (ih hmem others)

namespace CommandLine

/-- The output is one array with an entry for each item; it is followed by a complaint if items have failed. -/
structure Reports {ι : Type} (exit : Exit) (items : List ι) (succeeds : ι → Bool) (Describes : ι → Json → Prop)
    (complaint : (failed total : Nat) → String) : Prop where
  printed : ∃ entries, List.Forall₂ Describes items entries ∧
    exit.stdout = .ofList ((Json.array entries).pretty ++ ['\n'])
  code : exit.code = 0 ↔ ∀ item ∈ items, succeeds item = true
  complained : exit.complaint =
    if items.all succeeds then none
    else some ("Error: " ++ complaint (items.countP (!succeeds ·)) items.length ++ "\n")

theorem Complaint.text_of_no_causes (message : String) :
    Complaint.text ⟨message, []⟩ = "Error: " ++ message ++ "\n" := by
  have hcauses : causesText [] = "" := rfl
  rw [Complaint.text, hcauses, String.append_empty]

theorem reports_of_forall₂ {ι : Type} {items : List ι} {succeeds : ι → Bool} {Describes : ι → Json → Prop}
    {entries : List (Bool × Json)} (complaint : (failed total : Nat) → String)
    (h : List.Forall₂ (fun item entry ↦ entry.1 = succeeds item ∧ Describes item entry.2) items entries) :
    Reports (finish (.ok (batchAnswer entries complaint))) items succeeds Describes complaint := by
  have hfailed : entries.countP (fun entry ↦ !entry.1) = items.countP (!succeeds ·) := by
    induction h with
    | nil => rfl
    | cons hentry _ ih => simp only [List.countP_cons, hentry.1, ih]
  have hall : items.countP (!succeeds ·) = 0 ↔ ∀ item ∈ items, succeeds item = true := by
    simp [List.countP_eq_zero]
  have hdescribes : List.Forall₂ Describes items (entries.map Prod.snd) :=
    List.forall₂_map_right_iff.mpr (h.imp fun _ _ ↦ And.right)
  refine ⟨⟨entries.map Prod.snd, hdescribes, rfl⟩, ?_, ?_⟩
  · rw [← hall, ← hfailed]
    by_cases hzero : entries.countP (fun entry ↦ !entry.1) = 0 <;> simp [finish, batchAnswer, hzero]
  · simp only [finish, batchAnswer, hfailed, ← h.length_eq, List.all_eq_true, ← hall]
    split
    · rfl
    · exact congrArg some (Complaint.text_of_no_causes _)

/-- The files, each with what was read from it. -/
def Loaded {α : Type} (read : String → Result α) (files : List String) (items : List (String × α)) : Prop :=
  files = items.map Prod.fst ∧ ∀ item ∈ items, read item.1 = .ok item.2

section

variable (world : World) (config : Configuration)

def verdict (c : Challenge) : Except VerifyFailure Report := (c.verify (machine world config c.dialect) config.limits).2

def values (s : Snippet) : Except VerifyFailure (List Json) :=
  (s.evaluate (machine world config s.dialect) config.limits []).value

/-- What the report of the verification says of a file with a challenge. -/
structure VerifyEntry (item : String × Challenge) (entry : Json) : Prop where
  challenge : entry.member? "challenge" = some (.string item.2.id)
  passed : entry.member? "passed" = some (.bool (verdict world config item.2).isOk)
  defect : entry.member? "configuration_error" = some (.bool true) ↔
    ∃ defect, verdict world config item.2 = .error (.fault (.defect defect))

/-- What the report of the regeneration says of a file with a snippet. -/
structure RegenerateEntry (item : String × Snippet) (entry : Json) : Prop where
  file : entry.member? "file" = some (.string item.1)
  values : entry.member? "values" = (values world config item.2).toOption.map .array

end

variable {world : World} {config : Configuration} {lang : Option Dialect} {files : List String}

theorem leaveRoom_of_readConfiguration {path : String} (h : readConfiguration world path = .ok config) :
    config.limits.LeaveRoom := by
  unfold readConfiguration at h
  split at h
  · cases h
  · split at h
    · next hok =>
      obtain rfl := Except.ok.inj h
      exact Configuration.leaveRoom_of_read hok
    · cases h
    · cases h

theorem leaveRoom_of_configuration {i : Invocation} (h : configuration world i = .ok config) :
    config.limits.LeaveRoom := by
  unfold configuration at h
  cases hpath : i.config with
  | none =>
    simp only [hpath, bind, Except.bind, pure, Except.pure] at h
    split at h
    · obtain rfl := Except.ok.inj h
      exact Limits.leaveRoom_default
    · cases h
  | some path =>
    cases hc : readConfiguration world path with
    | error abort =>
      rw [hpath] at h
      simp only [hc, bind, Except.bind] at h
      cases h
    | ok c =>
      rw [hpath] at h
      simp only [hc, bind, Except.bind, pure, Except.pure] at h
      split at h
      · obtain rfl := Except.ok.inj h
        have hroom : c.limits.LeaveRoom := leaveRoom_of_readConfiguration hc
        exact hroom
      · cases h

theorem machine_execute_ne_none (hroom : config.limits.LeaveRoom) (dialect : Dialect) (bindings : Bindings)
    (script : Script) : ((machine world config dialect).execute config.limits bindings script).value ≠ none := by
  cases hcheck : Adapter.check (machine world config dialect) config.limits script with
  | error failure =>
    rw [Adapter.execute_of_refused hcheck]
    exact Option.some_ne_none _
  | ok =>
    rw [Adapter.execute_of_checked hcheck]
    intro hnone
    exact Script.runChildren_outcome_ne_none hroom.1 hroom.2 (Limits.outcomeOf_eq_none_iff.mp hnone).2

/-- A verification ends with a report or a failure, unless a line cannot be scanned. -/
theorem verdict_ne_crash {c : Challenge} (hroom : config.limits.LeaveRoom)
    (h : c.snippet.transform ≠ .error .unscannable) :
    verdict world config c ≠ .error (.fault .unscannable) ∧ verdict world config c ≠ .error .brokenOff := by
  by_cases hkey : c.answers = []
  · rw [verdict, Challenge.verify_of_no_answers hkey]
    constructor <;> rintro ⟨⟩
  cases hs : c.snippet.transform with
  | error fault =>
    rw [verdict, Challenge.verify_of_fault hkey hs]
    constructor
    · rintro ⟨⟩
      exact h hs
    · rintro ⟨⟩
  | ok script =>
    rw [verdict, Challenge.verify_of_script hkey hs]
    split
    · next hnone => exact absurd hnone (machine_execute_ne_none hroom _ _ _)
    · constructor <;> rintro ⟨⟩
    · simp only [Challenge.judge]
      split <;> constructor <;> rintro ⟨⟩

theorem isDefect_iff {failure : VerifyFailure} :
    failure.isDefect = true ↔ ∃ defect, failure = .fault (.defect defect) := by
  constructor
  · intro h
    cases failure with
    | fault fault =>
      cases fault with
      | defect defect => exact ⟨defect, rfl⟩
      | unscannable => cases h
    | execution | brokenOff | mismatch => cases h
  · rintro ⟨defect, rfl⟩
    rfl

theorem exists_verifyEntry (hroom : config.limits.LeaveRoom) {item : String × Challenge}
    (hread : readChallenge world item.1 = .ok item.2) (hscan : item.2.snippet.transform ≠ .error .unscannable) :
    ∃ entry, verifyEntry world config item.1 = .ok entry ∧
      entry.1 = (verdict world config item.2).isOk ∧ VerifyEntry world config item entry.2 := by
  obtain ⟨hunscannable, hbroken⟩ : verdict world config item.2 ≠ .error (.fault .unscannable) ∧
      verdict world config item.2 ≠ .error .brokenOff := verdict_ne_crash hroom hscan
  have hfold : (item.2.verify (machine world config item.2.dialect) config.limits).2 = verdict world config item.2 :=
    rfl
  simp only [verifyEntry, hread, bind, Except.bind, hfold]
  cases hresult : verdict world config item.2 with
  | ok report =>
    refine ⟨_, rfl, rfl, ?_, ?_, ?_⟩
    · rw [Json.member?_ofFields]
      rfl
    · rw [Json.member?_ofFields, hresult]
      rfl
    · rw [Json.member?_ofFields, hresult]
      simp [Json.lookup_cons_ite]
  | error failure =>
    split
    · next heq => cases heq
    · next heq => exact absurd (hresult.trans heq) hunscannable
    · next heq => exact absurd (hresult.trans heq) hbroken
    · next heq =>
      cases heq
      refine ⟨_, rfl, rfl, ?_, ?_, ?_⟩
      · rw [Json.member?_ofFields]
        rfl
      · rw [Json.member?_ofFields, hresult]
        rfl
      · rw [Json.member?_ofFields, hresult]
        simp [Json.lookup_cons_ite, isDefect_iff]

theorem adapter_childRegistry (overflow : Overflow) (programs : Programs) (limits : Limits) (host : Host)
    (dialect : Dialect) : (childRegistry overflow programs limits host).adapter dialect =
      .ok (childAdapter overflow programs limits host dialect) := by
  cases dialect <;> rfl

/-- Losing its task is one more way in which a snippet fails. -/
theorem toOption_regenerated (s : Snippet) :
    (s.regenerated (childRegistry world.overflow config.programs config.limits world.host) config.limits).toOption =
      (values world config s).toOption := by
  have hvalue : (s.evaluateWith (childRegistry world.overflow config.programs config.limits world.host)
      config.limits).value = values world config s := by
    rw [Snippet.evaluateWith, adapter_childRegistry]
    rfl
  rw [Snippet.regenerated, hvalue]
  unfold taskResult
  split
  · next h =>
    rw [h]
    rfl
  · next h =>
    rw [h]
    rfl
  · rfl

theorem regenerateEntry_describes {path : String} {s : Snippet} (expressions : Option (List Text.Line))
    {result : Except VerifyFailure (List Json)} (h : result.toOption = (values world config s).toOption) :
    (regenerateEntry path expressions result).1 = (values world config s).isOk ∧
      RegenerateEntry world config (path, s) (regenerateEntry path expressions result).2 := by
  have hok : (values world config s).isOk = result.toOption.isSome := by
    rw [h]
    cases values world config s <;> rfl
  rw [hok]
  cases result with
  | ok found =>
    refine ⟨rfl, ?_, ?_⟩
    · rw [regenerateEntry, Json.member?_ofFields]
      rfl
    · rw [regenerateEntry, Json.member?_ofFields, ← h]
      rfl
  | error failure =>
    refine ⟨rfl, ?_, ?_⟩
    · rw [regenerateEntry, Json.member?_ofFields]
      rfl
    · rw [regenerateEntry, Json.member?_ofFields, ← h]
      rfl

theorem listedExpressions_eq {s : Snippet} (h : s.expressions ≠ .error .unscannable) :
    listedExpressions s = .ok s.expressions.toOption := by
  unfold listedExpressions
  split
  · next hs => rw [hs]; rfl
  · next hs => rw [hs]; rfl
  · next hs => exact absurd hs h

theorem reports_verifyCommand {items : List (String × Challenge)} (hroom : config.limits.LeaveRoom)
    (hload : Loaded (readChallenge world) files items)
    (hscan : ∀ item ∈ items, item.2.snippet.transform ≠ .error .unscannable) :
    Reports (finish (verifyCommand world config files)) items (fun item ↦ (verdict world config item.2).isOk)
      (VerifyEntry world config) fun failed total ↦ s!"{failed} of {total} challenge(s) failed verification" := by
  obtain ⟨rfl, hread⟩ := hload
  obtain ⟨entries, hmap, hentries⟩ := exists_mapM_eq_ok fun item hmem ↦
    exists_verifyEntry hroom (hread item hmem) (hscan item hmem)
  have hcommand : verifyCommand world config (items.map Prod.fst) = .ok (batchAnswer entries
      fun failed total ↦ s!"{failed} of {total} challenge(s) failed verification") := by
    rw [verifyCommand, List.mapM_map]
    exact congrArg (Except.bind · _) hmap
  rw [hcommand]
  exact reports_of_forall₂ _ hentries

section

variable {items : List (String × Snippet)} (hload : Loaded (readSnippet world lang) files items)
  (hscan : ∀ item ∈ items, item.2.expressions ≠ .error .unscannable)

include hload hscan

theorem regenerateCommand_eq : regenerateCommand world config lang files =
    match regenerateWithin (childRegistry world.overflow config.programs config.limits world.host) config.limits
      config.maxConcurrent (items.map Prod.snd) with
    | none => .error .crash
    | some results => .ok (batchAnswer
        ((files.zip ((items.map fun item ↦ item.2.expressions.toOption).zip results)).map
          fun (path, expressions, result) ↦ regenerateEntry path expressions result)
        fun failed total ↦ s!"{failed} of {total} snippet(s) failed to run") := by
  obtain ⟨rfl, hread⟩ := hload
  have hsnippets : (items.map Prod.fst).mapM (readSnippet world lang) = .ok (items.map Prod.snd) := by
    rw [List.mapM_map]
    exact mapM_eq_ok hread
  have hexpressions : (items.map Prod.snd).mapM listedExpressions =
      .ok (items.map fun item ↦ item.2.expressions.toOption) := by
    rw [List.mapM_map]
    exact mapM_eq_ok fun item hmem ↦ listedExpressions_eq (hscan item hmem)
  rw [regenerateCommand, hsnippets]
  simp only [bind, Except.bind, hexpressions]
  rfl

theorem reports_regenerateCommand (hcapacity : max 1 config.maxConcurrent ≤ Pool.capacity) :
    Reports (finish (regenerateCommand world config lang files)) items (fun item ↦ (values world config item.2).isOk)
      (RegenerateEntry world config) fun failed total ↦ s!"{failed} of {total} snippet(s) failed to run" := by
  rw [regenerateCommand_eq hload hscan, regenerateWithin_eq hcapacity, hload.1, regenerate, List.map_map]
  dsimp only
  rw [List.zip_map', List.zip_map', List.map_map]
  refine reports_of_forall₂ _ (List.forall₂_map_right_iff.mpr (List.forall₂_same.mpr fun item _ ↦ ?_))
  exact regenerateEntry_describes _ (toOption_regenerated item.2)

theorem regenerateCommand_beyond_capacity (hcapacity : Pool.capacity < max 1 config.maxConcurrent) :
    regenerateCommand world config lang files = .error .crash := by
  rw [regenerateCommand_eq hload hscan, regenerateWithin_eq_none hcapacity]

end

theorem finish_of_error {result : Result Answer} (h : ∀ answer, result ≠ .ok answer) :
    (finish result).code ≠ 0 ∧ (finish result).stdout = "" := by
  cases result with
  | ok answer => exact absurd rfl (h answer)
  | error abort =>
    cases abort with
    | complaint c => exact ⟨Nat.one_ne_zero, rfl⟩
    | crash => exact ⟨by decide, rfl⟩

theorem bind_ne_ok {α β ε : Type} {result : Except ε α} {f : α → Except ε β} (h : ∀ a, result ≠ .ok a) (b : β) :
    result.bind f ≠ .ok b := by
  cases result with
  | ok a => exact absurd rfl (h a)
  | error failure => exact nofun

theorem verifyCommand_ne_ok {path : String} (hmem : path ∈ files) (h : ∀ c, readChallenge world path ≠ .ok c)
    (answer : Answer) : verifyCommand world config files ≠ .ok answer :=
  bind_ne_ok (mapM_ne_ok hmem (bind_ne_ok h)) answer

theorem regenerateCommand_ne_ok {path : String} (hmem : path ∈ files) (h : ∀ s, readSnippet world lang path ≠ .ok s)
    (answer : Answer) : regenerateCommand world config lang files ≠ .ok answer :=
  bind_ne_ok (mapM_ne_ok hmem h) answer

theorem perform_eq {i : Invocation} (h : configuration world i = .ok config) :
    (i.subcommand = .verify → perform world i = verifyCommand world config i.files) ∧
      (i.subcommand = .regenerate → perform world i = regenerateCommand world config i.lang i.files) := by
  constructor <;> intro hsubcommand <;> simp only [perform, h, hsubcommand, bind, Except.bind]

/-- A batch has a report with one entry for each file in the order of the files, and a complaint that counts the entries
of what has failed. There is no report if a file cannot be read, or if snippets are to be run with more permits than a
pool can have. -/
theorem batch_reports (world : World) (args : List String) {i : Invocation} {config : Configuration}
    (hinvocation : invocation world.environment? args = .ok i) (hconfig : configuration world i = .ok config) :
    (∀ items, i.subcommand = .verify → Loaded (readChallenge world) i.files items →
      (∀ item ∈ items, item.2.snippet.transform ≠ .error .unscannable) →
      Reports (execute world args) items (fun item ↦ (verdict world config item.2).isOk) (VerifyEntry world config)
        fun failed total ↦ s!"{failed} of {total} challenge(s) failed verification") ∧
    (∀ items, i.subcommand = .regenerate → Loaded (readSnippet world i.lang) i.files items →
      (∀ item ∈ items, item.2.expressions ≠ .error .unscannable) →
      (config.maxConcurrent ≤ Pool.capacity →
        Reports (execute world args) items (fun item ↦ (values world config item.2).isOk)
          (RegenerateEntry world config) fun failed total ↦ s!"{failed} of {total} snippet(s) failed to run") ∧
      (Pool.capacity < config.maxConcurrent → execute world args = ⟨101, "", none⟩)) ∧
    ((i.subcommand = .verify ∧ ∃ path ∈ i.files, ∀ c, readChallenge world path ≠ .ok c) ∨
      (i.subcommand = .regenerate ∧ ∃ path ∈ i.files, ∀ s, readSnippet world i.lang path ≠ .ok s) →
      (execute world args).code ≠ 0 ∧ (execute world args).stdout = "") := by
  obtain ⟨hverify, hregenerate⟩ := perform_eq hconfig
  rw [execute, hinvocation]
  dsimp only
  refine ⟨fun items hsubcommand hload hscan ↦ ?_, fun items hsubcommand hload hscan ↦ ?_, ?_⟩
  · rw [hverify hsubcommand]
    exact reports_verifyCommand (leaveRoom_of_configuration hconfig) hload hscan
  · rw [hregenerate hsubcommand]
    refine ⟨fun hcapacity ↦ reports_regenerateCommand hload hscan (max_le (by decide) hcapacity), fun hcapacity ↦ ?_⟩
    exact congrArg finish (regenerateCommand_beyond_capacity hload hscan (lt_max_of_lt_right hcapacity))
  · rintro (⟨hsubcommand, path, hmem, hunread⟩ | ⟨hsubcommand, path, hmem, hunread⟩)
    · rw [hverify hsubcommand]
      exact finish_of_error (verifyCommand_ne_ok hmem hunread)
    · rw [hregenerate hsubcommand]
      exact finish_of_error (regenerateCommand_ne_ok hmem hunread)

def printing (value : String) : List Char :=
  "function main() \x7b\n  console.log(".toList ++ value.toList ++ ");\n\x7d\n".toList

def challengeFile (id value answer : String) : List Char :=
  "id = \x22".toList ++ id.toList ++ "\x22\nlanguage = \x22js\x22\nsource = '''\n".toList ++ printing value ++
    "'''\nanswers = [\x22".toList ++ answer.toList ++ "\x22]\n".toList

/-- Two challenges, the second with a wrong answer, two snippets, and settings that ask for more permits than there are.
The machine tells the scripts that print `2` from the others. -/
def pairWorld : World where
  file? name :=
    if name = "one.toml" then some (challengeFile "one" "1" "1")
    else if name = "two.toml" then some (challengeFile "two" "2" "3")
    else if name = "a.js" then some (printing "1")
    else if name = "b.js" then some (printing "2")
    else if name = "c.toml" then some "max_concurrent = 9223372036854775807\n".toList
    else none
  environment? _ := none
  host start :=
    if start.files.any fun file ↦ Text.contains file.2 "answers.push(2)".toList then
      .ended (AnswerKey.printed "[2]".toList) [] (some 0) 7
    else .ended (AnswerKey.printed "[1]".toList) [] (some 0) 5
  overflow := .wraps

def challengeOne : Challenge := ⟨"one", .javaScript, printing "1", ["1"], []⟩

def challengeTwo : Challenge := ⟨"two", .javaScript, printing "2", ["3"], []⟩

def snippetA : Snippet := .ofText "a" .javaScript (printing "1")

def snippetB : Snippet := .ofText "b" .javaScript (printing "2")

def onFiles (subcommand : Subcommand) (config : Option String) (files : List String) : Invocation :=
  ⟨subcommand, config, none, none, false, [], files⟩

theorem readChallenge_eq {path : String} {c : Challenge} (hbindings : c.bindings = [])
    (h : (readChallenge pairWorld path).toOption.map (fun found ↦
        (found.id, found.dialect, found.source, found.answers, found.bindings.map Prod.fst)) =
      some (c.id, c.dialect, c.source, c.answers, [])) : readChallenge pairWorld path = .ok c := by
  cases hread : readChallenge pairWorld path with
  | error abort =>
    rw [hread] at h
    cases h
  | ok found =>
    obtain ⟨id, dialect, source, answers, bindings⟩ := found
    obtain ⟨id', dialect', source', answers', bindings'⟩ := c
    simp only [hread, Except.toOption, Option.map_some, Option.some.injEq, Prod.mk.injEq, List.map_eq_nil_iff] at h
    obtain ⟨rfl, rfl, rfl, rfl, rfl⟩ := h
    obtain rfl : bindings' = [] := hbindings
    rfl

theorem ne_unscannable_of_isSome {α : Type} {result : Except Fault α} (h : result.toOption.isSome = true) :
    result ≠ .error .unscannable := by
  rintro rfl
  cases h

theorem loaded_challenges : Loaded (readChallenge pairWorld) ["one.toml", "two.toml"]
    [("one.toml", challengeOne), ("two.toml", challengeTwo)] :=
  ⟨rfl, List.forall_mem_cons.mpr ⟨readChallenge_eq rfl (by decide +kernel),
    List.forall_mem_singleton.mpr (readChallenge_eq rfl (by decide +kernel))⟩⟩

theorem loaded_snippets : Loaded (readSnippet pairWorld none) ["a.js", "b.js"]
    [("a.js", snippetA), ("b.js", snippetB)] :=
  ⟨rfl, List.forall_mem_cons.mpr ⟨rfl, List.forall_mem_singleton.mpr rfl⟩⟩

theorem snippets_expressions : ∀ item ∈ [("a.js", snippetA), ("b.js", snippetB)],
    item.2.expressions ≠ .error .unscannable :=
  List.forall_mem_cons.mpr ⟨ne_unscannable_of_isSome (by decide +kernel),
    List.forall_mem_singleton.mpr (ne_unscannable_of_isSome (by decide +kernel))⟩

theorem batch_reports_pair :
    Reports (execute pairWorld ["verify", "one.toml", "two.toml"])
        [("one.toml", challengeOne), ("two.toml", challengeTwo)]
        (fun item ↦ (verdict pairWorld {} item.2).isOk) (VerifyEntry pairWorld {})
        (fun failed total ↦ s!"{failed} of {total} challenge(s) failed verification") ∧
      (verdict pairWorld {} challengeOne).isOk = true ∧ (verdict pairWorld {} challengeTwo).isOk = false ∧
      Reports (execute pairWorld ["regenerate", "a.js", "b.js"]) [("a.js", snippetA), ("b.js", snippetB)]
        (fun item ↦ (values pairWorld {} item.2).isOk) (RegenerateEntry pairWorld {})
        (fun failed total ↦ s!"{failed} of {total} snippet(s) failed to run") ∧
      (values pairWorld {} snippetA).toOption.map (·.map Json.compact) = some ["1".toList] ∧
      (values pairWorld {} snippetB).toOption.map (·.map Json.compact) = some ["2".toList] ∧
      (execute pairWorld ["verify", "one.toml", "gone.toml"]).code ≠ 0 ∧
      (execute pairWorld ["verify", "one.toml", "gone.toml"]).stdout = "" := by
  have hconfig (subcommand : Subcommand) (files : List String) :
      configuration pairWorld (onFiles subcommand none files) = .ok {} := rfl
  refine ⟨?_, by decide +kernel, by decide +kernel, ?_, by decide +kernel, by decide +kernel, ?_⟩
  · have hargs : invocation pairWorld.environment? ["verify", "one.toml", "two.toml"] =
        .ok (onFiles .verify none ["one.toml", "two.toml"]) := rfl
    exact (batch_reports pairWorld _ hargs (hconfig _ _)).1 _ rfl loaded_challenges
      (List.forall_mem_cons.mpr ⟨ne_unscannable_of_isSome (by decide +kernel),
        List.forall_mem_singleton.mpr (ne_unscannable_of_isSome (by decide +kernel))⟩)
  · have hargs : invocation pairWorld.environment? ["regenerate", "a.js", "b.js"] =
        .ok (onFiles .regenerate none ["a.js", "b.js"]) := rfl
    exact ((batch_reports pairWorld _ hargs (hconfig _ _)).2.1 _ rfl loaded_snippets snippets_expressions).1 (by decide)
  · have hargs : invocation pairWorld.environment? ["verify", "one.toml", "gone.toml"] =
        .ok (onFiles .verify none ["one.toml", "gone.toml"]) := rfl
    exact (batch_reports pairWorld _ hargs (hconfig _ _)).2.2
      (.inl ⟨rfl, "gone.toml", List.mem_cons_of_mem _ (List.mem_singleton_self _), nofun⟩)

/-- A valid configuration that asks for too many permits, and no report on files that can be read and scanned. -/
theorem regenerate_unreported : ∃ config,
    invocation pairWorld.environment? ["--config", "c.toml", "regenerate", "a.js", "b.js"] =
        .ok (onFiles .regenerate (some "c.toml") ["a.js", "b.js"]) ∧
      configuration pairWorld (onFiles .regenerate (some "c.toml") ["a.js", "b.js"]) = .ok config ∧
      Loaded (readSnippet pairWorld none) ["a.js", "b.js"] [("a.js", snippetA), ("b.js", snippetB)] ∧
      (∀ item ∈ [("a.js", snippetA), ("b.js", snippetB)], item.2.expressions ≠ .error .unscannable) ∧
      execute pairWorld ["--config", "c.toml", "regenerate", "a.js", "b.js"] = ⟨101, "", none⟩ := by
  have hargs : invocation pairWorld.environment? ["--config", "c.toml", "regenerate", "a.js", "b.js"] =
      .ok (onFiles .regenerate (some "c.toml") ["a.js", "b.js"]) := rfl
  have hpermits : (configuration pairWorld (onFiles .regenerate (some "c.toml") ["a.js", "b.js"])).toOption.map
      (·.maxConcurrent) = some 9223372036854775807 := by decide +kernel
  cases hconfig : configuration pairWorld (onFiles .regenerate (some "c.toml") ["a.js", "b.js"]) with
  | error abort =>
    rw [hconfig] at hpermits
    cases hpermits
  | ok config =>
    rw [hconfig] at hpermits
    have hmany : config.maxConcurrent = 9223372036854775807 := Option.some.inj hpermits
    have hcapacity : Pool.capacity < max 1 config.maxConcurrent := by
      rw [hmany]
      decide
    refine ⟨config, hargs, rfl, loaded_snippets, snippets_expressions, ?_⟩
    rw [execute, hargs]
    dsimp only
    rw [(perform_eq hconfig).2 rfl]
    exact congrArg finish (regenerateCommand_beyond_capacity loaded_snippets snippets_expressions hcapacity)

end CommandLine
end AnswerKey
