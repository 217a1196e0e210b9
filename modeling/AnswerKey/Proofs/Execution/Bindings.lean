import AnswerKey.Proofs.Execution.Staging
import AnswerKey.Proofs.Json.Proper
import AnswerKey.Proofs.Json.Strings

namespace AnswerKey

open Text

namespace Python

/-- The characters that a backslash and one more character stand for; escapes by number or by name are others. -/
def escapes : List (Char × Char) :=
  [('\\', '\\'), ('\'', '\''), ('\x22', '\x22'), ('a', '\x07'), ('b', '\x08'), ('f', '\x0C'), ('n', '\n'), ('r', '\r'),
    ('t', '\t'), ('v', '\x0B')]

/-- What stands between the double quotes of a literal in Python source, and the text that it stands for. -/
inductive Spells : List Char → List Char → Prop
  | nil : Spells [] []
  | plain {c : Char} {body text : List Char} (hc : c ∉ ['\x22', '\\', '\n', '\r', '\x00']) (h : Spells body text) :
      Spells (c :: body) (c :: text)
  | escaped {c c' : Char} {body text : List Char} (hc : (c, c') ∈ escapes) (h : Spells body text) :
      Spells ('\\' :: c :: body) (c' :: text)

end Python

section

variable {body text : List Char} {c : Char}

/-- Undoes the escapes of quotes and backslashes. There is no answer where a quote stands without a backslash or a
backslash in front of anything else. -/
def unescape? : List Char → Option (List Char)
  | [] => some []
  | '\\' :: c :: body => if c = '\x22' ∨ c = '\\' then (unescape? body).map (c :: ·) else none
  | c :: body => if c = '\x22' ∨ c = '\\' then none else (unescape? body).map (c :: ·)

theorem unescape?_escaped (hc : c = '\x22' ∨ c = '\\') (body : List Char) :
    unescape? ('\\' :: c :: body) = (unescape? body).map (c :: ·) := by
  rw [unescape?, if_pos hc]

theorem unescape?_plain (hc : ¬ (c = '\x22' ∨ c = '\\')) (body : List Char) :
    unescape? (c :: body) = (unescape? body).map (c :: ·) := by
  rw [unescape?, if_neg hc]
  rintro d rest rfl -
  exact hc (.inr rfl)

theorem not_mem_of_control {controls : List Char} (hcontrols : controls.all (·.toNat < 0x20) = true)
    (hc : 0x20 ≤ c.toNat) : c ∉ controls := fun hmem ↦
  absurd (of_decide_eq_true (List.all_eq_true.mp hcontrols c hmem)) (Nat.not_lt.mpr hc)

/-- Of the escapes in JSON text only two are needed for a text without control characters. -/
theorem unescape?_escape (hc : 0x20 ≤ c.toNat) (body : List Char) :
    unescape? (Json.escape c ++ body) = (unescape? body).map (c :: ·) := by
  by_cases hmark : c = '\x22' ∨ c = '\\'
  · have hescape : Json.escape c = ['\\', c] := by rcases hmark with rfl | rfl <;> rfl
    rw [hescape]
    exact unescape?_escaped hmark body
  · have hother : c ∉ ['\x08', '\x0C', '\n', '\r', '\t'] := not_mem_of_control (by decide) hc
    have hescape : Json.escape c = [c] := by
      simp only [List.mem_cons, not_or] at hother
      rw [not_or] at hmark
      simp [Json.escape, hmark, hother, Nat.not_lt.mpr hc]
    rw [hescape]
    exact unescape?_plain hmark body

theorem unescape?_flatMap_escape (h : Printable text) : unescape? (text.flatMap Json.escape) = some text := by
  induction text with
  | nil => rfl
  | cons c text ih =>
    obtain ⟨hc, htext⟩ := printable_cons.mp h
    rw [List.flatMap_cons, unescape?_escape hc, ih htext, Option.map_some]

theorem spells_and_decodes_of_unescape? (hbody : Printable body) (h : unescape? body = some text) :
    Python.Spells body text ∧ Json.Decodes body text := by
  fun_induction unescape? body generalizing text with
  | case1 =>
    obtain rfl := Option.some.inj h
    exact ⟨.nil, .nil⟩
  | case2 c body hc ih =>
    obtain ⟨rest, hrest, rfl⟩ := Option.map_eq_some_iff.mp h
    obtain ⟨hspells, hdecodes⟩ := ih (printable_cons.mp (printable_cons.mp hbody).2).2 hrest
    rcases hc with rfl | rfl
    · exact ⟨.escaped (by decide) hspells, .escaped (by decide) hdecodes⟩
    · exact ⟨.escaped (by decide) hspells, .escaped (by decide) hdecodes⟩
  | case3 => cases h
  | case4 => cases h
  | case5 c body hnot hc ih =>
    obtain ⟨rest, hrest, rfl⟩ := Option.map_eq_some_iff.mp h
    obtain ⟨hcontrol, hbody⟩ := printable_cons.mp hbody
    obtain ⟨hspells, hdecodes⟩ := ih hbody hrest
    rw [not_or] at hc
    have hline : c ∉ ['\n', '\r', '\x00'] := not_mem_of_control (by decide) hcontrol
    have hother : c ∉ ['\x22', '\\', '\n', '\r', '\x00'] := by
      simp only [List.mem_cons, not_or] at hline
      simp [hc, hline]
    exact ⟨.plain hother hspells, .plain hc.1 hc.2 hcontrol hdecodes⟩

end

/-- A line that binds a name to what JSON text stands for, which is written between the quotes of a literal as `body`.
-/
structure BindingLine (name : String) (value : Json) (body line : Line) : Prop where
  line_eq : line = name.toList ++ (" = _snipcheck_json.loads(\x22".toList ++ (body ++ ['\x22', ')']))
  printable : Printable body
  undone : unescape? body = some value.compact
  spelled : Python.Spells body value.compact
  parsed : Json.parse? ('\x22' :: (body ++ ['\x22'])) = some (Json.text value.compact)

namespace Script

variable {fields : List (String × Json)} {bindings : Bindings} {script : Script}

def bindingLine : String × Json → Line
  | (name, value) => name.toList ++ (" = _snipcheck_json.loads(".toList ++ (Json.quoted value.compact ++ [')']))

theorem pythonBinding_eq (binding : String × Json) : pythonBinding binding = bindingLine binding ++ ['\n'] := by
  have hend : ")\n".toList = [')'] ++ ['\n'] := rfl
  delta pythonBinding bindingLine
  simp only [hend, List.append_assoc]

theorem bindingLine_bindingLine (binding : String × Json) :
    BindingLine binding.1 binding.2 (binding.2.compact.flatMap Json.escape) (bindingLine binding) := by
  have hopen : " = _snipcheck_json.loads(\x22".toList = " = _snipcheck_json.loads(".toList ++ ['\x22'] := rfl
  have hbody : Printable (binding.2.compact.flatMap Json.escape) :=
    (Json.printable_quoted binding.2.compact).subset fun _ hc ↦ by simp [Json.quoted, hc]
  have hundone := unescape?_flatMap_escape (Json.printable_compact binding.2)
  obtain ⟨hspells, hdecodes⟩ := spells_and_decodes_of_unescape? hbody hundone
  refine ⟨?_, hbody, hundone, hspells, Json.parse?_of_readsAs (Json.readsAs_string hdecodes)⟩
  delta bindingLine Json.quoted
  simp only [hopen, List.append_assoc, List.cons_append, List.nil_append]

theorem newline_not_mem_bindingLine {binding : String × Json} (h : '\n' ∉ binding.1.toList) :
    '\n' ∉ bindingLine binding := by
  have hquoted := Json.newline_not_mem_quoted binding.2.compact
  delta bindingLine
  simp [h, hquoted]

def linesBehindImport (script : Script) (maxValues : Nat) : List Line :=
  splitOn '\n' (pythonCollectorClass maxValues ++
    (script.textWithCollector "_SnipcheckAnswers()".toList ++ pythonTail script.entrySymbol))

theorem splitOn_pythonSource (h : ∀ binding ∈ bindings, '\n' ∉ binding.1.toList) (script : Script) (maxValues : Nat) :
    splitOn '\n' (script.pythonSource bindings maxValues) =
      "import json as _snipcheck_json".toList :: (bindings.map bindingLine ++ script.linesBehindImport maxValues) := by
  have himport : "import json as _snipcheck_json\n".toList =
      "import json as _snipcheck_json".toList ++ ['\n'] := by decide
  have hlines : ∀ line ∈ "import json as _snipcheck_json".toList :: bindings.map bindingLine, '\n' ∉ line := by
    rw [List.forall_mem_cons, List.forall_mem_map]
    exact ⟨by decide, fun binding hmem ↦ newline_not_mem_bindingLine (h binding hmem)⟩
  have hended : bindings.flatMap pythonBinding = (bindings.map bindingLine).flatMap (· ++ ['\n']) := by
    rw [List.flatMap_map]
    exact List.flatMap_congr fun binding _ ↦ pythonBinding_eq binding
  have hsplit := splitOn_lines hlines (pythonCollectorClass maxValues ++
    (script.textWithCollector "_SnipcheckAnswers()".toList ++ pythonTail script.entrySymbol))
  rw [List.flatMap_cons, ← hended] at hsplit
  delta pythonSource pythonHead linesBehindImport
  rw [himport]
  simpa only [List.append_assoc, List.cons_append] using hsplit

/-- A staged Python script has one line for each of its bindings, in the order of their names, and all other lines are
as they are without any. On each of these lines stands a literal that Python and JSON read alike, as the value's text.
-/
theorem stage_bindings (hdialect : script.dialect = .python) (hnames : ∀ field ∈ fields, '\n' ∉ field.1.toList)
    (maxValues : Nat) (programs : Programs) (directory : String) :
    ∃ source lines others,
      script.stage (Json.sortFields fields) maxValues programs directory =
        .ok ⟨[("script.py", source)], [⟨programs.python, [inDirectory directory "script.py"]⟩]⟩ ∧
      splitOn '\n' source = "import json as _snipcheck_json".toList :: (lines ++ others) ∧
      splitOn '\n' (script.pythonSource [] maxValues) = "import json as _snipcheck_json".toList :: others ∧
      List.Forall₂ (fun binding line ↦ ∃ body, BindingLine binding.1 binding.2 body line)
        (Json.sortFields fields) lines ∧
      ((Json.sortFields fields).map Prod.fst).Pairwise (· < ·) ∧
      ∀ name, (Json.sortFields fields).lookup name = fields.reverse.lookup name := by
  have hsorted : ∀ binding ∈ Json.sortFields fields, '\n' ∉ binding.1.toList := fun binding hmem ↦
    hnames binding (Json.mem_of_mem_sortFields hmem)
  refine ⟨script.pythonSource (Json.sortFields fields) maxValues, (Json.sortFields fields).map bindingLine,
    script.linesBehindImport maxValues, ?_, splitOn_pythonSource hsorted script maxValues,
    splitOn_pythonSource (List.forall_mem_nil _) script maxValues, ?_, Json.pairwise_sortFields fields,
    Json.lookup_sortFields fields⟩
  · rw [stage, hdialect]
    rfl
  · rw [List.forall₂_map_right_iff, List.forall₂_same]
    exact fun binding _ ↦ ⟨_, bindingLine_bindingLine binding⟩

def awkwardFields : List (String × Json) :=
  [("b", .bool true), ("a", .null), ("b", .array [.string "\x22\\\n\x00é"])]

def printsLimit : List Char := "if __name__ == '__main__':\n    print(a)\n".toList

theorem stage_bindings_awkward : ∃ script source first second others,
    (Snippet.ofText "limit" .python printsLimit).transform = .ok script ∧
      script.stage (Json.sortFields awkwardFields) 7 {} "run" =
        .ok ⟨[("script.py", source)], [⟨"python3", ["run/script.py"]⟩]⟩ ∧
      splitOn '\n' source = "import json as _snipcheck_json".toList :: first :: second :: others ∧
      (∃ body, BindingLine "a" .null body first) ∧
      ∃ body, BindingLine "b" (.array [.string "\x22\\\n\x00é"]) body second := by
  have hfacts : (Snippet.ofText "limit" .python printsLimit).transform.toOption.map (·.dialect) = some .python := by
    decide +kernel
  obtain ⟨script, h, hdialect⟩ := Snippet.exists_ok_of_toOption hfacts
  have hnames : ∀ field ∈ awkwardFields, '\n' ∉ field.1.toList := by simp [awkwardFields]
  obtain ⟨source, lines, others, hstage, hsplit, -, hlines, -⟩ := stage_bindings hdialect hnames 7 {} "run"
  have hsorted : Json.sortFields awkwardFields = [("a", .null), ("b", .array [.string "\x22\\\n\x00é"])] := rfl
  rw [hsorted] at hlines
  cases hlines with
  | cons hfirst hlines =>
    cases hlines with
    | cons hsecond hlines =>
      cases hlines
      exact ⟨script, source, _, _, others, h, hstage, hsplit, hfirst, hsecond⟩

end Script

end AnswerKey
