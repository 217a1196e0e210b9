import AnswerKey.Execution.Adapter
import AnswerKey.Execution.Launcher
import AnswerKey.Json.Printer

namespace AnswerKey

open Text

structure Programs where
  python : String := "python3"
  node : String := "node"
  java : String := "java"
  javac : String := "javac"
deriving DecidableEq

def Programs.runner (programs : Programs) : Dialect → String
  | .java => programs.java
  | .javaScript => programs.node
  | .python => programs.python

structure Command where
  program : String
  args : List String
deriving DecidableEq

structure Staging where
  files : List (String × List Char)
  commands : List Command

/-- Files with one more; a file of that name is overwritten. -/
def writeFile (name : String) (content : List Char) (files : List (String × List Char)) :
    List (String × List Char) :=
  files.filter (fun file ↦ file.1 ≠ name) ++ [(name, content)]

def inDirectory (directory name : String) : String := directory ++ "/" ++ name

/-- The text in double quotes; the texts that are quoted so need no escapes. -/
def plainQuoted (s : String) : List Char := '\x22' :: s.toList ++ ['\x22']

def decimal (n : Nat) : List Char := Nat.toDigits 10 n

namespace Script

def pythonBinding : String × Json → List Char
  | (name, value) =>
    name.toList ++ " = _snipcheck_json.loads(".toList ++ Json.quoted value.compact ++ ")\n".toList

def pythonCollectorClass (maxValues : Nat) : List Char :=
  "class _SnipcheckAnswers(list):\n    def append(self, value):\n        if len(self) >= ".toList ++
    decimal maxValues ++ ":\n            raise RuntimeError(".toList ++ plainQuoted Launcher.valueLimitMarker ++
    ")\n        super().append(value)\n".toList

def pythonHead (bindings : Bindings) (maxValues : Nat) : List Char :=
  "import json as _snipcheck_json\n".toList ++ bindings.flatMap pythonBinding ++ pythonCollectorClass maxValues

def pythonTail (entrySymbol : String) : List Char :=
  "print(".toList ++ plainQuoted Launcher.sentinel ++ " + _snipcheck_json.dumps(".toList ++
    entrySymbol.toList ++ ", default=repr))\n".toList

def pythonSource (s : Script) (bindings : Bindings) (maxValues : Nat) : List Char :=
  pythonHead bindings maxValues ++ s.textWithCollector "_SnipcheckAnswers()".toList ++ pythonTail s.entrySymbol

def javaScriptBinding : String × Json → List Char
  | (name, value) => "const ".toList ++ name.toList ++ " = ".toList ++ value.compact ++ ";\n".toList

def javaScriptCollector (maxValues : Nat) : Line :=
  "Object.defineProperty([], 'push', \x7b value: function (...items) \x7b if (this.length + items.length > ".toList ++
    decimal maxValues ++ ") \x7b throw new Error(".toList ++ plainQuoted Launcher.valueLimitMarker ++
    "); \x7d return Array.prototype.push.apply(this, items); \x7d \x7d)".toList

/-- Calls the entry point with an empty collector, so that an earlier call leaves no values. -/
def javaScriptTail (entrySymbol : String) : List Char :=
  collectorName ++ ".length = 0;\nPromise.resolve(".toList ++ entrySymbol.toList ++
    "()).then((result) => console.log(".toList ++ plainQuoted Launcher.sentinel ++
    " + JSON.stringify(result)));\n".toList

def javaScriptSource (s : Script) (bindings : Bindings) (maxValues : Nat) : List Char :=
  bindings.flatMap javaScriptBinding ++ s.textWithCollector (javaScriptCollector maxValues) ++
    javaScriptTail s.entrySymbol

def javaCollector (maxValues : Nat) : Line :=
  "new java.util.ArrayList<Object>() \x7b @Override public boolean add(Object value) \x7b if (size() >= ".toList ++
    decimal maxValues ++ ") \x7b throw new IllegalStateException(".toList ++
    plainQuoted Launcher.valueLimitMarker ++ "); \x7d return super.add(value); \x7d \x7d".toList

/-- The class that the launcher calls: the first one that the script declares. -/
def launchedClass? (s : Script) : Option Line := (linesOf s.text).findSome? Java.className?

def stagePython (s : Script) (bindings : Bindings) (maxValues : Nat) (programs : Programs) (directory : String) :
    Staging where
  files := [("script.py", s.pythonSource bindings maxValues)]
  commands := [⟨programs.python, [inDirectory directory "script.py"]⟩]

def stageJavaScript (s : Script) (bindings : Bindings) (maxValues : Nat) (programs : Programs)
    (directory : String) : Staging where
  files := [("script.js", s.javaScriptSource bindings maxValues)]
  commands := [⟨programs.node, [inDirectory directory "script.js"]⟩]

/-- The class is compiled together with the launcher, which is written last. -/
def stageJava (s : Script) (name : Line) (maxValues : Nat) (programs : Programs) (directory : String) : Staging :=
  let classFile := .ofList name ++ ".java"
  let launcherFile := Launcher.className ++ ".java"
  let classes := inDirectory directory "classes"
  { files := writeFile launcherFile (Launcher.source name)
      [(classFile, s.textWithCollector (javaCollector maxValues))]
    commands :=
      [⟨programs.javac, ["-d", classes, inDirectory directory classFile, inDirectory directory launcherFile]⟩,
        ⟨programs.java, ["-cp", classes, Launcher.className]⟩] }

def longestFileName : Nat := 255

/-- Java scripts take no bindings, which is worth a warning where there are any. -/
def stagingEvents (s : Script) (bindings : Bindings) : List Event :=
  if s.dialect = .java ∧ !bindings.isEmpty then [.bindingsIgnored s.snippetId bindings.length] else []

def stage (s : Script) (bindings : Bindings) (maxValues : Nat) (programs : Programs) (directory : String) :
    Except RunFailure Staging :=
  match s.dialect with
  | .python => .ok (s.stagePython bindings maxValues programs directory)
  | .javaScript => .ok (s.stageJavaScript bindings maxValues programs directory)
  | .java =>
    match s.launchedClass? with
    | some name =>
      if longestFileName < byteLength (name ++ ".java".toList) then
        .error (.system "File name too long (os error 36)")
      else .ok (s.stageJava name maxValues programs directory)
    | none => .error (.unstageable s!"snippet {s.snippetId} declares no top-level class")

end Script
end AnswerKey
