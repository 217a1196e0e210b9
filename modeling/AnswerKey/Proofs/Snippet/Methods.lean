import AnswerKey.Proofs.Dialect.MethodLine
import AnswerKey.Proofs.Snippet.ReturnType

namespace AnswerKey

open Text Java

variable {line : Line} {lines front back : List Line} {m : MethodLine} {s : Snippet} {i entry : Nat}

/-- The first of several lines that begins a method in a plain way. -/
structure FirstMethod (lines front : List Line) (m : MethodLine) (back : List Line) : Prop where
  lines_eq : lines = front ++ m.line :: back
  plain : m.Plain
  front_other : ∀ other : MethodLine, other.Plain → other.line ∉ front

theorem Java.accepts_functionStart_iff :
    functionStart.accepts line = true ↔ ∃ m : MethodLine, m.Plain ∧ m.line = line := by
  constructor
  · intro haccepts
    obtain ⟨heading, hread⟩ := Option.isSome_iff_exists.mp haccepts
    obtain ⟨m, hm, hline, -⟩ := MethodLine.exists_plain_of_functionStart hread
    exact ⟨m, hm, hline⟩
  · rintro ⟨m, hm, rfl⟩
    rw [Marker.accepts, hm.read?_line, Option.isSome_some]

theorem Java.forall_accepts_eq_false_iff : (∀ line ∈ lines, functionStart.accepts line = false) ↔
    ∀ m : MethodLine, m.Plain → m.line ∉ lines := by
  constructor
  · intro hnone m hm hmem
    have haccepts := accepts_functionStart_iff.mpr ⟨m, hm, rfl⟩
    exact Bool.false_ne_true ((hnone _ hmem).symm.trans haccepts)
  · intro hnone line hline
    rw [← Bool.not_eq_true, accepts_functionStart_iff]
    rintro ⟨m, hm, rfl⟩
    exact hnone m hm hline

theorem exists_firstMethod (hm : m.Plain) (hline : lines[i]? = some m.line) :
    ∃ front first back, FirstMethod lines front first back ∧ front.length ≤ i := by
  cases hfirst : firstIndex? functionStart lines with
  | none =>
    have hskipped := List.findIdx?_eq_none_iff.mp hfirst
    exact absurd (List.mem_of_getElem? hline) (forall_accepts_eq_false_iff.mp hskipped m hm)
  | some n =>
    obtain ⟨front, line, back, rfl, rfl, haccepts, hfront⟩ := firstIndex?_eq_some_iff.mp hfirst
    obtain ⟨first, hplain, rfl⟩ := accepts_functionStart_iff.mp haccepts
    have hother := forall_accepts_eq_false_iff.mp hfront
    refine ⟨front, first, back, ⟨rfl, hplain, hother⟩, ?_⟩
    by_contra hlt
    rw [List.getElem?_append_left (Nat.lt_of_not_le hlt)] at hline
    exact hother m hm (List.mem_of_getElem? hline)

namespace Snippet

theorem firstIndex?_of_firstMethod (h : FirstMethod lines front m back) (hentry : front.length < entry) :
    firstIndex? functionStart (lines.take entry) = some front.length := by
  obtain ⟨more, rfl⟩ := Nat.exists_eq_add_of_lt hentry
  have htake : lines.take (front.length + more + 1) = front ++ m.line :: back.take more := by
    rw [h.lines_eq, Nat.add_assoc, List.take_length_add_append, List.take_succ_cons]
  exact firstIndex?_eq_some_iff.mpr ⟨front, m.line, _, htake, rfl, accepts_functionStart_iff.mpr ⟨m, h.plain, rfl⟩,
    forall_accepts_eq_false_iff.mpr h.front_other⟩

/-- A line that begins a static method is read with its name and type exactly if it is plain, and the first plain line
of a Java snippet declares its type and begins its functions. -/
theorem methods_found (hjava : s.dialect = .java) :
    (∀ m : MethodLine, functionStart.read? m.line = some m.heading ↔ m.Plain) ∧
    (∀ (m : MethodLine) (i : Nat), m.Plain → s.lines[i]? = some m.line →
      ∃ front first back, FirstMethod s.lines front first back ∧ front.length ≤ i) ∧
    (∀ front m back, FirstMethod s.lines front m back →
      s.returnType = ReturnType.ofDeclared s.id m.type.written front.length ∧
      ∀ entry, s.entryLine = .ok entry → front.length < entry →
        s.functionLines = .ok (dedent (dropBlankEnd ((s.lines.take entry).drop front.length)))) ∧
    ((∀ m : MethodLine, m.Plain → m.line ∉ s.lines) → s.returnType = .error (.missingBoundary s.id .functionStart)) ∧
    ∀ entry, s.entryLine = .ok entry → (∀ m : MethodLine, m.Plain → m.line ∉ s.lines.take entry) →
      s.functionLines = .error (.defect (.missingBoundary s.id .functionStart)) := by
  have hgrammar : s.grammar.functionStart = functionStart := by rw [grammar, hjava]; rfl
  refine ⟨fun m ↦ MethodLine.read?_line_iff, fun m i hm hline ↦ exists_firstMethod hm hline, ?_, ?_, ?_⟩
  · intro front m back hfirst
    refine ⟨returnType_eq hjava hfirst.lines_eq (forall_accepts_eq_false_iff.mpr hfirst.front_other)
      hfirst.plain.read?_line, fun entry hentry hlt ↦ ?_⟩
    rw [functionLines_of_entryLine hentry, hgrammar, firstIndex?_of_firstMethod hfirst hlt]
  · intro hnone
    rw [returnType, if_neg (not_not.mpr hjava), hgrammar, declaredType?_eq_none (forall_accepts_eq_false_iff.mpr hnone)]
  · intro entry hentry hnone
    have hfirst : firstIndex? functionStart (s.lines.take entry) = none :=
      List.findIdx?_eq_none_iff.mpr (forall_accepts_eq_false_iff.mpr hnone)
    rw [functionLines_of_entryLine hentry, hgrammar, hfirst]

def shop : Snippet where
  id := "shop"
  dialect := .java
  lines := ["class Shop \x7b".toList,
    "\tfinal protected  static synchronized java.util.List <int[]>[] [] stock \t(int i) \x7b".toList,
    "\t\treturn null;".toList, "\t\x7d".toList, [], "\tpublic static void main(String[] args) \x7b".toList,
    "\t\x7d".toList, "\x7d".toList]

def stockMethod : MethodLine where
  indent := ['\t']
  modifiers := [("final", [' ']), ("protected", [' ', ' ']), ("static", [' ']), ("synchronized", [' '])]
  params := none
  type := { name := "java.util.List".toList, args := some ([' '], "int[]".toList), brackets := [([], []), ([' '], [])] }
  gap := [' ']
  name := "stock".toList
  afterName := [' ', '\t']
  rest := "int i) \x7b".toList

theorem stockMethod_plain : stockMethod.Plain :=
  ⟨⟨[("final", [' ']), ("protected", [' ', ' '])], [' '], [("synchronized", [' '])], rfl, by decide, by decide⟩, rfl,
    by decide, by decide⟩

theorem methods_found_shop : functionStart.read? stockMethod.line = some stockMethod.heading ∧
    shop.returnType = .ok .list ∧
    shop.functionLines = .ok
      ["final protected  static synchronized java.util.List <int[]>[] [] stock \t(int i) \x7b".toList,
        "\treturn null;".toList, "\x7d".toList] := by
  obtain ⟨hread, -, hfound, -⟩ := methods_found (s := shop) rfl
  have hfirst : FirstMethod shop.lines (shop.lines.take 1) stockMethod (shop.lines.drop 2) :=
    ⟨by decide +kernel, stockMethod_plain, forall_accepts_eq_false_iff.mp (by decide +kernel)⟩
  obtain ⟨htype, hlines⟩ := hfound _ _ _ hfirst
  refine ⟨(hread stockMethod).mpr stockMethod_plain, htype.trans (by decide +kernel), ?_⟩
  rw [hlines 5 (by decide +kernel) (by decide)]
  decide +kernel

/-- Two methods in front of a plain one: the first has a modifier behind `static`, and the second type parameters. -/
def stall : Snippet where
  id := "stall"
  dialect := .java
  lines := ["class Stall \x7b".toList, "  static public int size() \x7b".toList, "  \x7d".toList,
    "  public static <T> List<T> twice(T x) \x7b".toList, "  \x7d".toList, "  static boolean empty() \x7b".toList,
    "  \x7d".toList, "  public static void main(String[] args) \x7b".toList, "  \x7d".toList, "\x7d".toList]

def sizeMethod : MethodLine where
  indent := [' ', ' ']
  modifiers := [("static", [' ']), ("public", [' '])]
  params := none
  type := { name := "int".toList, args := none, brackets := [] }
  gap := [' ']
  name := "size".toList
  afterName := []
  rest := ") \x7b".toList

def twiceMethod : MethodLine where
  indent := [' ', ' ']
  modifiers := [("public", [' ']), ("static", [' '])]
  params := some ("T".toList, [' '])
  type := { name := "List".toList, args := some ([], "T".toList), brackets := [] }
  gap := [' ']
  name := "twice".toList
  afterName := []
  rest := "T x) \x7b".toList

/-- The methods that are not read: the snippet is reported with the type of a later method, and its functions begin with
that one. -/
theorem methods_missed : stall.lines[1]? = some sizeMethod.line ∧ functionStart.read? sizeMethod.line = none ∧
    stall.lines[3]? = some twiceMethod.line ∧ functionStart.read? twiceMethod.line = none ∧ stall.entryLine = .ok 7 ∧
    stall.returnType = .ok .boolean ∧
    stall.functionLines = .ok ["static boolean empty() \x7b".toList, "\x7d".toList] := by
  decide +kernel

end Snippet

end AnswerKey
