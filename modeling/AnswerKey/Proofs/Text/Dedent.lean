import AnswerKey.Proofs.Code.Positions
import AnswerKey.Proofs.Text.Indentation
import AnswerKey.Proofs.Text.Lines
import Mathlib.Data.List.Forall2

namespace AnswerKey.Text

open Code

section

variable {s t : List Char} {n : Nat}

def positions : (start : Nat) → List Char → List (Nat × Char)
  | _, [] => []
  | start, c :: text => (start, c) :: positions (start + c.utf8Size) text

/-- The byte behind the last character up to which the texts are the same. -/
def sharedBytes (s t : List Char) : Nat :=
  ((((positions 0 s).zip t).takeWhile fun pair ↦ pair.1.2 = pair.2).getLast?.map fun pair ↦
    pair.1.1 + pair.1.2.utf8Size).getD 0

def upToByte? : Nat → List Char → Option (List Char)
  | 0, _ => some []
  | _ + 1, [] => none
  | n + 1, c :: text => if c.utf8Size ≤ n + 1 then (upToByte? (n + 1 - c.utf8Size) text).map (c :: ·) else none

theorem upToByte?_append (s t : List Char) : upToByte? (byteLength s) (s ++ t) = some s := by
  induction s with
  | nil => cases t <;> rfl
  | cons c s ih =>
    obtain ⟨k, hk⟩ := exists_utf8Size_eq c
    have hbytes : byteLength (c :: s) = k + byteLength s + 1 := by rw [byteLength_cons, hk, Nat.add_right_comm]
    have hrest : k + byteLength s + 1 - c.utf8Size = byteLength s := by omega
    rw [hbytes, List.cons_append, upToByte?, if_pos (by omega), hrest, ih, Option.map_some]

theorem sharedBytes_from (start : Nat) (s t : List Char) :
    ((((positions start s).zip t).takeWhile fun pair ↦ pair.1.2 = pair.2).getLast?.map fun pair ↦
      pair.1.1 + pair.1.2.utf8Size).getD start = start + byteLength (sharedStart s t) := by
  fun_induction sharedStart s t generalizing start with
  | case1 s a t ih =>
    have hrest := ih (start + a.utf8Size)
    rw [positions, List.zip_cons_cons, List.takeWhile_cons_of_pos (by simp), byteLength_cons, ← Nat.add_assoc, ← hrest]
    cases ((positions (start + a.utf8Size) s).zip t).takeWhile (fun pair ↦ decide (pair.1.2 = pair.2)) with
    | nil => rfl
    | cons pair pairs => rfl
  | case2 a s b t hne =>
    rw [positions, List.zip_cons_cons, List.takeWhile_cons_of_neg (by simpa using hne)]
    rfl
  | case3 s t hnil =>
    have hzip : (positions start s).zip t = [] := by
      cases s with
      | nil => rfl
      | cons a s =>
        cases t with
        | nil => rfl
        | cons b t => exact absurd rfl (hnil a s b t rfl)
    rw [hzip]
    rfl

theorem upToByte?_sharedBytes (s t : List Char) : upToByte? (sharedBytes s t) s = some (sharedStart s t) := by
  obtain ⟨rest, hrest⟩ := (sharedStart_isPrefix s t).1
  have hbytes : sharedBytes s t = byteLength (sharedStart s t) := (sharedBytes_from 0 s t).trans (Nat.zero_add _)
  have hcut := upToByte?_append (sharedStart s t) rest
  rw [hrest] at hcut
  rw [hbytes, hcut]

end

section

variable {lines : List Line} {line out : Line}

/-- The shared indentation as cuts at bytes find it; there is none if a cut falls inside a character. -/
def cutIndentation? (lines : List Line) : Option Line :=
  match (lines.filter (!isBlankLine ·)).map indentation with
  | [] => some []
  | blanks :: others => others.foldlM (fun shared blanks ↦ upToByte? (sharedBytes shared blanks) shared) blanks

theorem cutIndentation?_eq (lines : List Line) : cutIndentation? lines = some (sharedIndentation lines) := by
  unfold cutIndentation? sharedIndentation
  cases (lines.filter (!isBlankLine ·)).map indentation with
  | nil => rfl
  | cons blanks others =>
    dsimp only
    induction others generalizing blanks with
    | nil => rfl
    | cons o others ih =>
      rw [List.foldlM_cons, upToByte?_sharedBytes]
      exact ih (sharedStart blanks o)

def Moved (shared line out : Line) : Prop :=
  (isBlankLine line = true → out = []) ∧ (isBlankLine line = false → isBlankLine out = false ∧ line = shared ++ out)

theorem moved_dedent (lines : List Line) :
    List.Forall₂ (Moved (sharedIndentation lines)) lines (dedent lines) := by
  obtain ⟨f, hdedent, hf⟩ := exists_dedent_eq lines
  rw [hdedent, List.forall₂_map_right_iff, List.forall₂_same]
  exact hf

theorem indentation_of_moved {shared : Line} (hshared : isBlankLine shared = true) (h : Moved shared line out)
    (hcode : isBlankLine line = false) : indentation line = shared ++ indentation out := by
  obtain ⟨-, rfl⟩ := h.2 hcode
  exact indentation_append hshared out

/-- Lines and what they become when the indentation they share is taken away. -/
structure Dedented (lines outs : List Line) (shared : Line) : Prop where
  blank : isBlankLine shared = true
  moved : List.Forall₂ (Moved shared) lines outs
  longest : (∃ line ∈ lines, isBlankLine line = false) → ∀ blanks, isBlankLine blanks = true →
    (∀ out ∈ outs, isBlankLine out = false → blanks <+: out) → blanks = []
  relative : ∀ pair ∈ lines.zip outs, ∀ pair' ∈ lines.zip outs,
    isBlankLine pair.1 = false → isBlankLine pair'.1 = false → ∀ further,
      indentation pair'.1 = indentation pair.1 ++ further ↔ indentation pair'.2 = indentation pair.2 ++ further

theorem longest_dedent (hline : line ∈ lines) (hcode : isBlankLine line = false) {blanks : Line}
    (hblank : isBlankLine blanks = true) (h : ∀ out ∈ dedent lines, isBlankLine out = false → blanks <+: out) :
    blanks = [] := by
  obtain ⟨f, hdedent, hf⟩ := exists_dedent_eq lines
  have hout : f line ∈ dedent lines := hdedent ▸ List.mem_map_of_mem hline
  have hshared := isPrefix_sharedIndentation hblank hout ((hf line hline).2 hcode).1 h
  rwa [sharedIndentation_dedent, List.prefix_nil] at hshared

theorem dedented_dedent (lines : List Line) : Dedented lines (dedent lines) (sharedIndentation lines) where
  blank := isBlankLine_sharedIndentation lines
  moved := moved_dedent lines
  longest := fun ⟨_, hline, hcode⟩ _ hblank h ↦ longest_dedent hline hcode hblank h
  relative := by
    have hindent : ∀ pair ∈ lines.zip (dedent lines), isBlankLine pair.1 = false →
        indentation pair.1 = sharedIndentation lines ++ indentation pair.2 := fun pair hpair ↦
      indentation_of_moved (isBlankLine_sharedIndentation lines)
        ((List.forall₂_iff_zip.mp (moved_dedent lines)).2 hpair)
    intro pair hpair pair' hpair' hcode hcode' further
    rw [hindent pair hpair hcode, hindent pair' hpair' hcode', List.append_assoc, List.append_cancel_left_eq]

theorem joinLines_dedent_splitOn (hlines : ∀ line ∈ lines, '\n' ∉ line) :
    joinLines (dedent (splitOn '\n' (joinLines (dedent lines)))) = joinLines (dedent lines) := by
  by_cases hne : dedent lines = []
  · rw [hne]
    rfl
  · rw [splitOn_joinLines (newline_not_mem_dedent hlines) hne, dedent_dedent]

/-- Lines lose the longest indentation that they share and nothing else. The text that they become is cut into these
lines again, and they stay as they are when it is done once more. -/
theorem dedent_exact (hlines : ∀ line ∈ lines, '\n' ∉ line) :
    (lines ≠ [] → splitOn '\n' (joinLines (dedent lines)) = dedent lines) ∧
      cutIndentation? lines = some (sharedIndentation lines) ∧
      Dedented lines (dedent lines) (sharedIndentation lines) ∧ dedent (dedent lines) = dedent lines ∧
      joinLines (dedent (splitOn '\n' (joinLines (dedent lines)))) = joinLines (dedent lines) := by
  refine ⟨fun hne ↦ ?_, cutIndentation?_eq lines, dedented_dedent lines, dedent_dedent lines,
    joinLines_dedent_splitOn hlines⟩
  apply splitOn_joinLines (newline_not_mem_dedent hlines)
  simpa [dedent] using hne

def ideographic : List Line := ["\t\u3000f".toList, " ".toList, "\t\u3000\tg".toList, "\t\u3000 h".toList]

theorem dedent_exact_ideographic : sharedIndentation ideographic = "\t\u3000".toList ∧
    dedent ideographic = ["f".toList, [], "\tg".toList, " h".toList] ∧
    splitOn '\n' (joinLines (dedent ideographic)) = dedent ideographic ∧
    Dedented ideographic (dedent ideographic) "\t\u3000".toList := by
  have hlines : ∀ line ∈ ideographic, '\n' ∉ line := by decide
  have hshared : sharedIndentation ideographic = "\t\u3000".toList := by decide
  obtain ⟨hsplit, -, hdedented, -, -⟩ := dedent_exact hlines
  exact ⟨hshared, by decide, hsplit (by decide), hshared ▸ hdedented⟩

end

end AnswerKey.Text
