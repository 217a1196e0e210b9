import AnswerKey.Proofs.Answer.Comparison
import AnswerKey.Proofs.Answer.Forms
import AnswerKey.Proofs.Execution.Result
import AnswerKey.Proofs.Json.Strings

namespace AnswerKey

open Text Code Json

namespace Launcher

def quotes : List (Char × Char) := [('\x22', '\x22'), ('\\', '\\'), ('\n', 'n'), ('\r', 'r'), ('\t', 't')]

def quotedChar (c : Char) : List Char :=
  match quotes.lookup c with
  | some letter => ['\\', letter]
  | none =>
    if c.toNat < 0x20 then ['\\', 'u', '0', '0', Nat.digitChar (c.toNat / 16), Nat.digitChar (c.toNat % 16)]
    else [c]

def quote (s : List Char) : List Char := '\x22' :: (s.flatMap quotedChar ++ ['\x22'])

/-- What the method `toJson` of the launcher returns for a list of characters. -/
def charsText (cs : List Char) : List Char := '[' :: (join [','] (cs.map fun c ↦ quote [c]) ++ [']'])

theorem mem_quotes {c letter : Char} (h : quotes.lookup c = some letter) : (c, letter) ∈ quotes := by
  obtain ⟨front, back, hsplit, -⟩ := List.lookup_eq_some_iff.mp h
  rw [hsplit]
  exact List.mem_append_right _ List.mem_cons_self

theorem ne_of_lookup_quotes {c : Char} (h : quotes.lookup c = none) : c ≠ '\x22' ∧ c ≠ '\\' ∧ c ≠ '\n' := by
  refine ⟨?_, ?_, ?_⟩ <;> rintro rfl <;> exact absurd h (by decide)

theorem unit?_control : ∀ n < 0x20,
    unit? '0' '0' (Nat.digitChar (n / 16)) (Nat.digitChar (n % 16)) = some n := by
  decide

theorem decodes_quotedChar {text s : List Char} (c : Char) (h : Decodes text s) :
    Decodes (quotedChar c ++ text) (c :: s) := by
  unfold quotedChar
  split
  · next letter hletter =>
    have hescapes : ∀ p ∈ quotes, (p.2, p.1) ∈ escapes := by decide
    exact .escaped (hescapes _ (mem_quotes hletter)) h
  · next hnone =>
    obtain ⟨hquote, hslash, -⟩ := ne_of_lookup_quotes hnone
    split
    · next hcontrol =>
      have hunit : Decodes _ (Char.ofNat c.toNat :: s) :=
        .unit (unit?_control c.toNat hcontrol) (fun hplane ↦ absurd hplane.1 (by omega)) h
      rwa [Char.ofNat_toNat] at hunit
    · next hcontrol => exact .plain hquote hslash (Nat.le_of_not_lt hcontrol) h

theorem decodes_quoted (s : List Char) : Decodes (s.flatMap quotedChar) s := by
  induction s with
  | nil => exact .nil
  | cons c s ih => exact decodes_quotedChar c ih

theorem newline_not_mem_quotedChar (c : Char) : '\n' ∉ quotedChar c := by
  unfold quotedChar
  split
  · next letter hletter =>
    have hletters : ∀ p ∈ quotes, p.2 ≠ '\n' := by decide
    simpa using (hletters _ (mem_quotes hletter)).symm
  · next hnone =>
    split
    · have hdigit : ∀ n < 16, '\n' ≠ Nat.digitChar n := by decide
      have hhigh := hdigit (c.toNat / 16) (by omega)
      have hlow := hdigit (c.toNat % 16) (by omega)
      simp [hhigh, hlow]
    · simpa using (ne_of_lookup_quotes hnone).2.2.symm

theorem newline_not_mem_charsText (cs : List Char) : '\n' ∉ charsText cs := by
  have hquote : ∀ piece ∈ cs.map fun c ↦ quote [c], '\n' ∉ piece := by
    intro piece hpiece
    obtain ⟨c, -, rfl⟩ := List.mem_map.mp hpiece
    simp [quote, newline_not_mem_quotedChar]
  have hjoin : '\n' ∉ join [','] (cs.map fun c ↦ quote [c]) := newline_not_mem_join (by decide) hquote
  simp [charsText, hjoin]

theorem parse?_charsText (cs : List Char) : parse? (charsText cs) = some (.array (cs.map fun c ↦ Json.text [c])) := by
  have hreads : List.Forall₂ (ReadsAs 126) (cs.map fun c ↦ quote [c]) (cs.map fun c ↦ Json.text [c]) := by
    rw [List.forall₂_map_left_iff, List.forall₂_map_right_iff, List.forall₂_same]
    exact fun c _ ↦ readsAs_string (decodes_quoted [c])
  exact parse?_of_readsAs (readsAs_compactArray hreads)

theorem trim_charsText (cs : List Char) : trim (charsText cs) = charsText cs :=
  Answer.trim_of_ends (by decide) (by decide) _

theorem collectedValues_charsText (cs : List Char) :
    collectedValues (printed (charsText cs)) = .ok (cs.map fun c ↦ Json.text [c]) := by
  have hparse : parse? (trim (charsText cs)) = some (.array (cs.map fun c ↦ Json.text [c])) := by
    rw [trim_charsText, parse?_charsText]
  exact collectedValues_alone hparse (newline_not_mem_charsText cs)

end Launcher

theorem same_text_iff {s t : List Char} : (Json.text s).same (Json.text t) = true ↔ s = t := by
  simp [Json.text, Json.same, String.ofList_inj]

namespace Answer.Java

def simpleEscapes : List (Char × Char) :=
  [('b', '\x08'), ('t', '\t'), ('n', '\n'), ('f', '\x0C'), ('r', '\r'), ('\x22', '\x22'), (singleQuote, singleQuote),
    (backslash, backslash)]

inductive CharLiteral where
  | raw (c : Char) (hc : c ≠ singleQuote ∧ c ≠ backslash)
  | escape (e c : Char) (h : (e, c) ∈ simpleEscapes)

namespace CharLiteral

def body : CharLiteral → List Char
  | raw c _ => [c]
  | escape e _ _ => [backslash, e]

def written (l : CharLiteral) : List Char := quotedBy singleQuote l.body

/-- The character that the language takes the literal for. -/
def denoted : CharLiteral → Char
  | raw c _ => c
  | escape _ c _ => c

/-- The escapes for backspace, form feed, carriage return and the double quote. -/
def Unresolved : CharLiteral → Prop
  | raw .. => False
  | escape e .. => e ∈ ['b', 'f', 'r', '\x22']

instance : DecidablePred Unresolved
  | raw .. => inferInstanceAs (Decidable False)
  | escape .. => inferInstanceAs (Decidable (_ ∈ _))

def reading (l : CharLiteral) : List Char := if l.Unresolved then l.body else [l.denoted]

theorem charLiteral?_written (l : CharLiteral) : charLiteral? l.written = some l.reading := by
  cases l with
  | raw c hc => exact if_pos ⟨rfl, rfl, hc⟩
  | escape e c h =>
    simp only [simpleEscapes, List.mem_cons, Prod.mk.injEq, List.not_mem_nil, or_false] at h
    rcases h with ⟨rfl, rfl⟩ | ⟨rfl, rfl⟩ | ⟨rfl, rfl⟩ | ⟨rfl, rfl⟩ | ⟨rfl, rfl⟩ | ⟨rfl, rfl⟩ | ⟨rfl, rfl⟩ | ⟨rfl, rfl⟩
    all_goals rfl

theorem read_literal (l : CharLiteral) : read .java l.written = Json.text l.reading := by
  have hvalue : dialectValue? .java l.written = some (Json.text l.reading) := by
    rw [dialectValue?, value?, l.charLiteral?_written]
    rfl
  have htrim : trim l.written = l.written := trim_of_ends (by decide) (by decide) l.body
  rw [read, htrim, hvalue]

theorem same_reading_iff (l : CharLiteral) :
    (Json.text l.reading).same (Json.text [l.denoted]) = true ↔ ¬ l.Unresolved := by
  rw [same_text_iff, reading]
  by_cases h : l.Unresolved
  · rw [if_pos h]
    refine iff_of_false (fun heq ↦ ?_) (not_not_intro h)
    cases l with
    | raw c hc => exact h
    | escape e c hmem => cases heq
  · rw [if_neg h]
    exact iff_of_true rfl h

end CharLiteral

/-- An answer key of character literals against the characters of a run. -/
theorem characters_compared (literals : List CharLiteral) :
    (literals.map fun l ↦ read .java l.written) =
        literals.map (fun l ↦ Json.text (if l.Unresolved then l.body else [l.denoted])) ∧
      collectedValues (printed (Launcher.charsText (literals.map (·.denoted)))) =
        .ok (literals.map fun l ↦ Json.text [l.denoted]) ∧
      (mismatch? (literals.map fun l ↦ read .java l.written) (literals.map fun l ↦ Json.text [l.denoted]) = none ↔
        ∀ l ∈ literals, ¬ l.Unresolved) := by
  refine ⟨?_, ?_, ?_⟩
  · exact List.map_congr_left fun l _ ↦ l.read_literal
  · rw [Launcher.collectedValues_charsText, List.map_map]
    rfl
  · rw [mismatch?_eq_none_iff, List.forall₂_map_left_iff, List.forall₂_map_right_iff, List.forall₂_same]
    refine forall₂_congr fun l _ ↦ ?_
    rw [l.read_literal, l.same_reading_iff]

def backspace : CharLiteral := .escape 'b' '\x08' (by decide)

theorem backspace_kept : backspace.written = "'\\b'".toList ∧ backspace.denoted = '\x08' ∧
    read .java backspace.written = Json.text "\\b".toList ∧
    collectedValues (printed (Launcher.charsText [backspace.denoted])) = .ok [Json.text ['\x08']] ∧
    mismatch? [read .java backspace.written] [Json.text ['\x08']] ≠ none := by
  have hread : read .java backspace.written = Json.text "\\b".toList := backspace.read_literal
  refine ⟨rfl, rfl, hread, Launcher.collectedValues_charsText _, ?_⟩
  rw [hread]
  intro hnone
  cases hnone

end Answer.Java

end AnswerKey
