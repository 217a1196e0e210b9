import AnswerKey.Json.Reader
import Mathlib.Data.List.TakeWhile

namespace AnswerKey

namespace Number

def isNumeral (c : Char) : Bool := c.isDigit || c ∈ ['+', '-', '.', 'e', 'E']

variable {text rest : List Char}

theorem isNumeral_of_isDigit {c : Char} (h : c.isDigit = true) : isNumeral c = true := by
  simp [isNumeral, h]

theorem forall_isNumeral_takeWhile (text : List Char) : ∀ c ∈ text.takeWhile Char.isDigit, isNumeral c = true :=
  fun _ hc ↦ isNumeral_of_isDigit (List.mem_takeWhile_imp hc)

def Numerals (text rest : List Char) : Prop := ∃ front, text = front ++ rest ∧ ∀ c ∈ front, isNumeral c = true

theorem numerals_refl (text : List Char) : Numerals text text := ⟨[], rfl, List.forall_mem_nil _⟩

theorem Numerals.trans {middle : List Char} (h : Numerals text middle) (h' : Numerals middle rest) :
    Numerals text rest := by
  obtain ⟨front, rfl, hfront⟩ := h
  obtain ⟨front', rfl, hfront'⟩ := h'
  exact ⟨front ++ front', by simp, List.forall_mem_append.mpr ⟨hfront, hfront'⟩⟩

theorem Numerals.cons {c : Char} (hc : isNumeral c = true) (h : Numerals text rest) : Numerals (c :: text) rest := by
  obtain ⟨front, rfl, hfront⟩ := h
  exact ⟨c :: front, rfl, List.forall_mem_cons.mpr ⟨hc, hfront⟩⟩

theorem numerals_dropWhile (text : List Char) : Numerals text (text.dropWhile Char.isDigit) :=
  ⟨text.takeWhile Char.isDigit, List.takeWhile_append_dropWhile.symm, forall_isNumeral_takeWhile text⟩

theorem numerals_of_readFraction? {fraction : Option (List Char)} (h : readFraction? text = some (fraction, rest)) :
    Numerals text rest := by
  unfold readFraction? at h
  split at h
  · next text =>
    split at h
    · cases h
    · cases h
      exact (numerals_dropWhile text).cons (by decide)
  · cases h
    exact numerals_refl text

theorem numerals_readSign (text : List Char) : Numerals text (readSign text).2 := by
  unfold readSign
  split
  · exact (numerals_refl _).cons (by decide)
  · exact (numerals_refl _).cons (by decide)
  · exact numerals_refl _

theorem numerals_of_readExponent? {power : Option Int} (h : readExponent? text = some (power, rest)) :
    Numerals text rest := by
  unfold readExponent? at h
  split at h
  · next c text =>
    split at h
    · next hc =>
      have hsign := numerals_readSign text
      generalize readSign text = signed at h hsign
      obtain ⟨negative, digits⟩ := signed
      dsimp only at h
      split at h
      · cases h
      · cases h
        refine (hsign.trans (numerals_dropWhile digits)).cons ?_
        rcases hc with rfl | rfl <;> decide
    · cases h
      exact numerals_refl _
  · cases h
    exact numerals_refl _

theorem numerals_of_read? {n : Number} (h : read? text = some (n, rest)) : Numerals text rest := by
  unfold read? at h
  split at h
  next negative digits hsigned =>
  have hsign : Numerals text digits := by
    split at hsigned
    · cases hsigned
      exact (numerals_refl _).cons (by decide)
    · cases hsigned
      exact numerals_refl _
  dsimp only at h
  split at h
  · cases h
  · obtain ⟨⟨fraction, afterFraction⟩, hfraction, h⟩ := Option.bind_eq_some_iff.mp h
    obtain ⟨⟨power, afterPower⟩, hpower, h⟩ := Option.bind_eq_some_iff.mp h
    obtain ⟨number, -, h⟩ := Option.map_eq_some_iff.mp h
    obtain ⟨-, rfl⟩ := Prod.mk.inj h
    exact ((hsign.trans (numerals_dropWhile digits)).trans (numerals_of_readFraction? hfraction)).trans
      (numerals_of_readExponent? hpower)

theorem isNumeral_of_read? {c : Char} {n : Number} (h : read? (c :: text) = some (n, rest)) : isNumeral c = true := by
  unfold read? at h
  split at h
  next negative digits hsigned =>
  split at hsigned
  · next heq =>
    cases heq
    decide
  · cases hsigned
    dsimp only at h
    split at h
    · cases h
    · next hwhole =>
      have hdigit : c.isDigit = true := by
        by_contra hc
        exact hwhole (.inl (by simp [hc]))
      exact isNumeral_of_isDigit hdigit

end Number

namespace Json

open Number

def isStructural (c : Char) : Bool := isBlank c || isNumeral c || c ∈ "[]\x7b\x7d,:nultrefas".toList

/-- What may stand between the quotes of a string; a backslash takes the character behind it along. -/
inductive Content : List Char → Prop
  | nil : Content []
  | plain {c : Char} {text : List Char} (hquote : c ≠ '\x22') (hslash : c ≠ '\\') (h : Content text) :
      Content (c :: text)
  | escaped {c : Char} {text : List Char} (h : Content text) : Content ('\\' :: c :: text)

inductive Lexical : List Char → Prop
  | nil : Lexical []
  | char {c : Char} {text : List Char} (hc : isStructural c = true) (h : Lexical text) : Lexical (c :: text)
  | string {content text : List Char} (hcontent : Content content) (h : Lexical text) :
      Lexical ('\x22' :: (content ++ '\x22' :: text))

variable {α : Type} {text rest front : List Char} {depth : Nat} {v : Json}

theorem Lexical.append (h : Lexical front) (hrest : Lexical rest) : Lexical (front ++ rest) := by
  induction h with
  | nil => exact hrest
  | char hc _ ih => exact .char hc ih
  | string hcontent _ ih =>
    rw [List.cons_append, List.append_assoc]
    exact .string hcontent ih

theorem lexical_of_forall (h : ∀ c ∈ text, isStructural c = true) : Lexical text := by
  induction text with
  | nil => exact .nil
  | cons c text ih =>
    obtain ⟨hc, htext⟩ := List.forall_mem_cons.mp h
    exact .char hc (ih htext)

theorem lexical_of_isBlank (h : ∀ c ∈ text, isBlank c = true) : Lexical text :=
  lexical_of_forall fun c hc ↦ by simp [isStructural, h c hc]

/-- What a reader has taken off the front of a text is lexical. -/
def Takes (text rest : List Char) : Prop := ∃ front, text = front ++ rest ∧ Lexical front

theorem Takes.trans {middle : List Char} (h : Takes text middle) (h' : Takes middle rest) : Takes text rest := by
  obtain ⟨front, rfl, hfront⟩ := h
  obtain ⟨front', rfl, hfront'⟩ := h'
  exact ⟨front ++ front', by simp, hfront.append hfront'⟩

theorem takes_cons {c : Char} (hc : isStructural c = true) (text : List Char) : Takes (c :: text) text :=
  ⟨[c], rfl, .char hc .nil⟩

theorem takes_skipBlanks (text : List Char) : Takes text (skipBlanks text) :=
  ⟨text.takeWhile isBlank, List.takeWhile_append_dropWhile.symm,
    lexical_of_isBlank fun _ ↦ List.mem_takeWhile_imp⟩

theorem takes_of_skipBlanks {c : Char} (h : skipBlanks text = c :: rest) (hc : isStructural c = true) :
    Takes text rest :=
  (takes_skipBlanks text).trans (h ▸ takes_cons hc rest)

theorem takes_of_numerals (h : Numerals text rest) : Takes text rest := by
  obtain ⟨front, rfl, hfront⟩ := h
  exact ⟨front, rfl, lexical_of_forall fun c hc ↦ by simp [isStructural, hfront c hc]⟩

/-- A front that stays content of a string behind a backslash. -/
def Escapes (front : List Char) : Prop := ∀ content, Content content → Content ('\\' :: (front ++ content))

theorem plain_of_hexValue? {c : Char} {n : Nat} (h : hexValue? c = some n) : c ≠ '\x22' ∧ c ≠ '\\' := by
  have hquote : hexValue? '\x22' = none := by decide
  have hslash : hexValue? '\\' = none := by decide
  constructor
  · rintro rfl
    rw [hquote] at h
    cases h
  · rintro rfl
    rw [hslash] at h
    cases h

theorem content_unit {a b c d : Char} {n : Nat} (h : unit? a b c d = some n) {content : List Char}
    (hcontent : Content content) : Content (a :: b :: c :: d :: content) := by
  simp only [unit?, Option.bind_eq_bind, Option.bind_eq_some_iff] at h
  obtain ⟨_, ha, _, hb, _, hc, _, hd, -⟩ := h
  have hplain {c : Char} {n : Nat} {content : List Char} (hc : hexValue? c = some n) (hcontent : Content content) :
      Content (c :: content) := .plain (plain_of_hexValue? hc).1 (plain_of_hexValue? hc).2 hcontent
  exact hplain ha (hplain hb (hplain hc (hplain hd hcontent)))

theorem escapes_of_escapedUnit? {c : Char} (h : escapedUnit? text = some (c, rest)) :
    ∃ front, text = front ++ rest ∧ Escapes ('u' :: front) := by
  unfold escapedUnit? at h
  split at h
  · next a b c d text =>
    split at h
    · cases h
    · next high hhigh =>
      split at h
      · cases h
      · split at h
        · split at h
          · next a' b' c' d' text =>
            split at h
            · cases h
            · next low hlow =>
              split at h
              · obtain ⟨-, rfl⟩ := Prod.mk.inj (Option.some.inj h)
                exact ⟨[a, b, c, d, '\\', 'u', a', b', c', d'], rfl,
                  fun content hcontent ↦ .escaped (content_unit hhigh (.escaped (content_unit hlow hcontent)))⟩
              · cases h
          · cases h
        · obtain ⟨-, rfl⟩ := Prod.mk.inj (Option.some.inj h)
          exact ⟨[a, b, c, d], rfl, fun content hcontent ↦ .escaped (content_unit hhigh hcontent)⟩
  · cases h

theorem escapes_of_escaped? {c : Char} (h : escaped? text = some (c, rest)) :
    ∃ front, text = front ++ rest ∧ Escapes front := by
  unfold escaped? at h
  split at h
  · cases h
  · obtain ⟨front, rfl, hfront⟩ := escapes_of_escapedUnit? h
    exact ⟨'u' :: front, rfl, hfront⟩
  · next c text _ =>
    obtain ⟨_, -, heq⟩ := Option.map_eq_some_iff.mp h
    obtain ⟨-, rfl⟩ := Prod.mk.inj heq
    exact ⟨[c], rfl, fun content hcontent ↦ .escaped hcontent⟩

theorem content_of_stringRest? {read s : List Char} (h : stringRest? read text = some (s, rest)) :
    ∃ content, text = content ++ '\x22' :: rest ∧ Content content := by
  fun_induction stringRest? read text with
  | case1 => cases h
  | case2 =>
    cases h
    exact ⟨[], rfl, .nil⟩
  | case3 read text c rest' hescaped _ ih =>
    obtain ⟨content, rfl, hcontent⟩ := ih h
    obtain ⟨front, rfl, hfront⟩ := escapes_of_escaped? hescaped
    exact ⟨'\\' :: (front ++ content), by simp, hfront content hcontent⟩
  | case4 => cases h
  | case5 => cases h
  | case6 read c text hquote hslash _ ih =>
    obtain ⟨content, rfl, hcontent⟩ := ih h
    exact ⟨c :: content, rfl, .plain hquote hslash hcontent⟩

theorem exists_of_map {β : Type} {found : Option (α × List Char)} {f : α → β} {b : β}
    (h : (found.map fun (a, rest) ↦ (f a, rest)) = some (b, rest)) : ∃ a, found = some (a, rest) ∧ f a = b := by
  obtain ⟨⟨a, rest'⟩, hfound, heq⟩ := Option.map_eq_some_iff.mp h
  obtain ⟨hb, rfl⟩ := Prod.mk.inj heq
  exact ⟨a, hfound, hb⟩

theorem takes_of_string? {s : String} (h : string? text = some (s, rest)) : Takes text rest := by
  unfold string? at h
  split at h
  · obtain ⟨s, hrest, -⟩ := exists_of_map h
    obtain ⟨content, rfl, hcontent⟩ := content_of_stringRest? hrest
    exact ⟨'\x22' :: (content ++ ['\x22']), by simp, .string hcontent .nil⟩
  · cases h

theorem word?_eq_some_iff {word : List Char} : word? word text = some rest ↔ text = word ++ rest := by
  induction word generalizing text with
  | nil => simp [word?]
  | cons a word ih =>
    cases text with
    | nil => simp [word?]
    | cons b text =>
      by_cases h : a = b
      · simp [word?, h, ih]
      · simp [word?, h, Ne.symm h]

theorem takes_of_scalar? (h : scalar? text = some (v, rest)) : Takes text rest := by
  unfold scalar? at h
  split at h
  · next found hfound =>
    cases h
    obtain ⟨⟨word, value⟩, hmem, hword⟩ := List.exists_of_findSome?_eq_some hfound
    obtain ⟨rest', hrest, heq⟩ := Option.map_eq_some_iff.mp hword
    obtain ⟨-, rfl⟩ := Prod.mk.inj heq
    have hstructural : ∀ literal ∈ literals, literal.1.all isStructural = true := by decide
    exact ⟨word, word?_eq_some_iff.mp hrest, lexical_of_forall (List.all_eq_true.mp (hstructural _ hmem))⟩
  · split at h
    · obtain ⟨s, hs, -⟩ := exists_of_map h
      exact takes_of_string? hs
    · obtain ⟨n, hn, -⟩ := exists_of_map h
      exact takes_of_numerals (numerals_of_read? hn)

section

variable {item? : List Char → Option (α × List Char)} {closer : Char} {found : List α}

theorem takes_of_items? (hitem : ∀ text a rest, item? text = some (a, rest) → Takes text rest)
    (hcloser : isStructural closer = true) {fuel : Nat} {read : List α}
    (h : items? item? closer fuel read text = some (found, rest)) : Takes text rest := by
  induction fuel generalizing read text with
  | zero => cases h
  | succ fuel ih =>
    simp only [items?] at h
    split at h
    · cases h
    · next a afterItem ha =>
      have hfirst := hitem _ _ _ ha
      split at h
      · cases h
      · next c afterMark hmark =>
        split at h
        · next hc =>
          cases h
          exact hfirst.trans (takes_of_skipBlanks hmark (hc ▸ hcloser))
        · split at h
          · next hc =>
            exact (hfirst.trans (takes_of_skipBlanks hmark (hc ▸ by decide))).trans (ih h)
          · cases h

theorem takes_of_enclosed? (hitem : ∀ text a rest, item? text = some (a, rest) → Takes text rest)
    (hcloser : isStructural closer = true) (h : enclosed? item? closer text = some (found, rest)) :
    Takes text rest := by
  unfold enclosed? at h
  split at h
  · cases h
  · next c afterMark hmark =>
    split at h
    · next hc =>
      cases h
      exact takes_of_skipBlanks hmark (hc ▸ hcloser)
    · exact takes_of_items? hitem hcloser h

theorem takes_of_field? {a : String × α} (hitem : ∀ text a rest, item? text = some (a, rest) → Takes text rest)
    (h : field? item? text = some (a, rest)) : Takes text rest := by
  unfold field? at h
  split at h
  · cases h
  · next name afterName hname =>
    have hfront := (takes_skipBlanks text).trans (takes_of_string? hname)
    split at h
    · next afterColon hcolon =>
      obtain ⟨value, hvalue, -⟩ := exists_of_map h
      exact (hfront.trans (takes_of_skipBlanks hcolon (by decide))).trans (hitem _ _ _ hvalue)
    · cases h

end

theorem takes_of_value? (h : value? depth text = some (v, rest)) : Takes text rest := by
  induction depth generalizing text v rest with
  | zero =>
    unfold value? at h
    split at h
    · cases h
    · cases h
    · exact (takes_skipBlanks text).trans (takes_of_scalar? h)
  | succ depth ih =>
    unfold value? at h
    split at h
    · next hmark =>
      obtain ⟨items, hitems, -⟩ := exists_of_map h
      exact (takes_of_skipBlanks hmark (by decide)).trans
        (takes_of_enclosed? (fun _ _ _ ↦ ih) (by decide) hitems)
    · next hmark =>
      obtain ⟨fields, hfields, -⟩ := exists_of_map h
      exact (takes_of_skipBlanks hmark (by decide)).trans
        (takes_of_enclosed? (fun _ _ _ ↦ takes_of_field? fun _ _ _ ↦ ih) (by decide) hfields)
    · exact (takes_skipBlanks text).trans (takes_of_scalar? h)

theorem parse?_eq_some_iff : parse? text = some v ↔
    ∃ rest, value? maxDepth text = some (v, rest) ∧ ∀ c ∈ rest, isBlank c = true := by
  unfold parse?
  cases hvalue : value? maxDepth text with
  | none => simp
  | some found =>
    obtain ⟨w, rest⟩ := found
    have hblank : (skipBlanks rest).isEmpty = true ↔ ∀ c ∈ rest, isBlank c = true := by
      rw [skipBlanks, List.isEmpty_iff, List.dropWhile_eq_nil_iff]
    constructor
    · intro h
      simp only at h
      split at h
      · next hrest =>
        cases h
        exact ⟨rest, rfl, hblank.mp hrest⟩
      · cases h
    · rintro ⟨rest', heq, hrest⟩
      cases heq
      exact if_pos (hblank.mpr hrest)

/-- A text whose first character may stand in a number is a number or nothing. -/
theorem value?_of_isNumeral {c : Char} {text' : List Char} (htext : skipBlanks text = c :: text')
    (hc : isNumeral c = true) :
    value? depth text = (Number.read? (c :: text')).map fun (n, rest) ↦ (number n, rest) := by
  have hopener : c ≠ '[' ∧ c ≠ '\x7b' ∧ c ≠ '\x22' := by
    refine ⟨?_, ?_, ?_⟩ <;> rintro rfl <;> revert hc <;> decide
  have hwords : ∀ literal ∈ literals, word? literal.1 (c :: text') = none := by
    have hheads : ∀ literal ∈ literals, literal.1.head?.map isNumeral = some false := by decide
    intro literal hmem
    obtain ⟨a, ha, hanumeral⟩ := Option.map_eq_some_iff.mp (hheads literal hmem)
    obtain ⟨word, heq⟩ := List.head?_eq_some_iff.mp ha
    have hne : a ≠ c := by
      rintro rfl
      rw [hc] at hanumeral
      cases hanumeral
    simp [heq, word?, hne]
  unfold value?
  rw [htext]
  split
  · next heq => exact absurd (List.cons.inj heq).1 hopener.1
  · next heq => exact absurd (List.cons.inj heq).1 hopener.2.1
  · unfold scalar?
    split
    · next found hfound =>
      obtain ⟨literal, hmem, hword⟩ := List.exists_of_findSome?_eq_some hfound
      obtain ⟨rest, hrest, -⟩ := Option.map_eq_some_iff.mp hword
      rw [hwords literal hmem] at hrest
      cases hrest
    · split
      · next heq => exact absurd (List.cons.inj heq).1 hopener.2.2
      · rfl

theorem read?_of_value? {n : Number} (h : value? depth text = some (number n, rest)) :
    Number.read? (skipBlanks text) = some (n, rest) := by
  unfold value? at h
  split at h
  · cases depth with
    | zero => cases h
    | succ depth =>
      obtain ⟨_, -, heq⟩ := exists_of_map h
      cases heq
  · cases depth with
    | zero => cases h
    | succ depth =>
      obtain ⟨_, -, heq⟩ := exists_of_map h
      cases heq
  · unfold scalar? at h
    split at h
    · next found hfound =>
      cases h
      obtain ⟨literal, hmem, hword⟩ := List.exists_of_findSome?_eq_some hfound
      obtain ⟨_, -, heq⟩ := Option.map_eq_some_iff.mp hword
      have hliterals : ∀ literal ∈ literals, ∀ n, literal.2 ≠ number n := by simp [literals]
      exact absurd (Prod.mk.inj heq).1 (hliterals literal hmem n)
    · split at h
      · obtain ⟨_, -, heq⟩ := exists_of_map h
        cases heq
      · obtain ⟨m, hread, heq⟩ := exists_of_map h
        cases heq
        exact hread

/-- A number followed by a character that is neither blank nor of a number is no value. -/
theorem parse?_concat_eq_none {c : Char} {n : Number} (h : parse? text = some (number n)) (hblank : isBlank c = false)
    (hc : isNumeral c = false) : parse? (text ++ [c]) = none := by
  obtain ⟨rest, hvalue, -⟩ := parse?_eq_some_iff.mp h
  have hread := read?_of_value? hvalue
  cases hskip : skipBlanks text with
  | nil =>
    rw [hskip] at hread
    cases hread
  | cons x text' =>
    rw [hskip] at hread
    have hx := isNumeral_of_read? hread
    have hskip' : skipBlanks (text ++ [c]) = x :: (text' ++ [c]) := by
      rw [skipBlanks] at hskip ⊢
      rw [List.dropWhile_append, hskip]
      rfl
    by_contra hsome
    obtain ⟨w, hw⟩ := Option.ne_none_iff_exists'.mp hsome
    obtain ⟨rest', hvalue', hrest'⟩ := parse?_eq_some_iff.mp hw
    rw [value?_of_isNumeral hskip' hx] at hvalue'
    obtain ⟨m, hread', -⟩ := exists_of_map hvalue'
    obtain ⟨front, htext, hfront⟩ := numerals_of_read? hread'
    have hmem : c ∈ front ++ rest' := htext ▸ by simp
    rcases List.mem_append.mp hmem with hmem | hmem
    · rw [hfront c hmem] at hc
      cases hc
    · rw [hrest' c hmem] at hblank
      cases hblank

theorem lexical_of_parse? (h : parse? text = some v) : Lexical text := by
  obtain ⟨rest, hvalue, hrest⟩ := parse?_eq_some_iff.mp h
  obtain ⟨front, rfl, hfront⟩ := takes_of_value? hvalue
  exact hfront.append (lexical_of_isBlank hrest)

end Json
end AnswerKey
