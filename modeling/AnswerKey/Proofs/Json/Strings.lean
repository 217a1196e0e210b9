import AnswerKey.Proofs.Json.Fields
import AnswerKey.Proofs.Json.Written

namespace AnswerKey.Json

open Number Text

def IsSurrogate (n : Nat) : Prop := 0xD800 ≤ n ∧ n ≤ 0xDFFF

inductive Decodes : List Char → List Char → Prop
  | nil : Decodes [] []
  | plain {c : Char} {text s : List Char} (hquote : c ≠ '\x22') (hslash : c ≠ '\\') (hcontrol : 0x20 ≤ c.toNat)
      (h : Decodes text s) : Decodes (c :: text) (c :: s)
  | escaped {c c' : Char} {text s : List Char} (hc : (c, c') ∈ escapes) (h : Decodes text s) :
      Decodes ('\\' :: c :: text) (c' :: s)
  | unit {a b c d : Char} {n : Nat} {text s : List Char} (hn : unit? a b c d = some n) (hplane : ¬ IsSurrogate n)
      (h : Decodes text s) : Decodes ('\\' :: 'u' :: a :: b :: c :: d :: text) (Char.ofNat n :: s)
  | pair {a b c d a' b' c' d' : Char} {high low : Nat} {text s : List Char} (hhigh : unit? a b c d = some high)
      (hlow : unit? a' b' c' d' = some low) (hhighRange : 0xD800 ≤ high ∧ high ≤ 0xDBFF)
      (hlowRange : 0xDC00 ≤ low ∧ low ≤ 0xDFFF) (h : Decodes text s) :
      Decodes ('\\' :: 'u' :: a :: b :: c :: d :: '\\' :: 'u' :: a' :: b' :: c' :: d' :: text)
        (Char.ofNat (0x10000 + (high - 0xD800) * 0x400 + (low - 0xDC00)) :: s)

variable {text rest rest' read s s' content content' : List Char} {depth : Nat} {v : Json}

theorem escaped?_unit {a b c d : Char} {n : Nat} (hn : unit? a b c d = some n) (hplane : ¬ IsSurrogate n)
    (text : List Char) : escaped? ('u' :: a :: b :: c :: d :: text) = some (Char.ofNat n, text) := by
  have hlow : ¬ (0xDC00 ≤ n ∧ n ≤ 0xDFFF) := fun h ↦ hplane ⟨by omega, h.2⟩
  have hhigh : ¬ (0xD800 ≤ n ∧ n ≤ 0xDBFF) := fun h ↦ hplane ⟨h.1, by omega⟩
  simp only [escaped?, escapedUnit?, hn, if_neg hlow, if_neg hhigh]

theorem escaped?_pair {a b c d a' b' c' d' : Char} {high low : Nat} (hhigh : unit? a b c d = some high)
    (hlow : unit? a' b' c' d' = some low) (hhighRange : 0xD800 ≤ high ∧ high ≤ 0xDBFF)
    (hlowRange : 0xDC00 ≤ low ∧ low ≤ 0xDFFF) (text : List Char) :
    escaped? ('u' :: a :: b :: c :: d :: '\\' :: 'u' :: a' :: b' :: c' :: d' :: text) =
      some (Char.ofNat (0x10000 + (high - 0xD800) * 0x400 + (low - 0xDC00)), text) := by
  have hnot : ¬ (0xDC00 ≤ high ∧ high ≤ 0xDFFF) := by omega
  simp only [escaped?, escapedUnit?, hhigh, hlow, if_neg hnot, if_pos hhighRange, if_pos hlowRange]

theorem escaped?_of_mem {c c' : Char} (hc : (c, c') ∈ escapes) (text : List Char) :
    escaped? (c :: text) = some (c', text) := by
  have hunits : ∀ p ∈ escapes, p.1 ≠ 'u' := by decide
  unfold escaped?
  split
  · next heq => cases heq
  · next heq => exact absurd (List.cons.inj heq).1 (hunits _ hc)
  · next heq =>
    cases heq
    rw [lookup_of_mem (by decide) hc]
    rfl

theorem decodes_of_escapedUnit? {c : Char} (h : escapedUnit? text = some (c, content ++ '\x22' :: rest))
    (hcontent : Decodes content s) :
    ∃ front, text = front ++ '\x22' :: rest ∧ Decodes ('\\' :: 'u' :: front) (c :: s) := by
  unfold escapedUnit? at h
  split at h
  · next a b c d text =>
    split at h
    · cases h
    · next high hhigh =>
      split at h
      · cases h
      · next hnotLow =>
        split at h
        · next hhighRange =>
          split at h
          · next a' b' c' d' text =>
            split at h
            · cases h
            · next low hlow =>
              split at h
              · next hlowRange =>
                obtain ⟨rfl, rfl⟩ := Prod.mk.inj (Option.some.inj h)
                exact ⟨a :: b :: c :: d :: '\\' :: 'u' :: a' :: b' :: c' :: d' :: content, by simp,
                  .pair hhigh hlow hhighRange hlowRange hcontent⟩
              · cases h
          · cases h
        · next hnotHigh =>
          cases h
          refine ⟨a :: b :: c :: d :: content, rfl, .unit hhigh ?_ hcontent⟩
          intro hsurrogate
          unfold IsSurrogate at hsurrogate
          omega
  · cases h

theorem decodes_of_escaped? {c : Char} (h : escaped? text = some (c, content ++ '\x22' :: rest))
    (hcontent : Decodes content s) : ∃ front, text = front ++ '\x22' :: rest ∧ Decodes ('\\' :: front) (c :: s) := by
  unfold escaped? at h
  split at h
  · cases h
  · obtain ⟨front, rfl, hfront⟩ := decodes_of_escapedUnit? h hcontent
    exact ⟨'u' :: front, rfl, hfront⟩
  · next c text _ =>
    obtain ⟨c', hlookup, heq⟩ := Option.map_eq_some_iff.mp h
    cases heq
    exact ⟨c :: content, rfl, .escaped (mem_of_lookup hlookup) hcontent⟩

theorem exists_decodes_of_stringRest? (h : stringRest? read text = some (s, rest)) :
    ∃ content decoded, text = content ++ '\x22' :: rest ∧ Decodes content decoded ∧ s = read.reverse ++ decoded := by
  fun_induction stringRest? read text with
  | case1 => cases h
  | case2 =>
    cases h
    exact ⟨[], [], rfl, .nil, (List.append_nil _).symm⟩
  | case3 read text c afterEscape hescaped _ ih =>
    obtain ⟨content, decoded, rfl, hcontent, rfl⟩ := ih h
    obtain ⟨front, rfl, hfront⟩ := decodes_of_escaped? hescaped hcontent
    exact ⟨'\\' :: front, c :: decoded, rfl, hfront, by simp⟩
  | case4 => cases h
  | case5 => cases h
  | case6 read c text hquote hslash hcontrol ih =>
    obtain ⟨content, decoded, rfl, hcontent, rfl⟩ := ih h
    exact ⟨c :: content, c :: decoded, rfl, .plain hquote hslash (Nat.not_lt.mp hcontrol) hcontent, by simp⟩

theorem Decodes.stringRest? (h : Decodes content s) (read rest : List Char) :
    stringRest? read (content ++ '\x22' :: rest) = some (read.reverse ++ s, rest) := by
  induction h generalizing read with
  | nil => rw [List.append_nil]; exact stringRest?_quote read rest
  | plain hquote hslash hcontrol _ ih =>
    rw [List.cons_append, stringRest?_plain hquote hslash hcontrol, ih]
    simp
  | escaped hc _ ih =>
    rw [List.cons_append, List.cons_append, stringRest?_escaped (escaped?_of_mem hc _), ih]
    simp
  | unit hn hplane _ ih =>
    simp only [List.cons_append]
    rw [stringRest?_escaped (escaped?_unit hn hplane _), ih]
    simp
  | pair hhigh hlow hhighRange hlowRange _ ih =>
    simp only [List.cons_append]
    rw [stringRest?_escaped (escaped?_pair hhigh hlow hhighRange hlowRange _), ih]
    simp

theorem stringRest?_eq_some_iff : stringRest? [] text = some (s, rest) ↔
    ∃ content, text = content ++ '\x22' :: rest ∧ Decodes content s := by
  constructor
  · intro h
    obtain ⟨content, decoded, htext, hcontent, rfl⟩ := exists_decodes_of_stringRest? h
    exact ⟨content, htext, hcontent⟩
  · rintro ⟨content, rfl, hcontent⟩
    exact hcontent.stringRest? [] rest

theorem content_of_decodes (h : Decodes text s) : Content text := by
  induction h with
  | nil => exact .nil
  | plain hquote hslash _ _ ih => exact .plain hquote hslash ih
  | escaped _ _ ih => exact .escaped ih
  | unit hn _ _ ih => exact .escaped (content_unit hn ih)
  | pair hhigh hlow _ _ _ ih => exact .escaped (content_unit hhigh (.escaped (content_unit hlow ih)))

/-- Contents end at the first quote that no backslash takes along. -/
theorem Content.unique (h : Content content) (h' : Content content')
    (heq : content ++ '\x22' :: rest = content' ++ '\x22' :: rest') : content = content' ∧ rest = rest' := by
  induction h generalizing content' with
  | nil =>
    cases h' with
    | nil => exact ⟨rfl, (List.cons.inj heq).2⟩
    | plain hquote _ _ => exact absurd (List.cons.inj heq).1.symm hquote
    | escaped _ => exact absurd (List.cons.inj heq).1 (by decide)
  | plain hquote hslash _ ih =>
    cases h' with
    | nil => exact absurd (List.cons.inj heq).1 hquote
    | plain _ _ h' =>
      obtain ⟨rfl, htail⟩ := List.cons.inj heq
      obtain ⟨rfl, hrest⟩ := ih h' htail
      exact ⟨rfl, hrest⟩
    | escaped _ => exact absurd (List.cons.inj heq).1 hslash
  | escaped _ ih =>
    cases h' with
    | nil => exact absurd (List.cons.inj heq).1 (by decide)
    | plain _ hslash _ => exact absurd (List.cons.inj heq).1.symm hslash
    | escaped h' =>
      obtain ⟨rfl, htail⟩ := List.cons.inj (List.cons.inj heq).2
      obtain ⟨rfl, hrest⟩ := ih h' htail
      exact ⟨rfl, hrest⟩

/-- If a value is read from the front of anything that begins with the text, it is of the kind, and what follows the
text is left. -/
def TakenAs (depth : Nat) (text : List Char) (P : Json → Prop) : Prop :=
  ∀ ⦃rest v rest'⦄, EndsNumber rest → value? depth (text ++ rest) = some (v, rest') → P v ∧ rest' = rest

variable {kinds : List (Json → Prop)} {texts : List (List Char)} {values : List Json} {P : Json → Prop}

theorem takenAs_of_readsAs (h : ReadsAs depth text v) (hv : P v) : TakenAs depth text P := by
  intro rest w rest' hrest hvalue
  rw [h rest hrest] at hvalue
  cases hvalue
  exact ⟨hv, rfl⟩

theorem takenAs_number {value : Option Number} (h : IsNumber text value) (hP : ∀ n, value = some n → P (number n)) :
    TakenAs depth text P := by
  intro rest v rest' hrest hvalue
  rw [value?_number h hrest] at hvalue
  obtain ⟨n, hn, heq⟩ := Option.map_eq_some_iff.mp hvalue
  cases heq
  exact ⟨hP n hn, rfl⟩

theorem takenAs_string (h : Content content) (hP : ∀ s, Decodes content s → P (Json.text s)) :
    TakenAs depth ('\x22' :: (content ++ ['\x22'])) P := by
  intro rest v rest' _ hvalue
  rw [List.cons_append, List.append_assoc, List.singleton_append, value?_string] at hvalue
  obtain ⟨⟨s, afterQuote⟩, hs, heq⟩ := Option.map_eq_some_iff.mp hvalue
  cases heq
  obtain ⟨content', heq, hdecodes⟩ := stringRest?_eq_some_iff.mp hs
  obtain ⟨rfl, rfl⟩ := h.unique (content_of_decodes hdecodes) heq
  exact ⟨hP s hdecodes, rfl⟩

theorem readsAs_string (h : Decodes content s) : ReadsAs depth ('\x22' :: (content ++ ['\x22'])) (Json.text s) := by
  intro rest _
  rw [List.cons_append, List.append_assoc, List.singleton_append, value?_string, h.stringRest?]
  rfl

theorem Items.of_space {items : List Json} (h : Items (value? depth) ']' items (' ' :: text) rest) :
    Items (value? depth) ']' items text rest := by
  cases h with
  | last hitem hclose => exact .last ((value?_space _ _).symm.trans hitem) hclose
  | more hitem hcomma h => exact .more ((value?_space _ _).symm.trans hitem) hcomma h

theorem forall₂_of_items (h : List.Forall₂ (TakenAs depth) texts kinds) (hne : texts ≠ [])
    (hitems : Items (value? depth) ']' values (join ", ".toList texts ++ ']' :: rest) rest') :
    List.Forall₂ (fun P v ↦ P v) kinds values := by
  -- Each item leaves what follows its text, so that the next one begins behind the same comma as the next text.
  induction h generalizing values with
  | nil => exact absurd rfl hne
  | @cons text P texts kinds hfirst hothers ih =>
    cases texts with
    | nil =>
      cases hothers
      rw [join, List.intercalate_singleton] at hitems
      cases hitems with
      | last hitem _ => exact .cons (hfirst (endsNumber_cons rfl _) hitem).1 .nil
      | more hitem hcomma _ =>
        obtain ⟨-, rfl⟩ := hfirst (endsNumber_cons rfl _) hitem
        cases hcomma
    | cons next texts =>
      rw [join_cons_cons, List.append_assoc, List.cons_append] at hitems
      cases hitems with
      | last hitem hclose =>
        obtain ⟨-, rfl⟩ := hfirst (endsNumber_cons rfl _) hitem
        cases hclose
      | more hitem hcomma hitems =>
        obtain ⟨hP, rfl⟩ := hfirst (endsNumber_cons rfl _) hitem
        obtain ⟨-, rfl⟩ := List.cons.inj hcomma
        exact .cons hP (ih (List.cons_ne_nil _ _) hitems.of_space)

end AnswerKey.Json
