import AnswerKey.Proofs.Code.OuterComma
import AnswerKey.Proofs.Text.Utf8

namespace AnswerKey.Code

open Text

variable {c : Char} {s t text rest : List Char} {front back : List UInt8} {n : Nat}

theorem utf8_cons (c : Char) (s : List Char) : utf8 (c :: s) = String.utf8EncodeChar c ++ utf8 s := List.flatMap_cons

theorem utf8_append (s t : List Char) : utf8 (s ++ t) = utf8 s ++ utf8 t := List.flatMap_append

theorem byteLength_cons (c : Char) (s : List Char) : byteLength (c :: s) = c.utf8Size + byteLength s := rfl

theorem length_utf8 (s : List Char) : (utf8 s).length = byteLength s := by
  induction s with
  | nil => rfl
  | cons c s ih => rw [utf8_cons, List.length_append, String.length_utf8EncodeChar, ih, byteLength_cons]

theorem utf8_injective (h : utf8 s = utf8 t) : s = t := by
  rw [← decode_utf8 s, h, decode_utf8]

theorem utf8EncodeChar_of_lt (hc : c.toNat < 0x80) : String.utf8EncodeChar c = [asciiByte c] :=
  if_pos (Nat.le_of_lt_succ hc)

theorem ofNat_asciiByte_of_lt (hc : c.toNat < 0x80) : Char.ofNat (asciiByte c).toNat = c := by
  rw [asciiByte, UInt8.toNat_ofNat', Nat.mod_eq_of_lt (by omega)]
  exact Char.ofNat_toNat c

/-- The bytes of a character beyond ASCII are beyond ASCII. -/
theorem le_of_mem_utf8EncodeChar (hc : 0x80 ≤ c.toNat) : ∀ b ∈ String.utf8EncodeChar c, 0x80 ≤ b.toNat := by
  have hvalue : ¬ c.val.toNat ≤ 0x7F := Nat.not_le_of_lt hc
  simp only [String.utf8EncodeChar, if_neg hvalue]
  -- one case for each number of bytes
  split
  · simp [UInt8.toNat_ofNat']
    omega
  · split
    · simp [UInt8.toNat_ofNat']
      omega
    · simp [UInt8.toNat_ofNat']
      omega

theorem eq_of_asciiByte_mem (hc : IsAscii c) {a : Char} (h : asciiByte c ∈ String.utf8EncodeChar a) : a = c := by
  by_cases ha : a.toNat < 0x80
  · rw [utf8EncodeChar_of_lt ha, List.mem_singleton] at h
    rw [← ofNat_asciiByte_of_lt ha, ← h, ofNat_asciiByte hc]
  · have hle := le_of_mem_utf8EncodeChar (Nat.le_of_not_lt ha) _ h
    rw [toNat_asciiByte hc] at hle
    exact absurd hc.2 (Nat.not_lt.mpr hle)

/-- Where the byte of an ASCII character stands in the bytes of a text, that character stands in the text. -/
theorem exists_of_utf8_eq (hc : IsAscii c) (h : utf8 text = front ++ asciiByte c :: back) :
    ∃ s t, text = s ++ c :: t ∧ utf8 s = front ∧ utf8 t = back := by
  induction text generalizing front with
  | nil => simp [utf8] at h
  | cons a text ih =>
    by_cases hac : a = c
    · subst hac
      cases front with
      | nil => exact ⟨[], text, rfl, rfl, (List.cons.inj ((utf8_cons_ascii hc text).symm.trans h)).2⟩
      | cons b front =>
        rw [utf8_cons_ascii hc] at h
        obtain ⟨rfl, hrest⟩ := List.cons.inj h
        obtain ⟨s, t, rfl, rfl, ht⟩ := ih hrest
        exact ⟨a :: s, t, rfl, utf8_cons_ascii hc s, ht⟩
    · -- the byte is none of the first character's
      rw [utf8_cons] at h
      rcases List.append_eq_append_iff.mp h with ⟨front', rfl, hrest⟩ | ⟨later, hfirst, hrest⟩
      · obtain ⟨s, t, rfl, rfl, ht⟩ := ih hrest
        exact ⟨a :: s, t, rfl, utf8_cons a s, ht⟩
      · cases later with
        | nil =>
          have hnil : utf8 text = [] ++ asciiByte c :: back := hrest.symm
          obtain ⟨s, t, rfl, hs, ht⟩ := ih hnil
          refine ⟨a :: s, t, rfl, ?_, ht⟩
          rw [utf8_cons, hs, hfirst, List.append_nil, List.append_nil]
        | cons b later =>
          obtain ⟨rfl, -⟩ := List.cons.inj hrest
          exact absurd (eq_of_asciiByte_mem hc (hfirst ▸ List.mem_append_right _ List.mem_cons_self)) hac

theorem utf8EncodeChar_ne_nil (c : Char) : String.utf8EncodeChar c ≠ [] := by
  rw [← List.length_pos_iff, String.length_utf8EncodeChar]
  exact c.utf8Size_pos

theorem exists_utf8Size_eq (c : Char) : ∃ k, c.utf8Size = k + 1 :=
  Nat.exists_eq_succ_of_ne_zero (Nat.ne_of_gt c.utf8Size_pos)

theorem fromByte?_cons (c : Char) (text : List Char) (n : Nat) :
    fromByte? (c.utf8Size + n) (c :: text) = fromByte? n text := by
  obtain ⟨k, hk⟩ := exists_utf8Size_eq c
  rw [hk, Nat.add_right_comm, fromByte?, if_pos (by omega)]
  congr 1
  omega

theorem fromByte?_append (s text : List Char) (n : Nat) :
    fromByte? (byteLength s + n) (s ++ text) = fromByte? n text := by
  induction s with
  | nil => simp [byteLength]
  | cons c s ih => rw [List.cons_append, byteLength_cons, Nat.add_assoc, fromByte?_cons, ih]

theorem fromByte?_eq_some_iff : fromByte? n text = some rest ↔ ∃ s, text = s ++ rest ∧ byteLength s = n := by
  constructor
  · intro h
    induction text generalizing n with
    | nil =>
      cases n with
      | zero => exact ⟨[], Option.some.inj h, rfl⟩
      | succ n => cases h
    | cons c text ih =>
      cases n with
      | zero => exact ⟨[], Option.some.inj h, rfl⟩
      | succ n =>
        rw [fromByte?] at h
        split at h
        · next hle =>
          obtain ⟨s, rfl, hs⟩ := ih h
          exact ⟨c :: s, rfl, by rw [byteLength_cons, hs]; omega⟩
        · cases h
  · rintro ⟨s, rfl, rfl⟩
    have h := fromByte?_append s rest 0
    rwa [Nat.add_zero, fromByte?] at h

theorem drop_utf8 (s t : List Char) : (utf8 (s ++ t)).drop (byteLength s) = utf8 t := by
  rw [utf8_append, ← length_utf8, List.drop_left]

theorem getElem?_utf8_append (s t : List Char) (n : Nat) : (utf8 (s ++ t))[byteLength s + n]? = (utf8 t)[n]? := by
  rw [← List.getElem?_drop, drop_utf8]

theorem utf8Size_of_lt (hc : c.toNat < 0x80) : c.utf8Size = 1 := by
  rw [← String.length_utf8EncodeChar, utf8EncodeChar_of_lt hc]
  rfl

theorem one_lt_utf8Size (hc : 0x80 ≤ c.toNat) : 1 < c.utf8Size := by
  have hpos := c.utf8Size_pos
  have hone : c.utf8Size ≠ 1 := fun h ↦ Nat.not_le_of_lt hc (Char.utf8Size_eq_one_iff.mp h)
  omega

theorem getElem?_utf8_eq_iff (hc : IsAscii c) :
    (utf8 text)[n]? = some (asciiByte c) ↔ ∃ s t, text = s ++ c :: t ∧ byteLength s = n := by
  constructor
  · intro h
    obtain ⟨hlt, hget⟩ := List.getElem?_eq_some_iff.mp h
    have hcut : utf8 text = (utf8 text).take n ++ asciiByte c :: (utf8 text).drop (n + 1) := by
      rw [← hget, List.getElem_cons_drop, List.take_append_drop]
    obtain ⟨s, t, rfl, hs, -⟩ := exists_of_utf8_eq hc hcut
    refine ⟨s, t, rfl, ?_⟩
    rw [← length_utf8, hs, List.length_take, Nat.min_eq_left (Nat.le_of_lt hlt)]
  · rintro ⟨s, t, rfl, rfl⟩
    rw [← Nat.add_zero (byteLength s), getElem?_utf8_append, utf8_cons_ascii hc]
    rfl

theorem balancedArgument?_append (s t : List Char) :
    balancedArgument? (s ++ '(' :: t) (byteLength s) = (enclosed? 0 .code t).map Prod.fst := by
  have hrest : fromByte? (byteLength s) (s ++ '(' :: t) = some ('(' :: t) := fromByte?_eq_some_iff.mpr ⟨s, rfl, rfl⟩
  rw [balancedArgument?, hrest]
  rfl

def byteChar (b : UInt8) : Char := .ofNat b.toNat

def Mode.unmarked : Mode → Mode
  | .code => .code
  | .literal quote _ => .literal quote false

section

variable {mode : Mode} {c : Char}

theorem ne_of_le {d : Char} (hc : 0x80 ≤ c.toNat) (hd : d.toNat < 0x80) : c ≠ d := by
  rintro rfl
  exact absurd hc (Nat.not_le_of_lt hd)

theorem isAscii_of_isQuote (hc : isQuote c = true) : IsAscii c := by
  simp only [isQuote, Bool.or_eq_true, beq_iff_eq] at hc
  rcases hc with (rfl | rfl) | rfl <;> decide

theorem Mode.next_of_le (hm : mode.IsProper) (hc : 0x80 ≤ c.toNat) : mode.next c = mode.unmarked := by
  rcases mode with - | ⟨quote, - | -⟩
  · have hquote : ¬ isQuote c = true := fun h ↦ Nat.not_le_of_lt (isAscii_of_isQuote h).2 hc
    exact if_neg hquote
  · exact Mode.next_literal (ne_of_le hc (by decide)) (ne_of_le hc (isAscii_of_isQuote hm).2)
  · rfl

theorem Mode.IsProper.unmarked (hm : mode.IsProper) : mode.unmarked.IsProper := by
  cases mode with
  | code => trivial
  | literal quote escaped => exact hm

theorem Mode.unmarked_unmarked (mode : Mode) : mode.unmarked.unmarked = mode.unmarked := by
  cases mode <;> rfl

theorem byteChar_asciiByte (hc : c.toNat < 0x80) : byteChar (asciiByte c) = c := ofNat_asciiByte_of_lt hc

theorem le_toNat_byteChar {b : UInt8} (hb : 0x80 ≤ b.toNat) : 0x80 ≤ (byteChar b).toNat := by
  have hlt := b.toNat_lt
  have hvalid : b.toNat.isValidChar := .inl (by omega)
  rwa [byteChar, Char.ofNat, dif_pos hvalid]

/-- To a scanner the first byte of a character is what the character is. -/
theorem exists_first_byte (c : Char) :
    ∃ b bs, String.utf8EncodeChar c = b :: bs ∧ Mode.code.next (byteChar b) = Mode.code.next c := by
  obtain ⟨b, bs, hbytes⟩ := List.exists_cons_of_ne_nil (utf8EncodeChar_ne_nil c)
  refine ⟨b, bs, hbytes, ?_⟩
  by_cases hc : c.toNat < 0x80
  · rw [utf8EncodeChar_of_lt hc] at hbytes
    obtain ⟨rfl, -⟩ := List.cons.inj hbytes
    rw [byteChar_asciiByte hc]
  · have hle := Nat.le_of_not_lt hc
    have hb := le_of_mem_utf8EncodeChar hle b (hbytes ▸ List.mem_cons_self)
    rw [Mode.next_of_le Mode.isProper_code (le_toNat_byteChar hb), Mode.next_of_le Mode.isProper_code hle]

end

end AnswerKey.Code
