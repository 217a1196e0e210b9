import AnswerKey.Code.Comment
import AnswerKey.Proofs.Code.Positions

namespace AnswerKey.Code

open Text

/-- What a round of the scan comes to. -/
inductive Round where
  | ended (inBlock : Bool)
  | broken
  | onward (mode : Mode) (position : Nat)
deriving DecidableEq

def Round.ofAnswer (answer : Option Bool) : Round := answer.elim .broken .ended

section

variable (line opener closer text : List Char)

def scanRound (mode : Mode) (position : Nat) : Round :=
  match (utf8 text)[position]? with
  | none => .ended false
  | some b =>
    if mode ≠ .code then .onward (mode.next (byteChar b)) (position + 1)
    else
      match fromByte? position text with
      | none => .broken
      | some rest =>
        if startsWith rest line then .ended false
        else
          match after? opener rest with
          | some inner =>
            match cut? closer inner with
            | some (front, _) =>
              .onward .code (position + (byteLength opener + byteLength front + byteLength closer))
            | none => .ended true
          | none => .onward (mode.next (byteChar b)) (position + 1)

def scanRounds : Nat → Mode → Nat → Round
  | 0, mode, position => .onward mode position
  | n + 1, mode, position =>
    match scanRound line opener closer text mode position with
    | .onward mode' position' => scanRounds n mode' position'
    | outcome => outcome

end

section

variable {line opener closer text s rest : List Char} {mode mode' : Mode} {position position' n k : Nat} {c : Char}
  {front back : List UInt8}

theorem scanRounds_succ_of_onward (h : scanRound line opener closer text mode position = .onward mode' position') :
    scanRounds line opener closer text (n + 1) mode position =
      scanRounds line opener closer text n mode' position' := by
  rw [scanRounds, h]

theorem scanRounds_succ_of_ofAnswer {answer : Option Bool}
    (h : scanRound line opener closer text mode position = .ofAnswer answer) :
    scanRounds line opener closer text (n + 1) mode position = .ofAnswer answer := by
  cases answer <;> rw [scanRounds, h] <;> rfl

theorem scanRound_of_literal {b : UInt8} (hmode : mode ≠ .code) (hb : (utf8 text)[position]? = some b) :
    scanRound line opener closer text mode position = .onward (mode.next (byteChar b)) (position + 1) := by
  rw [scanRound, hb]
  exact if_pos hmode

theorem Mode.unmarked_ne_code (h : mode ≠ .code) : mode.unmarked ≠ .code := by
  cases mode with
  | code => exact absurd rfl h
  | literal quote escaped => exact Mode.noConfusion

theorem scanRounds_append (hm : mode.IsProper) (hmode : mode ≠ .code) (hne : front ≠ [])
    (hfront : ∀ b ∈ front, 0x80 ≤ b.toNat) (htext : (utf8 text).drop position = front ++ back) :
    scanRounds line opener closer text (front.length + n) mode position =
      scanRounds line opener closer text n mode.unmarked (position + front.length) := by
  induction front generalizing mode position with
  | nil => exact absurd rfl hne
  | cons b front ih =>
    obtain ⟨hb, hfront⟩ := List.forall_mem_cons.mp hfront
    have hbyte : (utf8 text)[position]? = some b := by
      rw [← Nat.add_zero position, ← List.getElem?_drop, htext]
      rfl
    have hrest : (utf8 text).drop (position + 1) = front ++ back := by
      rw [← List.drop_drop, htext]
      rfl
    have hround : scanRound line opener closer text mode position = .onward mode.unmarked (position + 1) := by
      rw [scanRound_of_literal hmode hbyte, Mode.next_of_le hm (le_toNat_byteChar hb)]
    rw [List.length_cons, Nat.add_right_comm, scanRounds_succ_of_onward hround]
    cases front with
    | nil => rw [List.length_nil, Nat.zero_add]
    | cons b' front =>
      rw [ih hm.unmarked (Mode.unmarked_ne_code hmode) (List.cons_ne_nil _ _) hfront hrest, Mode.unmarked_unmarked]
      congr 1
      omega

theorem scanRounds_literal (hm : mode.IsProper) (hmode : mode ≠ .code) (s : List Char) (c : Char) (rest : List Char) :
    scanRounds line opener closer (s ++ c :: rest) (c.utf8Size + n) mode (byteLength s) =
      scanRounds line opener closer (s ++ c :: rest) n (mode.next c) (byteLength s + c.utf8Size) := by
  have htext : (utf8 (s ++ c :: rest)).drop (byteLength s) = String.utf8EncodeChar c ++ utf8 rest := by
    rw [drop_utf8, utf8_cons]
  by_cases hc : c.toNat < 0x80
  · have hbyte : (utf8 (s ++ c :: rest))[byteLength s]? = some (asciiByte c) := by
      rw [← Nat.add_zero (byteLength s), getElem?_utf8_append, utf8_cons, utf8EncodeChar_of_lt hc]
      rfl
    rw [utf8Size_of_lt hc, Nat.add_comm 1 n, scanRounds_succ_of_onward (scanRound_of_literal hmode hbyte),
      byteChar_asciiByte hc]
  · have hle := Nat.le_of_not_lt hc
    rw [← String.length_utf8EncodeChar,
      scanRounds_append hm hmode (utf8EncodeChar_ne_nil c) (le_of_mem_utf8EncodeChar hle) htext, Mode.next_of_le hm hle]

theorem scanRound_code (s : List Char) (c : Char) (rest : List Char) :
    scanRound line opener closer (s ++ c :: rest) .code (byteLength s) =
      if startsWith (c :: rest) line then .ended false
      else
        match after? opener (c :: rest) with
        | some inner =>
          match cut? closer inner with
          | some (front, _) => .onward .code (byteLength s + (byteLength opener + byteLength front + byteLength closer))
          | none => .ended true
        | none => .onward (Mode.code.next c) (byteLength s + 1) := by
  obtain ⟨b, bs, hbytes, hnext⟩ := exists_first_byte c
  have hbyte : (utf8 (s ++ c :: rest))[byteLength s]? = some b := by
    rw [← Nat.add_zero (byteLength s), getElem?_utf8_append, utf8_cons, hbytes]
    rfl
  have hrest : fromByte? (byteLength s) (s ++ c :: rest) = some (c :: rest) := fromByte?_eq_some_iff.mpr ⟨s, rfl, rfl⟩
  simp only [scanRound, hbyte, hrest, hnext]
  rfl

theorem scanRound_inside (hc : 0x80 ≤ c.toNat) (s rest : List Char) :
    scanRound line opener closer (s ++ c :: rest) .code (byteLength s + 1) = .broken := by
  have hsize := one_lt_utf8Size hc
  have hlt : 1 < (utf8 (c :: rest)).length := by
    rw [length_utf8, byteLength_cons]
    omega
  have hbyte : (utf8 (s ++ c :: rest))[byteLength s + 1]? = some (utf8 (c :: rest))[1] := by
    rw [getElem?_utf8_append, List.getElem?_eq_getElem hlt]
  have hnone : fromByte? (byteLength s + 1) (s ++ c :: rest) = none := by
    rw [fromByte?_append, fromByte?, if_neg (by omega)]
  rw [scanRound, hbyte, hnone]
  rfl

theorem scanRound_end (s : List Char) (mode : Mode) :
    scanRound line opener closer (s ++ []) mode (byteLength s) = .ended false := by
  have hnone : (utf8 (s ++ []))[byteLength s]? = none := by
    rw [← Nat.add_zero (byteLength s), getElem?_utf8_append]
    rfl
  rw [scanRound, hnone]

/-- The scan of the bytes from a character on ends as the scan of the characters does. -/
theorem scanRounds_eq (hopener : opener ≠ []) (hm : mode.IsProper) (s : List Char) (hn : byteLength rest < n) :
    scanRounds line opener closer (s ++ rest) n mode (byteLength s) =
      .ofAnswer (leavesOpen? line opener closer mode rest) := by
  obtain ⟨k, rfl⟩ := Nat.exists_eq_add_of_lt hn
  clear hn
  fun_induction leavesOpen? line opener closer mode rest generalizing s k with
  | case1 mode => exact scanRounds_succ_of_ofAnswer (scanRound_end s mode)
  | case2 mode c rest hmode ih =>
    have hbytes : byteLength (c :: rest) + k + 1 = c.utf8Size + (byteLength rest + k + 1) := by
      rw [byteLength_cons]
      omega
    have hnext : byteLength s + c.utf8Size = byteLength (s ++ [c]) := (byteLength_append s [c]).symm
    have htext : s ++ c :: rest = (s ++ [c]) ++ rest := by simp
    rw [hbytes, scanRounds_literal hm hmode, hnext, htext, ih (hm.next c)]
  | case3 mode c rest hmode hline =>
    obtain rfl := Decidable.not_not.mp hmode
    refine scanRounds_succ_of_ofAnswer ?_
    rw [scanRound_code, if_pos hline]
    rfl
  | case4 _ _ _ _ _ _ _ _ _ _ hempty => exact absurd (List.isEmpty_iff.mp hempty) hopener
  | case5 mode c rest hmode hline inner hopen front outer hcut _ ih =>
    obtain rfl := Decidable.not_not.mp hmode
    have hround : scanRound line opener closer (s ++ c :: rest) .code (byteLength s) =
        .onward .code (byteLength s + (byteLength opener + byteLength front + byteLength closer)) := by
      rw [scanRound_code, if_neg hline, hopen]
      simp only [hcut]
    have hcomment : c :: rest = (opener ++ front ++ closer) ++ outer := by
      rw [after?_eq_some_iff.mp hopen, cut?_eq_some hcut]
      simp
    have hlength : byteLength (opener ++ front ++ closer) =
        byteLength opener + byteLength front + byteLength closer := by
      rw [byteLength_append, byteLength_append]
    have hpos : 0 < byteLength opener := by
      rw [← length_utf8]
      obtain ⟨a, opener, rfl⟩ := List.exists_cons_of_ne_nil hopener
      rw [utf8_cons, List.length_append, String.length_utf8EncodeChar]
      exact Nat.add_pos_left a.utf8Size_pos _
    have hbytes : byteLength (c :: rest) + k + 1 =
        (byteLength outer + (byteLength opener - 1 + byteLength front + byteLength closer + k) + 1) + 1 := by
      rw [hcomment, byteLength_append, hlength]
      omega
    rw [hbytes, scanRounds_succ_of_onward hround, ← hlength, ← byteLength_append, hcomment, ← List.append_assoc,
      ih Mode.isProper_code]
  | case6 mode c rest hmode hline inner hopen hcut =>
    obtain rfl := Decidable.not_not.mp hmode
    refine scanRounds_succ_of_ofAnswer ?_
    rw [scanRound_code, if_neg hline, hopen]
    simp only [hcut]
    rfl
  | case7 mode c rest hmode hline hopen hc ih =>
    obtain rfl := Decidable.not_not.mp hmode
    have hround : scanRound line opener closer (s ++ c :: rest) .code (byteLength s) =
        .onward (Mode.code.next c) (byteLength s + 1) := by
      rw [scanRound_code, if_neg hline, hopen]
    have hbytes : byteLength (c :: rest) + k + 1 = (byteLength rest + k + 1) + 1 := by
      rw [byteLength_cons, utf8Size_of_lt hc]
      omega
    have hnext : byteLength s + 1 = byteLength (s ++ [c]) := by
      rw [byteLength_append, byteLength_cons, utf8Size_of_lt hc]
      rfl
    have htext : s ++ c :: rest = (s ++ [c]) ++ rest := by simp
    rw [hbytes, scanRounds_succ_of_onward hround, hnext, htext, ih (hm.next c)]
  | case8 mode c rest hmode hline hopen hc =>
    obtain rfl := Decidable.not_not.mp hmode
    have hle := Nat.le_of_not_lt hc
    have hsize := one_lt_utf8Size hle
    have hnext : Mode.code.next c = .code := Mode.next_of_le Mode.isProper_code hle
    have hround : scanRound line opener closer (s ++ c :: rest) .code (byteLength s) =
        .onward .code (byteLength s + 1) := by
      rw [scanRound_code, if_neg hline, hopen, hnext]
    have hbytes : byteLength (c :: rest) + k + 1 = (c.utf8Size - 2 + byteLength rest + k + 1) + 1 + 1 := by
      rw [byteLength_cons]
      omega
    rw [hbytes, scanRounds_succ_of_onward hround]
    exact scanRounds_succ_of_ofAnswer (scanRound_inside hle s rest)

end

end AnswerKey.Code
